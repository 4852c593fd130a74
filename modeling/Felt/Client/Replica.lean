import Felt.Client.Mirror
import Felt.Server.Update

/-!
# A client in step with the server

A client that has received everything is in step with the game: it has a
mirror of every object that has an id, under that id, and no others. The
server writes an object as its id when it has one, so that whatever a message
mentions, the client finds the mirror of it – `Model.image`.

What a client makes of each kind of broadcast is computed here once, from
that; and what it makes of them is in step with what the server has then.

The tables and the heap are dealt with separately. Whether a client is in step is
about the tables, and about the mirrors only as far as they are of the right
objects; where a mirror stands and whose hand it is in is nobody's concern here,
and comes in `Felt.Client.Portrait` and `Felt.Client.Scene`. So `Echo` says for
every update what the client is then, and each of the three relations is carried
over from there.
-/

namespace Felt

namespace Server

/-- The class of an object that is an entity. -/
def Game.kindOf {α : Type} (g : Game α) : Obj → Option Kind
  | .entity e => some (g.entities e).kind
  | _ => none

end Server

namespace Client

open Server (Game Obj Kind Packed Call Msg Numbered Policy Mentions plain packed)

variable {α : Type} {g g' : Game α} {c c' : Model α}

/-! ## Moving a mirror -/

/-- What a change of `r` makes of the mirror `b`. -/
def mirrorAt (r : Ref) (f : Mirror α → Mirror α) (b : ℕ) (v : Mirror α) : Mirror α :=
  if r = .mirror b then f v else v

/-- **Changing a mirror changes nothing else.** -/
theorem mapMirror_eq (r : Ref) (f : Mirror α → Mirror α) (c : Model α) :
    c.mapMirror r f = { c with heap := fun b => mirrorAt r f b (c.heap b) } := by
  cases r with
  | game => rfl
  | mirror a =>
    have hheap : Function.update c.heap a (f (c.heap a))
        = fun b => mirrorAt (.mirror a) f b (c.heap b) := by
      funext b
      unfold mirrorAt
      rw [Function.update_apply]
      rcases eq_or_ne b a with rfl | hb
      · rw [if_pos rfl, if_pos rfl]
      · rw [if_neg hb, if_neg (fun h => hb (Ref.mirror.inj h).symm)]
    show ({ c with heap := _ } : Model α) = _
    rw [hheap]

/-- A field that is not changed. -/
theorem mirrorAt_field {β : Type} (field : Mirror α → β) {f : Mirror α → Mirror α}
    (h : ∀ v, field (f v) = field v) (r : Ref) (b : ℕ) (v : Mirror α) :
    field (mirrorAt r f b v) = field v := by
  unfold mirrorAt
  split_ifs
  · exact h v
  · rfl

/-- The children of `p` when `self`, a child of `was`, becomes one of
`parent`. -/
def movedChildren (self : Ref) (was parent : Option Ref) (p : Ref) (children : List Ref) :
    List Ref :=
  if parent = none ∨ was = parent then children
  else if was = some p then children.erase self
  else if parent = some p then children ++ [self]
  else children

/-- **What becomes of a mirror** when `self`, a child of `was`, is moved to
`parent`. -/
def Mirror.moved (self : ℕ) (was parent : Option Ref) (x y : Option Number) (a : ℕ)
    (v : Mirror α) : Mirror α :=
  { v with
    parent := if a = self then parent else v.parent
    children := movedChildren (.mirror self) was parent (.mirror a) v.children
    x := if a = self then x.getD v.x else v.x
    y := if a = self then y.getD v.y else v.y }

/-- The client when a mirror has moved. -/
def Model.placed (self : ℕ) (parent : Option Ref) (x y : Option Number) (c : Model α) : Model α :=
  { c with heap := fun a => (c.heap a).moved self (c.heap self).parent parent x y a }

/-- Two models with the same tables, and with the same mirrors. -/
theorem placed_of_heap {a : ℕ} {parent : Option Ref} {x y : Option Number} {h : ℕ → Mirror α}
    (hheap : ∀ b, h b = (c.heap b).moved a (c.heap a).parent parent x y b) :
    ({ c with heap := h } : Model α) = c.placed a parent x y := by
  unfold Model.placed
  rw [funext hheap]

/-- The mirror at new coordinates. -/
def Mirror.at (x y : Option Number) (v : Mirror α) : Mirror α :=
  { v with x := x.getD v.x, y := y.getD v.y }

/-- The first half of a `moveto`. -/
def Model.departed (self : Ref) (parent : Option Ref) (x y : Option Number) (c : Model α) :
    Model α :=
  (c.leaveParent self parent).mapMirror self (Mirror.at x y)

theorem moveto_eq {a : ℕ} {k : Kind} (parent : Option Ref) (x y : Option Number)
    (hk : (c.heap a).kind = some k) (hfield : k ≠ .field) : c.moveto (.mirror a) parent x y
      = ((c.departed (.mirror a) parent x y).joinParent (.mirror a) parent >>= fun c' =>
          pure (c'.mapMirror (.mirror a) (fun v => { v with parent := parent }))) := by
  unfold Model.moveto
  simp only [hk]
  cases k with
  | field => exact absurd rfl hfield
  | _ => rfl

theorem isEntity_of_kind (hkind : ∀ b, (c'.heap b).kind = (c.heap b).kind) (p : Ref) :
    c'.isEntity p = c.isEntity p := by
  cases p with
  | game => rfl
  | mirror b => exact congrArg Option.isSome (hkind b)

theorem joinParent_of_parent {self p : Ref} (h : c.parentOf self = some p) :
    c.joinParent self (some p) = .ok c := by
  unfold Model.joinParent
  simp only [if_pos h]

theorem joinParent_of_ne {self p : Ref} (h : c.parentOf self ≠ some p) (hp : c.isEntity p = true) :
    c.joinParent self (some p) = .ok (c.add p self) := by
  unfold Model.joinParent
  simp only [if_neg h, hp, if_true]

/-- **An entity that is no field is moved** to another entity, or nowhere. -/
theorem moveto_apply {a : ℕ} {k : Kind} {parent : Option Ref} (x y : Option Number)
    (hk : (c.heap a).kind = some k) (hfield : k ≠ .field)
    (hparent : ∀ p, parent = some p → c.isEntity p = true) :
    c.moveto (.mirror a) parent x y = .ok (c.placed a parent x y) := by
  rw [moveto_eq parent x y hk hfield]
  rcases parent with _ | p
  · -- to nowhere, whatever the parent was
    have hleave : c.leaveParent (.mirror a) none = c := rfl
    unfold Model.departed
    rw [hleave]
    refine congrArg Except.ok ?_
    simp only [mapMirror_eq]
    refine placed_of_heap (fun b => ?_)
    unfold Mirror.moved movedChildren mirrorAt Mirror.at
    rcases eq_or_ne b a with rfl | hb
    · simp
    · simp [hb, hb.symm]
  · have hp := hparent p rfl
    rcases hwas : (c.heap a).parent with _ | q
    · -- from nowhere
      let c₂ : Model α := { c with
        heap := fun b => mirrorAt (.mirror a) (Mirror.at x y) b (c.heap b) }
      have hdeparted : c.departed (.mirror a) (some p) x y = c₂ := by
        unfold Model.departed Model.leaveParent Model.parentOf
        simp only [hwas]
        exact mapMirror_eq _ _ _
      have hself : c₂.parentOf (.mirror a) ≠ some p := by
        show (mirrorAt (.mirror a) (Mirror.at x y) a (c.heap a)).parent ≠ some p
        rw [mirrorAt_field Mirror.parent (f := Mirror.at x y) (fun _ => rfl), hwas]
        nofun
      have hp₂ : c₂.isEntity p = true := (isEntity_of_kind (fun b =>
        mirrorAt_field Mirror.kind (f := Mirror.at x y) (fun _ => rfl) _ b _) p).trans hp
      rw [hdeparted, joinParent_of_ne hself hp₂]
      refine congrArg Except.ok ?_
      unfold Model.add
      simp only [mapMirror_eq, c₂]
      refine placed_of_heap (c := c) (fun b => ?_)
      rw [hwas]
      unfold Mirror.moved movedChildren mirrorAt Mirror.at
      rcases eq_or_ne b a with rfl | hb <;> rcases eq_or_ne p (.mirror b) with rfl | hpb
      · simp
      · simp [hpb]
      · simp [hb, hb.symm]
      · simp [hb, hb.symm, hpb]
    · by_cases hqp : q = p
      · -- within the same parent
        let c₂ : Model α := { c with
          heap := fun b => mirrorAt (.mirror a) (Mirror.at x y) b (c.heap b) }
        have hdeparted : c.departed (.mirror a) (some p) x y = c₂ := by
          unfold Model.departed Model.leaveParent Model.parentOf
          simp only [hwas, hqp, ne_eq, not_true_eq_false, if_false]
          exact mapMirror_eq _ _ _
        have hself : c₂.parentOf (.mirror a) = some p := by
          show (mirrorAt (.mirror a) (Mirror.at x y) a (c.heap a)).parent = some p
          rw [mirrorAt_field Mirror.parent (f := Mirror.at x y) (fun _ => rfl), hwas, hqp]
        rw [hdeparted, joinParent_of_parent hself]
        refine congrArg Except.ok ?_
        simp only [mapMirror_eq, c₂]
        refine placed_of_heap (c := c) (fun b => ?_)
        rw [hwas, hqp]
        unfold Mirror.moved movedChildren mirrorAt Mirror.at
        rcases eq_or_ne b a with rfl | hb
        · simp
        · simp [hb, hb.symm]
      · -- from one parent to another
        let c₂ : Model α := { c with
          heap := fun b => mirrorAt (.mirror a) (Mirror.at x y) b
            (mirrorAt q (fun v => { v with children := v.children.erase (.mirror a) }) b
              (mirrorAt (.mirror a) (fun v => { v with parent := none }) b (c.heap b))) }
        have hdeparted : c.departed (.mirror a) (some p) x y = c₂ := by
          unfold Model.departed Model.leaveParent Model.parentOf Model.remove
          simp only [hwas, ne_eq, hqp, not_false_eq_true, if_true, mapMirror_eq]
          rfl
        have hself : c₂.parentOf (.mirror a) ≠ some p := by
          intro h
          change (mirrorAt (.mirror a) (Mirror.at x y) a _).parent = some p at h
          rw [mirrorAt_field Mirror.parent (f := Mirror.at x y) (fun _ => rfl),
            mirrorAt_field Mirror.parent (f := fun v =>
              { v with children := v.children.erase (.mirror a) }) (fun _ => rfl)] at h
          unfold mirrorAt at h
          rw [if_pos rfl] at h
          cases h
        have hp₂ : c₂.isEntity p = true := by
          refine (isEntity_of_kind (fun b => ?_) p).trans hp
          change (mirrorAt (.mirror a) (Mirror.at x y) b _).kind = _
          rw [mirrorAt_field Mirror.kind (f := Mirror.at x y) (fun _ => rfl),
            mirrorAt_field Mirror.kind (f := fun v =>
              { v with children := v.children.erase (.mirror a) }) (fun _ => rfl),
            mirrorAt_field Mirror.kind (f := fun v => { v with parent := none }) (fun _ => rfl)]
        rw [hdeparted, joinParent_of_ne hself hp₂]
        refine congrArg Except.ok ?_
        unfold Model.add
        simp only [mapMirror_eq, c₂]
        refine placed_of_heap (c := c) (fun b => ?_)
        rw [hwas]
        unfold Mirror.moved movedChildren mirrorAt Mirror.at
        rcases eq_or_ne b a with rfl | hb <;> rcases eq_or_ne p (.mirror b) with rfl | hpb <;>
          rcases eq_or_ne q (.mirror b) with rfl | hqb
        · exact absurd rfl hqp
        · simp [hqp]
        · simp [hqp, hpb]
        · simp [hqp, hpb, hqb]
        · exact absurd rfl hqp
        · simp [hqp, hb, hb.symm]
        · simp [hqp, hb, hb.symm, hpb]
        · simp [hqp, hb, hb.symm, hpb, hqb]

/-! ## A client in step -/

/-- **A mirror of `o`**, which has that id. -/
structure Mirror.Of (g : Game α) (id : ℕ) (o : Obj) (v : Mirror α) : Prop where
  /-- It was made of `o`. -/
  object : v.object = o
  /-- It has the id. -/
  id : v.id = some id
  /-- It has the class. -/
  kind : v.kind = g.kindOf o
  /-- That of a player has the name. -/
  name : ∀ p, o = .player p → v.name = (g.people p).name

/-- **A client in step with the ids of a game.** -/
structure Indexed (g : Game α) (c : Model α) : Prop where
  /-- It is in a game. -/
  inGame : c.InGame
  /-- Every object that has an id has its mirror there. -/
  mirror : ∀ id o, g.objects.get id = some o →
    ∃ a, c.objects.get id = some (.mirror a) ∧ a < c.next ∧ (c.heap a).Of g id o
  /-- Nothing else has an id. -/
  only : ∀ id r, c.objects.get id = some r → id = 0 ∨ ∃ o, g.objects.get id = some o
  /-- `r_objects` is the inverse of `objects`. -/
  inverse : Dict.Inverse c.objects c.rObjects

/-- What a client has for an object. -/
def Model.image (c : Model α) (g : Game α) (o : Obj) : Ref :=
  ((g.known o).bind c.objects.get).getD .game

/-- **What a mention means to a client**: the game, or a mirror of the object. -/
def Model.Shows (c : Model α) (r : Ref) (o : Obj) : Prop :=
  (r = .game ∧ o = .game) ∨ ∃ a, r = .mirror a ∧ (c.heap a).object = o

/-- **Every id in a message is there, and means the object that was meant.** -/
def Honoured (c : Model α) (m : Msg α) : Prop :=
  ∀ id o, Packed.known id o ∈ m.mentions →
    ∃ r, c.loaded = true ∧ c.objects.get id = some r ∧ c.Shows r o

/-- **A client receives these messages**, one after the other, and every id in
them means what was meant when it is received. -/
inductive Replays : Model α → List (Msg α) → Model α → Prop where
  /-- None. -/
  | nil (c : Model α) : Replays c [] c
  /-- One, and then the others. -/
  | cons {c c₁ c' : Model α} {m : Msg α} {ms : List (Msg α)} (hm : Honoured c m)
      (hr : c.receive m = .ok c₁) (h : Replays c₁ ms c') : Replays c (m :: ms) c'

theorem Replays.single {m : Msg α} (hm : Honoured c m) (hr : c.receive m = .ok c') :
    Replays c [m] c' := .cons hm hr (.nil c')

theorem Replays.append {c₁ : Model α} {ms ms' : List (Msg α)} (h : Replays c ms c₁)
    (h' : Replays c₁ ms' c') : Replays c (ms ++ ms') c' := by
  induction h with
  | nil => exact h'
  | cons hm hr _ ih => exact .cons hm hr (ih h')

section Indexed

variable (h : Indexed g c) (hg : Numbered g)

include hg in
theorem image_of_listed {id : ℕ} {o : Obj} (ho : g.objects.get id = some o) :
    c.image g o = (c.objects.get id).getD .game := by
  unfold Model.image
  rw [hg.known_eq ho]
  rfl

include h in
theorem Indexed.image_game : c.image g .game = .game := by
  unfold Model.image
  show (c.objects.get 0).getD .game = .game
  rw [h.inGame.game]
  rfl

include h hg in
/-- **The mirror of an object that has an id.** -/
theorem Indexed.image {id : ℕ} {o : Obj} (ho : g.objects.get id = some o) :
    ∃ a, c.image g o = .mirror a ∧ c.objects.get id = some (.mirror a) ∧ a < c.next
      ∧ (c.heap a).Of g id o := by
  obtain ⟨a, ha, hlt, hof⟩ := h.mirror id o ho
  refine ⟨a, ?_, ha, hlt, hof⟩
  rw [image_of_listed hg ho, ha]
  rfl

include h hg in
/-- What is found for an object the server mentions. -/
theorem Indexed.find {o : Obj} (ho : o = .game ∨ g.Listed o) (m : Msg α) :
    c.find m (packed g.known o) = some (c.image g o) := by
  rcases ho with rfl | ⟨id, hid⟩
  · rw [h.image_game]
    exact (h.inGame.find_known 0 .game).trans h.inGame.game
  · obtain ⟨a, himage, ha, -⟩ := h.image hg hid
    rw [hg.packed_eq hid, h.inGame.find_known, ha, himage]

include h hg in
theorem Indexed.denotes {o : Obj} (ho : o = .game ∨ g.Listed o) (m : Msg α) :
    c.denotes m (packed g.known o) = c.image g o := by
  unfold Model.denotes
  rw [h.find hg ho]
  rfl

include h hg in
/-- **What a message mentions that has ids means what was meant.** -/
theorem Indexed.honoured {call : (Obj → Packed) → Call α} (hm : Mentions g call) :
    Honoured c (plain g call) := by
  intro id o hmem
  obtain ⟨o', ho', hlisted⟩ := hm _ (by simpa [plain, Msg.mentions] using hmem)
  rcases hlisted with rfl | ⟨id', hid'⟩
  · obtain ⟨rfl, rfl⟩ := Packed.known.inj ho'
    exact ⟨.game, h.inGame.loaded, h.inGame.game, Or.inl ⟨rfl, rfl⟩⟩
  · rw [hg.packed_eq hid'] at ho'
    obtain ⟨rfl, rfl⟩ := Packed.known.inj ho'
    obtain ⟨a, ha, -, hof⟩ := h.mirror id o hid'
    exact ⟨.mirror a, h.inGame.loaded, ha, Or.inr ⟨a, rfl, hof.object⟩⟩

include h hg in
/-- **A message whose objects all have ids** is dispatched. -/
theorem Indexed.receive_plain {call : (Obj → Packed) → Call α} (hm : Mentions g call) :
    c.receive (plain g call)
      = c.dispatch (c.denotes (plain g call)) (call (packed g.known)) := by
  have hmentions : (plain g call).mentions = (call (packed g.known)).mentions :=
    List.append_nil _
  rw [Model.receive_of (Model.grounded_of_flat (fun p hp => absurd hp List.not_mem_nil))
    (fun m hmem => ?_) (fun _ p hp => absurd hp List.not_mem_nil), Model.build_of_plain rfl]
  · rfl
  · rw [hmentions] at hmem
    obtain ⟨o, rfl, ho⟩ := hm m hmem
    rw [h.find hg ho]
    nofun

/-! ## What a client makes of each broadcast -/

include h hg in
theorem Indexed.receive_text {call : Call α} (hcall : call.isText = true) :
    c.receive (plain g (fun _ => call)) = .ok c := by
  rw [h.receive_plain hg (Server.mentions_text hcall)]
  cases call with
  | message _ => rfl
  | chat _ _ => rfl
  | _ => cases hcall

include h hg in
theorem Indexed.receive_held {p : ℕ} {item : Option ℕ} (hp : g.Listed (.player p))
    (hitem : ∀ e, item = some e → g.Listed (.entity e)) :
    c.receive (plain g (fun packed =>
        .set (packed (.player p)) .held (item.map (fun e => packed (.entity e)))))
      = .ok (c.mapMirror (c.image g (.player p)) (fun v =>
          { v with held := item.map (fun e => c.image g (.entity e)) })) := by
  rw [h.receive_plain hg (Server.mentions_held hp hitem)]
  obtain ⟨id, hid⟩ := hp
  obtain ⟨a, ha, -⟩ := h.image hg hid
  have hvalue : ∀ m, (item.map (fun e => packed g.known (.entity e))).map (c.denotes m)
      = item.map (fun e => c.image g (.entity e)) := by
    intro m
    cases item with
    | none => rfl
    | some e => exact congrArg some (h.denotes hg (Or.inr (hitem e rfl)) m)
  show c.set (c.denotes _ (packed g.known (.player p))) .held (Option.map _ _) = _
  rw [hvalue, h.denotes hg (Or.inr ⟨id, hid⟩), ha]
  rfl

include h hg in
theorem Indexed.receive_heldBy {e : ℕ} {who : Option ℕ} (he : g.Listed (.entity e))
    (hwho : ∀ p, who = some p → g.Listed (.player p)) :
    c.receive (plain g (fun packed =>
        .set (packed (.entity e)) .heldBy (who.map (fun p => packed (.player p)))))
      = .ok (c.mapMirror (c.image g (.entity e)) (fun v =>
          { v with heldBy := who.map (fun p => c.image g (.player p)) })) := by
  rw [h.receive_plain hg (Server.mentions_heldBy he hwho)]
  obtain ⟨id, hid⟩ := he
  obtain ⟨a, ha, -⟩ := h.image hg hid
  have hvalue : ∀ m, (who.map (fun p => packed g.known (.player p))).map (c.denotes m)
      = who.map (fun p => c.image g (.player p)) := by
    intro m
    cases who with
    | none => rfl
    | some p => exact congrArg some (h.denotes hg (Or.inr (hwho p rfl)) m)
  show c.set (c.denotes _ (packed g.known (.entity e))) .heldBy (Option.map _ _) = _
  rw [hvalue, h.denotes hg (Or.inr ⟨id, hid⟩), ha]
  rfl

include h hg in
/-- **A move is made**, by the mirrors. -/
theorem Indexed.receive_moveto {e a : ℕ} {parent : Option ℕ} (x y : Option ℚ)
    (he : g.Listed (.entity e)) (hkind : (g.entities e).kind ≠ .field)
    (hparent : ∀ p, parent = some p → g.Listed (.entity p))
    (ha : c.image g (.entity e) = .mirror a) :
    c.receive (plain g (Server.movetoCall e parent x y))
      = .ok (c.placed a (parent.map (fun p => c.image g (.entity p))) (x.map Model.sent)
          (y.map Model.sent)) := by
  rw [h.receive_plain hg (Server.mentions_moveto he hparent)]
  have hvalue : ∀ m, (parent.map (fun p => packed g.known (.entity p))).map (c.denotes m)
      = parent.map (fun p => c.image g (.entity p)) := by
    intro m
    cases parent with
    | none => rfl
    | some p => exact congrArg some (h.denotes hg (Or.inr (hparent p rfl)) m)
  show c.moveto (c.denotes _ (packed g.known (.entity e))) (Option.map _ _) _ _ = _
  rw [hvalue, h.denotes hg (Or.inr he), ha]
  obtain ⟨id, hid⟩ := he
  obtain ⟨a', ha', -, -, hof⟩ := h.image hg hid
  obtain rfl := Ref.mirror.inj (ha.symm.trans ha')
  refine moveto_apply _ _ hof.kind hkind (fun r hr => ?_)
  obtain ⟨p, hp, rfl⟩ := Option.map_eq_some_iff.mp hr
  obtain ⟨id', hid'⟩ := hparent p hp
  obtain ⟨b, hb, -, -, hof'⟩ := h.image hg hid'
  rw [hb]
  show (c.heap b).kind.isSome = true
  rw [hof'.kind]
  rfl

include h hg in
/-- What is registered already stays as it is. -/
theorem Indexed.receive_again {o : Obj} {id : ℕ} (ho : g.objects.get id = some o) :
    c.receive (plain g (fun packed => .addObject (packed .game) (packed o)))
      = .ok { c with
          objects := c.objects.set id (c.image g o)
          rObjects := c.rObjects.set (c.image g o) id } := by
  rw [h.receive_plain hg (Server.mentions_pair ⟨id, ho⟩ (fun _ => rfl))]
  show (if c.denotes _ (packed g.known .game) = .game
    then c.addObject (c.denotes _ (packed g.known o)) else _) = _
  rw [h.denotes hg (Or.inl rfl), h.image_game, if_pos rfl, h.denotes hg (Or.inr ⟨id, ho⟩)]
  obtain ⟨a, ha, -, -, hof⟩ := h.image hg ho
  unfold Model.addObject
  rw [ha, show c.idOf (.mirror a) = some id from hof.id]

include h hg in
/-- A mirror without a parent is deleted. -/
theorem Indexed.receive_delete {e id a : ℕ} (hid : g.objects.get id = some (.entity e))
    (hkind : (g.entities e).kind ≠ .field) (ha : c.image g (.entity e) = .mirror a)
    (hparent : (c.heap a).parent = none) :
    c.receive (plain g (fun packed => .deleteObject (packed .game) (packed (.entity e))))
      = .ok { c with objects := c.objects.erase id, rObjects := c.rObjects.erase (.mirror a) } := by
  rw [h.receive_plain hg (Server.mentions_pair ⟨id, hid⟩ (fun _ => rfl))]
  show (if c.denotes _ (packed g.known .game) = .game
    then c.deleteObject (c.denotes _ (packed g.known (.entity e))) else _) = _
  rw [h.denotes hg (Or.inl rfl), h.image_game, if_pos rfl, h.denotes hg (Or.inr ⟨id, hid⟩), ha]
  obtain ⟨a', ha', -, -, hof⟩ := h.image hg hid
  obtain rfl := Ref.mirror.inj (ha.symm.trans ha')
  have hdelete : c.delete (.mirror a) = .ok () := by
    unfold Model.delete
    simp only [show (c.heap a).kind = some (g.entities e).kind from hof.kind, hparent, ne_eq,
      not_true_eq_false, if_false, hkind]
  unfold Model.deleteObject
  rw [hdelete, show c.idOf (.mirror a) = some id from hof.id]
  rfl

include h hg in
/-- A player is announced. -/
theorem Indexed.receive_addPlayer {p : ℕ} (hp : g.Listed (.player p)) :
    c.receive (plain g (fun packed => .addPlayer (packed .game) (packed (.player p))))
      = .ok { c with players := c.players.set (g.people p).name (c.image g (.player p)) } := by
  rw [h.receive_plain hg (Server.mentions_pair hp (fun _ => rfl))]
  show (if c.denotes _ (packed g.known .game) = .game
    then c.addPlayer (c.denotes _ (packed g.known (.player p))) else _) = _
  rw [h.denotes hg (Or.inl rfl), h.image_game, if_pos rfl, h.denotes hg (Or.inr hp)]
  obtain ⟨id, hid⟩ := hp
  obtain ⟨a, ha, -, -, hof⟩ := h.image hg hid
  rw [ha]
  show Except.ok { c with players := c.players.set (c.heap a).name (.mirror a) } = _
  rw [hof.name p rfl]

end Indexed

/-! ## Staying in step -/

/-- **The same mirrors in the same tables**: what ids rest on is as it was. -/
structure Reshaped (c c' : Model α) : Prop where
  /-- There is a game, or not. -/
  loaded : c'.loaded = c.loaded
  /-- As many mirrors. -/
  next : c'.next = c.next
  /-- `objects`. -/
  objects : ∀ id, c'.objects.get id = c.objects.get id
  /-- `r_objects`. -/
  rObjects : ∀ r, c'.rObjects.get r = c.rObjects.get r
  /-- They were made of the same objects. -/
  object : ∀ a, (c'.heap a).object = (c.heap a).object
  /-- They have the same ids. -/
  id : ∀ a, (c'.heap a).id = (c.heap a).id
  /-- They have the same classes. -/
  kind : ∀ a, (c'.heap a).kind = (c.heap a).kind
  /-- They have the same names. -/
  name : ∀ a, (c'.heap a).name = (c.heap a).name

namespace Reshaped

theorem refl (c : Model α) : Reshaped c c :=
  ⟨rfl, rfl, fun _ => rfl, fun _ => rfl, fun _ => rfl, fun _ => rfl, fun _ => rfl, fun _ => rfl⟩

theorem mapMirror (c : Model α) (r : Ref) {f : Mirror α → Mirror α}
    (hobject : ∀ v, (f v).object = v.object) (hid : ∀ v, (f v).id = v.id)
    (hkind : ∀ v, (f v).kind = v.kind) (hname : ∀ v, (f v).name = v.name) :
    Reshaped c (c.mapMirror r f) := by
  rw [mapMirror_eq]
  exact ⟨rfl, rfl, fun _ => rfl, fun _ => rfl,
    fun _ => mirrorAt_field Mirror.object hobject _ _ _,
    fun _ => mirrorAt_field Mirror.id hid _ _ _, fun _ => mirrorAt_field Mirror.kind hkind _ _ _,
    fun _ => mirrorAt_field Mirror.name hname _ _ _⟩

theorem placed (c : Model α) (a : ℕ) (parent : Option Ref) (x y : Option Number) :
    Reshaped c (c.placed a parent x y) :=
  ⟨rfl, rfl, fun _ => rfl, fun _ => rfl, fun _ => rfl, fun _ => rfl, fun _ => rfl, fun _ => rfl⟩

theorem setPlayers (c : Model α) (players : Dict Bytes Ref) :
    Reshaped c { c with players := players } :=
  ⟨rfl, rfl, fun _ => rfl, fun _ => rfl, fun _ => rfl, fun _ => rfl, fun _ => rfl, fun _ => rfl⟩

/-- Registering what is registered. -/
theorem again {id : ℕ} {r : Ref} (h : Dict.Inverse c.objects c.rObjects)
    (hr : c.objects.get id = some r) : Reshaped c
      { c with objects := c.objects.set id r, rObjects := c.rObjects.set r id } :=
  ⟨rfl, rfl, Dict.get_set_again hr, Dict.get_set_again ((h id r).mp hr), fun _ => rfl, fun _ => rfl,
    fun _ => rfl, fun _ => rfl⟩

theorem inGame (h : Reshaped c c') (hc : c.InGame) : c'.InGame :=
  ⟨h.loaded.trans hc.loaded, by rw [h.objects, hc.game]⟩

end Reshaped

/-- **Two games with the same objects**, as far as mirrors go. -/
structure SameMirrors (g g' : Game α) : Prop where
  /-- `objects`. -/
  objects : ∀ id, g'.objects.get id = g.objects.get id
  /-- The classes. -/
  kind : ∀ e, (g'.entities e).kind = (g.entities e).kind
  /-- The names. -/
  name : ∀ p, (g'.people p).name = (g.people p).name

theorem SameMirrors.of_sameObjects (h : Server.SameObjects g g') : SameMirrors g g' :=
  ⟨h.objects, h.kind, h.name⟩

theorem Mirror.Of.same {id : ℕ} {o : Obj} {v v' : Mirror α} (h : v.Of g id o)
    (hs : SameMirrors g g') (hobject : v'.object = v.object) (hid : v'.id = v.id)
    (hkind : v'.kind = v.kind) (hname : v'.name = v.name) : v'.Of g' id o where
  object := hobject.trans h.object
  id := hid.trans h.id
  kind := by
    rw [hkind, h.kind]
    cases o with
    | entity e => exact congrArg some (hs.kind e).symm
    | _ => rfl
  name p hp := by rw [hname, h.name p hp, hs.name]

/-- **Who is in step stays in step** when no object comes or goes. -/
theorem Indexed.reshaped (h : Indexed g c) (hs : SameMirrors g g') (hc : Reshaped c c') :
    Indexed g' c' where
  inGame := hc.inGame h.inGame
  mirror id o ho := by
    rw [hs.objects] at ho
    obtain ⟨a, ha, hlt, hof⟩ := h.mirror id o ho
    exact ⟨a, by rw [hc.objects, ha], hlt.trans_eq hc.next.symm,
      hof.same hs (hc.object a) (hc.id a) (hc.kind a) (hc.name a)⟩
  only id r hr := by
    rw [hc.objects] at hr
    simpa only [hs.objects] using h.only id r hr
  inverse id r := by
    rw [hc.objects, hc.rObjects]
    exact h.inverse id r

/-- **A new object comes.** -/
theorem Indexed.gained (h : Indexed g c) {id : ℕ} {o : Obj} {v : Mirror α}
    (hfree : g.objects.get id = none) (hpos : id ≠ 0)
    (hobjects : ∀ id', g'.objects.get id' = if id' = id then some o else g.objects.get id')
    (hkind : ∀ id' o', g.objects.get id' = some o' → g'.kindOf o' = g.kindOf o')
    (hname : ∀ id' p, g.objects.get id' = some (.player p) →
      (g'.people p).name = (g.people p).name)
    (hv : v.Of g' id o) : Indexed g' (c.gained v id) := by
  -- an id that is free on the server is free in the client
  have hnone : c.objects.get id = none := by
    rcases hr : c.objects.get id with _ | r
    · rfl
    · rcases h.only id r hr with h0 | ⟨o', ho'⟩
      · exact absurd h0 hpos
      · rw [hfree] at ho'
        cases ho'
  -- and the mirror that is made is a new one
  have hnew : c.rObjects.get (.mirror c.next) = none := by
    rcases hr : c.rObjects.get (.mirror c.next) with _ | id'
    · rfl
    · have hid' := (h.inverse id' _).mpr hr
      rcases h.only id' _ hid' with rfl | ⟨o', ho'⟩
      · rw [h.inGame.game] at hid'
        cases hid'
      · obtain ⟨a, ha, hlt, -⟩ := h.mirror id' o' ho'
        rw [hid'] at ha
        obtain rfl := Ref.mirror.inj (Option.some.inj ha)
        exact absurd hlt (lt_irrefl _)
  refine ⟨⟨h.inGame.loaded, ?_⟩, fun id' o' ho' => ?_, fun id' r hr => ?_,
    h.inverse.set hnone hnew⟩
  · show (c.objects.set id _).get 0 = some .game
    rw [Dict.get_set_of_ne _ _ hpos.symm, h.inGame.game]
  · rw [hobjects] at ho'
    show ∃ a, (c.objects.set id _).get id' = _ ∧ a < c.next + 1
      ∧ (Function.update c.heap c.next v a).Of g' id' o'
    split_ifs at ho' with hid'
    · obtain rfl := Option.some.inj ho'
      refine ⟨c.next, ?_, Nat.lt_succ_self _, ?_⟩
      · rw [hid', Dict.get_set_self]
      · rw [Function.update_self, hid']
        exact hv
    · obtain ⟨a, ha, hlt, hof⟩ := h.mirror id' o' ho'
      refine ⟨a, ?_, hlt.trans (Nat.lt_succ_self _), ?_⟩
      · rw [Dict.get_set_of_ne _ _ hid', ha]
      · rw [Function.update_of_ne hlt.ne]
        refine ⟨hof.object, hof.id, ?_, fun p hp => ?_⟩
        · rw [hof.kind, hkind id' o' ho']
        · subst hp
          rw [hof.name p rfl, hname id' p ho']
  · change (c.objects.set id _).get id' = some r at hr
    rw [Dict.get_set] at hr
    simp only [hobjects]
    split_ifs at hr with hid'
    · exact Or.inr ⟨o, if_pos hid'⟩
    · rw [if_neg hid']
      exact h.only id' r hr

/-- **An object goes.** -/
theorem Indexed.lost (h : Indexed g c) {id a : ℕ} (ha : c.objects.get id = some (.mirror a))
    (hobjects : ∀ id', g'.objects.get id' = if id' = id then none else g.objects.get id')
    (hkind : ∀ e, (g'.entities e).kind = (g.entities e).kind)
    (hname : ∀ p, (g'.people p).name = (g.people p).name) :
    Indexed g' { c with
      objects := c.objects.erase id, rObjects := c.rObjects.erase (.mirror a) } := by
  have hpos : 0 ≠ id := fun h0 => by
    rw [← h0, h.inGame.game] at ha
    cases ha
  refine ⟨⟨h.inGame.loaded, ?_⟩, fun id' o' ho' => ?_, fun id' r hr => ?_, h.inverse.erase ha⟩
  · show (c.objects.erase id).get 0 = some .game
    rw [Dict.get_erase_of_ne _ hpos, h.inGame.game]
  · rw [hobjects] at ho'
    split_ifs at ho' with hid'
    obtain ⟨b, hb, hlt, hof⟩ := h.mirror id' o' ho'
    refine ⟨b, ?_, hlt, ⟨hof.object, hof.id, ?_, fun p hp => ?_⟩⟩
    · show (c.objects.erase id).get id' = _
      rw [Dict.get_erase_of_ne _ hid', hb]
    · show (c.heap b).kind = _
      rw [hof.kind]
      cases o' with
      | entity e => exact congrArg some (hkind e).symm
      | _ => rfl
    · show (c.heap b).name = _
      rw [hof.name p hp, hname]
  · change (c.objects.erase id).get id' = some r at hr
    rw [Dict.get_erase] at hr
    split_ifs at hr with hid'
    simp only [hobjects, if_neg hid']
    exact h.only id' r hr

/-! ## Every update -/

section Update

variable {P : Policy} {L : Dict.Length Obj} (h : Indexed g c) (hg : Numbered g)

include h hg in
/-- The client when a move has been made. -/
theorem Indexed.moved {e a : ℕ} {parent : Option ℕ} (x y : Option ℚ) (he : g.Listed (.entity e))
    (hkind : (g.entities e).kind ≠ .field) (hparent : ∀ p, parent = some p → g.Listed (.entity p))
    (ha : c.image g (.entity e) = .mirror a) :
    Replays c [plain g (Server.movetoCall e parent x y)]
      (c.placed a (parent.map (fun p => c.image g (.entity p))) (x.map Model.sent)
        (y.map Model.sent)) :=
  .single (h.honoured hg (Server.mentions_moveto he hparent))
    (h.receive_moveto hg x y he hkind hparent ha)

/-- The client when a mirror has been deleted. -/
def Model.deleted (a id : ℕ) (c : Model α) : Model α :=
  let c' := c.placed a none none none
  { c' with objects := c'.objects.erase id, rObjects := c'.rObjects.erase (.mirror a) }

include h hg in
theorem Indexed.deleted {e a id : ℕ} (hid : g.objects.get id = some (.entity e))
    (hkind : (g.entities e).kind ≠ .field) (ha : c.image g (.entity e) = .mirror a) :
    Replays c [plain g (Server.movetoCall e none none none),
      plain g (fun packed => .deleteObject (packed .game) (packed (.entity e)))]
      (c.deleted a id) := by
  have hmoved := h.moved hg none none ⟨id, hid⟩ hkind Server.forall_none ha
  have hc : Reshaped c (c.placed a none none none) := .placed c a none none none
  have h₁ : Indexed g (c.placed a none none none) :=
    h.reshaped ⟨fun _ => rfl, fun _ => rfl, fun _ => rfl⟩ hc
  have hparent : ((c.placed a none none none).heap a).parent = none := if_pos rfl
  exact hmoved.append (.single (h₁.honoured hg (Server.mentions_pair ⟨id, hid⟩ (fun _ => rfl)))
    (h₁.receive_delete hg hid hkind ha hparent))

include h in
/-- The client when it has been told of a new object. -/
theorem Indexed.told (o : Obj) {v : Server.Ctor α} {id : ℕ} (hid : v.id = some id)
    (hleaf : v.mentions = []) :
    Replays c [⟨.addObject (.known 0 .game) (.whole o), [(o, v)]⟩]
      (c.gained (Model.leaf o v) id) := by
  refine .single (fun id' o' hm => ?_) (h.inGame.receive_new o hid hleaf)
  have hmentions : Packed.known id' o' ∈ [Packed.known 0 .game, .whole o] ++ v.mentions ++ [] := by
    simpa [Msg.mentions, Call.mentions] using hm
  rw [hleaf] at hmentions
  simp at hmentions
  obtain ⟨rfl, rfl⟩ := hmentions
  exact ⟨.game, h.inGame.loaded, h.inGame.game, Or.inl ⟨rfl, rfl⟩⟩

end Update

/-- **An update, and what a client in step makes of it.** -/
inductive Echo (P : Policy) (L : Dict.Length Obj) (g : Game α) (c : Model α) :
    Game α → Model α → Prop where
  /-- Something is said. -/
  | quiet {call : Call α} : Echo P L g c (g.say (fun _ => call)) c
  /-- `held` is set. -/
  | held {p : ℕ} {item : Option ℕ} (hp : g.Listed (.player p))
      (hitem : ∀ e, item = some e → g.Listed (.entity e)) : Echo P L g c (g.withHeld p item)
        (c.mapMirror (c.image g (.player p)) (fun v =>
          { v with held := item.map (fun e => c.image g (.entity e)) }))
  /-- `held_by` is set. -/
  | heldBy {e : ℕ} {who : Option ℕ} (he : g.Listed (.entity e))
      (hwho : ∀ p, who = some p → g.Listed (.player p)) : Echo P L g c (g.withHeldBy e who)
        (c.mapMirror (c.image g (.entity e)) (fun v =>
          { v with heldBy := who.map (fun p => c.image g (.player p)) }))
  /-- An entity is moved. -/
  | moved {e a : ℕ} {parent : Option ℕ} {x y : Option ℚ} (he : g.Listed (.entity e))
      (hnowhere : parent = none → (g.entities e).parent ≠ none → P.nowhere)
      (hparent : ∀ p, parent = some p → g.Listed (.entity p))
      (ha : c.image g (.entity e) = .mirror a) : Echo P L g c (g.moved e parent x y)
        (c.placed a (parent.map (fun p => c.image g (.entity p))) (x.map Model.sent)
          (y.map Model.sent))
  /-- An entity is taken from its parent. -/
  | placed {e : ℕ} (hmay : P.nowhere) : Echo P L g c (g.placed e none none none) c
  /-- An entity is made. -/
  | created {v : Server.Entity} (hv : v.Blank)
      (hnew : g.rObjects.get (.entity g.nextEntity) = none) : Echo P L g c (g.created L v)
        (c.gained (Model.leaf (.entity g.nextEntity) (v.ctor (L.border g.objects + 1)))
          (L.border g.objects + 1))
  /-- An object is registered again. -/
  | again {o : Obj} {id a : ℕ} (ho : g.objects.get id = some o)
      (ha : c.objects.get id = some (.mirror a)) : Echo P L g c (g.enrolled o id)
        { c with
          objects := c.objects.set id (.mirror a), rObjects := c.rObjects.set (.mirror a) id }
  /-- An entity is deleted. -/
  | deleted {e id a : ℕ} (hid : g.objects.get id = some (.entity e))
      (hmay : (g.entities e).parent ≠ none → P.nowhere) (hlone : g.Lone e)
      (ha : c.objects.get id = some (.mirror a)) : Echo P L g c (g.deleted e id) (c.deleted a id)
  /-- A field gets its name. -/
  | named {name : Bytes} {f : ℕ} (hmay : P.fields) :
      Echo P L g c { g with fields := g.fields.set name f } c
  /-- A player is made. -/
  | seated {name : Bytes} {r b d : Value α} (hname : g.players.get name = none)
      (hnew : g.rObjects.get (.player g.nextPlayer) = none) :
      Echo P L g c (g.seated name r b d (L.border g.objects + 1))
        (c.gained (Model.leaf (.player g.nextPlayer)
          (.player (some (L.border g.objects + 1)) name none r b d)) (L.border g.objects + 1))
  /-- A player comes back. -/
  | returned {name : Bytes} {p : ℕ} {r b d : Value α} (hname : (g.people p).name = name)
      (hmay : g.returned p name r b d ≠ g → P.colours) :
      Echo P L g c (g.returned p name r b d) c
  /-- A player is announced. -/
  | announced {p : ℕ} (hp : g.Listed (.player p)) : Echo P L g c (g.announced p)
      { c with players := c.players.set (g.people p).name (c.image g (.player p)) }
  /-- A count changes, or whether a box is opened. -/
  | tweak {e : ℕ} (opened : Bool) (count : Server.Count) :
      Echo P L g c (g.mapEntity e (fun v => { v with opened := opened, count := count })) c
  /-- A script has been loaded. -/
  | load {name : Bytes} : Echo P L g c { g with loaded := g.loaded ++ [name] } c

section Update

variable {P : Policy} {L : Dict.Length Obj} (h : Indexed g c) (hg : Numbered g)

include h hg in
/-- **Who is in step receives what is broadcast of an update.** -/
theorem Indexed.receive_update {ms : List (Msg α)} (hu : Server.Update P L g ms g') :
    ∃ c', Replays c ms c' ∧ Echo P L g c g' c' := by
  -- some updates are broadcast, and some say nothing: an entity that is placed or named, a player
  -- who returns
  cases hu with
  | quiet hcall =>
    exact ⟨c, .single (h.honoured hg (Server.mentions_text hcall)) (h.receive_text hg hcall),
      .quiet⟩
  | held hp hitem =>
    exact ⟨_, .single (h.honoured hg (Server.mentions_held hp hitem)) (h.receive_held hg hp hitem),
      .held hp hitem⟩
  | heldBy he hwho =>
    exact ⟨_, .single (h.honoured hg (Server.mentions_heldBy he hwho))
      (h.receive_heldBy hg he hwho), .heldBy he hwho⟩
  | moved he hkind hnowhere hparent =>
    obtain ⟨a, ha, -⟩ := h.image hg he.choose_spec
    exact ⟨_, h.moved hg _ _ he hkind hparent ha, .moved he hnowhere hparent ha⟩
  | placed hmay => exact ⟨c, .nil c, .placed hmay⟩
  | created hv hnew => exact ⟨_, h.told (.entity g.nextEntity) rfl rfl, .created hv hnew⟩
  | again ho =>
    obtain ⟨a, ha, hid, -⟩ := h.image hg ho
    have hr := h.receive_again hg ho
    rw [ha] at hr
    exact ⟨_, .single (h.honoured hg (Server.mentions_pair ⟨_, ho⟩ (fun _ => rfl))) hr,
      .again ho hid⟩
  | deleted hid hkind hmay hlone =>
    obtain ⟨a, ha, hid', -⟩ := h.image hg hid
    exact ⟨_, h.deleted hg hid hkind ha, .deleted hid hmay hlone hid'⟩
  | named hmay => exact ⟨c, .nil c, .named hmay⟩
  | seated hname hnew => exact ⟨_, h.told (.player g.nextPlayer) rfl rfl, .seated hname hnew⟩
  | returned hname hmay => exact ⟨c, .nil c, .returned hname hmay⟩
  | announced hp =>
    exact ⟨_, .single (h.honoured hg (Server.mentions_pair hp (fun _ => rfl)))
      (h.receive_addPlayer hg hp), .announced hp⟩
  | tweak opened count => exact ⟨c, .nil c, .tweak opened count⟩
  | load => exact ⟨c, .nil c, .load⟩

include h hg in
/-- **Who is in step is in step** with what an update leaves. -/
theorem Indexed.echo (he : Echo P L g c g' c') : Indexed g' c' := by
  -- only what comes and goes changes the tables of a client
  cases he with
  | quiet => exact h.reshaped (.of_sameObjects (.say _ _)) (.refl c)
  | held _ _ =>
    refine h.reshaped (.of_sameObjects (.withHeld _ _ _)) (.mapMirror c _ ?_ ?_ ?_ ?_)
    all_goals exact fun _ => rfl
  | heldBy _ _ =>
    refine h.reshaped (.of_sameObjects (.withHeldBy _ _ _)) (.mapMirror c _ ?_ ?_ ?_ ?_)
    all_goals exact fun _ => rfl
  | @moved e a _ _ _ _ _ _ _ =>
    exact h.reshaped (.of_sameObjects (.moved _ _ _ _ _)) (.placed c a _ _ _)
  | placed _ => exact h.reshaped (.of_sameObjects (.placed _ _ _ _ _)) (.refl c)
  | @created v hv hnew =>
    refine h.gained (Server.objects_free L g) (Nat.succ_ne_zero _)
      (fun id' => Dict.get_set _ _ _ _) (fun id' o' ho' => ?_) (fun _ _ _ => rfl)
      ⟨rfl, rfl, ?_, nofun⟩
    · cases o' with
      | entity e =>
        have hne : e ≠ g.nextEntity := fun he => by
          have hknown := (hg.inverse id' _).mp ho'
          rw [he, hnew] at hknown
          cases hknown
        exact congrArg (fun v : Server.Entity => some v.kind) (Server.created_of_ne L v hne)
      | _ => rfl
    · show some v.kind = some ((g.created L v).entities g.nextEntity).kind
      rw [Server.created_self]
  | @again o id a ho ha =>
    have hs := Server.sameLinks_enrolled (hg.id_of _ _ ho) ho ((hg.inverse _ _).mp ho)
    exact h.reshaped (.of_sameObjects hs.toSameObjects) (.again h.inverse ha)
  | @deleted e id a hid _ _ ha =>
    have hs : SameMirrors g (g.placed e none none none) := .of_sameObjects (.placed _ _ _ _ _)
    exact (h.reshaped hs (.placed c a none none none)).lost ha (fun _ => Dict.get_erase _ _ _)
      (fun _ => rfl)
        (fun _ => rfl)
  | named _ => exact h.reshaped ⟨fun _ => rfl, fun _ => rfl, fun _ => rfl⟩ (.refl c)
  | @seated name r b d _ hnew =>
    refine h.gained (Server.objects_free L g) (Nat.succ_ne_zero _)
      (fun id' => Dict.get_set _ _ _ _) (fun id' o' _ => ?_) (fun id' p ho' => ?_)
      ⟨rfl, rfl, rfl, fun p hp => ?_⟩
    · cases o' <;> rfl
    · have hne : p ≠ g.nextPlayer := fun hp => by
        have hknown := (hg.inverse id' _).mp ho'
        rw [hp, hnew] at hknown
        cases hknown
      rw [Server.seated_people, if_neg hne]
    · obtain rfl := Obj.player.inj hp
      rw [Server.seated_people, if_pos rfl]
      rfl
  | returned hname _ => exact h.reshaped (.of_sameObjects (.mapPlayer _ _ rfl hname.symm)) (.refl c)
  | announced _ => exact h.reshaped (.of_sameObjects (.say _ _)) (.setPlayers c _)
  | tweak opened count =>
    exact h.reshaped (.of_sameObjects (.mapEntity g _
      (f := fun v => { v with opened := opened, count := count }) (fun _ => rfl) (fun _ => rfl)
      (fun _ => rfl))) (.refl c)
  | load => exact h.reshaped ⟨fun _ => rfl, fun _ => rfl, fun _ => rfl⟩ (.refl c)

end Update

end Client

end Felt
