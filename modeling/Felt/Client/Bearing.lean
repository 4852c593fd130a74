import Felt.Client.Aim
import Felt.Server.Fixtures
import Felt.Server.Linked

/-!
# Mirrors of what is never deleted

An id is given out again when what had it has been deleted, and only stones
are. So a client, however far it is behind, knows everything else under the id
it has: the server has the entity of a mirror under the id of the mirror, and
no request for it is overtaken (`bound_of_reaches`).

A mirror was made of what a message carried, and a message carries an object
with the id it has then. As long as the object is registered at all it is under
that id, which is kept by every update; and what is no stone stays registered.

So the game, the messages on their way and the mirrors have one invariant: an
entity is under one id at most (`Game.Bound`). A message that is broadcast carries
what is bound, a mirror is made of what is carried, and no update takes a binding
away. The id may have nothing under it any more; for what is no stone, it has the
entity (`Game.Bound.get`).
-/

namespace Felt

namespace Server

variable {α : Type} {P : Policy} {L : Dict.Length Obj} {g g' : Game α} {e id : ℕ} {k : Kind}

/-- **The entity is under this id, if it is under any**: it was made, and is of
the class. -/
structure Game.Bound (g : Game α) (e id : ℕ) (k : Kind) : Prop where
  /-- It was made. -/
  made : e < g.nextEntity
  /-- It is of the class. -/
  kind : (g.entities e).kind = k
  /-- It is under no other id. -/
  only : ∀ id', g.objects.get id' = some (.entity e) → id' = id

theorem Game.Bound.same (h : g.Bound e id k)
    (hobjects : ∀ id', g'.objects.get id' = some (.entity e) → g.objects.get id' = some (.entity e))
    (hnext : g.nextEntity ≤ g'.nextEntity) (hkind : (g'.entities e).kind = (g.entities e).kind) :
    g'.Bound e id k :=
  ⟨h.made.trans_le hnext, hkind.trans h.kind, fun id' hid' => h.only id' (hobjects id' hid')⟩

theorem Game.Bound.sameObjects (h : g.Bound e id k) (hs : SameObjects g g') : g'.Bound e id k :=
  h.same (fun id' hid' => (hs.objects id').symm.trans hid') hs.nextEntity.ge (hs.kind e)

/-- The id of an object in a game with its ids in order. -/
theorem Numbered.bound (hg : Numbered g) (he : e < g.nextEntity)
    (hid : ∀ id', g.idOf (.entity e) = some id' → id' = id) :
    g.Bound e id (g.entities e).kind :=
  ⟨he, rfl, fun id' hid' => hid id' (hg.id_of id' _ hid')⟩

/-- Under the next id there is something else, if it is not this. -/
theorem get_enrolled_of_ne {o o' : Obj} {id id' : ℕ} (hne : o ≠ o')
    (h : (g.objects.set id o).get id' = some o') : g.objects.get id' = some o' := by
  rw [Dict.get_set] at h
  split_ifs at h
  · exact absurd (Option.some.inj h) hne
  · exact h

/-- **An update leaves what is under one id at most** under that. -/
theorem Game.Bound.update (h : g.Bound e id k) (hg : Numbered g) {ms : List (Msg α)}
    (hu : Update P L g ms g') : g'.Bound e id k := by
  cases hu with
  | quiet _ => exact h.sameObjects (.say _ _)
  | held _ _ => exact h.sameObjects (.withHeld g _ _)
  | heldBy _ _ => exact h.sameObjects (.withHeldBy g _ _)
  | moved _ _ _ _ => exact h.sameObjects (.moved g _ _ _ _)
  | placed _ => exact h.sameObjects (.placed g _ _ _ _)
  | @created v _ _ =>
    refine h.same (fun id' hid' => get_enrolled_of_ne ?_ hid') (Nat.le_succ _) ?_
    · exact fun heq => h.made.ne' (Obj.entity.inj heq)
    · rw [created_of_ne L v h.made.ne]
  | @again o id' ho =>
    exact h.sameObjects
      (sameLinks_enrolled (hg.id_of _ _ ho) ho ((hg.inverse _ _).mp ho)).toSameObjects
  | deleted _ _ _ _ =>
    refine h.same (fun id' hid' => ?_) le_rfl rfl
    change (g.objects.erase _).get id' = _ at hid'
    rw [Dict.get_erase] at hid'
    split_ifs at hid'
    exact hid'
  | named _ => exact h.same (fun _ h => h) le_rfl rfl
  | seated _ _ => exact h.same (fun id' hid' =>
    get_enrolled_of_ne (o := .player g.nextPlayer) Obj.noConfusion hid') le_rfl rfl
  | returned _ _ => exact h.same (fun _ h => h) le_rfl rfl
  | announced _ => exact h.sameObjects (.say _ _)
  | @tweak e' opened count =>
    exact h.sameObjects (SameObjects.mapEntity g e'
      (f := fun v => { v with opened := opened, count := count }) (fun _ => rfl) (fun _ => rfl)
      (fun _ => rfl))
  | load => exact h.same (fun _ h => h) le_rfl rfl

/-- **What is never deleted is under its id.** -/
theorem Game.Bound.get (h : g.Bound e id k) (hk : k ≠ .goPiece) (hg : Complete g) :
    g.objects.get id = some (.entity e) := by
  obtain ⟨id', hid'⟩ := hg e h.made (h.kind.symm ▸ hk)
  rw [← h.only id' hid']
  exact hid'

/-- The class a constructor is of. -/
def Ctor.kind : Ctor α → Option Kind
  | .entity kind _ _ _ _ _ _ _ _ _ => some kind
  | .player _ _ _ _ _ _ => none

/-- **Whatever the message carries** is under the id it is carried with, if it
is under any. -/
def Game.Bears (g : Game α) (m : Msg α) : Prop :=
  ∀ p ∈ m.carried, ∀ id k, p.2.id = some id → p.2.kind = some k →
    ∃ e, p.1 = .entity e ∧ g.Bound e id k

theorem bears_of_carried_nil {m : Msg α} (h : m.carried = []) : g.Bears m := by
  intro p hp
  rw [h] at hp
  cases hp

/-- **The broadcasts of an update** carry what is bound when it is done. -/
theorem bears_update (hg : Numbered g) {ms : List (Msg α)} (hu : Update P L g ms g') :
    ∀ m ∈ ms, g'.Bears m := by
  cases hu with
  | @created v hv hnew =>
    refine List.forall_mem_singleton.mpr (List.forall_mem_singleton.mpr (fun id k hid hk => ?_))
    refine ⟨g.nextEntity, rfl, Nat.lt_succ_self _, ?_, fun id' hid' => ?_⟩
    · rw [created_self]
      exact Option.some.inj hk
    · change (g.objects.set _ _).get id' = _ at hid'
      rw [Dict.get_set] at hid'
      split_ifs at hid' with heq
      · exact heq.trans (Option.some.inj hid)
      · have ho : g.Listed (.entity g.nextEntity) := ⟨id', hid'⟩
        exact absurd rfl (hg.ne_of_unknown ho hnew)
  | seated _ _ =>
    refine List.forall_mem_singleton.mpr (List.forall_mem_singleton.mpr (fun id k _ hk => ?_))
    cases hk
  | deleted _ _ _ _ =>
    exact List.forall_mem_cons.mpr ⟨bears_of_carried_nil rfl,
      List.forall_mem_singleton.mpr (bears_of_carried_nil rfl)⟩
  | placed _ => exact List.forall_mem_nil _
  | named _ => exact List.forall_mem_nil _
  | returned _ _ => exact List.forall_mem_nil _
  | tweak _ _ => exact List.forall_mem_nil _
  | load => exact List.forall_mem_nil _
  | _ => exact List.forall_mem_singleton.mpr (bears_of_carried_nil rfl)

end Server

namespace Client

open Box (Point)

open Server (Game Obj Kind Msg Packed Policy Sound Site Numbered)

variable {α : Type} {c c' : Model α} {m : Msg α}

theorem instantiate_kind (f : Packed → Ref) (o : Obj) (v : Server.Ctor α) :
    (Model.instantiate f o v).kind = v.kind := by
  cases v <;> rfl

theorem instantiate_object (f : Packed → Ref) (o : Obj) (v : Server.Ctor α) :
    (Model.instantiate f o v).object = o := by
  cases v <;> rfl

/-! ## The mirrors a message makes -/

/-- **The mirrors are what they were.** -/
structure Inert (c c' : Model α) : Prop where
  /-- As many mirrors. -/
  next : c'.next = c.next
  /-- They were made of the same objects. -/
  object : ∀ a, (c'.heap a).object = (c.heap a).object
  /-- They have the same ids. -/
  id : ∀ a, (c'.heap a).id = (c.heap a).id
  /-- They have the same classes. -/
  kind : ∀ a, (c'.heap a).kind = (c.heap a).kind

theorem Leaves.inert (h : Leaves c c') : Inert c c' := ⟨h.next, h.object, h.id, h.kind⟩

/-- **No method makes a mirror, or something else of one.** -/
theorem inert_dispatch {d : Packed → Ref} {call : Server.Call α}
    (h : c.dispatch d call = .ok c') : Inert c c' := by
  unfold Model.dispatch at h
  cases call with
  | addObject self o =>
    simp only at h
    split_ifs at h
    unfold Model.addObject at h
    rcases hid : c.idOf (d o) with _ | id
    · rw [hid] at h
      cases h
    · rw [hid] at h
      obtain rfl := Except.ok.inj h
      exact ⟨rfl, fun _ => rfl, fun _ => rfl, fun _ => rfl⟩
  | deleteObject self o =>
    simp only at h
    split_ifs at h
    exact (leaves_deleteObject h).inert
  | addPlayer self p =>
    simp only at h
    split_ifs at h
    exact (leaves_addPlayer h).inert
  | set self key value => exact (reshaped_set h).leaves.inert
  | moveto self parent x y => exact (reshaped_moveto h).leaves.inert
  | message text =>
    obtain rfl := Except.ok.inj h
    exact ⟨rfl, fun _ => rfl, fun _ => rfl, fun _ => rfl⟩
  | chat who text =>
    obtain rfl := Except.ok.inj h
    exact ⟨rfl, fun _ => rfl, fun _ => rfl, fun _ => rfl⟩
  | game objects fields players =>
    obtain rfl := Except.ok.inj h
    exact ⟨rfl, fun _ => rfl, fun _ => rfl, fun _ => rfl⟩

/-- **Whatever the mirrors of entities were made of** is under their id, if it
is under any. -/
def Anchored (g : Game α) (c : Model α) : Prop :=
  ∀ a, a < c.next → ∀ id k, (c.heap a).id = some id → (c.heap a).kind = some k →
    ∃ e, (c.heap a).object = .entity e ∧ g.Bound e id k

theorem anchored_fresh (g : Game α) : Anchored g (.fresh : Model α) :=
  fun _ ha => absurd ha (Nat.not_lt_zero _)

/-- **A message is received** that carries what is bound. -/
theorem Anchored.receive {g : Game α} (h : Anchored g c) (hm : g.Bears m)
    (hr : c.receive m = .ok c') : Anchored g c' := by
  obtain ⟨-, -, -, hdispatch⟩ := Model.receive_eq_ok hr
  have hmaking := making_build m c
  have hinert := inert_dispatch hdispatch
  intro a ha id k hid hk
  rw [hinert.next, hmaking.next, List.length_map] at ha
  rw [hinert.id] at hid
  rw [hinert.kind] at hk
  rw [hinert.object]
  by_cases hold : a < c.next
  · obtain ⟨hobject, hid', hkind⟩ := hmaking.old a hold
    rw [hobject]
    exact h a hold id k (hid' ▸ hid) (hkind ▸ hk)
  · -- the mirror was made of what the message carries
    obtain ⟨n, rfl⟩ := Nat.exists_eq_add_of_le (Nat.le_of_not_lt hold)
    have hn : n < m.carried.length := Nat.lt_of_add_lt_add_left ha
    obtain ⟨hobject, hid', hkind⟩ := hmaking.new n (by rwa [List.length_map])
    rw [List.getElem_map, instantiate_id] at hid'
    rw [List.getElem_map, instantiate_kind] at hkind
    rw [hobject, List.getElem_map, instantiate_object]
    exact hm _ (List.getElem_mem hn) id k (hid'.symm.trans hid) (hkind.symm.trans hk)

theorem Anchored.replays {g : Game α} {ms : List (Msg α)} (h : Anchored g c)
    (hms : ∀ m ∈ ms, g.Bears m) (hr : Replays c ms c') : Anchored g c' := by
  induction hr with
  | nil => exact h
  | cons _ hr _ ih =>
    exact ih (h.receive (hms _ List.mem_cons_self) hr)
      (fun m hm => hms m (List.mem_cons_of_mem _ hm))

theorem Replays.split {ms ms' : List (Msg α)} (h : Replays c (ms ++ ms') c') :
    ∃ c₁, Replays c ms c₁ ∧ Replays c₁ ms' c' := by
  induction ms generalizing c with
  | nil => exact ⟨c, .nil c, h⟩
  | cons m ms ih =>
    cases h with
    | cons hm hr hrest =>
      obtain ⟨c₁, h₁, h₂⟩ := ih hrest
      exact ⟨c₁, .cons hm hr h₁, h₂⟩

/-- **The broadcasts of any updates are received.** -/
theorem Anchored.updates {P : Policy} {L : Dict.Length Obj} {g g' : Game α} {ms : List (Msg α)}
    (h : Anchored g c) (hg : Numbered g) (hus : Server.Updates P L g ms g')
    (hr : Replays c ms c') : Anchored g' c' := by
  induction hus generalizing c with
  | nil =>
    cases hr with
    | nil => exact h
  | cons hu _ ih =>
    obtain ⟨c₁, hr₁, hr₂⟩ := hr.split
    refine ih ?_ (hu.numbered hg) hr₂
    refine Anchored.replays (fun a ha id k hid hk => ?_) (Server.bears_update hg hu) hr₁
    obtain ⟨e, he, hbound⟩ := h a ha id k hid hk
    exact ⟨e, he, hbound.update hg hu⟩

/-- **The mirrors there were** are what they were when a message has been
received. -/
theorem receive_old (hr : c.receive m = .ok c') {a : ℕ} (ha : a < c.next) :
    a < c'.next ∧ (c'.heap a).object = (c.heap a).object ∧ (c'.heap a).id = (c.heap a).id
      ∧ (c'.heap a).kind = (c.heap a).kind := by
  obtain ⟨-, -, -, hdispatch⟩ := Model.receive_eq_ok hr
  have hmaking := making_build m c
  have hinert := inert_dispatch hdispatch
  rw [hinert.next, hinert.object, hinert.id, hinert.kind, hmaking.next]
  exact ⟨ha.trans_le (Nat.le_add_right _ _), hmaking.old a ha⟩

theorem Replays.old {ms : List (Msg α)} (h : Replays c ms c') {a : ℕ} (ha : a < c.next) :
    a < c'.next ∧ (c'.heap a).object = (c.heap a).object ∧ (c'.heap a).id = (c.heap a).id
      ∧ (c'.heap a).kind = (c.heap a).kind := by
  induction h with
  | nil => exact ⟨ha, rfl, rfl, rfl⟩
  | cons _ hr _ ih =>
    obtain ⟨ha₁, hobject, hid, hkind⟩ := receive_old hr ha
    obtain ⟨ha', hobject', hid', hkind'⟩ := ih ha₁
    exact ⟨ha', hobject'.trans hobject, hid'.trans hid, hkind'.trans hkind⟩

/-! ## Every world -/

section World

variable {g : Game (Point Obj)}

/-- **The snapshot carries what is bound.** -/
theorem bears_snapshot {fits : Kind → Kind → Prop} (h : Sound fits g) :
    g.Bears (Server.snapshot g) := by
  rintro ⟨o, v⟩ hp id k hid hk
  obtain ⟨hlisted, hv⟩ := (mem_carried_snapshot h).mp hp
  cases o with
  | game => cases hv
  | player p =>
    obtain rfl := Option.some.inj hv
    cases hk
  | entity e =>
    obtain rfl := Option.some.inj hv
    refine ⟨e, rfl, h.entity e hlisted, Option.some.inj hk, fun id' hid' => ?_⟩
    exact Option.some.inj ((h.id_of id' _ hid').symm.trans hid)

/-- **Clients keep to the ids**, and what they have of them is bound. -/
theorem follows_anchored (L : Dict.Length Obj) : Follows Policy.shipped L (fun _ => True)
    (fun g (c : Model (Point Obj)) => Indexed g c ∧ Anchored g c) where
  stretch {g g' c} h hsent hs hc := by
    obtain ⟨ms, hms⟩ := updates_of_chain h ne_field_of_below id hs.chain
    obtain ⟨c', hreplays, hindexed⟩ := hc.1.updates h.numbered hms
    have hanchored := hc.2.updates h.numbered hms hreplays
    have hms' := hms.sent h.numbered
    rw [hsent] at hms'
    rw [hms']
    refine ⟨c', hreplays, hindexed.reshaped
      (.of_sameObjects (Server.sameLinks_settled g').toSameObjects) (.refl c'), ?_⟩
    intro a ha id k hid hk
    obtain ⟨e, he, hbound⟩ := hanchored a ha id k hid hk
    exact ⟨e, he, hbound.sameObjects (Server.sameLinks_settled g').toSameObjects⟩
  snapshot {g} h _ := by
    have hrank : ∀ a b, Policy.shipped.fits a b → Kind.rank a < Kind.rank b := fun _ _ hab => hab.1
    have hreplays := replays_snapshot h hrank
    exact ⟨_, hreplays, indexed_joined h, (anchored_fresh g).replays
      (List.forall_mem_singleton.mpr (bears_snapshot h)) hreplays⟩
  said _ := trivial

variable {S : Site} {fuel : ℕ} {games : List Bytes} {W : World} {w : ℕ}

/-- **What is never deleted is what its mirrors show.** In every world that a
run reaches, however far behind a client that is logged in is: under the id of
a mirror that is none of a stone, the server has the entity the mirror was made
of, which is of the class that the mirror has. -/
theorem bound_of_reaches (hW : Reached (serving S fuel (fun d s => d.Once S s))
    (Server.State.opening S games) W) (hw : W.server.LoggedIn w) {a id : ℕ} {k : Kind}
    (ha : a < (W.client w).next) (hid : ((W.client w).heap a).id = some id)
    (hk : ((W.client w).heap a).kind = some k) (hstone : k ≠ .goPiece) :
    ∃ e, ((W.client w).heap a).object = .entity e
      ∧ W.server.game.objects.get id = some (.entity e)
      ∧ (W.server.game.entities e).kind = k := by
  have hsynced : Synced Policy.shipped
      (fun g (c : Model (Point Obj)) => Indexed g c ∧ Anchored g c) W := by
    refine synced_of_reaches (follows_anchored S.length) ?_ (synced_opening rfl S games) hW
    rintro W' sent s' h ⟨d, hd, honce, hl, rfl⟩
    exact ⟨Server.serves_of_leaves rfl h.manned h.seats h.unmade (fun v hv => (h.guest v hv).2.1)
      hd honce (fun _ => Server.may_shipped d _) hl, fun _ => trivial⟩
  obtain ⟨c, hreplays, -, hanchored⟩ := hsynced.follows w hw
  obtain ⟨ha', hobject, hid', hkind⟩ := hreplays.old ha
  obtain ⟨e, he, hbound⟩ := hanchored a ha' id k (hid'.trans hid) (hkind.trans hk)
  exact ⟨e, hobject.symm.trans he,
    hbound.get hstone (Server.complete_of_played (played_of_reached hW)), hbound.kind⟩

end World

end Client

end Felt
