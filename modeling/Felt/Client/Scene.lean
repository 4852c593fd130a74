import Felt.Client.Portrait

/-!
# Where a client has the entities

A client that is in step has every entity that has an id at the place where it
is, and if it stands on something, then on that, as one of its children. Both
sides move entities in methods of their own, which differ when the new parent
is nothing: the client leaves the old parent's list alone then. So the lists of
children may have more in them than they should, but what stands somewhere
stands there in the client too.

A box that is opened is taken from its field without a word, so that a client
may still have it there. That is why nothing is said of entities that stand
nowhere.

Positions are compared as they are written into a message, with the digits a
number has there. The server goes on computing with the position it has, and the
client with the one it was sent.
-/

namespace Felt

namespace Server

variable {α : Type} {P : Policy} {L : Dict.Length Obj} {g g' : Game α}

/-- **What stands on something has an id**, and so has that. -/
def Game.Rooted (g : Game α) : Prop :=
  ∀ e p, (g.entities e).parent = some p → g.Listed (.entity e) ∧ g.Listed (.entity p)

theorem Sound.rooted {fits : Kind → Kind → Prop} (h : Sound fits g) : g.Rooted := fun e p hp =>
  ⟨(h.parent e p hp).1, (h.parent e p hp).2.1⟩

/-- Nothing else stands on something. -/
theorem Game.Rooted.same (h : g.Rooted) (hlisted : ∀ o, g.Listed o → g'.Listed o)
    (hparent : ∀ e p, (g'.entities e).parent = some p → (g.entities e).parent = some p) :
    g'.Rooted := fun e p hp =>
  ⟨hlisted _ (h e p (hparent e p hp)).1, hlisted _ (h e p (hparent e p hp)).2⟩

/-- **What stands on something has an id** after every update. -/
theorem Game.Rooted.update (h : g.Rooted) (hg : Numbered g) {ms : List (Msg α)}
    (hu : Update P L g ms g') : g'.Rooted := by
  cases hu with
  | quiet _ => exact h.same (fun o => (SameObjects.listed (.say _ _) o).mpr) (fun _ _ hp => hp)
  | @held p item _ _ =>
    exact h.same (fun o => ((SameObjects.withHeld g p item).listed o).mpr) (fun _ _ hp => hp)
  | @heldBy e who _ _ =>
    refine h.same (fun o => ((SameObjects.withHeldBy g e who).listed o).mpr) (fun e' p hp => ?_)
    rw [withHeldBy_entities] at hp
    refine (changeAt_field Entity.parent ?_ e e' _).symm.trans hp
    exact fun _ => rfl
  | @moved e parent x y he _ _ hparent =>
    have hs := SameObjects.moved g e parent x y
    -- what moves has an id, and so does what it is put on
    intro e' p hp
    rw [moved_parent] at hp
    rw [hs.listed, hs.listed]
    split_ifs at hp with hself
    · exact ⟨hself ▸ he, hparent p hp⟩
    · exact h e' p hp
  | @placed e _ =>
    refine h.same (fun o => ((SameObjects.placed g e none none none).listed o).mpr)
      (fun e' p hp => ?_)
    change (if e' = e then none else (g.entities e').parent) = some p at hp
    split_ifs at hp
    exact hp
  | @created v hv _ =>
    refine h.same (fun o ho => (created_listed L v g o).mpr (Or.inr ho)) (fun e p hp => ?_)
    by_cases hnew : e = g.nextEntity
    · rw [hnew, created_self] at hp
      exact absurd (hv.parent.symm.trans hp) nofun
    · rwa [created_of_ne L v hnew] at hp
  | @again o id ho =>
    have hs := sameLinks_enrolled (hg.id_of _ _ ho) ho ((hg.inverse _ _).mp ho)
    exact h.same (fun o => (hs.listed o).mpr) (fun e p hp => (hs.parent e).symm.trans hp)
  | @deleted e id hid _ _ hlone =>
    have hlisted := deleted_listed hg hid
    intro e' p hp
    change (if e' = e then none else (g.entities e').parent) = some p at hp
    split_ifs at hp with hself
    -- nothing stands on what is deleted
    have hpe : p ≠ e := fun heq => hlone.parent e' (heq ▸ hp)
    exact ⟨(hlisted _).mpr ⟨fun heq => hself (Obj.entity.inj heq), (h e' p hp).1⟩,
      (hlisted _).mpr ⟨fun heq => hpe (Obj.entity.inj heq), (h e' p hp).2⟩⟩
  | named _ => exact h
  | @seated name r b c _ _ =>
    exact h.same (fun o ho => (seated_listed L name r b c o).mpr (Or.inr ho)) (fun _ _ hp => hp)
  | returned hname _ =>
    exact h.same (fun o => (SameObjects.listed (.mapPlayer _ _ rfl hname.symm) o).mpr)
      (fun _ _ hp => hp)
  | announced _ => exact h.same (fun o => (SameObjects.listed (.say _ _) o).mpr) (fun _ _ hp => hp)
  | @tweak e opened count =>
    have hs := SameObjects.mapEntity g e
      (f := fun v => { v with opened := opened, count := count }) (fun _ => rfl) (fun _ => rfl)
      (fun _ => rfl)
    refine h.same (fun o => (hs.listed o).mpr) (fun e' p hp => ?_)
    rw [mapEntity_eq] at hp
    refine (changeAt_field Entity.parent ?_ e e' _).symm.trans hp
    exact fun _ => rfl
  | load => exact h

end Server

namespace Client

open Box (Point)

open Server (Game Obj Kind Msg Numbered Policy Sound Site Deed Stretch)

variable {α : Type} {g g' : Game α} {c c' : Model α} {P : Policy} {L : Dict.Length Obj}

/-! ## Parents and children of mirrors -/

/-- **A mirror that has a parent is one of its children.** -/
def Kin (c : Model α) : Prop := ∀ a b, (c.heap a).parent = some (.mirror b) →
  b < c.next ∧ .mirror a ∈ (c.heap b).children

/-- The same mirrors on one another. -/
theorem Kin.same (h : Kin c) (hnext : c'.next = c.next)
    (hparent : ∀ a, (c'.heap a).parent = (c.heap a).parent)
    (hchildren : ∀ a, (c'.heap a).children = (c.heap a).children) : Kin c' := by
  intro a b hab
  rw [hparent] at hab
  rw [hnext, hchildren]
  exact h a b hab

theorem Kin.mapMirror (h : Kin c) (r : Ref) {f : Mirror α → Mirror α}
    (hparent : ∀ v, (f v).parent = v.parent) (hchildren : ∀ v, (f v).children = v.children) :
    Kin (c.mapMirror r f) := by
  rw [mapMirror_eq]
  exact h.same rfl (fun _ => mirrorAt_field Mirror.parent hparent _ _ _)
    (fun _ => mirrorAt_field Mirror.children hchildren _ _ _)

/-- **Moving a mirror** leaves all mirrors among the children of their
parents. -/
theorem Kin.placed (h : Kin c) (a : ℕ) {parent : Option Ref} (x y : Option Number)
    (hparent : ∀ b, parent = some (.mirror b) → b < c.next) : Kin (c.placed a parent x y) := by
  intro a' b hab
  change (if a' = a then parent else (c.heap a').parent) = some (.mirror b) at hab
  show b < c.next ∧ .mirror a' ∈ movedChildren (.mirror a) (c.heap a).parent parent (.mirror b)
    (c.heap b).children
  unfold movedChildren
  split_ifs at hab with hself
  · -- the one that moves: it was there already, or it is added
    subst hself
    refine ⟨hparent b hab, ?_⟩
    by_cases hwas : (c.heap a').parent = parent
    · rw [if_pos (Or.inr hwas)]
      exact (h a' b (hwas.trans hab)).2
    · rw [if_neg (by rw [hab] at hwas ⊢; simpa using hwas), if_neg (hab ▸ hwas), if_pos hab]
      exact List.mem_append_right _ (List.mem_singleton_self _)
  · -- another one stays where it is
    obtain ⟨hlt, hmem⟩ := h a' b hab
    refine ⟨hlt, ?_⟩
    have hne : Ref.mirror a' ≠ .mirror a := fun heq => hself (Ref.mirror.inj heq)
    split_ifs
    · exact hmem
    · exact (List.mem_erase_of_ne hne).mpr hmem
    · exact List.mem_append_left _ hmem
    · exact hmem

/-- A mirror that is made stands nowhere. -/
theorem Kin.gained (h : Kin c) {v : Mirror α} (hparent : v.parent = none) (id : ℕ) :
    Kin (c.gained v id) := by
  intro a b hab
  change (Function.update c.heap c.next v a).parent = some (.mirror b) at hab
  show b < c.next + 1 ∧ .mirror a ∈ (Function.update c.heap c.next v b).children
  by_cases ha : a = c.next
  · rw [ha, Function.update_self, hparent] at hab
    cases hab
  · rw [Function.update_of_ne ha] at hab
    obtain ⟨hlt, hmem⟩ := h a b hab
    rw [Function.update_of_ne hlt.ne]
    exact ⟨hlt.trans (Nat.lt_succ_self _), hmem⟩

/-- **What an update is to a client** leaves its mirrors among the children of
their parents. -/
theorem Kin.echo (h : Kin c) (hi : Indexed g c) (hg : Numbered g) (he : Echo P L g c g' c') :
    Kin c' := by
  cases he with
  | held _ _ =>
    refine h.mapMirror _ ?_ ?_
    all_goals exact fun _ => rfl
  | heldBy _ _ =>
    refine h.mapMirror _ ?_ ?_
    all_goals exact fun _ => rfl
  | moved _ _ hparent _ =>
    refine h.placed _ _ _ (fun b hb => ?_)
    obtain ⟨p, hp, himage⟩ := Option.map_eq_some_iff.mp hb
    exact hi.lt_next hg (hparent p hp) himage
  | created _ _ => exact h.gained rfl _
  | @deleted e id a _ _ _ _ =>
    have hplaced : Kin (c.placed a none none none) := h.placed a none none (fun b hb => by cases hb)
    exact hplaced.same rfl (fun _ => rfl) (fun _ => rfl)
  | seated _ _ => exact h.gained rfl _
  | again _ _ => exact h.same rfl (fun _ => rfl) (fun _ => rfl)
  | announced _ => exact h.same rfl (fun _ => rfl) (fun _ => rfl)
  | _ => exact h

/-! ## Places -/

/-- **The client has the entities where they are**, and what stands on
something on that. -/
structure Scenes (g : Game α) (c : Model α) : Prop where
  /-- `x`. -/
  x : ∀ e a, g.Listed (.entity e) → c.image g (.entity e) = .mirror a →
    (c.heap a).x = Model.sent (g.entities e).x
  /-- `y`. -/
  y : ∀ e a, g.Listed (.entity e) → c.image g (.entity e) = .mirror a →
    (c.heap a).y = Model.sent (g.entities e).y
  /-- `parent`, if there is one. -/
  parent : ∀ e a p, g.Listed (.entity e) → c.image g (.entity e) = .mirror a →
    (g.entities e).parent = some p → (c.heap a).parent = some (c.image g (.entity p))

/-- **The mirror is where it was.** -/
structure SamePlace (c c' : Model α) (a : ℕ) : Prop where
  /-- `x`. -/
  x : (c'.heap a).x = (c.heap a).x
  /-- `y`. -/
  y : (c'.heap a).y = (c.heap a).y
  /-- `parent`. -/
  parent : (c'.heap a).parent = (c.heap a).parent

theorem SamePlace.refl (c : Model α) (a : ℕ) : SamePlace c c a := ⟨rfl, rfl, rfl⟩

/-- **The entity is where it was**, or stands nowhere. -/
structure Stays (g g' : Game α) (e : ℕ) : Prop where
  /-- `x`. -/
  x : (g'.entities e).x = (g.entities e).x
  /-- `y`. -/
  y : (g'.entities e).y = (g.entities e).y
  /-- `parent`. -/
  parent : ∀ p, (g'.entities e).parent = some p → (g.entities e).parent = some p

theorem Stays.of_eq {e : ℕ} (h : g'.entities e = g.entities e) : Stays g g' e :=
  ⟨by rw [h], by rw [h], fun p hp => by rwa [h] at hp⟩

theorem samePlace_gained (v : Mirror α) (id : ℕ) {a : ℕ} (ha : a < c.next) :
    SamePlace c (c.gained v id) a := by
  have hheap : (c.gained v id).heap a = c.heap a := Function.update_of_ne ha.ne _ _
  exact ⟨by rw [hheap], by rw [hheap], by rw [hheap]⟩

/-- **Whatever was there stays where it was**, and what is new stands
nowhere. -/
theorem Scenes.carry (h : Scenes g c) (hr : g.Rooted) (hr' : g'.Rooted)
    (himage : ∀ o, g.Listed o → g'.Listed o → c'.image g' o = c.image g o)
    (hentity : ∀ e, g.Listed (.entity e) → g'.Listed (.entity e) → Stays g g' e)
    (hheap : ∀ e a, g.Listed (.entity e) → g'.Listed (.entity e) →
      c.image g (.entity e) = .mirror a → SamePlace c c' a)
    (hnew : ∀ e a, ¬g.Listed (.entity e) → g'.Listed (.entity e) →
      c'.image g' (.entity e) = .mirror a → (c'.heap a).x = Model.sent (g'.entities e).x
        ∧ (c'.heap a).y = Model.sent (g'.entities e).y ∧ (g'.entities e).parent = none) :
    Scenes g' c' where
  x e a he' ha := by
    by_cases he : g.Listed (.entity e)
    · rw [himage _ he he'] at ha
      rw [(hheap e a he he' ha).x, h.x e a he ha, (hentity e he he').x]
    · exact (hnew e a he he' ha).1
  y e a he' ha := by
    by_cases he : g.Listed (.entity e)
    · rw [himage _ he he'] at ha
      rw [(hheap e a he he' ha).y, h.y e a he ha, (hentity e he he').y]
    · exact (hnew e a he he' ha).2.1
  parent e a p he' ha hp := by
    by_cases he : g.Listed (.entity e)
    · rw [himage _ he he'] at ha
      have hold := (hentity e he he').parent p hp
      rw [(hheap e a he he' ha).parent, h.parent e a p he ha hold,
        himage _ (hr e p hold).2 (hr' e p hp).2]
    · rw [(hnew e a he he' ha).2.2] at hp
      cases hp

/-- **An entity is moved.** -/
theorem Scenes.moved (h : Scenes g c) (hi : Indexed g c) (hg : Numbered g) {e a : ℕ}
    {parent : Option ℕ} {x y : Option ℚ} (he : g.Listed (.entity e))
    (ha : c.image g (.entity e) = .mirror a) : Scenes (g.moved e parent x y)
      (c.placed a (parent.map (fun p => c.image g (.entity p))) (x.map Model.sent)
        (y.map Model.sent)) := by
  have hs := Server.SameObjects.moved g e parent x y
  have himage : ∀ o, (c.placed a (parent.map (fun p => c.image g (.entity p))) (x.map Model.sent)
      (y.map Model.sent)).image (g.moved e parent x y) o = c.image g o :=
    image_congr hs.known (fun _ => rfl)
  -- the mirror that moves is that of the entity that does
  have hself : ∀ e' a', g.Listed (.entity e') → c.image g (.entity e') = .mirror a' →
      (a' = a ↔ e' = e) := fun e' a' he' ha' => by
    constructor
    · rintro rfl
      exact Obj.entity.inj (hi.image_inj hg he' he (ha'.trans ha.symm))
    · rintro rfl
      exact Ref.mirror.inj (ha'.symm.trans ha)
  refine ⟨fun e' a' he' ha' => ?_, fun e' a' he' ha' => ?_, fun e' a' p he' ha' hp => ?_⟩
  · rw [himage] at ha'
    rw [hs.listed] at he'
    show (if a' = a then (x.map Model.sent).getD (c.heap a').x else (c.heap a').x)
      = Model.sent (if e' = e then x.getD (g.entities e').x else (g.entities e').x)
    have hx := h.x e' a' he' ha'
    by_cases heq : e' = e
    · rw [if_pos ((hself e' a' he' ha').mpr heq), if_pos heq, hx]
      cases x <;> rfl
    · rw [if_neg (fun hae => heq ((hself e' a' he' ha').mp hae)), if_neg heq, hx]
  · rw [himage] at ha'
    rw [hs.listed] at he'
    show (if a' = a then (y.map Model.sent).getD (c.heap a').y else (c.heap a').y)
      = Model.sent (if e' = e then y.getD (g.entities e').y else (g.entities e').y)
    have hy := h.y e' a' he' ha'
    by_cases heq : e' = e
    · rw [if_pos ((hself e' a' he' ha').mpr heq), if_pos heq, hy]
      cases y <;> rfl
    · rw [if_neg (fun hae => heq ((hself e' a' he' ha').mp hae)), if_neg heq, hy]
  · rw [himage] at ha' ⊢
    rw [hs.listed] at he'
    rw [Server.moved_parent] at hp
    show (if a' = a then parent.map (fun p => c.image g (.entity p)) else (c.heap a').parent)
      = some (c.image g (.entity p))
    by_cases heq : e' = e
    · rw [if_pos heq] at hp
      rw [if_pos ((hself e' a' he' ha').mpr heq), hp]
      rfl
    · rw [if_neg heq] at hp
      rw [if_neg (fun hae => heq ((hself e' a' he' ha').mp hae)), h.parent e' a' p he' ha' hp]

/-- **Who has the entities where they are has them** where an update leaves
them. -/
theorem Scenes.echo (h : Scenes g c) (hi : Indexed g c) (hg : Numbered g) (hr : g.Rooted)
    (hg' : Numbered g') (hr' : g'.Rooted) (he : Echo P L g c g' c') : Scenes g' c' := by
  -- no object comes or goes, and the entities stay where they are
  have hplain : ∀ {b : Game α} {d : Model α}, Server.SameObjects g b → b.Rooted →
      (∀ id, d.objects.get id = c.objects.get id) → (∀ e, Stays g b e) →
      (∀ a, SamePlace c d a) → Scenes b d := fun {b d} hs hb hd hentity hheap =>
    h.carry hr hb (fun o _ _ => image_congr hs.known hd o) (fun e _ _ => hentity e)
      (fun _ a _ _ _ => hheap a) (fun e _ hno he _ => absurd ((hs.listed _).mp he) hno)
  have hmapped : ∀ (r : Ref) {f : Mirror α → Mirror α}, (∀ v, (f v).x = v.x) →
      (∀ v, (f v).y = v.y) → (∀ v, (f v).parent = v.parent) →
      ∀ a, SamePlace c (c.mapMirror r f) a := fun r f hx hy hp a => by
    rw [mapMirror_eq]
    exact ⟨mirrorAt_field Mirror.x hx r a _, mirrorAt_field Mirror.y hy r a _,
      mirrorAt_field Mirror.parent hp r a _⟩
  cases he with
  | quiet => exact hplain (.say _ _) hr' (fun _ => rfl) (fun _ => .of_eq rfl) (.refl c)
  | @held p item _ _ =>
    refine hplain (.withHeld _ _ _) hr' (fun _ => by rw [mapMirror_objects]) (fun _ => .of_eq rfl)
      (hmapped _ ?_ ?_ ?_)
    all_goals exact fun _ => rfl
  | @heldBy e who _ _ =>
    have hstays : ∀ e', Stays g (g.withHeldBy e who) e' := fun e' => by
      have hentity := Server.withHeldBy_entities (g := g) e who e'
      refine ⟨?_, ?_, fun p hp => ?_⟩
      · rw [hentity]
        refine Server.changeAt_field Server.Entity.x ?_ _ _ _
        exact fun _ => rfl
      · rw [hentity]
        refine Server.changeAt_field Server.Entity.y ?_ _ _ _
        exact fun _ => rfl
      · rw [hentity] at hp
        refine (Server.changeAt_field Server.Entity.parent ?_ e e' _).symm.trans hp
        exact fun _ => rfl
    refine hplain (.withHeldBy _ _ _) hr' (fun _ => by rw [mapMirror_objects]) hstays
      (hmapped _ ?_ ?_ ?_)
    all_goals exact fun _ => rfl
  | moved he _ _ ha => exact h.moved hi hg he ha
  | @placed e _ =>
    refine hplain (.placed g e none none none) hr' (fun _ => rfl) (fun e' => ⟨?_, ?_, ?_⟩) (.refl c)
    · exact ite_self _
    · exact ite_self _
    · intro p hp
      change (if e' = e then none else (g.entities e').parent) = some p at hp
      split_ifs at hp
      exact hp
  | @created v hv hnew =>
    have hlisted := Server.created_listed L v g
    have hobjects : ∀ id', (g.created L v).objects.get id'
        = if id' = L.border g.objects + 1 then some (.entity g.nextEntity)
          else g.objects.get id' := fun id' => Dict.get_set _ _ _ _
    refine h.carry hr hr'
      (fun o ho _ => gained_image hg hg' (Server.objects_free L g) hobjects ho) (fun e he _ => ?_)
      (fun e a he _ ha => samePlace_gained _ _ (hi.lt_next hg he ha)) (fun e a hno he ha => ?_)
    · have hne : e ≠ g.nextEntity := fun heq => hg.ne_of_unknown he hnew (congrArg _ heq)
      exact .of_eq (Server.created_of_ne L v hne)
    · have hself := ((hlisted _).mp he).resolve_right hno
      rw [hself, gained_image_self hg' ((hobjects _).trans (if_pos rfl))] at ha
      obtain rfl := Ref.mirror.inj ha
      rw [Obj.entity.inj hself, gained_heap_self, Server.created_self]
      exact ⟨rfl, rfl, hv.parent⟩
  | @again o id a ho ha =>
    have hs := Server.sameLinks_enrolled (hg.id_of _ _ ho) ho ((hg.inverse _ _).mp ho)
    refine hplain hs.toSameObjects hr' (Dict.get_set_again ha) (fun e => ⟨?_, ?_, fun p hp => ?_⟩)
      (fun _ => ⟨rfl, rfl, rfl⟩)
    · rw [Server.enrolled_entities]
      split_ifs <;> rfl
    · rw [Server.enrolled_entities]
      split_ifs <;> rfl
    · rwa [hs.parent] at hp
  | @deleted e id a hid _ _ ha =>
    have hlisted := Server.deleted_listed hg hid
    -- the mirror of what is deleted is nobody else's
    have hne : ∀ {e' a'}, (g.deleted e id).Listed (.entity e') → g.Listed (.entity e') →
        c.image g (.entity e') = .mirror a' → e' ≠ e ∧ a' ≠ a := fun {e' a'} he' hold ha' => by
      have hee : e' ≠ e := fun heq => ((hlisted _).mp he').1 (congrArg _ heq)
      refine ⟨hee, ?_⟩
      rintro rfl
      have himage : c.image g (.entity e) = .mirror a' := by
        rw [image_of_listed hg hid, ha]
        rfl
      exact hee (Obj.entity.inj (hi.image_inj hg hold ⟨id, hid⟩ (ha'.trans himage.symm)))
    refine h.carry hr hr' (fun o _ ho => deleted_image hg hg' a ho) (fun e' he hold => ?_)
      (fun e' a' he hold ha' => ?_) (fun e' _ hno he' _ => absurd ((hlisted _).mp he').2 hno)
    · have hee : e' ≠ e := fun heq => ((hlisted _).mp hold).1 (congrArg _ heq)
      exact ⟨if_neg hee, if_neg hee, fun p hp => (if_neg hee).symm.trans hp⟩
    · have haa := (hne hold he ha').2
      exact ⟨if_neg haa, if_neg haa, if_neg haa⟩
  | named _ => exact ⟨h.x, h.y, h.parent⟩
  | @seated name r b d _ _ =>
    have hlisted := Server.seated_listed (g := g) L name r b d
    have hobjects : ∀ id', (g.seated name r b d (L.border g.objects + 1)).objects.get id'
        = if id' = L.border g.objects + 1 then some (.player g.nextPlayer)
          else g.objects.get id' := fun id' => Dict.get_set _ _ _ _
    exact h.carry hr hr'
      (fun o ho _ => gained_image hg hg' (Server.objects_free L g) hobjects ho)
      (fun _ _ _ => .of_eq rfl) (fun e a he _ ha => samePlace_gained _ _ (hi.lt_next hg he ha))
      (fun e _ hno he _ => absurd (((hlisted _).mp he).resolve_left nofun) hno)
  | returned hname _ =>
    exact hplain (.mapPlayer _ _ rfl hname.symm) hr' (fun _ => rfl) (fun _ => .of_eq rfl) (.refl c)
  | announced _ =>
    exact hplain (.say _ _) hr' (fun _ => rfl) (fun _ => .of_eq rfl) (fun _ => ⟨rfl, rfl, rfl⟩)
  | @tweak e opened count =>
    refine hplain (.mapEntity g e (f := fun v => { v with opened := opened, count := count })
      ?_ ?_ ?_) hr' (fun _ => rfl) (fun e' => ?_) (.refl c)
    · exact fun _ => rfl
    · exact fun _ => rfl
    · exact fun _ => rfl
    · rw [Server.mapEntity_eq]
      refine ⟨Server.changeAt_field Server.Entity.x ?_ _ _ _,
        Server.changeAt_field Server.Entity.y ?_ _ _ _, fun p hp => ?_⟩
      · exact fun _ => rfl
      · exact fun _ => rfl
      · refine (Server.changeAt_field Server.Entity.parent ?_ e e' _).symm.trans hp
        exact fun _ => rfl
  | load => exact ⟨h.x, h.y, h.parent⟩

/-! ## The snapshot -/

/-- Who adopts a mirror has it among its children. -/
theorem adoptedBy_eq_some {children : ℕ → List Ref} {b : ℕ} {as : List ℕ} {r₀ : Option Ref}
    {r : Ref} (h : adoptedBy children b as r₀ = some r) :
    r₀ = some r ∨ ∃ a ∈ as, r = .mirror a ∧ .mirror b ∈ children a := by
  induction as generalizing r₀ with
  | nil => exact Or.inl h
  | cons a as ih =>
    unfold adoptedBy at h
    rw [List.foldl_cons] at h
    rcases ih h with hr | ⟨a', ha', hr, hmem⟩
    · split_ifs at hr with hmem
      · exact Or.inr ⟨a, List.mem_cons_self, (Option.some.inj hr).symm, hmem⟩
      · exact Or.inl hr
    · exact Or.inr ⟨a', List.mem_cons_of_mem a ha', hr, hmem⟩

/-- **Whoever is among some children is adopted.** -/
theorem adoptedBy_ne_none {children : ℕ → List Ref} {b : ℕ} {as : List ℕ} {r₀ : Option Ref}
    (h : r₀ ≠ none ∨ ∃ a ∈ as, .mirror b ∈ children a) : adoptedBy children b as r₀ ≠ none := by
  induction as generalizing r₀ with
  | nil => exact h.resolve_right (fun ⟨_, ha, _⟩ => absurd ha List.not_mem_nil)
  | cons a as ih =>
    unfold adoptedBy
    rw [List.foldl_cons]
    refine ih ?_
    split_ifs with hmem
    · exact Or.inl nofun
    · refine h.imp_right (fun ⟨a', ha', hmem'⟩ => ⟨a', ?_, hmem'⟩)
      refine (List.mem_cons.mp ha').resolve_left ?_
      rintro rfl
      exact hmem hmem'

/-- The mirrors a client makes first stand nowhere. -/
theorem parent_allocate (m : Msg α) (a : ℕ) :
    ((Model.fresh.allocate (firstMirrors m)).heap a).parent = none := by
  show (if a < 0 then Model.fresh.heap a
    else (firstMirrors m).getD (a - 0) (Model.fresh.heap a)).parent = none
  rw [if_neg (Nat.not_lt_zero a), List.getD_eq_getElem?_getD]
  rcases hget : (firstMirrors m)[a - 0]? with _ | v
  · rfl
  · obtain ⟨p, -, rfl⟩ := List.mem_map.mp (List.mem_of_getElem? hget)
    rcases p with ⟨o, v⟩
    cases v <;> rfl

/-- **Who has received the snapshot** has its mirrors among the children of
their parents. -/
theorem kin_joined (g : Game α) : Kin (Model.joined g) := by
  intro a b hab
  have hbuild := build_fresh (Server.snapshot g)
  have hparent : adoptedBy (fun k =>
      ((Model.fresh.allocate (firstMirrors (Server.snapshot g))).heap k).children) a
        (List.range' 0 (firstMirrors (Server.snapshot g)).length) none = some (.mirror b) := by
    rw [← parent_allocate (Server.snapshot g) a]
    change ((Model.fresh.build (Server.snapshot g)).heap a).parent = _ at hab
    rwa [hbuild] at hab
  obtain ⟨k, hk, hr, hmem⟩ := (adoptedBy_eq_some hparent).resolve_left nofun
  obtain rfl := Ref.mirror.inj hr
  refine ⟨?_, ?_⟩
  · rw [next_joined]
    have hlt := (List.mem_range'_1.mp hk).2
    rw [Nat.zero_add] at hlt
    exact hlt.trans_eq (List.length_map _)
  · show .mirror a ∈ ((Model.fresh.build (Server.snapshot g)).heap b).children
    rw [hbuild]
    exact hmem

section Snapshot

variable {fits : Kind → Kind → Prop} (h : Sound fits g)

/-- What is carried is made once. -/
theorem carried_sublist (g : Game α) (objs : Obj → Option ℕ) (call : Server.Call α) :
    (Server.carried g objs call).Sublist (Server.made g) := by
  unfold Server.carried
  rcases (Server.made g).length with _ | n
  · exact List.filter_sublist
  · rw [Function.iterate_succ_apply']
    exact List.filter_sublist

/-- The objects a snapshot carries are carried once. -/
theorem nodup_carried (g : Game α) : ((Server.snapshot g).carried.map Prod.fst).Nodup := by
  have hfst : ∀ os : List Obj, ((os.flatMap (fun o =>
      (Server.ctor g (fun _ => none) o).toList.map (o, ·))).map Prod.fst).Sublist os := by
    intro os
    induction os with
    | nil => exact List.nil_sublist _
    | cons o os ih =>
      rw [List.flatMap_cons, List.map_append]
      rcases Server.ctor g (fun _ => none) o with _ | v
      · exact ih.cons o
      · exact ih.cons_cons o
  exact ((hfst _).trans (carried_sublist g _ _)).nodup (Server.nodup_made g)

/-- What is carried at a place is the object whose place it is. -/
theorem place_unique {k k' : ℕ} {o : Obj} {v v' : Server.Ctor α}
    (hk : (Server.snapshot g).carried[k]? = some (o, v))
    (hk' : (Server.snapshot g).carried[k']? = some (o, v')) : k = k' := by
  have hlt := (List.getElem?_eq_some_iff.mp hk).1
  refine (List.getElem?_inj (hlt.trans_eq (List.length_map _).symm) (nodup_carried g)).mp ?_
  rw [List.getElem?_map, List.getElem?_map, hk, hk']
  rfl

/-- The mirror a client first makes of what stands at a place. -/
theorem heap_allocate {k : ℕ} {o : Obj} {v : Server.Ctor α}
    (hk : (Server.snapshot g).carried[k]? = some (o, v)) :
    (Model.fresh.allocate (firstMirrors (Server.snapshot g))).heap k
      = Model.instantiate (Model.fresh.denotes (Server.snapshot g)) o v := by
  show (if k < 0 then Model.fresh.heap k else (firstMirrors (Server.snapshot g)).getD (k - 0)
    (Model.fresh.heap k)) = _
  rw [if_neg (Nat.not_lt_zero k), Nat.sub_zero, List.getD_eq_getElem?_getD]
  unfold firstMirrors
  rw [List.getElem?_map, hk]
  rfl

include h in
/-- **Who has received the snapshot** has the entities where they are. -/
theorem scenes_joined : Scenes g (Model.joined g) where
  x e a he ha := by
    obtain ⟨v, parent, hv, hheap⟩ := heap_joined_of_image h he ha
    obtain rfl := Option.some.inj hv
    rw [hheap]
    rfl
  y e a he ha := by
    obtain ⟨v, parent, hv, hheap⟩ := heap_joined_of_image h he ha
    obtain rfl := Option.some.inj hv
    rw [hheap]
    rfl
  parent e a p he ha hp := by
    have hlisted := (h.parent e p hp).2.1
    rw [image_joined h he] at ha
    rw [image_joined h hlisted]
    obtain ⟨kₑ, vₑ, hfind, hplace, -⟩ := exists_place h he
    obtain rfl := Ref.mirror.inj ((firstImage_eq hfind).symm.trans ha)
    -- the parent has the mirror among its children
    obtain ⟨k, v, hfindp, hk, hv⟩ := exists_place h hlisted
    have hmem : .mirror kₑ ∈ ((Model.fresh.allocate
        (firstMirrors (Server.snapshot g))).heap k).children := by
      obtain rfl := Option.some.inj hv
      rw [heap_allocate hk, ← ha]
      refine List.mem_map.mpr ⟨.whole (.entity e), ?_, rfl⟩
      exact List.mem_map_of_mem (f := fun c => Server.Packed.whole (.entity c))
        ((h.tree.child_iff p e).mpr hp)
    have hrange : ∀ {k'}, k' < (firstMirrors (Server.snapshot g)).length
        ↔ k' ∈ List.range' 0 (firstMirrors (Server.snapshot g)).length := fun {k'} => by
      rw [List.mem_range'_1, Nat.zero_add]
      exact ⟨fun hlt => ⟨Nat.zero_le _, hlt⟩, fun hlt => hlt.2⟩
    have hlength : (firstMirrors (Server.snapshot g)).length
        = (Server.snapshot g).carried.length := List.length_map _
    have hk' := hrange.mp (hlength ▸ (List.getElem?_eq_some_iff.mp hk).1)
    rw [heap_joined hplace]
    have hne : adoptedBy (fun a =>
        ((Model.fresh.allocate (firstMirrors (Server.snapshot g))).heap a).children) kₑ
          (List.range' 0 (firstMirrors (Server.snapshot g)).length) none ≠ none :=
      adoptedBy_ne_none (Or.inr ⟨k, hk', hmem⟩)
    obtain ⟨r, hr⟩ := Option.ne_none_iff_exists'.mp hne
    -- and nothing else has
    obtain ⟨k₂, hk₂, rfl, hmem₂⟩ := (adoptedBy_eq_some hr).resolve_left nofun
    have hlt₂ := hlength ▸ hrange.mpr hk₂
    rcases hget : (Server.snapshot g).carried[k₂] with ⟨o₂, v₂⟩
    have hplace₂ := (List.getElem?_eq_getElem hlt₂).trans (congrArg some hget)
    obtain ⟨hlisted₂, hv₂⟩ := (mem_carried_snapshot h).mp (List.mem_of_getElem? hplace₂)
    rw [heap_allocate hplace₂] at hmem₂
    refine hr.trans (congrArg some (Eq.trans ?_ (firstImage_eq hfindp).symm))
    cases o₂ with
    | game => cases hv₂
    | player q =>
      obtain rfl := Option.some.inj hv₂
      cases hmem₂
    | entity e₂ =>
      obtain rfl := Option.some.inj hv₂
      obtain ⟨q, hq, hqe⟩ := List.mem_map.mp hmem₂
      obtain ⟨c, hc, rfl⟩ := List.mem_map.mp hq
      have hcparent := (h.tree.child_iff e₂ c).mp hc
      have hclisted := (h.parent c e₂ hcparent).1
      have hce : c = e := by
        refine Obj.entity.inj ((indexed_joined h).image_inj h.numbered hclisted he ?_)
        rw [image_joined h hclisted, image_joined h he, ha]
        exact hqe
      obtain rfl := Option.some.inj ((hce ▸ hcparent).symm.trans hp)
      exact congrArg Ref.mirror (place_unique hplace₂ hk)

end Snapshot

/-! ## Every world -/

/-- **A client with the scene**: the ids, the places, and the parents. -/
structure Staged (g : Game α) (c : Model α) : Prop where
  /-- It has the ids. -/
  indexed : Indexed g c
  /-- What stands on something has an id. -/
  rooted : g.Rooted
  /-- The entities are where they are. -/
  scenes : Scenes g c
  /-- The mirrors are among the children of their parents. -/
  kin : Kin c

/-- **Who has the scene receives what is broadcast** of updates, and has the
scene then. -/
theorem Staged.updates (h : Staged g c) (hg : Numbered g) {ms : List (Msg α)}
    (hus : Server.Updates P L g ms g') : ∃ c', Replays c ms c' ∧ Staged g' c' := by
  induction hus generalizing c with
  | nil g => exact ⟨c, .nil c, h⟩
  | cons hu _ ih =>
    obtain ⟨c₁, hreplays, hecho⟩ := h.indexed.receive_update hg hu
    have hg₁ := hu.numbered hg
    have hr₁ := h.rooted.update hg hu
    obtain ⟨c', hreplays', h'⟩ := ih ⟨h.indexed.echo hg hecho, hr₁,
      h.scenes.echo h.indexed hg h.rooted hg₁ hr₁ hecho, h.kin.echo h.indexed hg hecho⟩ hg₁
    exact ⟨c', hreplays.append hreplays', h'⟩

/-- **Clients keep the scene.** -/
theorem follows_staged (L : Dict.Length Obj) :
    Follows Policy.shipped L (fun _ => True) (Staged (α := Point Obj)) where
  stretch {g g' c} h hsent hs hc := by
    obtain ⟨ms, hms⟩ := updates_of_chain h ne_field_of_below id hs.chain
    obtain ⟨c', hreplays, hc'⟩ := hc.updates h.numbered hms
    have hms' := hms.sent h.numbered
    rw [hsent] at hms'
    rw [hms']
    have hindexed := hc'.indexed.reshaped
      (.of_sameObjects (Server.sameLinks_settled g').toSameObjects) (.refl c')
    exact ⟨c', hreplays, hindexed, hc'.rooted, ⟨hc'.scenes.x, hc'.scenes.y, hc'.scenes.parent⟩,
      hc'.kin⟩
  snapshot {g} h _ := by
    have hrank : ∀ a b, Policy.shipped.fits a b → Kind.rank a < Kind.rank b := fun _ _ hab => hab.1
    exact ⟨_, replays_snapshot h hrank, indexed_joined h, h.rooted, scenes_joined h, kin_joined g⟩
  said _ := trivial

/-- **What a client has of the scene**: the entities are where they are, and
what stands on something is on that, as one of its children. -/
structure SameScene (g : Game (Point Obj)) (c : Model (Point Obj)) (e a : ℕ) : Prop where
  /-- It is the mirror of the entity. -/
  image : c.image g (.entity e) = .mirror a
  /-- `x`. -/
  x : (c.heap a).x = Model.sent (g.entities e).x
  /-- `y`. -/
  y : (c.heap a).y = Model.sent (g.entities e).y
  /-- `parent`, and `children`. -/
  parent : ∀ p, (g.entities e).parent = some p → ∃ b, c.image g (.entity p) = .mirror b
    ∧ (c.heap a).parent = some (.mirror b) ∧ .mirror a ∈ (c.heap b).children

end Client

end Felt
