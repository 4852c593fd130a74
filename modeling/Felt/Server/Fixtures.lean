import Felt.Server.Lasting

/-!
# What is never deleted

Whatever was made is there, but for stones: the scripts register what they
make, and the only entities that are deleted are those that a bowl takes back
(`complete_of_played`). `Scripted` is what it takes for the scripts to keep an
assertion about the game.

It takes two inductions. The scripts are made of few primitives, and an assertion
that these keep is kept by every script and by opening a box (`Scripted.openBox`);
no other method of an entity makes anything but a stone. And over a run, the
assertion that everything is there is kept by each step of a method, a deletion
included, since it deletes a stone (`steady_complete`).
-/

namespace Felt

namespace Server

open Box (Point)

variable {α : Type}

/-! ## What scripts keep -/

/-- **An assertion about the game that scripts keep.** -/
structure Scripted (L : Dict.Length Obj) (I : Game α → Prop) : Prop where
  /-- Something is broadcast. -/
  said : ∀ call, Run.Keeps I (send call)
  /-- An entity is made. -/
  created : ∀ g v, v.id = none → I g → I (g.created L v)
  /-- An object is added. -/
  added : ∀ o, Run.Keeps I (addObject L o)
  /-- An entity is put on another one. -/
  moved : ∀ g e p x y, I g → I (g.moved e (some p) x y)
  /-- An entity is changed, but for its class and its id. -/
  changed : ∀ g e f, (∀ v : Entity, (f v).kind = v.kind) → (∀ v, (f v).id = v.id) → I g →
    I (g.mapEntity e f)
  /-- A field gets its name. -/
  named : ∀ g name f, I g → I { g with fields := g.fields.set name f }
  /-- A script has run. -/
  loaded : ∀ g name, I g → I { g with loaded := g.loaded ++ [name] }

section Scripted

variable {L : Dict.Length Obj} {I : Game α → Prop}

theorem Scripted.newEntity (h : Scripted L I) {v : Entity} (hv : v.id = none) :
    Run.Keeps I (newEntity L v []) := by
  intro g hg
  rw [newEntity_apply L hv]
  exact h.created g v hv hg

theorem Scripted.moveto (h : Scripted L I) (self p : ℕ) (x y : Option ℚ) :
    Run.Keeps I (moveto self (some p) x y) := by
  intro g hg
  rw [moveto_apply]
  exact h.moved g self p x y hg

theorem Scripted.addField (h : Scripted L I) (name : Bytes) : Run.Keeps I (addField L name) := by
  refine .bind (.get_bind (fun g => ?_)) (fun _ => .bind (h.added _) (fun _ => .pure _))
  cases g.fields.get name with
  | some f => exact .pure f
  | none =>
    exact .bind (h.newEntity rfl) (fun f => .bind (.modify (fun g => h.named g name f))
      (fun _ => .pure _))

theorem Scripted.addPiece (h : Scripted L I) (board : ℕ) (name : Bytes) (x y : ℚ) :
    Run.Keeps I (addPiece L board name x y) :=
  .bind (h.newEntity rfl) (fun _ => h.moveto _ _ _ _)

theorem Scripted.addPieces (h : Scripted L I) (board : ℕ) (colour : Bytes) :
    Run.Keeps I (addPieces L board colour) :=
  .bind (.forList (fun _ => h.addPiece _ _ _ _) _) (fun _ =>
    .bind (.forList (fun _ => .bind (h.addPiece _ _ _ _) (fun _ =>
      .bind (h.addPiece _ _ _ _) (fun _ => h.addPiece _ _ _ _))) _) (fun _ =>
        .bind (h.addPiece _ _ _ _) (fun _ => h.addPiece _ _ _ _)))

theorem Scripted.boxScript (h : Scripted L I) (name : Bytes) : Run.Keeps I (boxScript L name) := by
  show Run.Keeps _ (if _ then _ else if _ then _ else _)
  split_ifs
  · exact .bind (h.addField _) (fun _ => .bind (h.newEntity rfl) (fun _ =>
      .bind (h.moveto _ _ _ _) (fun _ => .forList (fun _ => h.addPieces _ _) _)))
  · exact .bind (h.addField _) (fun _ => .bind (h.newEntity rfl) (fun _ =>
      .bind (h.moveto _ _ _ _) (fun _ => .bind (h.newEntity rfl) (fun _ =>
        .bind (h.moveto _ _ _ _) (fun _ => .bind (h.newEntity rfl) (fun _ => h.moveto _ _ _ _))))))
  · exact .throw _

/-- **A box is opened.** -/
theorem Scripted.openBox (h : Scripted L I) (self : ℕ) : Run.Keeps I (GameBox.openBox L self) := by
  have hopen : ∀ name, Run.Keeps I (openGame L name) := fun name => by
    refine .get_bind (fun g => ?_)
    show Run.Keeps _ (if _ then _ else _)
    split_ifs
    · exact .pure ()
    · exact .bind (h.boxScript name) (fun _ => .modify (fun g => h.loaded g name))
  refine .get_bind (fun g => ?_)
  show Run.Keeps _ (if _ then _ else _)
  split_ifs
  · exact .pure ()
  · exact .bind (.assertSome _ _) (fun name => .bind (hopen name) (fun _ =>
      .bind (.modify (fun g => h.changed g self _ (fun _ => rfl) (fun _ => rfl))) (fun _ =>
        .get_bind (fun _ => .bind (.assertSome _ _) (fun p =>
          .bind (.modify (fun g => h.changed g self _ (fun _ => rfl) (fun _ => rfl))) (fun _ =>
            .modify (fun g => h.changed g p _ (fun _ => rfl) (fun _ => rfl))))))))

/-- The boxes are put on the first field. -/
theorem Scripted.openGameboxes (h : Scripted L I) (games : List Bytes) :
    Run.Keeps I (openGameboxes L games) :=
  .bind (h.addField _) (fun _ => .forList (fun _ =>
    .bind (h.newEntity rfl) (fun _ => h.moveto _ _ _ _)) _)

end Scripted

/-! ## What is never deleted -/

/-- **Whatever was made is there**, but for stones. -/
def Complete (g : Game α) : Prop :=
  ∀ e, e < g.nextEntity → (g.entities e).kind ≠ .goPiece → g.Listed (.entity e)

section Complete

variable {L : Dict.Length Obj} {g g' : Game α}

/-- What is there is there, and nothing else was made. -/
theorem Complete.keep (h : Complete g) (hlisted : ∀ o, g.Listed o → g'.Listed o)
    (hkind : ∀ e, (g'.entities e).kind = (g.entities e).kind)
    (hnext : g'.nextEntity = g.nextEntity) : Complete g' := by
  intro e he hk
  rw [hnext] at he
  rw [hkind] at hk
  exact hlisted _ (h e he hk)

theorem Complete.same (h : Complete g) (hs : SameObjects g g') : Complete g' :=
  h.keep (fun o => (hs.listed o).mpr) hs.kind hs.nextEntity

/-- What has an id keeps it when an object is added. -/
theorem listed_enrolled {o : Obj} {id : ℕ}
    (hid : g.objects.get id = none ∨ g.objects.get id = some o) (o' : Obj) (ho' : g.Listed o') :
    (g.enrolled o id).Listed o' := by
  obtain ⟨id', hid'⟩ := ho'
  refine ⟨id', ?_⟩
  rw [(enrolled_objects o id).1, Dict.get_set]
  split_ifs with heq
  · rw [heq] at hid'
    rcases hid with hnone | hsome
    · rw [hnone] at hid'
      cases hid'
    · exact hsome.symm.trans hid'
  · exact hid'

theorem complete_addObject (L : Dict.Length Obj) (o : Obj) :
    Run.Keeps Complete (addObject L o : Action α Unit) := by
  intro g hg
  have hkeep : ∀ id, g.objects.get id = none ∨ g.objects.get id = some o →
      Complete (g.enrolled o id) := fun id hid =>
    hg.keep (listed_enrolled hid) (fun e => (enrolled_links o id e 0).1) (enrolled_rest o id).2.2.1
  rcases hid : g.idOf o with _ | id
  · rw [addObject_new L hid]
    exact hkeep _ (Or.inl (objects_free L g))
  · by_cases ho : g.objects.get id = some o
    · rw [addObject_again L hid ho]
      exact hkeep id (Or.inr ho)
    · rw [addObject_collision L hid ho]
      exact hg

theorem Complete.created (h : Complete g) (v : Entity) : Complete (g.created L v) := by
  intro e he hk
  rcases Nat.lt_succ_iff_lt_or_eq.mp he with hlt | rfl
  · rw [created_of_ne L v hlt.ne] at hk
    exact (created_listed L v g _).mpr (Or.inr (h e hlt hk))
  · exact (created_listed L v g _).mpr (Or.inl rfl)

theorem scripted_complete (L : Dict.Length Obj) : Scripted L (Complete (α := α)) where
  said _ := .modify (fun _ h => h)
  created _ v _ h := h.created v
  added o := complete_addObject L o
  moved g e p x y h := h.same (.moved g e (some p) x y)
  changed g e f hkind _ h := by
    rw [mapEntity_eq]
    exact h.keep (fun _ ho => ho) (fun i => changeAt_field Entity.kind hkind _ _ _) rfl
  named _ _ _ h := h
  loaded _ _ h := h

theorem complete_addPlayer (L : Dict.Length Obj) (name : Bytes) (r b c : Value α) :
    Run.Keeps Complete (addPlayer L name r b c : Action α ℕ) := by
  refine .bind (.get_bind (fun g => ?_)) (fun _ => .bind (.modify (fun _ h => h)) (fun _ =>
    .pure _))
  cases g.players.get name with
  | some p => exact .bind (.modify (fun _ h => h)) (fun _ => .pure _)
  | none =>
    exact .bind (.get_bind (fun _ => .bind (.modify (fun _ h => h)) (fun _ =>
      .bind (complete_addObject L _) (fun _ => .pure _)))) (fun _ =>
        .bind (.modify (fun _ h => h)) (fun _ => .pure _))

/-- A stone is deleted. -/
theorem Complete.deleted (h : Complete g) {e id : ℕ} (hid : g.objects.get id = some (.entity e))
    (hkind : (g.entities e).kind = .goPiece) : Complete (g.deleted e id) := by
  intro i hi hk
  obtain ⟨id', hid'⟩ := h i hi hk
  refine ⟨id', ?_⟩
  show (g.objects.erase id).get id' = _
  rw [Dict.get_erase, if_neg, hid']
  rintro rfl
  obtain rfl : e = i := Obj.entity.inj (Option.some.inj (hid.symm.trans hid'))
  exact hk hkind

/-- **That everything is there is steady.** -/
theorem steady_complete (L : Dict.Length Obj) : Steady L (Complete (α := α)) where
  said := (scripted_complete L).said
  held _ _ _ h := h
  heldBy g e who h :=
    (scripted_complete L).changed g e (fun v => { v with heldBy := who }) (fun _ => rfl)
      (fun _ => rfl) h
  moved := (scripted_complete L).moved
  count g e n h :=
    (scripted_complete L).changed g e (fun v => { v with count := v.count.add n }) (fun _ => rfl)
      (fun _ => rfl) h
  stone _ _ h := h.created _
  deleted _ _ _ hid hkind h := h.deleted hid hkind

end Complete

/-- **That everything is there lasts.** -/
theorem lasting_complete (S : Site) (fuel : ℕ) : Lasting S fuel Complete :=
  (steady_complete S.length).lasting (fun _ h => h) (complete_addPlayer S.length)
    (fun {_ self} _ _ _ hg => by
      have hopen : Run.Keeps Complete (GameBox.openBox S.length self : Action (Point Obj) Unit) :=
        (scripted_complete S.length).openBox self
      exact hopen.weaken (fun _ hs => hs ▸ hg) (fun _ _ hs => hs) (fun _ _ hs => hs))

/-- **Whatever was made is registered**, but for stones, in every state that a
run reaches. -/
theorem complete_of_played {S : Site} {fuel : ℕ} {ok : Deed → State (Point Obj) → Prop}
    {games : List Bytes} {s : State (Point Obj)} (hs : Played S fuel ok (State.opening S games) s) :
    Complete s.game :=
  (lasting_complete S fuel).played (start_of_keeps (fun _ h => h)
    ((scripted_complete S.length).openGameboxes games)
    (fun _ he => absurd he (Nat.not_lt_zero _))) hs

end Server

end Felt
