import Mathlib.Data.Set.Insert
import Felt.Server.Sound

/-!
# Ids

An object gets its id when it is added to the game, and keeps it. Which id
that is depends on the length operator, and the length operator has a choice:
once objects have been deleted the table has holes, and any border is a length
of it. Whatever border it finds, there is nothing behind it – so that the id is
one no object has.

What is said here is about any objects and any order of adding and deleting
them. Which objects are live is recorded beside the game, by what has been
done and not by what the tables have.

The border is asked for again for each object, and need not be the same border
for the same table: the length operator of each event is its own. So nothing is
assumed of how an interpreter finds one.
-/

namespace Felt

namespace Server

namespace Ids

variable {α : Type}

/-! ## Runs -/

/-- **What is done to the tables.** Each time an object is added the length
operator is asked again. -/
inductive Event where
  /-- `addObject`. -/
  | add (L : Dict.Length Obj) (o : Obj)
  /-- `deleteObject`. -/
  | delete (o : Obj)

namespace Event

/-- The method that is called. -/
def run : Event → Action α Unit
  | add L o => addObject L o
  | delete o => deleteObject o

/-- **When it is called**: an object is added that is new, or that is live, and
deleted when it is live. -/
def Occurs (g : Game α) (live : Set Obj) : Event → Prop
  | add _ o => g.idOf o = none ∨ o ∈ live
  | delete o => o ∈ live

/-- The objects that are live then. -/
def live (live : Set Obj) : Event → Set Obj
  | add _ o => insert o live
  | delete o => live \ {o}

end Event

/-- **A run of the game**, and which objects are live after it. It starts from
a game without objects, and between two events anything may be done that is
not done to ids. -/
inductive Reaches : Game α → Set Obj → Prop where
  /-- There are no objects. -/
  | start {g : Game α} (hobjects : ∀ id, g.objects.get id = none)
      (hrObjects : ∀ o, g.rObjects.get o = none) : Reaches g ∅
  /-- An object is added or deleted. -/
  | event {g g' : Game α} {live : Set Obj} (hg : Reaches g live) (ev : Event)
      (hoccurs : ev.Occurs g live) (hrun : ev.run.Leaves g g') : Reaches g' (ev.live live)
  /-- Something else is done. -/
  | other {g g' : Game α} {live : Set Obj} (hg : Reaches g live)
      (hobjects : ∀ id, g'.objects.get id = g.objects.get id)
      (hrObjects : ∀ o, g'.rObjects.get o = g.rObjects.get o)
      (hid : ∀ o, g'.idOf o = g.idOf o) : Reaches g' live

/-- **The tables are bijections** between the live objects and their ids. -/
structure Bijective (g : Game α) (live : Set Obj) : Prop where
  /-- What is under an id is the live object that has it. -/
  objects_iff : ∀ id o, g.objects.get id = some o ↔ o ∈ live ∧ g.idOf o = some id
  /-- The id of an object is the one it has, if it is live. -/
  rObjects_iff : ∀ o id, g.rObjects.get o = some id ↔ o ∈ live ∧ g.idOf o = some id
  /-- A live object has an id, which is not the game's. -/
  id_of : ∀ o ∈ live, ∃ id, g.idOf o = some id ∧ id ≠ 0

section Step

variable {g g' : Game α} {live : Set Obj} {o : Obj} {id : ℕ}

/-- The game itself is not among the objects of the game. -/
theorem Bijective.ne_game (h : Bijective g live) (ho : o ∈ live) : o ≠ .game := by
  rintro rfl
  obtain ⟨id, hid, hne⟩ := h.id_of _ ho
  exact hne (Option.some.inj hid).symm

/-- **No two live objects have one id.** -/
theorem Bijective.id_injective (h : Bijective g live) {o' : Obj} (ho : o ∈ live) (ho' : o' ∈ live)
    (hid : g.idOf o = some id) (hid' : g.idOf o' = some id) : o = o' :=
  Option.some.inj (((h.objects_iff id o).mpr ⟨ho, hid⟩).symm.trans
    ((h.objects_iff id o').mpr ⟨ho', hid'⟩))

/-- **The number behind a border is nobody's id.** -/
theorem Bijective.border_fresh (h : Bijective g live) (L : Dict.Length Obj) (ho : o ∈ live) :
    g.idOf o ≠ some (L.border g.objects + 1) := by
  intro hid
  have hget := (h.objects_iff _ o).mpr ⟨ho, hid⟩
  rw [objects_free] at hget
  cases hget

/-- The ids when an object has got one. -/
theorem idOf_enrolled (hne : o ≠ .game) (o' : Obj) :
    (g.enrolled o id).idOf o' = if o' = o then some id else g.idOf o' := by
  cases o' with
  | game =>
    rw [if_neg (Ne.symm hne)]
    rfl
  | entity e =>
    show ((g.enrolled o id).entities e).id = _
    rw [enrolled_entities]
    simp only [eq_comm (a := o)]
    split_ifs <;> rfl
  | player p =>
    show ((g.enrolled o id).people p).id = _
    rw [enrolled_people]
    simp only [eq_comm (a := o)]
    split_ifs <;> rfl

/-- **An object is entered under an id** that is its own or nobody's. -/
theorem Bijective.enrolled (h : Bijective g live) (hne : o ≠ .game) (hid : id ≠ 0)
    (hown : o ∈ live → g.idOf o = some id)
    (hother : ∀ o' ∈ live, g.idOf o' = some id → o' = o) :
    Bijective (g.enrolled o id) (insert o live) where
  objects_iff id' o' := by
    rw [(enrolled_objects o id).1, Dict.get_set, idOf_enrolled hne, Set.mem_insert_iff]
    -- under the id there is the object that was added, and nothing else
    by_cases hid' : id' = id
    · rw [if_pos hid']
      constructor
      · intro ho
        obtain rfl := Option.some.inj ho
        rw [if_pos rfl, hid']
        exact ⟨Or.inl rfl, rfl⟩
      · rintro ⟨ho, hget⟩
        split_ifs at hget with hsame
        · rw [hsame]
        · rw [hother o' (ho.resolve_left hsame) (hid' ▸ hget)]
    · rw [if_neg hid', h.objects_iff]
      by_cases ho : o' = o
      · rw [if_pos ho, ho]
        refine iff_of_false (fun hl => ?_) (fun hl => hid' (Option.some.inj hl.2).symm)
        exact hid' (Option.some.inj (hl.2.symm.trans (hown hl.1)))
      · rw [if_neg ho]
        exact and_congr_left (fun _ => (or_iff_right ho).symm)
  rObjects_iff o' id' := by
    rw [(enrolled_objects o id).2, Dict.get_set, idOf_enrolled hne, Set.mem_insert_iff]
    by_cases ho : o' = o
    · rw [if_pos ho, if_pos ho]
      exact (and_iff_right (Or.inl ho)).symm
    · rw [if_neg ho, if_neg ho, h.rObjects_iff]
      exact and_congr_left (fun _ => (or_iff_right ho).symm)
  id_of o' ho' := by
    rw [idOf_enrolled hne]
    by_cases ho : o' = o
    · rw [if_pos ho]
      exact ⟨id, rfl, hid⟩
    · rw [if_neg ho]
      exact h.id_of o' (ho'.resolve_left ho)

/-- **A new object** gets an id that is nobody's. -/
theorem Bijective.add_new (h : Bijective g live) (L : Dict.Length Obj) (ho : g.idOf o = none) :
    Bijective (g.enrolled o (L.border g.objects + 1)) (insert o live) := by
  have hnot : o ∉ live := fun hl => by
    obtain ⟨id, hid, -⟩ := h.id_of o hl
    rw [ho] at hid
    cases hid
  refine h.enrolled ?_ (Nat.succ_ne_zero _) (fun hl => absurd hl hnot)
    (fun o' ho' hid => absurd hid (h.border_fresh L ho'))
  rintro rfl
  cases ho

/-- **An object that is live** keeps its id. -/
theorem Bijective.add_again (h : Bijective g live) (ho : o ∈ live) (hid : g.idOf o = some id) :
    Bijective (g.enrolled o id) (insert o live) := by
  obtain ⟨id', hid', hne⟩ := h.id_of o ho
  obtain rfl := Option.some.inj (hid'.symm.trans hid)
  exact h.enrolled (h.ne_game ho) hne (fun _ => hid) (fun o' ho' hsame =>
    h.id_injective ho' ho hsame hid)

/-- **An object that is deleted** leaves both tables. -/
theorem Bijective.delete (h : Bijective g live) (ho : o ∈ live) (hid : g.idOf o = some id) :
    Bijective (g.struck o id) (live \ {o}) where
  objects_iff id' o' := by
    show (g.objects.erase id).get id' = some o' ↔ _ ∧ g.idOf o' = some id'
    rw [Dict.get_erase, Set.mem_sdiff_singleton]
    by_cases hid' : id' = id
    · rw [if_pos hid']
      refine iff_of_false nofun (fun hl => hl.1.2 ?_)
      exact h.id_injective hl.1.1 ho (hid' ▸ hl.2) hid
    · rw [if_neg hid', h.objects_iff]
      refine and_congr_left (fun hl => (and_iff_left ?_).symm)
      rintro rfl
      exact hid' (Option.some.inj (hl.symm.trans hid))
  rObjects_iff o' id' := by
    show (g.rObjects.erase o).get o' = some id' ↔ _ ∧ g.idOf o' = some id'
    rw [Dict.get_erase, Set.mem_sdiff_singleton]
    by_cases hsame : o' = o
    · rw [if_pos hsame]
      exact iff_of_false nofun (fun hl => hl.1.2 hsame)
    · rw [if_neg hsame, h.rObjects_iff]
      exact and_congr_left (fun _ => (and_iff_left hsame).symm)
  id_of o' ho' := h.id_of o' ho'.1

/-! ## What is done at an event -/

/-- Adding a live object. -/
theorem Bijective.addObject_again (h : Bijective g live) (L : Dict.Length Obj) (ho : o ∈ live)
    (hid : g.idOf o = some id) : addObject L o g = .ok () (g.enrolled o id) :=
  Server.addObject_again L hid ((h.objects_iff id o).mpr ⟨ho, hid⟩)

/-- **What an event leaves are bijections.** -/
theorem Bijective.event (h : Bijective g live) {ev : Event} (hoccurs : ev.Occurs g live)
    (hrun : ev.run.Leaves g g') : Bijective g' (ev.live live) := by
  cases ev with
  | add L o =>
    rcases hoccurs with hnew | ho
    · rw [hrun.of_ok (addObject_new L hnew)]
      exact h.add_new L hnew
    · obtain ⟨id, hid, -⟩ := h.id_of o ho
      rw [hrun.of_ok (h.addObject_again L ho hid)]
      exact h.add_again ho hid
  | delete o =>
    obtain ⟨id, hid, -⟩ := h.id_of o hoccurs
    rw [hrun.of_ok (deleteObject_apply hid)]
    exact h.delete hoccurs hid

/-- The tables of a game that another one has the ids of. -/
theorem Bijective.other (h : Bijective g live)
    (hobjects : ∀ id, g'.objects.get id = g.objects.get id)
    (hrObjects : ∀ o, g'.rObjects.get o = g.rObjects.get o) (hid : ∀ o, g'.idOf o = g.idOf o) :
    Bijective g' live where
  objects_iff id o := by
    rw [hobjects, hid]
    exact h.objects_iff id o
  rObjects_iff o id := by
    rw [hrObjects, hid]
    exact h.rObjects_iff o id
  id_of o ho := by
    rw [hid]
    exact h.id_of o ho

/-- **In every run the tables are bijections.** -/
theorem Reaches.bijective (h : Reaches g live) : Bijective g live := by
  induction h with
  | start hobjects hrObjects =>
    refine ⟨fun id o => ?_, fun o id => ?_, fun o ho => absurd ho (Set.notMem_empty o)⟩
    · rw [hobjects]
      exact iff_of_false nofun (fun h => h.1)
    · rw [hrObjects]
      exact iff_of_false nofun (fun h => h.1)
  | event _ ev hoccurs hrun ih => exact ih.event hoccurs hrun
  | other _ hobjects hrObjects hid ih => exact ih.other hobjects hrObjects hid

end Step

/-- **Ids are unique.** After every run the tables are bijections between the
live objects and their ids, so that no two have one; whatever border the length
operator finds, a new object is added without a collision and gets an id that
no live object has; and an object that is live is added again under the id it
had. -/
theorem unique_of_reaches {g : Game α} {live : Set Obj} (h : Reaches g live) :
    Bijective g live
      ∧ (∀ o ∈ live, ∀ o' ∈ live, g.idOf o = g.idOf o' → o = o')
      ∧ (∀ (L : Dict.Length Obj) (o : Obj), g.idOf o = none →
        ∃ id g', addObject L o g = .ok () g' ∧ g'.idOf o = some id ∧ g'.objects.get id = some o
          ∧ id ≠ 0 ∧ ∀ o' ∈ live, g.idOf o' ≠ some id)
      ∧ (∀ (L : Dict.Length Obj) (o : Obj), o ∈ live →
        ∃ g', addObject L o g = .ok () g' ∧ ∀ o', g'.idOf o' = g.idOf o') := by
  have hg := h.bijective
  refine ⟨hg, fun o ho o' ho' heq => ?_, fun L o ho => ?_, fun L o ho => ?_⟩
  · obtain ⟨id, hid, -⟩ := hg.id_of o ho
    exact hg.id_injective ho ho' hid (heq ▸ hid)
  · have hne : o ≠ .game := by
      rintro rfl
      cases ho
    refine ⟨_, _, addObject_new L ho, ?_, ?_, Nat.succ_ne_zero _, fun o' => hg.border_fresh L⟩
    · rw [idOf_enrolled hne, if_pos rfl]
    · rw [(enrolled_objects o _).1, Dict.get_set_self]
  · obtain ⟨id, hid, -⟩ := hg.id_of o ho
    refine ⟨_, hg.addObject_again L ho hid, fun o' => ?_⟩
    rw [idOf_enrolled (hg.ne_game ho)]
    split_ifs with hsame
    · rw [hsame, hid]
    · rfl

/-! ## A hole -/

/-- Two entities are added, and the first one is deleted. -/
def holed : Game Empty :=
  ((Game.empty.enrolled (.entity 0) 1).enrolled (.entity 1) 2).struck (.entity 0) 1

theorem reaches_holed : ∃ live, Reaches holed live := by
  have hstart : Reaches (Game.empty : Game Empty) ∅ := .start (fun _ => rfl) (fun _ => rfl)
  have hfirst := hstart.event (.add (.first Obj) (.entity 0)) (Or.inl rfl)
    (Or.inl ⟨(), addObject_new _ rfl⟩)
  have hsecond := hfirst.event (.add (.first Obj) (.entity 1)) (Or.inl rfl)
    (Or.inl ⟨(), addObject_new _ rfl⟩)
  exact ⟨_, hsecond.event (.delete (.entity 0)) (Or.inr (Or.inl rfl))
    (Or.inl ⟨(), deleteObject_apply rfl⟩)⟩

/-- A third entity is added beside the hole. -/
theorem unique_of_reaches_holed :
    ∃ id g', addObject (.first Obj) (.entity 2) holed = .ok () g'
      ∧ g'.idOf (.entity 2) = some id ∧ id ≠ 2 := by
  obtain ⟨live, h⟩ := reaches_holed
  obtain ⟨hg, -, hnew, -⟩ := unique_of_reaches h
  obtain ⟨id, g', hadd, hid, -, -, hother⟩ := hnew (.first Obj) (.entity 2) rfl
  refine ⟨id, g', hadd, hid, ?_⟩
  rintro rfl
  exact hother (.entity 1) ((hg.objects_iff 2 _).mp rfl).1 rfl

end Ids

end Server

end Felt
