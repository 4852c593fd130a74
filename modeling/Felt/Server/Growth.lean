import Felt.Lua.Triple
import Felt.Server.Sound

/-!
# How the tree grows

Whatever entities are made, moved and deleted, an entity is among the children
of its parent, once, and of no other entity. The tree is changed in five ways:
an entity is constructed, with children or without, it is added or moved to
another one, it takes itself from its parent, and it is deleted.

A `moveto` does not see the tree as a whole. It takes the entity from the list
it leaves, where the others stay as they were, and puts it behind those it
joins – that is all `Relocated` says of it.

The tree is consistent between two events. Within one of them it is not: a
`moveto` takes the entity from one list before it is put into the other, and a
constructor moves children to an entity that is not registered yet. So what a
method keeps is stated for the method as a whole, as a triple, also when it
raises.
-/

namespace Felt

namespace Server

variable {α : Type}

/-! ## What a move leaves alone -/

/-- **`self` has been moved to `parent`.** -/
structure Relocated (g g' : Game α) (self : ℕ) (parent : Option ℕ) : Prop where
  /-- It has that parent. -/
  parent_self : (g'.entities self).parent = parent
  /-- No other entity has another parent. -/
  parent_of_ne : ∀ e, e ≠ self → (g'.entities e).parent = (g.entities e).parent
  /-- The siblings it leaves stay in their order. -/
  left : ∀ p, (g.entities self).parent = some p → parent ≠ some p →
    (g'.entities p).children = (g.entities p).children.filter (fun e => e ≠ self)
  /-- It is the last of its new siblings. -/
  joined : ∀ p, parent = some p → (g.entities self).parent ≠ some p →
    (g'.entities p).children = (g.entities p).children ++ [self]
  /-- A move within a parent leaves the children as they were. -/
  within : (g.entities self).parent = parent →
    ∀ p, (g'.entities p).children = (g.entities p).children
  /-- The children of others are as they were. -/
  others : ∀ p, (g.entities self).parent ≠ some p → parent ≠ some p →
    (g'.entities p).children = (g.entities p).children

/-- **A `moveto` relocates**, and does nothing else to the tree. -/
theorem Consistent.relocated {g : Game α} (h : Consistent g) (self : ℕ) (parent : Option ℕ)
    (x y : Option ℚ) : Relocated g (g.moved self parent x y) self parent where
  parent_self := by rw [moved_parent, if_pos rfl]
  parent_of_ne e he := by rw [moved_parent, if_neg he]
  left p hwas hp := by
    have hne : (g.entities self).parent ≠ parent := by
      rw [hwas]
      exact Ne.symm hp
    rw [moved_children]
    unfold movedChildren
    rw [if_neg hne, if_pos hwas, (h.nodup p).erase_eq_filter]
    refine List.filter_congr (fun e _ => ?_)
    exact Bool.eq_iff_iff.mpr (bne_iff_ne.trans decide_eq_true_iff.symm)
  joined p hp hwas := by
    rw [moved_children]
    unfold movedChildren
    rw [if_neg (fun heq => hwas (heq.trans hp)), if_neg hwas, if_pos hp]
  within heq p := by
    rw [moved_children]
    unfold movedChildren
    rw [if_pos heq]
  others p hwas hp := by
    rw [moved_children]
    unfold movedChildren
    rw [if_neg hwas, if_neg hp, ite_self]

/-! ## Runs -/

/-- **What is done to the tree.** -/
inductive TreeEvent where
  /-- An entity is constructed. -/
  | construct (L : Dict.Length Obj) (v : Entity) (children : List ℕ)
  /-- `self:add(child, x, y)`. -/
  | add (self child : ℕ) (x y : Option ℚ)
  /-- `self:moveto(parent, x, y)`. -/
  | moveto (self : ℕ) (parent : Option ℕ) (x y : Option ℚ)
  /-- `self.parent:remove(self)`. -/
  | leave (self : ℕ)
  /-- `self:delete()`. -/
  | delete (fuel self : ℕ)

namespace TreeEvent

/-- What runs then. -/
def run : TreeEvent → Action α Unit
  | construct L v children => do
    let _ ← newEntity L v children
    pure ()
  | add self child x y => Server.add self child x y
  | moveto self parent x y => Server.moveto self parent x y
  | leave self => do
    let g ← Run.get
    let parent ← Run.assertSome (g.entities self).parent (.refused "index nil")
    remove parent self
  | delete fuel self => Server.delete fuel self

/-- **It is done with entities there are.** An entity that is constructed is in
no tree yet. -/
def Occurs (g : Game α) : TreeEvent → Prop
  | construct _ v children => v.parent = none ∧ v.children = [] ∧ ∀ e ∈ children, e < g.nextEntity
  | add self child _ _ => self < g.nextEntity ∧ child < g.nextEntity
  | moveto self parent _ _ => self < g.nextEntity ∧ ∀ p, parent = some p → p < g.nextEntity
  | leave self => self < g.nextEntity
  | delete _ self => self < g.nextEntity

end TreeEvent

/-- **The games that grow** from one in which every entity stands alone. -/
inductive Grows : Game α → Prop where
  /-- Every entity stands alone. -/
  | start {g : Game α} (halone : ∀ e, (g.entities e).parent = none ∧ (g.entities e).children = []) :
      Grows g
  /-- Something is done to the tree. -/
  | event {g g' : Game α} (hg : Grows g) (ev : TreeEvent) (hoccurs : ev.Occurs g)
      (hrun : ev.run.Leaves g g') : Grows g'

/-! ## What is kept -/

/-- **The tree is consistent**, and of entities that were made. -/
structure Planted (g : Game α) : Prop extends Consistent g where
  /-- An entity that has a parent was made, and so was the parent. -/
  made : ∀ e p, (g.entities e).parent = some p → e < g.nextEntity ∧ p < g.nextEntity

/-- The tree, among as many entities. -/
def PlantedAt (n : ℕ) (g : Game α) : Prop := Planted g ∧ g.nextEntity = n

section Planted

variable {g g' : Game α} {n : ℕ}

/-- A game with the same tree. -/
theorem Planted.same (h : Planted g) (hparent : ∀ e, (g'.entities e).parent = (g.entities e).parent)
    (hchildren : ∀ e, (g'.entities e).children = (g.entities e).children)
    (hnext : g'.nextEntity = g.nextEntity) : Planted g' where
  child_iff p e := by
    rw [hparent, hchildren]
    exact h.child_iff p e
  nodup p := by
    rw [hchildren]
    exact h.nodup p
  made e p hp := by
    rw [hparent] at hp
    rw [hnext]
    exact h.made e p hp

theorem Planted.moved (h : Planted g) {self : ℕ} {parent : Option ℕ} (x y : Option ℚ)
    (hmade : ∀ p, parent = some p → self < g.nextEntity ∧ p < g.nextEntity) :
    Planted (g.moved self parent x y) where
  toConsistent := h.toConsistent.moved self parent x y
  made e p hp := by
    rw [moved_parent] at hp
    split_ifs at hp with he
    · rw [he]
      exact hmade p hp
    · exact h.made e p hp

theorem Planted.placed (h : Planted g) (self : ℕ) : Planted (g.placed self none none none) := by
  have hmoved : Planted (g.moved self none none none) :=
    h.moved none none (fun _ hp => absurd hp nofun)
  exact hmoved.same (fun _ => rfl) (fun _ => rfl) rfl

/-- Nothing stands in the tree that was not made. -/
theorem Planted.unmade (h : Planted g) {e : ℕ} (he : g.nextEntity ≤ e) :
    (g.entities e).parent = none ∧ (g.entities e).children = [] := by
  have hroot : ∀ p, (g.entities e).parent ≠ some p := fun p hp => (h.made e p hp).1.not_ge he
  refine ⟨Option.eq_none_iff_forall_ne_some.mpr hroot,
    List.eq_nil_iff_forall_not_mem.mpr (fun c hc => ?_)⟩
  exact (h.made c e ((h.child_iff e c).mp hc)).2.not_ge he

/-- **An entity is made** that stands alone. -/
theorem Planted.alloc (h : Planted g) {v : Entity} (hparent : v.parent = none)
    (hchildren : v.children = []) : Planted (g.alloc v) := by
  have halone := h.unmade le_rfl
  have hsame : ∀ e, ((g.alloc v).entities e).parent = (g.entities e).parent
      ∧ ((g.alloc v).entities e).children = (g.entities e).children := fun e => by
    rw [alloc_entities]
    split_ifs with he
    · rw [he, halone.1, halone.2]
      exact ⟨hparent, hchildren⟩
    · exact ⟨rfl, rfl⟩
  refine ⟨⟨fun p e => ?_, fun p => ?_⟩, fun e p hp => ?_⟩
  · rw [(hsame e).1, (hsame p).2]
    exact h.child_iff p e
  · rw [(hsame p).2]
    exact h.nodup p
  · rw [(hsame e).1] at hp
    exact (h.made e p hp).imp Nat.lt_succ_of_lt Nat.lt_succ_of_lt

theorem Planted.enrolled (h : Planted g) (o : Obj) (id : ℕ) : Planted (g.enrolled o id) :=
  h.same (fun e => (enrolled_links o id e 0).2.1) (fun e => (enrolled_links o id e 0).2.2.1)
    (enrolled_rest o id).2.2.1

/-! ## What each method keeps -/

theorem keeps_moveto {self : ℕ} {parent : Option ℕ} (x y : Option ℚ) (hself : self < n)
    (hparent : ∀ p, parent = some p → p < n) :
    Run.Keeps (PlantedAt (α := α) n) (moveto self parent x y) := by
  rintro g ⟨hg, rfl⟩
  rw [moveto_apply]
  exact ⟨hg.moved x y (fun p hp => ⟨hself, hparent p hp⟩), rfl⟩

/-- Taking an entity from the tree. -/
theorem keeps_moveto_none (self : ℕ) :
    Run.Keeps (PlantedAt (α := α) n) (moveto self none none none) := by
  rintro g ⟨hg, rfl⟩
  rw [moveto_apply]
  exact ⟨hg.moved none none (fun _ hp => absurd hp nofun), rfl⟩

theorem keeps_addObject (L : Dict.Length Obj) (o : Obj) :
    Run.Keeps (PlantedAt (α := α) n) (addObject L o) := by
  rintro g ⟨hg, hn⟩
  rcases addObject_cases L o g with ⟨id, h⟩ | h
  · rw [h]
    exact ⟨hg.enrolled o id, (enrolled_rest o id).2.2.1.trans hn⟩
  · rw [h]
    exact ⟨hg, hn⟩

theorem keeps_deleteObject (o : Obj) :
    Run.Keeps (PlantedAt (α := α) n) (deleteObject o) := by
  unfold deleteObject
  refine Run.Keeps.bind (fun g hg => ⟨hg.1.same (fun _ => rfl) (fun _ => rfl) rfl, hg.2⟩)
    (fun _ => ?_)
  refine Run.Triple.get_bind (fun g hg => ?_)
  refine Run.Triple.bind (M := fun _ => PlantedAt n) (Run.Triple.assertSome ?_ ?_) (fun id => ?_)
  · rintro _ - _ rfl
    exact hg
  · rintro - _ rfl
    exact hg
  · exact fun g hg => ⟨hg.1.same (fun _ => rfl) (fun _ => rfl) rfl, hg.2⟩

mutual

/-- **Deleting keeps the tree**, however far it gets. -/
theorem keeps_delete : ∀ fuel self : ℕ,
    Run.Keeps (PlantedAt (α := α) n) (Server.delete fuel self)
  | 0, _ => fun _ _ => trivial
  | fuel + 1, self => by
    refine Run.Triple.get_bind (fun g hg => ?_)
    refine Run.Triple.weaken ?_ (fun s (hs : s = g) => hs ▸ hg) (fun _ _ => id) (fun _ _ => id)
    exact (keeps_deleteChildren fuel self _ 0).bind (fun _ => (keeps_moveto_none self).bind
      (fun _ => keeps_deleteObject _))

theorem keeps_deleteChildren : ∀ fuel self todo i : ℕ,
    Run.Keeps (PlantedAt (α := α) n) (deleteChildren fuel self todo i)
  | 0, _, 0, _ => Run.Keeps.pure ()
  | _ + 1, _, 0, _ => Run.Keeps.pure ()
  | 0, _, _ + 1, _ => fun _ _ => trivial
  | fuel + 1, self, todo + 1, i => by
    refine Run.Triple.get_bind (fun g hg => ?_)
    refine Run.Triple.weaken ?_ (fun s (hs : s = g) => hs ▸ hg) (fun _ _ => id) (fun _ _ => id)
    rcases (g.entities self).children[i]? with _ | child
    · exact Run.Keeps.pure ()
    · exact (keeps_delete fuel child).bind (fun _ => keeps_deleteChildren fuel self todo (i + 1))

end

/-- **Constructing an entity keeps the tree.** -/
theorem keeps_newEntity (L : Dict.Length Obj) {v : Entity} {children : List ℕ}
    (hparent : v.parent = none) (hchildren : v.children = []) (hmade : ∀ e ∈ children, e < n) :
    Run.Triple (PlantedAt (α := α) n) (newEntity L v children) (fun _ => PlantedAt (n + 1))
      (fun _ => PlantedAt (n + 1)) := by
  refine Run.Triple.get_bind ?_
  rintro g ⟨hg, rfl⟩
  refine Run.Triple.bind (M := fun _ => PlantedAt (g.nextEntity + 1)) (Run.Triple.modify ?_) ?_
  · rintro _ rfl
    exact ⟨hg.alloc hparent hchildren, rfl⟩
  · intro _
    refine Run.Keeps.bind ?_ (fun _ => (keeps_addObject L _).bind (fun _ => Run.Keeps.pure _))
    refine Run.Keeps.forList_of_mem (fun e he => ?_)
    refine keeps_moveto none none (Nat.lt_succ_of_lt (hmade e he)) (fun p hp => ?_)
    rw [← Option.some.inj hp]
    exact Nat.lt_succ_self _

/-- **What is done to the tree keeps it.** -/
theorem Planted.event (h : Planted g) {ev : TreeEvent} (hoccurs : ev.Occurs g)
    (hrun : ev.run.Leaves g g') : Planted g' := by
  have hg : PlantedAt g.nextEntity g := ⟨h, rfl⟩
  cases ev with
  | construct L v children =>
    have hkeeps : Run.Triple (PlantedAt (α := α) g.nextEntity)
        (TreeEvent.construct L v children).run
        (fun _ => PlantedAt (g.nextEntity + 1)) (fun _ => PlantedAt (g.nextEntity + 1)) :=
      (keeps_newEntity L hoccurs.1 hoccurs.2.1 hoccurs.2.2).bind (fun _ => Run.Keeps.pure ())
    exact (hkeeps.leaves hg hrun).1
  | add self child x y =>
    refine (Run.Triple.leaves (keeps_moveto x y hoccurs.2 (fun p hp => ?_)) hg hrun).1
    rw [← Option.some.inj hp]
    exact hoccurs.1
  | moveto self parent x y =>
    exact (Run.Triple.leaves (keeps_moveto x y hoccurs.1 hoccurs.2) hg hrun).1
  | leave self =>
    rcases hp : (g.entities self).parent with _ | p
    · have herror : (TreeEvent.leave self).run g = .error (.refused "index nil") g := by
        show (Run.assertSome (g.entities self).parent _ >>= _) g = _
        rw [hp]
        rfl
      rw [hrun.of_error herror]
      exact h
    · have hok : (TreeEvent.leave self).run g = .ok () (g.placed self none none none) := by
        show (Run.assertSome (g.entities self).parent _ >>= _) g = _
        rw [hp, Run.bind_of_ok (Run.assertSome_some _ _ _)]
        exact remove_apply hp
      rw [hrun.of_ok hok]
      exact h.placed self
  | delete fuel self => exact (Run.Triple.leaves (keeps_delete fuel self) hg hrun).1

/-- **A game that grows has a tree.** -/
theorem Grows.planted (h : Grows g) : Planted g := by
  induction h with
  | start halone =>
    refine ⟨⟨fun p e => ?_, fun p => ?_⟩, fun e p hp => ?_⟩
    · rw [(halone p).2, (halone e).1]
      exact iff_of_false List.not_mem_nil nofun
    · rw [(halone p).2]
      exact List.nodup_nil
    · rw [(halone e).1] at hp
      cases hp
  | event _ _ hoccurs hrun ih => exact ih.event hoccurs hrun

end Planted

/-- **The tree of the entities.** However a game has grown, an entity has a
parent exactly if it occurs among the children of that one, and then it occurs
once; and a `moveto` does no more to the tree than to take the entity from one
list and put it at the end of another one. -/
theorem tree_of_grows {g : Game α} (h : Grows g) :
    (∀ p e, (g.entities e).parent = some p ↔ e ∈ (g.entities p).children)
      ∧ (∀ p e, (g.entities e).parent = some p → (g.entities p).children.count e = 1)
      ∧ ∀ (self : ℕ) (parent : Option ℕ) (x y : Option ℚ),
        ∃ g', moveto self parent x y g = .ok () g' ∧ Relocated g g' self parent := by
  have hg := h.planted
  refine ⟨fun p e => (hg.child_iff p e).symm, fun p e hp => ?_, fun self parent x y =>
    ⟨_, moveto_apply self parent x y g, hg.toConsistent.relocated self parent x y⟩⟩
  exact List.count_eq_one_of_mem (hg.nodup p) ((hg.child_iff p e).mpr hp)

/-! ## A board on a field -/

/-- A field is made, and a board, which is put on it. -/
def laid : Game Empty :=
  let g := Game.empty.alloc (Kind.field.entity []) |>.enrolled (.entity 0) 1
  (g.alloc (Kind.chessBoard.entity [])).enrolled (.entity 1) 2 |>.moved 1 (some 0) none none

theorem grows_laid : Grows laid := by
  have hstart : Grows (Game.empty : Game Empty) := .start (fun _ => ⟨rfl, rfl⟩)
  have hfield := hstart.event (.construct (.first Obj) (Kind.field.entity []) [])
    ⟨rfl, rfl, fun _ h => absurd h List.not_mem_nil⟩
    (Or.inl ⟨(), Run.bind_of_ok (newEntity_apply _ rfl _)⟩)
  have hboard := hfield.event (.construct (.first Obj) (Kind.chessBoard.entity []) [])
    ⟨rfl, rfl, fun _ h => absurd h List.not_mem_nil⟩
    (Or.inl ⟨(), Run.bind_of_ok (newEntity_apply _ rfl _)⟩)
  refine hboard.event (.moveto 1 (some 0) none none) ⟨Nat.one_lt_two, fun p hp => ?_⟩
    (Or.inl ⟨(), moveto_apply _ _ _ _ _⟩)
  rw [← Option.some.inj hp]
  exact Nat.two_pos

/-- The board is taken from the field. -/
theorem tree_of_grows_laid :
    (laid.entities 0).children.count 1 = 1
      ∧ ∃ g', moveto 1 none none none laid = .ok () g' ∧ Relocated laid g' 1 none :=
  ⟨(tree_of_grows grows_laid).2.1 0 1 rfl, (tree_of_grows grows_laid).2.2 1 none none none⟩

end Server

end Felt
