import Felt.Data.Forest
import Felt.Server.Effect

/-!
# The tree of the entities

An entity is among the children of its parent, once, and of no other entity:
the tree is stored twice, and `Consistent` says that the two agree.

`Board.drop` refuses to drop an item onto itself, so that no cycle comes to
be, and forgets the items that contain the board. The comment in the source
has both.

The guard is on the item alone, and the item may be above the board some steps
up. It is the holder's hand that makes this possible, since an entity can be held
and stand on something at the same time. For a forest without cycles it is exact
that a cycle comes to be if and only if the item contains the board and is not
the board itself.
-/

namespace Felt

namespace Server

variable {α : Type}

/-- The parents, as a function. -/
def Game.parents (g : Game α) (e : ℕ) : Option ℕ := (g.entities e).parent

theorem parents_moved {self : ℕ} {parent : Option ℕ} {x y : Option ℚ} {g : Game α} :
    (g.moved self parent x y).parents = Function.update g.parents self parent := by
  funext e
  rw [Function.update_apply]
  rfl

/-! ## The two sides of the tree -/

/-- **The tree is consistent**: an entity is among the children of its parent,
once, and of no other entity. -/
structure Consistent (g : Game α) : Prop where
  /-- Children and parents agree. -/
  child_iff : ∀ p e, e ∈ (g.entities p).children ↔ (g.entities e).parent = some p
  /-- A child is there once. -/
  nodup : ∀ p, (g.entities p).children.Nodup

section Consistent

variable {g : Game α}

/-- **Moving keeps the tree consistent.** -/
theorem Consistent.moved (h : Consistent g) (self : ℕ) (parent : Option ℕ) (x y : Option ℚ) :
    Consistent (g.moved self parent x y) where
  child_iff p e := by
    rw [moved_children, moved_parent]
    unfold movedChildren
    rcases eq_or_ne e self with rfl | he
    · rw [if_pos rfl]
      split_ifs with hsame hwas hnew
      · rw [h.child_iff, hsame]
      · rw [(h.nodup p).mem_erase_iff]
        exact iff_of_false (fun h => h.1 rfl) (fun hp => hsame (hwas.trans hp.symm))
      · exact iff_of_true (List.mem_append_right _ (List.mem_singleton_self _)) hnew
      · rw [h.child_iff]
        exact iff_of_false hwas hnew
    · rw [if_neg he]
      split_ifs
      · exact h.child_iff p e
      · rw [(h.nodup p).mem_erase_iff, h.child_iff]
        exact and_iff_right he
      · rw [List.mem_append, List.mem_singleton, h.child_iff]
        exact or_iff_left he
      · exact h.child_iff p e
  nodup p := by
    rw [moved_children]
    unfold movedChildren
    split_ifs with hsame hwas hnew
    · exact h.nodup p
    · exact (h.nodup p).erase self
    · refine (h.nodup p).append (List.nodup_singleton self) ?_
      rw [List.disjoint_singleton, h.child_iff]
      exact hwas
    · exact h.nodup p

/-! ## Cycles -/

/-- **A player holds something that contains `self`.** -/
def HoldsContainer (g : Game α) (who self : ℕ) : Prop :=
  ∃ item, (g.people who).held = some item ∧ Forest.Ancestor g.parents self item

theorem parents_released (p item : ℕ) (g : Game α) : (g.released p item).parents = g.parents := by
  funext e
  unfold Game.parents
  rw [released_entities]
  refine changeAt_field Entity.parent ?_ _ _ _
  exact fun _ => rfl

theorem Consistent.released (h : Consistent g) (p item : ℕ) : Consistent (g.released p item) := by
  have hchildren : ∀ e, ((g.released p item).entities e).children = (g.entities e).children :=
    fun e => by
      rw [released_entities]
      refine changeAt_field Entity.children ?_ _ _ _
      exact fun _ => rfl
  refine ⟨fun q e => ?_, fun q => ?_⟩
  · rw [hchildren, show ((g.released p item).entities e).parent = (g.entities e).parent from
      congrFun (parents_released p item g) e]
    exact h.child_iff q e
  · rw [hchildren]
    exact h.nodup q

theorem Consistent.say (h : Consistent g) (call : (Obj → Packed) → Call α) :
    Consistent (g.say call) := ⟨h.child_iff, h.nodup⟩

theorem Consistent.dropped (h : Consistent g) (p item onto : ℕ) (x y : Option ℚ) :
    Consistent (g.dropped p item onto x y) := by
  unfold Game.dropped
  exact ((h.released p item).moved item (some onto) x y).say _

theorem parents_dropped (p item onto : ℕ) (x y : Option ℚ) (g : Game α) :
    (g.dropped p item onto x y).parents = Function.update g.parents item (some onto) := by
  show ((g.released p item).moved item (some onto) x y).parents = _
  rw [parents_moved, parents_released]

/-- **`Board.drop` keeps an acyclic forest acyclic exactly when the item does
not contain the board.** -/
theorem drop_acyclic_iff (g : Game α) (hg : Consistent g) (hac : Forest.Acyclic g.parents)
    (self p : ℕ) (x y : ℚ) :
    ∃ g', Board.drop self (some p) (some x) (some y) g = .ok () g' ∧ Consistent g'
      ∧ (Forest.Acyclic g'.parents ↔ ¬HoldsContainer g p self) := by
  refine ⟨_, Board.drop_apply self p x y g, ?_⟩
  rcases hheld : (g.people p).held with _ | item
  · refine ⟨hg, iff_of_true hac ?_⟩
    rintro ⟨item, hitem, -⟩
    rw [hheld] at hitem
    cases hitem
  · have hholds : HoldsContainer g p self ↔ Forest.Ancestor g.parents self item := by
      constructor
      · rintro ⟨item', hitem, habove⟩
        obtain rfl := Option.some.inj (hheld.symm.trans hitem)
        exact habove
      · exact fun habove => ⟨item, hheld, habove⟩
    rw [hholds]
    by_cases hself : item = self
    · simp only [if_pos hself]
      exact ⟨hg, iff_of_true hac (hself ▸ hac self)⟩
    · simp only [if_neg hself]
      refine ⟨hg.dropped p item self _ _, ?_⟩
      rw [parents_dropped, Forest.acyclic_update_some_iff hac]
      exact and_iff_right (Ne.symm hself)

end Consistent

/-! ## A drop into oneself -/

/-- A pile on a board, and a player who holds the entity `held`. -/
def nested (held : ℕ) : Game Empty :=
  { Game.empty with
    entities := fun e =>
      if e = 0 then { Kind.chessBoard.entity [] with children := [1] }
      else if e = 1 then { Kind.pile.entity [] with parent := some 0 }
      else Kind.goPiece.entity []
    people := fun _ => ⟨[], none, some held, .nil, .nil, .nil⟩ }

theorem parents_nested (held e : ℕ) : (nested held).parents e = if e = 1 then some 0 else none := by
  show Entity.parent (if e = 0 then _ else if e = 1 then _ else _) = _
  split_ifs with h0 h1
  · omega
  · rfl
  · rfl
  · rfl

theorem consistent_nested (held : ℕ) : Consistent (nested held) := by
  have hchildren : ∀ p, ((nested held).entities p).children = if p = 0 then [1] else [] := by
    intro p
    show Entity.children (if p = 0 then _ else if p = 1 then _ else _) = _
    split_ifs <;> rfl
  refine ⟨fun p e => ?_, fun p => ?_⟩
  · have hparent := parents_nested held e
    unfold Game.parents at hparent
    rw [hchildren, hparent]
    split_ifs with hp he he
    · exact iff_of_true (List.mem_singleton.mpr he) (congrArg some hp.symm)
    · exact iff_of_false (fun h => he (List.mem_singleton.mp h)) nofun
    · exact iff_of_false List.not_mem_nil (fun h => hp (Option.some.inj h).symm)
    · exact iff_of_false List.not_mem_nil nofun
  · rw [hchildren]
    split_ifs
    · exact List.nodup_singleton 1
    · exact List.nodup_nil

theorem ancestor_nested {held a b : ℕ} (h : Forest.Ancestor (nested held).parents a b) :
    a = 1 ∧ b = 0 := by
  induction h with
  | single hab =>
    rw [parents_nested] at hab
    split_ifs at hab with ha
    exact ⟨ha, (Option.some.inj hab).symm⟩
  | tail _ hbc ih =>
    rw [parents_nested, ih.2] at hbc
    cases hbc

theorem acyclic_nested (held : ℕ) : Forest.Acyclic (nested held).parents := fun a ha => by
  obtain ⟨rfl, h⟩ := ancestor_nested ha
  cases h

/-- A stone that is dropped onto the pile. -/
theorem drop_acyclic_nested :
    ∃ g', Board.drop 1 (some 0) (some 5) (some 5) (nested 2) = .ok () g' ∧ Consistent g'
      ∧ Forest.Acyclic g'.parents := by
  obtain ⟨g', hdrop, hg', hiff⟩ :=
    drop_acyclic_iff (nested 2) (consistent_nested 2) (acyclic_nested 2) 1 0 5 5
  refine ⟨g', hdrop, hg', hiff.mpr ?_⟩
  rintro ⟨item, hitem, habove⟩
  obtain rfl : item = 2 := (Option.some.inj hitem).symm
  cases (ancestor_nested habove).2

/-- **A board dropped onto a pile that stands on it contains itself.** -/
theorem not_drop_acyclic :
    ¬ ∀ (g g' : Game Empty) (self p : ℕ) (x y : ℚ), Consistent g → Forest.Acyclic g.parents →
      Board.drop self (some p) (some x) (some y) g = .ok () g' → Forest.Acyclic g'.parents := by
  intro h
  have hac := h (nested 0) _ 1 0 5 5 (consistent_nested 0) (acyclic_nested 0)
    (Board.drop_apply 1 0 5 5 (nested 0))
  change Forest.Acyclic ((nested 0).dropped 0 0 1 _ _).parents at hac
  rw [parents_dropped] at hac
  refine hac 0 (.tail (.single (Function.update_self _ _ _)) ?_)
  rw [Function.update_of_ne (by decide), parents_nested]
  rfl

end Server

end Felt
