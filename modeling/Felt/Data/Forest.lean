import Mathlib.Data.Option.Basic
import Mathlib.Data.Set.Finite.Basic
import Mathlib.Logic.Function.Basic
import Mathlib.Logic.Relation
import Mathlib.Order.Nat
import Mathlib.Order.WellFoundedSet

/-!
# Forests given by their parents

A forest is a function that gives each node its parent, or none. That alone
does not keep a node from being its own ancestor; a forest without such a node
is acyclic.

Giving a node another parent changes one link. `ancestor_update` says what the
ancestors are then, and `acyclic_update_some_iff` when there is no cycle: when
the new parent is neither the node nor below it.

A forest may also be given by the children of each node, in an order. Cutting
off a node and then every other child of what is cut off (`Pruned`) leaves the
second child of any node there is; it takes a whole subtree exactly if that is
a path.

The walk that cuts off every other child goes down as far as there are children,
and that it comes to an end is a matter of there being no cycle and finitely
many nodes (`Acyclic.wellFounded`). Both ways of giving a forest are used side by
side: the parents say what is above a node, which is a relation that can be
followed, and the children say in which order the walk comes to them. What the
two have to do with each other is a hypothesis where it is needed, as a program
that stores both may have them disagree.
-/

namespace Felt

namespace Forest

variable {ι : Type} (parent : ι → Option ι)

/-- **`b` is above `a`.** -/
def Ancestor (a b : ι) : Prop := Relation.TransGen (fun a b => parent a = some b) a b

/-- **No node is its own ancestor.** -/
def Acyclic : Prop := ∀ a, ¬Ancestor parent a a

/-- **Going up from a node ends** at a root that is `P`. -/
inductive EndsIn (P : ι → Prop) : ι → Prop where
  /-- At a root. -/
  | root {a : ι} (hroot : parent a = none) (hP : P a) : EndsIn P a
  /-- One step further up. -/
  | up {a b : ι} (hup : parent a = some b) (hb : EndsIn P b) : EndsIn P a

variable {parent}

theorem Ancestor.single {a b : ι} (h : parent a = some b) : Ancestor parent a b :=
  Relation.TransGen.single h

theorem Ancestor.trans {a b c : ι} (h : Ancestor parent a b) (h' : Ancestor parent b c) :
    Ancestor parent a c :=
  Relation.TransGen.trans h h'

/-- Nodes that have a rank, lower than their parents', make no cycle. -/
theorem acyclic_of_rank (rank : ι → ℕ) (h : ∀ a b, parent a = some b → rank a < rank b) :
    Acyclic parent := by
  have hlt : ∀ a b, Ancestor parent a b → rank a < rank b := fun a b hab => by
    induction hab with
    | single hab => exact h _ _ hab
    | tail _ hbc ih => exact ih.trans (h _ _ hbc)
  exact fun a ha => lt_irrefl _ (hlt a a ha)

section Update

variable [DecidableEq ι] {e : ι} {q : Option ι}

/-- **The ancestors when one node has another parent**: those there were, and
for the node and what is below it the new parent and what is above that. -/
theorem ancestor_update {a b : ι} (h : Ancestor (Function.update parent e q) a b) :
    Ancestor parent a b ∨ (a = e ∨ Ancestor parent a e)
      ∧ ∃ p, q = some p ∧ (b = p ∨ Ancestor parent p b) := by
  induction h with
  | @single b hab =>
    by_cases ha : a = e
    · rw [ha, Function.update_self] at hab
      exact Or.inr ⟨Or.inl ha, b, hab, Or.inl rfl⟩
    · rw [Function.update_of_ne ha] at hab
      exact Or.inl (.single hab)
  | @tail b c _ hbc ih =>
    by_cases hb : b = e
    · rw [hb, Function.update_self] at hbc
      refine Or.inr ⟨?_, c, hbc, Or.inl rfl⟩
      rcases ih with h | ⟨h, -⟩
      · exact Or.inr (hb ▸ h)
      · exact h
    · rw [Function.update_of_ne hb] at hbc
      rcases ih with h | ⟨ha, p, hq, rfl | h⟩
      · exact Or.inl (h.trans (.single hbc))
      · exact Or.inr ⟨ha, b, hq, Or.inr (.single hbc)⟩
      · exact Or.inr ⟨ha, p, hq, Or.inr (h.trans (.single hbc))⟩

/-- The way up to a node does not use the node's own link. -/
theorem Acyclic.ancestor_update_self (h : Acyclic parent) {a : ι} (ha : Ancestor parent a e) :
    Ancestor (Function.update parent e q) a e := by
  have hlink : ∀ a b, parent a = some b → Ancestor parent a e →
      Function.update parent e q a = some b := fun a b hab hae => by
    have hne : a ≠ e := fun hae' => h e (hae' ▸ hae)
    rw [Function.update_of_ne hne]
    exact hab
  induction ha using Relation.TransGen.head_induction_on with
  | single hab => exact .single (hlink _ _ hab (.single hab))
  | head hab hb ih => exact Relation.TransGen.head (hlink _ _ hab (.head hab hb)) ih

/-- **Another parent closes a cycle exactly when it is the node or is below
it.** -/
theorem acyclic_update_some_iff (h : Acyclic parent) (p : ι) :
    Acyclic (Function.update parent e (some p)) ↔ p ≠ e ∧ ¬Ancestor parent p e := by
  constructor
  · intro hac
    refine ⟨?_, fun hp => ?_⟩
    · rintro rfl
      exact hac p (.single (Function.update_self _ _ _))
    · exact hac e ((Ancestor.single (Function.update_self _ _ _)).trans
        (h.ancestor_update_self hp))
  · rintro ⟨hne, hnot⟩ a ha
    rcases ancestor_update ha with ha | ⟨hae, p', hp', hpa⟩
    · exact h a ha
    · obtain rfl := Option.some.inj hp'
      rcases hae with rfl | hae
      · exact hpa.elim (fun h => hne h.symm) hnot
      · exact hpa.elim (fun h => hnot (h ▸ hae)) (fun h => hnot (h.trans hae))

end Update

/-! ## Subtrees -/

/-- **`a` is `e` or is below it.** -/
def Below (parent : ι → Option ι) (e a : ι) : Prop :=
  Relation.ReflTransGen (fun a b => parent a = some b) a e

theorem Below.refl (e : ι) : Below parent e e := Relation.ReflTransGen.refl

/-- What a child of something below `e` is. -/
theorem Below.child {e a c : ι} (h : Below parent e a) (hc : parent c = some a) :
    Below parent e c :=
  Relation.ReflTransGen.head hc h

theorem Below.trans {e a b : ι} (h : Below parent e a) (h' : Below parent a b) : Below parent e b :=
  Relation.ReflTransGen.trans h' h

/-- What is below a node is a child of the node, or its parent is below. -/
theorem Below.parent_of_ne {e a p : ι} (h : Below parent e a) (hne : a ≠ e)
    (hp : parent a = some p) : Below parent e p := by
  obtain h | ⟨q, hq, h⟩ := Relation.ReflTransGen.cases_head h
  · exact absurd h hne
  · rw [Option.some.inj (hp.symm.trans hq)]
    exact h

/-- **The way up is unique**: of two nodes above a third one is above the
other. -/
theorem Below.total {e e' a : ι} (h : Below parent e a) (h' : Below parent e' a) :
    Below parent e e' ∨ Below parent e' e :=
  (Relation.ReflTransGen.total_of_right_unique
    (fun _ _ _ hb hc => Option.some.inj (hb.symm.trans hc)) h h').symm

/-- A parent is not below its child. -/
theorem Acyclic.not_below (h : Acyclic parent) {c p : ι} (hc : parent c = some p) :
    ¬Below parent c p := fun hb => h c (Relation.TransGen.head' hc hb)

/-- **The subtrees of siblings are disjoint.** -/
theorem Acyclic.siblings (h : Acyclic parent) {c d p a : ι} (hc : parent c = some p)
    (hd : parent d = some p) (hne : c ≠ d) (ha : Below parent c a) : ¬Below parent d a := by
  intro ha'
  rcases ha.total ha' with hb | hb
  · exact h.not_below hc (hb.parent_of_ne hne.symm hd)
  · exact h.not_below hd (hb.parent_of_ne hne hc)

/-- **Going down ends** in an acyclic forest with finitely many nodes that have
a parent. -/
theorem Acyclic.wellFounded (h : Acyclic parent) {s : Set ι} (hs : s.Finite)
    (hmem : ∀ a p, parent a = some p → a ∈ s) : WellFounded (fun c p => parent c = some p) := by
  let r : ι → ι → Prop := Ancestor parent
  have : IsStrictOrder ι r := { irrefl := h, trans := fun _ _ _ hab hbc => hab.trans hbc }
  have hwf : s.WellFoundedOn r := hs.wellFoundedOn
  have hacc : ∀ a : s, Acc (fun c p => parent c = some p) a.val := fun a => by
    induction hwf.apply a with
    | intro a _ ih => exact ⟨_, fun c hc => ih ⟨c, hmem c _ hc⟩ (.single hc)⟩
  exact ⟨fun a => ⟨_, fun c hc => hacc ⟨c, hmem c _ hc⟩⟩⟩

/-! ## Every other child -/

/-- The first of a list, and every other one after that. -/
def everyOther : List ι → List ι
  | [] => []
  | [a] => [a]
  | a :: _ :: l => a :: everyOther l

theorem mem_of_mem_everyOther {a : ι} : ∀ {l : List ι}, a ∈ everyOther l → a ∈ l
  | [], h => h
  | [_], h => h
  | b :: c :: l, h => by
    rcases List.mem_cons.mp h with rfl | h
    · exact List.mem_cons_self
    · exact List.mem_cons_of_mem _ (List.mem_cons_of_mem _ (mem_of_mem_everyOther h))

/-- Of one child, or none, none is left out. -/
theorem everyOther_of_length_le {l : List ι} (h : l.length ≤ 1) : everyOther l = l := by
  match l, h with
  | [], _ => rfl
  | [_], _ => rfl

/-- The second child is left out. -/
theorem second_notMem_everyOther {a b : ι} {l : List ι} (h : (a :: b :: l).Nodup) :
    b ∉ everyOther (a :: b :: l) := by
  obtain ⟨ha, hl⟩ := List.nodup_cons.mp h
  intro hb
  rcases List.mem_cons.mp hb with rfl | hb
  · exact ha List.mem_cons_self
  · exact (List.nodup_cons.mp hl).1 (mem_of_mem_everyOther hb)

section Pruned

variable (children : ι → List ι)

/-- **What is cut off with `e`**: every other child of what is cut off. -/
def Pruned (e a : ι) : Prop := Relation.ReflTransGen (fun p c => c ∈ everyOther (children p)) e a

variable {children} {e a : ι}

/-- What is cut off with `e` is `e`, or is cut off with one of its children. -/
theorem pruned_iff :
    Pruned children e a ↔ a = e ∨ ∃ c ∈ everyOther (children e), Pruned children c a :=
  Relation.ReflTransGen.cases_head_iff.trans (or_congr_left eq_comm)

theorem Pruned.below (hchild : ∀ p c, c ∈ children p → parent c = some p)
    (h : Pruned children e a) : Below parent e a := by
  induction h with
  | refl => exact Below.refl e
  | tail _ hc ih => exact ih.child (hchild _ _ (mem_of_mem_everyOther hc))

/-- **A subtree is cut off exactly if it is a path.** -/
theorem forall_pruned_iff (hchild : ∀ p c, c ∈ children p ↔ parent c = some p)
    (hnodup : ∀ p, (children p).Nodup) (hac : Acyclic parent) :
    (∀ a, Below parent e a → Pruned children e a)
      ↔ ∀ a, Below parent e a → (children a).length ≤ 1 := by
  constructor
  · intro h a ha
    by_contra hlen
    obtain ⟨b, c, l, hl⟩ : ∃ b c l, children a = b :: c :: l := by
      match hl : children a, hlen with
      | [], hlen => exact absurd (Nat.zero_le 1) hlen
      | [_], hlen => exact absurd (Nat.le_refl 1) hlen
      | b :: c :: l, _ => exact ⟨b, c, l, rfl⟩
    have hc : parent c = some a := by
      rw [← hchild, hl]
      exact List.mem_cons_of_mem _ List.mem_cons_self
    -- the second child is not `e`, and its parent leaves it out
    obtain heq | ⟨p, -, hp⟩ := Relation.ReflTransGen.cases_tail (h c (ha.child hc))
    · rw [heq] at hc
      exact hac.not_below hc ha
    · have hpa := (hchild p c).mp (mem_of_mem_everyOther hp)
      rw [hc] at hpa
      rw [← Option.some.inj hpa, hl] at hp
      exact second_notMem_everyOther (hl ▸ hnodup a) hp
  · intro h a ha
    induction ha using Relation.ReflTransGen.head_induction_on with
    | refl => exact Relation.ReflTransGen.refl
    | @head a p hp hup ih =>
      refine ih.tail ?_
      rw [everyOther_of_length_le (h p hup)]
      exact (hchild p a).mpr hp

end Pruned

end Forest

end Felt
