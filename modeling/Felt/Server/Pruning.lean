import Felt.Server.Sound

/-!
# What deleting an entity deletes

`Entity.delete` walks through the children of an entity and deletes each, and
a child that is deleted takes itself from the very list the walk goes through.
The next position is then one too far: of the children every other one is
deleted, and of theirs again every other one.

`Erased` says what a set of entities that is deleted leaves of the game. The
set is the one `Forest.Pruned` describes, in any forest – so that a subtree is
deleted exactly if it is a path.

A deletion is deep, so that the walk is followed along the forest as it was when
the deletion began. `Intact` says that what is below a child is still as it was
when the walk comes to it; that is so because the subtrees of siblings have no
entity in common. The set that is deleted is built up from the sets of the
children by `Erased.trans`.
-/

namespace Felt

namespace Server

variable {α : Type}

/-- **The tree and the tables are in order**: both sides of the tree agree, and
so do the two tables of ids and the objects. -/
structure Orderly (g : Game α) : Prop where
  /-- The two sides of the tree agree. -/
  tree : Consistent g
  /-- The tables of ids are inverse to each other. -/
  inverse : Dict.Inverse g.objects g.rObjects
  /-- An object in them knows its id. -/
  id_of : ∀ id o, g.objects.get id = some o → g.idOf o = some id

/-- A sound game is in order. -/
theorem Sound.orderly {fits : Kind → Kind → Prop} {g : Game α} (h : Sound fits g) : Orderly g :=
  ⟨h.tree, h.inverse, h.id_of⟩

/-! ## A set of entities that is deleted -/

/-- The entities of a list that are not among `dead`. -/
noncomputable def without (dead : Set ℕ) (l : List ℕ) : List ℕ := by
  classical
  exact l.filter (fun e => e ∉ dead)

section Without

open scoped Classical

variable {dead dead' : Set ℕ} {l : List ℕ}

theorem mem_without {e : ℕ} : e ∈ without dead l ↔ e ∈ l ∧ e ∉ dead := by
  unfold without
  rw [List.mem_filter, decide_eq_true_iff]

theorem without_eq_self (h : ∀ e ∈ l, e ∉ dead) : without dead l = l :=
  List.filter_eq_self.mpr (fun e he => decide_eq_true (h e he))

theorem without_append (l l' : List ℕ) :
    without dead (l ++ l') = without dead l ++ without dead l' := List.filter_append _ _

theorem without_cons_of_mem {e : ℕ} (h : e ∈ dead) (l : List ℕ) :
    without dead (e :: l) = without dead l :=
  List.filter_cons_of_neg (fun hd => of_decide_eq_true hd h)

theorem without_without : without dead' (without dead l) = without (dead ∪ dead') l := by
  unfold without
  rw [List.filter_filter]
  refine List.filter_congr (fun e _ => Bool.eq_iff_iff.mpr ?_)
  simp only [Bool.and_eq_true, decide_eq_true_eq, Set.mem_union, not_or, and_comm]

/-- Without one entity that occurs once. -/
theorem without_eq_erase {e : ℕ} (hl : l.Nodup) (h : ∀ i ∈ l, i ∈ dead ↔ i = e) :
    without dead l = l.erase e := by
  rw [hl.erase_eq_filter]
  refine List.filter_congr (fun i hi => Bool.eq_iff_iff.mpr ?_)
  rw [decide_eq_true_iff, h i hi]
  exact bne_iff_ne.symm

end Without

/-- **The entities `dead` have been deleted**, and nothing else has been done to
the tree and to the tables. -/
structure Erased (g : Game α) (dead : Set ℕ) (g' : Game α) : Prop where
  /-- They have no parent. -/
  parent_of_mem : ∀ e ∈ dead, (g'.entities e).parent = none
  /-- The parents of the others. -/
  parent_of_notMem : ∀ e, e ∉ dead → (g'.entities e).parent = (g.entities e).parent
  /-- They are nobody's children. -/
  children : ∀ p, (g'.entities p).children = without dead (g.entities p).children
  /-- The ids are the same. -/
  idOf : ∀ o, g'.idOf o = g.idOf o
  /-- They are not in `objects`. -/
  objects_iff : ∀ id o, g'.objects.get id = some o
    ↔ g.objects.get id = some o ∧ ∀ e ∈ dead, o ≠ .entity e
  /-- They are not in `r_objects`. -/
  rObjects_iff : ∀ o id, g'.rObjects.get o = some id
    ↔ g.rObjects.get o = some id ∧ ∀ e ∈ dead, o ≠ .entity e

section Erased

variable {g g' g'' : Game α} {dead dead' : Set ℕ}

theorem Erased.empty (g : Game α) : Erased g ∅ g where
  parent_of_mem e he := absurd he (Set.notMem_empty e)
  parent_of_notMem _ _ := rfl
  children _ := (without_eq_self (fun e _ => Set.notMem_empty e)).symm
  idOf _ := rfl
  objects_iff _ _ := (and_iff_left (fun e he => absurd he (Set.notMem_empty e))).symm
  rObjects_iff _ _ := (and_iff_left (fun e he => absurd he (Set.notMem_empty e))).symm

/-- **One set, and then another one.** -/
theorem Erased.trans (h : Erased g dead g') (h' : Erased g' dead' g'') :
    Erased g (dead ∪ dead') g'' where
  parent_of_mem e he := by
    by_cases he' : e ∈ dead'
    · exact h'.parent_of_mem e he'
    · rw [h'.parent_of_notMem e he']
      exact h.parent_of_mem e (he.resolve_right he')
  parent_of_notMem e he := by
    rw [h'.parent_of_notMem e (fun he' => he (Or.inr he')),
      h.parent_of_notMem e (fun he' => he (Or.inl he'))]
  children p := by rw [h'.children, h.children, without_without]
  idOf o := (h'.idOf o).trans (h.idOf o)
  objects_iff id o := by
    rw [h'.objects_iff, h.objects_iff, and_assoc]
    simp only [Set.mem_union, or_imp, forall_and]
  rObjects_iff o id := by
    rw [h'.rObjects_iff, h.rObjects_iff, and_assoc]
    simp only [Set.mem_union, or_imp, forall_and]

/-- What is left is in order. -/
theorem Erased.orderly (h : Erased g dead g') (hg : Orderly g) : Orderly g' where
  tree := by
    refine ⟨fun p e => ?_, fun p => ?_⟩
    · rw [h.children, mem_without, hg.tree.child_iff]
      by_cases he : e ∈ dead
      · rw [h.parent_of_mem e he]
        exact iff_of_false (fun hp => hp.2 he) (by simp)
      · rw [h.parent_of_notMem e he]
        exact and_iff_left he
    · rw [h.children]
      exact (hg.tree.nodup p).filter _
  inverse id o := by rw [h.objects_iff, h.rObjects_iff, hg.inverse id o]
  id_of id o ho := by
    rw [h.idOf]
    exact hg.id_of id o ((h.objects_iff id o).mp ho).1

/-- What is not deleted is still registered. -/
theorem Erased.listed (h : Erased g dead g') {e : ℕ} (he : g.Listed (.entity e))
    (hnot : e ∉ dead) : g'.Listed (.entity e) := by
  obtain ⟨id, hid⟩ := he
  refine ⟨id, (h.objects_iff id _).mpr ⟨hid, fun d hd heq => hnot ?_⟩⟩
  rw [Obj.entity.inj heq]
  exact hd

/-- What is deleted is not registered any more. -/
theorem Erased.not_listed (h : Erased g dead g') {e : ℕ} (he : e ∈ dead) :
    ¬g'.Listed (.entity e) := by
  rintro ⟨id, hid⟩
  exact ((h.objects_iff id _).mp hid).2 e he rfl

/-- The children of an entity none of which is deleted. -/
theorem Erased.children_same (h : Erased g dead g') {p : ℕ}
    (hnot : ∀ c ∈ (g.entities p).children, c ∉ dead) :
    (g'.entities p).children = (g.entities p).children :=
  (h.children p).trans (without_eq_self hnot)

end Erased

/-! ## One entity -/

/-- **The last two steps of a `delete`** remove the entity. -/
theorem Orderly.erased_self {g : Game α} (h : Orderly g) {e id : ℕ}
    (hid : g.objects.get id = some (.entity e)) :
    Erased g {e} ((g.moved e none none none).struck (.entity e) id) where
  parent_of_mem i hi := by
    obtain rfl := Set.mem_singleton_iff.mp hi
    exact if_pos rfl
  parent_of_notMem i hi := if_neg (fun heq => hi (Set.mem_singleton_iff.mpr heq))
  children p := by
    show movedChildren e (g.entities e).parent none p (g.entities p).children = _
    rw [without_eq_erase (h.tree.nodup p) (fun i _ => Set.mem_singleton_iff)]
    -- the entity is taken from the list it is in, and is in no other
    unfold movedChildren
    split_ifs with hwas hp hnone
    · rw [List.erase_of_not_mem (fun hmem => ?_)]
      rw [(h.tree.child_iff p e).mp hmem] at hwas
      cases hwas
    · rfl
    · cases hnone
    · rw [List.erase_of_not_mem (fun hmem => hp ((h.tree.child_iff p e).mp hmem))]
  idOf o := by
    cases o <;> rfl
  objects_iff id' o := by
    show (g.objects.erase id).get id' = some o ↔ _
    rw [Dict.get_erase]
    simp only [Set.mem_singleton_iff, forall_eq]
    by_cases hsame : id' = id
    · rw [if_pos hsame, hsame, hid]
      exact iff_of_false (by simp) (fun ho => ho.2 (Option.some.inj ho.1).symm)
    · rw [if_neg hsame]
      refine (and_iff_left_of_imp (fun ho => ?_)).symm
      rintro rfl
      exact hsame (Option.some.inj ((h.id_of _ _ ho).symm.trans (h.id_of _ _ hid)))
  rObjects_iff o id' := by
    show (g.rObjects.erase (.entity e)).get o = some id' ↔ _
    rw [Dict.get_erase]
    simp only [Set.mem_singleton_iff, forall_eq]
    by_cases hsame : o = .entity e
    · rw [if_pos hsame]
      exact iff_of_false (by simp) (fun ho => ho.2 hsame)
    · rw [if_neg hsame]
      exact (and_iff_left hsame).symm

/-! ## The walk through the children -/

/-- The walk ends at a position past the end. -/
theorem deleteChildren_end {g : Game α} {self i : ℕ} (hi : (g.entities self).children.length ≤ i)
    (fuel todo : ℕ) : deleteChildren (fuel + 1) self todo i g = .ok () g := by
  rcases todo with _ | todo
  · rfl
  · rw [deleteChildren, Run.get_bind, List.getElem?_eq_none hi]
    rfl

/-- The walk deletes the child it stands at, and goes on behind it. -/
theorem deleteChildren_step {g : Game α} {self i c : ℕ}
    (hc : (g.entities self).children[i]? = some c) (fuel todo : ℕ) :
    deleteChildren (fuel + 1) self (todo + 1) i g
      = (delete fuel c >>= fun _ => deleteChildren fuel self todo (i + 1)) g := by
  rw [deleteChildren, Run.get_bind, hc]

section Walk

variable (g₀ : Game α)

/-- The entities that are deleted with `e`. -/
def doomed (e : ℕ) : Set ℕ := {a | Forest.Pruned (fun p => (g₀.entities p).children) e a}

/-- **What is below `e` is as it was**, and registered. -/
def Intact (e : ℕ) (g : Game α) : Prop :=
  ∀ a, Forest.Below g₀.parents e a →
    (g.entities a).children = (g₀.entities a).children ∧ g.Listed (.entity a)

/-- **`delete` ends, from `g`**, and deletes what is doomed with `e`. -/
def Prunes (e : ℕ) : Prop :=
  ∀ g, Orderly g → Intact g₀ e g → ∃ g', (∃ n, ∀ fuel, n ≤ fuel → delete fuel e g = .ok () g')
    ∧ Erased g (doomed g₀ e) g'

variable {g₀} (htree : Consistent g₀) (hac : Forest.Acyclic g₀.parents)

include htree in
theorem doomed_below {e a : ℕ} (h : a ∈ doomed g₀ e) : Forest.Below g₀.parents e a :=
  Forest.Pruned.below (fun p c hc => (htree.child_iff p c).mp hc) h

include htree hac in
/-- Of the children of an entity no other one is doomed with `c`. -/
theorem sibling_notMem_doomed {p c d : ℕ} (hc : g₀.parents c = some p)
    (hd : g₀.parents d = some p) (hne : d ≠ c) {a : ℕ} (ha : Forest.Below g₀.parents d a) :
    a ∉ doomed g₀ c :=
  fun hdoom => hac.siblings hc hd hne.symm (doomed_below htree hdoom) ha

include htree hac in
/-- **What a child that is deleted leaves intact**: what is below the others. -/
theorem Intact.sibling {g g' : Game α} {p c d : ℕ} (h : Intact g₀ d g)
    (herased : Erased g (doomed g₀ c) g') (hc : g₀.parents c = some p)
    (hd : g₀.parents d = some p) (hne : d ≠ c) : Intact g₀ d g' := by
  intro a ha
  obtain ⟨hchildren, hlisted⟩ := h a ha
  have hnot := fun {b : ℕ} => sibling_notMem_doomed htree hac hc hd hne (a := b)
  refine ⟨(herased.children_same (fun b hb => hnot (ha.child ?_))).trans hchildren,
    herased.listed hlisted (hnot ha)⟩
  rw [hchildren] at hb
  exact (htree.child_iff a b).mp hb

include htree hac in
/-- **Of the children of an entity the deletion of `c` takes `c` alone.** -/
theorem children_erased {g g' : Game α} {self c : ℕ} {pre rest : List ℕ} (hg : Orderly g)
    (hchildren : (g.entities self).children = pre ++ c :: rest)
    (hparent : ∀ d ∈ pre ++ c :: rest, g₀.parents d = some self)
    (herased : Erased g (doomed g₀ c) g') :
    (g'.entities self).children = pre ++ rest ∧ ∀ d ∈ pre ++ rest, d ≠ c := by
  have hnodup : (pre ++ c :: rest).Nodup := hchildren ▸ hg.tree.nodup self
  have hne : ∀ d ∈ pre ++ rest, d ≠ c := by
    rintro d hd rfl
    exact (List.nodup_middle.mp hnodup).notMem hd
  have hself : c ∈ doomed g₀ c := Relation.ReflTransGen.refl
  refine ⟨?_, hne⟩
  rw [herased.children, hchildren, without_append, without_cons_of_mem hself, ← without_append]
  refine without_eq_self (fun d hd => sibling_notMem_doomed htree hac (hparent c ?_) (hparent d ?_)
    (hne d hd) (Forest.Below.refl d))
  · exact List.mem_append_right _ List.mem_cons_self
  · exact List.perm_middle.mem_iff.mpr (List.mem_cons_of_mem c hd)

include htree hac in
/-- **The walk**: it stands behind the children `pre`, and goes through the
others two by two, as each that is deleted makes the list shorter. -/
theorem deleteChildren_erases (self : ℕ) : ∀ (rest pre : List ℕ) (todo : ℕ) (g : Game α),
    Orderly g → (g.entities self).children = pre ++ rest → rest.length ≤ todo →
    (∀ c ∈ pre ++ rest, g₀.parents c = some self) → (∀ c ∈ rest, Intact g₀ c g) →
    (∀ c ∈ rest, Prunes g₀ c) →
    ∃ g', (∃ n, ∀ fuel, n ≤ fuel → deleteChildren fuel self todo pre.length g = .ok () g')
      ∧ Erased g {a | ∃ c ∈ Forest.everyOther rest, a ∈ doomed g₀ c} g'
  | [], pre, todo, g, _, hchildren, _, _, _, _ => by
    have hempty : {a | ∃ c ∈ Forest.everyOther ([] : List ℕ), a ∈ doomed g₀ c} = ∅ := by
      ext a
      exact iff_of_false (fun ⟨c, hc, _⟩ => List.not_mem_nil hc) (Set.notMem_empty a)
    refine ⟨g, ⟨1, fun fuel hfuel => ?_⟩, hempty ▸ Erased.empty g⟩
    obtain ⟨fuel, rfl⟩ := Nat.exists_eq_add_of_le' hfuel
    refine deleteChildren_end ?_ fuel todo
    rw [hchildren, List.append_nil]
  | [c], pre, todo + 1, g, hg, hchildren, _, hparent, hintact, hprunes => by
    obtain ⟨g₁, ⟨n, hdelete⟩, herased⟩ := hprunes c List.mem_cons_self g hg
      (hintact c List.mem_cons_self)
    obtain ⟨hchildren₁, -⟩ := children_erased htree hac hg hchildren hparent herased
    have hone : {a | ∃ d ∈ Forest.everyOther [c], a ∈ doomed g₀ d} = doomed g₀ c := by
      ext a
      exact ⟨fun ⟨d, hd, ha⟩ => List.mem_singleton.mp hd ▸ ha,
        fun ha => ⟨c, List.mem_singleton_self c, ha⟩⟩
    refine ⟨g₁, ⟨n + 2, fun fuel hfuel => ?_⟩, hone ▸ herased⟩
    obtain ⟨fuel, rfl⟩ := Nat.exists_eq_add_of_le' (Nat.le_of_add_left_le hfuel)
    have hget : (g.entities self).children[pre.length]? = some c := by
      rw [hchildren, List.getElem?_concat_length]
    rw [deleteChildren_step hget, Run.bind_of_ok (hdelete (fuel + 1) (by omega))]
    refine deleteChildren_end ?_ fuel todo
    rw [hchildren₁, List.append_nil]
    exact Nat.le_succ _
  | c :: d :: rest, pre, todo + 1, g, hg, hchildren, htodo, hparent, hintact, hprunes => by
    have hc : g₀.parents c = some self :=
      hparent c (List.mem_append_right _ List.mem_cons_self)
    obtain ⟨g₁, ⟨n₁, hdelete⟩, herased⟩ := hprunes c List.mem_cons_self g hg
      (hintact c List.mem_cons_self)
    obtain ⟨hchildren₁, hne⟩ := children_erased htree hac hg hchildren hparent herased
    have hmem : ∀ e ∈ pre ++ d :: rest, g₀.parents e = some self := fun e he =>
      hparent e (List.perm_middle.mem_iff.mpr (List.mem_cons_of_mem c he))
    -- the walk goes on behind `d`, which takes the place of `c`
    have hassoc : pre ++ d :: rest = (pre ++ [d]) ++ rest := by
      rw [List.append_assoc, List.singleton_append]
    have hbehind : ∀ e ∈ rest, e ∈ pre ++ d :: rest := fun e he =>
      List.mem_append_right _ (List.mem_cons_of_mem d he)
    have hsub : ∀ e ∈ rest, e ∈ c :: d :: rest := fun e he =>
      List.mem_cons_of_mem c (List.mem_cons_of_mem d he)
    have hlength : rest.length ≤ todo :=
      (Nat.le_succ _).trans (Nat.le_of_succ_le_succ htodo)
    obtain ⟨g', ⟨n, hrest⟩, herased'⟩ := deleteChildren_erases self rest (pre ++ [d]) todo g₁
      (herased.orderly hg) (hchildren₁.trans hassoc) hlength
      (fun e he => hmem e (hassoc ▸ he))
      (fun e he => (hintact e (hsub e he)).sibling htree hac herased hc
        (hmem e (hbehind e he)) (hne e (hbehind e he)))
      (fun e he => hprunes e (hsub e he))
    have hunion : {a | ∃ e ∈ Forest.everyOther (c :: d :: rest), a ∈ doomed g₀ e}
        = doomed g₀ c ∪ {a | ∃ e ∈ Forest.everyOther rest, a ∈ doomed g₀ e} := by
      ext a
      show (∃ e ∈ c :: Forest.everyOther rest, a ∈ doomed g₀ e) ↔ _
      simp only [List.exists_mem_cons_iff]
      rfl
    refine ⟨g', ⟨n₁ + n + 1, fun fuel hfuel => ?_⟩, hunion ▸ herased.trans herased'⟩
    obtain ⟨fuel, rfl⟩ := Nat.exists_eq_add_of_le' (Nat.le_of_add_left_le hfuel)
    have hget : (g.entities self).children[pre.length]? = some c := by
      rw [hchildren, List.getElem?_append_right le_rfl, Nat.sub_self]
      rfl
    rw [deleteChildren_step hget, Run.bind_of_ok (hdelete fuel (by omega))]
    have hpre : (pre ++ [d]).length = pre.length + 1 := List.length_append
    rw [← hpre]
    exact hrest fuel (by omega)

include htree hac in
/-- **Deleting an entity ends**, and deletes it and every other child of what it
deletes. -/
theorem prunes (hwf : WellFounded (fun c p => g₀.parents c = some p)) (e : ℕ) : Prunes g₀ e := by
  induction hwf.apply e with
  | intro e _ ih =>
    intro g hg hintact
    obtain ⟨hchildren, hlisted⟩ := hintact e (Forest.Below.refl e)
    have hup : ∀ c ∈ (g₀.entities e).children, g₀.parents c = some e :=
      fun c hc => (htree.child_iff e c).mp hc
    -- first the children, and then the entity itself
    obtain ⟨g₁, ⟨n, hloop⟩, herased⟩ := deleteChildren_erases htree hac e
      (g₀.entities e).children [] _ g hg hchildren le_rfl hup
      (fun c hc a ha => hintact a ((Forest.Below.refl e).child (hup c hc) |>.trans ha))
      (fun c hc => ih c (hup c hc))
    have hself : e ∉ {a | ∃ c ∈ Forest.everyOther (g₀.entities e).children, a ∈ doomed g₀ c} := by
      rintro ⟨c, hc, hdoom⟩
      exact hac.not_below (hup c (Forest.mem_of_mem_everyOther hc)) (doomed_below htree hdoom)
    obtain ⟨id, hid⟩ := herased.listed hlisted hself
    have hg₁ := herased.orderly hg
    have hunion : doomed g₀ e
        = {a | ∃ c ∈ Forest.everyOther (g₀.entities e).children, a ∈ doomed g₀ c} ∪ {e} := by
      ext a
      exact Forest.pruned_iff.trans or_comm
    refine ⟨_, ⟨n + 1, fun fuel hfuel => ?_⟩, hunion ▸ herased.trans (hg₁.erased_self hid)⟩
    obtain ⟨fuel, rfl⟩ := Nat.exists_eq_add_of_le' (Nat.le_of_add_left_le hfuel)
    have hloop' : deleteChildren fuel e (g.entities e).children.length 0 g = .ok () g₁ := by
      rw [hchildren]
      exact hloop fuel (by omega)
    show (deleteChildren fuel e (g.entities e).children.length 0 >>= _) g = _
    rw [Run.bind_of_ok hloop', Run.bind_of_ok (moveto_apply _ _ _ _ _)]
    exact deleteObject_apply (hg₁.id_of id _ hid)

end Walk

/-! ## The subtree -/

/-- **Exactly the subtree of `root` has been deleted.** -/
structure DeletesSubtree (g : Game α) (root : ℕ) (g' : Game α) : Prop where
  /-- What is in it is in neither table. -/
  gone : ∀ a, Forest.Below g.parents root a →
    ¬g'.Listed (.entity a) ∧ g'.rObjects.get (.entity a) = none
  /-- `root` is in no list of children. -/
  loose : ∀ p, root ∉ (g'.entities p).children
  /-- What is not in it stays in `objects`. -/
  objects_iff : ∀ o, (∀ a, Forest.Below g.parents root a → o ≠ .entity a) →
    ∀ id, g'.objects.get id = some o ↔ g.objects.get id = some o
  /-- What is not in it stays in `r_objects`. -/
  rObjects : ∀ o, (∀ a, Forest.Below g.parents root a → o ≠ .entity a) →
    g'.rObjects.get o = g.rObjects.get o
  /-- The parents of the others. -/
  parent : ∀ a, ¬Forest.Below g.parents root a → (g'.entities a).parent = (g.entities a).parent
  /-- Their children, which stay in their order. -/
  children : ∀ p, ¬Forest.Below g.parents root p →
    (g'.entities p).children = (g.entities p).children.erase root

/-- **What is deleted is the subtree exactly if** everything below the entity
is doomed. -/
theorem Erased.deletesSubtree_iff {g g' : Game α} {self : ℕ} (htree : Consistent g)
    (hlisted : ∀ a, Forest.Below g.parents self a → g.Listed (.entity a))
    (h : Erased g (doomed g self) g') :
    DeletesSubtree g self g' ↔ ∀ a, Forest.Below g.parents self a → a ∈ doomed g self := by
  constructor
  · intro hd a ha
    by_contra hnot
    exact (hd.gone a ha).1 (h.listed (hlisted a ha) hnot)
  · intro hall
    have hmem : ∀ a, a ∈ doomed g self ↔ Forest.Below g.parents self a := fun a =>
      ⟨doomed_below htree, hall a⟩
    refine ⟨fun a ha => ⟨h.not_listed (hall a ha), ?_⟩, fun p hp => ?_, fun o ho id => ?_,
      fun o ho => ?_, fun a ha => h.parent_of_notMem a (fun hd => ha ((hmem a).mp hd)),
      fun p hp => ?_⟩
    · refine Option.eq_none_iff_forall_ne_some.mpr (fun id hid => ?_)
      exact ((h.rObjects_iff _ id).mp hid).2 a (hall a ha) rfl
    · rw [h.children] at hp
      exact (mem_without.mp hp).2 (hall self (Forest.Below.refl self))
    · rw [h.objects_iff]
      exact and_iff_left (fun e he => ho e ((hmem e).mp he))
    · refine Option.ext (fun id => ?_)
      rw [h.rObjects_iff]
      exact and_iff_left (fun e he => ho e ((hmem e).mp he))
    · rw [h.children]
      refine without_eq_erase (htree.nodup p) (fun i hi => (hmem i).trans ⟨fun hb => ?_, ?_⟩)
      · by_contra hne
        exact hp (hb.parent_of_ne hne ((htree.child_iff p i).mp hi))
      · rintro rfl
        exact Forest.Below.refl i

/-- **Deleting an entity deletes exactly its subtree if and only if** no entity
in it has two children. It ends in every case. -/
theorem delete_subtree_iff (g : Game α) (hg : Orderly g) (hac : Forest.Acyclic g.parents)
    (hmade : ∀ e, g.Listed (.entity e) → e < g.nextEntity)
    (hforest : ∀ a p, g.parents a = some p → g.Listed (.entity a)) (self : ℕ)
    (hself : g.Listed (.entity self)) :
    ∃ g', (∃ n, ∀ fuel, n ≤ fuel → delete fuel self g = .ok () g')
      ∧ (DeletesSubtree g self g'
        ↔ ∀ a, Forest.Below g.parents self a → (g.entities a).children.length ≤ 1) := by
  have hlisted : ∀ a, Forest.Below g.parents self a → g.Listed (.entity a) := fun a ha => by
    obtain rfl | ⟨p, hp, -⟩ := Relation.ReflTransGen.cases_head ha
    · exact hself
    · exact hforest a p hp
  have hwf := hac.wellFounded (Set.finite_Iio g.nextEntity)
    (fun a p hp => hmade a (hforest a p hp))
  obtain ⟨g', hdelete, herased⟩ :=
    prunes hg.tree hac hwf self g hg (fun a ha => ⟨rfl, hlisted a ha⟩)
  refine ⟨g', hdelete, (herased.deletesSubtree_iff hg.tree hlisted).trans ?_⟩
  exact Forest.forall_pruned_iff hg.tree.child_iff hg.tree.nodup hac

/-! ## A field with children -/

/-- A field on which the entities of the list stand. -/
def fieldOf (children : List ℕ) : Game Empty where
  entities e :=
    if e = 0 then { Kind.field.entity [] with id := some 1, children := children }
    else if e ∈ children then { Kind.goPiece.entity [] with id := some (e + 1), parent := some 0 }
    else { Kind.goPiece.entity [] with id := some (e + 1) }
  people := (Game.empty : Game Empty).people
  nextEntity := 3
  nextPlayer := 0
  objects := ((Dict.empty.set 1 (.entity 0)).set 2 (.entity 1)).set 3 (.entity 2)
  rObjects := ((Dict.empty.set (.entity 0) 1).set (.entity 1) 2).set (.entity 2) 3
  fields := .empty
  players := .empty
  loaded := []
  sent := []

section FieldOf

variable {children : List ℕ}

theorem fieldOf_parent (e : ℕ) : (fieldOf children).parents e
    = if e ≠ 0 ∧ e ∈ children then some 0 else none := by
  show Entity.parent (if e = 0 then _ else if e ∈ children then _ else _) = _
  by_cases h0 : e = 0
  · rw [if_pos h0, if_neg (fun h => h.1 h0)]
    rfl
  · by_cases hmem : e ∈ children
    · rw [if_neg h0, if_pos hmem, if_pos ⟨h0, hmem⟩]
    · rw [if_neg h0, if_neg hmem, if_neg (fun h => hmem h.2)]
      rfl

theorem orderly_fieldOf (h0 : 0 ∉ children) (hnodup : children.Nodup) :
    Orderly (fieldOf children) where
  tree := by
    have hchildren : ∀ p,
        ((fieldOf children).entities p).children = if p = 0 then children else [] :=
      fun p => by
        show Entity.children (if p = 0 then _ else if p ∈ children then _ else _) = _
        split_ifs <;> rfl
    refine ⟨fun p e => ?_, fun p => ?_⟩
    · have hparent : (fieldOf children).parents e
          = if e ≠ 0 ∧ e ∈ children then some 0 else none := fieldOf_parent e
      unfold Game.parents at hparent
      rw [hchildren, hparent]
      split_ifs with hp he he
      · exact iff_of_true he.2 (congrArg some hp.symm)
      · exact iff_of_false (fun hmem => he ⟨fun h => h0 (h ▸ hmem), hmem⟩) nofun
      · exact iff_of_false List.not_mem_nil (fun h => hp (Option.some.inj h).symm)
      · exact iff_of_false List.not_mem_nil nofun
    · rw [hchildren]
      split_ifs
      · exact hnodup
      · exact List.nodup_nil
  inverse := by
    have hempty : Dict.Inverse (Dict.empty : Dict ℕ Obj) Dict.empty :=
      fun _ _ => iff_of_false nofun nofun
    exact ((hempty.set rfl rfl).set rfl rfl).set rfl rfl
  id_of id o ho := by
    change (((Dict.empty.set 1 (Obj.entity 0)).set 2 (.entity 1)).set 3 (.entity 2)).get id
      = some o at ho
    have hid : ∀ e, ((fieldOf children).entities e).id = some (e + 1) := fun e => by
      show Entity.id (if e = 0 then _ else if e ∈ children then _ else _) = _
      split_ifs with h
      · rw [h]
      · rfl
      · rfl
    rw [Dict.get_set, Dict.get_set, Dict.get_set, Dict.get_empty] at ho
    split_ifs at ho with h3 h2 h1
    · obtain rfl := Option.some.inj ho
      exact (hid 2).trans (congrArg some h3.symm)
    · obtain rfl := Option.some.inj ho
      exact (hid 1).trans (congrArg some h2.symm)
    · obtain rfl := Option.some.inj ho
      exact (hid 0).trans (congrArg some h1.symm)

theorem acyclic_fieldOf : Forest.Acyclic (fieldOf children).parents :=
  Forest.acyclic_of_rank (fun e => if e = 0 then 1 else 0) (fun a b hab => by
    rw [fieldOf_parent] at hab
    split_ifs at hab with ha
    rw [if_neg ha.1, if_pos (Option.some.inj hab).symm]
    exact Nat.one_pos)

theorem lt_of_listed_fieldOf {e : ℕ} (h : (fieldOf children).Listed (.entity e)) : e < 3 := by
  obtain ⟨id, hid⟩ := h
  change (((Dict.empty.set 1 (Obj.entity 0)).set 2 (.entity 1)).set 3 (.entity 2)).get id
    = some (.entity e) at hid
  rw [Dict.get_set, Dict.get_set, Dict.get_set, Dict.get_empty] at hid
  split_ifs at hid
  · exact (Obj.entity.inj (Option.some.inj hid)) ▸ Nat.lt_succ_self 2
  · exact (Obj.entity.inj (Option.some.inj hid)) ▸ Nat.one_lt_succ_succ 1
  · exact (Obj.entity.inj (Option.some.inj hid)) ▸ Nat.succ_pos 2

theorem listed_of_parent_fieldOf (hle : ∀ e ∈ children, e < 3) {a p : ℕ}
    (h : (fieldOf children).parents a = some p) : (fieldOf children).Listed (.entity a) := by
  rw [fieldOf_parent] at h
  split_ifs at h with ha
  match a, hle a ha.2 with
  | 0, _ => exact ⟨1, rfl⟩
  | 1, _ => exact ⟨2, rfl⟩
  | 2, _ => exact ⟨3, rfl⟩

end FieldOf

/-- A field with one child is deleted with it. -/
theorem delete_subtree_iff_fieldOf :
    ∃ g', (∃ n, ∀ fuel, n ≤ fuel → delete fuel 0 (fieldOf [1]) = .ok () g')
      ∧ DeletesSubtree (fieldOf [1]) 0 g' := by
  obtain ⟨g', hdelete, hiff⟩ := delete_subtree_iff (fieldOf [1])
    (orderly_fieldOf (by decide) (List.nodup_singleton 1)) acyclic_fieldOf
    (fun _ => lt_of_listed_fieldOf) (fun _ _ => listed_of_parent_fieldOf (by decide)) 0 ⟨1, rfl⟩
  refine ⟨g', hdelete, hiff.mpr (fun a _ => ?_)⟩
  show (Entity.children (if a = 0 then _ else if a ∈ [1] then _ else _)).length ≤ 1
  split_ifs
  · exact le_rfl
  · exact Nat.zero_le 1
  · exact Nat.zero_le 1

/-- **A field with two children** keeps the second one. -/
theorem not_deletesSubtree :
    ¬ ∀ g : Game Empty, Orderly g → Forest.Acyclic g.parents →
      (∀ e, g.Listed (.entity e) → e < g.nextEntity) →
      (∀ a p, g.parents a = some p → g.Listed (.entity a)) → ∀ self, g.Listed (.entity self) →
        ∃ g', (∃ n, ∀ fuel, n ≤ fuel → delete fuel self g = .ok () g')
          ∧ DeletesSubtree g self g' := by
  intro h
  obtain ⟨g', ⟨n, hdelete⟩, hsubtree⟩ := h (fieldOf [1, 2])
    (orderly_fieldOf (by decide) (by decide)) acyclic_fieldOf
    (fun _ => lt_of_listed_fieldOf) (fun _ _ => listed_of_parent_fieldOf (by decide)) 0 ⟨1, rfl⟩
  have hrun : ∃ s, delete (n + 4) 0 (fieldOf [1, 2]) = .ok () s
      ∧ s.objects.get 3 = some (.entity 2) := ⟨_, rfl, rfl⟩
  obtain ⟨s, hs, hlisted⟩ := hrun
  rw [hdelete (n + 4) (Nat.le_add_right n 4)] at hs
  obtain ⟨-, rfl⟩ := Outcome.ok.inj hs
  refine (hsubtree.gone 2 ?_).1 ⟨3, hlisted⟩
  exact (Forest.Below.refl 0).child (by rw [fieldOf_parent]; rfl)

end Server

end Felt
