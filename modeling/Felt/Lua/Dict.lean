import Mathlib.Data.Finset.Card
import Mathlib.Data.Finset.Interval
import Mathlib.Order.Interval.Finset.Nat

/-!
# Tables with keys of one kind

A Lua table that a program uses as a map is a finite list of pairs in which a
key occurs once. `get`, `set` and `erase` are `t[k]`, `t[k] = v` and
`t[k] = nil`; the order of the pairs is the order `pairs` enumerates them in,
and it means nothing: everything below is about `get`.

The length `#t` of a table with holes may be any border – a number at which
the table has an entry, or zero, with none behind it. `Length` is a choice of
one.

Nothing is said about the order of the pairs, and no function here depends on
it. What a program does with `pairs` is a list of entries somewhere else, and is
taken in any order there.

`erase` and `set` are described by what `get` answers behind them, and two tables
that are used as a pair – the objects by their ids, and the ids by their objects
– by the relation `Inverse`, which an assignment to both of them keeps if the key
is free in the one and the value in the other. A border is all that `Length`
promises. An interpreter picks one by the sizes its arrays happen to have, so
that what is proved for every `Length` holds of each of them.
-/

namespace Felt

/-- **A table**, as its pairs. -/
structure Dict (κ β : Type) where
  /-- The pairs. -/
  pairs : List (κ × β)
  /-- A key occurs once. -/
  nodup : (pairs.map Prod.fst).Nodup

namespace Dict

variable {κ β : Type} [DecidableEq κ]

/-- `{}`. -/
def empty : Dict κ β := ⟨[], List.nodup_nil⟩

/-- `t[k]`. -/
def get (t : Dict κ β) (k : κ) : Option β := (t.pairs.find? (fun p => p.1 = k)).map Prod.snd

/-- `t[k] = nil`. -/
def erase (t : Dict κ β) (k : κ) : Dict κ β where
  pairs := t.pairs.filter (fun p => p.1 ≠ k)
  nodup := t.nodup.sublist (List.filter_sublist.map _)

theorem not_mem_erase (t : Dict κ β) (k : κ) : k ∉ (t.erase k).pairs.map Prod.fst := by
  intro h
  obtain ⟨p, hp, rfl⟩ := List.mem_map.mp h
  simpa using (List.mem_filter.mp hp).2

/-- `t[k] = v`. -/
def set (t : Dict κ β) (k : κ) (v : β) : Dict κ β where
  pairs := (k, v) :: (t.erase k).pairs
  nodup := List.nodup_cons.mpr ⟨t.not_mem_erase k, (t.erase k).nodup⟩

omit [DecidableEq κ] in
/-- The same keys with other values. -/
def map {γ : Type} (f : β → γ) (t : Dict κ β) : Dict κ γ where
  pairs := t.pairs.map (fun p => (p.1, f p.2))
  nodup := by
    have h : (t.pairs.map (fun p => (p.1, f p.2))).map Prod.fst = t.pairs.map Prod.fst := by
      rw [List.map_map]
      rfl
    rw [h]
    exact t.nodup

/-- The values. -/
def values (t : Dict κ β) : List β := t.pairs.map Prod.snd

omit [DecidableEq κ] in
/-- A key has one value. -/
theorem value_unique {t : Dict κ β} {k : κ} {v w : β} (hv : (k, v) ∈ t.pairs)
    (hw : (k, w) ∈ t.pairs) : v = w := by
  have h := List.inj_on_of_nodup_map t.nodup hv hw rfl
  exact (Prod.mk.inj h).2

/-- **What a table has is what its pairs say.** -/
theorem get_eq_some {t : Dict κ β} {k : κ} {v : β} : t.get k = some v ↔ (k, v) ∈ t.pairs := by
  unfold get
  constructor
  · intro h
    obtain ⟨p, hp, rfl⟩ := Option.map_eq_some_iff.mp h
    have hk : p.1 = k := by simpa using List.find?_some hp
    exact hk ▸ List.mem_of_find?_eq_some hp
  · intro h
    rcases hf : t.pairs.find? (fun p => p.1 = k) with _ | p
    · have := List.find?_eq_none.mp hf _ h
      simp at this
    · have hk : p.1 = k := by simpa using List.find?_some hf
      have hp : (k, p.2) ∈ t.pairs := hk ▸ List.mem_of_find?_eq_some hf
      rw [hf]
      exact congrArg some (value_unique hp h)

@[simp] theorem get_empty (k : κ) : (empty : Dict κ β).get k = none := rfl

@[simp] theorem get_erase_self (t : Dict κ β) (k : κ) : (t.erase k).get k = none := by
  rcases h : (t.erase k).get k with _ | v
  · rfl
  · exact absurd (List.mem_map_of_mem (f := Prod.fst) (get_eq_some.mp h)) (t.not_mem_erase k)

theorem get_erase_of_ne (t : Dict κ β) {k k' : κ} (h : k' ≠ k) :
    (t.erase k).get k' = t.get k' := by
  apply Option.ext
  intro v
  rw [get_eq_some, get_eq_some]
  show (k', v) ∈ t.pairs.filter _ ↔ _
  simp [h]

theorem get_erase (t : Dict κ β) (k k' : κ) :
    (t.erase k).get k' = if k' = k then none else t.get k' := by
  split
  · next h => rw [h, get_erase_self]
  · next h => exact get_erase_of_ne t h

@[simp] theorem get_set_self (t : Dict κ β) (k : κ) (v : β) : (t.set k v).get k = some v :=
  get_eq_some.mpr List.mem_cons_self

theorem get_set_of_ne (t : Dict κ β) {k k' : κ} (v : β) (h : k' ≠ k) :
    (t.set k v).get k' = t.get k' := by
  rw [← get_erase_of_ne t h]
  show (((k, v) :: (t.erase k).pairs).find? _).map _ = _
  rw [List.find?_cons_of_neg (by simpa using h.symm)]
  rfl

/-- **What an assignment changes.** -/
theorem get_set (t : Dict κ β) (k k' : κ) (v : β) :
    (t.set k v).get k' = if k' = k then some v else t.get k' := by
  split
  · next h => rw [h, get_set_self]
  · next h => exact get_set_of_ne t v h

/-- **The last assignment counts.** -/
theorem set_set (t : Dict κ β) (k : κ) (v w : β) : (t.set k v).set k w = t.set k w := by
  have hpairs : ((t.set k v).set k w).pairs = (t.set k w).pairs := by
    show (k, w) :: ((k, v) :: (t.erase k).pairs).filter (fun p => p.1 ≠ k) = (k, w) :: _
    rw [List.filter_cons_of_neg (by simp)]
    exact congrArg ((k, w) :: ·) (List.filter_eq_self.mpr (fun p hp => (List.mem_filter.mp hp).2))
  rcases hs : (t.set k v).set k w with ⟨ps, hps⟩
  rw [hs] at hpairs
  obtain rfl := hpairs
  rfl

/-- Assigning what is there already. -/
theorem get_set_again {t : Dict κ β} {k : κ} {v : β} (hk : t.get k = some v) (k' : κ) :
    (t.set k v).get k' = t.get k' := by
  rw [get_set]
  split_ifs with h
  · rw [h, hk]
  · rfl

theorem mem_values {t : Dict κ β} {v : β} : v ∈ t.values ↔ ∃ k, t.get k = some v := by
  unfold values
  rw [List.mem_map]
  constructor
  · rintro ⟨⟨k, v⟩, h, rfl⟩
    exact ⟨k, get_eq_some.mpr h⟩
  · rintro ⟨k, h⟩
    exact ⟨(k, v), get_eq_some.mp h, rfl⟩

/-- What a table has when its values have been mapped. -/
theorem get_map {γ : Type} (f : β → γ) (t : Dict κ β) (k : κ) :
    (t.map f).get k = (t.get k).map f := by
  apply Option.ext
  intro v
  rw [get_eq_some, Option.map_eq_some_iff]
  show (k, v) ∈ t.pairs.map (fun p => (p.1, f p.2)) ↔ _
  rw [List.mem_map]
  constructor
  · rintro ⟨⟨k', v'⟩, h, he⟩
    obtain ⟨rfl, rfl⟩ := Prod.mk.inj he
    exact ⟨v', get_eq_some.mpr h, rfl⟩
  · rintro ⟨v', h, rfl⟩
    exact ⟨(k, v'), get_eq_some.mp h, rfl⟩

/-- A value stands in the list of values as often as it has keys. -/
theorem nodup_values {t : Dict κ β}
    (h : ∀ k k' v, t.get k = some v → t.get k' = some v → k = k') : t.values.Nodup := by
  refine List.Nodup.map_on ?_ (List.Nodup.of_map _ t.nodup)
  rintro ⟨k, v⟩ hp ⟨k', v'⟩ hq hv
  obtain rfl : v = v' := hv
  rw [h k k' v (get_eq_some.mpr hp) (get_eq_some.mpr hq)]

/-! ## Counting values -/

omit [DecidableEq κ] in
theorem nodup_pairs (t : Dict κ β) : t.pairs.Nodup := List.Nodup.of_map _ t.nodup

/-- Tables that have the same have the same pairs, in some order. -/
theorem perm_of_get {t t' : Dict κ β} (h : ∀ k, t'.get k = t.get k) : t'.pairs.Perm t.pairs := by
  refine (List.perm_ext_iff_of_nodup t'.nodup_pairs t.nodup_pairs).mpr ?_
  rintro ⟨k, v⟩
  rw [← get_eq_some, ← get_eq_some, h]

/-- A table is what is left without a key, and the pair of the key. -/
theorem perm_erase {t : Dict κ β} {k : κ} {v : β} (hk : t.get k = some v) :
    t.pairs.Perm ((k, v) :: (t.erase k).pairs) := by
  have hnodup : ((k, v) :: (t.erase k).pairs).Nodup := nodup_pairs (t.set k v)
  refine (List.perm_ext_iff_of_nodup t.nodup_pairs hnodup).mpr ?_
  rintro ⟨k', v'⟩
  show _ ↔ (k', v') ∈ (t.set k v).pairs
  rw [← get_eq_some, ← get_eq_some, get_set_again hk]

section Count

variable {t : Dict κ β} {k : κ} {v : β} (p : β → Bool)

theorem countP_of_get {t' : Dict κ β} (h : ∀ k, t'.get k = t.get k) :
    t'.values.countP p = t.values.countP p := ((perm_of_get h).map Prod.snd).countP_eq p

/-- **How many values are `p`** when a key is erased. -/
theorem countP_erase (hk : t.get k = some v) :
    t.values.countP p = (t.erase k).values.countP p + if p v then 1 else 0 :=
  (((perm_erase hk).map Prod.snd).countP_eq p).trans List.countP_cons

/-- **How many values are `p`** when a new key is assigned. -/
theorem countP_set (hk : t.get k = none) :
    (t.set k v).values.countP p = t.values.countP p + if p v then 1 else 0 := by
  have herase : ∀ k', ((t.set k v).erase k).get k' = t.get k' := fun k' => by
    rw [get_erase, get_set]
    split_ifs with h
    · rw [h, hk]
    · rfl
  rw [countP_erase p (get_set_self t k v), countP_of_get p herase]

end Count

/-! ## Tables that are inverse to each other -/

/-- **Each of the two tables has what the other one leads back from.** -/
def Inverse [DecidableEq β] (t : Dict κ β) (r : Dict β κ) : Prop :=
  ∀ k v, t.get k = some v ↔ r.get v = some k

section Inverse

variable [DecidableEq β] {t : Dict κ β} {r : Dict β κ} {k : κ} {v : β}

/-- A key and a value that are both new. -/
theorem Inverse.set (h : Inverse t r) (hk : t.get k = none) (hv : r.get v = none) :
    Inverse (t.set k v) (r.set v k) := by
  intro k' v'
  rw [get_set, get_set]
  split_ifs with h1 h2 h2
  · exact iff_of_true (congrArg some h2.symm) (congrArg some h1.symm)
  · refine iff_of_false (fun e => h2 (Option.some.inj e).symm) (fun e => ?_)
    rw [← h k' v', h1, hk] at e
    cases e
  · refine iff_of_false (fun e => ?_) (fun e => h1 (Option.some.inj e).symm)
    rw [h k' v', h2, hv] at e
    cases e
  · exact h k' v'

/-- A key that goes together with its value. -/
theorem Inverse.erase (h : Inverse t r) (hk : t.get k = some v) :
    Inverse (t.erase k) (r.erase v) := by
  intro k' v'
  rw [get_erase, get_erase]
  split_ifs with h1 h2 h2
  · exact iff_of_false nofun nofun
  · refine iff_of_false nofun (fun e => h2 ?_)
    rw [← h k' v', h1, hk] at e
    exact (Option.some.inj e).symm
  · refine iff_of_false (fun e => h1 ?_) nofun
    rw [h k' v', h2, (h k v).mp hk] at e
    exact (Option.some.inj e).symm
  · exact h k' v'

end Inverse

/-! ## The length -/

/-- A border of a table: it has an entry there, unless it is zero, and none
behind it. -/
def IsBorder (t : Dict ℕ β) (n : ℕ) : Prop :=
  (n = 0 ∨ ∃ v, t.get n = some v) ∧ t.get (n + 1) = none

/-- **The length operator**: a border of every table. -/
structure Length (β : Type) where
  /-- `#t`. -/
  border : Dict ℕ β → ℕ
  /-- It is a border. -/
  isBorder : ∀ t, IsBorder t (border t)

/-- The first border. -/
def firstBorder (t : Dict ℕ β) : ℕ :=
  ((List.range t.pairs.length).find? (fun n => (t.get (n + 1)).isNone)).getD t.pairs.length

/-- A table with `n` entries has none at `n + 1`, if it has all before. -/
theorem get_succ_length_of_full {t : Dict ℕ β}
    (h : ∀ n < t.pairs.length, ∃ v, t.get (n + 1) = some v) :
    t.get (t.pairs.length + 1) = none := by
  rcases hv : t.get (t.pairs.length + 1) with _ | v
  · rfl
  · exfalso
    have hsub : Finset.Icc 1 (t.pairs.length + 1) ⊆ (t.pairs.map Prod.fst).toFinset := by
      intro n hn
      obtain ⟨h1, hle⟩ := Finset.mem_Icc.mp hn
      obtain ⟨m, rfl⟩ : ∃ m, n = m + 1 := ⟨n - 1, by omega⟩
      have hget : ∃ v, t.get (m + 1) = some v := by
        rcases Nat.lt_or_ge m t.pairs.length with hlt | hge
        · exact h m hlt
        · obtain rfl : m = t.pairs.length := by omega
          exact ⟨v, hv⟩
      obtain ⟨w, hw⟩ := hget
      exact List.mem_toFinset.mpr (List.mem_map_of_mem (f := Prod.fst) (get_eq_some.mp hw))
    have hcard := (Finset.card_le_card hsub).trans (List.toFinset_card_le _)
    rw [Nat.card_Icc, List.length_map] at hcard
    omega

theorem isBorder_firstBorder (t : Dict ℕ β) : IsBorder t t.firstBorder := by
  unfold firstBorder
  rcases hf : (List.range t.pairs.length).find? (fun n => (t.get (n + 1)).isNone) with _ | n
  · have hfull : ∀ n < t.pairs.length, ∃ v, t.get (n + 1) = some v := fun n hn => by
      have := List.find?_eq_none.mp hf n (List.mem_range.mpr hn)
      exact Option.ne_none_iff_exists'.mp (by simpa using this)
    refine ⟨?_, get_succ_length_of_full hfull⟩
    rcases Nat.eq_zero_or_pos t.pairs.length with h0 | hpos
    · exact Or.inl h0
    · have := hfull (t.pairs.length - 1) (by omega)
      rw [Nat.sub_add_cancel hpos] at this
      exact Or.inr this
  · refine ⟨?_, by simpa using List.find?_some hf⟩
    show n = 0 ∨ _
    rcases Nat.eq_zero_or_pos n with h0 | hpos
    · exact Or.inl h0
    · right
      -- what stands before the first hole is there
      have hlt : n < t.pairs.length := List.mem_range.mp (List.mem_of_find?_eq_some hf)
      obtain ⟨-, i, hi, hin, hbefore⟩ := List.find?_eq_some_iff_getElem.mp hf
      rw [List.getElem_range] at hin
      have := hbefore (n - 1) (by omega)
      rw [List.getElem_range, Nat.sub_add_cancel hpos] at this
      exact Option.isSome_iff_exists.mp (by simpa using this)

/-- The length that is the first border. -/
def Length.first (β : Type) : Length β := ⟨firstBorder, isBorder_firstBorder⟩

end Dict

end Felt
