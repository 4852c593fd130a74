import Felt.Box.Contents
import Felt.Lua.Significant

/-!
# Integers in a box

`pack.number` writes a number as `tostring` does, with fourteen significant
digits; a double has room for almost sixteen. An integer with more digits comes
out of a box with zeros for the rest, and where two keys of a table differ in
those only, one of the two entries is gone. Both are decided by `significant`.

An integer by itself is a leaf, and what comes out is what reading its text back
gives (`Felt.Lua.Significant`). As a key it has to be compared with other keys
besides. Two integers that a box confuses are under one key on arrival, and the
entry that was written last is the one that stays.
-/

namespace Felt

namespace Box

variable {α ω τ : Type} [DecidableEq α] [DecidableEq ω]

/-- `box.unpack(box.pack(v)) == w`. -/
def Returns (G : Graph α) (R : Receiver ω τ) (store : Store ω τ) (v : Value α)
    (w : Value (Point ω)) : Prop :=
  ∃ fuel b st fuel' ust, pack G none fuel v = .ok b st ∧ unpack .ideal R fuel' b store = .ok w ust

/-- What a number comes out of a box as is read off its text. -/
theorem returns_number_iff (G : Graph α) (R : Receiver ω τ) (store : Store ω τ) {n m : Number}
    (hm : Number.tonumber n.tostring = some m) (w : Value (Point ω)) :
    Returns G R store (.number n) w ↔ w = .number m := by
  have hpack : ∀ fuel, pack G none (fuel + 1) (.number n)
      = .ok (bytes "N" ++ n.tostring) ⟨.initial, none⟩ := fun fuel => by
    rw [pack, doPack, Run.get_bind]
    simp [Refs.lookup, PackState.knownId, scalarText]
  have hunpack : ∀ fuel, unpack .ideal R (fuel + 1) (bytes "N" ++ n.tostring) store
      = .ok (.number m) ⟨[], store, []⟩ := fun fuel => by
    show unpackN n.tostring ⟨[], store, []⟩ = _
    rw [unpackN, hm]
    rfl
  constructor
  · rintro ⟨fuel, b, st, fuel', ust, hp, hu⟩
    cases fuel with
    | zero => exact absurd hp (by simp [pack, doPack])
    | succ fuel =>
      obtain ⟨rfl, -⟩ := Outcome.ok.inj ((hpack fuel).symm.trans hp)
      cases fuel' with
      | zero => exact absurd hu (by simp [unpack, doUnpack])
      | succ fuel' => exact (Outcome.ok.inj ((hunpack fuel').symm.trans hu)).1.symm
  · rintro rfl
    exact ⟨1, _, _, 1, _, hpack 0, hunpack 0⟩

/-- The keys of a table are integers that doubles have. -/
def IntegerKeys (t : Table α) : Prop :=
  ∀ k ∈ t.pairs.map Prod.fst, ∃ n : ℤ, |n| ≤ 2 ^ 53 ∧ k = .number (.ofInt n)

/-- The integer `n` is a key of a table. -/
def HasIndex (t : Table α) (n : ℤ) : Prop :=
  Value.number (.ofInt n) ∈ t.pairs.map Prod.fst

omit [DecidableEq α] [DecidableEq ω] in
theorem decode_ofInt (φ : α → Point ω) {n : ℤ} (hn : |n| ≤ 2 ^ 53) :
    decode φ (.number (.ofInt n)) = .number (.fin (significant n)) :=
  congrArg Value.number (Number.reread_ofInt hn)

omit [DecidableEq α] [DecidableEq ω] in
/-- The images of integer keys are different exactly when no two of them are
rounded to one. -/
theorem nodup_decode_iff {t : Table α} (ht : IntegerKeys t) (φ : α → Point ω) :
    ((t.pairs.map (fun p => (decode φ p.1, decode φ p.2))).map Prod.fst).Nodup
      ↔ ∀ m n : ℤ, |m| ≤ 2 ^ 53 → |n| ≤ 2 ^ 53 → HasIndex t m → HasIndex t n →
        significant m = significant n → m = n := by
  have hkeys : (t.pairs.map (fun p => (decode φ p.1, decode φ p.2))).map Prod.fst
      = (t.pairs.map Prod.fst).map (decode φ) := by
    rw [List.map_map, List.map_map]
    rfl
  rw [hkeys]
  constructor
  · intro h m n hm hn hkm hkn hmn
    have hinj := List.inj_on_of_nodup_map h hkm hkn
      (by rw [decode_ofInt φ hm, decode_ofInt φ hn, hmn])
    simpa [Number.ofInt_of_le hm, Number.ofInt_of_le hn] using hinj
  · intro h
    refine List.Nodup.map_on (fun x hx y hy hxy => ?_) t.nodup
    obtain ⟨m, hm, rfl⟩ := ht x hx
    obtain ⟨n, hn, rfl⟩ := ht y hy
    rw [decode_ofInt φ hm, decode_ofInt φ hn] at hxy
    have : significant m = significant n := by simpa using hxy
    rw [h m n hm hn hx hy this]

/-- **Integers survive a box exactly when they have no more than fourteen
significant digits** – zeros at the end not counted. Of the tables whose keys
are integers, those survive with all of their entries of which no two keys
have the same fourteen digits, which is so when every key survives. -/
theorem integers_survive_iff {α ω τ : Type} [DecidableEq α] [DecidableEq ω] (G : Graph α)
    (R : Receiver ω τ) (store : Store ω τ) {n : ℤ} (hn : |n| ≤ 2 ^ 53) :
    (Returns G R store (.number (.ofInt n)) (.number (.ofInt n))
      ↔ (10 : ℤ) ^ (Nat.log 10 n.natAbs - 13) ∣ n) ∧
    ∀ [Fintype α] (objs : α → Option ℕ) (ids : Set ℕ) (held : τ → Set ℕ) (a : α) (t : Table α),
      Understands G objs R store ids held → objs a = none → G a = .table t → IntegerKeys t →
      ¬ Occurs G (fun a => (objs a).isSome = true) (.ref a) (.string (bytes "n")) →
      (∃ fuel b st fuel' i ust, pack G (some objs) fuel (.ref a) = .ok b st ∧
        unpack .ideal R fuel' b store = .ok (.ref (.table i)) ust ∧
        ((ust.store.tables.getD i []).length = t.pairs.length
          ↔ ∀ m n : ℤ, |m| ≤ 2 ^ 53 → |n| ≤ 2 ^ 53 → HasIndex t m → HasIndex t n →
            significant m = significant n → m = n)) ∧
      ((∀ n : ℤ, |n| ≤ 2 ^ 53 → HasIndex t n → (10 : ℤ) ^ (Nat.log 10 n.natAbs - 13) ∣ n) →
        ∀ m n : ℤ, |m| ≤ 2 ^ 53 → |n| ≤ 2 ^ 53 → HasIndex t m → HasIndex t n →
          significant m = significant n → m = n) := by
  refine ⟨?_, fun objs ids held a t h ha hG ht hname => ⟨?_, ?_⟩⟩
  · rw [returns_number_iff G R store (Number.tonumber_tostring_significant hn),
      Number.ofInt_of_le hn, Value.number.injEq, Number.fin.injEq, Int.cast_inj, eq_comm]
    exact significant_eq_self_iff n
  · obtain ⟨fuel, b, st, hp, fuel', w, ust, hu, φ, order, harr⟩ :=
      exists_arrives h (v := .ref a) trivial hname
    obtain ⟨i, rfl, -, hcontents⟩ := harr.contents ha hG hp hu
    refine ⟨fuel, b, st, fuel', i, ust, hp, hu, ?_⟩
    rw [hcontents, ← nodup_decode_iff ht φ, ← length_fromPairs_eq_iff, List.length_map]
    intro q hq
    obtain ⟨p, hp, rfl⟩ := List.mem_map.mp hq
    exact decode_ne_nil φ (t.value_ne_nil p hp)
  · intro hall m n hm hn hkm hkn hmn
    rwa [(significant_eq_self_iff m).mpr (hall m hm hkm),
      (significant_eq_self_iff n).mpr (hall n hn hkn)] at hmn

/-- A round number of sixteen digits, which fourteen are enough for. -/
theorem integers_survive_iff_round :
    Returns (fun a : Empty => nomatch a) (Receiver.plain Unit Unit) ⟨[], ()⟩
      (.number (.ofInt (12 * 10 ^ 14))) (.number (.ofInt (12 * 10 ^ 14))) := by
  have hn : |(12 * 10 ^ 14 : ℤ)| ≤ 2 ^ 53 := by decide
  refine (integers_survive_iff _ _ _ hn).1.mpr ?_
  have hlog : Nat.log 10 (12 * 10 ^ 14 : ℤ).natAbs = 15 := by
    rw [Nat.log_eq_iff (Or.inl (by omega))]
    omega
  rw [hlog]
  exact ⟨12 * 10 ^ 12, by norm_num⟩

/-- The least integer of fifteen digits that is not round. -/
theorem not_integers_survive :
    ¬ ∀ n : ℤ, |n| ≤ 2 ^ 53 → Returns (fun a : Empty => nomatch a) (Receiver.plain Unit Unit)
      ⟨[], ()⟩ (.number (.ofInt n)) (.number (.ofInt n)) := by
  intro h
  have hn : |(10 ^ 14 + 1 : ℤ)| ≤ 2 ^ 53 := by decide
  have hlog : Nat.log 10 (10 ^ 14 + 1 : ℤ).natAbs = 14 := by
    rw [Nat.log_eq_iff (Or.inl (by omega))]
    omega
  have hsame := (returns_number_iff _ _ _ (Number.tonumber_tostring_significant hn) _).mp (h _ hn)
  rw [Number.ofInt_of_le hn, Value.number.injEq, Number.fin.injEq, Int.cast_inj, eq_comm,
    significant_eq_self_iff, droppedDigits, hlog] at hsame
  exact absurd hsame (by decide)

end Box

end Felt
