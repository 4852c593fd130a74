import Felt.Lua.Number

/-!
# Every number that is written can be read

`tostring` writes a finite number as digits, a fraction if there is one, and
an exponent if the number is too large or too small for fourteen digits;
infinities and NaNs are words. `tonumber` reads all of them. What it reads
need not be the number that was written – fourteen digits are too few for a
double – but it is a number, and no NaN unless a NaN was written.

The proof follows the text from the left. What `%.14g` writes is a numeral
(`IsNumeral`), and the functions that `tonumber` is made of take their part off
it one after the other: the sign, the digits, the fraction, the exponent. Each
lemma says what is read and what is left, so that `tonumber_numeral` is put
together from them.
-/

namespace Felt

namespace Number

/-- **The texts `%.14g` writes for a number**: digits, more digits after a
point, and an exponent, of which only the first must be there. -/
inductive IsNumeral : Bytes → Prop where
  | mk {ds frac exp : Bytes} (hds : ∀ c ∈ ds, isDigit c = true) (hne : ds ≠ [])
      (hfrac : frac = [] ∨ ∃ fs, frac = 46 :: fs ∧ ∀ c ∈ fs, isDigit c = true)
      (hexp : exp = [] ∨ ∃ sign es, exp = 101 :: sign :: es ∧ (sign = 43 ∨ sign = 45)
        ∧ es ≠ [] ∧ ∀ c ∈ es, isDigit c = true) : IsNumeral (ds ++ (frac ++ exp))

theorem takeWhile_digits_append {ds r : Bytes} (hds : ∀ c ∈ ds, isDigit c = true)
    (hr : ∀ c ∈ r.head?, isDigit c = false) : (ds ++ r).takeWhile isDigit = ds := by
  rw [List.takeWhile_append_of_pos hds]
  cases r with
  | nil => simp
  | cons c r => rw [List.takeWhile_cons_of_neg (by simp [hr c rfl]), List.append_nil]

theorem dropWhile_digits_append {ds r : Bytes} (hds : ∀ c ∈ ds, isDigit c = true)
    (hr : ∀ c ∈ r.head?, isDigit c = false) : (ds ++ r).dropWhile isDigit = r := by
  rw [List.dropWhile_append_of_pos hds]
  cases r with
  | nil => simp
  | cons c r => rw [List.dropWhile_cons_of_neg (by simp [hr c rfl])]

theorem scanExponent_numeral {exp : Bytes} (hexp : exp = [] ∨ ∃ sign es,
      exp = 101 :: sign :: es ∧ (sign = 43 ∨ sign = 45) ∧ es ≠ []
        ∧ ∀ c ∈ es, isDigit c = true) : ∃ x, scanExponent (bytes "eE") exp = (x, []) := by
  rcases hexp with rfl | ⟨sign, es, rfl, hsign, hne, hes⟩
  · exact ⟨0, rfl⟩
  · have htake : es.takeWhile isDigit = es := List.takeWhile_eq_self_iff.mpr hes
    have hdrop : es.dropWhile isDigit = [] := List.dropWhile_eq_nil_iff.mpr hes
    rcases hsign with rfl | rfl <;>
      simp [scanExponent, scanSign, htake, hdrop, hne, show (101 : UInt8) ∈ bytes "eE" by decide]

theorem scanDecimal_numeral {b : Bytes} (hb : IsNumeral b) :
    ∃ q, scanDecimal b = some (q, []) := by
  obtain @⟨ds, frac, exp, hds, hne, hfrac, hexp⟩ := hb
  obtain ⟨x, hx⟩ := scanExponent_numeral hexp
  have hexp' : ∀ c ∈ exp.head?, isDigit c = false := by
    rcases hexp with rfl | ⟨sign, es, rfl, -⟩
    · simp
    · intro c hc
      obtain rfl := Option.some.inj hc
      decide
  have hrest : ∀ c ∈ (frac ++ exp).head?, isDigit c = false := by
    rcases hfrac with rfl | ⟨fs, rfl, -⟩
    · exact hexp'
    · intro c hc
      obtain rfl := Option.some.inj hc
      decide
  have hmantissa : ∃ fs, scanMantissa isDigit (ds ++ (frac ++ exp)) = (ds, fs, exp) := by
    unfold scanMantissa
    rw [takeWhile_digits_append hds hrest, dropWhile_digits_append hds hrest]
    rcases hfrac with rfl | ⟨fs, rfl, hfs⟩
    · refine ⟨[], ?_⟩
      rcases hexp with rfl | ⟨sign, es, rfl, -⟩ <;> rfl
    · refine ⟨fs, ?_⟩
      show (ds, (fs ++ exp).takeWhile isDigit, (fs ++ exp).dropWhile isDigit) = _
      rw [takeWhile_digits_append hfs hexp', dropWhile_digits_append hfs hexp']
  obtain ⟨fs, hm⟩ := hmantissa
  refine ⟨(ofDecimal (ds ++ fs) : ℚ) / 10 ^ fs.length * 10 ^ x, ?_⟩
  simp [scanDecimal, hm, hne, hx]

/-- The bytes of a numeral. -/
def isNumeralByte (c : UInt8) : Bool :=
  isDigit c || c == 43 || c == 45 || c == 46 || c == 101

theorem isNumeralByte_of_mem {b : Bytes} (hb : IsNumeral b) :
    ∀ c ∈ b, isNumeralByte c = true := by
  obtain @⟨ds, frac, exp, hds, -, hfrac, hexp⟩ := hb
  have hdigits : ∀ {l : Bytes}, (∀ c ∈ l, isDigit c = true) →
      ∀ c ∈ l, isNumeralByte c = true :=
    fun h c hc => by simp [isNumeralByte, h c hc]
  intro c hc
  rcases List.mem_append.mp hc with hc | hc
  · exact hdigits hds c hc
  rcases List.mem_append.mp hc with hc | hc
  · rcases hfrac with rfl | ⟨fs, rfl, hfs⟩
    · exact absurd hc List.not_mem_nil
    · rcases List.mem_cons.mp hc with rfl | hc
      · rfl
      · exact hdigits hfs c hc
  · rcases hexp with rfl | ⟨sign, es, rfl, hsign, -, hes⟩
    · exact absurd hc List.not_mem_nil
    · rcases List.mem_cons.mp hc with rfl | hc
      · rfl
      rcases List.mem_cons.mp hc with rfl | hc
      · rcases hsign with rfl | rfl <;> rfl
      · exact hdigits hes c hc

/-- A byte of a numeral is neither an `x`, nor a NUL, nor a space. -/
theorem of_isNumeralByte {c : UInt8} (hc : isNumeralByte c = true) :
    lower c ≠ 120 ∧ c ≠ 0 ∧ isSpace c = false := by
  simp only [isNumeralByte, Bool.or_eq_true, beq_iff_eq] at hc
  rcases hc with (((hc | rfl) | rfl) | rfl) | rfl
  · have h57 := (isDigit_iff c).mp hc
    refine ⟨?_, ne_of_isDigit hc rfl, isSpace_of_isDigit hc⟩
    rw [lower, if_neg (fun h => by
      have h65 : 65 ≤ c.toNat := UInt8.le_iff_toNat_le.mp h.1
      omega)]
    exact ne_of_isDigit hc rfl
  all_goals decide

theorem scanUnsigned_numeral {b : Bytes} (hb : IsNumeral b) {q : ℚ}
    (hq : scanDecimal b = some (q, [])) : scanUnsigned b = some (roundDouble q, []) := by
  have hx : scanWord (bytes "0x") b = none := by
    refine if_neg (fun h => ?_)
    have hmem : (120 : UInt8) ∈ (b.take 2).map lower := by
      rw [show (b.take 2).map lower = bytes "0x" from h]
      decide
    obtain ⟨c, hc, hlow⟩ := List.mem_map.mp hmem
    exact (of_isNumeralByte (isNumeralByte_of_mem hb c (List.mem_of_mem_take hc))).1 hlow
  unfold scanUnsigned
  rw [hx]
  simp [hq]

/-- **A numeral, with a minus sign or without, reads as the double nearest to
what it denotes.** -/
theorem tonumber_of_scanDecimal {b : Bytes} (hb : IsNumeral b) {q : ℚ}
    (hq : scanDecimal b = some (q, [])) (neg : Bool) :
    tonumber ((if neg then bytes "-" else []) ++ b)
      = some (if neg then (roundDouble q).neg else roundDouble q) := by
  have hscan := scanUnsigned_numeral hb hq
  have hbytes := fun c hc => of_isNumeralByte (isNumeralByte_of_mem hb c hc)
  have hzero : b.takeWhile (· ≠ 0) = b :=
    List.takeWhile_eq_self_iff.mpr (fun c hc => by simpa using (hbytes c hc).2.1)
  obtain ⟨c, b', rfl, hc⟩ : ∃ c b', b = c :: b' ∧ isDigit c = true := by
    obtain @⟨ds, frac, exp, hds, hne, -, -⟩ := hb
    obtain ⟨c, ds', rfl⟩ := List.exists_cons_of_ne_nil hne
    exact ⟨c, _, rfl, hds c (by simp)⟩
  cases neg with
  | true =>
    show tonumber (45 :: (c :: b')) = _
    unfold tonumber
    rw [List.takeWhile_cons_of_pos (by decide), hzero,
      List.dropWhile_cons_of_neg (by decide)]
    simp [scanSign, hscan]
  | false =>
    show tonumber (c :: b') = _
    unfold tonumber
    rw [hzero, List.dropWhile_cons_of_neg (by rw [isSpace_of_isDigit hc]; simp),
      scanSign_of_isDigit hc]
    simp [hscan]

/-- **A numeral reads as a number.** -/
theorem tonumber_numeral {b : Bytes} (hb : IsNumeral b) (neg : Bool) :
    ∃ q, tonumber ((if neg then bytes "-" else []) ++ b)
      = some (if neg then (roundDouble q).neg else roundDouble q) := by
  obtain ⟨q, hq⟩ := scanDecimal_numeral hb
  exact ⟨q, tonumber_of_scanDecimal hb hq neg⟩

theorem roundDouble_ne_nan (q : ℚ) (s : Bool) : roundDouble q ≠ .nan s := by
  unfold roundDouble
  simp only
  split <;> simp

theorem stripZeros_decimal_ne_nil {d : ℕ} (hd : d ≠ 0) : stripZeros (decimal d) ≠ [] := by
  intro h
  have hzero := stripZeros_append_replicate (decimal d)
  rw [h, List.nil_append] at hzero
  have hval := ofDecimal_decimal d
  rw [← hzero] at hval
  refine hd (hval.symm.trans ?_)
  have : ∀ k, ofDecimal (List.replicate k (digitByte 0)) = 0 := by
    intro k
    induction k with
    | zero => rfl
    | succ k ih =>
      rw [List.replicate_succ', ofDecimal_append_singleton, ih]
      rfl
  exact this _

theorem isDigit_of_mem_stripZeros {d : ℕ} {c : UInt8} (hc : c ∈ stripZeros (decimal d)) :
    isDigit c = true :=
  isDigit_of_mem_decimal ((List.rdropWhile_prefix _ _).subset hc)

theorem isDigit_of_mem_zeros {k : ℕ} {c : UInt8}
    (hc : c ∈ List.replicate k (digitByte 0)) : isDigit c = true := by
  rw [List.eq_of_mem_replicate hc]
  rfl

theorem isDigit_of_mem_zero {c : UInt8} (hc : c ∈ bytes "0") : isDigit c = true := by
  rw [List.mem_singleton.mp hc]
  rfl

theorem isNumeral_positional {ds : Bytes} (hds : ∀ c ∈ ds, isDigit c = true) (x : ℤ) :
    IsNumeral (positional ds x) := by
  unfold positional
  split
  · have hfrac : ∀ c ∈ List.replicate (-x - 1).toNat (digitByte 0) ++ ds,
        isDigit c = true := fun c hc =>
      (List.mem_append.mp hc).elim isDigit_of_mem_zeros (hds c)
    have h : IsNumeral (bytes "0" ++
        ((46 :: (List.replicate (-x - 1).toNat (digitByte 0) ++ ds)) ++ [])) :=
      .mk (fun _ => isDigit_of_mem_zero) (by decide) (Or.inr ⟨_, rfl, hfrac⟩) (Or.inl rfl)
    rw [List.append_nil] at h
    exact h
  · simp only
    set k := x.toNat + 1 with hk
    have h : IsNumeral ((ds.take k ++ List.replicate (k - ds.length) (digitByte 0))
        ++ ((if ds.length ≤ k then [] else bytes "." ++ ds.drop k) ++ [])) := by
      refine .mk (fun c hc => ?_) (fun h => ?_) ?_ (Or.inl rfl)
      · rcases List.mem_append.mp hc with hc | hc
        · exact hds c (List.mem_of_mem_take hc)
        · exact isDigit_of_mem_zeros hc
      · have hlen := congrArg List.length h
        simp only [List.length_append, List.length_take, List.length_replicate,
          List.length_nil] at hlen
        omega
      · split
        · exact Or.inl rfl
        · exact Or.inr ⟨ds.drop k, rfl, fun c hc => hds c (List.mem_of_mem_drop hc)⟩
    rw [List.append_nil] at h
    exact h

theorem isNumeral_scientific {ds : Bytes} (hds : ∀ c ∈ ds, isDigit c = true)
    (hne : ds ≠ []) (x : ℤ) : IsNumeral (scientific ds x) := by
  have h : IsNumeral (ds.take 1 ++ ((if ds.length ≤ 1 then [] else bytes "." ++ ds.drop 1)
      ++ (bytes "e" ++ (if x < 0 then bytes "-" else bytes "+")
        ++ (if x.natAbs < 10 then bytes "0" else []) ++ decimal x.natAbs))) := by
    refine .mk (fun c hc => hds c (List.mem_of_mem_take hc)) (by simpa using hne) ?_
      (Or.inr ⟨if x < 0 then 45 else 43,
        (if x.natAbs < 10 then bytes "0" else []) ++ decimal x.natAbs, ?_, ?_, ?_, ?_⟩)
    · split
      · exact Or.inl rfl
      · exact Or.inr ⟨ds.drop 1, rfl, fun c hc => hds c (List.mem_of_mem_drop hc)⟩
    · split <;> simp [bytes]
    · split <;> simp
    · exact List.append_ne_nil_of_right_ne_nil _ (decimal_ne_nil _)
    · intro c hc
      rcases List.mem_append.mp hc with hc | hc
      · split at hc
        · exact isDigit_of_mem_zero hc
        · exact absurd hc List.not_mem_nil
      · exact isDigit_of_mem_decimal hc
  simpa [scientific] using h

/-- What `%.14g` writes is a numeral. -/
theorem isNumeral_general {a : ℚ} (ha : 0 ≤ a) : IsNumeral (general a) := by
  unfold general
  split
  · show IsNumeral (bytes "0" ++ ([] ++ []))
    exact .mk (fun _ => isDigit_of_mem_zero) (by decide) (Or.inl rfl) (Or.inl rfl)
  · next hne =>
    have hpos : 0 < a := lt_of_le_of_ne ha (Ne.symm hne)
    -- at least fourteen digits, since `a` is at least its power of ten
    have hd : 0 < roundHalfEven (a * 10 ^ (13 - Int.log 10 a)) := by
      have hlow : ((10 ^ 13 : ℤ) : ℚ) ≤ a * 10 ^ (13 - Int.log 10 a) := by
        have h10 : (10 : ℚ) ^ Int.log 10 a ≤ a := by
          exact_mod_cast Int.zpow_log_le_self (b := 10) (by omega) hpos
        calc ((10 ^ 13 : ℤ) : ℚ) = 10 ^ Int.log 10 a * 10 ^ (13 - Int.log 10 a) := by
              rw [← zpow_add₀ (by norm_num)]
              norm_num
          _ ≤ a * 10 ^ (13 - Int.log 10 a) :=
              mul_le_mul_of_nonneg_right h10 (zpow_nonneg (by norm_num) _)
      have := le_roundHalfEven hlow
      omega
    simp only
    split <;> split
    · exact isNumeral_scientific (fun c => isDigit_of_mem_stripZeros)
        (stripZeros_decimal_ne_nil (by omega)) _
    · exact isNumeral_positional (fun c => isDigit_of_mem_stripZeros) _
    · exact isNumeral_scientific (fun c => isDigit_of_mem_stripZeros)
        (stripZeros_decimal_ne_nil (by omega)) _
    · exact isNumeral_positional (fun c => isDigit_of_mem_stripZeros) _

/-- **Every number reads back as some number**, and only a NaN as a NaN. -/
theorem exists_tonumber_tostring (n : Number) :
    ∃ m, tonumber (tostring n) = some m ∧ ((∀ s, n ≠ .nan s) → ∀ s, m ≠ .nan s) := by
  cases n with
  | nan s =>
    refine ⟨.nan s, ?_, fun h => absurd rfl (h s)⟩
    cases s <;> decide +kernel
  | inf s =>
    refine ⟨.inf s, ?_, fun _ _ => by simp⟩
    cases s <;> decide +kernel
  | fin q =>
    obtain ⟨r, hr⟩ := tonumber_numeral (isNumeral_general (abs_nonneg q)) (decide (q < 0))
    simp only [decide_eq_true_eq] at hr
    refine ⟨_, hr, fun _ s hs => ?_⟩
    by_cases hq : q < 0
    · rw [if_pos hq] at hs
      rcases hrd : roundDouble r with t | t | t <;> rw [hrd] at hs
      · exact roundDouble_ne_nan r t hrd
      · exact absurd hs (by simp [neg])
      · exact absurd hs (by simp [neg])
    · rw [if_neg hq] at hs
      exact roundDouble_ne_nan r s hs

/-- What a number reads back as. -/
def reread (n : Number) : Number := (tonumber (tostring n)).getD n

theorem reread_of_tonumber {n m : Number} (h : tonumber (tostring n) = some m) :
    n.reread = m := by
  rw [reread, h, Option.getD_some]

end Number

end Felt
