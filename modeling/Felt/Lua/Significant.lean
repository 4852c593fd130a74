import Felt.Lua.Numeral

/-!
# Fourteen significant digits

`%.14g` keeps fourteen digits of a number. `significant` is what it keeps of
an integer: from the fifteenth digit on, zeros. Reading the text back gives
exactly that (`Number.reread_ofInt`) for every integer a double has exactly,
whichever notation it was written in.

There are two notations to go through. An integer of up to fourteen digits is
written as it is; a longer one is written with a point behind its first digit and
an exponent, and without the zeros at its end. What the second denotes is
`significant` again, and that is a double itself, so that it is read as what it
is.
-/

namespace Felt

/-- How many digits of an integer are dropped. -/
def droppedDigits (n : ℤ) : ℕ := Nat.log 10 n.natAbs - 13

/-- **An integer rounded to fourteen significant digits.** -/
def significant (n : ℤ) : ℤ :=
  n.sign * (roundHalfEven ((n.natAbs : ℚ) / 10 ^ droppedDigits n) * 10 ^ droppedDigits n)

/-- Rounding moves a number by no more than one half. -/
theorem abs_roundHalfEven_sub_le (q : ℚ) : |(roundHalfEven q : ℚ) - q| ≤ 1 / 2 := by
  have hfloor : (⌊q⌋ : ℚ) ≤ q := Int.floor_le q
  have hceil : q < ⌊q⌋ + 1 := Int.lt_floor_add_one q
  rw [abs_le]
  simp only [roundHalfEven]
  split_ifs with h₁ h₂ h₃ <;> push_cast <;> constructor <;> linarith

/-- **Nothing is lost exactly when the digits that are dropped are zeros.** -/
theorem significant_eq_self_iff (n : ℤ) :
    significant n = n ↔ (10 : ℤ) ^ droppedDigits n ∣ n := by
  constructor
  · intro h
    refine ⟨n.sign * roundHalfEven ((n.natAbs : ℚ) / 10 ^ droppedDigits n), ?_⟩
    calc n = significant n := h.symm
      _ = _ := by rw [significant]; ring
  · rintro ⟨m, hm⟩
    have habs : n.natAbs = m.natAbs * 10 ^ droppedDigits n := by
      conv_lhs => rw [hm]
      rw [Int.natAbs_mul, Int.natAbs_pow, mul_comm]
      rfl
    have hdiv : (n.natAbs : ℚ) / 10 ^ droppedDigits n = ((m.natAbs : ℤ) : ℚ) := by
      rw [div_eq_iff (by positivity), habs, Nat.cast_mul, Nat.cast_pow, Int.cast_natCast]
      rfl
    rw [significant, hdiv, roundHalfEven_intCast]
    conv_rhs => rw [← Int.sign_mul_natAbs n, habs]
    push_cast
    rfl

/-- Fewer than fifteen digits are kept. -/
theorem droppedDigits_of_lt {n : ℤ} (h : |n| < 10 ^ 14) : droppedDigits n = 0 := by
  have hlt : n.natAbs < 10 ^ 14 := by
    zify
    exact h
  rcases Nat.eq_zero_or_pos n.natAbs with h0 | h0
  · simp [droppedDigits, h0]
  · have := Nat.log_lt_of_lt_pow h0.ne' hlt
    rw [droppedDigits]
    omega

theorem significant_of_lt {n : ℤ} (h : |n| < 10 ^ 14) : significant n = n := by
  rw [significant_eq_self_iff, droppedDigits_of_lt h, pow_zero]
  exact one_dvd n

@[simp] theorem droppedDigits_neg (n : ℤ) : droppedDigits (-n) = droppedDigits n := by
  simp [droppedDigits]

@[simp] theorem significant_neg (n : ℤ) : significant (-n) = -significant n := by
  simp [significant]

theorem significant_natCast (n : ℕ) :
    significant n = roundHalfEven ((n : ℚ) / 10 ^ droppedDigits n) * 10 ^ droppedDigits n := by
  rcases Nat.eq_zero_or_pos n with rfl | hn
  · simpa [significant, droppedDigits] using (roundHalfEven_intCast 0).symm
  · rw [significant, Int.natAbs_natCast, Int.sign_eq_one_of_pos (by exact_mod_cast hn), one_mul]

namespace Number

/-! ## Reading the scientific notation -/

theorem scanExponent_exact (x : ℤ) :
    scanExponent (bytes "eE") (bytes "e" ++ (if x < 0 then bytes "-" else bytes "+")
      ++ (if x.natAbs < 10 then bytes "0" else []) ++ decimal x.natAbs) = (x, []) := by
  set es := (if x.natAbs < 10 then bytes "0" else []) ++ decimal x.natAbs with hes
  have hdigits : ∀ c ∈ es, isDigit c = true := by
    intro c hc
    rcases List.mem_append.mp hc with hc | hc
    · split at hc
      · exact isDigit_of_mem_zero hc
      · exact absurd hc List.not_mem_nil
    · exact isDigit_of_mem_decimal hc
  have hvalue : ofDecimal es = x.natAbs := by
    rw [hes]
    split
    · rw [show ofDecimal (bytes "0" ++ decimal x.natAbs) = ofDecimal (decimal x.natAbs) from rfl,
        ofDecimal_decimal]
    · rw [List.nil_append, ofDecimal_decimal]
  have hne : es ≠ [] := List.append_ne_nil_of_right_ne_nil _ (decimal_ne_nil _)
  have htake : es.takeWhile isDigit = es := List.takeWhile_eq_self_iff.mpr hdigits
  have hdrop : es.dropWhile isDigit = [] := List.dropWhile_eq_nil_iff.mpr hdigits
  rw [List.append_assoc, ← hes]
  have he : (101 : UInt8) ∈ bytes "eE" := by decide
  by_cases hx : x < 0
  · rw [if_pos hx]
    show scanExponent (bytes "eE") (101 :: 45 :: es) = _
    simp only [scanExponent, if_pos he, scanSign, htake, hdrop, if_neg hne, hvalue, if_true]
    rw [show -((x.natAbs : ℕ) : ℤ) = x from by omega]
  · rw [if_neg hx]
    show scanExponent (bytes "eE") (101 :: 43 :: es) = _
    simp only [scanExponent, if_pos he, scanSign, htake, hdrop, if_neg hne, hvalue,
      Bool.false_eq_true, if_false]
    rw [show ((x.natAbs : ℕ) : ℤ) = x from by omega]

/-- **What the scientific notation denotes**: its digits are those of a number
between one and ten. -/
theorem scanDecimal_scientific {ds : Bytes} (hds : ∀ c ∈ ds, isDigit c = true) (hne : ds ≠ [])
    (x : ℤ) : scanDecimal (scientific ds x)
      = some ((ofDecimal ds : ℚ) / 10 ^ (ds.length - 1) * 10 ^ x, []) := by
  obtain ⟨c, ds, rfl⟩ := List.exists_cons_of_ne_nil hne
  have hc : isDigit c = true := hds c List.mem_cons_self
  have hfs : ∀ d ∈ ds, isDigit d = true := fun d hd => hds d (List.mem_cons_of_mem c hd)
  set exp := bytes "e" ++ (if x < 0 then bytes "-" else bytes "+")
    ++ (if x.natAbs < 10 then bytes "0" else []) ++ decimal x.natAbs with hexp
  have hexp' : exp = 101 :: ((if x < 0 then bytes "-" else bytes "+")
      ++ (if x.natAbs < 10 then bytes "0" else []) ++ decimal x.natAbs) := rfl
  have hhead : ∀ d ∈ exp.head?, isDigit d = false := by
    rw [hexp']
    rintro d hd
    obtain rfl := Option.some.inj hd
    rfl
  have htext : scientific (c :: ds) x
      = c :: ((if ds = [] then [] else 46 :: ds) ++ exp) := by
    rcases ds with _ | ⟨d, ds⟩
    · simp [scientific, hexp]
    · simp [scientific, hexp, bytes]
  have hmantissa : scanMantissa isDigit (scientific (c :: ds) x) = ([c], ds, exp) := by
    rw [htext, scanMantissa]
    rcases ds with _ | ⟨d, ds⟩
    · rw [if_pos rfl, List.nil_append, List.takeWhile_cons_of_pos hc,
        List.dropWhile_cons_of_pos hc, hexp']
      rfl
    · rw [if_neg (by simp), List.cons_append, List.takeWhile_cons_of_pos hc,
        List.dropWhile_cons_of_pos hc, List.takeWhile_cons_of_neg (by decide),
        List.dropWhile_cons_of_neg (by decide)]
      simp only [takeWhile_digits_append hfs hhead, dropWhile_digits_append hfs hhead]
  rw [scanDecimal]
  simp only [hmantissa]
  rw [if_neg (by simp), hexp, scanExponent_exact]
  rfl

theorem ofDecimal_append_zeros (b : Bytes) (k : ℕ) :
    ofDecimal (b ++ List.replicate k (digitByte 0)) = ofDecimal b * 10 ^ k := by
  induction k with
  | zero => simp
  | succ k ih =>
    rw [List.replicate_succ', ← List.append_assoc, ofDecimal_append_singleton, ih,
      digitValue_digitByte (by omega), pow_succ]
    ring

/-- The digits `%g` keeps, with a point behind the first. -/
theorem mantissa_stripZeros {d : ℕ} (hd : d ≠ 0) :
    (ofDecimal (stripZeros (decimal d)) : ℚ) / 10 ^ ((stripZeros (decimal d)).length - 1)
      = d / 10 ^ Nat.log 10 d := by
  set ds := stripZeros (decimal d) with hds
  set k := (decimal d).length - ds.length with hk
  have hsplit : ds ++ List.replicate k (digitByte 0) = decimal d :=
    stripZeros_append_replicate (decimal d)
  have hvalue : ofDecimal ds * 10 ^ k = d := by
    rw [← ofDecimal_append_zeros, hsplit, ofDecimal_decimal]
  have hlength : Nat.log 10 d = ds.length - 1 + k := by
    have hle := length_stripZeros_le (decimal d)
    have hpos := List.length_pos_iff.mpr (stripZeros_decimal_ne_nil hd)
    rw [← hds] at hle hpos
    rw [length_decimal hd] at hk hle
    omega
  have hcast : (d : ℚ) = ofDecimal ds * 10 ^ k := by exact_mod_cast hvalue.symm
  rw [hlength, hcast, pow_add, mul_div_mul_right _ _ (by positivity)]

/-- **An integer of more than fourteen digits is written in the scientific
notation**, as what is kept of it. -/
theorem general_of_le {n : ℕ} (h : 10 ^ 14 ≤ n) :
    ∃ ds x, (∀ c ∈ ds, isDigit c = true) ∧ ds ≠ [] ∧ general n = scientific ds x ∧
      (ofDecimal ds : ℚ) / 10 ^ (ds.length - 1) * 10 ^ x = significant n := by
  have hn : n ≠ 0 := by
    have : 0 < 10 ^ 14 := by positivity
    omega
  have hlog : 14 ≤ Nat.log 10 n := Nat.le_log_of_pow_le (by omega) h
  obtain ⟨k, hk⟩ : ∃ k, Nat.log 10 n = 13 + k := ⟨Nat.log 10 n - 13, by omega⟩
  have hdropped : droppedDigits n = k := by
    rw [droppedDigits, Int.natAbs_natCast, hk]
    omega
  have hscale : (n : ℚ) * 10 ^ (13 - (Nat.log 10 n : ℤ)) = n / 10 ^ k := by
    rw [hk, show (13 - ((13 + k : ℕ) : ℤ)) = -(k : ℤ) from by push_cast; ring, zpow_neg,
      zpow_natCast, div_eq_mul_inv]
  have hpow : (0 : ℚ) < 10 ^ k := by positivity
  have hlow : ((10 ^ 13 : ℤ) : ℚ) ≤ (n : ℚ) / 10 ^ k := by
    rw [le_div_iff₀ hpow]
    have hle : 10 ^ (13 + k) ≤ n := hk ▸ Nat.pow_log_le_self 10 hn
    rw [pow_add] at hle
    exact_mod_cast hle
  have hhigh : (n : ℚ) / 10 ^ k ≤ ((10 ^ 14 : ℤ) : ℚ) := by
    rw [div_le_iff₀ hpow]
    have hlt : n < 10 ^ (13 + k + 1) := hk ▸ Nat.lt_pow_succ_log_self (by omega) n
    have hle : n ≤ 10 ^ 14 * 10 ^ k := by
      calc n ≤ 10 ^ (13 + k + 1) := hlt.le
        _ = 10 ^ 14 * 10 ^ k := by rw [← pow_add]; congr 1; omega
    exact_mod_cast hle
  obtain ⟨d, hd⟩ := Int.eq_ofNat_of_zero_le
    ((by norm_num : (0 : ℤ) ≤ 10 ^ 13).trans (le_roundHalfEven hlow))
  have hd₁ : 10 ^ 13 ≤ d := by
    have := le_roundHalfEven hlow
    rw [hd] at this
    exact_mod_cast this
  have hd₂ : d ≤ 10 ^ 14 := by
    have := roundHalfEven_le hhigh
    rw [hd] at this
    exact_mod_cast this
  have hkept : significant n = d * 10 ^ k := by
    rw [significant_natCast, hdropped, hd]
  -- the text of `d`, or of a tenth of it when rounding has made a digit more
  have htext : ∀ (e : ℕ) (x : ℤ), e ≠ 0 → 14 ≤ x → (e : ℚ) / 10 ^ Nat.log 10 e * 10 ^ x
        = d * 10 ^ k → general n = scientific (stripZeros (decimal e)) x →
      ∃ ds x, (∀ c ∈ ds, isDigit c = true) ∧ ds ≠ [] ∧ general n = scientific ds x ∧
        (ofDecimal ds : ℚ) / 10 ^ (ds.length - 1) * 10 ^ x = significant n := by
    intro e x he hx hvalue hgeneral
    refine ⟨_, x, fun c hc => isDigit_of_mem_stripZeros hc, stripZeros_decimal_ne_nil he,
      hgeneral, ?_⟩
    rw [mantissa_stripZeros he, hvalue, hkept]
    push_cast
    rfl
  have hgeneral : general (n : ℚ) = if d = 10 ^ 14
      then scientific (stripZeros (decimal (10 ^ 13))) (Nat.log 10 n + 1)
      else scientific (stripZeros (decimal d)) (Nat.log 10 n) := by
    unfold general
    rw [if_neg (by exact_mod_cast hn), Int.log_natCast]
    simp only [hscale, hd, Int.toNat_natCast]
    split
    · simp only
      rw [if_pos (Or.inr (by omega))]
    · simp only
      rw [if_pos (Or.inr (by omega))]
  by_cases hfull : d = 10 ^ 14
  · rw [if_pos hfull] at hgeneral
    refine htext (10 ^ 13) (Nat.log 10 n + 1) (by positivity) (by omega) ?_ hgeneral
    rw [Nat.log_pow (by omega), hk, hfull]
    push_cast
    rw [show (13 + (k : ℤ) + 1) = ((14 + k : ℕ) : ℤ) from by push_cast; ring, zpow_natCast,
      pow_add]
    field_simp
    norm_num
  · rw [if_neg hfull] at hgeneral
    have hlogd : Nat.log 10 d = 13 := by
      rw [Nat.log_eq_iff (Or.inl (by omega))]
      omega
    refine htext d (Nat.log 10 n) (by omega) (by omega) ?_ hgeneral
    rw [hlogd, hk, zpow_natCast, pow_add]
    field_simp

end Number

/-! ## What is kept is a double -/

/-- An even integer below `2 ^ 54` is a double. -/
theorem roundDouble_of_even {v : ℤ} (heven : 2 ∣ v) (h : |v| < 2 ^ 54) :
    roundDouble v = .fin v := by
  rcases le_or_gt |v| (2 ^ 53) with hle | hgt
  · exact roundDouble_intCast hle
  · obtain ⟨m, hm⟩ := heven
    have habs : |(v : ℚ)| = ((v.natAbs : ℕ) : ℚ) := by
      rw [Nat.cast_natAbs, Int.cast_abs]
    have hlog : Nat.log 2 v.natAbs = 53 := by
      rw [Int.abs_eq_natAbs] at h hgt
      rw [Nat.log_eq_iff (Or.inl (by omega))]
      omega
    have hlast : lastBit v = 1 := by
      rw [lastBit, habs, Int.log_natCast, hlog]
      rfl
    refine roundDouble_of_whole (m := m) ?_ ?_
    · rw [hlast, hm, zpow_one]
      push_cast
      field_simp
    · have hbig : (2 : ℚ) ^ 54 < doubleLimit := by
        rw [doubleLimit]
        norm_num
      refine lt_trans ?_ hbig
      exact_mod_cast h

theorem dvd_significant (n : ℤ) : (10 : ℤ) ^ droppedDigits n ∣ significant n :=
  ⟨n.sign * roundHalfEven ((n.natAbs : ℚ) / 10 ^ droppedDigits n), by rw [significant]; ring⟩

/-- Rounding moves an integer by no more than half of what the last digit that
is kept stands for. -/
theorem two_mul_abs_significant_sub_le (n : ℤ) :
    2 * |significant n - n| ≤ 10 ^ droppedDigits n := by
  set k := droppedDigits n with hk
  have hpow : (0 : ℚ) < 10 ^ k := by positivity
  have hmove := abs_roundHalfEven_sub_le ((n.natAbs : ℚ) / 10 ^ k)
  have hdiff : ((significant n - n : ℤ) : ℚ)
      = n.sign * ((roundHalfEven ((n.natAbs : ℚ) / 10 ^ k) - (n.natAbs : ℚ) / 10 ^ k)
        * 10 ^ k) := by
    have hn : (n : ℚ) = n.sign * (n.natAbs : ℤ) := by
      rw [← Int.cast_mul, Int.sign_mul_natAbs]
    rw [Int.cast_natCast] at hn
    rw [significant, ← hk, sub_mul, div_mul_cancel₀ _ hpow.ne']
    push_cast
    rw [mul_sub, ← hn]
  have hsign : |(n.sign : ℚ)| ≤ 1 := by
    rcases Int.sign_trichotomy n with h | h | h <;> rw [h] <;> norm_num
  have hle : |((significant n - n : ℤ) : ℚ)| ≤ 1 / 2 * 10 ^ k := by
    rw [hdiff, abs_mul, abs_mul, abs_of_pos hpow]
    calc _ ≤ 1 * (1 / 2 * 10 ^ k) :=
          mul_le_mul hsign (mul_le_mul_of_nonneg_right hmove hpow.le) (by positivity) (by norm_num)
      _ = _ := one_mul _
  have hfinal : ((2 * |significant n - n| : ℤ) : ℚ) ≤ ((10 ^ k : ℤ) : ℚ) := by
    push_cast at hle ⊢
    linarith
  exact_mod_cast hfinal

theorem pow_droppedDigits_le {n : ℤ} (hn : n ≠ 0) : 10 ^ droppedDigits n ≤ |n| := by
  have hle : 10 ^ droppedDigits n ≤ n.natAbs :=
    (Nat.pow_le_pow_right (by omega) (Nat.sub_le _ _)).trans
      (Nat.pow_log_le_self 10 (Int.natAbs_ne_zero.mpr hn))
  zify at hle
  exact hle

/-- What is kept of an integer is at least half of it. -/
theorem abs_le_two_mul_abs_significant (n : ℤ) : |n| ≤ 2 * |significant n| := by
  rcases eq_or_ne n 0 with rfl | hn
  · simp
  · have hmove := two_mul_abs_significant_sub_le n
    have hpow := pow_droppedDigits_le hn
    have htri : |n| ≤ |significant n| + |significant n - n| := by
      simpa [abs_sub_comm] using abs_add_le (significant n) (n - significant n)
    omega

theorem roundDouble_significant {n : ℤ} (h : |n| ≤ 2 ^ 53) :
    roundDouble (significant n) = .fin (significant n) := by
  rcases Nat.eq_zero_or_pos (droppedDigits n) with hk | hk
  · rw [(significant_eq_self_iff n).mpr (by rw [hk, pow_zero]; exact one_dvd n)]
    exact roundDouble_intCast h
  · refine roundDouble_of_even (dvd_trans ?_ (dvd_significant n)) ?_
    · exact dvd_trans ⟨5, by norm_num⟩ (dvd_pow_self 10 hk.ne')
    · have hn : n ≠ 0 := by
        rintro rfl
        simp [droppedDigits] at hk
      have hmove := two_mul_abs_significant_sub_le n
      have hpow := pow_droppedDigits_le hn
      have htri : |significant n| ≤ |significant n - n| + |n| := by
        simpa using abs_add_le (significant n - n) n
      omega

namespace Number

/-- **What an integer reads back as**: all of it but the digits after the
fourteenth. -/
theorem tonumber_tostring_significant {n : ℤ} (h : |n| ≤ 2 ^ 53) :
    tonumber (tostring (ofInt n)) = some (.fin (significant n)) := by
  rcases lt_or_ge |n| (10 ^ 14) with hlt | hge
  · rw [tonumber_tostring_ofInt hlt, significant_of_lt hlt, ofInt_of_le h]
  have habs : |(n : ℚ)| = ((n.natAbs : ℕ) : ℚ) := by
    rw [Nat.cast_natAbs, Int.cast_abs]
  have hnat := Int.abs_eq_natAbs n
  have hround : roundDouble (significant n.natAbs) = .fin (significant n.natAbs) :=
    roundDouble_significant (by rw [Nat.abs_cast]; omega)
  obtain ⟨ds, x, hds, hne, htext, hvalue⟩ :=
    general_of_le (show 10 ^ 14 ≤ n.natAbs from by omega)
  have hread := tonumber_of_scanDecimal (isNumeral_scientific hds hne x)
    (scanDecimal_scientific hds hne x) (decide (n < 0))
  rw [hvalue, hround] at hread
  have hwritten : tostring (ofInt n)
      = (if decide (n < 0) = true then bytes "-" else []) ++ scientific ds x := by
    rw [ofInt_of_le h, ← htext, ← habs]
    simp only [tostring, Int.cast_lt_zero, decide_eq_true_eq]
  rw [hwritten, hread]
  congr 1
  by_cases hneg : n < 0
  · have hn : n = -(n.natAbs : ℤ) := by omega
    rw [if_pos (decide_eq_true hneg), neg]
    conv_rhs => rw [hn, significant_neg]
    push_cast
    rfl
  · rw [if_neg (by simpa using hneg), show ((n.natAbs : ℕ) : ℤ) = n from by omega]

theorem reread_ofInt {n : ℤ} (h : |n| ≤ 2 ^ 53) : (ofInt n).reread = .fin (significant n) :=
  reread_of_tonumber (tonumber_tostring_significant h)

end Number

end Felt
