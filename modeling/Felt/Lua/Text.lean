import Mathlib.Data.Nat.Digits.Lemmas
import Mathlib.Data.List.TakeWhile

/-!
# Byte strings and decimal text

A Lua string is a sequence of bytes, NUL included. Everything this
development reads out of one or writes into one is ASCII: tags, decimal
numerals, separators.

`decimal` is the numeral C writes for a natural number – no sign, no leading
zero – and `ofDecimal` is what a run of digits denotes. `ofDecimal_decimal`
says the second reads back the first. Lengths and counters of an interpreter
are far below the size where a numeral would be written any other way, so
they go through `decimal`; numbers that a program computes go through
`Number.tostring`, which agrees with it on integers of fewer than fifteen
digits (`Number.tostring_natCast`).

Both directions are by recursion on digits. What a numeral looks like – that it
is not empty, that each of its bytes is a digit, how long it is – is stated for
`decimal` here, so that what is written in front of a colon or a line end can be
told from what stands behind it.
-/

namespace Felt

/-- A Lua string. -/
abbrev Bytes : Type := List UInt8

/-- The bytes of an ASCII literal. -/
def bytes (s : String) : Bytes := s.toList.map (fun c => UInt8.ofNat c.toNat)

/-- C's `isdigit`. -/
def isDigit (c : UInt8) : Bool := 48 ≤ c && c ≤ 57

/-- C's `isspace`, in the C locale. -/
def isSpace (c : UInt8) : Bool := c == 32 || (9 ≤ c && c ≤ 13)

/-- The byte of a decimal digit. -/
def digitByte (d : ℕ) : UInt8 := UInt8.ofNat (48 + d)

/-- The digit a byte stands for. -/
def digitValue (c : UInt8) : ℕ := c.toNat - 48

/-- What `%s` writes for a string: a string of a hundred bytes or more as it
is, a shorter one through `sprintf`. -/
def formatString (b : Bytes) : Bytes :=
  if 100 ≤ b.length then b else b.takeWhile (· ≠ 0)

/-- **The decimal numeral of a natural number.** -/
def decimal (n : ℕ) : Bytes :=
  if n = 0 then [digitByte 0] else (Nat.digits 10 n).reverse.map digitByte

/-- **The number a run of digits denotes.** -/
def ofDecimal (b : Bytes) : ℕ := b.foldl (fun a c => 10 * a + digitValue c) 0

theorem toNat_digitByte {d : ℕ} (h : d < 10) : (digitByte d).toNat = 48 + d := by
  rw [digitByte, UInt8.toNat_ofNat']
  omega

theorem digitValue_digitByte {d : ℕ} (h : d < 10) :
    digitValue (digitByte d) = d := by
  rw [digitValue, toNat_digitByte h]
  omega

theorem isDigit_iff (c : UInt8) : isDigit c = true ↔ 48 ≤ c.toNat ∧ c.toNat ≤ 57 := by
  rw [isDigit, Bool.and_eq_true, decide_eq_true_iff, decide_eq_true_iff,
    UInt8.le_iff_toNat_le, UInt8.le_iff_toNat_le]
  rfl

theorem isDigit_digitByte {d : ℕ} (h : d < 10) : isDigit (digitByte d) = true := by
  rw [isDigit_iff, toNat_digitByte h]
  omega

/-- A digit is told apart from any byte outside `0`–`9`. -/
theorem ne_of_isDigit {c k : UInt8} (hc : isDigit c = true)
    (hk : isDigit k = false) : c ≠ k := by
  rintro rfl
  rw [hc] at hk
  exact Bool.noConfusion hk

theorem decimal_of_lt {n : ℕ} (h : n < 10) : decimal n = [digitByte n] := by
  unfold decimal
  by_cases hn : n = 0
  · rw [if_pos hn, hn]
  · rw [if_neg hn, Nat.digits_of_lt 10 n hn h]
    rfl

/-- The last digit, and the numeral of what is left. -/
theorem decimal_of_le {n : ℕ} (h : 10 ≤ n) :
    decimal n = decimal (n / 10) ++ [digitByte (n % 10)] := by
  have hn : n ≠ 0 := by omega
  have hq : n / 10 ≠ 0 := by omega
  unfold decimal
  rw [if_neg hn, if_neg hq, Nat.digits_def' (by omega) (by omega),
    List.reverse_cons, List.map_append]
  rfl

/-- The induction that follows a numeral from its first digit. -/
theorem decimal_induction {P : ℕ → Prop} (one : ∀ n < 10, P n)
    (more : ∀ n, 10 ≤ n → P (n / 10) → P n) (n : ℕ) : P n := by
  induction n using Nat.strong_induction_on with
  | _ n ih =>
    by_cases h : n < 10
    · exact one n h
    · exact more n (by omega) (ih (n / 10) (by omega))

@[simp] theorem ofDecimal_append_singleton (b : Bytes) (c : UInt8) :
    ofDecimal (b ++ [c]) = 10 * ofDecimal b + digitValue c := by
  simp [ofDecimal]

/-- **A numeral denotes its number.** -/
@[simp] theorem ofDecimal_decimal (n : ℕ) : ofDecimal (decimal n) = n := by
  induction n using decimal_induction with
  | one n h =>
    rw [decimal_of_lt h]
    show 10 * 0 + digitValue (digitByte n) = n
    rw [digitValue_digitByte h]
    omega
  | more n h ih =>
    rw [decimal_of_le h, ofDecimal_append_singleton, ih,
      digitValue_digitByte (by omega)]
    omega

theorem decimal_ne_nil (n : ℕ) : decimal n ≠ [] := by
  by_cases h : n < 10
  · rw [decimal_of_lt h]
    exact List.cons_ne_nil _ _
  · rw [decimal_of_le (by omega)]
    exact List.append_ne_nil_of_right_ne_nil _ (List.cons_ne_nil _ _)

/-- A numeral is made of digits. -/
theorem isDigit_of_mem_decimal {n : ℕ} {c : UInt8} (hc : c ∈ decimal n) :
    isDigit c = true := by
  induction n using decimal_induction with
  | one n h =>
    rw [decimal_of_lt h, List.mem_singleton] at hc
    rw [hc, isDigit_digitByte h]
  | more n h ih =>
    rw [decimal_of_le h, List.mem_append, List.mem_singleton] at hc
    rcases hc with hc | hc
    · exact ih hc
    · rw [hc, isDigit_digitByte (by omega)]

/-- **A number with `k + 1` digits has a numeral of `k + 1` bytes.** -/
theorem length_decimal {n : ℕ} (hn : n ≠ 0) :
    (decimal n).length = Nat.log 10 n + 1 := by
  rw [decimal, if_neg hn, List.length_map, List.length_reverse,
    Nat.length_digits 10 n (by omega) hn]

/-- Multiplying by a power of ten writes that many zeros at the end. -/
theorem decimal_mul_pow {n : ℕ} (hn : n ≠ 0) (k : ℕ) :
    decimal (n * 10 ^ k) = decimal n ++ List.replicate k (digitByte 0) := by
  induction k with
  | zero => simp
  | succ k ih =>
    have hpos : 0 < n * 10 ^ k := Nat.mul_pos (by omega) (by positivity)
    rw [pow_succ, ← mul_assoc, decimal_of_le (by omega),
      Nat.mul_div_cancel _ (by omega), ih, Nat.mul_mod_left,
      List.replicate_succ', List.append_assoc]

end Felt
