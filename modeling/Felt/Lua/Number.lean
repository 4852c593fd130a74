import Mathlib.Data.Rat.Floor
import Mathlib.Data.Int.Log
import Mathlib.Data.List.DropRight
import Mathlib.Tactic.Linarith
import Mathlib.Tactic.Positivity
import Mathlib.Tactic.FieldSimp
import Mathlib.Tactic.Ring
import Felt.Lua.Text

/-!
# Lua 5.1 numbers

The interpreter is configured with `double` for its numbers, `strtod` to read
them and `%.14g` to write them (`luaconf.h`). `Number` is a double as the
rational it denotes, an infinity or a NaN; the two zeros are one value, as
they are for every comparison and every table lookup. `roundDouble` is the
rounding every operation ends with: to the nearest of the rationals with 53
significant bits, to the even one of two that are equally near.

`tostring` and `tonumber` are the two conversions. They are not inverse to
each other – fourteen significant digits do not determine a double – but on
integers of fewer than fifteen digits they are
(`Number.tonumber_tostring_ofInt`).

`scanUnsigned` is `strtod` on what stands behind a sign: a hexadecimal constant,
a decimal one, or a word, of which a NaN may have something in brackets behind
it. `tonumber` is what the interpreter makes of it (`luaO_str2d`): blanks on
either side, and nothing else behind. It stops at the first NUL, where C does.
-/

namespace Felt

/-- **A double.** -/
inductive Number where
  /-- Not a number, with the sign `printf` shows. -/
  | nan (neg : Bool)
  /-- An infinity. -/
  | inf (neg : Bool)
  /-- A finite number, by its value. -/
  | fin (q : ℚ)
  deriving DecidableEq

/-- The nearest integer, and of two that are equally near the even one. -/
def roundHalfEven (q : ℚ) : ℤ :=
  let f := ⌊q⌋
  if q - f < 1 / 2 then f
  else if 1 / 2 < q - f then f + 1
  else if f % 2 = 0 then f
  else f + 1

/-- The exponent of the last bit of a double near `q`: 53 significant bits,
or fewer once the exponent is the smallest there is. -/
def lastBit (q : ℚ) : ℤ := max (Int.log 2 |q| - 52) (-1074)

/-- Where the finite doubles end: `2 ^ 1024`. -/
@[irreducible] def doubleLimit : ℕ := (2 ^ 53) ^ 19 * 2 ^ 17

theorem lt_doubleLimit : 2 ^ 53 < doubleLimit := by
  rw [doubleLimit]
  norm_num

/-- **Rounding to a double.** -/
def roundDouble (q : ℚ) : Number :=
  let v : ℚ := roundHalfEven (q / 2 ^ lastBit q) * 2 ^ lastBit q
  if doubleLimit ≤ |v| then .inf (decide (q < 0)) else .fin v

namespace Number

/-- `a + b`. -/
def add : Number → Number → Number
  | .nan s, _ => .nan s
  | _, .nan s => .nan s
  | .inf s, .inf t => if s = t then .inf s else .nan true
  | .inf s, .fin _ => .inf s
  | .fin _, .inf t => .inf t
  | .fin a, .fin b => roundDouble (a + b)

/-- `-a`. -/
def neg : Number → Number
  | .nan s => .nan (!s)
  | .inf s => .inf (!s)
  | .fin a => .fin (-a)

/-- `a - b`. -/
def sub (a b : Number) : Number := a.add b.neg

/-- `a <= b`: false as soon as one side is not a number. -/
def le : Number → Number → Bool
  | .nan _, _ => false
  | _, .nan _ => false
  | .inf s, .inf t => s || !t
  | .inf s, .fin _ => s
  | .fin _, .inf t => !t
  | .fin a, .fin b => a ≤ b

/-- The double of an integer. -/
def ofInt (n : ℤ) : Number := roundDouble n

/-! ## Writing a number -/

/-- The digits without the zeros at the end. -/
def stripZeros (b : Bytes) : Bytes := b.rdropWhile (· == digitByte 0)

/-- `%e` with an exponent of at least two digits, as `%g` uses it. -/
def scientific (ds : Bytes) (x : ℤ) : Bytes :=
  ds.take 1 ++ (if ds.length ≤ 1 then [] else bytes "." ++ ds.drop 1) ++ bytes "e"
    ++ (if x < 0 then bytes "-" else bytes "+")
    ++ (if x.natAbs < 10 then bytes "0" else []) ++ decimal x.natAbs

/-- `%f` with the digits `%g` keeps, for an exponent of `x`. -/
def positional (ds : Bytes) (x : ℤ) : Bytes :=
  if x < 0 then bytes "0." ++ List.replicate (-x - 1).toNat (digitByte 0) ++ ds
  else
    let k := x.toNat + 1
    ds.take k ++ List.replicate (k - ds.length) (digitByte 0)
      ++ (if ds.length ≤ k then [] else bytes "." ++ ds.drop k)

/-- `%.14g` of a number that is not negative: fourteen significant digits,
the zeros at the end dropped, in the scientific form when the exponent is
below -4 or does not fit the digits. -/
def general (a : ℚ) : Bytes :=
  if a = 0 then bytes "0"
  else
    let x := Int.log 10 a
    let d := (roundHalfEven (a * 10 ^ (13 - x))).toNat
    let (d, x) := if d = 10 ^ 14 then (10 ^ 13, x + 1) else (d, x)
    let ds := stripZeros (decimal d)
    if x < -4 ∨ 14 ≤ x then scientific ds x else positional ds x

/-- **`tostring` of a number**: `LUA_NUMBER_FMT` is `%.14g`. -/
def tostring : Number → Bytes
  | .nan s => if s then bytes "-nan" else bytes "nan"
  | .inf s => if s then bytes "-inf" else bytes "inf"
  | .fin q => (if q < 0 then bytes "-" else []) ++ general |q|

/-! ## Reading a number -/

/-- A sign, if there is one. -/
def scanSign : Bytes → Bool × Bytes
  | 45 :: b => (true, b)
  | 43 :: b => (false, b)
  | b => (false, b)

/-- An exponent after one of the letters `e`, read only when a digit
follows. -/
def scanExponent (e : Bytes) (b : Bytes) : ℤ × Bytes :=
  match b with
  | [] => (0, b)
  | c :: b' =>
    if c ∈ e then
      let (neg, r) := scanSign b'
      let ds := r.takeWhile isDigit
      if ds = [] then (0, b)
      else (if neg then -(ofDecimal ds : ℤ) else ofDecimal ds, r.dropWhile isDigit)
    else (0, b)

/-- Digits, and digits after a point if there is one. -/
def scanMantissa (digit : UInt8 → Bool) (b : Bytes) : Bytes × Bytes × Bytes :=
  let ds := b.takeWhile digit
  match b.dropWhile digit with
  | 46 :: r => (ds, r.takeWhile digit, r.dropWhile digit)
  | r => (ds, [], r)

/-- A decimal constant. -/
def scanDecimal (b : Bytes) : Option (ℚ × Bytes) :=
  let (ds, fs, r) := scanMantissa isDigit b
  if ds = [] ∧ fs = [] then none
  else
    let (x, r) := scanExponent (bytes "eE") r
    some ((ofDecimal (ds ++ fs) : ℚ) / 10 ^ fs.length * 10 ^ x, r)

/-- C's `isxdigit`. -/
def isHexDigit (c : UInt8) : Bool :=
  isDigit c || (97 ≤ c && c ≤ 102) || (65 ≤ c && c ≤ 70)

/-- The number a run of hexadecimal digits denotes. -/
def ofHex (b : Bytes) : ℕ :=
  b.foldl (fun a c => 16 * a +
    (if isDigit c then digitValue c else if 97 ≤ c then c.toNat - 87 else c.toNat - 55)) 0

/-- A hexadecimal constant, after its `0x`. -/
def scanHex (b : Bytes) : Option (ℚ × Bytes) :=
  let (ds, fs, r) := scanMantissa isHexDigit b
  if ds = [] ∧ fs = [] then none
  else
    let (x, r) := scanExponent (bytes "pP") r
    some ((ofHex (ds ++ fs) : ℚ) / 16 ^ fs.length * 2 ^ x, r)

/-- Lower case, for ASCII letters. -/
def lower (c : UInt8) : UInt8 := if 65 ≤ c ∧ c ≤ 90 then c + 32 else c

/-- The rest of `b` after a word, in any case. -/
def scanWord (w : Bytes) (b : Bytes) : Option Bytes :=
  if (b.take w.length).map lower = w then some (b.drop w.length) else none

/-- The bytes in the brackets of a NaN. -/
def isPayloadByte (c : UInt8) : Bool :=
  isDigit c || (97 ≤ c && c ≤ 122) || (65 ≤ c && c ≤ 90) || c == 95

/-- The rest of `b` after the brackets of a NaN, if they are there and
closed. -/
def scanPayload (b : Bytes) : Bytes :=
  match b with
  | [] => b
  | c :: r =>
    if c = 40 then
      match r.dropWhile isPayloadByte with
      | 41 :: rest => rest
      | _ => b
    else b

/-- `strtod` after the sign: a constant in base sixteen or ten, an infinity
or a NaN – and what follows it. -/
def scanUnsigned (b : Bytes) : Option (Number × Bytes) :=
  match (scanWord (bytes "0x") b).bind scanHex with
  | some (q, r) => some (roundDouble q, r)
  | none =>
    match scanDecimal b with
    | some (q, r) => some (roundDouble q, r)
    | none =>
      match scanWord (bytes "infinity") b with
      | some r => some (.inf false, r)
      | none =>
        match scanWord (bytes "inf") b with
        | some r => some (.inf false, r)
        | none => (scanWord (bytes "nan") b).map (fun r => (.nan false, scanPayload r))

/-- **`tonumber` of a string** (`luaO_str2d`): the string up to its first NUL
is a constant with spaces around it and nothing else. -/
def tonumber (b : Bytes) : Option Number :=
  let (neg, r) := scanSign ((b.takeWhile (· ≠ 0)).dropWhile isSpace)
  match scanUnsigned r with
  | some (n, r) =>
    if r.dropWhile isSpace = [] then some (if neg then n.neg else n) else none
  | none => none

/-! ## Small integers are exact -/

end Number

@[simp] theorem roundHalfEven_intCast (n : ℤ) : roundHalfEven (n : ℚ) = n := by
  unfold roundHalfEven
  simp

theorem roundHalfEven_natCast (n : ℕ) : roundHalfEven (n : ℚ) = n := by
  exact_mod_cast roundHalfEven_intCast (n : ℤ)

theorem le_roundHalfEven {q : ℚ} {m : ℤ} (h : (m : ℚ) ≤ q) : m ≤ roundHalfEven q := by
  have hf : m ≤ ⌊q⌋ := Int.le_floor.mpr h
  simp only [roundHalfEven]
  split_ifs <;> omega

theorem roundHalfEven_le {q : ℚ} {m : ℤ} (h : q ≤ m) : roundHalfEven q ≤ m := by
  rcases eq_or_lt_of_le h with rfl | hlt
  · simp
  · have hf : ⌊q⌋ < m := Int.floor_lt.mpr hlt
    simp only [roundHalfEven]
    split_ifs <;> omega

/-- **A rational that is a whole number of its own last bit is a double.** -/
theorem roundDouble_of_whole {q : ℚ} {m : ℤ} (hm : q / 2 ^ lastBit q = m)
    (hq : |q| < doubleLimit) : roundDouble q = .fin q := by
  have h2 : (2 : ℚ) ^ lastBit q ≠ 0 := zpow_ne_zero _ (by norm_num)
  have hv : (roundHalfEven (q / 2 ^ lastBit q) : ℚ) * 2 ^ lastBit q = q := by
    rw [hm, roundHalfEven_intCast, ← hm, div_mul_cancel₀ _ h2]
  unfold roundDouble
  simp only [hv]
  rw [if_neg (not_le.mpr hq)]

/-- A positive power of two divides no information out: dividing by a last
bit that is not positive is multiplying. -/
theorem exists_whole_of_lastBit_nonpos {n : ℤ} (h : lastBit n ≤ 0) :
    ∃ m : ℤ, (n : ℚ) / 2 ^ lastBit n = m := by
  obtain ⟨k, hk⟩ := Int.exists_eq_neg_ofNat h
  refine ⟨n * 2 ^ k, ?_⟩
  rw [hk, zpow_neg, zpow_natCast, div_inv_eq_mul]
  push_cast
  rfl

theorem lastBit_intCast_nonpos {n : ℤ} (h : |n| < 2 ^ 53) :
    lastBit n ≤ 0 := by
  have habs : |(n : ℚ)| = ((n.natAbs : ℕ) : ℚ) := by
    rw [Nat.cast_natAbs, Int.cast_abs]
  have hlt : n.natAbs < 2 ^ 53 := by
    zify
    exact h
  have hlog : Nat.log 2 n.natAbs ≤ 52 := by
    rcases Nat.eq_zero_or_pos n.natAbs with h0 | h0
    · rw [h0, Nat.log_zero_right]
      omega
    · exact Nat.lt_succ_iff.mp (Nat.log_lt_of_lt_pow (by omega) hlt)
  unfold lastBit
  rw [habs, Int.log_natCast]
  omega

/-- **Every integer of magnitude up to `2 ^ 53` is a double.** -/
theorem roundDouble_intCast {n : ℤ} (h : |n| ≤ 2 ^ 53) :
    roundDouble n = .fin n := by
  have hbig : |(n : ℚ)| < doubleLimit := by
    have h' : |(n : ℚ)| ≤ 2 ^ 53 := by exact_mod_cast h
    refine lt_of_le_of_lt h' ?_
    exact_mod_cast lt_doubleLimit
  rcases lt_or_eq_of_le h with hlt | heq
  · obtain ⟨m, hm⟩ := exists_whole_of_lastBit_nonpos (lastBit_intCast_nonpos hlt)
    exact roundDouble_of_whole hm hbig
  · have hlast : lastBit n = 1 := by
      have habs : |(n : ℚ)| = ((2 ^ 53 : ℕ) : ℚ) := by exact_mod_cast heq
      rw [lastBit, habs, Int.log_natCast, Nat.log_pow (by omega)]
      rfl
    rcases abs_choice n with hn | hn
    · rw [hn] at heq
      exact roundDouble_of_whole (m := 2 ^ 52) (by rw [hlast, heq]; norm_num) hbig
    · rw [hn] at heq
      have hn' : n = -2 ^ 53 := by omega
      exact roundDouble_of_whole (m := -2 ^ 52) (by rw [hlast, hn']; norm_num) hbig

namespace Number

theorem ofInt_of_le {n : ℤ} (h : |n| ≤ 2 ^ 53) : ofInt n = .fin n :=
  roundDouble_intCast h

theorem stripZeros_append_zeros (b : Bytes) (k : ℕ) :
    stripZeros (b ++ List.replicate k (digitByte 0)) = stripZeros b := by
  induction k with
  | zero => simp
  | succ k ih =>
    rw [List.replicate_succ', ← List.append_assoc]
    unfold stripZeros at ih ⊢
    rw [List.rdropWhile_concat_pos _ _ _ (by simp), ih]

/-- The zeros that were dropped can be written again. -/
theorem stripZeros_append_replicate (b : Bytes) :
    stripZeros b ++ List.replicate (b.length - (stripZeros b).length) (digitByte 0)
      = b := by
  have hsplit : stripZeros b ++ b.rtakeWhile (· == digitByte 0) = b :=
    List.rdropWhile_append_rtakeWhile
  have hzero : b.rtakeWhile (· == digitByte 0)
      = List.replicate (b.rtakeWhile (· == digitByte 0)).length (digitByte 0) :=
    List.eq_replicate_iff.mpr ⟨rfl, fun c hc => by
      simpa using List.mem_rtakeWhile_imp hc⟩
  have hlen := congrArg List.length hsplit
  rw [List.length_append] at hlen
  rw [show b.length - (stripZeros b).length
      = (b.rtakeWhile (· == digitByte 0)).length from by omega, ← hzero, hsplit]

theorem length_stripZeros_le (b : Bytes) : (stripZeros b).length ≤ b.length :=
  (List.rdropWhile_prefix _ _).length_le

/-- **`%.14g` of a natural number of at most fourteen digits is its
numeral.** -/
theorem general_natCast {n : ℕ} (h : n < 10 ^ 14) : general (n : ℚ) = decimal n := by
  rcases Nat.eq_zero_or_pos n with rfl | hpos
  · rfl
  have hn : n ≠ 0 := hpos.ne'
  have hL : Nat.log 10 n < 14 := Nat.log_lt_of_lt_pow hn h
  obtain ⟨k, hk⟩ : ∃ k, 13 = Nat.log 10 n + k := ⟨13 - Nat.log 10 n, by omega⟩
  have hd : roundHalfEven ((n : ℚ) * 10 ^ (13 - (Nat.log 10 n : ℤ)))
      = ((n * 10 ^ k : ℕ) : ℤ) := by
    rw [show (13 - (Nat.log 10 n : ℤ)) = (k : ℤ) from by omega, zpow_natCast,
      ← roundHalfEven_natCast]
    push_cast
    rfl
  have hlt : n * 10 ^ k < 10 ^ 14 := by
    calc n * 10 ^ k < 10 ^ (Nat.log 10 n + 1) * 10 ^ k :=
          Nat.mul_lt_mul_of_pos_right (Nat.lt_pow_succ_log_self (by omega) n)
            (by positivity)
      _ = 10 ^ 14 := by rw [← pow_add]; congr 1; omega
  have hlen : (decimal n).length = Nat.log 10 n + 1 := length_decimal hn
  unfold general
  rw [if_neg (by exact_mod_cast hn), Int.log_natCast]
  simp only [hd, Int.toNat_natCast]
  rw [if_neg hlt.ne]
  simp only [decimal_mul_pow hn, stripZeros_append_zeros]
  rw [if_neg (by omega)]
  unfold positional
  rw [if_neg (by omega)]
  simp only [Int.toNat_natCast]
  have hle := length_stripZeros_le (decimal n)
  rw [← hlen, if_pos hle, List.append_nil, List.take_of_length_le hle,
    stripZeros_append_replicate]

theorem tostring_natCast {n : ℕ} (h : n < 10 ^ 14) :
    tostring (.fin n) = decimal n := by
  show (if (n : ℚ) < 0 then bytes "-" else []) ++ general |(n : ℚ)| = decimal n
  rw [if_neg (by simp), List.nil_append, abs_of_nonneg (by positivity),
    general_natCast h]

theorem tostring_neg_natCast {n : ℕ} (hn : n ≠ 0) (h : n < 10 ^ 14) :
    tostring (.fin (-n)) = 45 :: decimal n := by
  have hpos : (0 : ℚ) < n := by exact_mod_cast Nat.pos_of_ne_zero hn
  show (if -(n : ℚ) < 0 then bytes "-" else []) ++ general |-(n : ℚ)|
    = 45 :: decimal n
  rw [if_pos (by linarith), abs_neg, abs_of_pos hpos, general_natCast h]
  rfl

/-! ## Reading a numeral back -/

theorem scanSign_of_isDigit {c : UInt8} (hc : isDigit c = true) (b : Bytes) :
    scanSign (c :: b) = (false, c :: b) := by
  unfold scanSign
  split
  · next h => exact absurd (List.cons.inj h).1 (ne_of_isDigit hc rfl)
  · next h => exact absurd (List.cons.inj h).1 (ne_of_isDigit hc rfl)
  · rfl

theorem isSpace_of_isDigit {c : UInt8} (hc : isDigit c = true) :
    isSpace c = false := by
  rw [isDigit_iff] at hc
  rw [isSpace, Bool.or_eq_false_iff, Bool.and_eq_false_iff, beq_eq_false_iff_ne,
    decide_eq_false_iff_not, decide_eq_false_iff_not, UInt8.le_iff_toNat_le,
    UInt8.le_iff_toNat_le]
  refine ⟨?_, Or.inr ?_⟩
  · rintro rfl
    exact absurd hc.1 (by decide)
  · show ¬ c.toNat ≤ 13
    omega

/-- A run of digits is no hexadecimal constant: there is no `x` in it. -/
theorem scanWord_hex_of_digits {b : Bytes} (hb : ∀ c ∈ b, isDigit c = true) :
    scanWord (bytes "0x") b = none := by
  have hlow : ∀ d ∈ b, lower d = d := fun d hd => by
    have h57 := (isDigit_iff d).mp (hb d hd)
    refine if_neg (fun h => ?_)
    have h65 : 65 ≤ d.toNat := UInt8.le_iff_toNat_le.mp h.1
    omega
  refine if_neg (fun h => ?_)
  have hmap : (b.take 2).map lower = b.take 2 :=
    (List.map_congr_left (fun d hd => hlow d (List.mem_of_mem_take hd))).trans
      (List.map_id _)
  have htake : b.take 2 = bytes "0x" := hmap.symm.trans h
  have hmem : (120 : UInt8) ∈ b.take 2 := by
    rw [htake]
    decide
  exact ne_of_isDigit (hb 120 (List.mem_of_mem_take hmem)) rfl rfl

theorem scanUnsigned_of_digits {b : Bytes} (hb : ∀ c ∈ b, isDigit c = true)
    (hne : b ≠ []) : scanUnsigned b = some (roundDouble (ofDecimal b), []) := by
  have htake : b.takeWhile isDigit = b := List.takeWhile_eq_self_iff.mpr hb
  have hdrop : b.dropWhile isDigit = [] := List.dropWhile_eq_nil_iff.mpr hb
  have hdec : scanDecimal b = some ((ofDecimal b : ℚ), []) := by
    simp [scanDecimal, scanMantissa, scanExponent, htake, hdrop, hne]
  unfold scanUnsigned
  rw [scanWord_hex_of_digits hb]
  simp [hdec]

theorem takeWhile_ne_zero_of_digits {b : Bytes}
    (hb : ∀ c ∈ b, isDigit c = true) : b.takeWhile (· ≠ 0) = b := by
  refine List.takeWhile_eq_self_iff.mpr (fun c hc => ?_)
  simpa using ne_of_isDigit (hb c hc) (by rfl : isDigit 0 = false)

/-- **`tonumber` of a run of digits** is the double nearest to the number
they denote. -/
theorem tonumber_of_digits {b : Bytes} (hb : ∀ c ∈ b, isDigit c = true)
    (hne : b ≠ []) : tonumber b = some (roundDouble (ofDecimal b)) := by
  obtain ⟨c, b', rfl⟩ := List.exists_cons_of_ne_nil hne
  have hc := hb c (by simp)
  unfold tonumber
  rw [takeWhile_ne_zero_of_digits hb,
    List.dropWhile_cons_of_neg (by rw [isSpace_of_isDigit hc]; exact Bool.false_ne_true),
    scanSign_of_isDigit hc]
  simp [scanUnsigned_of_digits hb hne]

theorem tonumber_minus_of_digits {b : Bytes} (hb : ∀ c ∈ b, isDigit c = true)
    (hne : b ≠ []) :
    tonumber (45 :: b) = some (roundDouble (ofDecimal b)).neg := by
  unfold tonumber
  rw [List.takeWhile_cons_of_pos (by decide), takeWhile_ne_zero_of_digits hb,
    List.dropWhile_cons_of_neg (by decide)]
  simp [scanSign, scanUnsigned_of_digits hb hne]

theorem tonumber_decimal (n : ℕ) : tonumber (decimal n) = some (roundDouble n) := by
  rw [tonumber_of_digits (fun _ hc => isDigit_of_mem_decimal hc) (decimal_ne_nil n),
    ofDecimal_decimal]

/-- **An integer of fewer than fifteen digits survives being written and read
back.** -/
theorem tonumber_tostring_ofInt {n : ℤ} (h : |n| < 10 ^ 14) :
    tonumber (tostring (ofInt n)) = some (ofInt n) := by
  have hfin : ofInt n = .fin n := ofInt_of_le (by omega)
  rw [hfin]
  rcases le_or_gt 0 n with hn | hn
  · obtain ⟨m, rfl⟩ := Int.eq_ofNat_of_zero_le hn
    rw [abs_of_nonneg hn] at h
    have hm : m < 10 ^ 14 := by exact_mod_cast h
    rw [Int.cast_natCast, tostring_natCast hm, tonumber_decimal]
    exact congrArg some (by
      have := roundDouble_intCast (n := (m : ℤ)) (by rw [abs_of_nonneg hn]; omega)
      simpa using this)
  · obtain ⟨m, rfl⟩ : ∃ m : ℕ, n = -(m : ℤ) := ⟨n.natAbs, by omega⟩
    have hm0 : m ≠ 0 := by omega
    rw [abs_neg, Nat.abs_cast] at h
    have hm : m < 10 ^ 14 := by exact_mod_cast h
    rw [Int.cast_neg, Int.cast_natCast, tostring_neg_natCast hm0 hm,
      tonumber_minus_of_digits (fun _ hc => isDigit_of_mem_decimal hc)
        (decimal_ne_nil m), ofDecimal_decimal]
    have := roundDouble_intCast (n := (m : ℤ)) (by rw [Nat.abs_cast]; omega)
    rw [Int.cast_natCast] at this
    rw [this]
    rfl

end Number

end Felt
