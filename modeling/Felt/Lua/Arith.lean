import Felt.Lua.Number

/-!
# Counting and indexing

A Lua loop that counts down and a slice between two computed positions do
arithmetic on numbers that are, as far as the program is concerned, counts
and positions. Two readings of that arithmetic matter. In `Arith.ideal` a
count is an integer of any size, which is what a count of things that exist
is. In `Arith.double` it is a double, as the interpreter is configured; the
difference shows only for a count that somebody *wrote* rather than counted,
and there it decides whether a loop ends. An index into a table is such a
number too, written down by whoever counted the entries.

`Arith.double` takes the conversion of a double to a C integer as a
parameter: `lua_number2integer` is a cast, which C leaves undefined outside
the range of the target.

What a proof needs of either is stated as a property of the arithmetic.
`Ends` is that a loop can be left; `Exact` that it counts like the natural
numbers up to a bound, which is enough wherever a count is that of things a
buffer has room for; and `ReadsNumbers` that an index is read like any other
number. Both arithmetics are exact as far as it matters (`exact_ideal`,
`exact_double`), and they differ in `Ends` only (`double_ends_iff`).
-/

namespace Felt

/-- **The arithmetic a loop or a slice is run with.** -/
structure Arith where
  /-- Counts and positions. -/
  Num : Type
  /-- The constant `1`. -/
  one : Num
  /-- What a run of digits is read as. -/
  read : Bytes → Num
  /-- What a text in the place of an index is read as. -/
  index : Bytes → Option Number
  /-- A position the string library hands out. -/
  ofNat : ℕ → Num
  /-- `1 <= n`. -/
  geOne : Num → Bool
  /-- `a + b`. -/
  add : Num → Num → Num
  /-- `a - b`. -/
  sub : Num → Num → Num
  /-- The C integer a position is converted to. -/
  toIndex : Num → ℤ

namespace Arith

/-- Integers of any size. -/
def ideal : Arith where
  Num := ℤ
  one := 1
  read b := ofDecimal b
  index b := if b ≠ [] ∧ b.all isDigit then some (.fin (ofDecimal b)) else Number.tonumber b
  ofNat n := n
  geOne n := 1 ≤ n
  add := (· + ·)
  sub := (· - ·)
  toIndex n := n

/-- Doubles, with a conversion to C integers. -/
def double (number2integer : Number → ℤ) : Arith where
  Num := Number
  one := .fin 1
  read b := roundDouble (ofDecimal b)
  index := Number.tonumber
  ofNat n := roundDouble n
  geOne n := (Number.fin 1).le n
  add := Number.add
  sub := Number.sub
  toIndex := number2integer

/-- **Counting down ends**: `while n >= 1 do n = n - 1 end` leaves its loop
within `k` rounds. -/
def Ends (A : Arith) : ℕ → A.Num → Prop
  | 0, n => A.geOne n = false
  | k + 1, n => A.geOne n = false ∨ A.Ends k (A.sub n A.one)

/-- **Exact up to `n`**: on counts and positions that are no larger, the
arithmetic is that of natural numbers. -/
structure Exact (A : Arith) (n : ℕ) : Prop where
  /-- The constant `1`. -/
  one : A.one = A.ofNat 1
  /-- Digits are read as the number they denote. -/
  read : ∀ b, (∀ c ∈ b, isDigit c = true) → ofDecimal b ≤ n → A.read b = A.ofNat (ofDecimal b)
  /-- `1 <= k`. -/
  geOne : ∀ k, k ≤ n → (A.geOne (A.ofNat k) = true ↔ 1 ≤ k)
  /-- `a + b`. -/
  add : ∀ a b, a + b ≤ n → A.add (A.ofNat a) (A.ofNat b) = A.ofNat (a + b)
  /-- `(a + b) - b`. -/
  sub : ∀ a b, a + b ≤ n → A.sub (A.ofNat (a + b)) (A.ofNat b) = A.ofNat a
  /-- The index of a position. -/
  toIndex : ∀ k, k ≤ n → A.toIndex (A.ofNat k) = k

/-- **What is read in the place of an index is a number.** -/
def ReadsNumbers (A : Arith) : Prop := ∀ b, A.index b ≠ none → Number.tonumber b ≠ none

/-- Runs of digits are numbers. -/
theorem readsNumbers_ideal : ideal.ReadsNumbers := by
  intro b hb
  by_cases hdigits : b ≠ [] ∧ b.all isDigit
  · rw [Number.tonumber_of_digits (List.all_eq_true.mp hdigits.2) hdigits.1]
    nofun
  · rwa [show ideal.index b = Number.tonumber b from if_neg hdigits] at hb

theorem readsNumbers_double (number2integer : Number → ℤ) :
    (double number2integer).ReadsNumbers := fun _ hb => hb

theorem Exact.mono {A : Arith} {m n : ℕ} (h : A.Exact n) (hmn : m ≤ n) : A.Exact m where
  one := h.one
  read b hb hle := h.read b hb (hle.trans hmn)
  geOne k hk := h.geOne k (hk.trans hmn)
  add a b hab := h.add a b (hab.trans hmn)
  sub a b hab := h.sub a b (hab.trans hmn)
  toIndex k hk := h.toIndex k (hk.trans hmn)

/-! ### Ideal counts, as natural numbers -/

@[simp] theorem ideal_one : ideal.one = ideal.ofNat 1 := rfl

@[simp] theorem ideal_read (b : Bytes) : ideal.read b = ideal.ofNat (ofDecimal b) := rfl

@[simp] theorem ideal_index_decimal (n : ℕ) :
    ideal.index (decimal n) = some (.fin n) := by
  have hall : (decimal n).all isDigit = true :=
    List.all_eq_true.mpr (fun _ hc => isDigit_of_mem_decimal hc)
  show (if decimal n ≠ [] ∧ (decimal n).all isDigit = true
    then some (Number.fin (ofDecimal (decimal n))) else _) = _
  rw [if_pos ⟨decimal_ne_nil n, hall⟩, ofDecimal_decimal]

@[simp] theorem ideal_add (m n : ℕ) :
    ideal.add (ideal.ofNat m) (ideal.ofNat n) = ideal.ofNat (m + n) :=
  (Int.natCast_add m n).symm

theorem ideal_sub (m n : ℕ) :
    ideal.sub (ideal.ofNat (m + n)) (ideal.ofNat n) = ideal.ofNat m := by
  show ((m + n : ℕ) : ℤ) - (n : ℤ) = (m : ℤ)
  push_cast
  ring

@[simp] theorem ideal_toIndex (n : ℕ) : ideal.toIndex (ideal.ofNat n) = n := rfl

@[simp] theorem ideal_geOne_zero : ideal.geOne (ideal.ofNat 0) = false := rfl

@[simp] theorem ideal_geOne_succ (n : ℕ) : ideal.geOne (ideal.ofNat (n + 1)) = true := by
  show decide ((1 : ℤ) ≤ ((n + 1 : ℕ) : ℤ)) = true
  exact decide_eq_true (by push_cast; omega)

/-- Integers of any size are exact. -/
theorem exact_ideal (n : ℕ) : ideal.Exact n where
  one := rfl
  read _ _ _ := rfl
  geOne k _ := by
    rcases k with _ | k
    · exact iff_of_false nofun nofun
    · exact iff_of_true (ideal_geOne_succ k) (Nat.succ_pos k)
  add a b _ := ideal_add a b
  sub a b _ := ideal_sub a b
  toIndex k _ := ideal_toIndex k

end Arith

/-- A position as `lstrlib.c` reads it: a negative one counts from the end. -/
def posrelat (p : ℤ) (len : ℕ) : ℤ := max 0 (if p < 0 then p + len + 1 else p)

theorem posrelat_of_nonneg {p : ℤ} (h : 0 ≤ p) (len : ℕ) : posrelat p len = p := by
  rw [posrelat, if_neg (by omega), max_eq_right h]

/-- **`string.sub`**: positions count from one, negative ones from the end,
and what lies outside the string is cut off. -/
def strSub (b : Bytes) (i j : ℤ) : Bytes :=
  let first := max 1 (posrelat i b.length)
  let last := min (b.length : ℤ) (posrelat j b.length)
  if first ≤ last then (b.drop (first - 1).toNat).take (last - first + 1).toNat else []

/-- A slice is no longer than what it is cut from. -/
theorem length_strSub_le (b : Bytes) (i j : ℤ) : (strSub b i j).length ≤ b.length := by
  simp only [strSub]
  split
  · rw [List.length_take, List.length_drop]
    omega
  · exact Nat.zero_le _

/-- **A slice that starts after `pre` and is as long as what stands there.** -/
theorem strSub_append (pre x post : Bytes) :
    strSub (pre ++ x ++ post) (pre.length + 1) (pre.length + x.length) = x := by
  have hlen : ((pre ++ x ++ post).length : ℤ)
      = pre.length + x.length + post.length := by
    simp only [List.length_append]
    push_cast
    rfl
  simp only [strSub]
  rw [posrelat_of_nonneg (by omega), posrelat_of_nonneg (by omega), hlen]
  rcases Nat.eq_zero_or_pos x.length with hx | hx
  · rw [if_neg (by omega), List.length_eq_zero_iff.mp hx]
  · rw [if_pos (by omega), List.append_assoc,
      show (max 1 ((pre.length : ℤ) + 1) - 1).toNat = pre.length from by omega,
      List.drop_left,
      show (min ((pre.length : ℤ) + x.length + post.length) (pre.length + x.length)
        - max 1 ((pre.length : ℤ) + 1) + 1).toNat = x.length from by omega,
      List.take_left]

/-! ## Counting down

A double counts down by one as an integer does until it reaches `2 ^ 53`.
Above, one is less than half of its last bit or exactly half of it, and
subtracting it comes back to where it was – except at `2 ^ 53 + 2`, whose
neighbour below is the even one. -/

namespace Number

/-- Counting down is the integers' as long as the count is exact. -/
theorem sub_one_of_le {n : ℤ} (h0 : 0 ≤ n) (h : n ≤ 2 ^ 53) :
    (fin n).sub (fin 1) = fin (n - 1 : ℤ) := by
  show roundDouble ((n : ℚ) + -1) = fin (n - 1 : ℤ)
  have hcast : (n : ℚ) + -1 = ((n - 1 : ℤ) : ℚ) := by push_cast; ring
  rw [hcast]
  exact Felt.roundDouble_intCast (by rw [abs_le]; omega)

theorem roundHalfEven_eq_of_lt {q : ℚ} {m : ℤ} (h1 : (m : ℚ) - 1 / 2 < q)
    (h2 : q ≤ m) : roundHalfEven q = m := by
  unfold roundHalfEven
  rcases eq_or_lt_of_le h2 with rfl | hlt
  · simp
  · have hf : ⌊q⌋ = m - 1 := Int.floor_eq_iff.mpr ⟨by push_cast; linarith, by
      push_cast; linarith⟩
    simp only [hf]
    rw [if_neg (by push_cast; linarith), if_pos (by push_cast; linarith)]
    ring

/-- Half way below an integer is rounded to whichever of it and the one
below is even. -/
theorem roundHalfEven_sub_half (m : ℤ) :
    roundHalfEven ((m : ℚ) - 1 / 2) = if m % 2 = 0 then m else m - 1 := by
  have hf : ⌊(m : ℚ) - 1 / 2⌋ = m - 1 := Int.floor_eq_iff.mpr
    ⟨by push_cast; linarith, by push_cast; linarith⟩
  simp only [roundHalfEven, hf]
  rw [if_neg (by push_cast; linarith), if_neg (by push_cast; linarith)]
  by_cases hm : m % 2 = 0
  · rw [if_neg (by omega), if_pos hm]
    ring
  · rw [if_pos (by omega), if_neg hm]

/-- An even integer is reached from half way below it. -/
theorem le_roundHalfEven_of_even {q : ℚ} {m : ℤ} (hm : m % 2 = 0)
    (h : (m : ℚ) - 1 / 2 ≤ q) : m ≤ roundHalfEven q := by
  rcases le_or_gt (m : ℚ) q with hq | hq
  · exact le_roundHalfEven hq
  · rcases eq_or_lt_of_le h with heq | hlt
    · rw [← heq, roundHalfEven_sub_half, if_pos hm]
    · exact (roundHalfEven_eq_of_lt hlt hq.le).ge

/-- The last bit of a number between two powers of two. -/
theorem lastBit_eq {q : ℚ} {e : ℕ} (h1 : 2 ^ (52 + e) ≤ q) (h2 : q < 2 ^ (53 + e)) :
    lastBit q = e := by
  have hpos : 0 < q := lt_of_lt_of_le (by positivity) h1
  have hlog : Int.log 2 q = ((52 + e : ℕ) : ℤ) := by
    refine le_antisymm ?_ ?_
    · refine Int.lt_add_one_iff.mp ((Int.lt_zpow_iff_log_lt (by norm_num) hpos).mp ?_)
      rw [show ((52 + e : ℕ) : ℤ) + 1 = ((53 + e : ℕ) : ℤ) from by push_cast; ring,
        zpow_natCast]
      exact_mod_cast h2
    · refine (Int.zpow_le_iff_le_log (by norm_num) hpos).mp ?_
      rw [zpow_natCast]
      exact_mod_cast h1
  rw [lastBit, abs_of_pos hpos, hlog]
  push_cast
  omega

/-- **A count that is never counted down**: an infinity, or a double of at
least `2 ^ 53 + 4`, written with 53 significant bits. -/
def Endless (v : Number) : Prop :=
  v = inf false ∨ ∃ m e : ℕ, v = fin ((m * 2 ^ e : ℕ) : ℚ) ∧ 2 ^ 52 ≤ m ∧ m < 2 ^ 53
    ∧ 2 ^ 53 + 4 ≤ m * 2 ^ e ∧ m * 2 ^ e < doubleLimit

/-- **An endless count is never below one.** -/
theorem Endless.one_le {v : Number} (h : Endless v) : (fin 1).le v = true := by
  rcases h with rfl | ⟨m, e, rfl, -, -, hbig, -⟩
  · rfl
  · refine decide_eq_true ?_
    have h1 : 1 ≤ m * 2 ^ e := by omega
    exact_mod_cast h1

/-- Rounding one less than `m * 2 ^ e` where the last bit does not change. -/
theorem roundDouble_pred {m e k : ℕ} (hk : lastBit (((m * 2 ^ e : ℕ) : ℚ) - 1) = e)
    (hround : roundHalfEven ((m : ℚ) - 1 / 2 ^ e) = k) (hbound : k * 2 ^ e < doubleLimit) :
    roundDouble (((m * 2 ^ e : ℕ) : ℚ) - 1) = fin ((k * 2 ^ e : ℕ) : ℚ) := by
  have hdiv : (((m * 2 ^ e : ℕ) : ℚ) - 1) / 2 ^ (e : ℤ) = m - 1 / 2 ^ e := by
    rw [zpow_natCast]
    push_cast
    field_simp
  unfold roundDouble
  simp only [hk, hdiv, hround]
  rw [if_neg]
  · rw [zpow_natCast]
    push_cast
    rfl
  · rw [not_le, zpow_natCast, abs_of_nonneg (by positivity)]
    exact_mod_cast hbound

/-- **Counting an endless count down by one leaves it endless.** -/
theorem Endless.sub_one {v : Number} (h : Endless v) : Endless (v.sub (fin 1)) := by
  rcases h with rfl | ⟨m, e, rfl, hm1, hm2, hbig, hsmall⟩
  · exact Or.inl rfl
  have hsub : (fin ((m * 2 ^ e : ℕ) : ℚ)).sub (fin 1)
      = roundDouble (((m * 2 ^ e : ℕ) : ℚ) - 1) := by
    show roundDouble (((m * 2 ^ e : ℕ) : ℚ) + -1) = _
    rw [← sub_eq_add_neg]
  have he : 1 ≤ e := by
    by_contra h0
    have : e = 0 := by omega
    subst this
    omega
  have hpow : (2 : ℕ) ^ 1 ≤ 2 ^ e := Nat.pow_le_pow_right (by omega) he
  rw [hsub]
  rcases Nat.eq_or_lt_of_le hm1 with heq | hlt
  · -- a power of two: the last bit of the number below is half as large
    subst heq
    obtain ⟨d, rfl⟩ : ∃ d, e = d + 1 := ⟨e - 1, by omega⟩
    have hd : 1 ≤ d := by
      by_contra h0
      have : d = 0 := by omega
      subst this
      omega
    have hrepr : 2 ^ 52 * 2 ^ (d + 1) = 2 ^ 53 * 2 ^ d := by ring
    have hlast : lastBit (((2 ^ 53 * 2 ^ d : ℕ) : ℚ) - 1) = d := by
      refine lastBit_eq ?_ ?_
      · have : 2 ^ (52 + d) + 1 ≤ 2 ^ 53 * 2 ^ d := by
          rw [pow_add]
          have := Nat.one_le_two_pow (n := d)
          omega
        have hq : ((2 ^ (52 + d) + 1 : ℕ) : ℚ) ≤ ((2 ^ 53 * 2 ^ d : ℕ) : ℚ) := by
          exact_mod_cast this
        push_cast at hq ⊢
        linarith
      · push_cast
        rw [pow_add]
        linarith
    have hround : roundHalfEven (((2 ^ 53 : ℕ) : ℚ) - 1 / 2 ^ d) = (2 ^ 53 : ℕ) := by
      rcases Nat.eq_or_lt_of_le hd with h1 | h1
      · rw [← h1, pow_one]
        have := roundHalfEven_sub_half ((2 ^ 53 : ℕ) : ℤ)
        rw [Int.cast_natCast] at this
        rw [this, if_pos (by norm_num)]
      · have h4 : (2 : ℚ) ^ 2 ≤ 2 ^ d := pow_le_pow_right₀ (by norm_num) h1
        have hle : (1 : ℚ) / 2 ^ d ≤ 1 / 2 ^ 2 :=
          one_div_le_one_div_of_le (by positivity) h4
        have hpos : (0 : ℚ) < 1 / 2 ^ d := by positivity
        refine roundHalfEven_eq_of_lt ?_ ?_
        · rw [Int.cast_natCast]
          linarith
        · rw [Int.cast_natCast]
          linarith
    rw [hrepr] at hbig hsmall ⊢
    rw [roundDouble_pred hlast hround hsmall, ← hrepr]
    rw [← hrepr] at hbig hsmall
    exact Or.inr ⟨2 ^ 52, d + 1, rfl, le_refl _, by norm_num, hbig, hsmall⟩
  · -- otherwise the last bit stays, and at most the odd last digit goes
    have hlast : lastBit (((m * 2 ^ e : ℕ) : ℚ) - 1) = e := by
      refine lastBit_eq ?_ ?_
      · have : 2 ^ (52 + e) + 1 ≤ m * 2 ^ e := by
          rw [pow_add]
          calc 2 ^ 52 * 2 ^ e + 1 ≤ 2 ^ 52 * 2 ^ e + 2 ^ e := by omega
            _ = (2 ^ 52 + 1) * 2 ^ e := by ring
            _ ≤ m * 2 ^ e := Nat.mul_le_mul_right _ hlt
        have hq : ((2 ^ (52 + e) + 1 : ℕ) : ℚ) ≤ ((m * 2 ^ e : ℕ) : ℚ) := by
          exact_mod_cast this
        push_cast at hq ⊢
        linarith
      · have : m * 2 ^ e < 2 ^ (53 + e) := by
          rw [pow_add]
          exact Nat.mul_lt_mul_of_pos_right hm2 (by positivity)
        have hq : ((m * 2 ^ e : ℕ) : ℚ) < ((2 ^ (53 + e) : ℕ) : ℚ) := by
          exact_mod_cast this
        push_cast at hq ⊢
        linarith
    rcases Nat.eq_or_lt_of_le he with h1 | h1
    · subst h1
      have hround := roundHalfEven_sub_half ((m : ℕ) : ℤ)
      rw [Int.cast_natCast] at hround
      by_cases hm : m % 2 = 0
      · rw [if_pos (by omega)] at hround
        rw [roundDouble_pred hlast (by rw [pow_one]; exact hround) hsmall]
        exact Or.inr ⟨m, 1, rfl, hm1, hm2, hbig, hsmall⟩
      · rw [if_neg (by omega), show (m : ℤ) - 1 = ((m - 1 : ℕ) : ℤ) from by omega] at hround
        rw [roundDouble_pred hlast (by rw [pow_one]; exact hround) (by omega)]
        exact Or.inr ⟨m - 1, 1, rfl, by omega, by omega, by omega, by omega⟩
    · have h4 : (2 : ℚ) ^ 2 ≤ 2 ^ e := pow_le_pow_right₀ (by norm_num) h1
      have hle : (1 : ℚ) / 2 ^ e ≤ 1 / 2 ^ 2 :=
        one_div_le_one_div_of_le (by positivity) h4
      have hpos : (0 : ℚ) < 1 / 2 ^ e := by positivity
      have hround : roundHalfEven ((m : ℚ) - 1 / 2 ^ e) = m :=
        roundHalfEven_eq_of_lt (by rw [Int.cast_natCast]; linarith)
          (by rw [Int.cast_natCast]; linarith)
      rw [roundDouble_pred hlast hround hsmall]
      exact Or.inr ⟨m, e, rfl, hm1, hm2, hbig, hsmall⟩

theorem roundDouble_natCast {n : ℕ} (h : n ≤ 2 ^ 53) : roundDouble n = fin n := by
  have := roundDouble_intCast (n := (n : ℤ)) (by rw [Nat.abs_cast]; omega)
  simpa using this

/-- **From `2 ^ 53 + 3` on, a numeral is read as an endless count.** -/
theorem endless_roundDouble {n : ℕ} (h : 2 ^ 53 + 3 ≤ n) : Endless (roundDouble n) := by
  have hn : n ≠ 0 := by omega
  obtain ⟨e, he⟩ : ∃ e, Nat.log 2 n = 52 + e := by
    have : 53 ≤ Nat.log 2 n := Nat.le_log_of_pow_le (by omega) (by omega)
    exact ⟨Nat.log 2 n - 52, by omega⟩
  have hlo : 2 ^ (52 + e) ≤ n := he ▸ Nat.pow_log_le_self 2 hn
  have hhi : n < 2 ^ (53 + e) := by
    have := Nat.lt_pow_succ_log_self (b := 2) (by omega) n
    rwa [he, show (52 + e).succ = 53 + e from by omega] at this
  have he1 : 1 ≤ e := by
    by_contra h0
    have : e = 0 := by omega
    subst this
    omega
  have hlast : lastBit (n : ℚ) = e :=
    lastBit_eq (by exact_mod_cast hlo) (by exact_mod_cast hhi)
  have hpow : (0 : ℚ) < 2 ^ e := by positivity
  have hdlo : (((2 ^ 52 : ℕ) : ℤ) : ℚ) ≤ (n : ℚ) / 2 ^ e := by
    rw [le_div_iff₀ hpow]
    have : ((2 ^ 52 * 2 ^ e : ℕ) : ℚ) ≤ n := by
      rw [← pow_add]
      exact_mod_cast hlo
    push_cast at this ⊢
    exact this
  have hdhi : (n : ℚ) / 2 ^ e ≤ (((2 ^ 53 : ℕ) : ℤ) : ℚ) := by
    rw [div_le_iff₀ hpow]
    have : (n : ℚ) ≤ ((2 ^ 53 * 2 ^ e : ℕ) : ℚ) := by
      rw [← pow_add]
      exact_mod_cast hhi.le
    push_cast at this ⊢
    exact this
  obtain ⟨m, hm⟩ : ∃ m : ℕ, roundHalfEven ((n : ℚ) / 2 ^ e) = m :=
    Int.eq_ofNat_of_zero_le (by
      have := le_roundHalfEven hdlo
      omega)
  have hm1 : 2 ^ 52 ≤ m := by
    have := le_roundHalfEven hdlo
    omega
  have hm2 : m ≤ 2 ^ 53 := by
    have := roundHalfEven_le hdhi
    omega
  have hbig : 2 ^ 53 + 4 ≤ m * 2 ^ e := by
    rcases Nat.eq_or_lt_of_le he1 with h1 | h1
    · subst h1
      have hhalf : (((2 ^ 52 + 2 : ℕ) : ℤ) : ℚ) - 1 / 2 ≤ (n : ℚ) / 2 ^ 1 := by
        have : ((2 ^ 53 + 3 : ℕ) : ℚ) ≤ n := by exact_mod_cast h
        push_cast at this ⊢
        linarith
      have := le_roundHalfEven_of_even (by norm_num) hhalf
      omega
    · calc 2 ^ 53 + 4 ≤ 2 ^ 52 * 2 ^ 2 := by norm_num
        _ ≤ m * 2 ^ e := Nat.mul_le_mul hm1 (Nat.pow_le_pow_right (by omega) h1)
  unfold roundDouble
  simp only [hlast, zpow_natCast, hm]
  rw [show (((m : ℕ) : ℤ) : ℚ) * 2 ^ e = ((m * 2 ^ e : ℕ) : ℚ) from by push_cast; rfl,
    abs_of_nonneg (by positivity)]
  by_cases hlim : doubleLimit ≤ m * 2 ^ e
  · rw [if_pos (by exact_mod_cast hlim), decide_eq_false (by simp)]
    exact Or.inl rfl
  · rw [if_neg (by exact_mod_cast hlim)]
    refine Or.inr ?_
    rcases Nat.eq_or_lt_of_le hm2 with heq | hlt
    · -- rounded up to the next power of two
      refine ⟨2 ^ 52, e + 1, ?_, le_refl _, by norm_num, ?_, ?_⟩
      · rw [heq]
        congr 2
        ring
      · rw [heq] at hbig
        calc 2 ^ 53 + 4 ≤ 2 ^ 53 * 2 ^ e := hbig
          _ = 2 ^ 52 * 2 ^ (e + 1) := by ring
      · rw [heq] at hlim
        calc 2 ^ 52 * 2 ^ (e + 1) = 2 ^ 53 * 2 ^ e := by ring
          _ < doubleLimit := not_le.mp hlim
    · exact ⟨m, e, rfl, hm1, hlt, hbig, not_le.mp hlim⟩

end Number

namespace Arith

open Number

theorem double_ends_natCast (c : Number → ℤ) {n : ℕ} (h : n ≤ 2 ^ 53) :
    (double c).Ends n (fin n) := by
  induction n with
  | zero => rfl
  | succ n ih =>
    refine Or.inr ?_
    have hsub := sub_one_of_le (n := ((n + 1 : ℕ) : ℤ)) (by omega) (by omega)
    rw [Int.cast_natCast, show ((n + 1 : ℕ) : ℤ) - 1 = n from by push_cast; ring,
      Int.cast_natCast] at hsub
    show (double c).Ends n ((fin ((n + 1 : ℕ) : ℚ)).sub (fin 1))
    rw [hsub]
    exact ih (by omega)

theorem not_ends_of_endless (c : Number → ℤ) {v : Number} (h : Endless v) (k : ℕ) :
    ¬ (double c).Ends k v := by
  induction k generalizing v with
  | zero =>
    intro hk
    exact Bool.noConfusion (h.one_le.symm.trans hk)
  | succ k ih =>
    rintro (hk | hk)
    · exact Bool.noConfusion (h.one_le.symm.trans hk)
    · exact ih h.sub_one hk

/-- **Which numerals a double can count down from**: those up to
`2 ^ 53 + 2`. -/
theorem double_ends_iff (c : Number → ℤ) (n : ℕ) :
    (∃ k, (double c).Ends k (roundDouble n)) ↔ n ≤ 2 ^ 53 + 2 := by
  constructor
  · rintro ⟨k, hk⟩
    by_contra hn
    exact not_ends_of_endless c (endless_roundDouble (by omega)) k hk
  · intro hn
    rcases Nat.lt_or_ge (2 ^ 53) n with hlt | hle
    · -- the two numerals above `2 ^ 53` whose count still reaches it
      have hlast : ∀ k, (double c).Ends k (fin ((2 ^ 53 : ℕ) : ℚ)) →
          ∃ k, (double c).Ends k (roundDouble n) := by
        intro k hk
        rcases (by omega : n = 2 ^ 53 + 1 ∨ n = 2 ^ 53 + 2) with rfl | rfl
        · refine ⟨k, ?_⟩
          rw [show roundDouble ((2 ^ 53 + 1 : ℕ) : ℚ) = fin ((2 ^ 53 : ℕ) : ℚ) from by
            decide +kernel]
          exact hk
        · refine ⟨k + 1, Or.inr ?_⟩
          show (double c).Ends k ((roundDouble ((2 ^ 53 + 2 : ℕ) : ℚ)).sub (fin 1))
          rw [show (roundDouble ((2 ^ 53 + 2 : ℕ) : ℚ)).sub (fin 1)
            = fin ((2 ^ 53 : ℕ) : ℚ) from by decide +kernel]
          exact hk
      exact hlast _ (double_ends_natCast c (le_refl _))
    · rw [roundDouble_natCast hle]
      exact ⟨n, double_ends_natCast c hle⟩

/-- **Doubles are exact up to `2 ^ 53`**, if such a position is converted to
the C integer it is. -/
theorem exact_double {c : Number → ℤ} (hc : ∀ k : ℕ, k ≤ 2 ^ 53 → c (fin k) = k) {n : ℕ}
    (hn : n ≤ 2 ^ 53) : (double c).Exact n where
  one := (roundDouble_natCast (n := 1) (by norm_num)).symm.trans rfl
  read _ _ _ := rfl
  geOne k hk := by
    show (fin 1).le (roundDouble k) = true ↔ _
    rw [roundDouble_natCast (hk.trans hn)]
    show decide ((1 : ℚ) ≤ (k : ℚ)) = true ↔ _
    rw [decide_eq_true_iff]
    exact_mod_cast Iff.rfl
  add a b hab := by
    show (roundDouble a).add (roundDouble b) = roundDouble ((a + b : ℕ) : ℚ)
    rw [roundDouble_natCast (by omega), roundDouble_natCast (n := b) (by omega)]
    show roundDouble ((a : ℚ) + b) = _
    rw [Nat.cast_add]
  sub a b hab := by
    show (roundDouble ((a + b : ℕ) : ℚ)).sub (roundDouble b) = roundDouble a
    rw [roundDouble_natCast (hab.trans hn), roundDouble_natCast (n := b) (by omega)]
    show roundDouble (((a + b : ℕ) : ℚ) + -b) = _
    rw [Nat.cast_add, add_neg_cancel_right]
  toIndex k hk := by
    show c (roundDouble k) = k
    rw [roundDouble_natCast (hk.trans hn)]
    exact hc k (hk.trans hn)

end Arith

end Felt
