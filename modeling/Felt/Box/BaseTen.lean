import Felt.Lua.Numeral

/-!
# Numbers in base ten

What the format of a box calls the base ten number is digits, with a fraction
and an exponent if there are any. `tonumber` reads more than that: blanks
around a number, hexadecimal digits, words in capitals, brackets behind a NaN,
and whatever stands behind a NUL. None of these can be written with the bytes
of a number in base ten, though (`isPlainByte`), and what `tonumber` reads out
of these bytes alone is a number in base ten (`baseTen_of_tonumber`).

Each of the functions `tonumber` is made of says what it has read: the bytes it
leaves stand behind a sign, a mantissa, an exponent or a word.

The words are `inf` and `nan`, which the encoder writes for numbers that are not
finite. They are counted among the numbers in base ten here, as a box with one of
them in it is what `box.pack` writes; a box may have them with any sign.
-/

namespace Felt

namespace Box

open Number

/-! ## The format -/

/-- A sign, or none. -/
def IsSign (b : Bytes) : Prop := b = [] ∨ b = bytes "-" ∨ b = bytes "+"

/-- **A number in base ten**: digits, with a fraction and an exponent if there
are any, or one of the words for what is no finite number. -/
inductive BaseTen : Bytes → Prop where
  /-- Digits. -/
  | digits {sign ds frac exp : Bytes} (hsign : IsSign sign)
      (hds : ∀ c ∈ ds, isDigit c = true)
      (hfrac : frac = [] ∨ ∃ fs, frac = 46 :: fs ∧ ∀ c ∈ fs, isDigit c = true)
      (hne : ds ≠ [] ∨ 2 ≤ frac.length)
      (hexp : exp = [] ∨ ∃ e s es, exp = e :: (s ++ es) ∧ (e = 69 ∨ e = 101) ∧ IsSign s
        ∧ es ≠ [] ∧ ∀ c ∈ es, isDigit c = true) : BaseTen (sign ++ (ds ++ (frac ++ exp)))
  /-- An infinity. -/
  | inf {sign : Bytes} (hsign : IsSign sign) : BaseTen (sign ++ bytes "inf")
  /-- Not a number. -/
  | nan {sign : Bytes} (hsign : IsSign sign) : BaseTen (sign ++ bytes "nan")

/-! ## Plain bytes -/

/-- A byte of a number in base ten, or of one of the words. -/
def isPlainByte (c : UInt8) : Bool := isDigit c || (bytes "+-.eEinfa").contains c

theorem isPlainByte_iff (c : UInt8) :
    isPlainByte c = true ↔ isDigit c = true ∨ c ∈ bytes "+-.eEinfa" := by
  unfold isPlainByte
  rw [Bool.or_eq_true, List.contains_iff_mem]

theorem IsSign.plain {s : Bytes} (h : IsSign s) : ∀ c ∈ s, isPlainByte c = true := by
  rcases h with rfl | rfl | rfl <;> exact List.all_eq_true.mp rfl

theorem plain_of_digits {ds : Bytes} (h : ∀ c ∈ ds, isDigit c = true) :
    ∀ c ∈ ds, isPlainByte c = true := fun c hc => (isPlainByte_iff c).mpr (Or.inl (h c hc))

/-- A number in base ten is written with plain bytes. -/
theorem BaseTen.plain {b : Bytes} (h : BaseTen b) : ∀ c ∈ b, isPlainByte c = true := by
  cases h with
  | digits hsign hds hfrac _ hexp =>
    refine List.forall_mem_append.mpr ⟨hsign.plain, List.forall_mem_append.mpr
      ⟨plain_of_digits hds, List.forall_mem_append.mpr ⟨?_, ?_⟩⟩⟩
    · rcases hfrac with rfl | ⟨fs, rfl, hfs⟩
      · exact fun _ hc => absurd hc List.not_mem_nil
      · exact List.forall_mem_cons.mpr ⟨rfl, plain_of_digits hfs⟩
    · rcases hexp with rfl | ⟨e, s, es, rfl, he, hs, -, hes⟩
      · exact fun _ hc => absurd hc List.not_mem_nil
      · refine List.forall_mem_cons.mpr ⟨?_, List.forall_mem_append.mpr
          ⟨hs.plain, plain_of_digits hes⟩⟩
        rcases he with rfl | rfl <;> rfl
  | inf hsign => exact List.forall_mem_append.mpr ⟨hsign.plain, List.all_eq_true.mp rfl⟩
  | nan hsign => exact List.forall_mem_append.mpr ⟨hsign.plain, List.all_eq_true.mp rfl⟩

/-- **What a plain byte is not**: the end of a string, a blank, a bracket, or
a capital other than `E`, or a letter of another word. -/
theorem of_isPlainByte {c : UInt8} (hc : isPlainByte c = true) :
    c ≠ 0 ∧ isSpace c = false ∧ c ≠ 40 ∧ (c ≠ 69 → lower c = c) ∧ lower c ≠ 116
      ∧ lower c ≠ 120 := by
  rcases (isPlainByte_iff c).mp hc with hd | hw
  · have h57 := (isDigit_iff c).mp hd
    have hlower : lower c = c := if_neg (fun h => by
      have h65 : 65 ≤ c.toNat := UInt8.le_iff_toNat_le.mp h.1
      omega)
    rw [hlower]
    exact ⟨ne_of_isDigit hd rfl, isSpace_of_isDigit hd, ne_of_isDigit hd rfl, fun _ => rfl,
      ne_of_isDigit hd rfl, ne_of_isDigit hd rfl⟩
  · have hall : (bytes "+-.eEinfa").all (fun c => decide (c ≠ 0 ∧ isSpace c = false ∧ c ≠ 40
        ∧ (c ≠ 69 → lower c = c) ∧ lower c ≠ 116 ∧ lower c ≠ 120)) = true := by decide
    exact of_decide_eq_true (List.all_eq_true.mp hall c hw)

/-! ## What is read -/

/-- A sign that is read is a sign. -/
theorem scanSign_sound (b : Bytes) : ∃ s, IsSign s ∧ b = s ++ (scanSign b).2 := by
  unfold scanSign
  split
  · exact ⟨bytes "-", Or.inr (Or.inl rfl), rfl⟩
  · exact ⟨bytes "+", Or.inr (Or.inr rfl), rfl⟩
  · exact ⟨[], Or.inl rfl, rfl⟩

/-- An exponent that is read is one in base ten, or there is none. -/
theorem scanExponent_sound (b : Bytes) : ∃ exp, b = exp ++ (scanExponent (bytes "eE") b).2
    ∧ (exp = [] ∨ ∃ e s es, exp = e :: (s ++ es) ∧ (e = 69 ∨ e = 101) ∧ IsSign s
      ∧ es ≠ [] ∧ ∀ c ∈ es, isDigit c = true) := by
  rcases b with _ | ⟨c, b⟩
  · exact ⟨[], rfl, Or.inl rfl⟩
  obtain ⟨s, hs, hb⟩ := scanSign_sound b
  by_cases hc : c ∈ bytes "eE"
  · by_cases hds : (scanSign b).2.takeWhile isDigit = []
    · refine ⟨[], ?_, Or.inl rfl⟩
      simp [scanExponent, hc, hds]
    · have he : c = 101 ∨ c = 69 := by simpa [bytes] using hc
      refine ⟨c :: (s ++ (scanSign b).2.takeWhile isDigit), ?_, Or.inr ⟨c, s, _, rfl, he.symm, hs,
        hds, fun d hd => List.mem_takeWhile_imp hd⟩⟩
      have hr : (scanExponent (bytes "eE") (c :: b)).2 = (scanSign b).2.dropWhile isDigit := by
        simp [scanExponent, hc, hds]
      rw [hr, List.cons_append, List.append_assoc, List.takeWhile_append_dropWhile, ← hb]
  · refine ⟨[], ?_, Or.inl rfl⟩
    simp [scanExponent, hc]

/-- Digits that are read, and the fraction behind them. -/
theorem scanMantissa_sound {b ds fs r : Bytes} (h : scanMantissa isDigit b = (ds, fs, r)) :
    (∀ c ∈ ds, isDigit c = true) ∧ (∀ c ∈ fs, isDigit c = true)
      ∧ ∃ frac, b = ds ++ (frac ++ r) ∧ (frac = [] ∧ fs = [] ∨ frac = 46 :: fs) := by
  unfold scanMantissa at h
  simp only at h
  split at h
  · next r' hr =>
    obtain ⟨rfl, rfl, rfl⟩ : b.takeWhile isDigit = ds ∧ r'.takeWhile isDigit = fs
        ∧ r'.dropWhile isDigit = r := by simpa using h
    refine ⟨fun _ hc => List.mem_takeWhile_imp hc, fun _ hc => List.mem_takeWhile_imp hc,
      46 :: r'.takeWhile isDigit,
      ?_, Or.inr rfl⟩
    rw [List.cons_append, List.takeWhile_append_dropWhile, ← hr, List.takeWhile_append_dropWhile]
  · obtain ⟨rfl, rfl, rfl⟩ : b.takeWhile isDigit = ds ∧ [] = fs ∧ b.dropWhile isDigit = r := by
      simpa using h
    exact ⟨fun _ hc => List.mem_takeWhile_imp hc, fun _ hc => absurd hc List.not_mem_nil, [],
      by simp, Or.inl ⟨rfl, rfl⟩⟩

/-- **A decimal constant that is read** is a number in base ten, with any sign
in front of it. -/
theorem scanDecimal_sound {sign b r : Bytes} (hsign : IsSign sign) {q : ℚ}
    (h : scanDecimal b = some (q, r)) : ∃ x, b = x ++ r ∧ BaseTen (sign ++ x) := by
  unfold scanDecimal at h
  rcases hm : scanMantissa isDigit b with ⟨ds, fs, rest⟩
  obtain ⟨hds, hfs, frac, rfl, hfrac⟩ := scanMantissa_sound hm
  obtain ⟨exp, hr, hexp⟩ := scanExponent_sound rest
  simp only [hm] at h
  split_ifs at h with hnone
  obtain ⟨-, rfl⟩ := Prod.mk.inj (Option.some.inj h)
  refine ⟨ds ++ (frac ++ exp), ?_, .digits hsign hds ?_ ?_ hexp⟩
  · conv_lhs => rw [hr]
    simp only [List.append_assoc]
  · rcases hfrac with ⟨rfl, -⟩ | rfl
    · exact Or.inl rfl
    · exact Or.inr ⟨fs, rfl, hfs⟩
  · by_cases hd : ds = []
    · rcases hfrac with ⟨-, rfl⟩ | rfl
      · exact absurd ⟨hd, rfl⟩ hnone
      · have hpos := List.length_pos_iff.mpr (fun hf => hnone ⟨hd, hf⟩)
        exact Or.inr (by rw [List.length_cons]; omega)
    · exact Or.inl hd

/-- A word with a letter that is not plain is none. -/
theorem scanWord_eq_none {w b : Bytes} (hb : ∀ c ∈ b, isPlainByte c = true) {k : UInt8}
    (hk : k ∈ w) (hplain : ∀ c, isPlainByte c = true → lower c ≠ k) : scanWord w b = none := by
  refine if_neg (fun h => ?_)
  rw [← h] at hk
  obtain ⟨c, hc, hlow⟩ := List.mem_map.mp hk
  exact hplain c (hb c (List.mem_of_mem_take hc)) hlow

/-- **A word without an `e` that is read** out of plain bytes is there as it
is. -/
theorem scanWord_sound {w b r : Bytes} (hb : ∀ c ∈ b, isPlainByte c = true)
    (hw : (101 : UInt8) ∉ w) (h : scanWord w b = some r) : b = w ++ r := by
  unfold scanWord at h
  split_ifs at h with hword
  have hsame : ∀ c ∈ b.take w.length, lower c = c := fun c hc => by
    refine (of_isPlainByte (hb c (List.mem_of_mem_take hc))).2.2.2.1 (fun h69 => hw ?_)
    rw [← hword]
    exact List.mem_map.mpr ⟨c, hc, by rw [h69]; rfl⟩
  rw [List.map_congr_left hsame, List.map_id'] at hword
  rw [← Option.some.inj h]
  conv_lhs => rw [← List.take_append_drop w.length b, hword]

/-- Plain bytes are no blanks. -/
theorem dropWhile_isSpace_plain {b : Bytes} (hb : ∀ c ∈ b, isPlainByte c = true) :
    b.dropWhile isSpace = b := by
  rcases b with _ | ⟨c, b⟩
  · rfl
  · exact List.dropWhile_cons_of_neg (by simp [(of_isPlainByte (hb c List.mem_cons_self)).2.1])

/-- Plain bytes have no brackets. -/
theorem scanPayload_plain {b : Bytes} (hb : ∀ c ∈ b, isPlainByte c = true) :
    scanPayload b = b := by
  rcases b with _ | ⟨c, b⟩
  · rfl
  · exact if_neg (of_isPlainByte (hb c List.mem_cons_self)).2.2.1

/-- **A constant that is read out of plain bytes** is a number in base ten. -/
theorem scanUnsigned_sound {sign b r : Bytes} (hsign : IsSign sign)
    (hb : ∀ c ∈ b, isPlainByte c = true) {n : Number} (h : scanUnsigned b = some (n, r)) :
    ∃ x, b = x ++ r ∧ BaseTen (sign ++ x) := by
  have hhex : scanWord (bytes "0x") b = none :=
    scanWord_eq_none hb (show (120 : UInt8) ∈ bytes "0x" by decide)
      (fun c hc => (of_isPlainByte hc).2.2.2.2.2)
  have hlong : scanWord (bytes "infinity") b = none :=
    scanWord_eq_none hb (show (116 : UInt8) ∈ bytes "infinity" by decide)
      (fun c hc => (of_isPlainByte hc).2.2.2.2.1)
  unfold scanUnsigned at h
  simp only [hhex, hlong, Option.bind_none] at h
  rcases hdec : scanDecimal b with _ | ⟨q, r'⟩
  · rcases hinf : scanWord (bytes "inf") b with _ | r'
    · simp only [hdec, hinf] at h
      obtain ⟨r', hnan, hpayload⟩ := Option.map_eq_some_iff.mp h
      have hword := scanWord_sound hb (by decide) hnan
      have hr' : ∀ c ∈ r', isPlainByte c = true := fun c hc =>
        hb c (by rw [hword]; exact List.mem_append_right _ hc)
      rw [scanPayload_plain hr'] at hpayload
      obtain ⟨-, rfl⟩ := Prod.mk.inj hpayload
      exact ⟨_, hword, .nan hsign⟩
    · simp only [hdec, hinf] at h
      obtain ⟨-, rfl⟩ := Prod.mk.inj (Option.some.inj h)
      exact ⟨_, scanWord_sound hb (by decide) hinf, .inf hsign⟩
  · simp only [hdec] at h
    obtain ⟨-, rfl⟩ := Prod.mk.inj (Option.some.inj h)
    exact scanDecimal_sound hsign hdec

/-- **Plain bytes that `tonumber` reads are a number in base ten.** -/
theorem baseTen_of_tonumber {b : Bytes} (hb : ∀ c ∈ b, isPlainByte c = true)
    (h : tonumber b ≠ none) : BaseTen b := by
  have hzero : b.takeWhile (· ≠ 0) = b :=
    List.takeWhile_eq_self_iff.mpr (fun c hc => by simpa using (of_isPlainByte (hb c hc)).1)
  obtain ⟨sign, hsign, hsplit⟩ := scanSign_sound b
  have hr : ∀ c ∈ (scanSign b).2, isPlainByte c = true := fun c hc =>
    hb c (by rw [hsplit]; exact List.mem_append_right _ hc)
  unfold tonumber at h
  rw [hzero, dropWhile_isSpace_plain hb] at h
  rcases hscan : scanUnsigned (scanSign b).2 with _ | ⟨n, rest⟩
  · simp [hscan] at h
  · obtain ⟨x, hx, hten⟩ := scanUnsigned_sound hsign hr hscan
    -- what is behind the constant would have to be blanks
    have hspace : rest.dropWhile isSpace = rest := dropWhile_isSpace_plain (fun c hc => hr c (by
      rw [hx]
      exact List.mem_append_right _ hc))
    have hrest : rest = [] := by
      by_contra hne
      simp [hscan, hspace, hne] at h
    rw [hsplit, hx, hrest, List.append_nil]
    exact hten

end Box

end Felt
