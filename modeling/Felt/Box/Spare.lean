import Felt.Box.BaseTen
import Felt.Box.Toc

/-!
# What a decoder passes over

The decoder takes of a message what it needs and does not look at the rest. Of
a table of contents it takes the count, and as many lengths as that says or as
there are; bytes in front of a numeral, and bytes behind the last element, are
passed over (`tocSkipped`). It also goes on where it does not get what it asks
for: lengths that are not there, and bytes behind the end of the buffer
(`tocWanting`).

`skipped` and `wanting` count both for any message, its elements aside. They
are sums of lengths and positions; that a message in which both are zero is as
the format has it takes a proof (`isToc_of_tocSkipped`).

The two are functions of the buffer, and are computed without decoding anything.
They do not say whether a message is well formed: an element of a tag that there
is not passes nothing over, and neither does a number that is no number. What the
decoder adds to them, by returning, is the subject of `Felt.Box.WellFormed`.
-/

namespace Felt

namespace Box

/-! ## What is taken -/

/-- The entries of a header that `readtoc` takes: the count, and as many of the
lengths behind it as it says. -/
def tocTaken (buf : Bytes) : List (Bytes × ℕ) :=
  match tocEntries (tocHeader buf) [] 1 with
  | [] => []
  | (size, pos) :: next => (size, pos) :: next.take (ofDecimal size)

/-- Their numerals. -/
def tocNumerals (buf : Bytes) : List Bytes := (tocTaken buf).map Prod.fst

/-- The position behind some entries, from `pos` on. -/
def entriesEnd : ℕ → List (Bytes × ℕ) → ℕ
  | pos, [] => pos
  | _, (_, pos) :: l => entriesEnd pos l

/-- The position of the first element. -/
def tocEnd (buf : Bytes) : ℕ := entriesEnd 1 (tocTaken buf)

/-- How many bytes some lengths stand for. -/
def tocTotal (lens : List Bytes) : ℕ := (lens.map ofDecimal).sum

/-- **The bytes that are passed over** by a decoder that uses these numerals of
a table of contents: those in front of the first element that are no part of
them, and those behind the last. -/
def tocSkipped (used : List Bytes) (buf : Bytes) : ℕ :=
  (tocEnd buf - 1 - (tocText used).length) + (buf.length + 1 - tocEnd buf - tocTotal used.tail)

/-- **The lengths and the bytes that are asked for** and are not there. -/
def tocWanting (buf : Bytes) : ℕ :=
  match tocNumerals buf with
  | [] => 0
  | size :: lens => (ofDecimal size - lens.length) + (tocTotal lens - (buf.length + 1 - tocEnd buf))

/-! ## What it is made of -/

/-- What an entry is made of: a numeral and its colon, and what stands in front
of the numeral. -/
theorem tocEntries_sound {b acc len : Bytes} {pos q : ℕ} {more : List (Bytes × ℕ)}
    (hb : ∀ c ∈ b, isDigit c = true ∨ c = colon) (hacc : ∀ c ∈ acc, isDigit c = true)
    (h : tocEntries b acc pos = (len, q) :: more) :
    ∃ pre b', b = pre ++ b' ∧ q = pos + pre.length ∧ tocEntries b' [] q = more ∧ IsDigits len
      ∧ len.length + 1 ≤ acc.length + pre.length
      ∧ (acc.length + pre.length ≤ len.length + 1 → acc ++ pre = len ++ [colon]) := by
  induction b generalizing acc pos with
  | nil => cases h
  | cons c b ih =>
    have hrest : ∀ d ∈ b, isDigit d = true ∨ d = colon := fun d hd =>
      hb d (List.mem_cons_of_mem c hd)
    rw [tocEntries] at h
    -- a digit goes on with the numeral, a colon ends it or is passed over
    by_cases hc : isDigit c = true
    · rw [if_pos hc] at h
      obtain ⟨pre, b', rfl, rfl, hmore, hlen, hle, heq⟩ := ih hrest
        (List.forall_mem_append.mpr ⟨hacc, by simpa using hc⟩) h
      rw [List.length_append, List.length_singleton] at hle heq
      refine ⟨c :: pre, b', rfl, by rw [List.length_cons]; omega, hmore, hlen,
        by rw [List.length_cons]; omega, fun hge => ?_⟩
      rw [List.length_cons] at hge
      rw [← heq (by omega), List.append_assoc, List.singleton_append]
    · rw [if_neg hc] at h
      obtain rfl := (hb c List.mem_cons_self).resolve_left hc
      by_cases hnil : acc = []
      · rw [if_pos hnil] at h
        obtain ⟨pre, b', rfl, rfl, hmore, hlen, hle, -⟩ := ih hrest
          (fun _ hd => absurd hd List.not_mem_nil) h
        rw [List.length_nil, Nat.zero_add] at hle
        refine ⟨colon :: pre, b', rfl, by rw [List.length_cons]; omega, hmore, hlen,
          by rw [List.length_cons]; omega, fun hge => ?_⟩
        rw [List.length_cons] at hge
        omega
      · rw [if_neg hnil] at h
        obtain ⟨hentry, hmore⟩ := List.cons.inj h
        obtain ⟨rfl, rfl⟩ := Prod.mk.inj hentry
        exact ⟨[colon], b, rfl, rfl, hmore, ⟨hnil, hacc⟩, le_rfl, fun _ => rfl⟩

/-- **What some entries are made of**: their numerals and colons, if they are
as long as that. -/
theorem entriesEnd_sound {b : Bytes} {pos : ℕ} {l more : List (Bytes × ℕ)}
    (hb : ∀ c ∈ b, isDigit c = true ∨ c = colon) (h : tocEntries b [] pos = l ++ more) :
    (∀ len ∈ l.map Prod.fst, IsDigits len)
      ∧ ∃ pre b', b = pre ++ b' ∧ entriesEnd pos l = pos + pre.length
        ∧ (tocText (l.map Prod.fst)).length ≤ pre.length
        ∧ (pre.length ≤ (tocText (l.map Prod.fst)).length → pre = tocText (l.map Prod.fst)) := by
  induction l generalizing b pos with
  | nil => exact ⟨fun _ hx => absurd hx List.not_mem_nil, [], b, rfl, rfl, le_rfl, fun _ => rfl⟩
  | cons e l ih =>
    obtain ⟨len, q⟩ := e
    obtain ⟨pre, b', rfl, rfl, hmore, hlen, hle, heq⟩ := tocEntries_sound hb
      (fun _ hc => absurd hc List.not_mem_nil) h
    obtain ⟨hlens, pre', b'', rfl, hend, hle', heq'⟩ := ih
      (fun c hc => hb c (List.mem_append_right pre hc)) hmore
    have htext : tocText (((len, pos + pre.length) :: l).map Prod.fst)
        = len ++ [colon] ++ tocText (l.map Prod.fst) := rfl
    rw [List.length_nil, Nat.zero_add, List.nil_append] at heq
    rw [List.length_nil, Nat.zero_add] at hle
    refine ⟨List.forall_mem_cons.mpr ⟨hlen, hlens⟩, pre ++ pre', b'', by rw [List.append_assoc],
      ?_, ?_, fun hge => ?_⟩
    · rw [entriesEnd, hend, List.length_append, Nat.add_assoc]
    · rw [htext]
      simp only [List.length_append, List.length_singleton]
      omega
    · rw [htext] at hge ⊢
      simp only [List.length_append, List.length_singleton] at hge
      rw [heq (by omega), heq' (by omega)]

/-- **Bytes can be split up** by lengths that come to as many. -/
theorem exists_flatten (lens : List Bytes) (rest : Bytes) (h : tocTotal lens = rest.length) :
    ∃ data, List.Forall₂ (fun len x : Bytes => ofDecimal len = x.length) lens data
      ∧ rest = data.flatten := by
  induction lens generalizing rest with
  | nil => exact ⟨[], .nil, List.length_eq_zero_iff.mp h.symm⟩
  | cons len lens ih =>
    have htotal : tocTotal (len :: lens) = ofDecimal len + tocTotal lens := rfl
    obtain ⟨data, hdata, hflat⟩ := ih (rest.drop (ofDecimal len)) (by
      rw [List.length_drop]
      omega)
    refine ⟨rest.take (ofDecimal len) :: data, .cons ?_ hdata, ?_⟩
    · rw [List.length_take]
      omega
    · rw [List.flatten_cons, ← hflat, List.take_append_drop]

/-- The numerals of a table of contents are the first entries there are. -/
theorem tocTaken_append (buf : Bytes) :
    ∃ more, tocEntries (tocHeader buf) [] 1 = tocTaken buf ++ more := by
  unfold tocTaken
  split
  · next h => exact ⟨[], h⟩
  · next size pos next h => exact ⟨next.drop (ofDecimal size), by
      rw [h, List.cons_append, List.take_append_drop]⟩

/-- There are no more lengths than the count says. -/
theorem length_tocNumerals {buf size : Bytes} {lens : List Bytes}
    (h : tocNumerals buf = size :: lens) : lens.length ≤ ofDecimal size := by
  unfold tocNumerals tocTaken at h
  split at h
  · cases h
  · obtain ⟨rfl, rfl⟩ := List.cons.inj h
    rw [List.length_map]
    exact List.length_take_le _ _

/-- Where the first element starts, at the earliest. -/
theorem tocText_le_tocEnd (buf : Bytes) :
    (∀ len ∈ tocNumerals buf, IsDigits len)
      ∧ ∃ pre rest, buf = pre ++ rest ∧ tocEnd buf = 1 + pre.length
        ∧ (tocText (tocNumerals buf)).length ≤ pre.length
        ∧ (pre.length ≤ (tocText (tocNumerals buf)).length → pre = tocText (tocNumerals buf)) := by
  obtain ⟨more, hmore⟩ := tocTaken_append buf
  have hb : ∀ c ∈ tocHeader buf, isDigit c = true ∨ c = colon := fun c hc => by
    simpa using List.mem_takeWhile_imp hc
  obtain ⟨hlens, pre, b', hpre, hend, hle, heq⟩ := entriesEnd_sound hb hmore
  refine ⟨hlens, pre, b' ++ buf.dropWhile (fun c => isDigit c || c == colon), ?_, hend, hle, heq⟩
  rw [← List.append_assoc, ← hpre]
  exact List.takeWhile_append_dropWhile.symm

/-- **A table of contents nothing of which is passed over or wanting** is one. -/
theorem isToc_of_tocSkipped {buf size : Bytes} {lens : List Bytes}
    (hnumerals : tocNumerals buf = size :: lens) (hskipped : tocSkipped (size :: lens) buf = 0)
    (hwanting : tocWanting buf = 0) : ∃ data, IsToc buf data ∧ data.length = lens.length := by
  obtain ⟨hdigits, pre, rest, hbuf, hend, -, hpre⟩ := tocText_le_tocEnd buf
  have hlength : buf.length = pre.length + rest.length := by rw [hbuf, List.length_append]
  rw [hnumerals] at hdigits hpre
  unfold tocSkipped at hskipped
  unfold tocWanting at hwanting
  rw [hnumerals] at hwanting
  simp only [List.tail_cons] at hskipped hwanting
  obtain ⟨data, hdata, hflat⟩ := exists_flatten lens rest (by omega)
  have hcount := length_tocNumerals hnumerals
  refine ⟨data, ⟨size, lens, hdigits size List.mem_cons_self, ?_, ?_, ?_⟩, hdata.length_eq.symm⟩
  · rw [← hdata.length_eq]
    omega
  · refine (List.forall₂_and_left _ _).mpr
      ⟨fun len hlen => hdigits len (List.mem_cons_of_mem _ hlen), hdata⟩
  · rw [← hflat, ← hpre (by omega)]
    exact hbuf

/-! ## Tables of contents -/

theorem numeralEntries_fst (lens : List Bytes) (pos : ℕ) :
    (numeralEntries lens pos).map Prod.fst = lens := by
  induction lens generalizing pos with
  | nil => rfl
  | cons len lens ih => rw [numeralEntries, List.map_cons, ih]

theorem entriesEnd_numeralEntries (lens : List Bytes) (pos : ℕ) :
    entriesEnd pos (numeralEntries lens pos) = pos + (tocText lens).length := by
  induction lens generalizing pos with
  | nil => rfl
  | cons len lens ih =>
    have htext : tocText (len :: lens) = len ++ [colon] ++ tocText lens := rfl
    rw [numeralEntries, entriesEnd, ih, htext]
    simp only [List.length_append, List.length_singleton]
    omega

/-- **The numerals of a table of contents**, and where its first element is. -/
theorem tocTaken_of_isToc {buf size : Bytes} {lens data : List Bytes} (hsize : IsDigits size)
    (hvalue : ofDecimal size = data.length)
    (hlens : List.Forall₂ (fun len x => IsDigits len ∧ ofDecimal len = x.length) lens data)
    (hbuf : buf = tocText (size :: lens) ++ data.flatten) :
    tocTaken buf = numeralEntries (size :: lens) 1 := by
  have hdigits : ∀ len ∈ size :: lens, IsDigits len := by
    refine List.forall_mem_cons.mpr ⟨hsize, ?_⟩
    exact fun len hlen => ((List.forall₂_and_left _ _).mp hlens).1 len hlen
  have hcount : (numeralEntries lens (1 + size.length + 1)).length = ofDecimal size := by
    rw [hvalue, ← hlens.length_eq]
    have := congrArg List.length (numeralEntries_fst lens (1 + size.length + 1))
    rwa [List.length_map] at this
  unfold tocTaken
  rw [hbuf, tocHeader_tocText_append hdigits, tocEntries_tocText hdigits, numeralEntries,
    List.cons_append]
  simp only
  rw [List.take_append_of_le_length hcount.ge, List.take_of_length_le hcount.le]

theorem tocTotal_eq {lens data : List Bytes}
    (hlens : List.Forall₂ (fun len x => IsDigits len ∧ ofDecimal len = x.length) lens data) :
    tocTotal lens = data.flatten.length := by
  induction hlens with
  | nil => rfl
  | cons hlen _ ih =>
    rw [List.flatten_cons, List.length_append, ← hlen.2, ← ih]
    rfl

/-- **Nothing of a table of contents is passed over, and nothing is wanting.** -/
theorem tocSkipped_of_isToc {buf : Bytes} {data : List Bytes} (h : IsToc buf data) :
    tocSkipped (tocNumerals buf) buf = 0 ∧ tocWanting buf = 0
      ∧ (tocNumerals buf).length = data.length + 1 := by
  obtain ⟨size, lens, hsize, hvalue, hlens, hbuf⟩ := h
  have htaken := tocTaken_of_isToc hsize hvalue hlens hbuf
  have hnumerals : tocNumerals buf = size :: lens := by
    unfold tocNumerals
    rw [htaken, numeralEntries_fst]
  have hend : tocEnd buf = 1 + (tocText (size :: lens)).length := by
    unfold tocEnd
    rw [htaken, entriesEnd_numeralEntries]
  have htotal := tocTotal_eq hlens
  have hcount := hlens.length_eq
  have hlength : buf.length = (tocText (size :: lens)).length + data.flatten.length := by
    rw [hbuf, List.length_append]
  unfold tocSkipped tocWanting
  rw [hnumerals]
  simp only [List.tail_cons, List.length_cons]
  omega

/-! ## Messages -/

/-- **The bytes of an element that the decoder passes over**: what follows `n`,
`t` or `f`, what is no part of a number in base ten, and what a table of
contents does not speak of – of which `C` uses two lengths. -/
def skipped : Bytes → ℕ
  | 110 :: buf => buf.length
  | 116 :: buf => buf.length
  | 102 :: buf => buf.length
  | 78 :: buf => buf.countP (fun c => !isPlainByte c)
  | 82 :: buf => buf.countP (fun c => !isPlainByte c)
  | 79 :: buf => buf.countP (fun c => !isPlainByte c)
  | 84 :: buf => tocSkipped (tocNumerals buf) buf
  | 67 :: buf => tocSkipped ((tocNumerals buf).take 3) buf
  | _ => 0

/-- **What an element asks for in vain**: lengths and bytes, and the value of
the last key of a table. -/
def wanting : Bytes → ℕ
  | 84 :: buf => tocWanting buf + (tocNumerals buf).tail.length % 2
  | 67 :: buf => tocWanting buf
  | _ => 0

/-- Whatever is behind a call object is passed over, if it has more lengths
than two. -/
theorem tocNumerals_of_tocSkipped {buf : Bytes}
    (h : tocSkipped ((tocNumerals buf).take 3) buf = 0) :
    (tocNumerals buf).take 3 = tocNumerals buf := by
  obtain ⟨-, pre, rest, -, hend, hle, -⟩ := tocText_le_tocEnd buf
  have hsplit : tocText (tocNumerals buf)
      = tocText ((tocNumerals buf).take 3) ++ tocText ((tocNumerals buf).drop 3) := by
    unfold tocText
    rw [← List.flatMap_append, List.take_append_drop]
  have hmore := length_le_length_tocText ((tocNumerals buf).drop 3)
  rw [hsplit, List.length_append] at hle
  unfold tocSkipped at h
  rw [List.length_drop] at hmore
  exact List.take_of_length_le (by omega)

/-- A buffer that `readtoc` answers announces a count. -/
theorem tocNumerals_ne_nil {σ : Type} {A : Arith} {fuel : ℕ} {buf : Bytes} {data : List Bytes}
    {s s' : σ} (h : (readtoc A fuel buf : Run σ BoxError (List Bytes)) s = .ok data s') :
    tocNumerals buf ≠ [] := by
  intro hnone
  have hcount : tocCount buf = none := by
    rcases he : tocEntries (tocHeader buf) [] 1 with _ | ⟨e, l⟩
    · rw [tocCount, he]
    · rw [tocNumerals, tocTaken, he] at hnone
      cases hnone
  obtain ⟨e, he⟩ := readtoc_of_tocCount_none (σ := σ) (A := A) hcount
  rw [he] at h
  cases h

end Box

end Felt
