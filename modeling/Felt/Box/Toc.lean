import Felt.Lua.Arith
import Felt.Box.Value

/-!
# The table of contents

A box that has elements starts with how many there are and how long each is,
every number in base ten and ended by a colon. `maketoc` writes it, `readtoc`
reads it off the front of a buffer and slices the buffer accordingly.

Nothing marks where the header stops. `readtoc` takes the longest prefix of
digits and colons, which runs on into the first element when that element
starts with one, and then asks for as many numbers as the first one says.
What keeps this right is that it never asks for more: `readtoc_maketoc` holds
for elements of any shape.

The count drives a loop – `while size >= 1` – that does not look at what the
iterator answers. It is run with the arithmetic `A` (`Felt.Arith`), and given
fuel, since a count that was written rather than counted may never come down
to zero.

The header is read in two steps. `tocEntries` finds the numerals in it, with the
position behind each; that is the iterator of the source, run to its end.
`readtocLoop` takes as many of them as it counts. The slices are cut last, from
the position where the loop stopped. So what the source does in one loop is three
functions here, each with a lemma of its own, and `readtoc_of_isToc` puts them
together.

What holds of every header, well formed or not, is at the end: `readtoc` changes
nothing, what it answers was cut out of the buffer, and it times out exactly if
its count is not counted down.
-/

namespace Felt

namespace Box

/-- The colon that ends a number. -/
def colon : UInt8 := 58

/-- `maketoc`: how many elements, and how long each is. -/
def maketoc (data : List Bytes) : Bytes :=
  decimal data.length ++ [colon] ++ data.flatMap (fun x => decimal x.length ++ [colon])

/-- `buf:match("^[%d:]+")`: the header, and whatever of the elements looks
like one. -/
def tocHeader (buf : Bytes) : Bytes := buf.takeWhile (fun c => isDigit c || c == colon)

/-- What the iterator `gmatch("(%d+):()")` finds in a header: each run of
digits ended by a colon, with the position behind the colon. `digits` are
those read since the last colon, and `pos` is the position of the next
byte. -/
def tocEntries : Bytes → Bytes → ℕ → List (Bytes × ℕ)
  | [], _, _ => []
  | c :: b, digits, pos =>
    if isDigit c then tocEntries b (digits ++ [c]) (pos + 1)
    else if digits = [] then tocEntries b [] (pos + 1)
    else (digits, pos + 1) :: tocEntries b [] (pos + 1)

/-- The loop of `readtoc`: as long as `size >= 1`, ask the iterator for the
next entry. Past the last one it answers nothing, which leaves `data` as it
is and `offs` nil. -/
def readtocLoop (A : Arith) :
    ℕ → A.Num → List (Bytes × ℕ) → List Bytes → Option A.Num →
      Option (List Bytes × Option A.Num)
  | fuel, size, next, data, offs =>
    if A.geOne size then
      match fuel, next with
      | 0, _ => none
      | fuel + 1, [] => readtocLoop A fuel (A.sub size A.one) [] data none
      | fuel + 1, (len, pos) :: next =>
        readtocLoop A fuel (A.sub size A.one) next (data ++ [len]) (some (A.ofNat pos))
    else some (data, offs)
  termination_by structural fuel => fuel

/-- The slices: `offs` moves behind each element in turn. -/
def tocSlices (A : Arith) (buf : Bytes) : List Bytes → A.Num → List Bytes
  | [], _ => []
  | len :: data, offs =>
    let offs := A.add offs (A.read len)
    strSub buf (A.toIndex (A.sub offs (A.read len))) (A.toIndex (A.sub offs A.one))
      :: tocSlices A buf data offs

/-- **`readtoc`**: the elements a table of contents announces. -/
def readtoc {σ : Type} (A : Arith) (fuel : ℕ) (buf : Bytes) : Run σ BoxError (List Bytes) :=
  if tocHeader buf = [] then Run.throw (.refused "index nil")
  else
    match tocEntries (tocHeader buf) [] 1 with
    | [] => Run.throw (.refused "compare nil with number")
    | (size, _) :: next =>
      match readtocLoop A fuel (A.read size) next [] (some A.one) with
      | none => Run.timeout
      | some ([], _) => pure []
      | some (_, none) => Run.throw (.refused "arithmetic on nil")
      | some (data, some offs) => pure (tocSlices A buf data offs)

section Steps

variable {A : Arith} {size : A.Num} {next : List (Bytes × ℕ)} {data : List Bytes}
  {offs : Option A.Num}

theorem readtocLoop_stop (h : A.geOne size = false) (fuel : ℕ) :
    readtocLoop A fuel size next data offs = some (data, offs) := by
  unfold readtocLoop
  simp [h]

theorem readtocLoop_timeout (h : A.geOne size = true) :
    readtocLoop A 0 size next data offs = none := by
  unfold readtocLoop
  simp [h]

theorem readtocLoop_entry (h : A.geOne size = true) (fuel : ℕ) (len : Bytes) (pos : ℕ) :
    readtocLoop A (fuel + 1) size ((len, pos) :: next) data offs
      = readtocLoop A fuel (A.sub size A.one) next (data ++ [len]) (some (A.ofNat pos)) := by
  rw [readtocLoop]
  simp [h]

theorem readtocLoop_past (h : A.geOne size = true) (fuel : ℕ) :
    readtocLoop A (fuel + 1) size [] data offs
      = readtocLoop A fuel (A.sub size A.one) [] data none := by
  rw [readtocLoop]
  simp [h]

/-- **The loop ends when counting down does**, whatever the entries are. -/
theorem readtocLoop_ne_none_iff (fuel : ℕ) :
    readtocLoop A fuel size next data offs ≠ none ↔ A.Ends fuel size := by
  induction fuel generalizing size next data offs with
  | zero =>
    by_cases h : A.geOne size = true
    · rw [readtocLoop_timeout h]
      simp [Arith.Ends, h]
    · rw [Bool.not_eq_true] at h
      rw [readtocLoop_stop h]
      simp [Arith.Ends, h]
  | succ fuel ih =>
    by_cases h : A.geOne size = true
    · rcases next with _ | ⟨⟨len, pos⟩, next⟩
      · rw [readtocLoop_past h, ih]
        simp [Arith.Ends, h]
      · rw [readtocLoop_entry h, ih]
        simp [Arith.Ends, h]
    · rw [Bool.not_eq_true] at h
      rw [readtocLoop_stop h]
      simp [Arith.Ends, h]

/-- More fuel changes nothing once the loop has ended. -/
theorem readtocLoop_succ {fuel : ℕ} {r : List Bytes × Option A.Num}
    (h : readtocLoop A fuel size next data offs = some r) :
    readtocLoop A (fuel + 1) size next data offs = some r := by
  induction fuel generalizing size next data offs with
  | zero =>
    by_cases hge : A.geOne size = true
    · rw [readtocLoop_timeout hge] at h
      exact absurd h (by simp)
    · rw [Bool.not_eq_true] at hge
      rw [readtocLoop_stop hge] at h ⊢
      exact h
  | succ fuel ih =>
    by_cases hge : A.geOne size = true
    · rcases next with _ | ⟨⟨len, pos⟩, next⟩
      · rw [readtocLoop_past hge] at h ⊢
        exact ih h
      · rw [readtocLoop_entry hge] at h ⊢
        exact ih h
    · rw [Bool.not_eq_true] at hge
      rw [readtocLoop_stop hge] at h ⊢
      exact h

theorem tocSlices_cons (buf len : Bytes) (offs : A.Num) :
    tocSlices A buf (len :: data) offs
      = strSub buf (A.toIndex (A.sub (A.add offs (A.read len)) (A.read len)))
          (A.toIndex (A.sub (A.add offs (A.read len)) A.one))
        :: tocSlices A buf data (A.add offs (A.read len)) := rfl

/-- Every slice is cut from the buffer. -/
theorem length_le_of_mem_tocSlices {buf x : Bytes} {offs : A.Num}
    (hx : x ∈ tocSlices A buf data offs) : x.length ≤ buf.length := by
  induction data generalizing offs with
  | nil => exact absurd hx List.not_mem_nil
  | cons len data ih =>
    rw [tocSlices_cons, List.mem_cons] at hx
    rcases hx with rfl | hx
    · exact length_strSub_le _ _ _
    · exact ih hx

end Steps

/-! ## The header reads back -/

/-- A run of digits. -/
def IsDigits (b : Bytes) : Prop := b ≠ [] ∧ ∀ c ∈ b, isDigit c = true

theorem isDigits_decimal (n : ℕ) : IsDigits (decimal n) :=
  ⟨decimal_ne_nil n, fun _ hc => isDigit_of_mem_decimal hc⟩

/-- Numerals, each ended by a colon. -/
def tocText (lens : List Bytes) : Bytes := lens.flatMap (fun len => len ++ [colon])

/-- **A table of contents, and its elements behind it**: how many there are and
how long each is. -/
def IsToc (buf : Bytes) (data : List Bytes) : Prop :=
  ∃ size lens, IsDigits size ∧ ofDecimal size = data.length
    ∧ List.Forall₂ (fun len x => IsDigits len ∧ ofDecimal len = x.length) lens data
    ∧ buf = tocText (size :: lens) ++ data.flatten

theorem maketoc_eq (data : List Bytes) :
    maketoc data = tocText (decimal data.length :: data.map (fun x => decimal x.length)) := by
  show _ = (decimal data.length ++ [colon]) ++ (data.map _).flatMap _
  rw [List.flatMap_map]
  rfl

/-- What `maketoc` writes in front of the elements is a table of contents. -/
theorem isToc_maketoc (data : List Bytes) : IsToc (maketoc data ++ data.flatten) data := by
  refine ⟨_, _, isDigits_decimal data.length, ofDecimal_decimal _, ?_, by rw [maketoc_eq]⟩
  rw [List.forall₂_map_left_iff]
  exact List.forall₂_same.mpr (fun x _ => ⟨isDigits_decimal x.length, ofDecimal_decimal _⟩)

theorem tocHeader_tocText_append {lens : List Bytes} (hlens : ∀ len ∈ lens, IsDigits len)
    (rest : Bytes) : tocHeader (tocText lens ++ rest) = tocText lens ++ tocHeader rest := by
  refine List.takeWhile_append_of_pos (fun c hc => ?_)
  obtain ⟨len, hlen, hc⟩ := List.mem_flatMap.mp hc
  rcases List.mem_append.mp hc with hc | hc
  · rw [(hlens len hlen).2 c hc, Bool.true_or]
  · rw [List.mem_singleton.mp hc, beq_self_eq_true, Bool.or_true]

/-- A run of digits ended by a colon is one entry. -/
theorem tocEntries_digits {ds : Bytes} (hds : ∀ c ∈ ds, isDigit c = true)
    (acc : Bytes) (hne : acc ++ ds ≠ []) (rest : Bytes) (pos : ℕ) :
    tocEntries (ds ++ colon :: rest) acc pos
      = (acc ++ ds, pos + ds.length + 1) :: tocEntries rest [] (pos + ds.length + 1) := by
  induction ds generalizing acc pos with
  | nil =>
    rw [List.append_nil] at hne
    have hcolon : isDigit colon = false := rfl
    simp only [List.nil_append, tocEntries, hcolon, Bool.false_eq_true, if_false,
      if_neg hne, List.append_nil, List.length_nil, Nat.add_zero]
  | cons c ds ih =>
    have hc : isDigit c = true := hds c (by simp)
    rw [List.cons_append, tocEntries, if_pos hc,
      ih (fun d hd => hds d (by simp [hd])) (acc ++ [c]) (by simp), List.append_assoc]
    simp only [List.singleton_append, List.length_cons]
    rw [show pos + 1 + ds.length + 1 = pos + (ds.length + 1) + 1 from by omega]

/-- The entries of numerals, from position `pos` on. -/
def numeralEntries : List Bytes → ℕ → List (Bytes × ℕ)
  | [], _ => []
  | len :: lens, pos => (len, pos + len.length + 1) :: numeralEntries lens (pos + len.length + 1)

theorem tocEntries_tocText {lens : List Bytes} (hlens : ∀ len ∈ lens, IsDigits len)
    (tail : Bytes) (pos : ℕ) :
    tocEntries (tocText lens ++ tail) [] pos
      = numeralEntries lens pos ++ tocEntries tail [] (pos + (tocText lens).length) := by
  induction lens generalizing pos with
  | nil => rfl
  | cons len lens ih =>
    obtain ⟨hne, hdigits⟩ := hlens len List.mem_cons_self
    have htext : tocText (len :: lens) ++ tail = len ++ colon :: (tocText lens ++ tail) := by
      show (len ++ [colon] ++ tocText lens) ++ tail = _
      rw [List.append_assoc, List.append_assoc, List.singleton_append]
    have hlength : (tocText (len :: lens)).length = len.length + 1 + (tocText lens).length := by
      show (len ++ [colon] ++ tocText lens).length = _
      rw [List.length_append, List.length_append, List.length_singleton]
    rw [htext, tocEntries_digits hdigits [] hne,
      ih (fun l hl => hlens l (List.mem_cons_of_mem len hl)), hlength, ← Nat.add_assoc,
      ← Nat.add_assoc]
    rfl

section Exact

variable {A : Arith} {n : ℕ} (hA : A.Exact n)

include hA in
/-- **The loop takes the entries it counts and no others**, whatever follows
them, and leaves `offs` behind the last. -/
theorem readtocLoop_numerals {lens : List Bytes} (hlens : lens.length ≤ n)
    (more : List (Bytes × ℕ)) (acc : List Bytes) (pos : ℕ) {fuel : ℕ}
    (hfuel : lens.length ≤ fuel) :
    readtocLoop A fuel (A.ofNat lens.length) (numeralEntries lens pos ++ more) acc
        (some (A.ofNat pos))
      = some (acc ++ lens, some (A.ofNat (pos + (tocText lens).length))) := by
  induction lens generalizing acc pos fuel with
  | nil =>
    have hstop : A.geOne (A.ofNat 0) = false :=
      Bool.eq_false_iff.mpr (fun h => absurd ((hA.geOne 0 hlens).mp h) (Nat.not_succ_le_zero 0))
    rw [List.length_nil, readtocLoop_stop hstop, List.append_nil]
    rfl
  | cons len lens ih =>
    rw [List.length_cons] at hlens hfuel
    obtain ⟨fuel, rfl⟩ : ∃ f, fuel = f + 1 := ⟨fuel - 1, by omega⟩
    have hmore : A.geOne (A.ofNat (lens.length + 1)) = true :=
      (hA.geOne _ hlens).mpr (Nat.le_add_left 1 _)
    have hlength : (tocText (len :: lens)).length = len.length + 1 + (tocText lens).length := by
      show (len ++ [colon] ++ tocText lens).length = _
      rw [List.length_append, List.length_append, List.length_singleton]
    rw [List.length_cons, numeralEntries, List.cons_append, readtocLoop_entry hmore, hA.one,
      hA.sub _ 1 hlens, ih (by omega) _ _ (by omega), List.append_assoc, hlength,
      ← Nat.add_assoc, ← Nat.add_assoc]
    rfl

include hA in
/-- **Slicing what stands behind a prefix gives back its elements.** -/
theorem tocSlices_flatten {lens data : List Bytes}
    (hlens : List.Forall₂ (fun len x => IsDigits len ∧ ofDecimal len = x.length) lens data)
    (pre : Bytes) (hn : (pre ++ data.flatten).length + 1 ≤ n) :
    tocSlices A (pre ++ data.flatten) lens (A.ofNat (pre.length + 1)) = data := by
  induction hlens generalizing pre with
  | nil => rfl
  | @cons len x lens data hlen _ ih =>
    obtain ⟨⟨-, hdigits⟩, hvalue⟩ := hlen
    rw [List.flatten_cons, ← List.append_assoc] at hn ⊢
    have hbound : pre.length + x.length + 1 ≤ n := by
      rw [List.length_append, List.length_append] at hn
      omega
    have htail := ih (pre ++ x) hn
    rw [List.length_append] at htail
    have hread : A.read len = A.ofNat x.length := by
      rw [hA.read len hdigits (by omega), hvalue]
    have hstep : A.add (A.ofNat (pre.length + 1)) (A.ofNat x.length)
        = A.ofNat (pre.length + x.length + 1) := by
      rw [hA.add _ _ (by omega), Nat.add_right_comm]
    have hback : A.sub (A.ofNat (pre.length + x.length + 1)) (A.ofNat x.length)
        = A.ofNat (pre.length + 1) := by
      rw [Nat.add_right_comm]
      exact hA.sub _ _ (by omega)
    rw [tocSlices_cons, hread, hstep, hback, htail, hA.one,
      hA.sub _ 1 hbound, hA.toIndex _ (by omega), hA.toIndex _ (by omega)]
    push_cast
    rw [strSub_append]

end Exact

/-- A table of contents has a byte for each of its numerals. -/
theorem length_le_length_tocText (lens : List Bytes) : lens.length ≤ (tocText lens).length := by
  induction lens with
  | nil => exact le_rfl
  | cons len lens ih =>
    show lens.length + 1 ≤ (len ++ [colon] ++ tocText lens).length
    rw [List.length_append, List.length_append, List.length_singleton]
    omega

/-- **`readtoc` reads a table of contents**: it answers the elements behind it,
of any length, and whatever bytes they begin with. -/
theorem readtoc_of_isToc {σ : Type} {A : Arith} {buf : Bytes} {data : List Bytes}
    (hA : A.Exact (buf.length + 1)) (h : IsToc buf data) {fuel : ℕ} (hfuel : data.length ≤ fuel)
    (s : σ) : readtoc A fuel buf s = .ok data s := by
  obtain ⟨size, lens, hsize, hvalue, hlens, hbuf⟩ := h
  have hcount : lens.length = data.length := hlens.length_eq
  have hdigits : ∀ len ∈ size :: lens, IsDigits len := by
    refine List.forall_mem_cons.mpr ⟨hsize, fun len hlen => ?_⟩
    obtain ⟨i, hi, rfl⟩ := List.getElem_of_mem hlen
    exact (hlens.get hi (hcount ▸ hi)).1
  have hlength : data.length < buf.length := by
    have hle := length_le_length_tocText (size :: lens)
    rw [List.length_cons, hcount] at hle
    rw [hbuf, List.length_append]
    omega
  have htext : tocText (size :: lens) = size ++ [colon] ++ tocText lens := rfl
  have hheader : tocHeader buf ≠ [] := by
    rw [hbuf, tocHeader_tocText_append hdigits, htext]
    simp
  -- the first entry is the count; behind the lengths there may be digits of the first element
  have hentries : tocEntries (tocHeader buf) [] 1 = (size, 1 + size.length + 1)
      :: (numeralEntries lens (1 + size.length + 1)
        ++ tocEntries (tocHeader data.flatten) [] (1 + (tocText (size :: lens)).length)) := by
    rw [hbuf, tocHeader_tocText_append hdigits, tocEntries_tocText hdigits]
    rfl
  have hread : A.read size = A.ofNat data.length := by
    rw [hA.read size hsize.2 (by omega), hvalue]
  unfold readtoc
  rw [if_neg hheader, hentries]
  simp only [hread]
  rcases lens with _ | ⟨len, lens⟩
  -- nothing to count down
  · obtain rfl := List.length_eq_zero_iff.mp hcount.symm
    have hstop : A.geOne (A.ofNat 0) = false :=
      Bool.eq_false_iff.mpr (fun h => absurd ((hA.geOne 0 (Nat.zero_le _)).mp h) (by omega))
    rw [List.length_nil, readtocLoop_stop hstop]
    rfl
  · rw [List.length_cons] at hcount
    obtain ⟨fuel, rfl⟩ : ∃ f, fuel = f + 1 := ⟨fuel - 1, by omega⟩
    have hmore : A.geOne (A.ofNat data.length) = true :=
      (hA.geOne _ (by omega)).mpr (by omega)
    have hpred : A.sub (A.ofNat data.length) A.one = A.ofNat lens.length := by
      rw [hA.one, ← hcount]
      exact hA.sub _ 1 (by omega)
    have hoffs : 1 + size.length + 1 + len.length + 1 + (tocText lens).length
        = (tocText (size :: len :: lens)).length + 1 := by
      show _ = (size ++ [colon] ++ (len ++ [colon] ++ tocText lens)).length + 1
      simp only [List.length_append, List.length_singleton]
      omega
    rw [numeralEntries, List.cons_append, readtocLoop_entry hmore, hpred, List.nil_append,
      readtocLoop_numerals hA (by omega) _ _ _ (by omega), List.singleton_append, hoffs]
    show Outcome.ok (tocSlices A buf (len :: lens) _) s = _
    rw [hbuf, tocSlices_flatten hA hlens _ (by rw [hbuf])]

/-- **A table of contents reads back**: in front of the elements it was made
for, `readtoc` answers those elements – of any length, and whatever bytes
they begin with. -/
theorem readtoc_maketoc {σ : Type} (data : List Bytes) {fuel : ℕ}
    (hfuel : data.length ≤ fuel) (s : σ) :
    readtoc .ideal fuel (maketoc data ++ data.flatten) s = .ok data s :=
  readtoc_of_isToc (Arith.exact_ideal _) (isToc_maketoc data) hfuel s

/-- **A table of contents is self-delimiting.** In front of the elements it was
made for, `readtoc` answers exactly those elements: none of them is cut short
or run over, however long they are and whatever they begin with, and the loop
ends after as many rounds as there are elements. With doubles the same is so of
every buffer whose positions doubles can tell apart. -/
theorem readtoc_delimits (data : List Bytes) {fuel : ℕ} (hfuel : data.length ≤ fuel) :
    (∀ (σ : Type) (s : σ),
      readtoc .ideal fuel (maketoc data ++ data.flatten) s = .ok data s) ∧
    ∀ number2integer : Number → ℤ,
      (∀ k : ℕ, k ≤ 2 ^ 53 → number2integer (.fin k) = k) →
      (maketoc data ++ data.flatten).length < 2 ^ 53 → ∀ (σ : Type) (s : σ),
      readtoc (.double number2integer) fuel (maketoc data ++ data.flatten) s = .ok data s := by
  have htoc := isToc_maketoc data
  refine ⟨fun σ s => ?_, fun number2integer hcast hlength σ s => ?_⟩
  · exact readtoc_of_isToc (Arith.exact_ideal _) htoc hfuel s
  · exact readtoc_of_isToc (Arith.exact_double hcast hlength) htoc hfuel s

/-- An element that looks like more header, one that is empty, and one that
starts with a colon. -/
theorem readtoc_delimits_headers :
    readtoc .ideal 3 (bytes "3:5:0:2:12:3::9") () = .ok [bytes "12:3:", [], bytes ":9"] () :=
  (readtoc_delimits [bytes "12:3:", [], bytes ":9"] (by decide)).1 Unit ()

/-! ## Fuel, and what `readtoc` may answer -/

/-- What a header says: the count, and the entries behind it. -/
def tocCount (buf : Bytes) : Option (Bytes × List (Bytes × ℕ)) :=
  match tocEntries (tocHeader buf) [] 1 with
  | [] => none
  | (size, _) :: next => some (size, next)

section Fuel

variable {σ : Type} {A : Arith}

/-- `readtoc` on a buffer that announces a count. -/
theorem readtoc_of_tocCount {buf size : Bytes} {next : List (Bytes × ℕ)}
    (h : tocCount buf = some (size, next)) (fuel : ℕ) :
    (readtoc A fuel buf : Run σ BoxError (List Bytes))
      = match readtocLoop A fuel (A.read size) next [] (some A.one) with
        | none => Run.timeout
        | some ([], _) => pure []
        | some (_, none) => Run.throw (.refused "arithmetic on nil")
        | some (data, some offs) => pure (tocSlices A buf data offs) := by
  unfold tocCount at h
  have hne : tocHeader buf ≠ [] := fun h0 => by
    rw [h0] at h
    exact absurd h (by simp [tocEntries])
  unfold readtoc
  rw [if_neg hne]
  rcases he : tocEntries (tocHeader buf) [] 1 with _ | ⟨⟨size', pos⟩, entries⟩
  · rw [he] at h
    exact absurd h (by simp)
  · rw [he] at h
    obtain ⟨rfl, rfl⟩ := Prod.mk.inj (Option.some.inj h)
    rfl

/-- `readtoc` on a buffer that announces none raises. -/
theorem readtoc_of_tocCount_none {buf : Bytes} (h : tocCount buf = none) :
    ∃ e, ∀ fuel, (readtoc A fuel buf : Run σ BoxError (List Bytes)) = Run.throw e := by
  unfold tocCount at h
  unfold readtoc
  by_cases hne : tocHeader buf = []
  · exact ⟨_, fun fuel => if_pos hne⟩
  · refine ⟨.refused "compare nil with number", fun fuel => ?_⟩
    rw [if_neg hne]
    rcases he : tocEntries (tocHeader buf) [] 1 with _ | ⟨⟨size', pos⟩, entries⟩
    · rfl
    · rw [he] at h
      exact absurd h (by simp)

/-- **`readtoc` times out exactly when its count is not counted down.** -/
theorem readtoc_eq_timeout_iff (fuel : ℕ) (buf : Bytes) (s : σ) :
    (readtoc A fuel buf : Run σ BoxError (List Bytes)) s = .timeout
      ↔ ∃ size next, tocCount buf = some (size, next) ∧ ¬ A.Ends fuel (A.read size) := by
  rcases hc : tocCount buf with _ | ⟨size, next⟩
  · obtain ⟨e, he⟩ := readtoc_of_tocCount_none (σ := σ) (A := A) hc
    simp [he fuel]
  · rw [readtoc_of_tocCount hc]
    have hends := @readtocLoop_ne_none_iff A (A.read size) next [] (some A.one) fuel
    rcases hl : readtocLoop A fuel (A.read size) next [] (some A.one) with _ | ⟨data, offs⟩
    · rw [hl] at hends
      simpa using hends
    · rw [hl] at hends
      rcases data with _ | ⟨x, data⟩ <;> rcases offs with _ | offs <;>
        simpa using hends

/-- More fuel changes nothing once `readtoc` has answered. -/
theorem readtoc_approx (fuel : ℕ) (buf : Bytes) :
    Run.Approx (readtoc A fuel buf : Run σ BoxError (List Bytes))
      (readtoc A (fuel + 1) buf) := by
  intro s hs
  rcases hc : tocCount buf with _ | ⟨size, next⟩
  · obtain ⟨e, he⟩ := readtoc_of_tocCount_none (σ := σ) (A := A) hc
    rw [he, he]
  · rw [readtoc_of_tocCount hc] at hs ⊢
    rw [readtoc_of_tocCount hc]
    rcases hl : readtocLoop A fuel (A.read size) next [] (some A.one) with _ | r
    · rw [hl] at hs
      exact absurd rfl hs
    · rw [readtocLoop_succ hl]

/-- **What `readtoc` answers was cut from the buffer.** -/
theorem length_le_of_readtoc {fuel : ℕ} {buf : Bytes} {data : List Bytes} {s s' : σ}
    (h : (readtoc A fuel buf : Run σ BoxError (List Bytes)) s = .ok data s') :
    s' = s ∧ ∀ x ∈ data, x.length ≤ buf.length := by
  rcases hc : tocCount buf with _ | ⟨size, next⟩
  · obtain ⟨e, he⟩ := readtoc_of_tocCount_none (σ := σ) (A := A) hc
    rw [he] at h
    exact absurd h (by simp)
  · rw [readtoc_of_tocCount hc] at h
    rcases hl : readtocLoop A fuel (A.read size) next [] (some A.one) with _ | ⟨data', offs⟩
    · rw [hl] at h
      exact absurd h (by simp)
    · rw [hl] at h
      rcases data' with _ | ⟨x, data'⟩
      · obtain ⟨rfl, rfl⟩ := Outcome.ok.inj h
        exact ⟨rfl, by simp⟩
      · rcases offs with _ | offs
        · exact absurd h (by simp)
        · obtain ⟨rfl, rfl⟩ := Outcome.ok.inj h
          exact ⟨rfl, fun x hx => length_le_of_mem_tocSlices hx⟩

/-- What `readtoc` answers does not depend on the state. -/
theorem readtoc_state {τ : Type} {fuel : ℕ} {buf : Bytes} {data : List Bytes} {s s' : σ}
    (h : (readtoc A fuel buf : Run σ BoxError (List Bytes)) s = .ok data s') (t : τ) :
    (readtoc A fuel buf : Run τ BoxError (List Bytes)) t = .ok data t := by
  rcases hc : tocCount buf with _ | ⟨size, next⟩
  · obtain ⟨e, he⟩ := readtoc_of_tocCount_none (σ := σ) (A := A) hc
    rw [he] at h
    exact absurd h (by simp)
  · rw [readtoc_of_tocCount hc] at h ⊢
    rcases hl : readtocLoop A fuel (A.read size) next [] (some A.one) with _ | ⟨data', offs⟩
    · rw [hl] at h
      exact absurd h (by simp)
    · rw [hl] at h
      rcases data' with _ | ⟨x, data'⟩
      · obtain ⟨rfl, rfl⟩ := Outcome.ok.inj h
        rfl
      · rcases offs with _ | offs
        · exact absurd h (by simp)
        · obtain ⟨rfl, rfl⟩ := Outcome.ok.inj h
          rfl

/-- **The elements of a table of contents are the ones `readtoc` answers.** -/
theorem eq_of_readtoc {fuel : ℕ} {buf : Bytes} {data data' : List Bytes} {s s' : σ}
    (hA : A.Exact (buf.length + 1)) (htoc : IsToc buf data)
    (h : (readtoc A fuel buf : Run σ BoxError (List Bytes)) s = .ok data' s') : data' = data := by
  have hmore := Run.Approx.ok (Run.Approx.of_le (fun k => readtoc_approx (σ := σ) (A := A) k buf)
    (Nat.le_add_right fuel data.length)) h
  rw [readtoc_of_isToc hA htoc (Nat.le_add_left _ _)] at hmore
  exact (Outcome.ok.inj hmore).1.symm

end Fuel

end Box

end Felt
