import Felt.Box.Value

/-!
# `string.format`

A format is copied to the result up to each `%`, where a directive starts: `%%`
stands for the byte itself, anything else takes the next argument and writes it
as C's `sprintf` does. What is no directive raises, and so does a directive for
which there is no argument.

`pieces` reads a format, `render` writes the result. A text without a `%` is a
format that writes that text (`format_of_notMem`), and it is the only kind that
does so without arguments (`notMem_of_format`).

What a program has formatted it may format again: `server.message` writes a text,
and the client takes it for a format (`Felt.Client.Display`). So two things are
asked about a text here. One is when it comes out of a formatting as it was. The
other is whether there is a `%` in it, and where that came from – an argument, or
a `%%` of the format (`notMem_format_iff`).

What C makes of a single directive is the parameter `Printf`, of which no more is
known than that `%s` copies a string up to its first NUL. What Lua does around
that is the definition `convert`: it reads the buffer up to a NUL itself, and
does not go through C at all for a long string without a precision.
-/

namespace Felt

/-- The byte `%`. -/
def percentByte : UInt8 := 37

/-- **What `string.format` raises.** -/
inductive FormatError where
  /-- `invalid format (repeated flags)`. -/
  | repeatedFlags
  /-- `invalid format (width or precision too long)`. -/
  | tooLong
  /-- `invalid option '%…' to 'format'`. -/
  | invalidOption (c : UInt8)
  /-- `bad argument #… to 'format'`. -/
  | badArgument
  deriving DecidableEq

/-- **A piece of a format.** -/
inductive Piece where
  /-- A byte that is copied. -/
  | char (c : UInt8)
  /-- `%%`. -/
  | percent
  /-- A directive, as it is handed to `sprintf`, and its last byte. -/
  | item (form : Bytes) (conv : UInt8)
  /-- What is none. -/
  | bad (e : FormatError)
  deriving DecidableEq

/-- Up to `n` digits. -/
def takeDigits (n : ℕ) (b : Bytes) : Bytes := (b.take n).takeWhile isDigit

/-- `scanformat`: the flags, the width and the precision. -/
def scanFormat (b : Bytes) : Except FormatError Bytes :=
  let flags := b.takeWhile (fun c => c ∈ bytes "-+ #0")
  let r := b.drop flags.length
  let width := takeDigits 2 r
  let r := r.drop width.length
  let precision := if r.head? = some 46 then [46] ++ takeDigits 2 (r.drop 1) else []
  let r := r.drop precision.length
  if 6 ≤ flags.length then .error .repeatedFlags
  else if r.head?.any isDigit then .error .tooLong
  else .ok (flags ++ width ++ precision)

/-- What stands behind a `%`, and how many bytes of the format it takes. The
byte behind the last one is a NUL. -/
def directive (b : Bytes) : Piece × ℕ :=
  if b.head? = some percentByte then (.percent, 1)
  else
    match scanFormat b with
    | .error e => (.bad e, 0)
    | .ok spec =>
      let conv := (b.drop spec.length).headD 0
      if conv ∈ bytes "cdiouxXeEfgGqs" then
        (.item ([percentByte] ++ spec ++ [conv]) conv, spec.length + 1)
      else (.bad (.invalidOption conv), 0)

/-- The pieces of a format, of which `skip` bytes have been read. -/
def piecesFrom : ℕ → Bytes → List Piece
  | _, [] => []
  | skip + 1, _ :: b => piecesFrom skip b
  | 0, c :: b =>
    if c = percentByte then
      match directive b with
      | (.bad e, _) => [.bad e]
      | (piece, skip) => piece :: piecesFrom skip b
    else .char c :: piecesFrom 0 b

/-- **The pieces of a format**, up to the first that is none. -/
def pieces (b : Bytes) : List Piece := piecesFrom 0 b

/-! ## Writing -/

/-- **C's `sprintf`**, for one directive. -/
structure Printf where
  /-- A number, after the conversion to the C type of the directive. -/
  number : Bytes → Number → Bytes
  /-- A string. -/
  string : Bytes → Bytes → Bytes
  /-- `%s` copies a string up to its first NUL. -/
  string_plain : ∀ s, string (bytes "%s") s = s.takeWhile (· ≠ 0)

section Render

variable {α : Type} (P : Printf)

/-- `addquoted`. -/
def quoted (s : Bytes) : Bytes :=
  bytes "\"" ++ s.flatMap (fun c =>
    if c = 34 ∨ c = 92 ∨ c = 10 then [92, c]
    else if c = 13 then bytes "\\r"
    else if c = 0 then bytes "\\000"
    else [c]) ++ bytes "\""

/-- What a directive writes for an argument: what `sprintf` has put in the
buffer, up to the first NUL – but a long string without a precision is not put
there. -/
def convert (form : Bytes) (conv : UInt8) (v : Value α) : Option Bytes :=
  if conv = 115 then
    v.checkString.map (fun s =>
      if 46 ∉ form ∧ 100 ≤ s.length then s else (P.string form s).takeWhile (· ≠ 0))
  else if conv = 113 then v.checkString.map quoted
  else v.checkNumber.map (fun n => (P.number form n).takeWhile (· ≠ 0))

/-- **What the pieces of a format write**, an argument for each directive. -/
def render : List Piece → List (Value α) → Except FormatError Bytes
  | [], _ => .ok []
  | .char c :: ps, args => (render ps args).map ([c] ++ ·)
  | .percent :: ps, args => (render ps args).map ([percentByte] ++ ·)
  | .item form conv :: ps, args =>
    match args.head?.bind (convert P form conv) with
    | some out => (render ps args.tail).map (out ++ ·)
    | none => .error .badArgument
  | .bad e :: _, _ => .error e

/-- **`string.format(fmt, …)`.** -/
def format (fmt : Bytes) (args : List (Value α)) : Except FormatError Bytes :=
  render P (pieces fmt) args

/-! ## Formats without arguments -/

theorem piecesFrom_of_notMem {b : Bytes} (h : percentByte ∉ b) :
    piecesFrom 0 b = b.map Piece.char := by
  induction b with
  | nil => rfl
  | cons c b ih =>
    rw [List.mem_cons, not_or] at h
    rw [piecesFrom, if_neg (Ne.symm h.1), ih h.2, List.map_cons]

theorem render_chars_append (b : Bytes) (ps : List Piece) (args : List (Value α)) :
    render P (b.map Piece.char ++ ps) args = (render P ps args).map (b ++ ·) := by
  induction b with
  | nil => rcases h : render P ps args <;> simp [Except.map, h]
  | cons c b ih =>
    rw [List.map_cons, List.cons_append, render, ih]
    rcases render P ps args <;> simp [Except.map]

theorem render_chars (b : Bytes) (args : List (Value α)) :
    render P (b.map Piece.char) args = .ok b := by
  have h := render_chars_append P b [] args
  rw [List.append_nil] at h
  rw [h]
  simp [render, Except.map]

/-- **A text without a `%` writes itself**, whatever the arguments. -/
theorem format_of_notMem {fmt : Bytes} (h : percentByte ∉ fmt) (args : List (Value α)) :
    format P fmt args = .ok fmt := by
  rw [format, pieces, piecesFrom_of_notMem h, render_chars]

theorem map_eq_ok {ε β γ : Type} {f : β → γ} {x : Except ε β} {c : γ} :
    x.map f = .ok c ↔ ∃ b, x = .ok b ∧ f b = c := by
  cases x <;> simp [Except.map]

/-- `%%` is the only directive that takes one byte and no argument. -/
theorem directive_eq_percent {b : Bytes} {skip : ℕ} (h : directive b = (.percent, skip)) :
    b.head? = some percentByte ∧ skip = 1 := by
  unfold directive at h
  split at h
  · next hb => exact ⟨hb, (Prod.mk.inj h).2.symm⟩
  · split at h
    · exact absurd (Prod.mk.inj h).1 (by simp)
    · simp only at h
      split at h <;> exact absurd (Prod.mk.inj h).1 (by simp)

theorem directive_ne_char (b : Bytes) (c : UInt8) (skip : ℕ) :
    directive b ≠ (.char c, skip) := by
  intro h
  unfold directive at h
  split at h
  · exact absurd (Prod.mk.inj h).1 (by simp)
  · split at h
    · exact absurd (Prod.mk.inj h).1 (by simp)
    · simp only at h
      split at h <;> exact absurd (Prod.mk.inj h).1 (by simp)

/-- What is written without arguments is no longer than the format, and shorter
if there was a `%` in it: for each one that is written there were two. -/
theorem length_render_le {b : Bytes} {skip : ℕ} {out : Bytes}
    (h : render P (piecesFrom skip b) ([] : List (Value α)) = .ok out) :
    out.length ≤ b.length - skip ∧ (skip = 0 → out.length = b.length → percentByte ∉ b) := by
  induction b generalizing skip out with
  | nil =>
    rw [piecesFrom, render] at h
    obtain rfl := Except.ok.inj h
    exact ⟨Nat.zero_le _, fun _ _ => List.not_mem_nil⟩
  | cons c b ih =>
    rcases skip with _ | skip
    · rw [piecesFrom] at h
      split at h
      · rcases hd : directive b with ⟨piece, skip⟩
        rw [hd] at h
        cases piece with
        | bad e => exact absurd h (by simp [render])
        | item form conv => exact absurd h (by simp [render])
        | char d => exact absurd hd (directive_ne_char b d skip)
        | percent =>
          obtain ⟨hhead, rfl⟩ := directive_eq_percent hd
          obtain ⟨rest, hrest, rfl⟩ := map_eq_ok.mp h
          have hle := (ih hrest).1
          obtain ⟨b, rfl⟩ := List.head?_eq_some_iff.mp hhead
          simp only [List.length_append, List.length_cons, List.length_nil] at hle ⊢
          exact ⟨by omega, fun _ hlen => absurd hlen (by omega)⟩
      · next hc =>
        obtain ⟨rest, hrest, rfl⟩ := map_eq_ok.mp h
        have hle := ih hrest
        simp only [List.length_append, List.length_cons, List.length_nil, List.mem_cons, not_or]
        exact ⟨by omega, fun _ hlen => ⟨Ne.symm hc, hle.2 rfl (by omega)⟩⟩
    · rw [piecesFrom] at h
      have hle := (ih h).1
      rw [List.length_cons]
      exact ⟨by omega, fun h0 => absurd h0 (Nat.succ_ne_zero skip)⟩

/-- **Without arguments nothing but a text without a `%` writes itself.** -/
theorem notMem_of_format {fmt : Bytes} (h : format P fmt ([] : List (Value α)) = .ok fmt) :
    percentByte ∉ fmt :=
  (length_render_le P h).2 rfl rfl

/-! ## What can put a `%` in a text -/

/-- **No `%` comes of the pieces of a format**: none of them is `%%`, and none of
the directives writes one for its argument. -/
def Harmless : List Piece → List (Value α) → Prop
  | [], _ => True
  | .char _ :: ps, args => Harmless ps args
  | .percent :: _, _ => False
  | .item form conv :: ps, args =>
    (∀ out, args.head?.bind (convert P form conv) = some out → percentByte ∉ out)
      ∧ Harmless ps args.tail
  | .bad _ :: _, _ => True

/-- What is copied is no `%`. -/
theorem ne_of_char_mem_piecesFrom {b : Bytes} {skip : ℕ} {c : UInt8}
    (h : Piece.char c ∈ piecesFrom skip b) : c ≠ percentByte := by
  induction b generalizing skip with
  | nil =>
    rw [piecesFrom] at h
    exact absurd h List.not_mem_nil
  | cons d b ih =>
    rcases skip with _ | skip
    · rw [piecesFrom] at h
      split at h
      · rcases hd : directive b with ⟨piece, skip⟩
        rw [hd] at h
        cases piece with
        | char e => exact absurd hd (directive_ne_char b e skip)
        | percent => exact ih (by simpa using h)
        | item form conv => exact ih (by simpa using h)
        | bad e => exact absurd h (by simp)
      · next hd =>
        rcases List.mem_cons.mp h with heq | h
        · rwa [Piece.char.inj heq]
        · exact ih h
    · rw [piecesFrom] at h
      exact ih h

/-- **A text has a `%` in it exactly when one of the pieces puts it there.** -/
theorem notMem_render_iff {ps : List Piece} (hps : ∀ c, Piece.char c ∈ ps → c ≠ percentByte)
    {args : List (Value α)} {text : Bytes} (h : render P ps args = .ok text) :
    percentByte ∉ text ↔ Harmless P ps args := by
  induction ps generalizing args text with
  | nil =>
    obtain rfl := Except.ok.inj h
    simp [Harmless]
  | cons piece ps ih =>
    have hrest : ∀ c, Piece.char c ∈ ps → c ≠ percentByte := fun c hc =>
      hps c (List.mem_cons_of_mem _ hc)
    cases piece with
    | char c =>
      obtain ⟨rest, hr, rfl⟩ := map_eq_ok.mp h
      have hc := hps c List.mem_cons_self
      rw [Harmless, ← ih hrest hr]
      simp [Ne.symm hc]
    | percent =>
      obtain ⟨rest, hr, rfl⟩ := map_eq_ok.mp h
      simp [Harmless]
    | item form conv =>
      rw [render] at h
      rcases hout : args.head?.bind (convert P form conv) with _ | out
      · rw [hout] at h
        exact absurd h (by simp)
      · rw [hout] at h
        obtain ⟨rest, hr, rfl⟩ := map_eq_ok.mp h
        rw [Harmless, ← ih hrest hr, hout]
        simp [not_or]
    | bad e => exact absurd h (by simp [render])

theorem notMem_format_iff {fmt : Bytes} {args : List (Value α)} {text : Bytes}
    (h : format P fmt args = .ok text) :
    percentByte ∉ text ↔ Harmless P (pieces fmt) args :=
  notMem_render_iff P (fun _ hc => ne_of_char_mem_piecesFrom hc) h

/-- `%s` writes a string as the server's messages have it. -/
theorem convert_string (s : Bytes) :
    convert P (bytes "%s") 115 (.string s : Value α) = some (formatString s) := by
  have hplain : (46 : UInt8) ∉ bytes "%s" := by decide
  simp only [convert, if_true, Value.checkString, Option.map_some, formatString, hplain,
    not_false_eq_true, true_and, P.string_plain]
  split
  · rfl
  · rw [List.takeWhile_takeWhile]
    simp

end Render

end Felt
