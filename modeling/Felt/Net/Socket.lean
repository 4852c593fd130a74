import Felt.Lua.Run
import Felt.Lua.Number

/-!
# A socket, and the frames on it

What one end of a connection still has to read is a string of bytes, of which
a prefix has arrived at any moment. A socket with a timeout reads as much of
it as has arrived; `receive("*l")` answers a line when the prefix holds one,
and otherwise gives up at the deadline – and what it had read until then is
gone from the socket. A socket without a timeout waits: `receive(n)` answers
`n` bytes as soon as there are `n` to come.

A message travels as a frame: the decimal length of its text, a newline and
the text – as `string.format` writes it, which for a text of fewer than a
hundred bytes is what C takes for a string: the bytes before the first NUL.

Whether a prefix has arrived is up to the network, and is a parameter of every
read with a timeout. A read without one does not depend on it. What is written
has no such type: a socket takes as much of a text as it likes, and what it has
taken is on the other side's stream in that order (`Felt.Client.Writer`).

The number in a header goes through `tonumber`, which reads more than numerals,
and through a conversion to a size that C leaves undefined for what is no size.
So `receive` is given whatever number a line is, and only for the sizes of texts
that exist is it known what it asks for.
-/

namespace Felt

namespace Net

/-- What `receive("*l")` answers. -/
inductive LineResult where
  /-- A line, without its end. -/
  | line (l : Bytes)
  /-- `nil, "timeout"` and what was read. -/
  | timeout (part : Bytes)
  /-- `nil, "closed"` and what was read. -/
  | closed (part : Bytes)
  deriving DecidableEq

/-- **The receiving end of a connection**: what is still to come. -/
structure Inbox where
  /-- The bytes the peer sends that are not read yet. -/
  unread : Bytes
  /-- The peer closes the connection behind them. -/
  closes : Bool
  deriving DecidableEq

/-- **`receive("*l")`** when `arrived` of the unread bytes have arrived by the
deadline. A line ends with a line feed; carriage returns are ignored. -/
def Inbox.receiveLine (arrived : ℕ) (s : Inbox) : LineResult × Inbox :=
  let here := s.unread.take arrived
  if 10 ∈ here then
    (.line ((here.takeWhile (· ≠ 10)).filter (· ≠ 13)),
      { s with unread := (s.unread.dropWhile (· ≠ 10)).drop 1 })
  else
    (if s.closes ∧ s.unread.length ≤ arrived then .closed here else .timeout here,
      { s with unread := s.unread.drop arrived })

/-- **`receive(n)`** without a timeout: the next `n` bytes, unless the peer
closes before – which is `none` – or never sends them – which is a wait
without end. -/
def Inbox.receiveCount {ε : Type} (n : ℕ) : Run Inbox ε (Option Bytes) := fun s =>
  if n ≤ s.unread.length then .ok (some (s.unread.take n)) { s with unread := s.unread.drop n }
  else if s.closes then .ok none { s with unread := [] }
  else .timeout

/-- **`string.format("%d\n%s", #buf, buf)`.** -/
def frame (buf : Bytes) : Bytes := decimal buf.length ++ 10 :: formatString buf

/-- A text that its frame carries whole. -/
def Whole (buf : Bytes) : Prop := 100 ≤ buf.length ∨ 0 ∉ buf

instance (buf : Bytes) : Decidable (Whole buf) := by
  unfold Whole
  infer_instance

/-- The stream of a list of messages. -/
def frames (bufs : List Bytes) : Bytes := bufs.flatMap frame

@[simp] theorem frames_nil : frames [] = [] := rfl

@[simp] theorem frames_cons (buf : Bytes) (bufs : List Bytes) :
    frames (buf :: bufs) = frame buf ++ frames bufs := rfl

theorem formatString_of_whole {buf : Bytes} (h : Whole buf) : formatString buf = buf := by
  unfold formatString
  split
  · rfl
  · next hlen =>
    refine List.takeWhile_eq_self_iff.mpr (fun c hc => ?_)
    have h0 := h.resolve_left hlen
    simpa using ne_of_mem_of_not_mem hc h0

theorem frame_of_whole {buf : Bytes} (h : Whole buf) :
    frame buf = decimal buf.length ++ 10 :: buf := by
  rw [frame, formatString_of_whole h]

/-- A frame starts with a digit. -/
theorem exists_frame_eq (buf : Bytes) : ∃ c rest, frame buf = c :: rest ∧ isDigit c = true := by
  obtain ⟨c, digits, hc⟩ := List.exists_cons_of_ne_nil (decimal_ne_nil buf.length)
  refine ⟨c, digits ++ 10 :: formatString buf, ?_, ?_⟩
  · rw [frame, hc]
    rfl
  · exact isDigit_of_mem_decimal (hc ▸ List.mem_cons_self)

/-! ## Reading a header -/

/-- No digit ends a line or is ignored in one. -/
theorem not_mem_decimal {c : UInt8} (hc : isDigit c = false) (n : ℕ) : c ∉ decimal n :=
  fun h => ne_of_isDigit (isDigit_of_mem_decimal h) hc rfl

/-- The line end of a header has arrived exactly when more than its digits
have. -/
theorem newline_mem_take_header (n : ℕ) (rest : Bytes) (arrived : ℕ) :
    10 ∈ (decimal n ++ 10 :: rest).take arrived ↔ (decimal n).length < arrived := by
  constructor
  · intro h
    by_contra hle
    rw [List.take_append_of_le_length (by omega)] at h
    exact not_mem_decimal rfl n (List.mem_of_mem_take h)
  · intro h
    rw [List.take_append, List.take_of_length_le h.le]
    obtain ⟨k, hk⟩ : ∃ k, arrived - (decimal n).length = k + 1 :=
      ⟨arrived - (decimal n).length - 1, by omega⟩
    rw [hk, List.take_succ_cons]
    simp

/-- **A header whose line has arrived is read off the stream.** -/
theorem receiveLine_header {s : Inbox} {n arrived : ℕ} {rest : Bytes}
    (hs : s.unread = decimal n ++ 10 :: rest) (h : 10 ∈ s.unread.take arrived) :
    s.receiveLine arrived = (.line (decimal n), { s with unread := rest }) := by
  have hlt : (decimal n).length < arrived := by
    rw [hs] at h
    exact (newline_mem_take_header n rest arrived).mp h
  have hten : ∀ c ∈ decimal n, decide (c ≠ 10) = true := fun c hc =>
    decide_eq_true (ne_of_isDigit (isDigit_of_mem_decimal hc) rfl)
  have hline : (s.unread.take arrived).takeWhile (· ≠ 10) = decimal n := by
    obtain ⟨k, hk⟩ : ∃ k, arrived - (decimal n).length = k + 1 :=
      ⟨arrived - (decimal n).length - 1, by omega⟩
    rw [hs, List.take_append, List.take_of_length_le hlt.le, hk, List.take_succ_cons,
      List.takeWhile_append_of_pos hten, List.takeWhile_cons_of_neg (by simp),
      List.append_nil]
  have hrest : (s.unread.dropWhile (· ≠ 10)).drop 1 = rest := by
    rw [hs, List.dropWhile_append_of_pos hten, List.dropWhile_cons_of_neg (by simp)]
    rfl
  have hcr : (decimal n).filter (· ≠ 13) = decimal n := by
    refine List.filter_eq_self.mpr (fun c hc => ?_)
    exact decide_eq_true (ne_of_isDigit (isDigit_of_mem_decimal hc) rfl)
  simp only [Inbox.receiveLine]
  rw [if_pos h, hline, hrest, hcr]

/-- A deadline that passes before anything has arrived takes nothing. -/
theorem receiveLine_nothing {s : Inbox} {arrived : ℕ} (h : s.unread.take arrived = []) :
    s.receiveLine arrived
      = (if s.closes ∧ s.unread.length ≤ arrived then .closed [] else .timeout [], s) := by
  have hdrop : s.unread.drop arrived = s.unread := by
    have := List.take_append_drop arrived s.unread
    rwa [h, List.nil_append] at this
  simp only [Inbox.receiveLine]
  rw [h, if_neg (List.not_mem_nil), hdrop]

/-- **The body behind a header is there to be read.** -/
theorem receiveCount_body {ε : Type} {s : Inbox} {buf rest : Bytes} (hs : s.unread = buf ++ rest) :
    (Inbox.receiveCount buf.length : Run Inbox ε _) s
      = .ok (some buf) { s with unread := rest } := by
  have hle : buf.length ≤ s.unread.length := by
    rw [hs, List.length_append]
    omega
  unfold Inbox.receiveCount
  rw [if_pos hle, hs, List.take_left, List.drop_left]

end Net

end Felt
