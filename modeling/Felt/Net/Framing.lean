import Felt.Lua.Arith
import Felt.Lua.Triple
import Felt.Net.Socket

/-!
# Sending and receiving messages

Both ends of a connection, and the helpers for sockets, send a message as a
frame and receive it in the same three moves: read a line, make it a number,
read that many bytes. `recvall` does so until the stream is at its end.

The number in the header is the length of the text. What stands behind it is
what `string.format` makes of the text, and that is not always as long: a
`%s` of fewer than a hundred bytes goes through C, where a string ends with
its first NUL. The text is cut there, the header is not, and the receiver goes
on to take the next frame for the rest of it. `readBack_frames_iff` says that
this is all that can go wrong.

The proof is an induction on the stream with two lemmas about its first frame. If
the frame carries its text the text is read, and the stream goes on behind it. If
it does not, the reader has asked for more bytes than the frame has, and either
takes them from the next one – so that what it reads is no text that was sent –
or waits for what never comes.
-/

namespace Felt

namespace Net

/-- What receiving a message may raise. -/
inductive FrameError where
  /-- `corrupt message header`. -/
  | corruptHeader (line : Bytes)
  /-- The connection is closed before the message is read. -/
  | closed
  deriving DecidableEq

/-- **How many bytes `receive` reads** when it is asked for a number of
them. -/
structure Sizes where
  /-- The number of bytes. -/
  size : Number → ℕ
  /-- A natural number stands for itself. -/
  size_natCast : ∀ n : ℕ, size (.fin n) = n

/-- `recv()`: the next line of a stream that is there to its end. -/
def readLine : Run Inbox FrameError Bytes := fun s =>
  match s.receiveLine s.unread.length with
  | (.line l, s') => .ok l s'
  | (_, s') => .error .closed s'

/-- **`recvmsg`.** -/
def recvmsg (S : Sizes) : Run Inbox FrameError Bytes := do
  let line ← readLine
  let len ← Run.assertSome (Number.tonumber line) (.corruptHeader line)
  let buf ← Inbox.receiveCount (S.size len)
  Run.assertSome buf .closed

/-- Receive messages up to the end of the stream, at most `fuel` of them. -/
def recvall (S : Sizes) : ℕ → Run Inbox FrameError (List Bytes)
  | 0 => Run.timeout
  | fuel + 1 => do
    let s ← Run.get
    if s.unread = [] then pure []
    else do
      let buf ← recvmsg S
      let bufs ← recvall S fuel
      pure (buf :: bufs)

/-- A text whose length, read as a number, is as many bytes. -/
def Counted (S : Sizes) (buf : Bytes) : Prop := S.size (roundDouble buf.length) = buf.length

/-- Every text the interpreter can hold is one. -/
theorem counted_of_le (S : Sizes) {buf : Bytes} (h : buf.length ≤ 2 ^ 53) : Counted S buf := by
  unfold Counted
  rw [Number.roundDouble_natCast h, S.size_natCast]

/-! ## One frame -/

section Frame

variable {S : Sizes} {s : Inbox} {buf buf' rest : Bytes}

/-- A header is read off the stream. -/
theorem readLine_header {n : ℕ} (hs : s.unread = decimal n ++ 10 :: rest) :
    readLine s = .ok (decimal n) { s with unread := rest } := by
  have hten : 10 ∈ s.unread.take s.unread.length := by
    rw [List.take_length, hs]
    exact List.mem_append_right _ List.mem_cons_self
  unfold readLine
  rw [receiveLine_header hs hten]

/-- **What `recvmsg` does with a frame**: it asks for as many bytes as the
header says, of whatever is behind the header. -/
theorem recvmsg_frame (hs : s.unread = frame buf ++ rest) :
    recvmsg S s = (Inbox.receiveCount (S.size (roundDouble buf.length)) >>= fun b =>
      Run.assertSome b .closed) { s with unread := formatString buf ++ rest } := by
  have hs' : s.unread = decimal buf.length ++ 10 :: (formatString buf ++ rest) := by
    rw [hs, frame, List.append_assoc, List.cons_append]
  rw [recvmsg, Run.bind_of_ok (readLine_header hs')]
  show (Run.assertSome (Number.tonumber (decimal buf.length)) _ >>= _) _ = _
  rw [Number.tonumber_decimal, Run.bind_of_ok (Run.assertSome_some _ _ _)]

/-- **A frame that carries its text is read whole.** -/
theorem recvmsg_whole (hbuf : Whole buf) (hcount : Counted S buf)
    (hs : s.unread = frame buf ++ rest) :
    recvmsg S s = .ok buf { s with unread := rest } := by
  rw [recvmsg_frame hs, formatString_of_whole hbuf, hcount,
    Run.bind_of_ok (receiveCount_body (s := { s with unread := buf ++ rest }) rfl)]
  rfl

/-- A message that is received has the length its header says, and stood
behind it. -/
theorem eq_append_of_recvmsg {s' : Inbox} (hs : s.unread = frame buf ++ rest)
    (h : recvmsg S s = .ok buf' s') :
    buf'.length = S.size (roundDouble buf.length)
      ∧ buf' ++ s'.unread = formatString buf ++ rest := by
  rw [recvmsg_frame hs] at h
  obtain ⟨b, s₁, hcount, hassert⟩ := Run.bind_eq_ok.mp h
  unfold Inbox.receiveCount at hcount
  split_ifs at hcount with hle
  · cases hcount
    cases hassert
    exact ⟨List.length_take_of_le hle, List.take_append_drop _ _⟩
  · cases hcount
    cases hassert

end Frame

/-- A text that is not whole is cut at a NUL. -/
theorem exists_eq_of_not_whole {buf : Bytes} (h : ¬Whole buf) :
    ∃ tail, buf = formatString buf ++ 0 :: tail := by
  obtain ⟨hlen, hzero⟩ := not_or.mp h
  have hcut : formatString buf = buf.takeWhile (· ≠ 0) := by
    rw [formatString, if_neg hlen]
  have hrest : buf.dropWhile (· ≠ 0) ≠ [] := fun hnil => by
    rw [List.dropWhile_eq_nil_iff] at hnil
    have := hnil 0 (not_not.mp hzero)
    simp at this
  obtain ⟨c, tail, hc⟩ := List.exists_cons_of_ne_nil hrest
  have hc0 : c = 0 := by
    have hhead := List.head_dropWhile_not (fun c => decide (c ≠ 0)) hrest
    simp only [hc, List.head_cons] at hhead
    simpa using hhead
  refine ⟨tail, ?_⟩
  rw [hcut, ← show List.dropWhile _ buf = 0 :: tail from hc0 ▸ hc,
    List.takeWhile_append_dropWhile]

/-- No stream of frames starts with a NUL. -/
theorem head_frames_ne_zero (bufs : List Bytes) (rest : Bytes) : frames bufs ≠ 0 :: rest := by
  intro h
  cases bufs with
  | nil => cases h
  | cons buf bufs =>
    obtain ⟨c, tail, hc, hdigit⟩ := exists_frame_eq buf
    rw [frames_cons, hc] at h
    exact ne_of_isDigit hdigit rfl (List.cons.inj h).1

/-! ## The whole stream -/

/-- Reading a line takes at least its end off the stream. -/
theorem readLine_ends {s : Inbox} (h : s.closes = true) :
    Run.Ends readLine s (fun _ s' => s'.unread.length < s.unread.length ∧ s'.closes = true)
      (fun _ _ => True) := by
  by_cases hten : 10 ∈ s.unread
  · refine Or.inl ⟨(s.unread.takeWhile (· ≠ 10)).filter (· ≠ 13),
      { s with unread := (s.unread.dropWhile (· ≠ 10)).drop 1 }, ?_, ?_, h⟩
    · simp only [readLine, Inbox.receiveLine]
      rw [List.take_length, if_pos hten]
    · have hpos := List.length_pos_of_mem hten
      have hle := (List.dropWhile_sublist (l := s.unread) (· ≠ 10)).length_le
      rw [List.length_drop]
      omega
  · refine Or.inr ⟨.closed, { s with unread := s.unread.drop s.unread.length }, ?_, trivial⟩
    simp only [readLine, Inbox.receiveLine]
    rw [List.take_length, if_neg hten, if_pos ⟨h, le_rfl⟩]

/-- **Receiving a message ends**, and takes something off the stream. -/
theorem recvmsg_ends (S : Sizes) {s : Inbox} (h : s.closes = true) :
    Run.Ends (recvmsg S) s (fun _ s' => s'.unread.length < s.unread.length ∧ s'.closes = true)
      (fun _ _ => True) := by
  refine (readLine_ends h).bind (fun line s₁ h₁ => ?_)
  refine Run.Ends.bind (Run.Ends.assertSome (Q := fun _ s' => s' = s₁) (fun _ _ => rfl)
    (fun _ => trivial)) (fun n s₂ h₂ => ?_)
  subst h₂
  refine Run.Ends.bind (M := fun _ s' => s'.unread.length < s.unread.length ∧ s'.closes = true) ?_
    (fun buf s₃ h₃ => Run.Ends.assertSome (fun _ _ => h₃) (fun _ => trivial))
  unfold Run.Ends Inbox.receiveCount
  split_ifs
  · refine Or.inl ⟨_, _, rfl, ?_, h₁.2⟩
    show (s₂.unread.drop _).length < _
    rw [List.length_drop]
    omega
  · exact Or.inl ⟨_, _, rfl, Nat.zero_lt_of_lt h₁.1, h₁.2⟩
  · exact absurd h₁.2 ‹_›

/-- **Receiving everything ends**: one message for each byte is more than
there can be. -/
theorem recvall_ne_timeout (S : Sizes) {fuel : ℕ} {s : Inbox} (h : s.closes = true)
    (hfuel : s.unread.length < fuel) : recvall S fuel s ≠ .timeout := by
  induction fuel generalizing s with
  | zero => omega
  | succ fuel ih =>
    show (if s.unread = [] then _ else _ : Run Inbox FrameError _) s ≠ _
    split_ifs with hnil
    · nofun
    · rcases recvmsg_ends S h with ⟨buf, s', hbuf, hlt, h'⟩ | ⟨e, s', he, -⟩
      · rw [Run.bind_of_ok hbuf]
        exact Run.bind_ne_timeout (ih h' (by omega)) (fun _ _ _ => nofun)
      · rw [Run.bind_of_error he]
        nofun

/-- **The messages that are read back** from a stream that ends. -/
def readBack (S : Sizes) (stream : Bytes) : Outcome Inbox FrameError (List Bytes) :=
  recvall S (stream.length + 1) ⟨stream, true⟩

theorem readBack_ne_timeout (S : Sizes) (stream : Bytes) : readBack S stream ≠ .timeout :=
  recvall_ne_timeout S rfl (Nat.lt_succ_self _)

/-- A frame is at least two bytes long. -/
theorem length_frame_pos (buf : Bytes) : 0 < (frame buf).length := by
  rw [frame, List.length_append, List.length_cons]
  omega

/-- **Frames that carry their texts are read back**, by a reader that goes on
for long enough. -/
theorem recvall_frames {S : Sizes} {payloads : List Bytes}
    (h : ∀ buf ∈ payloads, Whole buf ∧ Counted S buf) {fuel : ℕ}
    (hfuel : (frames payloads).length < fuel) :
    recvall S fuel ⟨frames payloads, true⟩ = .ok payloads ⟨[], true⟩ := by
  induction payloads generalizing fuel with
  | nil =>
    obtain ⟨fuel, rfl⟩ := Nat.exists_eq_add_of_lt hfuel
    rfl
  | cons buf payloads ih =>
    obtain ⟨hbuf, hrest⟩ := List.forall_mem_cons.mp h
    rw [frames_cons, List.length_append] at hfuel
    have hpos := length_frame_pos buf
    obtain ⟨fuel, rfl⟩ : ∃ n, fuel = n + 1 := ⟨fuel - 1, by omega⟩
    have hne : frames (buf :: payloads) ≠ [] := by
      rw [frames_cons]
      exact List.append_ne_nil_of_left_ne_nil (List.ne_nil_of_length_pos hpos) _
    show (if frames (buf :: payloads) = [] then _ else _ : Run Inbox FrameError _) _ = _
    have hall : recvall S fuel ⟨frames payloads, true⟩ = .ok payloads ⟨[], true⟩ :=
      ih hrest (by omega)
    rw [if_neg hne, Run.bind_of_ok (recvmsg_whole hbuf.1 hbuf.2 (frames_cons buf payloads))]
    exact Run.bind_of_ok hall

/-- **What is read back whole was carried whole.** -/
theorem whole_of_recvall_frames {S : Sizes} {payloads : List Bytes} {fuel : ℕ}
    (h : recvall S fuel ⟨frames payloads, true⟩ = .ok payloads ⟨[], true⟩) :
    ∀ buf ∈ payloads, Whole buf ∧ Counted S buf := by
  induction payloads generalizing fuel with
  | nil => nofun
  | cons buf payloads ih =>
    cases fuel with
    | zero => cases h
    | succ fuel =>
      have hne : frames (buf :: payloads) ≠ [] := by
        rw [frames_cons]
        exact List.append_ne_nil_of_left_ne_nil
          (List.ne_nil_of_length_pos (length_frame_pos buf)) _
      change (if frames (buf :: payloads) = [] then _ else _ : Run Inbox FrameError _) _ = _ at h
      rw [if_neg hne] at h
      obtain ⟨buf', s', hbuf, h⟩ := Run.bind_eq_ok.mp h
      obtain ⟨bufs, s'', hbufs, h⟩ := Run.bind_eq_ok.mp h
      obtain ⟨rfl, rfl, rfl⟩ : buf' = buf ∧ bufs = payloads ∧ s'' = ⟨[], true⟩ := by
        cases h
        exact ⟨rfl, rfl, rfl⟩
      obtain ⟨hlen, happend⟩ := eq_append_of_recvmsg rfl hbuf
      have hwhole : Whole buf' := by
        by_contra hcut
        obtain ⟨tail, htail⟩ := exists_eq_of_not_whole hcut
        -- the NUL would have to be the first byte of the next header
        refine head_frames_ne_zero bufs (tail ++ s'.unread)
          (List.append_cancel_left (?_ : formatString buf' ++ _ = formatString buf' ++ _))
        calc formatString buf' ++ frames bufs
            = buf' ++ s'.unread := happend.symm
          _ = (formatString buf' ++ 0 :: tail) ++ s'.unread := by rw [← htail]
          _ = formatString buf' ++ 0 :: (tail ++ s'.unread) := by rw [List.append_assoc]; rfl
      have hcount : Counted S buf' := hlen.symm
      obtain rfl : (⟨frames bufs, true⟩ : Inbox) = s' := by
        rw [recvmsg_whole hwhole hcount (frames_cons buf' bufs)] at hbuf
        cases hbuf
        rfl
      exact List.forall_mem_cons.mpr ⟨⟨hwhole, hcount⟩, ih hbufs⟩

/-- **Framing carries a list of texts exactly when it carries each of
them**: a text of fewer than a hundred bytes must not have a NUL in it. -/
theorem readBack_frames_iff (S : Sizes) (payloads : List Bytes) :
    readBack S (frames payloads) = .ok payloads ⟨[], true⟩
      ↔ ∀ buf ∈ payloads, Whole buf ∧ Counted S buf :=
  ⟨whole_of_recvall_frames, fun h => recvall_frames h (Nat.lt_succ_self _)⟩

/-- A reader of as many bytes as the number is, rounded down. -/
def Sizes.floor : Sizes where
  size n := match n with
    | .fin q => ⌊q⌋.toNat
    | _ => 0
  size_natCast n := by
    show ⌊((n : ℕ) : ℚ)⌋.toNat = n
    rw [Int.floor_natCast, Int.toNat_natCast]

/-- **A NUL in a short text is lost**, and the connection with it: the frame
of the text that is a NUL alone is a header without a body. -/
theorem not_readBack_frames :
    ¬ ∀ payloads : List Bytes,
      readBack Sizes.floor (frames payloads) = .ok payloads ⟨[], true⟩ := by
  intro h
  have hwhole := (whole_of_recvall_frames (h [[0]]) [0] (List.mem_singleton_self _)).1
  exact absurd hwhole (by decide)

end Net

end Felt
