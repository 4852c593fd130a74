import Felt.Lua.Arith
import Felt.Lua.Triple
import Felt.Net.Socket

/-!
# The client's main loop and its reader

`client.step` reads at most one message from the server and writes at most
one. The header of a message is read with a short timeout – the user interface
must not be kept waiting when the server has nothing to say – and its body
without one, as the rest of a frame is on its way.

The reader forgets what a header read that timed out has read. The bytes are
gone, and the next read takes the rest of the header for a header. Whether
that happens is up to the network: `reader_faithful` says that as long as no
deadline cuts a header in two – and every message is one that its frame
carries – the client handles exactly what the server sent, and
`not_reader_faithful` is what one cut does.

What a message does when it is handled is a parameter, `Handlers`; so are the
texts the client writes.

The stream is cut up by deadlines, and a turn is one piece of it. When the header
has arrived the rest of the frame is waited for, so a turn either reads a whole
frame or reads a header and stops. `InStep` counts the messages that have been
handled against those that were sent; the writer has no part in it, but has to be
gone through, since it may end the connection.
-/

namespace Felt

namespace Client

open Net

/-- The errors `client.step` may meet. -/
inductive StepError (ε : Type) where
  /-- `Malformed message header: `. -/
  | malformedHeader (line : Bytes)
  /-- What a call of the socket failed with. -/
  | socket (err : Bytes)
  /-- An operation the interpreter refuses on the value it was given. -/
  | refused (operation : String)
  /-- An error of packing, of unpacking or of a handler. -/
  | raised (e : ε)
  deriving DecidableEq

/-- What `_socket:send` answers. -/
inductive SendResult where
  /-- All of it was accepted. -/
  | sent
  /-- `nil, "timeout", last`: the first `last` bytes were. -/
  | timeout (last : ℕ)
  /-- Another error. -/
  | failed (err : Bytes)
  deriving DecidableEq

/-- **What the network does during a call of `client.step`.** -/
structure Turn where
  /-- How many of the unread bytes have arrived by the reader's deadline. -/
  arrived : ℕ
  /-- What a `send` of the writer answers. -/
  sent : SendResult
  /-- `getpeername` still answers, and this many bytes of a last message are
  accepted. -/
  farewell : Option ℕ
  deriving DecidableEq

/-- **What the client brings to its main loop**: how it handles and packs
messages, over its own state `τ` and messages `μ`. -/
structure Handlers (ε μ τ : Type) where
  /-- `box.unpack`, and what `DispatchMessage` does with the answer. -/
  handle : Bytes → Run τ ε Unit
  /-- `box.pack`, with the table of known objects. -/
  pack : μ → Run τ ε Bytes
  /-- `box.pack { method = "chat"; text }`. -/
  packChat : Bytes → Bytes
  /-- The whole number of bytes `receive` asks for, when it is given a
  number. -/
  size : Number → ℕ
  /-- A number of bytes is one. -/
  size_natCast : ∀ n : ℕ, n ≤ 2 ^ 53 → size (.fin n) = n

/-- **The client**, as `client.step` sees it. Nothing reads the last three
fields. -/
structure State (ε μ τ : Type) where
  /-- `_socket`. -/
  socket : Option Inbox
  /-- `_break`. -/
  isBroken : Bool
  /-- `_info.name`. -/
  name : Bytes
  /-- `_sendq`. -/
  sendq : List μ
  /-- `_sendbuf`. -/
  sendbuf : Option Bytes
  /-- The game, the table of known objects and the user interface. -/
  world : τ
  /-- What was written to the socket. -/
  written : Bytes
  /-- The messages that were handled, by their texts. -/
  dispatched : List Bytes
  /-- The errors that were logged. -/
  log : List (StepError ε)

variable {ε μ τ : Type}

/-- The state after `client.connect`, with the stream that is to come. -/
def connected (name : Bytes) (world : τ) (inbox : Inbox) : State ε μ τ where
  socket := some inbox
  isBroken := false
  name := name
  sendq := []
  sendbuf := none
  world := world
  written := []
  dispatched := []
  log := []

/-- Run a computation on the client's own state. -/
def onWorld {α : Type} (x : Run τ ε α) : Run (State ε μ τ) (StepError ε) α := fun c =>
  match x c.world with
  | .ok a w => .ok a { c with world := w }
  | .error e w => .error (.raised e) { c with world := w }
  | .timeout => .timeout

/-- `_socket`, or the error of calling a method of `nil`. -/
def getSocket : Run (State ε μ τ) (StepError ε) Inbox := do
  let c ← Run.get
  Run.assertSome c.socket (.refused "index nil")

/-- The last message of a client: as much of it as is accepted, if the peer is
still there. -/
def sayFarewell (H : Handlers ε μ τ) (turn : Turn) (message : Bytes) :
    Run (State ε μ τ) (StepError ε) Unit :=
  match turn.farewell with
  | some accepted =>
    Run.modify (fun c => { c with written := c.written ++ (frame (H.packChat
      (formatString c.name ++ bytes " disconnecting: " ++ message))).take accepted })
  | none => pure ()

/-- `client.disconnect`. -/
def disconnect (H : Handlers ε μ τ) (turn : Turn) (message : Bytes) :
    Run (State ε μ τ) (StepError ε) Unit := do
  let _ ← getSocket
  sayFarewell H turn message
  Run.modify (fun c => { c with socket := none, isBroken := true })

/-- `_socket:receive("*l")`. -/
def receiveLine (turn : Turn) : Run (State ε μ τ) (StepError ε) LineResult := do
  let s ← getSocket
  Run.modify (fun c => { c with socket := some (s.receiveLine turn.arrived).2 })
  pure (s.receiveLine turn.arrived).1

/-- `assert(_socket:receive(n))`, after `_socket:settimeout(-1)`. -/
def receiveCount (n : ℕ) : Run (State ε μ τ) (StepError ε) Bytes := fun c =>
  match c.socket with
  | none => .error (.refused "index nil") c
  | some s =>
    match (Inbox.receiveCount n : Run Inbox ε _) s with
    | .ok (some buf) s' => .ok buf { c with socket := some s' }
    | .ok none s' => .error (.socket (bytes "closed")) { c with socket := some s' }
    | .error e s' => .error (.raised e) { c with socket := some s' }
    | .timeout => .timeout

/-- Unpack a message and dispatch it, for the record too. -/
def dispatch (H : Handlers ε μ τ) (buf : Bytes) : Run (State ε μ τ) (StepError ε) Unit := do
  Run.modify (fun c => { c with dispatched := c.dispatched ++ [buf] })
  onWorld (H.handle buf)

/-- What `ServerReader` does once it is protected. -/
def readMessage (H : Handlers ε μ τ) (turn : Turn) : Run (State ε μ τ) (StepError ε) Unit := do
  match ← receiveLine turn with
  | .line result =>
    let n ← Run.assertSome (Number.tonumber result) (.malformedHeader result)
    let buf ← receiveCount (H.size n)
    dispatch H buf
  | .timeout _ => pure () -- what was read is dropped here
  | .closed _ => Run.throw (.socket (bytes "closed"))

/-- What the two protected calls do with an error: log it, and disconnect. -/
def giveUp (H : Handlers ε μ τ) (turn : Turn) (message : Bytes) (e : StepError ε) :
    Run (State ε μ τ) (StepError ε) Unit := do
  Run.modify (fun c => { c with log := c.log ++ [e] })
  disconnect H turn message

/-- `ServerReader`. -/
def serverReader (H : Handlers ε μ τ) (turn : Turn) : Run (State ε μ τ) (StepError ε) Unit :=
  Run.xpcall (readMessage H turn) (giveUp H turn (bytes "Receive error."))

/-- Fill `_sendbuf` from the queue, if it is empty. -/
def fillSendbuf (H : Handlers ε μ τ) : Run (State ε μ τ) (StepError ε) Unit := do
  let c ← Run.get
  match c.sendbuf, c.sendq with
  | none, msg :: rest =>
    Run.modify (fun c => { c with sendq := rest })
    let buf ← onWorld (H.pack msg)
    Run.modify (fun c => { c with sendbuf := some (frame buf) })
  | _, _ => pure ()

/-- What `ServerWriter` does once it is protected. -/
def writeMessage (H : Handlers ε μ τ) (turn : Turn) : Run (State ε μ τ) (StepError ε) Unit := do
  fillSendbuf H
  let c ← Run.get
  match c.sendbuf with
  | none => pure ()
  | some buf =>
    let _ ← getSocket
    match turn.sent with
    | .sent => Run.modify (fun c => { c with written := c.written ++ buf, sendbuf := none })
    | .timeout last =>
      Run.modify (fun c =>
        { c with written := c.written ++ buf.take last, sendbuf := some (buf.drop last) })
    | .failed err => Run.throw (.socket err)

/-- `ServerWriter`. -/
def serverWriter (H : Handlers ε μ τ) (turn : Turn) : Run (State ε μ τ) (StepError ε) Unit :=
  Run.xpcall (writeMessage H turn) (giveUp H turn (bytes "Send error."))

/-- **`client.step`.** -/
def step (H : Handlers ε μ τ) (turn : Turn) : Run (State ε μ τ) (StepError ε) Bool := do
  let _ ← getSocket
  serverReader H turn
  serverWriter H turn
  let c ← Run.get
  pure !c.isBroken

/-- `client.send`. -/
def send (msg : μ) (c : State ε μ τ) : State ε μ τ := { c with sendq := c.sendq ++ [msg] }

/-! ## Runs -/

/-- **What a run of the client reaches** when each of its turns meets `ok`:
calls of `client.step` and of `client.send` in any order. -/
inductive Reaches (H : Handlers ε μ τ) (ok : Turn → State ε μ τ → Prop)
    (c₀ : State ε μ τ) : State ε μ τ → Prop where
  /-- The state it starts in. -/
  | start : Reaches H ok c₀ c₀
  /-- A message is queued. -/
  | send {c : State ε μ τ} (msg : μ) (hc : Reaches H ok c₀ c) : Reaches H ok c₀ (send msg c)
  /-- A call of `client.step` returns. -/
  | step {c c' : State ε μ τ} {b : Bool} (turn : Turn) (hc : Reaches H ok c₀ c)
      (hok : ok turn c) (hstep : step H turn c = .ok b c') : Reaches H ok c₀ c'

/-- What a run keeps: the messages that were handled are the first ones, in
order and each once, the frames of all others are still to be read, and no
header was found malformed. -/
structure InStep (payloads : List Bytes) (c : State ε μ τ) : Prop where
  /-- What was handled. -/
  isPrefix : c.dispatched <+: payloads
  /-- What is still to come. -/
  unread : ∀ s, c.socket = some s → s.unread = frames (payloads.drop c.dispatched.length)
  /-- No header was malformed. -/
  noMalformed : ∀ line, .malformedHeader line ∉ c.log

/-- **The client loses nothing** of the messages the server sends: it is in
step with them, and a turn by whose deadline the next header has arrived
handles the next message. -/
structure Faithful (H : Handlers ε μ τ) (payloads : List Bytes) (c : State ε μ τ) : Prop
    extends InStep payloads c where
  /-- A header that has arrived has its message handled. -/
  next : ∀ s turn b c', c.socket = some s → 10 ∈ s.unread.take turn.arrived →
    step H turn c = .ok b c' →
    ∃ buf, payloads[c.dispatched.length]? = some buf ∧ c'.dispatched = c.dispatched ++ [buf]

/-- **No deadline cuts a header in two**: when the reader gives up, nothing
has arrived. -/
def HeaderWhole (turn : Turn) (c : State ε μ τ) : Prop :=
  ∀ s, c.socket = some s →
    s.unread.take turn.arrived = [] ∨ 10 ∈ s.unread.take turn.arrived

/-! ## What reading does -/

variable {H : Handlers ε μ τ} {turn : Turn} {c c' : State ε μ τ}

/-- A message whose frame carries it, and whose length is a number. -/
def Sendable (buf : Bytes) : Prop := Whole buf ∧ buf.length ≤ 2 ^ 53

/-- The state in which a message is handled. -/
def State.handling (c : State ε μ τ) (s : Inbox) (buf rest : Bytes) : State ε μ τ :=
  { c with
    socket := some { s with unread := rest }
    dispatched := c.dispatched ++ [buf] }

/-- **A frame whose header has arrived is read whole**, and its message is
handled. -/
theorem readMessage_frame {s : Inbox} {buf rest : Bytes} (hbuf : Sendable buf)
    (hc : c.socket = some s) (hs : s.unread = frame buf ++ rest)
    (harr : 10 ∈ s.unread.take turn.arrived) :
    readMessage H turn c = onWorld (H.handle buf) (c.handling s buf rest) := by
  have hs' : s.unread = decimal buf.length ++ 10 :: (buf ++ rest) := by
    rw [hs, frame_of_whole hbuf.1, List.append_assoc, List.cons_append]
  have hline := receiveLine_header hs' harr
  have hsize : H.size (roundDouble buf.length) = buf.length := by
    rw [Number.roundDouble_natCast hbuf.2, H.size_natCast _ hbuf.2]
  have hrecv : receiveLine turn c
      = .ok (.line (decimal buf.length))
          { c with socket := some { s with unread := buf ++ rest } } := by
    show (Run.assertSome c.socket _ >>= _) c = _
    rw [hc, Run.bind_of_ok (Run.assertSome_some _ _ _)]
    show Outcome.ok _ _ = _
    rw [hline]
  have hbody : receiveCount buf.length
        ({ c with socket := some { s with unread := buf ++ rest } } : State ε μ τ)
      = .ok buf { c with socket := some { s with unread := rest } } := by
    have h := receiveCount_body (ε := ε) (s := { s with unread := buf ++ rest }) rfl
    simp only [receiveCount]
    rw [h]
  rw [readMessage, Run.bind_of_ok hrecv]
  show (Run.assertSome (Number.tonumber (decimal buf.length)) _ >>= _) _ = _
  rw [Number.tonumber_decimal, Run.bind_of_ok (Run.assertSome_some _ _ _), hsize,
    Run.bind_of_ok hbody]
  rfl

/-- **A deadline before which nothing has arrived changes nothing.** -/
theorem readMessage_nothing {s : Inbox} (hc : c.socket = some s)
    (harr : s.unread.take turn.arrived = []) :
    readMessage H turn c = .ok () c
      ∨ readMessage H turn c = .error (.socket (bytes "closed")) c := by
  have hself : ({ c with socket := some s } : State ε μ τ) = c := by rw [← hc]
  have hrecv : receiveLine turn c = .ok (s.receiveLine turn.arrived).1 c := by
    show (Run.assertSome c.socket _ >>= _) c = _
    rw [hc, Run.bind_of_ok (Run.assertSome_some _ _ _), receiveLine_nothing harr]
    show Outcome.ok _ { c with socket := some s } = _
    rw [hself]
  rw [readMessage, Run.bind_of_ok hrecv, receiveLine_nothing harr]
  split_ifs
  · exact Or.inr rfl
  · exact Or.inl rfl

/-! ## What writing and giving up do -/

/-- What `c` has become without reading anything: its record is as it was in
`c₀`, and it still has the socket it had, or none. -/
structure State.Idle (c₀ c : State ε μ τ) : Prop where
  /-- Nothing more was handled. -/
  dispatched : c.dispatched = c₀.dispatched
  /-- The connection is as it was, or closed. -/
  socket : c.socket = c₀.socket ∨ c.socket = none
  /-- No header was found malformed. -/
  log : ∀ line, .malformedHeader line ∈ c.log → .malformedHeader line ∈ c₀.log

theorem State.Idle.refl (c : State ε μ τ) : c.Idle c :=
  ⟨rfl, Or.inl rfl, fun _ h => h⟩

theorem State.Idle.trans {c₁ c₂ c₃ : State ε μ τ} (h₁ : c₁.Idle c₂) (h₂ : c₂.Idle c₃) :
    c₁.Idle c₃ where
  dispatched := h₂.dispatched.trans h₁.dispatched
  socket := h₂.socket.elim (fun h => h.symm ▸ h₁.socket) Or.inr
  log line h := h₁.log line (h₂.log line h)

/-- **`x` reads nothing**: it leaves the client idle, and what it raises is
not about a header. -/
def ReadsNothing {α : Type} (x : Run (State ε μ τ) (StepError ε) α) : Prop :=
  ∀ c₀, Run.Triple (State.Idle c₀) x (fun _ => State.Idle c₀)
    (fun e c => State.Idle c₀ c ∧ ∀ line, e ≠ .malformedHeader line)

theorem ReadsNothing.bind {α β : Type} {x : Run (State ε μ τ) (StepError ε) α}
    {f : α → Run (State ε μ τ) (StepError ε) β} (hx : ReadsNothing x)
    (hf : ∀ a, ReadsNothing (f a)) : ReadsNothing (x >>= f) :=
  fun c₀ => (hx c₀).bind (fun a => hf a c₀)

theorem readsNothing_pure {α : Type} (a : α) :
    ReadsNothing (pure a : Run (State ε μ τ) (StepError ε) α) :=
  fun _ => Run.Triple.pure (fun _ h => h)

theorem readsNothing_modify {f : State ε μ τ → State ε μ τ} (h : ∀ c, State.Idle c (f c)) :
    ReadsNothing (Run.modify f) :=
  fun _ => Run.Triple.modify (fun c hc => hc.trans (h c))

theorem readsNothing_get : ReadsNothing (Run.get : Run (State ε μ τ) (StepError ε) _) :=
  fun _ _ h => h

theorem readsNothing_socketError (err : Bytes) :
    ReadsNothing (Run.throw (.socket err) : Run (State ε μ τ) (StepError ε) Unit) :=
  fun _ => Run.Triple.throw (fun _ h => ⟨h, nofun⟩)

theorem readsNothing_getSocket : ReadsNothing (getSocket (ε := ε) (μ := μ) (τ := τ)) :=
  readsNothing_get.bind (fun _ _ => Run.Triple.assertSome (fun _ _ _ h => h)
    (fun _ _ h => ⟨h, nofun⟩))

theorem readsNothing_onWorld {α : Type} (x : Run τ ε α) :
    ReadsNothing (onWorld x : Run (State ε μ τ) (StepError ε) α) := by
  intro c₀ c hc
  unfold onWorld
  rcases x c.world with ⟨a, w⟩ | ⟨e, w⟩ | _
  · exact hc.trans ⟨rfl, Or.inl rfl, fun _ h => h⟩
  · exact ⟨hc.trans ⟨rfl, Or.inl rfl, fun _ h => h⟩, nofun⟩
  · trivial

theorem readsNothing_disconnect (message : Bytes) :
    ReadsNothing (disconnect H turn message) := by
  refine readsNothing_getSocket.bind (fun _ => ReadsNothing.bind ?_ (fun _ => ?_))
  · unfold sayFarewell
    split
    · exact readsNothing_modify (fun c => ⟨rfl, Or.inl rfl, fun _ h => h⟩)
    · exact readsNothing_pure ()
  · exact readsNothing_modify (fun c => ⟨rfl, Or.inr rfl, fun _ h => h⟩)

/-- Giving up over an error that is not about a header. -/
theorem keeps_idle_giveUp {c₀ : State ε μ τ} (message : Bytes) (e : StepError ε) :
    Run.Triple (fun c => State.Idle c₀ c ∧ ∀ line, e ≠ .malformedHeader line)
      (giveUp H turn message e) (fun _ => State.Idle c₀) (fun _ => State.Idle c₀) := by
  refine Run.Triple.bind (M := fun _ => State.Idle c₀) ?_ (fun _ => ?_)
  · refine Run.Triple.modify (fun c hc => hc.1.trans ⟨rfl, Or.inl rfl, fun line h => ?_⟩)
    rcases List.mem_append.mp h with h | h
    · exact h
    · exact absurd (List.mem_singleton.mp h).symm (hc.2 line)
  · exact (readsNothing_disconnect message c₀).weaken (fun _ h => h) (fun _ _ h => h)
      (fun _ _ h => h.1)

theorem readsNothing_fillSendbuf : ReadsNothing (fillSendbuf H) := by
  refine readsNothing_get.bind (fun c => ?_)
  split
  · refine ReadsNothing.bind (readsNothing_modify (fun c => ⟨rfl, Or.inl rfl, fun _ h => h⟩))
      (fun _ => ?_)
    exact (readsNothing_onWorld _).bind (fun buf => readsNothing_modify (fun c =>
      ⟨rfl, Or.inl rfl, fun _ h => h⟩))
  · exact readsNothing_pure ()

theorem readsNothing_writeMessage : ReadsNothing (writeMessage H turn) := by
  refine readsNothing_fillSendbuf.bind (fun _ => readsNothing_get.bind (fun c => ?_))
  cases c.sendbuf with
  | none => exact readsNothing_pure ()
  | some buf =>
    refine readsNothing_getSocket.bind (fun _ => ?_)
    cases turn.sent with
    | sent => exact readsNothing_modify (fun c => ⟨rfl, Or.inl rfl, fun _ h => h⟩)
    | timeout last => exact readsNothing_modify (fun c => ⟨rfl, Or.inl rfl, fun _ h => h⟩)
    | failed err => exact readsNothing_socketError err

/-- **The writer reads nothing.** -/
theorem keeps_idle_serverWriter (c₀ : State ε μ τ) :
    Run.Keeps (State.Idle c₀) (serverWriter H turn) :=
  (readsNothing_writeMessage c₀).xpcall (fun _ _ h => h)
    (fun e => keeps_idle_giveUp (bytes "Send error.") e)

/-! ## One turn -/

theorem getSocket_eq_ok {s : Inbox} (h : getSocket c = .ok s c') :
    c.socket = some s ∧ c' = c := by
  unfold getSocket at h
  rw [Run.get_bind] at h
  cases hs : c.socket with
  | none =>
    rw [hs] at h
    exact absurd h nofun
  | some s' =>
    rw [hs, Run.assertSome_some, Outcome.ok.injEq] at h
    exact ⟨congrArg some h.1, h.2.symm⟩

/-- What one turn does is decided by its read. -/
theorem idle_of_step {c₁ : State ε μ τ} {b : Bool}
    (hread : Run.Triple (· = c) (readMessage H turn) (fun _ => State.Idle c₁)
      (fun e c' => State.Idle c₁ c' ∧ ∀ line, e ≠ .malformedHeader line))
    (hstep : step H turn c = .ok b c') : State.Idle c₁ c' := by
  obtain ⟨s, c₂, hsock, hrest⟩ := Run.bind_eq_ok.mp hstep
  obtain ⟨-, rfl⟩ := getSocket_eq_ok hsock
  obtain ⟨_, c₃, hreader, hrest⟩ := Run.bind_eq_ok.mp hrest
  obtain ⟨_, c₄, hwriter, hrest⟩ := Run.bind_eq_ok.mp hrest
  rw [Run.get_bind, Run.pure_apply, Outcome.ok.injEq] at hrest
  obtain ⟨-, rfl⟩ := hrest
  have h₃ : State.Idle c₁ c₃ := by
    have h : Run.Triple (· = c₂) (serverReader H turn) (fun _ => State.Idle c₁)
        (fun _ => State.Idle c₁) :=
      hread.xpcall (fun _ _ h => h) (fun e => keeps_idle_giveUp _ e)
    exact h.ok rfl hreader
  exact (keeps_idle_serverWriter c₁).ok h₃ hwriter

/-- **A turn in which a header arrives** handles the next message, and reads
nothing else. -/
theorem step_frame {s : Inbox} {buf rest : Bytes} {b : Bool} (hbuf : Sendable buf)
    (hc : c.socket = some s) (hs : s.unread = frame buf ++ rest)
    (harr : 10 ∈ s.unread.take turn.arrived) (hstep : step H turn c = .ok b c') :
    State.Idle (c.handling s buf rest) c' := by
  refine idle_of_step ?_ hstep
  rintro _ rfl
  rw [readMessage_frame hbuf hc hs harr]
  exact readsNothing_onWorld (H.handle buf) _ _ (State.Idle.refl _)

/-- **A turn in which nothing arrives** leaves the client idle. -/
theorem step_nothing {s : Inbox} {b : Bool} (hc : c.socket = some s)
    (harr : s.unread.take turn.arrived = []) (hstep : step H turn c = .ok b c') :
    State.Idle c c' := by
  refine idle_of_step ?_ hstep
  rintro _ rfl
  rcases readMessage_nothing (H := H) hc harr with h | h
  · rw [h]
    exact State.Idle.refl _
  · rw [h]
    exact ⟨State.Idle.refl _, nofun⟩

/-- A client without a connection makes no step. -/
theorem socket_of_step {b : Bool} (hstep : step H turn c = .ok b c') :
    ∃ s, c.socket = some s := by
  obtain ⟨s, c₂, hsock, -⟩ := Run.bind_eq_ok.mp hstep
  exact ⟨s, (getSocket_eq_ok hsock).1⟩

/-! ## Every turn -/

variable {payloads : List Bytes}

theorem InStep.idle (h : InStep payloads c) (hc : State.Idle c c') : InStep payloads c' where
  isPrefix := hc.dispatched ▸ h.isPrefix
  unread s hs := by
    rw [hc.dispatched]
    exact h.unread s (hc.socket.elim (fun h' => h'.symm.trans hs)
      (fun h' => absurd (h'.symm.trans hs) nofun))
  noMalformed line hl := h.noMalformed line (hc.log line hl)

/-- The next message, when there is something to read. -/
theorem InStep.next_frame (h : InStep payloads c) {s : Inbox} (hc : c.socket = some s)
    (hne : s.unread ≠ []) :
    ∃ buf, payloads[c.dispatched.length]? = some buf
      ∧ s.unread = frame buf ++ frames (payloads.drop (c.dispatched.length + 1)) := by
  have hun := h.unread s hc
  rcases hb : payloads[c.dispatched.length]? with _ | buf
  · rw [List.drop_eq_nil_of_le (List.getElem?_eq_none_iff.mp hb)] at hun
    exact absurd hun hne
  · refine ⟨buf, rfl, ?_⟩
    obtain ⟨hlt, hget⟩ := List.getElem?_eq_some_iff.mp hb
    rw [hun, List.drop_eq_getElem_cons hlt, hget, frames_cons]

/-- The state in which the next message is handled is in step. -/
theorem InStep.handling (h : InStep payloads c) {s : Inbox} {buf : Bytes}
    (hbuf : payloads[c.dispatched.length]? = some buf) :
    InStep payloads (c.handling s buf (frames (payloads.drop (c.dispatched.length + 1)))) where
  isPrefix := by
    obtain ⟨hlt, hget⟩ := List.getElem?_eq_some_iff.mp hbuf
    obtain ⟨rest, hrest⟩ := h.isPrefix
    show c.dispatched ++ [buf] <+: payloads
    rw [← hrest, List.prefix_append_right_inj]
    have := congrArg (·[c.dispatched.length]?) hrest
    simp only [List.getElem?_append_right le_rfl, Nat.sub_self, hbuf] at this
    cases rest with
    | nil => exact absurd this nofun
    | cons x rest =>
      obtain rfl : x = buf := by simpa using this
      exact ⟨rest, rfl⟩
  unread s' hs' := by
    obtain rfl := Option.some.inj hs'
    show frames _ = frames (payloads.drop (c.dispatched ++ [buf]).length)
    rw [List.length_append, List.length_singleton]
  noMalformed := h.noMalformed

/-- **One turn keeps the client in step.** -/
theorem InStep.step {b : Bool} (h : InStep payloads c)
    (hpay : ∀ buf ∈ payloads, Sendable buf) (hturn : HeaderWhole turn c)
    (hstep : Client.step H turn c = .ok b c') : InStep payloads c' := by
  obtain ⟨s, hc⟩ := socket_of_step hstep
  rcases hturn s hc with hnone | hline
  · exact h.idle (step_nothing hc hnone hstep)
  · have hne : s.unread ≠ [] := fun h0 => by simp [h0] at hline
    obtain ⟨buf, hbuf, hs⟩ := h.next_frame hc hne
    have hmem : buf ∈ payloads := List.mem_of_getElem? hbuf
    exact (h.handling hbuf).idle (step_frame (hpay buf hmem) hc hs hline hstep)

/-- **Every state a run reaches is in step**, if no turn cuts a header. -/
theorem inStep_of_reaches {c₀ : State ε μ τ} (h₀ : InStep payloads c₀)
    (hpay : ∀ buf ∈ payloads, Sendable buf) (hc : Reaches H HeaderWhole c₀ c) :
    InStep payloads c := by
  induction hc with
  | start => exact h₀
  | send msg _ ih => exact ih.idle ⟨rfl, Or.inl rfl, fun _ h => h⟩
  | step turn _ hturn hstep ih => exact ih.step hpay hturn hstep

/-- **The reader loses nothing across timeouts that cut no header.** Whatever
the messages are – as long as each frame carries its own – and however their
bytes arrive, the client handles exactly what the server sent, in order and
each once, as far as it has arrived, and finds no header malformed. -/
theorem reader_faithful (H : Handlers ε μ τ) (name : Bytes) (world : τ)
    (payloads : List Bytes) (closes : Bool) (hpay : ∀ buf ∈ payloads, Sendable buf)
    (c : State ε μ τ)
    (hc : Reaches H HeaderWhole (connected name world ⟨frames payloads, closes⟩) c) :
    Faithful H payloads c := by
  have h₀ : InStep payloads (connected (ε := ε) (μ := μ) name world ⟨frames payloads, closes⟩) :=
    ⟨List.nil_prefix, fun s hs => by rw [← Option.some.inj hs]; rfl, fun _ => List.not_mem_nil⟩
  have h := inStep_of_reaches h₀ hpay hc
  refine ⟨h, fun s turn b c' hs hline hstep => ?_⟩
  have hne : s.unread ≠ [] := fun h0 => by simp [h0] at hline
  obtain ⟨buf, hbuf, hun⟩ := h.next_frame hs hne
  have hmem : buf ∈ payloads := List.mem_of_getElem? hbuf
  exact ⟨buf, hbuf, (step_frame (hpay buf hmem) hs hun hline hstep).dispatched⟩

/-- A client that does nothing with its messages. -/
def Handlers.silent : Handlers Unit Unit Unit where
  handle _ := pure ()
  pack _ := pure []
  packChat text := text
  size n := match n with
    | .fin q => q.num.toNat
    | _ => 0
  size_natCast n _ := by
    show ((n : ℚ).num).toNat = n
    simp

/-- `{ method = "message"; "hi" }`, packed. -/
def greeting : Bytes := bytes "T4:2:3:7:8:N1ShiSmethodSmessage"

theorem sendable_greeting : ∀ buf ∈ [greeting], Sendable buf := fun buf hbuf => by
  obtain rfl := List.mem_singleton.mp hbuf
  exact ⟨by decide, by decide⟩

/-- One turn in which the greeting arrives. -/
theorem step_greeting :
    step Handlers.silent ⟨100, .sent, none⟩ (connected [] () ⟨frames [greeting], false⟩)
      = .ok true { connected [] () ⟨[], false⟩ with dispatched := [greeting] } := by
  have hframe : frames [greeting] = frame greeting ++ [] := rfl
  have hread : readMessage Handlers.silent ⟨100, .sent, none⟩
        (connected [] () ⟨frames [greeting], false⟩)
      = .ok () { connected [] () ⟨[], false⟩ with dispatched := [greeting] } :=
    readMessage_frame (s := ⟨frames [greeting], false⟩)
      (sendable_greeting _ (List.mem_singleton_self _)) rfl hframe (by decide)
  have hreader : serverReader Handlers.silent ⟨100, .sent, none⟩
        (connected [] () ⟨frames [greeting], false⟩)
      = .ok () { connected [] () ⟨[], false⟩ with dispatched := [greeting] } := by
    unfold serverReader Run.xpcall
    rw [hread]
  show (serverReader _ _ >>= _) _ = _
  rw [Run.bind_of_ok hreader]
  rfl

theorem reader_faithful_greeting :
    Faithful Handlers.silent [greeting]
      { connected [] () ⟨[], false⟩ with dispatched := [greeting] } :=
  reader_faithful Handlers.silent [] () [greeting] false sendable_greeting _
    (.step ⟨100, .sent, none⟩ .start (fun s hs => by
      obtain rfl := Option.some.inj hs
      exact Or.inr (by decide)) step_greeting)

/-- **A deadline between the digits of a header and its newline ends the
connection**: the digits are dropped, and the newline that comes next is an
empty header. -/
theorem not_reader_faithful :
    ¬ ∀ (payloads : List Bytes) (closes : Bool) (c : State Unit Unit Unit),
      Reaches Handlers.silent (fun _ _ => True) (connected [] () ⟨frames payloads, closes⟩) c →
      Faithful Handlers.silent payloads c := by
  intro h
  have hcut : Reaches Handlers.silent (fun _ _ => True)
      (connected [] () ⟨frames [greeting], false⟩)
      (connected [] () ⟨10 :: greeting, false⟩) :=
    .step (b := true) ⟨2, .sent, none⟩ .start trivial rfl
  have hstep : step Handlers.silent ⟨100, .sent, none⟩
        (connected [] () ⟨10 :: greeting, false⟩)
      = .ok false { connected (ε := Unit) (μ := Unit) [] () ⟨[], false⟩ with
          socket := none, isBroken := true, log := [.malformedHeader []] } := rfl
  have hend := (h [greeting] false _ (.step _ hcut trivial hstep)).noMalformed []
  exact hend (List.mem_singleton_self _)

end Client

end Felt
