import Felt.Client.Reader

/-!
# What the client writes

A message waits in `_sendq` until the frame before it is written, and is then
packed into `_sendbuf`, from which the socket takes as much as it likes in each
step. The bytes that are written, the rest of a frame in `_sendbuf` and the
frames of what is queued are always the frames of everything that was sent, in
order: `delivered_of_runs`.

That is within one connection. When it ends, the farewell goes to the socket
past all this, into the middle of a frame if there is one; and `_sendbuf` is a
variable that neither `client.disconnect` nor `client.connect` clears, so that
the next connection begins with the rest of it. `clean_of_sessions` says that
nothing else mixes frames, and `not_clean` is what the rest of one frame does.

There are three places a message can be in, and it goes through them in order.
What the invariant says of them is one equation between bytes (`InLine`), so that
it does not matter which of the three a step moves something out of. A step that
raises has written nothing; and the reader, which comes first in a step, writes
nothing unless it gives up.
-/

namespace Felt

namespace Client

open Net

/-- **Handlers that write a message as a text of its own**, whatever objects
are known. -/
structure Encoder (ε μ τ : Type) extends Handlers ε μ τ where
  /-- The text of a message. -/
  text : μ → Bytes
  /-- It is what `box.pack` answers. -/
  pack_eq : ∀ msg w, ∃ w', pack msg w = .ok (text msg) w'

variable {ε μ τ : Type}

/-- The frames of a list of messages. -/
def Encoder.stream (W : Encoder ε μ τ) (msgs : List μ) : Bytes := frames (msgs.map W.text)

@[simp] theorem Encoder.stream_nil (W : Encoder ε μ τ) : W.stream [] = [] := rfl

@[simp] theorem Encoder.stream_cons (W : Encoder ε μ τ) (msg : μ) (msgs : List μ) :
    W.stream (msg :: msgs) = frame (W.text msg) ++ W.stream msgs := rfl

theorem Encoder.stream_append (W : Encoder ε μ τ) (l l' : List μ) :
    W.stream (l ++ l') = W.stream l ++ W.stream l' := by
  unfold Encoder.stream frames
  rw [List.map_append, List.flatMap_append]

/-- What the client still has to write. -/
def State.pending (W : Encoder ε μ τ) (c : State ε μ τ) : Bytes :=
  c.sendbuf.getD [] ++ W.stream c.sendq

/-- **What was accepted, what is pending and the farewell** make up all the
client has to say on a connection, `P` of what was accepted before the
farewell, and of the farewell. -/
structure Delivered (W : Encoder ε μ τ) (P : Bytes → Bytes → Prop) (all : List μ)
    (c : State ε μ τ) : Prop where
  /-- What was accepted, and the farewell. -/
  delivered : ∃ accepted said, c.written = accepted ++ said
    ∧ accepted ++ c.pending W = W.stream all
    ∧ (c.socket ≠ none → said = []) ∧ P accepted said

/-! ## One step -/

section Step

variable {W : Encoder ε μ τ} {turn : Turn} {P : Bytes → Bytes → Prop} {all : List μ}
  {w₀ : Bytes} {c c' : State ε μ τ}

/-- Nothing was lost and nothing written out of turn. -/
def InLine (W : Encoder ε μ τ) (all : List μ) (c : State ε μ τ) : Prop :=
  c.written ++ c.pending W = W.stream all

/-- The same, and nothing was written since `w₀` was. -/
def Quiet (W : Encoder ε μ τ) (w₀ : Bytes) (all : List μ) (c : State ε μ τ) : Prop :=
  c.written = w₀ ∧ InLine W all c

/-- The client has said farewell. -/
def Ended (W : Encoder ε μ τ) (P : Bytes → Bytes → Prop) (all : List μ) (c : State ε μ τ) : Prop :=
  c.socket = none ∧ Delivered W P all c

/-- What a call of the reader leaves. -/
def Settled (W : Encoder ε μ τ) (P : Bytes → Bytes → Prop) (w₀ : Bytes) (all : List μ)
    (c : State ε μ τ) : Prop :=
  Quiet W w₀ all c ∨ Ended W P all c

theorem InLine.delivered (h : InLine W all c) (hP : P c.written []) : Delivered W P all c :=
  ⟨⟨c.written, [], (List.append_nil _).symm, h, fun _ => rfl, hP⟩⟩

/-- A computation that touches neither the bytes written nor those to
write. -/
theorem keeps_quiet_modify {f : State ε μ τ → State ε μ τ}
    (h : ∀ c, (f c).written = c.written ∧ (f c).sendbuf = c.sendbuf ∧ (f c).sendq = c.sendq) :
    Run.Keeps (Quiet W w₀ all) (Run.modify f : Run _ (StepError ε) Unit) := by
  refine Run.Keeps.modify (fun c hc => ?_)
  obtain ⟨hwritten, hsendbuf, hsendq⟩ := h c
  refine ⟨hwritten.trans hc.1, ?_⟩
  unfold InLine State.pending
  rw [hwritten, hsendbuf, hsendq]
  exact hc.2

theorem keeps_onWorld {α : Type} {I : State ε μ τ → Prop} (x : Run τ ε α)
    (h : ∀ c w, I c → I { c with world := w }) :
    Run.Keeps I (onWorld x : Run (State ε μ τ) (StepError ε) α) := by
  intro c hc
  unfold onWorld
  rcases x c.world with ⟨a, w⟩ | ⟨e, w⟩ | _
  · exact h c w hc
  · exact h c w hc
  · trivial

theorem keeps_getSocket {I : State ε μ τ → Prop} : Run.Keeps I (getSocket (ε := ε)) := by
  refine Run.Keeps.bind (fun _ hc => hc) (fun c => ?_)
  exact Run.Keeps.assertSome _ _

/-- **The reader writes nothing** until it gives up. -/
theorem keeps_quiet_readMessage : Run.Keeps (Quiet W w₀ all) (readMessage W.toHandlers turn) := by
  refine Run.Keeps.bind ?_ (fun result => ?_)
  · refine keeps_getSocket.bind (fun s => Run.Keeps.bind ?_ (fun _ => Run.Keeps.pure _))
    exact keeps_quiet_modify (fun _ => ⟨rfl, rfl, rfl⟩)
  · cases result with
    | line result =>
      refine (Run.Keeps.assertSome _ _).bind (fun n => Run.Keeps.bind ?_ (fun buf => ?_))
      · intro c hc
        unfold receiveCount
        rcases c.socket with _ | s
        · exact hc
        · dsimp only
          rcases (Inbox.receiveCount _ : Run Inbox ε _) s with ⟨_ | buf, s'⟩ | ⟨e, s'⟩ | _
          · exact hc
          · exact hc
          · exact hc
          · trivial
      · refine Run.Keeps.bind (keeps_quiet_modify (fun _ => ⟨rfl, rfl, rfl⟩)) (fun _ => ?_)
        exact keeps_onWorld _ (fun _ _ hc => hc)
    | timeout part => exact Run.Keeps.pure _
    | closed part => exact Run.Keeps.throw _

/-- **Disconnecting** says farewell behind what was written. -/
theorem disconnect_settled (message : Bytes)
    (hP : ∀ n text, turn.farewell = some n → P w₀ ((frame (W.packChat text)).take n)) :
    Run.Triple (Quiet W w₀ all) (disconnect W.toHandlers turn message)
      (fun _ => Settled W P w₀ all) (fun _ => Settled W P w₀ all) := by
  refine Run.Triple.bind (M := fun _ => Quiet W w₀ all)
    (Run.Triple.weaken keeps_getSocket (fun _ h => h) (fun _ _ h => h) (fun _ _ h => Or.inl h))
    (fun _ => ?_)
  unfold sayFarewell
  -- the farewell goes past the queue, and is written as far as the socket takes it
  cases hbye : turn.farewell with
  | none =>
    refine Run.Triple.bind (M := fun _ => Quiet W w₀ all) (Run.Triple.pure (fun _ h => h))
      (fun _ => Run.Triple.modify (fun c hc => Or.inl hc))
  | some n =>
    refine Run.Triple.bind (M := fun _ c => ∃ said, c.written = w₀ ++ said
      ∧ w₀ ++ c.pending W = W.stream all ∧ P w₀ said) ?_ (fun _ => ?_)
    · refine Run.Triple.modify (fun c hc => ⟨_, by rw [← hc.1], ?_, hP n _ hbye⟩)
      rw [← hc.1]
      exact hc.2
    · refine Run.Triple.modify (fun c hc => Or.inr ⟨rfl, ?_⟩)
      obtain ⟨said, hwritten, hqueued, hsaid⟩ := hc
      exact ⟨⟨w₀, said, hwritten, hqueued, fun h => absurd rfl h, hsaid⟩⟩

theorem giveUp_settled (message : Bytes) (e : StepError ε)
    (hP : ∀ n text, turn.farewell = some n → P w₀ ((frame (W.packChat text)).take n)) :
    Run.Triple (Quiet W w₀ all) (giveUp W.toHandlers turn message e)
      (fun _ => Settled W P w₀ all) (fun _ => Settled W P w₀ all) := by
  refine Run.Triple.bind (M := fun _ => Quiet W w₀ all) ?_
    (fun _ => disconnect_settled message hP)
  exact Run.Triple.modify (fun c hc => hc)

/-- Without a socket there is nothing to say anything to. -/
theorem keeps_ended_getSocket {α : Type} (f : Inbox → Run (State ε μ τ) (StepError ε) α) :
    Run.Keeps (Ended W P all) (getSocket >>= f) := by
  intro c hc
  have hnone : getSocket c = .error (.refused "index nil") c := by
    unfold getSocket
    rw [Run.get_bind, hc.1]
    rfl
  rw [Run.bind_of_error hnone]
  exact hc

theorem keeps_ended_giveUp (message : Bytes) (e : StepError ε) :
    Run.Keeps (Ended W P all) (giveUp W.toHandlers turn message e) := by
  refine Run.Keeps.bind (Run.Keeps.modify (fun c hc => ⟨hc.1, ⟨hc.2.delivered⟩⟩)) (fun _ => ?_)
  exact keeps_ended_getSocket _

/-- **The reader** only ever adds a farewell. -/
theorem serverReader_settled
    (hP : ∀ n text, turn.farewell = some n → P w₀ ((frame (W.packChat text)).take n)) :
    Run.Triple (Quiet W w₀ all) (serverReader W.toHandlers turn)
      (fun _ => Settled W P w₀ all) (fun _ => Settled W P w₀ all) :=
  Run.Triple.xpcall keeps_quiet_readMessage (fun _ _ h => Or.inl h)
    (fun e => giveUp_settled _ e hP)

/-- **Filling `_sendbuf`** moves a frame from the queue into it. -/
theorem fillSendbuf_returns (W : Encoder ε μ τ) (c : State ε μ τ) :
    Run.Returns (fillSendbuf W.toHandlers) c (fun _ c' => c'.socket = c.socket
      ∧ c'.written = c.written ∧ c'.pending W = c.pending W) := by
  refine Run.Returns.get_bind ?_
  split
  · next msg rest hbuf hsendq =>
    obtain ⟨w', hpack⟩ := W.pack_eq msg c.world
    refine ⟨(), { c with sendq := rest, world := w', sendbuf := some (frame (W.text msg)) },
      ?_, rfl, rfl, ?_⟩
    · rw [Run.modify_bind]
      have hworld : onWorld (W.pack msg) ({ c with sendq := rest } : State ε μ τ)
          = .ok (W.text msg) { c with sendq := rest, world := w' } := by
        unfold onWorld
        rw [hpack]
      rw [Run.bind_of_ok hworld]
      rfl
    · unfold State.pending
      rw [hbuf, hsendq, W.stream_cons]
      rfl
  · exact Run.Returns.pure ⟨rfl, rfl, rfl⟩

/-- **The writer takes from the front** of what is pending, and raises before
it has taken anything. -/
theorem writeMessage_inLine :
    Run.Triple (Quiet W w₀ all) (writeMessage W.toHandlers turn) (fun _ => InLine W all)
      (fun _ => Quiet W w₀ all) := by
  intro c hc
  obtain ⟨_, c₁, hfill, -, hwritten, hpending⟩ := fillSendbuf_returns W c
  have hc₁ : Quiet W w₀ all c₁ := by
    refine ⟨hwritten.trans hc.1, ?_⟩
    unfold InLine
    rw [hwritten, hpending]
    exact hc.2
  rw [writeMessage, Run.bind_of_ok hfill, Run.get_bind]
  cases hbuf : c₁.sendbuf with
  | none => exact hc₁.2
  | some buf =>
    have hline := hc₁.2
    unfold InLine State.pending at hline
    rw [hbuf] at hline
    refine (Run.Triple.bind (P := (· = c₁)) (M := fun _ => (· = c₁))
      (Run.Triple.weaken keeps_getSocket (fun _ h => h) (fun _ _ h => h)
        (fun _ c' h => h ▸ hc₁)) (fun s => ?_)) c₁ rfl
    -- all of it is taken, a beginning of it, or nothing
    rcases turn.sent with _ | last | err
    · refine Run.Triple.modify (fun c' hc' => ?_)
      rw [hc']
      refine Eq.trans ?_ hline
      show (c₁.written ++ buf) ++ ([] ++ _) = c₁.written ++ (buf ++ _)
      rw [List.nil_append, List.append_assoc]
    · refine Run.Triple.modify (fun c' hc' => ?_)
      rw [hc']
      refine Eq.trans ?_ hline
      show (c₁.written ++ buf.take last) ++ (buf.drop last ++ _) = c₁.written ++ (buf ++ _)
      rw [List.append_assoc, ← List.append_assoc (buf.take last), List.take_append_drop]
    · exact Run.Triple.throw (fun c' hc' => hc' ▸ hc₁)

/-- Without a socket nothing is written. -/
theorem keeps_ended_writeMessage : Run.Keeps (Ended W P all) (writeMessage W.toHandlers turn) := by
  intro c hc
  obtain ⟨_, c₁, hfill, hsocket, hwritten, hpending⟩ := fillSendbuf_returns W c
  have hc₁ : Ended W P all c₁ := by
    obtain ⟨accepted, said, h, hqueued, -, hsaid⟩ := hc.2.delivered
    refine ⟨hsocket.trans hc.1, ⟨⟨accepted, said, hwritten.trans h, ?_, ?_, hsaid⟩⟩⟩
    · rw [hpending]
      exact hqueued
    · rw [hsocket, hc.1]
      exact fun h => absurd rfl h
  rw [writeMessage, Run.bind_of_ok hfill, Run.get_bind]
  cases c₁.sendbuf with
  | none => exact hc₁
  | some buf => exact keeps_ended_getSocket _ c₁ hc₁

/-- **One step of a connected client.** -/
theorem step_delivered (hc : InLine W all c) (hP₀ : ∀ accepted, P accepted [])
    (hP : ∀ n text, turn.farewell = some n → P c.written ((frame (W.packChat text)).take n))
    {b : Bool}
    (hstep : step W.toHandlers turn c = .ok b c') : Delivered W P all c' := by
  obtain ⟨s, c₂, hsock, hrest⟩ := Run.bind_eq_ok.mp hstep
  obtain ⟨-, rfl⟩ := getSocket_eq_ok hsock
  obtain ⟨_, c₃, hreader, hrest⟩ := Run.bind_eq_ok.mp hrest
  obtain ⟨_, c₄, hwriter, hrest⟩ := Run.bind_eq_ok.mp hrest
  rw [Run.get_bind, Run.pure_apply, Outcome.ok.injEq] at hrest
  obtain ⟨-, rfl⟩ := hrest
  have h₃ := (serverReader_settled hP).ok ⟨rfl, hc⟩ hreader
  have hquiet : ∀ w c₅, Quiet W w all c₅ → Delivered W P all c₅ := fun w c₅ h =>
    h.2.delivered (hP₀ _)
  have hsettled : ∀ c₅, Settled W P c₂.written all c₅ → Delivered W P all c₅ := fun c₅ h =>
    h.elim (hquiet _ _) And.right
  -- the reader has left the connection as it was, or has ended it
  rcases h₃ with h₃ | h₃
  · have hwrite : Run.Triple (Quiet W c₂.written all) (serverWriter W.toHandlers turn)
        (fun _ => Delivered W P all) (fun _ => Delivered W P all) :=
      writeMessage_inLine.xpcall (fun _ _ h => h.delivered (hP₀ _))
        (fun e => (giveUp_settled _ e hP).weaken (fun _ h => h) (fun _ => hsettled)
          (fun _ => hsettled))
    exact hwrite.ok h₃ hwriter
  · have hwrite : Run.Keeps (Ended W P all) (serverWriter W.toHandlers turn) :=
      keeps_ended_writeMessage.xpcall (fun e => keeps_ended_giveUp _ e)
    exact (hwrite.ok h₃ hwriter).2

end Step

/-! ## One connection -/

/-- **What a run on one connection reaches**, and the messages that were
passed to `client.send` in it. -/
inductive Runs (W : Encoder ε μ τ) (c₀ : State ε μ τ) : List μ → State ε μ τ → Prop where
  /-- The state it starts in. -/
  | start : Runs W c₀ [] c₀
  /-- A message is queued. -/
  | send {all : List μ} {c : State ε μ τ} (msg : μ) (hc : Runs W c₀ all c) :
      Runs W c₀ (all ++ [msg]) (send msg c)
  /-- A call of `client.step` returns. -/
  | step {all : List μ} {c c' : State ε μ τ} {b : Bool} (turn : Turn) (hc : Runs W c₀ all c)
      (hstep : step W.toHandlers turn c = .ok b c') : Runs W c₀ all c'

/-- **Output is exactly once and in order.** Behind the end of the connection
there is the farewell. -/
structure ExactlyOnce (W : Encoder ε μ τ) (all : List μ) (c : State ε μ τ) : Prop where
  /-- On a connection, what was accepted and what is pending are the frames of
  all messages. -/
  inLine : c.socket ≠ none →
    c.written ++ c.sendbuf.getD [] ++ W.stream c.sendq = W.stream all
  /-- And so they are when it has ended, but for the farewell. -/
  ended : ∃ accepted text n, c.written = accepted ++ (frame (W.packChat text)).take n
    ∧ accepted ++ c.sendbuf.getD [] ++ W.stream c.sendq = W.stream all

section Runs

variable {W : Encoder ε μ τ} {P : Bytes → Bytes → Prop} {all : List μ} {c c' : State ε μ τ}

/-- A message that is sent is pending. -/
theorem InLine.send (h : InLine W all c) (msg : μ) : InLine W (all ++ [msg]) (send msg c) := by
  show c.written ++ (c.sendbuf.getD [] ++ W.stream (c.sendq ++ [msg])) = _
  rw [W.stream_append, W.stream_append, ← List.append_assoc (c.sendbuf.getD []),
    ← List.append_assoc c.written]
  exact congrArg (· ++ W.stream [msg]) h

theorem Delivered.inLine (h : Delivered W P all c) (hc : c.socket ≠ none) : InLine W all c := by
  obtain ⟨accepted, said, hwritten, hqueued, hopen, -⟩ := h.delivered
  rw [hopen hc, List.append_nil] at hwritten
  rw [InLine, hwritten]
  exact hqueued

theorem Delivered.send (h : Delivered W P all c) (msg : μ) :
    Delivered W P (all ++ [msg]) (send msg c) := by
  obtain ⟨accepted, said, hwritten, hqueued, hopen, hP⟩ := h.delivered
  refine ⟨⟨accepted, said, hwritten, ?_, hopen, hP⟩⟩
  show accepted ++ (c.sendbuf.getD [] ++ W.stream (c.sendq ++ [msg])) = _
  rw [W.stream_append, W.stream_append, ← List.append_assoc (c.sendbuf.getD []),
    ← List.append_assoc accepted]
  exact congrArg (· ++ W.stream [msg]) hqueued

/-- **Every state of a run** has delivered what was sent in it. -/
theorem delivered_of_runs {c₀ : State ε μ τ} (h₀ : InLine W [] c₀) (hP₀ : ∀ accepted, P accepted [])
    (hP : ∀ accepted text n, P accepted ((frame (W.packChat text)).take n))
    (hc : Runs W c₀ all c) : Delivered W P all c := by
  induction hc with
  | start => exact h₀.delivered (hP₀ _)
  | send msg _ ih => exact ih.send msg
  | step turn _ hstep ih =>
    obtain ⟨s, hs⟩ := socket_of_step hstep
    have hopen := ih.inLine (by rw [hs]; exact Option.some_ne_none s)
    exact step_delivered hopen hP₀ (fun n text _ => hP _ text n) hstep

/-- **Client output is exactly once and in order**, however the socket takes
it and whatever is read meanwhile. -/
theorem exactlyOnce_of_runs (W : Encoder ε μ τ) (name : Bytes) (world : τ) (inbox : Inbox)
    (all : List μ) (c : State ε μ τ) (hc : Runs W (connected name world inbox) all c) :
    ExactlyOnce W all c := by
  have h₀ : InLine W [] (connected (ε := ε) name world inbox) := rfl
  have h : Delivered W (fun _ said => ∃ text n, said = (frame (W.packChat text)).take n) all c :=
    delivered_of_runs h₀ (fun _ => ⟨[], 0, rfl⟩) (fun _ text n => ⟨text, n, rfl⟩) hc
  constructor
  · intro hopen
    rw [List.append_assoc]
    exact h.inLine hopen
  · obtain ⟨accepted, _, hwritten, hqueued, -, text, n, rfl⟩ := h.delivered
    refine ⟨accepted, text, n, hwritten, ?_⟩
    rw [List.append_assoc]
    exact hqueued

end Runs

/-- A client that sends texts as they are, and does nothing with its
messages. -/
def Encoder.verbatim : Encoder Unit Bytes Unit where
  handle _ := pure ()
  pack buf := pure buf
  packChat text := text
  size := Handlers.silent.size
  size_natCast := Handlers.silent.size_natCast
  text buf := buf
  pack_eq _ w := ⟨w, rfl⟩

/-- A step in which nothing arrives and the socket takes `last` bytes. -/
def Turn.slow (last : ℕ) : Turn := ⟨0, .timeout last, none⟩

/-- **A frame that is taken in two pieces.** -/
theorem exactlyOnce_of_pieces :
    ∃ c : State Unit Bytes Unit, c.written = [49] ∧ ExactlyOnce Encoder.verbatim [[33]] c := by
  refine ⟨_, ?_, exactlyOnce_of_runs Encoder.verbatim [] () ⟨[], false⟩ [[33]] _
    (.step (b := true) (Turn.slow 1) (.send [33] .start) rfl)⟩
  rfl

/-! ## One connection after another -/

/-- **A call of `client.connect`**: who connects, the login message, the
connection if there is one, and whether its peer has a name. -/
structure Dial (μ : Type) where
  /-- `info.name`. -/
  name : Bytes
  /-- The login message. -/
  login : μ
  /-- What `socket.connect` answers. -/
  inbox : Option Inbox
  /-- `_socket:getpeername()` answers a name. -/
  isNamed : Bool

/-- The connection is there: from here on `written` is about it. -/
def attach (inbox : Inbox) (c : State ε μ τ) : State ε μ τ :=
  { c with socket := some inbox, written := [], dispatched := [] }

/-- **`client.connect`**, where `forget` clears the table of known
objects. -/
def connect (forget : τ → τ) (dial : Dial μ) : Run (State ε μ τ) (StepError ε) Bool := do
  let c ← Run.get
  if c.socket.isSome then Run.throw (.refused "Client already connected")
  else do
    Run.modify (fun c => { c with sendq := [], world := forget c.world, name := dial.name })
    match dial.inbox with
    | none => pure false
    | some inbox => do
      Run.modify (attach inbox)
      if dial.isNamed then do
        Run.modify (send dial.login)
        pure true
      else Run.throw (.refused "format nil")

/-- A client that has never been connected. -/
def offline (world : τ) : State ε μ τ := { connected [] world ⟨[], true⟩ with socket := none }

/-- The messages that are queued behind a call of `client.connect`: a
connection that is not there leaves the last one the last. -/
def Dial.queued (dial : Dial μ) (all : List μ) : List μ :=
  match dial.inbox with
  | none => all
  | some _ => if dial.isNamed then [dial.login] else []

/-- **What a client reaches** over any number of connections, and the messages
queued since the last one was made, when each `client.disconnect` meets
`leaves` and each `client.connect` meets `enters`. -/
inductive Sessions (W : Encoder ε μ τ) (forget : τ → τ) (leaves : List μ → State ε μ τ → Prop)
    (enters : State ε μ τ → Prop) (c₀ : State ε μ τ) : List μ → State ε μ τ → Prop where
  /-- The state it starts in. -/
  | start : Sessions W forget leaves enters c₀ [] c₀
  /-- A message is queued. -/
  | send {all : List μ} {c : State ε μ τ} (msg : μ)
      (hc : Sessions W forget leaves enters c₀ all c) :
      Sessions W forget leaves enters c₀ (all ++ [msg]) (send msg c)
  /-- A call of `client.step` returns. It may disconnect, and the peer may
  still be there to hear of it. -/
  | step {all : List μ} {c c' : State ε μ τ} {b : Bool} (turn : Turn)
      (hc : Sessions W forget leaves enters c₀ all c)
      (hleaves : turn.farewell ≠ none → leaves all c)
      (hstep : step W.toHandlers turn c = .ok b c') : Sessions W forget leaves enters c₀ all c'
  /-- A call of `client.disconnect` returns. -/
  | disconnect {all : List μ} {c c' : State ε μ τ} (turn : Turn) (message : Bytes)
      (hc : Sessions W forget leaves enters c₀ all c)
      (hleaves : turn.farewell ≠ none → leaves all c)
      (hdisc : disconnect W.toHandlers turn message c = .ok () c') :
      Sessions W forget leaves enters c₀ all c'
  /-- A call of `client.connect`, by a client that is not connected. -/
  | connect {all : List μ} {c c' : State ε μ τ} (dial : Dial μ)
      (hc : Sessions W forget leaves enters c₀ all c) (hoff : c.socket = none) (henters : enters c)
      (hconn : Run.Leaves (connect forget dial) c c') :
      Sessions W forget leaves enters c₀ (dial.queued all) c'

/-- **Frames do not mix**: what was written on the connection is a part of the
frames of the messages queued on it – or some of these frames, whole, and a
part of a farewell. -/
def Clean (W : Encoder ε μ τ) (all : List μ) (c : State ε μ τ) : Prop :=
  c.written <+: W.stream all ∨ ∃ sent text n, sent <+: all
    ∧ c.written = W.stream sent ++ (frame (W.packChat text)).take n

/-- **What was accepted ends with a frame.** -/
def AtBoundary (W : Encoder ε μ τ) (all : List μ) (c : State ε μ τ) : Prop :=
  ∃ sent, sent <+: all ∧ c.written = W.stream sent

/-- **No rest of a frame is left over.** -/
def NothingLeft (c : State ε μ τ) : Prop := c.sendbuf = none

section Sessions

variable {W : Encoder ε μ τ} {all : List μ} {c c' : State ε μ τ}

/-- What the farewell may follow. -/
def FarewellClean (W : Encoder ε μ τ) (all : List μ) (accepted said : Bytes) : Prop :=
  said = [] ∨ ∃ sent text n, sent <+: all ∧ accepted = W.stream sent
    ∧ said = (frame (W.packChat text)).take n

/-- A run over connections keeps its frames apart, and is in line while it is
connected. -/
structure Orderly (W : Encoder ε μ τ) (all : List μ) (c : State ε μ τ) : Prop where
  /-- On a connection nothing was lost. -/
  inLine : c.socket ≠ none → InLine W all c
  /-- Frames do not mix. -/
  clean : Clean W all c

theorem Clean.append (h : Clean W all c) (msg : μ) : Clean W (all ++ [msg]) (send msg c) := by
  rcases h with h | ⟨sent, text, n, hsent, hwritten⟩
  · refine Or.inl (h.trans ?_)
    rw [W.stream_append]
    exact List.prefix_append _ _
  · exact Or.inr ⟨sent, text, n, hsent.trans (List.prefix_append _ _), hwritten⟩

theorem Delivered.orderly (h : Delivered W (FarewellClean W all) all c) : Orderly W all c where
  inLine := h.inLine
  clean := by
    obtain ⟨accepted, said, hwritten, hqueued, -, rfl | hsaid⟩ := h.delivered
    · refine Or.inl ?_
      rw [hwritten, List.append_nil, ← hqueued]
      exact List.prefix_append _ _
    · obtain ⟨sent, text, n, hsent, haccepted, hsaid⟩ := hsaid
      refine Or.inr ⟨sent, text, n, hsent, ?_⟩
      rw [hwritten, haccepted, hsaid]

/-- At a boundary a farewell is clean. -/
theorem farewellClean_of_boundary {turn : Turn} (h : turn.farewell ≠ none → AtBoundary W all c) :
    ∀ n text, turn.farewell = some n →
      FarewellClean W all c.written ((frame (W.packChat text)).take n) := by
  intro n text hn
  obtain ⟨sent, hsent, hwritten⟩ := h (by rw [hn]; exact Option.some_ne_none n)
  exact Or.inr ⟨sent, text, n, hsent, hwritten, rfl⟩

/-- **One step of the client** keeps its frames apart. -/
theorem Orderly.step {turn : Turn} {b : Bool} (h : Orderly W all c)
    (hleaves : turn.farewell ≠ none → AtBoundary W all c)
    (hstep : step W.toHandlers turn c = .ok b c') : Orderly W all c' := by
  obtain ⟨s, hs⟩ := socket_of_step hstep
  have hopen := h.inLine (by rw [hs]; exact Option.some_ne_none s)
  exact (step_delivered hopen (fun _ => Or.inl rfl) (farewellClean_of_boundary hleaves)
    hstep).orderly

/-- **Disconnecting at a boundary** keeps the frames apart. -/
theorem Orderly.disconnect {turn : Turn} {message : Bytes} (h : Orderly W all c)
    (hleaves : turn.farewell ≠ none → AtBoundary W all c)
    (hdisc : disconnect W.toHandlers turn message c = .ok () c') : Orderly W all c' := by
  obtain ⟨s, c₁, hsock, -⟩ := Run.bind_eq_ok.mp hdisc
  have hopen := h.inLine (by rw [(getSocket_eq_ok hsock).1]; exact Option.some_ne_none s)
  have hsettled := (disconnect_settled message (farewellClean_of_boundary hleaves)).ok
    ⟨rfl, hopen⟩ hdisc
  rcases hsettled with hquiet | hended
  · exact (hquiet.2.delivered (Or.inl rfl)).orderly
  · exact hended.2.orderly

/-- **Connecting with nothing left over** starts a stream of its own. -/
theorem Orderly.connect {forget : τ → τ} {dial : Dial μ} (h : Orderly W all c)
    (hoff : c.socket = none) (hleft : NothingLeft c)
    (hconn : Run.Leaves (Client.connect forget dial) c c') :
    Orderly W (dial.queued all) c' := by
  have hends : Run.Ends (Client.connect forget dial) c (fun _ => Orderly W (dial.queued all))
      (fun _ => Orderly W (dial.queued all)) := by
    refine Run.Ends.get_bind ?_
    rw [hoff]
    refine Run.Ends.bind (M := fun _ c' => c'.socket = none ∧ c'.written = c.written
      ∧ c'.sendbuf = none ∧ c'.sendq = []) ?_ (fun _ c₁ h₁ => ?_)
    · exact Or.inl ⟨(), { c with sendq := [], world := forget c.world, name := dial.name },
        rfl, hoff, rfl, hleft, rfl⟩
    obtain ⟨hsocket, hwritten, hsendbuf, hsendq⟩ := h₁
    unfold Dial.queued
    cases dial.inbox with
    | none =>
      refine Run.Ends.pure ⟨fun hopen => absurd hsocket hopen, ?_⟩
      unfold Clean
      rw [hwritten]
      exact h.clean
    | some inbox =>
      have hattach : InLine W [] (attach inbox c₁) := by
        show [] ++ (c₁.sendbuf.getD [] ++ W.stream c₁.sendq) = _
        rw [hsendbuf, hsendq]
        rfl
      refine Run.Ends.bind (M := fun _ c' => c' = attach inbox c₁) (Or.inl ⟨(), _, rfl, rfl⟩)
        (fun _ c₂ h₂ => ?_)
      subst h₂
      cases dial.isNamed with
      | true =>
        exact Or.inl ⟨true, _, rfl, fun _ => hattach.send dial.login, Or.inl List.nil_prefix⟩
      | false => exact Run.Ends.throw ⟨fun _ => hattach, Or.inl List.nil_prefix⟩
  rcases hends.of_leaves hconn with ⟨_, hc'⟩ | ⟨_, hc'⟩
  · exact hc'
  · exact hc'

/-- **Frames do not straddle connections or each other** in a run that leaves
a connection at a boundary and enters one with nothing left over. -/
theorem clean_of_sessions (W : Encoder ε μ τ) (forget : τ → τ) (world : τ) (all : List μ)
    (c : State ε μ τ) (hc : Sessions W forget (AtBoundary W) NothingLeft (offline world) all c) :
    Clean W all c := by
  have horderly : Orderly W all c := by
    induction hc with
    | start => exact ⟨fun h => absurd rfl h, Or.inl List.nil_prefix⟩
    | send msg _ ih => exact ⟨fun h => (ih.inLine h).send msg, ih.clean.append msg⟩
    | step turn _ hleaves hstep ih => exact ih.step hleaves hstep
    | disconnect turn message _ hleaves hdisc ih => exact ih.disconnect hleaves hdisc
    | connect dial _ hoff henters hconn ih => exact ih.connect hoff henters hconn
  exact horderly.clean

end Sessions

/-- A call of `client.connect` that succeeds, with an empty login message. -/
def Dial.plain : Dial Bytes := ⟨[], [], some ⟨[], false⟩, true⟩

/-- A client that has written its login frame, and two bytes of its farewell
behind it. -/
def State.departed : State Unit Bytes Unit :=
  { connected [] () ⟨[], false⟩ with
    socket := none, isBroken := true, written := [48, 10] ++ [49, 54] }

/-- It leaves its connection at a boundary. -/
theorem sessions_departed :
    Sessions Encoder.verbatim id (AtBoundary Encoder.verbatim) NothingLeft (offline ()) [[]]
      State.departed := by
  have hentered : Sessions Encoder.verbatim id (AtBoundary Encoder.verbatim) NothingLeft
      (offline ()) [[]] { connected [] () ⟨[], false⟩ with written := [48, 10] } :=
    .step (b := true) ⟨0, .sent, none⟩ (.connect Dial.plain .start rfl rfl (Or.inl ⟨true, rfl⟩))
      (fun h => absurd rfl h) rfl
  exact .disconnect ⟨0, .sent, some 2⟩ [] hentered
    (fun _ => ⟨[[]], List.prefix_rfl, rfl⟩) rfl

/-- **A farewell behind a whole frame**, and the first byte of the login frame
on the next connection. -/
theorem clean_of_reconnect :
    Clean Encoder.verbatim [[]] State.departed ∧
      ∃ c : State Unit Bytes Unit, c.written = [48] ∧ Clean Encoder.verbatim [[]] c := by
  refine ⟨clean_of_sessions Encoder.verbatim id () [[]] _ sessions_departed, _, ?_,
    clean_of_sessions Encoder.verbatim id () [[]] _
      (.step (b := false) (Turn.slow 1)
        (.connect Dial.plain sessions_departed rfl rfl (Or.inl ⟨true, rfl⟩))
        (fun h => absurd rfl h) rfl)⟩
  rfl

/-- **The rest of a frame goes to the next connection**: the header of the
first login is cut behind its digit, and the line end is the first thing the
second server reads. -/
theorem not_clean :
    ¬ ∀ (all : List Bytes) (c : State Unit Bytes Unit),
      Sessions Encoder.verbatim id (AtBoundary Encoder.verbatim) (fun _ => True)
        (offline ()) all c →
      Clean Encoder.verbatim all c := by
  intro h
  have hcut : Sessions Encoder.verbatim id (AtBoundary Encoder.verbatim) (fun _ => True)
      (offline ()) [[]] { connected [] () ⟨[], false⟩ with
        written := [48], sendbuf := some [10] } :=
    .step (b := true) (Turn.slow 1) (.connect Dial.plain .start rfl trivial (Or.inl ⟨true, rfl⟩))
      (fun h => absurd rfl h) rfl
  have hagain := Sessions.connect Dial.plain
    (.disconnect (Turn.slow 0) [] hcut (fun h => absurd rfl h) rfl) rfl trivial
    (Or.inl ⟨true, rfl⟩)
  have hwritten := h _ _ (.step (b := false) (Turn.slow 1) hagain (fun h => absurd rfl h) rfl)
  rcases hwritten with hprefix | ⟨sent, text, n, hsent, hwritten⟩
  · exact absurd hprefix (by decide)
  · -- whatever comes first is a frame, and starts with a digit
    cases sent with
    | nil =>
      obtain ⟨c, rest, hc, hdigit⟩ := exists_frame_eq text
      cases n with
      | zero => cases hwritten
      | succ n =>
        change [10] = (frame text).take (n + 1) at hwritten
        rw [hc, List.take_succ_cons] at hwritten
        exact ne_of_isDigit hdigit rfl (List.cons.inj hwritten).1.symm
    | cons msg sent =>
      obtain ⟨c, rest, hc, hdigit⟩ := exists_frame_eq msg
      change [10] = frame msg ++ _ ++ _ at hwritten
      rw [hc] at hwritten
      exact ne_of_isDigit hdigit rfl (List.cons.inj hwritten).1.symm

end Client

end Felt
