import Felt.Client.Bearing
import Felt.Client.Click
import Felt.Client.Writer

/-!
# Requests on the wire

What a client says is packed, framed and queued, and its socket takes as much of
it in a step as it likes; the server reads a line and as many bytes as it says.
A `Wiring` is a room with the bytes in it: what a client has said and the server
has not read is there by name too, but nothing is read from that.

`arises_of_wired` says that the bytes make no difference: whatever the pieces
are that the frames are written in, the server reads the frames of what was
said, in order, and the server, the messages and the clients are those of a room
in which requests are passed on as they are.

A client says other things than requests – it logs in, and chats. What the
server does then is one of the things a server does, and no request.

Three cursors go along one stream: what the client has said, what its socket has
taken, and what the server has read. The invariant `InTouch` is about all of them
at once. What was written and what is pending are the frames of all that was
said, and the server has read whole frames, those of what it has heard. When the
server reads again it waits until a frame is there, so that it is the next one
that it reads and nothing else, however few bytes of those behind it have come.

The table of known objects grows when a client packs a mirror, and what it packs
next may be written differently for that. For a request it makes no difference,
as a mirror is written as its id either way (`pack_click`); so what is said is
text from the moment it is said.
-/

namespace Felt

namespace Client

open Box (Point)

open Net (Inbox FrameError Sizes)

open Server (Obj Msg Method Machine Installation Deed Reception)

/-! ## What a client says -/

/-- **The mirrors in `_objects`**, which are there under their ids. -/
abbrev Known : Type := Node → Bool

namespace Known

/-- `_objects`. -/
def objs (k : Known) : Node → Option ℕ
  | .message => none
  | .mirror a id => if k (.mirror a id) then some id else none

/-- The mirrors that are in a table. -/
def of (objs : Option (Node → Option ℕ)) : Known := fun n => (objs.bind (fun o => o n)).isSome

theorem records (k : Known) : Box.Records Node.ident .message k.objs where
  root := rfl
  ident n id h := by
    cases n with
    | message => cases h
    | mirror a i =>
      obtain ⟨-, hid⟩ := Option.ite_none_right_eq_some.mp h
      exact (Option.some.inj hid).symm

end Known

/-- **What a client says**: a request, or something else, by its text. An
interpreter has no longer strings. -/
inductive Utterance where
  /-- A request. -/
  | ask (c : Click) (h : c.text.length ≤ 2 ^ 53)
  /-- Something else. -/
  | say (text : Bytes) (h : Sendable text)

namespace Utterance

/-- What is written for it. -/
def text : Utterance → Bytes
  | ask c _ => c.text
  | say text _ => text

/-- The request, if it is one. -/
def request : Utterance → Option Request
  | ask c _ => some c.request
  | say _ _ => none

theorem sendable (u : Utterance) : Sendable u.text := by
  cases u with
  | ask c h => exact ⟨Click.whole, h⟩
  | say text h => exact h

/-- `box.pack(msg, _objects)`. -/
def pack : Utterance → Run Known BoxError Bytes
  | ask c _ => fun k =>
    match Box.pack c.graph (some k.objs) 3 (.ref .message) with
    | .ok buf st => .ok buf (Known.of st.objs)
    | .error e st => .error e (Known.of st.objs)
    | .timeout => .timeout
  | say text _ => pure text

theorem pack_eq (u : Utterance) (k : Known) : ∃ k', u.pack k = .ok u.text k' := by
  cases u with
  | ask c h =>
    obtain ⟨st, -, hpack, -, -⟩ := pack_click (c := c) k.records
    exact ⟨Known.of st.objs, by simp only [pack, hpack, text]⟩
  | say text h => exact ⟨k, rfl⟩

/-- **A client may say this**: a request is made on a mirror it has. -/
def Shown (c : Model (Point Obj)) : Utterance → Prop
  | ask click _ => click.request.mirror < c.next ∧ click.request.Shown c
    ∧ (c.heap click.request.mirror).id = some click.id
  | say _ _ => True

end Utterance

/-- **What a client brings to its writer.** What it makes of messages is
`Model.receive`, and no business of the writer's. -/
def speaker (Z : Sizes) (packChat : Bytes → Bytes) : Encoder BoxError Utterance Known where
  handle _ := pure ()
  pack := Utterance.pack
  packChat := packChat
  size := Z.size
  size_natCast n _ := Z.size_natCast n
  text := Utterance.text
  pack_eq := Utterance.pack_eq

/-- **What the server reads**: a line, and as many bytes as it says. It waits
for what is not there, so that only an answer is a step. -/
def hearing (Z : Sizes) : Run Inbox FrameError Reception := do
  let line ← Net.readLine
  match Number.tonumber line with
  | none => pure ⟨some line, none⟩
  | some len => do
    let buf ← Inbox.receiveCount (Z.size len)
    pure ⟨some line, buf⟩

/-! ## Reading a frame that comes in pieces -/

section Hearing

variable {Z : Sizes} {q rest : Bytes} {rec : Reception} {s : Inbox}

/-- **Whoever reads something has read a frame**, when what there is to read is
a piece of a stream that starts with one. -/
theorem hearing_frame {p : Bytes} {buf : Bytes} (hbuf : Sendable buf)
    (hp : p ++ q = Net.frame buf ++ rest) (h : hearing Z ⟨p, false⟩ = .ok rec s) :
    rec = ⟨some (decimal buf.length), some buf⟩ ∧ p = Net.frame buf ++ s.unread := by
  -- the stream begins with the header, its line end, and the text
  have hframe : p ++ q = decimal buf.length ++ 10 :: (buf ++ rest) := by
    rw [hp, Net.frame_of_whole hbuf.1, List.append_assoc, List.cons_append]
  obtain ⟨line, s₁, hline, hread⟩ := Run.bind_eq_ok.mp h
  -- a line is there, so the header is
  have hten : 10 ∈ p := by
    by_contra hno
    have hclosed : Net.readLine ⟨p, false⟩ = .error .closed ⟨[], false⟩ := by
      unfold Net.readLine Inbox.receiveLine
      rw [List.take_length, if_neg hno, List.drop_length]
      rfl
    cases hclosed.symm.trans hline
  have hlt : (decimal buf.length).length < p.length := by
    refine (Net.newline_mem_take_header buf.length (buf ++ rest) p.length).mp ?_
    rw [← hframe, List.take_left]
    exact hten
  obtain ⟨p₂, hp₂⟩ : ∃ p₂, p = decimal buf.length ++ 10 :: p₂ := by
    have htake : p = (decimal buf.length ++ 10 :: (buf ++ rest)).take p.length := by
      rw [← hframe, List.take_left]
    obtain ⟨k, hk⟩ : ∃ k, p.length = (decimal buf.length).length + (k + 1) :=
      ⟨p.length - (decimal buf.length).length - 1, by omega⟩
    rw [hk, List.take_length_add_append, List.take_succ_cons] at htake
    exact ⟨_, htake⟩
  -- what has come behind the header is a piece of the text and what follows it
  have hbody : p₂ ++ q = buf ++ rest := by
    rw [hp₂, List.append_assoc] at hframe
    exact (List.cons.inj (List.append_cancel_left hframe)).2
  have hheader := Net.readLine_header (s := ⟨p, false⟩) hp₂
  obtain ⟨rfl, rfl⟩ := Outcome.ok.inj (hheader.symm.trans hline)
  have hsize : Z.size (roundDouble buf.length) = buf.length := Net.counted_of_le Z hbuf.2
  have hcount : (Inbox.receiveCount (Z.size (roundDouble buf.length)) >>= fun b =>
      pure ⟨some (decimal buf.length), b⟩ : Run Inbox FrameError Reception) ⟨p₂, false⟩
        = .ok rec s := by
    rw [Number.tonumber_decimal] at hread
    exact hread
  rw [hsize] at hcount
  by_cases hle : buf.length ≤ p₂.length
  · have hprefix : buf <+: p₂ ++ q := by
      rw [hbody]
      exact List.prefix_append _ _
    obtain ⟨p₃, rfl⟩ := List.prefix_of_prefix_length_le hprefix (List.prefix_append _ _) hle
    rw [Run.bind_of_ok (Net.receiveCount_body (s := ⟨buf ++ p₃, false⟩) rfl)] at hcount
    obtain ⟨rfl, rfl⟩ := Outcome.ok.inj hcount
    refine ⟨rfl, ?_⟩
    rw [hp₂, Net.frame_of_whole hbuf.1, List.append_assoc, List.cons_append]
  · -- the server waits for the rest
    have hwait : (Inbox.receiveCount buf.length : Run Inbox FrameError _) ⟨p₂, false⟩
        = .timeout := by
      unfold Inbox.receiveCount
      rw [if_neg hle]
      rfl
    rw [Run.bind_of_timeout hwait] at hcount
    cases hcount

end Hearing

/-! ## Wirings -/

/-- **A server and its clients, and the bytes between them.** -/
structure Wiring where
  /-- The server. -/
  machine : Machine
  /-- What a worker has sent, and its client has not received. -/
  inbox : ℕ → List (Msg (Point Obj))
  /-- What the client of a worker has. -/
  client : ℕ → Model (Point Obj)
  /-- What the client of a worker writes. -/
  out : ℕ → State BoxError Utterance Known
  /-- How many of the bytes that were written the server has read. -/
  read : ℕ → ℕ
  /-- What a client has said, and the server has not read. -/
  said : ℕ → List Utterance

/-- The room without the bytes. -/
def Wiring.room (X : Wiring) : Room :=
  ⟨⟨X.machine.world, X.inbox, X.client⟩, fun w => (X.said w).filterMap Utterance.request⟩

/-- A client that has said nothing. -/
def silent : State BoxError Utterance Known := connected [] (fun _ => false) ⟨[], false⟩

/-- **What the server does about what it has read** is one of the things a
server does; and a request is not for the id of a player. -/
def Utterance.Heard (S : Server.Site) (fuel w : ℕ) (s s' : Server.State (Point Obj)) :
    Utterance → Prop
  | .ask c _ => c.request.deed w c.id s.game ≠ none
  | .say _ _ => ∃ d : Deed, d.Possible s ∧ d.Once S s ∧ (∀ v, d.transmits s v = [])
    ∧ (d.handler S fuel).Leaves s s'

/-- **The wirings a run reaches** in which nobody logs in twice. -/
inductive Wired (I : Installation) (fuel : ℕ) (Z : Sizes) (packChat : Bytes → Bytes)
    (s₀ : Server.State (Point Obj)) : Wiring → Prop where
  /-- Nobody has said anything. -/
  | start : Wired I fuel Z packChat s₀
      ⟨⟨[], s₀⟩, fun _ => [], fun _ => .fresh, fun _ => silent, fun _ => 0, fun _ => []⟩
  /-- The server does something else: other programs may send it what they like. -/
  | serve {X : Wiring} {s' : Server.State (Point Obj)} (d : Deed)
      (hX : Wired I fuel Z packChat s₀ X) (hd : d.Possible X.machine.world)
      (honce : d.Once I.site X.machine.world)
      (hl : (d.handler I.site fuel).Leaves X.machine.world s') :
      Wired I fuel Z packChat s₀ { X with
        machine := { X.machine with world := s' }
        inbox := fun v => X.inbox v ++ d.transmits X.machine.world v }
  /-- A client receives a message. -/
  | receive {X : Wiring} (w : ℕ) {m : Msg (Point Obj)} {ms : List (Msg (Point Obj))}
      {c : Model (Point Obj)} (hX : Wired I fuel Z packChat s₀ X) (hinbox : X.inbox w = m :: ms)
      (hr : (X.client w).receive m = .ok c) :
      Wired I fuel Z packChat s₀ { X with
        inbox := Function.update X.inbox w ms
        client := Function.update X.client w c }
  /-- A client says something: `client.send`. -/
  | say {X : Wiring} (w : ℕ) (u : Utterance) (hX : Wired I fuel Z packChat s₀ X)
      (hu : u.Shown (X.client w)) :
      Wired I fuel Z packChat s₀ { X with
        out := Function.update X.out w (send u (X.out w))
        said := Function.update X.said w (X.said w ++ [u]) }
  /-- A client writes what its socket takes, and stays connected. -/
  | write {X : Wiring} (w : ℕ) (turn : Turn) {c : State BoxError Utterance Known}
      (hX : Wired I fuel Z packChat s₀ X)
      (hw : serverWriter (speaker Z packChat).toHandlers turn (X.out w) = .ok () c)
      (hopen : c.socket ≠ none) :
      Wired I fuel Z packChat s₀ { X with out := Function.update X.out w c }
  /-- The server reads what a client has written, and acts on the bytes. -/
  | hear {X : Wiring} (w : ℕ) {u : Utterance} {us : List Utterance} {rec : Reception}
      {rest : Inbox} {m' : Machine} (hX : Wired I fuel Z packChat s₀ X)
      (hw : X.machine.world.Registered w) (hsaid : X.said w = u :: us)
      (hread : hearing Z ⟨(X.out w).written.drop (X.read w), false⟩ = .ok rec rest)
      (hl : (Server.receiveOne I w rec).Leaves X.machine m')
      (hheard : u.Heard I.site fuel w X.machine.world m'.world) :
      Wired I fuel Z packChat s₀ { X with
        machine := m'
        read := Function.update X.read w ((X.out w).written.length - rest.unread.length)
        said := Function.update X.said w us }

/-! ## What every run keeps -/

/-- **The bytes are those of what was said**: what was written and is to be
written are the frames of what the server has read and of what it has not. And
what is asked for is under the id of the mirror that was clicked on. -/
structure InTouch (W : Encoder BoxError Utterance Known) (c : Model (Point Obj))
    (out : State BoxError Utterance Known) (read : ℕ) (said : List Utterance) : Prop where
  /-- The frames. -/
  frames : ∃ heard, InLine W (heard ++ said) out ∧ read = (W.stream heard).length
  /-- The ids. -/
  ids : ∀ click h, .ask click h ∈ said →
    click.request.mirror < c.next ∧ (c.heap click.request.mirror).id = some click.id

section InTouch

variable {W : Encoder BoxError Utterance Known} {c c' : Model (Point Obj)}
  {out out' : State BoxError Utterance Known} {read : ℕ} {u : Utterance} {said : List Utterance}

/-- A client that receives a message keeps its mirrors. -/
theorem InTouch.receive (h : InTouch W c out read said) {m : Msg (Point Obj)}
    (hr : c.receive m = .ok c') : InTouch W c' out read said := by
  -- receiving a message writes nothing
  refine ⟨h.frames, fun click hlength hmem => ?_⟩
  obtain ⟨hmade, hid⟩ := h.ids click hlength hmem
  obtain ⟨hnext, -, hsame, -⟩ := receive_old hr hmade
  exact ⟨hnext, hsame.trans hid⟩

/-- What a client says is queued. -/
theorem InTouch.say (h : InTouch W c out read said) (hu : u.Shown c) :
    InTouch W c (send u out) read (said ++ [u]) := by
  constructor
  · obtain ⟨heard, hline, hread⟩ := h.frames
    refine ⟨heard, ?_, hread⟩
    rw [← List.append_assoc]
    exact hline.send u
  · intro click hlength hmem
    rcases List.mem_append.mp hmem with hold | hnew
    · exact h.ids click hlength hold
    · obtain rfl := List.mem_singleton.mp hnew
      exact ⟨hu.1, hu.2.2⟩

/-- **A client that writes and stays connected** is in line. -/
theorem InLine.serverWriter {all : List Utterance} {turn : Turn} (h : InLine W all out)
    (hw : serverWriter W.toHandlers turn out = .ok () out') (hopen : out'.socket ≠ none) :
    InLine W all out' := by
  have hquiet : ∀ v d, Quiet W v all d → Delivered W (fun _ _ => True) all d :=
    fun _ _ hd => hd.2.delivered trivial
  have hsettled : ∀ d, Settled W (fun _ _ => True) out.written all d →
      Delivered W (fun _ _ => True) all d := fun d hd => hd.elim (hquiet _ _) And.right
  have hwrite : Run.Triple (Quiet W out.written all) (Client.serverWriter W.toHandlers turn)
      (fun _ => Delivered W (fun _ _ => True) all) (fun _ => Delivered W (fun _ _ => True) all) :=
    writeMessage_inLine.xpcall (fun _ _ hd => hd.delivered trivial)
      (fun e => (giveUp_settled _ e (fun _ _ _ => trivial)).weaken (fun _ h => h)
        (fun _ => hsettled) (fun _ => hsettled))
  exact (hwrite.ok ⟨rfl, h⟩ hw).inLine hopen

theorem InTouch.write (h : InTouch W c out read said) {turn : Turn}
    (hw : serverWriter W.toHandlers turn out = .ok () out') (hopen : out'.socket ≠ none) :
    InTouch W c out' read said := by
  obtain ⟨heard, hline, hread⟩ := h.frames
  exact ⟨⟨heard, hline.serverWriter hw hopen, hread⟩, h.ids⟩

/-- **What the server reads is what was said next.** -/
theorem InTouch.hear {Z : Sizes} {rec : Reception} {rest : Inbox} (hW : W.text = Utterance.text)
    (h : InTouch W c out read (u :: said))
    (hread : hearing Z ⟨out.written.drop read, false⟩ = .ok rec rest) :
    rec = ⟨some (decimal u.text.length), some u.text⟩
      ∧ InTouch W c out (out.written.length - rest.unread.length) said := by
  obtain ⟨heard, hline, rfl⟩ := h.frames
  have hstream : out.written ++ out.pending W
      = W.stream heard ++ (Net.frame u.text ++ W.stream said) := by
    rw [← hW]
    exact hline.trans (W.stream_append heard (u :: said))
  -- nothing is read from nothing
  have hle : (W.stream heard).length ≤ out.written.length := by
    by_contra hlt
    rw [List.drop_eq_nil_of_le (by omega)] at hread
    cases hread
  have hpiece : out.written.drop (W.stream heard).length ++ out.pending W
      = Net.frame u.text ++ W.stream said := by
    rw [← List.drop_append_of_le_length hle, hstream, List.drop_left]
  obtain ⟨hrec, hp⟩ := hearing_frame u.sendable hpiece hread
  refine ⟨hrec, ⟨heard ++ [u], ?_, ?_⟩,
    fun click hlength hmem => h.ids click hlength (List.mem_cons_of_mem u hmem)⟩
  · rw [List.append_assoc]
    exact hline
  · have hlength := congrArg List.length hp
    rw [List.length_drop, List.length_append] at hlength
    have hone : W.stream [u] = Net.frame u.text := by
      rw [W.stream_cons, W.stream_nil, List.append_nil, hW]
    rw [W.stream_append, List.length_append, hone]
    omega

end InTouch

/-- **What holds of every wiring.** -/
structure Tracks (I : Installation) (fuel : ℕ) (Z : Sizes) (packChat : Bytes → Bytes)
    (s₀ : Server.State (Point Obj)) (X : Wiring) : Prop where
  /-- The room is one that a run reaches. -/
  arises : Arises I.site fuel s₀ X.room
  /-- The bytes are those of what was said. -/
  inTouch : ∀ w, InTouch (speaker Z packChat) (X.client w) (X.out w) (X.read w) (X.said w)

section Wired

variable {I : Installation} {fuel : ℕ} {Z : Sizes} {packChat : Bytes → Bytes} {games : List Bytes}
  {X : Wiring} {w : ℕ}

/-- What is asked for, when somebody has said something else. -/
theorem asked_update (said : ℕ → List Utterance) (w : ℕ) (us : List Utterance) :
    (fun v => (Function.update said w us v).filterMap Utterance.request)
      = Function.update (fun v => (said v).filterMap Utterance.request) w
          (us.filterMap Utterance.request) := by
  funext v
  exact Function.apply_update (fun _ l => l.filterMap Utterance.request) said w us v

theorem Tracks.receive {s₀ : Server.State (Point Obj)} (h : Tracks I fuel Z packChat s₀ X)
    {m : Msg (Point Obj)} {ms : List (Msg (Point Obj))} {c : Model (Point Obj)}
    (hinbox : X.inbox w = m :: ms) (hr : (X.client w).receive m = .ok c) :
    Tracks I fuel Z packChat s₀ { X with
      inbox := Function.update X.inbox w ms
      client := Function.update X.client w c } := by
  refine ⟨.receive w h.arises hinbox hr, fun v => ?_⟩
  show InTouch _ (Function.update X.client w c v) (X.out v) (X.read v) (X.said v)
  by_cases hvw : v = w
  · subst hvw
    rw [Function.update_self]
    exact (h.inTouch v).receive hr
  · rw [Function.update_of_ne hvw]
    exact h.inTouch v

/-- **Saying something** is asking for it, if it is a request. -/
theorem Tracks.say {s₀ : Server.State (Point Obj)} (h : Tracks I fuel Z packChat s₀ X)
    {u : Utterance} (hu : u.Shown (X.client w)) :
    Tracks I fuel Z packChat s₀ { X with
      out := Function.update X.out w (send u (X.out w))
      said := Function.update X.said w (X.said w ++ [u]) } := by
  constructor
  · have hasked : (fun v => (Function.update X.said w (X.said w ++ [u]) v).filterMap
        Utterance.request) = Function.update X.room.asked w
          (X.room.asked w ++ [u].filterMap Utterance.request) := by
      rw [asked_update, List.filterMap_append]
      rfl
    show Arises I.site fuel _ ⟨X.room.world, _⟩
    rw [hasked]
    cases u with
    | ask click hlength => exact .ask w click.request h.arises hu.2.1
    | say text htext =>
      rw [show [Utterance.say text htext].filterMap Utterance.request = [] from rfl,
        List.append_nil, Function.update_eq_self]
      exact h.arises
  · intro v
    show InTouch _ (X.client v) (Function.update X.out w _ v) (X.read v)
      (Function.update X.said w _ v)
    by_cases hvw : v = w
    · subst hvw
      rw [Function.update_self, Function.update_self]
      exact (h.inTouch v).say hu
    · rw [Function.update_of_ne hvw, Function.update_of_ne hvw]
      exact h.inTouch v

theorem Tracks.write {s₀ : Server.State (Point Obj)} (h : Tracks I fuel Z packChat s₀ X)
    {turn : Turn} {out : State BoxError Utterance Known}
    (hw : serverWriter (speaker Z packChat).toHandlers turn (X.out w) = .ok () out)
    (hopen : out.socket ≠ none) :
    Tracks I fuel Z packChat s₀ { X with out := Function.update X.out w out } := by
  refine ⟨h.arises, fun v => ?_⟩
  show InTouch _ (X.client v) (Function.update X.out w out v) (X.read v) (X.said v)
  by_cases hvw : v = w
  · subst hvw
    rw [Function.update_self]
    exact (h.inTouch v).write hw hopen
  · rw [Function.update_of_ne hvw]
    exact h.inTouch v

/-- **What the server does about the next thing that was said**: if it is a
request, what a room does about it, and otherwise one of its deeds. -/
theorem arises_of_heard (hI : I.Shipped fuel)
    (h : Tracks I fuel Z packChat (Server.State.opening I.site games) X)
    (hw : X.machine.world.Registered w) {u : Utterance} {us : List Utterance}
    (hsaid : X.said w = u :: us) {m' : Machine}
    (hl : (Server.receiveOne I w ⟨some (decimal u.text.length), some u.text⟩).Leaves X.machine m')
    (hheard : u.Heard I.site fuel w X.machine.world m'.world) :
    Arises I.site fuel (Server.State.opening I.site games) ⟨⟨m'.world, X.inbox, X.client⟩,
      Function.update X.room.asked w (us.filterMap Utterance.request)⟩ := by
  have hroom : X.room.asked w = (u :: us).filterMap Utterance.request :=
    congrArg (List.filterMap Utterance.request) hsaid
  cases u with
  | ask click hlength =>
    obtain ⟨d, hd⟩ := Option.ne_none_iff_exists'.mp hheard
    have hid := ((h.inTouch w).ids click hlength (by rw [hsaid]; exact List.mem_cons_self)).2
    have hmanned := (synced_indexed (mindful_of_arises h.arises).world).manned
    exact .heed w h.arises hw hroom hid hd
      ((leaves_receiveOne hI hmanned hd m'.world).mp ⟨m', hl, rfl⟩)
  | say text htext =>
    obtain ⟨d, hd, honce, hquiet, hdeed⟩ := hheard
    have hserve := Arises.serve d h.arises hd honce hdeed
    have hinbox : (fun v => X.room.world.inbox v ++ d.transmits X.room.world.server v)
        = X.inbox := by
      funext v
      rw [show d.transmits X.room.world.server v = [] from hquiet v, List.append_nil]
      rfl
    rw [hinbox] at hserve
    have hasked : Function.update X.room.asked w (us.filterMap Utterance.request)
        = X.room.asked := Function.update_eq_iff.mpr ⟨hroom.symm, fun _ _ => rfl⟩
    rw [hasked]
    exact hserve

theorem Tracks.hear (hI : I.Shipped fuel)
    (h : Tracks I fuel Z packChat (Server.State.opening I.site games) X)
    (hw : X.machine.world.Registered w) {u : Utterance} {us : List Utterance} {rec : Reception}
    {rest : Inbox} {m' : Machine} (hsaid : X.said w = u :: us)
    (hread : hearing Z ⟨(X.out w).written.drop (X.read w), false⟩ = .ok rec rest)
    (hl : (Server.receiveOne I w rec).Leaves X.machine m')
    (hheard : u.Heard I.site fuel w X.machine.world m'.world) :
    Tracks I fuel Z packChat (Server.State.opening I.site games) { X with
      machine := m'
      read := Function.update X.read w ((X.out w).written.length - rest.unread.length)
      said := Function.update X.said w us } := by
  have htouch := h.inTouch w
  rw [hsaid] at htouch
  obtain ⟨rfl, hnext⟩ := htouch.hear rfl hread
  constructor
  · show Arises I.site fuel _ ⟨⟨m'.world, X.inbox, X.client⟩, _⟩
    rw [asked_update]
    exact arises_of_heard hI h hw hsaid hl hheard
  · intro v
    show InTouch _ (X.client v) (X.out v) (Function.update X.read w _ v)
      (Function.update X.said w us v)
    by_cases hvw : v = w
    · subst hvw
      rw [Function.update_self, Function.update_self]
      exact hnext
    · rw [Function.update_of_ne hvw, Function.update_of_ne hvw]
      exact h.inTouch v

/-- **In every wiring** the bytes are those of what was said, and without them
it is a room. -/
theorem tracks_of_wired (hI : I.Shipped fuel)
    (hX : Wired I fuel Z packChat (Server.State.opening I.site games) X) :
    Tracks I fuel Z packChat (Server.State.opening I.site games) X := by
  induction hX with
  | start => exact ⟨.start, fun _ => ⟨⟨[], rfl, rfl⟩, fun _ _ h => absurd h List.not_mem_nil⟩⟩
  | serve d _ hd honce hl ih => exact ⟨.serve d ih.arises hd honce hl, ih.inTouch⟩
  | receive w _ hinbox hr ih => exact ih.receive hinbox hr
  | say w u _ hu ih => exact ih.say hu
  | write w turn _ hw hopen ih => exact ih.write hw hopen
  | hear w _ hw hsaid hread hl hheard ih => exact ih.hear hI hw hsaid hread hl hheard

/-- **The bytes make no difference.** In every wiring that a run reaches,
however the sockets take the frames and whatever the server does meanwhile:
what the clients have written and have to write are the frames of what they
have said, of which the server has read the first, whole; and the server, the
messages and the clients are those of a room, in which what is asked for is
what was said and not read. -/
theorem arises_of_wired (I : Installation) (fuel : ℕ) (hI : I.Shipped fuel) (Z : Sizes)
    (packChat : Bytes → Bytes) (games : List Bytes) (X : Wiring)
    (hX : Wired I fuel Z packChat (Server.State.opening I.site games) X) :
    Arises I.site fuel (Server.State.opening I.site games) X.room
      ∧ ∀ w, ∃ heard : List Utterance, (X.out w).written ++ (X.out w).pending (speaker Z packChat)
          = (speaker Z packChat).stream (heard ++ X.said w)
        ∧ X.read w = ((speaker Z packChat).stream heard).length :=
  ⟨(tracks_of_wired hI hX).arises, fun w => ((tracks_of_wired hI hX).inTouch w).frames⟩

/-! ## A request that is carried out -/

theorem wired_of_reached (Z : Sizes) (packChat : Bytes → Bytes)
    {s₀ : Server.State (Point Obj)} {V : World}
    (hV : Reached (serving I.site fuel (fun d s => d.Once I.site s)) s₀ V) :
    Wired I fuel Z packChat s₀
      ⟨⟨[], V.server⟩, V.inbox, V.client, fun _ => silent, fun _ => 0, fun _ => []⟩ := by
  induction hV with
  | start => exact .start
  | serve _ hs ih =>
    obtain ⟨d, hd, honce, hl, rfl⟩ := hs
    exact .serve d ih hd honce hl
  | receive w _ hinbox hr ih => exact .receive w ih hinbox hr

/-- **A socket may take all of a frame.** -/
theorem exists_written (Z : Sizes) (packChat : Bytes → Bytes) (u : Utterance) :
    ∃ k, serverWriter (speaker Z packChat).toHandlers ⟨0, .sent, none⟩ (send u silent)
      = .ok () { silent with world := k, written := Net.frame u.text } := by
  obtain ⟨k, hk⟩ := u.pack_eq (fun _ => false)
  refine ⟨k, ?_⟩
  have hpack : onWorld u.pack silent = .ok u.text { silent with world := k } := by
    unfold onWorld
    rw [show u.pack (silent : State BoxError Utterance Known).world = .ok u.text k from hk]
  have hfill : fillSendbuf (speaker Z packChat).toHandlers (send u silent)
      = .ok () { silent with world := k, sendbuf := some (Net.frame u.text) } := by
    rw [fillSendbuf, Run.get_bind]
    show (onWorld u.pack >>= fun buf => Run.modify (fun c => { c with
      sendbuf := some (Net.frame buf) })) silent = _
    rw [Run.bind_of_ok hpack]
    rfl
  have hwrite : writeMessage (speaker Z packChat).toHandlers ⟨0, .sent, none⟩ (send u silent)
      = .ok () { silent with world := k, written := Net.frame u.text } := by
    rw [writeMessage, Run.bind_of_ok hfill]
    rfl
  unfold serverWriter Run.xpcall
  rw [hwrite]

/-- **A frame that is there is read.** -/
theorem hearing_whole {buf : Bytes} (hbuf : Sendable buf) :
    hearing Z ⟨Net.frame buf, false⟩ = .ok ⟨some (decimal buf.length), some buf⟩ ⟨[], false⟩ := by
  have hline : Net.readLine ⟨Net.frame buf, false⟩ = .ok (decimal buf.length) ⟨buf, false⟩ :=
    Net.readLine_header (s := ⟨Net.frame buf, false⟩) (Net.frame_of_whole hbuf.1)
  have hsize : Z.size (roundDouble buf.length) = buf.length := Net.counted_of_le Z hbuf.2
  rw [hearing, Run.bind_of_ok hline, Number.tonumber_decimal]
  show (Inbox.receiveCount (Z.size (roundDouble buf.length)) >>= _) _ = _
  rw [hsize, Run.bind_of_ok (Net.receiveCount_body (s := ⟨buf, false⟩) (List.append_nil buf).symm)]
  rfl

/-- **A click on a mirror** is said, written at once and heard, and the server
does what is asked for. -/
theorem wired_clicked (Z : Sizes) (packChat : Bytes → Bytes) (hI : I.Shipped fuel)
    {s₀ : Server.State (Point Obj)} {V : World}
    (hV : Reached (serving I.site fuel (fun d s => d.Once I.site s)) s₀ V)
    (hmanned : Server.Manned Server.Policy.shipped V.server) {w : ℕ} (hw : V.server.Registered w)
    {c : Click} (hlength : c.text.length ≤ 2 ^ 53)
    (hc : (Utterance.ask c hlength).Shown (V.client w)) {d : Deed}
    (hd : c.request.deed w c.id V.server.game = some d) {s' : Server.State (Point Obj)}
    (hl : (d.handler I.site fuel).Leaves V.server s') :
    ∃ X, Wired I fuel Z packChat s₀ X ∧ (X.out w).written = Net.frame c.text
      ∧ X.read w = (Net.frame c.text).length ∧ X.machine.world = s' := by
  obtain ⟨k, hk⟩ := exists_written Z packChat (.ask c hlength)
  set u : Utterance := .ask c hlength
  set out : State BoxError Utterance Known :=
    { silent with world := k, written := Net.frame u.text }
  set queued : ℕ → State BoxError Utterance Known :=
    Function.update (fun _ => silent) w (send u silent) with hqueued
  have hwrite : serverWriter (speaker Z packChat).toHandlers ⟨0, .sent, none⟩ (queued w)
      = .ok () out := by
    rw [hqueued, Function.update_self]
    exact hk
  have hout : Function.update queued w out w = out := Function.update_self _ _ _
  have hread : hearing Z ⟨(Function.update queued w out w).written.drop 0, false⟩
      = .ok ⟨some (decimal u.text.length), some u.text⟩ ⟨[], false⟩ := by
    rw [hout]
    exact hearing_whole u.sendable
  have hsaid : (Function.update (fun _ => []) w ([] ++ [u]) : ℕ → List Utterance) w = u :: [] := by
    rw [Function.update_self, List.nil_append]
  obtain ⟨m', hm', hworld⟩ := (leaves_receiveOne (m := ⟨[], V.server⟩) hI hmanned hd s').mpr hl
  -- it is said, written and heard
  have hX := ((wired_of_reached Z packChat hV).say w u hc).write w ⟨0, .sent, none⟩ hwrite
    (Option.some_ne_none _)
  refine ⟨_, hX.hear w hw hsaid hread hm' (Option.ne_none_iff_exists'.mpr ⟨d, hd⟩), ?_, ?_, hworld⟩
  · exact congrArg State.written hout
  · show (Function.update (fun _ => 0) w ((Function.update queued w out w).written.length - 0) :
      ℕ → ℕ) w = _
    rw [Function.update_self, hout]
    exact Nat.sub_zero _

/-- Somebody logs in, receives the game, clicks on the go box and writes that,
and the server reads it. -/
theorem arises_of_wired_box : ∃ (X : Wiring) (a : ℕ),
    (X.out 0).written = Net.frame (Click.openBox a).text
      ∧ X.read 0 = (Net.frame (Click.openBox a).text).length
      ∧ Arises .plain 5 (Server.State.opening .plain [bytes "go"]) X.room := by
  obtain ⟨V, a, hV, hw, ha, hmade, hid, hclass, hbox, hkind, -⟩ := exists_box_shown
  have hI := Server.shipped_standard .plain 5
  have hlength : (Click.openBox a).text.length ≤ 2 ^ 53 := by
    show (Click.openBox 0).text.length ≤ 2 ^ 53
    decide +kernel
  have hshown : (Click.openBox a).request.Shown (V.client 0) :=
    ⟨⟨2, hid, ha⟩, .box, hclass, List.mem_singleton_self _⟩
  -- the server does what is asked for
  have hmindful := mindful_of_arises (Arises.ask 0 _ (arises_of_reached hV) hshown)
  have hmanned := (synced_indexed hV).manned
  have hasked : (Function.update (fun _ => []) 0 ([] ++ [(Click.openBox a).request]) :
      ℕ → List Request) 0 = (Click.openBox a).request :: [] := by
    rw [Function.update_self, List.nil_append]
  obtain ⟨p, hp, -, hmirror⟩ := hmindful.asker (synced_indexed hV).seats hw hasked
  obtain ⟨s', hl, -⟩ := hmindful.granted (by simp) hw hp hmirror hbox
    (hclass.trans (congrArg some hkind.symm))
  have hd : (Click.openBox a).request.deed 0 (Click.openBox a).id V.server.game
      = some (.act 0 1 .openBox (some 0) (some 0)) := by
    show Request.deed _ 0 2 V.server.game = _
    rw [Request.deed, hbox]
    rfl
  obtain ⟨X, hX, hwritten, hread, -⟩ := wired_clicked .floor id hI hV hmanned
    hw hlength ⟨hmade, hshown, hid⟩ hd hl
  exact ⟨X, a, hwritten, hread, (arises_of_wired _ 5 hI .floor id _ X hX).1⟩

end Wired

end Client

end Felt
