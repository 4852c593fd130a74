import Felt.Box.Termination
import Felt.Box.World
import Felt.Server.Loop

/-!
# When the main loop survives its clients

Only `receiveOne` and `sendOne` are protected. `server.step` survives what
happens in them as long as their handler, `disconnect`, does its work: it must
take the socket out of both `_clients` and `_sockets`, or the next read finds
a socket without a worker.

There are four ways it does not survive. A peer that has gone by the time its
socket is registered has no name, and `register` – which nothing protects –
raises with the socket already in the list. A guest whose name somebody has
logged in under is not unregistered to the end. A message may have the decoder
load a module that replaces the global `server`. And `box.unpack` may not end
(`Box.unpack_terminates_iff`). `survives_of_loops` says that there is no fifth,
as long as the sockets answer: `receive` and `send` are taken to return, with
what they read or an error, as `receive` does not while a client that has sent
half a line says nothing more.

Of the last two the first is a matter of the modules there are, and the second
of what a message says: where no module touches the sessions, a message whose
counts are no more than `2 ^ 53 + 2` is decoded safely
(`decodesSafely_of_counts`).

The witness of the main result is a run that is carried out: somebody connects,
logs in and is sent the game. As the decoder is a function it can be asked what
it does with the frame, and `checkTurn` asks it; that a turn which passes the
check does no harm is `turnSafe_of_checkTurn`.
-/

namespace Felt

namespace Server

open Box (Point Store)

variable {α : Type} {I : Installation}

/-! ## Sockets and workers -/

/-- **A socket is in `_sockets` exactly when `_clients` has a worker for
it.** -/
structure Aligned (s : State α) : Prop where
  /-- The two tables have the same sockets. -/
  socket_iff : ∀ k, k ∈ s.sockets ↔ ∃ w, s.clients.get k = some w
  /-- A socket is in the list once. -/
  nodup : s.sockets.Nodup
  /-- The worker of a socket has that socket. -/
  client : ∀ k w, s.clients.get k = some w → (s.workers w).socket = k ∧ w < s.nextWorker

/-- What is done for the socket `k` leaves the sockets and workers aligned,
and the workers of the other sockets alone. -/
structure Served (k : ℕ) (s s' : State α) : Prop where
  /-- The tables are aligned. -/
  aligned : Aligned s'
  /-- The other sockets have the workers they had. -/
  other : ∀ k' ≠ k, s'.clients.get k' = s.clients.get k'

section Served

variable {s s' : State α} {w : ℕ}

theorem Aligned.registered (h : Aligned s) {k : ℕ} (hw : s.clients.get k = some w) :
    s.Registered w := by
  unfold State.Registered
  rw [(h.client k w hw).1]
  exact hw

theorem SameTables.served (h : SameTables s s') (hs : Aligned s) (k : ℕ) : Served k s s' where
  aligned := by
    refine ⟨fun k => ?_, ?_, fun k w hw => ?_⟩
    · rw [h.sockets, h.clients]
      exact hs.socket_iff k
    · rw [h.sockets]
      exact hs.nodup
    · rw [h.clients] at hw
      rw [h.socket, h.nextWorker]
      exact hs.client k w hw
  other k' _ := by rw [h.clients]

theorem Entered.served {n : Bytes} (h : Entered s s' w n) (hs : Aligned s) (k : ℕ) :
    Served k s s' where
  aligned := by
    refine ⟨fun k => ?_, ?_, fun k w hw => ?_⟩
    · rw [h.sockets, h.clients]
      exact hs.socket_iff k
    · rw [h.sockets]
      exact hs.nodup
    · rw [h.clients] at hw
      rw [h.socket, h.nextWorker]
      exact hs.client k w hw
  other k' _ := by rw [h.clients]

/-- A worker that is unregistered takes its socket with it. -/
theorem Removed.served (h : Removed s s' w) (hs : Aligned s) :
    Served (s.workers w).socket s s' where
  aligned := by
    refine ⟨fun k => ?_, ?_, fun k v hv => ?_⟩
    · rw [h.sockets, h.clients, Dict.get_erase, hs.nodup.mem_erase_iff, hs.socket_iff]
      by_cases hk : k = (s.workers w).socket
      · rw [if_pos hk]
        exact iff_of_false (fun hv => hv.1 hk) nofun
      · rw [if_neg hk]
        exact and_iff_right hk
    · rw [h.sockets]
      exact hs.nodup.erase _
    · rw [h.clients, Dict.get_erase] at hv
      rw [h.socket, h.nextWorker]
      split at hv
      · cases hv
      · exact hs.client k v hv
  other k' hk' := by rw [h.clients, Dict.get_erase_of_ne _ hk']

/-- A socket that is accepted gets a worker. -/
theorem Joined.aligned {socket : ℕ} {peer : Bytes} (h : Joined s s' socket peer)
    (hs : Aligned s) (hfresh : socket ∉ s.sockets) : Aligned s' := by
  have hold : ∀ k w, s.clients.get k = some w → w ≠ s.nextWorker := fun k w hw => by
    have := (hs.client k w hw).2
    omega
  refine ⟨fun k => ?_, ?_, fun k v hv => ?_⟩
  · rw [h.sockets, h.clients, Dict.get_set, List.mem_append, List.mem_singleton, hs.socket_iff]
    by_cases hk : k = socket
    · rw [if_pos hk]
      exact iff_of_true (Or.inr hk) ⟨_, rfl⟩
    · rw [if_neg hk]
      exact or_iff_left hk
  · rw [h.sockets]
    exact hs.nodup.append (List.nodup_singleton _) (List.disjoint_singleton.mpr hfresh)
  · rw [h.clients, Dict.get_set] at hv
    rw [h.nextWorker]
    split at hv
    · next hk =>
      obtain rfl := Option.some.inj hv
      rw [h.guest, hk]
      exact ⟨rfl, Nat.lt_succ_self _⟩
    · rw [h.worker v (hold k v hv)]
      exact ⟨(hs.client k v hv).1, Nat.lt_succ_of_lt (hs.client k v hv).2⟩

/-- **A guest's name is nobody's who is logged in.** -/
def NameFree (s : State α) (w : ℕ) : Prop :=
  (s.workers w).player = none → s.players.get (s.workers w).name = none

theorem NameFree.sameTables (h : NameFree s w) (ht : SameTables s s') : NameFree s' w := by
  unfold NameFree
  rw [ht.player, ht.name, ht.players]
  exact h

theorem disconnect_returns (hname : NameFree s w) :
    Run.Returns (disconnect w) s (fun _ s' => Removed s s' w) := by
  refine unregister_returns ?_
  rcases hp : (s.workers w).player with _ | p
  · exact Or.inl (hname hp)
  · exact Or.inr ⟨p, rfl⟩

/-- **A login is served**, whatever comes of it. -/
theorem login_served {S : Site} {name pass r g b : Value α} (hs : Aligned s)
    (hname : NameFree s w) :
    Run.Returns (login S w name pass r g b) s (fun _ s' => Served (s.workers w).socket s s') := by
  have hdisc : Run.Returns (disconnect w) s (fun _ s' => Served (s.workers w).socket s s') :=
    (disconnect_returns hname).weaken (fun _ _ h => h.served hs)
  refine Run.Returns.get_bind ?_
  cases name with
  | string name =>
    show Run.Returns (if S.refuses pass then _
      else if (s.players.get name).isSome then _ else _) s _
    split
    · exact hdisc
    · split
      · exact hdisc
      · exact (welcome_returns w name r g b).weaken (fun _ _ h => h.served hs _)
  | _ => exact hdisc

theorem chat_returns {text : Value α} :
    Run.Returns (chat w text) s (fun _ s' => SameTables s s') := by
  have hsend : Run.Returns (send (fun _ => .chat (s.workers w).name text)) s.game
      (fun _ _ => True) := ⟨(), _, rfl, trivial⟩
  exact (onGame_returns hsend).weaken (fun _ _ h => h.1)

end Served

/-! ## One message -/

section Message

variable {m m' : Machine} {w : ℕ}

theorem onServer_ends {β : Type} {x : Handler (Point Obj) β} {Q : β → State (Point Obj) → Prop}
    {E : ServerError → State (Point Obj) → Prop} (h : Run.Ends x m.world Q E) :
    Run.Ends (onServer x) m (fun b m' => Q b m'.world) (fun e m' => E e m'.world) := by
  rcases h with ⟨b, s, hx, hq⟩ | ⟨e, s, hx, he⟩
  · refine Or.inl ⟨b, { m with world := s }, ?_, hq⟩
    unfold onServer
    rw [hx]
  · refine Or.inr ⟨e, { m with world := s }, ?_, he⟩
    unfold onServer
    rw [hx]

theorem onServer_returns {β : Type} {x : Handler (Point Obj) β}
    {Q : β → State (Point Obj) → Prop} (h : Run.Returns x m.world Q) :
    Run.Returns (onServer x) m (fun b m' => Q b m'.world) := by
  obtain ⟨b, s, hx, hq⟩ := h
  refine ⟨b, { m with world := s }, ?_, hq⟩
  unfold onServer
  rw [hx]

/-- Reading a message changes nothing. -/
theorem index_ends (v key : Datum) (m₀ : Machine) (hm : m = m₀) :
    Run.Ends (index v key) m (fun _ m' => m' = m₀) (fun _ m' => m' = m₀) := by
  refine Run.Ends.get_bind ?_
  cases v with
  | ref a => cases a <;> exact Run.Ends.pure hm
  | string s => exact Run.Ends.pure hm
  | _ => exact Run.Ends.throw hm

theorem arguments_ends (v : Datum) :
    Run.Ends (arguments I v) m (fun _ m' => m' = m) (fun _ m' => m' = m) := by
  refine Run.Ends.get_bind ?_
  cases v with
  | ref a =>
    cases a with
    | table i =>
      dsimp only
      rcases Net.unpackTable I.interpreter (m.tables.getD i []) with (_ | _) | args
      · exact Run.Ends.throw rfl
      · exact Run.Ends.throw rfl
      · exact Run.Ends.pure rfl
    | object o => exact Run.Ends.pure rfl
  | _ => exact Run.Ends.throw rfl

/-- What a method does to the game changes no table. -/
theorem runMethod_ends {s : State (Point Obj)}
    (f : Game (Point Obj) → Except GameError Unit × Game (Point Obj)) :
    Run.Ends (onGame (runMethod f)) s (fun _ s' => SameTables s s')
      (fun _ s' => SameTables s s') := by
  rcases hf : (f s.game).1 with e | _
  · refine Or.inr ⟨.game e, s.settle (f s.game).2, ?_, SameTables.settle _ _⟩
    unfold onGame runMethod
    rw [hf]
    rfl
  · refine Or.inl ⟨(), s.settle (f s.game).2, ?_, SameTables.settle _ _⟩
    unfold onGame runMethod
    rw [hf]
    rfl

/-- **A method changes no table**, whether it returns or raises. -/
theorem callMethod_ends (self method : Datum) (who : Option ℕ) (args : List Datum) :
    Run.Ends (callMethod I self method who args) m
      (fun _ m' => SameTables m.world m'.world) (fun _ m' => SameTables m.world m'.world) := by
  have hself := SameTables.refl m.world
  unfold callMethod
  split
  · split
    · exact onServer_ends (runMethod_ends _)
    · exact Run.Ends.throw hself
  · exact Run.Ends.throw hself
  · split
    · next s _ f _ =>
      rcases hf : f s args with e | _
      · exact Run.Ends.throw hself
      · exact Run.Ends.pure hself
    · exact Run.Ends.throw hself
  · exact Run.Ends.throw hself

/-- **A message is served, or it raises before it has changed a table.** -/
theorem dispatch_ends (v : Datum) (hm : Aligned m.world) (hname : NameFree m.world w) :
    Run.Ends (dispatch I v w) m
      (fun _ m' => Served (m.world.workers w).socket m.world m'.world)
      (fun _ m' => SameTables m.world m'.world) := by
  have hself : ∀ m', m' = m → SameTables m.world m'.world := fun m' h => by
    rw [h]
    exact SameTables.refl _
  refine Run.Ends.bind ((index_ends v _ m rfl).weaken (fun _ _ h => h) (fun _ m' h => hself m' h))
    (fun self m₁ h₁ => ?_)
  refine Run.Ends.bind ((index_ends v _ m h₁).weaken (fun _ _ h => h) (fun _ m' h => hself m' h))
    (fun method m₂ h₂ => ?_)
  subst h₂
  split
  · refine Run.Ends.bind ((arguments_ends v).weaken (fun _ _ h => h) (fun _ m' h => hself m' h))
      (fun args m₃ h₃ => ?_)
    subst h₃
    exact (callMethod_ends self method _ args).weaken (fun _ _ h => h.served hm _)
      (fun _ _ h => h)
  · unfold callApi
    split
    · refine Run.Ends.bind ((arguments_ends v).weaken (fun _ _ h => h)
        (fun _ m' h => hself m' h)) (fun args m₃ h₃ => ?_)
      subst h₃
      exact Run.Ends.of_returns (onServer_returns (login_served hm hname))
    · split
      · refine Run.Ends.bind ((arguments_ends v).weaken (fun _ _ h => h)
          (fun _ m' h => hself m' h)) (fun args m₃ h₃ => ?_)
        subst h₃
        exact Run.Ends.of_returns ((onServer_returns chat_returns).weaken
          (fun _ _ h => h.served hm _))
      · exact Run.Ends.throw (hself _ rfl)

/-- **Decoding a message ends, and the modules it loads leave the sessions
alone.** -/
def DecodesSafely (I : Installation) (m : Machine) (buf : Bytes) : Prop :=
  Run.Ends (decode I buf) m (fun _ m' => SameTables m.world m'.world)
    (fun _ m' => SameTables m.world m'.world)

/-- **Modules that leave the sessions alone**, when they are loaded and when
they unpack something. -/
def Installation.Gentle (I : Installation) : Prop := ∀ s₀, I.receiver.Keeps (SameTables s₀)

/-- Whether a computation ends. -/
def ended {β : Type} (x : Step β) (m : Machine) : Bool :=
  match x m with
  | .timeout => false
  | _ => true

theorem ended_decode {buf : Bytes} : ended (decode I buf) m = true
    ↔ Box.unpack I.arith I.receiver I.fuel buf m ≠ .timeout := by
  unfold ended decode
  cases Box.unpack I.arith I.receiver I.fuel buf m <;> simp

/-- **Where modules are gentle, a message that is decoded to the end is decoded
safely.** -/
theorem decodesSafely_of_ended (hI : I.Gentle) {buf : Bytes} (h : ended (decode I buf) m = true) :
    DecodesSafely I m buf := by
  have hkeeps := Box.doUnpack_keeps I.arith (hI m.world) I.fuel buf
  rw [ended_decode] at h
  unfold DecodesSafely Run.Ends decode
  rcases hd : Box.unpack I.arith I.receiver I.fuel buf m with ⟨v, st⟩ | ⟨e, st⟩ | _
  · exact Or.inl ⟨v, st.store, rfl, Run.Triple.ok hkeeps (SameTables.refl m.world) hd⟩
  · exact Or.inr ⟨.box e, st.store, rfl, Run.Triple.error hkeeps (SameTables.refl m.world) hd⟩
  · exact absurd hd h

/-- **A message whose counts can be counted down is decoded safely**, where
modules are gentle and `box.unpack` is given the time. -/
theorem decodesSafely_of_counts {number2integer : Number → ℤ}
    (hA : I.arith = .double number2integer) (hI : I.Gentle) {buf : Bytes}
    (hcounts : ∀ b, Box.ReadsToc (.double number2integer) I.receiver buf ⟨[], m, []⟩ b →
      ∀ size next, Box.tocCount b = some (size, next) → ofDecimal size ≤ 2 ^ 53 + 2) :
    ∃ n, ∀ k, n ≤ k → DecodesSafely { I with fuel := k } m buf := by
  obtain ⟨n, hn⟩ := (Box.unpack_terminates_iff number2integer I.receiver buf m).mpr hcounts
  rw [← hA] at hn
  refine ⟨n, fun k hk => decodesSafely_of_ended (I := { I with fuel := k }) hI
    (ended_decode.mpr ?_)⟩
  show Box.unpack I.arith I.receiver k buf m ≠ .timeout
  rw [show Box.unpack I.arith I.receiver k buf m = Box.unpack I.arith I.receiver n buf m
    from Box.doUnpack_of_le hk hn]
  exact hn

/-- **What is read from the worker of a socket does no harm**: the worker is
not a guest under the name of somebody who is logged in, and the message
decodes safely. -/
def ReadSafe (I : Installation) (r : ℕ × Reception) (m : Machine) : Prop :=
  ∀ w, m.world.clients.get r.1 = some w →
    NameFree m.world w ∧ ∀ buf, r.2.body = some buf → DecodesSafely I m buf

/-- **A message that is read safely is served**, or its sender is
disconnected. -/
theorem receiveOne_returns {rec : Reception} (hm : Aligned m.world)
    (hname : NameFree m.world w) (hbuf : ∀ buf, rec.body = some buf → DecodesSafely I m buf) :
    Run.Returns (receiveOne I w rec) m
      (fun _ m' => Served (m.world.workers w).socket m.world m'.world) := by
  have hreceive : Run.Ends (receive I w rec) m
      (fun _ m' => Served (m.world.workers w).socket m.world m'.world)
      (fun _ m' => SameTables m.world m'.world) := by
    have hself := SameTables.refl m.world
    refine Run.Ends.bind (Run.Ends.assertSome (Q := fun _ m' => m' = m) (fun _ _ => rfl)
      (fun _ => hself)) (fun header m₁ h₁ => ?_)
    subst h₁
    refine Run.Ends.bind (Run.Ends.assertSome (Q := fun _ m' => m' = m₁) (fun _ _ => rfl)
      (fun _ => hself)) (fun len m₁ h₁ => ?_)
    subst h₁
    refine Run.Ends.bind (Run.Ends.assertSome (Q := fun buf m' => m' = m₁ ∧ rec.body = some buf)
      (fun _ h => ⟨rfl, h⟩) (fun _ => hself)) (fun buf m₁ h₁ => ?_)
    obtain ⟨rfl, hbody⟩ := h₁
    refine Run.Ends.bind (hbuf buf hbody) (fun v m₂ h₂ => ?_)
    refine Run.Ends.bind (M := fun _ m' => m' = m₂) ?_ (fun _ m₃ h₃ => ?_)
    · unfold logMessage
      split
      · exact Run.Ends.pure rfl
      · exact Run.Ends.throw h₂
    · subst h₃
      have haligned := (h₂.served hm 0).aligned
      refine (dispatch_ends v haligned (hname.sameTables h₂)).weaken (fun _ m' h => ?_)
        (fun _ m' h => h₂.trans h)
      rw [h₂.socket] at h
      exact ⟨h.aligned, fun k hk => (h.other k hk).trans (by rw [h₂.clients])⟩
  -- the handler runs in whatever state the error has left
  refine hreceive.xpcall (fun _ _ h => h) (fun e m' h => ?_)
  refine Run.Ends.of_returns ((onServer_returns (disconnect_returns (hname.sameTables h))).weaken
    (fun _ m'' hr => ?_))
  have hs := hr.served (h.served hm 0).aligned
  rw [h.socket] at hs
  exact ⟨hs.aligned, fun k hk => (hs.other k hk).trans (by rw [h.clients])⟩

/-- **What is sent does no harm**: the worker of the socket is not a guest
under the name of somebody who is logged in. -/
def WriteSafe (r : ℕ × Bool) (m : Machine) : Prop :=
  ∀ w, m.world.clients.get r.1 = some w → NameFree m.world w

theorem sendOne_returns {s : State (Point Obj)} {accepted : Bool} (hs : Aligned s)
    (hname : NameFree s w) :
    Run.Returns (sendOne w accepted) s (fun _ s' => Served (s.workers w).socket s s') := by
  refine Run.Returns.get_bind ?_
  split
  · exact Run.Returns.pure ((SameTables.refl s).served hs _)
  · have hpop : SameTables s (s.mapWorker w (fun v => { v with sendq := v.sendq.drop 1 })) :=
      SameTables.mapQueue s w _
    have htransmit : Run.Ends (transmit w accepted) s (fun _ s' => SameTables s s')
        (fun _ s' => SameTables s s') := by
      cases accepted with
      | true => exact Or.inl ⟨(), _, rfl, hpop⟩
      | false => exact Or.inr ⟨.socket, _, rfl, hpop⟩
    refine htransmit.xpcall (fun _ _ h => h.served hs _) (fun e s' h => ?_)
    refine Run.Ends.of_returns ((disconnect_returns (hname.sameTables h)).weaken
      (fun _ s'' hr => ?_))
    have hserved := hr.served (h.served hs 0).aligned
    rw [h.socket] at hserved
    exact ⟨hserved.aligned, fun k hk => (hserved.other k hk).trans (by rw [h.clients])⟩

end Message

/-! ## One turn -/

/-- **What the sockets may do**: a socket that is accepted is a new one, and
`select` answers each socket at most once, of those it is given. -/
structure Turn.Legal (turn : Turn) (m : Machine) : Prop where
  /-- A new socket is not one of those there are. -/
  accepted : ∀ a ∈ turn.accepted, a.1 ∉ m.world.sockets
  /-- What is readable is one of them. -/
  readable : ∀ r ∈ turn.readable, r.1 ∈ m.world.sockets ∨ ∃ a ∈ turn.accepted, a.1 = r.1
  /-- Each once. -/
  nodup : (turn.readable.map Prod.fst).Nodup
  /-- What is writable is one of them. -/
  writable : ∀ r ∈ turn.writable, r.1 ∈ m.world.sockets ∨ ∃ a ∈ turn.accepted, a.1 = r.1

/-- `P` holds of each element of a list when the computation of that element
starts. -/
def AllAlong {β : Type} (f : β → Step Unit) (P : β → Machine → Prop) : List β → Machine → Prop
  | [], _ => True
  | b :: l, m => P b m ∧ ∀ m', f b m = .ok () m' → AllAlong f P l m'

/-- **A turn that does no harm**: a socket that is accepted still has its
peer, and what is read and sent is safe when its time comes. -/
structure TurnSafe (I : Installation) (turn : Turn) (m : Machine) : Prop where
  /-- The peer of an accepted socket is there. -/
  accepted : ∀ a ∈ turn.accepted, a.2 ≠ none
  /-- What is read is safe. -/
  readable : ∀ m₁, accept turn.accepted m = .ok () m₁ →
    AllAlong (readOne I) (ReadSafe I) turn.readable m₁
  /-- What is sent is safe. -/
  writable : ∀ m₁ m₂, accept turn.accepted m = .ok () m₁ →
    Run.forList (readOne I) turn.readable m₁ = .ok () m₂ →
    AllAlong writeOne WriteSafe turn.writable m₂

section Turn

variable {m m' : Machine} {turn : Turn}

/-- A socket that is accepted, with its peer, is registered. -/
theorem accept_returns (hm : Aligned m.world) (hlegal : turn.Legal m)
    (hpeer : ∀ a ∈ turn.accepted, a.2 ≠ none) :
    Run.Returns (accept turn.accepted) m (fun _ m' => Aligned m'.world
      ∧ ∀ r ∈ turn.readable, r.1 ∈ m'.world.sockets) := by
  have hread := hlegal.readable
  have hfresh := hlegal.accepted
  revert hread hfresh hpeer
  rcases turn.accepted with _ | ⟨socket, peer⟩
  · intro _ hread _
    exact Run.Returns.pure ⟨hm, fun r hr => (hread r hr).resolve_right
      fun ⟨_, ha, _⟩ => by cases ha⟩
  · intro hpeer hread hfresh
    obtain ⟨peer, rfl⟩ := Option.ne_none_iff_exists'.mp (hpeer _ rfl)
    refine (onServer_returns (register_returns socket peer)).weaken (fun _ m' h => ?_)
    refine ⟨h.aligned hm (hfresh _ rfl), fun r hr => ?_⟩
    rw [h.sockets, List.mem_append, List.mem_singleton]
    refine (hread r hr).imp_right (fun ⟨a, ha, har⟩ => ?_)
    rw [← har, ← Option.some.inj ha]

/-- **Everything that is read is served.** -/
theorem reads_return (l : List (ℕ × Reception)) (hm : Aligned m.world)
    (hl : (l.map Prod.fst).Nodup) (hmem : ∀ r ∈ l, r.1 ∈ m.world.sockets)
    (hsafe : AllAlong (readOne I) (ReadSafe I) l m) :
    Run.Returns (Run.forList (readOne I) l) m (fun _ m' => Aligned m'.world) := by
  induction l generalizing m with
  | nil => exact Run.Returns.pure hm
  | cons r l ih =>
    obtain ⟨hr, hrest⟩ := hsafe
    obtain ⟨hnotin, hl⟩ := List.nodup_cons.mp hl
    obtain ⟨w, hw⟩ := (hm.socket_iff r.1).mp (hmem r List.mem_cons_self)
    obtain ⟨hname, hbuf⟩ := hr w hw
    have hone : Run.Returns (readOne I r) m (fun _ m' => Served r.1 m.world m'.world) := by
      refine Run.Returns.get_bind ?_
      rw [hw]
      have h := receiveOne_returns hm hname hbuf
      rw [(hm.client r.1 w hw).1] at h
      exact h
    obtain ⟨_, m₁, hrun, hserved⟩ := hone
    refine Run.Returns.bind (M := fun _ m' => m' = m₁) ⟨(), m₁, hrun, rfl⟩ ?_
    rintro _ _ rfl
    refine ih hserved.aligned hl (fun r' hr' => ?_) (hrest _ hrun)
    have hne : r'.1 ≠ r.1 := fun h => hnotin (h ▸ List.mem_map_of_mem hr')
    rw [hserved.aligned.socket_iff, hserved.other _ hne, ← hm.socket_iff]
    exact hmem r' (List.mem_cons_of_mem _ hr')

/-- **Everything that is written is served.** -/
theorem writes_return (l : List (ℕ × Bool)) (hm : Aligned m.world)
    (hsafe : AllAlong writeOne WriteSafe l m) :
    Run.Returns (Run.forList writeOne l) m (fun _ m' => Aligned m'.world) := by
  induction l generalizing m with
  | nil => exact Run.Returns.pure hm
  | cons r l ih =>
    obtain ⟨hr, hrest⟩ := hsafe
    have hone : Run.Returns (writeOne r) m (fun _ m' => Aligned m'.world) := by
      refine Run.Returns.get_bind ?_
      rcases hw : m.world.clients.get r.1 with _ | w
      · exact Run.Returns.pure hm
      · exact (onServer_returns (sendOne_returns hm (hr w hw))).weaken (fun _ _ h => h.aligned)
    obtain ⟨_, m₁, hrun, hm₁⟩ := hone
    refine Run.Returns.bind (M := fun _ m' => m' = m₁) ⟨(), m₁, hrun, rfl⟩ ?_
    rintro _ _ rfl
    exact ih hm₁ (hrest _ hrun)

/-- **A step of the loop returns**, in a turn that does no harm. -/
theorem step_returns (hm : Aligned m.world) (hlegal : turn.Legal m) (hsafe : TurnSafe I turn m) :
    Run.Returns (step I turn) m (fun _ m' => Aligned m'.world) := by
  obtain ⟨_, m₁, hacc, hm₁, hmem⟩ := accept_returns hm hlegal hsafe.accepted
  obtain ⟨_, m₂, hread, hm₂⟩ :=
    reads_return turn.readable hm₁ hlegal.nodup hmem (hsafe.readable m₁ hacc)
  have hwrite := writes_return turn.writable hm₂ (hsafe.writable m₁ m₂ hacc hread)
  refine Run.Returns.bind (M := fun _ m' => m' = m₁) ⟨(), m₁, hacc, rfl⟩ ?_
  rintro _ _ rfl
  refine Run.Returns.bind (M := fun _ m' => m' = m₂) ⟨(), m₂, hread, rfl⟩ ?_
  rintro _ _ rfl
  exact hwrite

end Turn

/-! ## Every turn -/

/-- **What the main loop reaches** when every turn meets `ok`. -/
inductive Loops (I : Installation) (ok : Turn → Machine → Prop) (m₀ : Machine) :
    Machine → Prop where
  /-- The state it starts in. -/
  | start : Loops I ok m₀ m₀
  /-- A call of `server.step` returns. -/
  | step {m m' : Machine} (turn : Turn) (hm : Loops I ok m₀ m) (hlegal : turn.Legal m)
      (hok : ok turn m) (hstep : step I turn m = .ok () m') : Loops I ok m₀ m'

/-- **The main loop survives**: the sockets have workers, and the next call of
`server.step` returns. -/
structure Survives (I : Installation) (ok : Turn → Machine → Prop) (m : Machine) : Prop where
  /-- A socket is in `_sockets` exactly when `_clients` has a worker for it. -/
  socket_iff : ∀ k, k ∈ m.world.sockets ↔ ∃ w, m.world.clients.get k = some w
  /-- `server.step` returns. -/
  returns : ∀ turn : Turn, turn.Legal m → ok turn m → ∃ m', step I turn m = .ok () m'

/-- A server that nobody has connected to. -/
def Machine.start (g : Game (Point Obj)) : Machine := ⟨[], State.start g⟩

theorem aligned_start (g : Game α) : Aligned (State.start g) where
  socket_iff _ := iff_of_false List.not_mem_nil nofun
  nodup := List.nodup_nil
  client _ _ h := absurd h nofun

/-- **The main loop survives every client** in a run whose turns do no
harm. -/
theorem survives_of_loops (I : Installation) (g : Game (Point Obj)) (m : Machine)
    (hm : Loops I (TurnSafe I) (Machine.start g) m) : Survives I (TurnSafe I) m := by
  have haligned : Aligned m.world := by
    induction hm with
    | start => exact aligned_start g
    | step turn _ hlegal hok hstep ih =>
      obtain ⟨_, h⟩ := (step_returns ih hlegal hok).of_leaves (Or.inl ⟨_, hstep⟩)
      exact h
  refine ⟨haligned.socket_iff, fun turn hlegal hok => ?_⟩
  obtain ⟨_, m', hstep, -⟩ := step_returns haligned hlegal hok
  exact ⟨m', hstep⟩

/-! ## Runs that are carried out -/

section Carry

/-- The state in which a computation returns. -/
def returned {β : Type} (x : Step β) (m : Machine) : Option Machine :=
  match x m with
  | .ok _ m' => some m'
  | _ => none

theorem returned_eq_some {β : Type} {x : Step β} {m m' : Machine} :
    returned x m = some m' ↔ ∃ b, x m = .ok b m' := by
  unfold returned
  cases x m with
  | ok b s => simp
  | error e s => simp
  | timeout => simp

/-- Whether `p` answers `true` for each element of a list when the computation
of that element starts. -/
def checkAll {β : Type} (f : β → Step Unit) (p : β → Machine → Bool) : List β → Machine → Bool
  | [], _ => true
  | b :: l, m => p b m && (returned (f b) m).all (checkAll f p l)

theorem allAlong_of_checkAll {β : Type} {f : β → Step Unit} {p : β → Machine → Bool}
    {P : β → Machine → Prop} (hp : ∀ b m, p b m = true → P b m) {l : List β} {m : Machine}
    (h : checkAll f p l m = true) : AllAlong f P l m := by
  induction l generalizing m with
  | nil => trivial
  | cons b l ih =>
    obtain ⟨hb, hl⟩ := Bool.and_eq_true_iff.mp h
    exact ⟨hp b m hb, fun m' hm' => ih (Option.all_eq_true _ _ |>.mp hl m'
      (returned_eq_some.mpr ⟨(), hm'⟩))⟩

instance (s : State α) (w : ℕ) : Decidable (NameFree s w) := inferInstanceAs (Decidable (_ → _))

instance (turn : Turn) (m : Machine) : Decidable (turn.Legal m) :=
  decidable_of_iff ((∀ a ∈ turn.accepted, a.1 ∉ m.world.sockets)
    ∧ (∀ r ∈ turn.readable, r.1 ∈ m.world.sockets ∨ ∃ a ∈ turn.accepted, a.1 = r.1)
    ∧ (turn.readable.map Prod.fst).Nodup
    ∧ ∀ r ∈ turn.writable, r.1 ∈ m.world.sockets ∨ ∃ a ∈ turn.accepted, a.1 = r.1)
    ⟨fun ⟨h₁, h₂, h₃, h₄⟩ => ⟨h₁, h₂, h₃, h₄⟩,
      fun h => ⟨h.accepted, h.readable, h.nodup, h.writable⟩⟩

/-- Whether what is read does no harm, and is decoded to the end. -/
def checkRead (I : Installation) (r : ℕ × Reception) (m : Machine) : Bool :=
  (m.world.clients.get r.1).all (fun w => decide (NameFree m.world w))
    && r.2.body.all (fun buf => ended (decode I buf) m)

/-- Whether what is sent does no harm. -/
def checkWrite (r : ℕ × Bool) (m : Machine) : Bool :=
  (m.world.clients.get r.1).all (fun w => decide (NameFree m.world w))

/-- Whether a turn does no harm. -/
def checkTurn (I : Installation) (turn : Turn) (m : Machine) : Bool :=
  turn.accepted.all (fun a => a.2.isSome)
    && (returned (accept turn.accepted) m).all (fun m₁ =>
      checkAll (readOne I) (checkRead I) turn.readable m₁
        && (returned (Run.forList (readOne I) turn.readable) m₁).all
          (checkAll writeOne checkWrite turn.writable))

/-- **A turn that is found to do no harm does none**, where modules are
gentle. -/
theorem turnSafe_of_checkTurn (hI : I.Gentle) {turn : Turn} {m : Machine}
    (h : checkTurn I turn m = true) : TurnSafe I turn m := by
  obtain ⟨hpeer, hrun⟩ := Bool.and_eq_true_iff.mp h
  have hreads : ∀ m₁, accept turn.accepted m = .ok () m₁ →
      checkAll (readOne I) (checkRead I) turn.readable m₁ = true
        ∧ (returned (Run.forList (readOne I) turn.readable) m₁).all
          (checkAll writeOne checkWrite turn.writable) = true := fun m₁ hm₁ =>
    Bool.and_eq_true_iff.mp
      ((Option.all_eq_true _ _).mp hrun m₁ (returned_eq_some.mpr ⟨(), hm₁⟩))
  refine ⟨fun a ha => Option.isSome_iff_ne_none.mp ((Option.all_eq_true _ _).mp hpeer a ha),
    fun m₁ hm₁ => ?_, fun m₁ m₂ hm₁ hm₂ => ?_⟩
  · refine allAlong_of_checkAll (fun r m' hr w hw => ?_) (hreads m₁ hm₁).1
    obtain ⟨hname, hbody⟩ := Bool.and_eq_true_iff.mp hr
    exact ⟨of_decide_eq_true ((Option.all_eq_true _ _).mp hname w hw), fun buf hbuf =>
      decodesSafely_of_ended hI ((Option.all_eq_true _ _).mp hbody buf hbuf)⟩
  · refine allAlong_of_checkAll (fun r m' hr w hw => ?_) ((Option.all_eq_true _ _).mp
      (hreads m₁ hm₁).2 m₂ (returned_eq_some.mpr ⟨(), hm₂⟩))
    exact of_decide_eq_true ((Option.all_eq_true _ _).mp hr w hw)

/-- Let these turns come, one after the other. -/
def loopAll (I : Installation) : List Turn → Machine → Option Machine
  | [], m => some m
  | turn :: turns, m =>
    if turn.Legal m ∧ checkTurn I turn m = true then
      (returned (step I turn) m).bind (loopAll I turns)
    else none

theorem loops_of_loopAll (hI : I.Gentle) {m₀ m m' : Machine} {turns : List Turn}
    (hm : Loops I (TurnSafe I) m₀ m) (h : loopAll I turns m = some m') :
    Loops I (TurnSafe I) m₀ m' := by
  induction turns generalizing m with
  | nil =>
    obtain rfl := Option.some.inj h
    exact hm
  | cons turn turns ih =>
    unfold loopAll at h
    split_ifs at h with hturn
    obtain ⟨m₁, hm₁, hmore⟩ := Option.bind_eq_some_iff.mp h
    obtain ⟨_, hstep⟩ := returned_eq_some.mp hm₁
    exact ih (.step turn hm hturn.1 (turnSafe_of_checkTurn hI hturn.2) hstep) hmore

/-- **A run whose last state is as it is found to be.** -/
theorem exists_loops (hI : I.Gentle) (m₀ : Machine) (turns : List Turn) {Q : Machine → Prop}
    [DecidablePred Q] (h : (loopAll I turns m₀).any (fun m => decide (Q m)) = true) :
    ∃ m, Loops I (TurnSafe I) m₀ m ∧ Q m := by
  obtain ⟨m, hm, hQ⟩ := (Option.any_eq_true _ _).mp h
  exact ⟨m, loops_of_loopAll hI .start hm, of_decide_eq_true hQ⟩

end Carry

/-- A server without a password, without modules to load and without
methods. -/
def Installation.bare : Installation where
  site := Site.plain
  arith := Arith.ideal
  fuel := 0
  require _ := fun store => (.error (.raised (bytes "module not found")), store)
  border := (Box.Receiver.plain Obj Unit).border
  isBorder := (Box.Receiver.plain Obj Unit).isBorder
  interpreter := Net.Interpreter.first (Point Obj)
  method _ _ := none
  stringMethod _ := none

/-- A turn in which a client connects. -/
def Turn.connect (socket : ℕ) (peer : Option Bytes) : Turn := ⟨some (socket, peer), [], []⟩

theorem Turn.connect_legal (socket : ℕ) (peer : Option Bytes) {m : Machine}
    (h : socket ∉ m.world.sockets) : (Turn.connect socket peer).Legal m where
  accepted a ha := by
    obtain rfl := Option.some.inj ha
    exact h
  readable _ hr := absurd hr List.not_mem_nil
  nodup := List.nodup_nil
  writable _ hr := absurd hr List.not_mem_nil

/-- A server that has the time to decode a message. -/
def Installation.ready : Installation := { Installation.bare with fuel := 10 }

theorem gentle_ready : Installation.ready.Gentle := fun _ =>
  ⟨fun _ _ h => h, fun _ _ _ h => by cases h⟩

/-- `{ method = "login"; "a" }`. -/
def loginFrame : Reception := ⟨some (bytes "28"), some (bytes "T4:7:6:2:2:SmethodSloginN1Sa")⟩

/-- Somebody connects, logs in, and is sent the first message of their
queue. -/
theorem survives_of_login : ∃ m : Machine, m.world.players.get (bytes "a") = some 0
    ∧ (m.world.workers 0).sendq.length = 1
    ∧ Survives Installation.ready (TurnSafe Installation.ready) m := by
  obtain ⟨m, hm, hname, hqueue⟩ := exists_loops gentle_ready (Machine.start Game.empty)
    [Turn.connect 7 (some (bytes "10.0.0.1")), ⟨none, [(7, loginFrame)], [(7, true)]⟩]
    (Q := fun m => m.world.players.get (bytes "a") = some 0
      ∧ (m.world.workers 0).sendq.length = 1) (by decide +kernel)
  exact ⟨m, hname, hqueue, survives_of_loops Installation.ready Game.empty m hm⟩

/-- **A client that is gone before it is registered ends the server**:
`getpeername` answers `nil`, which has no place in a name. -/
theorem not_survives :
    ¬ ∀ m : Machine, Loops Installation.bare (fun _ _ => True) (Machine.start Game.empty) m →
      Survives Installation.bare (fun _ _ => True) m := by
  intro h
  obtain ⟨m', hstep⟩ := (h _ .start).returns (Turn.connect 7 none)
    (Turn.connect_legal _ _ List.not_mem_nil) trivial
  have herr : step Installation.bare (Turn.connect 7 none) (Machine.start Game.empty)
      = .error (.refused "concatenate nil")
          ⟨[], { State.start Game.empty with sockets := [7] }⟩ := rfl
  rw [herr] at hstep
  cases hstep

end Server

end Felt
