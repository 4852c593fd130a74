import Felt.Server.Deed
import Felt.Server.Survival

/-!
# Runs of the server

A run is a sequence of deeds: somebody connects, logs in, says something, asks
for something to be done with an entity, or leaves, and queues are sent piece
by piece. An error in a request ends the connection it came on.

What a deed can do to the server is said once (`Done`), with the game changing
by the changes of `Felt.Server.Change`; what holds of whole runs is proved
deed by deed from that.

There is one constructor of `Done` for each way a deed can go. A login is refused
or makes a player; a request is carried out or ends the connection it came on; a
queue is empty, or its first message is sent, or the socket fails. Whoever proves
something of every run goes through these cases, and does not look at the server's
functions again.

Requests are for entities, and for the four methods that the classes list. What a
client may send besides – other methods, objects that are no entities, values that
make the server load a module – is not a deed; `Felt.Server.Loop` has it.
-/

namespace Felt

namespace Server

open Box (Point)

/-! ## What is queued -/

section Queue

variable {α : Type} (s : State α)

/-- A broadcast is queued once for every name a worker is logged in under. -/
theorem workers_deliver (m : Msg α) (w : ℕ) : (s.deliver m).workers w = { s.workers w with
    sendq := (s.workers w).sendq ++ List.replicate (s.players.values.count w) m } := by
  have hfold : ∀ (ws : List ℕ) (t : State α), (ws.foldl (fun t v => t.enqueue m v) t).workers w
      = { t.workers w with sendq := (t.workers w).sendq ++ List.replicate (ws.count w) m } := by
    intro ws
    induction ws with
    | nil =>
      intro t
      rw [List.count_nil, List.replicate_zero, List.append_nil]
      rfl
    | cons v ws ih =>
      intro t
      rw [List.foldl_cons, ih]
      have hv : (t.enqueue m v).workers w
          = if w = v then { t.workers v with sendq := (t.workers v).sendq ++ [m] }
            else t.workers w := Function.update_apply _ _ _ _
      rw [hv]
      split_ifs with h
      · rw [h, List.count_cons_self, List.append_assoc, List.replicate_succ]
        rfl
      · rw [List.count_cons_of_ne (fun h' => h h'.symm)]
  exact hfold _ s

/-- **What is queued when a game is settled**: its broadcasts, once for every
name a worker is logged in under. -/
theorem workers_settle (g : Game α) (w : ℕ) : (s.settle g).workers w = { s.workers w with
    sendq := (s.workers w).sendq
      ++ g.sent.flatMap (fun m => List.replicate (s.players.values.count w) m) } := by
  have hfold : ∀ (ms : List (Msg α)) (t : State α), (ms.foldl State.deliver t).workers w =
      { t.workers w with
        sendq := (t.workers w).sendq
          ++ ms.flatMap (fun m => List.replicate (t.players.values.count w) m) } := by
    intro ms
    induction ms with
    | nil =>
      intro t
      rw [List.flatMap_nil, List.append_nil]
      rfl
    | cons m ms ih =>
      intro t
      rw [List.foldl_cons, ih, workers_deliver, (SameTables.deliver t m).players, List.flatMap_cons,
        List.append_assoc]
  exact hfold g.sent s

end Queue

/-! ## Deeds -/

/-- **What happens on a server.** -/
inductive Deed where
  /-- A connection, a login, a chat message, or the end of a connection. -/
  | session (e : Event (Point Obj))
  /-- A worker receives a request: to call one of the four methods that classes
  list, of an entity. A request for another method, or of a player, is no
  deed. -/
  | act (w e : ℕ) (method : Method) (x y : Option ℚ)
  /-- A worker sends the first message of its queue, and the socket accepts it
  or not. -/
  | transmit (w : ℕ) (accepted : Bool)

/-- What the server does then. -/
def Deed.handler (S : Site) (fuel : ℕ) : Deed → Handler (Point Obj) Unit
  | .session e => perform S e
  | .act w e method x y => do
    let s ← Run.get
    Run.xpcall (onGame (Server.act S.length (fuel + 1) e method (s.workers w).player x y))
      (fun _ => disconnect w)
  | .transmit w accepted => sendOne w accepted

/-- A request is received by the worker of a socket, and names an entity that
has an id. -/
def Deed.Possible (s : State (Point Obj)) : Deed → Prop
  | .session e => e.Possible s
  | .act w e _ _ _ => s.Registered w ∧ s.game.Listed (.entity e)
  | .transmit w _ => s.Registered w

/-- **What a run reaches** when every deed meets `ok`. -/
inductive Played (S : Site) (fuel : ℕ) (ok : Deed → State (Point Obj) → Prop)
    (s₀ : State (Point Obj)) : State (Point Obj) → Prop where
  /-- The state it starts in. -/
  | start : Played S fuel ok s₀ s₀
  /-- A deed. -/
  | deed {s s' : State (Point Obj)} (d : Deed) (hs : Played S fuel ok s₀ s) (hd : d.Possible s)
      (hok : ok d s) (hl : (d.handler S fuel).Leaves s s') : Played S fuel ok s₀ s'

/-! ## Runs that are carried out -/

section Perform

variable {S : Site} {fuel : ℕ} {s : State (Point Obj)}

instance (w : ℕ) : Decidable (s.Registered w) := inferInstanceAs (Decidable (_ = _))

instance (g : Game (Point Obj)) (o : Obj) : Decidable (g.Listed o) :=
  decidable_of_iff (o ∈ g.objects.values) Dict.mem_values

instance : (e : Event (Point Obj)) → Decidable (e.Possible s)
  | .connect _ _ => inferInstanceAs (Decidable (_ ∧ _))
  | .login w _ _ _ _ _ => inferInstanceAs (Decidable (s.Registered w))
  | .chat w _ => inferInstanceAs (Decidable (s.Registered w))
  | .disconnect w => inferInstanceAs (Decidable (s.Registered w))

instance : (d : Deed) → Decidable (d.Possible s)
  | .session e => inferInstanceAs (Decidable (e.Possible s))
  | .act w e _ _ _ => inferInstanceAs (Decidable (s.Registered w ∧ s.game.Listed (.entity e)))
  | .transmit w _ => inferInstanceAs (Decidable (s.Registered w))

variable (ok : Deed → State (Point Obj) → Prop) [DecidableRel ok]

/-- Carry out these deeds, one after the other, as long as each meets `ok`. -/
def performAll (S : Site) (fuel : ℕ) : List Deed → State (Point Obj) → Option (State (Point Obj))
  | [], s => some s
  | d :: ds, s =>
    if d.Possible s ∧ ok d s then
      match d.handler S fuel s with
      | .ok _ s' => performAll S fuel ds s'
      | .error _ s' => performAll S fuel ds s'
      | .timeout => none
    else none

variable {ok} in
/-- What is carried out is a run. -/
theorem played_of_performAll {s₀ : State (Point Obj)} {ds : List Deed} {s s' : State (Point Obj)}
    (hs : Played S fuel ok s₀ s) (h : performAll ok S fuel ds s = some s') :
    Played S fuel ok s₀ s' := by
  induction ds generalizing s with
  | nil =>
    obtain rfl := Option.some.inj h
    exact hs
  | cons d ds ih =>
    unfold performAll at h
    split_ifs at h with hd
    split at h
    · next t hdone => exact ih (.deed d hs hd.1 hd.2 (Or.inl ⟨_, hdone⟩)) h
    · next t herr => exact ih (.deed d hs hd.1 hd.2 (Or.inr ⟨_, herr⟩)) h
    · cases h

/-- **A run whose last state is as it is found to be.** -/
theorem exists_played (S : Site) (fuel : ℕ) (s₀ : State (Point Obj)) (ds : List Deed)
    {Q : State (Point Obj) → Prop} [DecidablePred Q]
    (h : (performAll ok S fuel ds s₀).any (fun s => decide (Q s)) = true) :
    ∃ s, Played S fuel ok s₀ s ∧ Q s := by
  obtain ⟨s, hs, hQ⟩ := (Option.any_eq_true _ _).mp h
  exact ⟨s, played_of_performAll .start hs, of_decide_eq_true hQ⟩

end Perform

/-! ## What a deed does -/

section Done

variable {α : Type}

/-- The server when the socket of `w` has no worker. -/
def State.parted (w : ℕ) (s : State α) : State α :=
  { s with clients := s.clients.erase (s.workers w).socket }

/-- The server when the socket of `w` is not selected on. -/
def State.closed (w : ℕ) (s : State α) : State α :=
  { s with sockets := s.sockets.erase (s.workers w).socket }

/-- The server when nobody is logged in under the name. -/
def State.unnamed (n : Bytes) (s : State α) : State α := { s with players := s.players.erase n }

/-- **The ways a connection ends.** -/
inductive Left (P : Policy) (L : Dict.Length Obj) (w : ℕ) (s : State α) : State α → Prop where
  /-- Nobody is logged in under the name of the worker. -/
  | guest (hname : s.players.get (s.workers w).name = none) :
      Left P L w s ((s.parted w).closed w)
  /-- The worker is that of a player. -/
  | player {p : ℕ} {g : Game α} (hname : s.players.get (s.workers w).name ≠ none)
      (hp : (s.workers w).player = some p) (hc : Chain P L s.game g)
      (hempty : (g.people p).held = none) :
      Left P L w s ((((s.parted w).settle g).unnamed (s.workers w).name).closed w)
  /-- The worker is a guest, and somebody else is logged in under its name. -/
  | impostor (hname : s.players.get (s.workers w).name ≠ none)
      (hp : (s.workers w).player = none) : Left P L w s (s.parted w)

/-- The server when `w` has logged in, and `g` is the game when their player
has been added. -/
def State.welcomed (w p : ℕ) (name : Bytes) (g : Game α) (s : State α) : State α :=
  let s' := State.enter w p name (s.settle g)
  let s'' := s'.enqueue (snapshot s'.game) w
  s''.settle (s''.game.say (fun _ => .message (formatString name ++ bytes " joins the game.")))

section Welcomed

variable (s : State α) (w p : ℕ) (name : Bytes) (g : Game α) (v : ℕ)

/-- Behind `enter` no table changes. -/
theorem sameTables_welcomed :
    SameTables (State.enter w p name (s.settle g)) (s.welcomed w p name g) :=
  (SameTables.enqueue _ _ w).trans (.settle _ _)

theorem enter_workers (t : State α) : (State.enter w p name t).workers v
    = if v = w then { t.workers w with name := name, player := some p } else t.workers v :=
  Function.update_apply _ _ _ _

theorem welcomed_clients : (s.welcomed w p name g).clients = s.clients :=
  (sameTables_welcomed s w p name g).clients.trans (SameTables.settle s g).clients

theorem welcomed_nextWorker : (s.welcomed w p name g).nextWorker = s.nextWorker :=
  (sameTables_welcomed s w p name g).nextWorker.trans (SameTables.settle s g).nextWorker

/-- The worker is logged in under the name. -/
theorem welcomed_players : (s.welcomed w p name g).players = s.players.set name w := by
  rw [(sameTables_welcomed s w p name g).players]
  show (s.settle g).players.set name w = _
  rw [(SameTables.settle s g).players]

theorem welcomed_socket :
    ((s.welcomed w p name g).workers v).socket = (s.workers v).socket := by
  rw [(sameTables_welcomed s w p name g).socket, enter_workers, ← (SameTables.settle s g).socket v]
  split_ifs with hv
  · rw [hv]
  · rfl

/-- It has the name. -/
theorem welcomed_name : ((s.welcomed w p name g).workers v).name
    = if v = w then name else (s.workers v).name := by
  rw [(sameTables_welcomed s w p name g).name, enter_workers, ← (SameTables.settle s g).name v]
  split_ifs <;> rfl

/-- It has the player. -/
theorem welcomed_player : ((s.welcomed w p name g).workers v).player
    = if v = w then some p else (s.workers v).player := by
  rw [(sameTables_welcomed s w p name g).player, enter_workers, ← (SameTables.settle s g).player v]
  split_ifs <;> rfl

/-- The same are registered. -/
theorem welcomed_registered : (s.welcomed w p name g).Registered v ↔ s.Registered v := by
  unfold State.Registered
  rw [welcomed_clients, welcomed_socket]

end Welcomed

/-- **What a worker's player holds has a parent**, so that nothing is lost
when they leave, or it may be lost. -/
def HandSafe (P : Policy) (s : State α) (w : ℕ) : Prop :=
  ∀ p e, (s.workers w).player = some p → (s.game.people p).held = some e →
    (s.game.entities e).parent = none → P.loses

variable {P : Policy} {L : Dict.Length Obj} {s s' : State α} {w : ℕ}

/-- A worker is unregistered whose name nobody is logged in under. -/
theorem unregister_guest (hname : s.players.get (s.workers w).name = none) :
    unregister w s = .ok () ((s.parted w).closed w) := by
  show (leaveGame w >>= fun _ => _) (s.parted w) = _
  have hleave : leaveGame w (s.parted w) = .ok () (s.parted w) := by
    have hnone : (s.parted w).players.get ((s.parted w).workers w).name = none := hname
    rw [leaveGame, Run.get_bind, hnone]
    rfl
  rw [Run.bind_of_ok hleave]
  rfl

/-- The worker of a player is unregistered. -/
theorem unregister_player {p : ℕ} {g : Game α} (hname : s.players.get (s.workers w).name ≠ none)
    (hp : (s.workers w).player = some p) (hg : Player.disconnect p s.game = .ok () g) :
    unregister w s = .ok () ((((s.parted w).settle g).unnamed (s.workers w).name).closed w) := by
  obtain ⟨v, hv⟩ := Option.ne_none_iff_exists'.mp hname
  show (leaveGame w >>= fun _ => _) (s.parted w) = _
  have hgame : onGame (Player.disconnect p) (s.parted w) = .ok () ((s.parted w).settle g) := by
    unfold onGame
    rw [show (s.parted w).game = s.game from rfl, hg]
  have hleave : leaveGame w (s.parted w)
      = .ok () (((s.parted w).settle g).unnamed (s.workers w).name) := by
    have hsome : (s.parted w).players.get ((s.parted w).workers w).name = some v := hv
    rw [leaveGame, Run.get_bind, hsome]
    show (Run.assertSome (s.workers w).player _ >>= _) (s.parted w) = _
    rw [hp, Run.bind_of_ok (Run.assertSome_some _ _ _), Run.bind_of_ok hgame]
    rfl
  rw [Run.bind_of_ok hleave]
  rfl

/-- **Unregistering a worker** is one of the ways a connection ends. -/
theorem left_of_unregister (hsafe : HandSafe P s w) (hl : (unregister w).Leaves s s') :
    Left P L w s s' := by
  rcases hname : s.players.get (s.workers w).name with _ | v
  · rw [hl.of_ok (unregister_guest hname)]
    exact .guest hname
  · have hsome : s.players.get (s.workers w).name ≠ none := by
      rw [hname]
      nofun
    rcases hp : (s.workers w).player with _ | p
    · rw [hl.of_error (unregister_error hname hp)]
      exact .impostor hsome hp
    · obtain ⟨_, g, hg, hc, hempty⟩ :=
        Player.disconnect_changes (P := P) (L := L) p s.game (hsafe p · hp)
      rw [hl.of_ok (unregister_player hsome hp hg)]
      exact .player hsome hp hc hempty

/-- **A login behind its checks.** -/
theorem welcome_apply (S : Site) {name : Bytes} {r g b : Value α} {p : ℕ} {g' : Game α}
    (hg : addPlayer S.length name r g b s.game = .ok p g') (w : ℕ) :
    welcome S w name r g b s = .ok () (s.welcomed w p name g') := by
  have hgame : onGame (addPlayer S.length name r g b) s = .ok p (s.settle g') := by
    unfold onGame
    rw [hg]
  unfold welcome
  rw [Run.bind_of_ok hgame]
  rfl

end Done

variable {P : Policy} {S : Site} {s s' : State (Point Obj)} {fuel : ℕ}

/-- **Whether a deed makes the rarer changes only that may occur.** -/
def Deed.May (P : Policy) (S : Site) (s : State (Point Obj)) : Deed → Prop
  | .session (.connect _ _) => True
  | .session (.login w (.string name) _ r g b) =>
    Comes P S.length s.game name r g b ∧ HandSafe P s w
  | .session (.login w _ _ _ _ _) => HandSafe P s w
  | .session (.chat _ _) => True
  | .session (.disconnect w) => HandSafe P s w
  | .act w e method x y => Allows P S.length s.game e method (s.workers w).player
    ∧ (∀ p, (s.workers w).player = some p → P.hand p)
    ∧ (¬Fit s.game e method (s.workers w).player x y → HandSafe P s w)
  | .transmit w accepted => accepted = false → (s.workers w).sendq ≠ [] → HandSafe P s w

/-- The server when a worker has taken the first message off its queue. -/
def State.popped (w : ℕ) (s : State (Point Obj)) : State (Point Obj) :=
  s.mapWorker w (fun v => { v with sendq := v.sendq.drop 1 })

/-- **What a deed does to the server.** -/
inductive Done (P : Policy) (S : Site) (s : State (Point Obj))  :
    Deed → State (Point Obj) → Prop where
  /-- A socket gets a worker. -/
  | joined {socket : ℕ} {peer : Bytes} {s' : State (Point Obj)} (h : Joined s s' socket peer) :
      Done P S s (.session (.connect socket (some peer))) s'
  /-- A socket whose peer has gone gets none. -/
  | missed {socket : ℕ} :
      Done P S s (.session (.connect socket none)) { s with sockets := s.sockets ++ [socket] }
  /-- A login is refused. -/
  | refused {w : ℕ} {name pass r g b : Value (Point Obj)} {s' : State (Point Obj)}
      (h : Left P S.length w s s') : Done P S s (.session (.login w name pass r g b)) s'
  /-- A login succeeds. -/
  | welcomed {w p : ℕ} {name : Bytes} {pass r g b : Value (Point Obj)} {g' : Game (Point Obj)}
      (hadmits : S.refuses pass = false) (hfree : s.players.get name = none)
      (hc : Chain P S.length s.game g') (hp : g'.players.get name = some p) :
      Done P S s (.session (.login w (.string name) pass r g b)) (s.welcomed w p name g')
  /-- Something is said. -/
  | said {w : ℕ} {text : Value (Point Obj)} : Done P S s (.session (.chat w text))
      (s.settle (s.game.say (fun _ => .chat (s.workers w).name text)))
  /-- A connection ends. -/
  | left {w : ℕ} {s' : State (Point Obj)} (h : Left P S.length w s s') :
      Done P S s (.session (.disconnect w)) s'
  /-- A request is granted. -/
  | acted {w e : ℕ} {method : Method} {x y : Option ℚ} {g : Game (Point Obj)}
      (hc : Chain P S.length s.game g) : Done P S s (.act w e method x y) (s.settle g)
  /-- A request fails, which ends the connection. -/
  | failed {w e : ℕ} {method : Method} {x y : Option ℚ} {g : Game (Point Obj)}
      {s' : State (Point Obj)} (hfit : ¬Fit s.game e method (s.workers w).player x y)
      (hc : Chain P S.length s.game g) (hsame : Untouched s.game g)
      (h : Left P S.length w (s.settle g) s') : Done P S s (.act w e method x y) s'
  /-- There is nothing to send. -/
  | idle {w : ℕ} {accepted : Bool} (hq : (s.workers w).sendq = []) :
      Done P S s (.transmit w accepted) s
  /-- A message is sent. -/
  | sent {w : ℕ} (hq : (s.workers w).sendq ≠ []) : Done P S s (.transmit w true) (s.popped w)
  /-- A message cannot be sent, which ends the connection. -/
  | broken {w : ℕ} {s' : State (Point Obj)} (hq : (s.workers w).sendq ≠ [])
      (h : Left P S.length w (s.popped w) s') : Done P S s (.transmit w false) s'

theorem HandSafe.settle {w : ℕ} {g : Game (Point Obj)} (h : HandSafe P s w)
    (hsound : Sound P.fits s.game) (hsame : Untouched s.game g) : HandSafe P (s.settle g) w := by
  intro p e hp he hparent
  rw [(SameTables.settle s g).player] at hp
  have he' : (s.game.people p).held = some e := (hsame.held p).symm.trans he
  exact h p e hp he' ((hsame.parent e (hsound.hands.made p e he').2).symm.trans hparent)

theorem HandSafe.popped {w : ℕ} (h : HandSafe P s w) : HandSafe P (s.popped w) w := by
  intro p e hp
  have hsame := (SameTables.mapQueue s w (List.drop 1)).player w
  exact h p e (hsame.symm.trans hp)

/-- **A deed does what `Done` says.** -/
theorem done_of_leaves (hP : P.Hosts) (hsound : Sound P.fits s.game)
    (hstaff : ∀ w p, (s.workers w).player = some p → p < s.game.nextPlayer) {d : Deed}
    (hd : d.Possible s) (hmay : d.May P S s) (hl : (d.handler S fuel).Leaves s s') :
    Done P S s d s' := by
  cases d with
  | session e =>
    cases e with
    | connect socket peer =>
      rcases peer with _ | peer
      · rw [hl.of_error (register_error socket)]
        exact .missed
      · obtain ⟨_, h⟩ := (register_returns socket peer).of_leaves hl
        exact .joined h
    | login w name pass r g b =>
      cases name with
      | string name =>
        change Run.Leaves (fun t => (if S.refuses pass then disconnect w
          else if (s.players.get name).isSome then disconnect w
          else welcome S w name r g b : Handler (Point Obj) Unit) t) s s' at hl
        -- the two checks of a login come first, and whoever fails one of them leaves
        by_cases hpass : S.refuses pass = true
        · simp only [if_pos hpass] at hl
          exact .refused (left_of_unregister hmay.2 hl)
        · by_cases hname : (s.players.get name).isSome = true
          · simp only [if_neg hpass, if_pos hname] at hl
            exact .refused (left_of_unregister hmay.2 hl)
          · simp only [if_neg hpass, if_neg hname] at hl
            obtain ⟨p, g', hg, hc, hp⟩ := addPlayer_changes hmay.1
            rw [hl.of_ok (welcome_apply S hg w)]
            exact .welcomed (Bool.not_eq_true _ ▸ hpass)
              (Option.not_isSome_iff_eq_none.mp hname) hc hp
      | _ => exact .refused (left_of_unregister hmay hl)
    | chat w text =>
      rw [hl.of_ok (x := chat w text) (t := s.settle _) rfl]
      exact .said
    | disconnect w => exact .left (left_of_unregister hmay hl)
  | act w e method x y =>
    obtain ⟨hallows, hhand, hsafe⟩ := hmay
    have hends := act_ends (L := S.length) hP hsound hd.2
      (⟨hstaff w, hhand⟩ : Asker P s.game (s.workers w).player) hallows fuel x y
    -- the changes that were made stay, whether the method returns or raises
    rcases hends with ⟨_, g, hg, hc⟩ | ⟨err, g, hg, hc, hsame, hfit⟩
    · have hgame : onGame (Server.act S.length (fuel + 1) e method (s.workers w).player x y) s
          = .ok () (s.settle g) := by
        unfold onGame
        rw [hg]
      have hrun : (Deed.act w e method x y).handler S fuel s = .ok () (s.settle g) := by
        show Run.xpcall _ _ s = _
        unfold Run.xpcall
        rw [hgame]
      rw [hl.of_ok hrun]
      exact .acted hc
    · have hgame : onGame (Server.act S.length (fuel + 1) e method (s.workers w).player x y) s
          = .error (.game err) (s.settle g) := by
        unfold onGame
        rw [hg]
      exact .failed hfit hc hsame
        (left_of_unregister ((hsafe hfit).settle hsound hsame) (hl.of_xpcall hgame))
  | transmit w accepted =>
    change Run.Leaves (fun t => (if (s.workers w).sendq = [] then pure ()
      else Run.xpcall (transmit w accepted) (fun _ => disconnect w) : Handler (Point Obj) Unit) t)
      s s' at hl
    by_cases hq : (s.workers w).sendq = []
    · rw [if_pos hq] at hl
      rw [hl.of_ok (t := s) rfl]
      exact .idle hq
    · rw [if_neg hq] at hl
      cases accepted with
      | true =>
        rw [hl.of_ok (t := s.popped w) rfl]
        exact .sent hq
      | false =>
        exact .broken hq (left_of_unregister (hmay rfl hq).popped
          (Run.Leaves.of_xpcall (x := transmit w false) (e := ServerError.socket)
            (t := s.popped w) rfl hl))

end Server

end Felt
