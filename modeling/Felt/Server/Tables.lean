import Felt.Server.Session

/-!
# The session tables agree

Who is logged in stands in three places: the table of names, the table of
sockets, and two fields of the worker. `TablesAgree` says that they tell the
same story, and that a worker that is unregistered is forgotten.

They agree throughout every run in which nobody logs in twice on one
connection (`tablesAgree_of_reaches`). A second login under another free name
passes all the checks `login` makes, and leaves the worker in the table under
both names (`not_tablesAgree`).

An invariant that is strong enough says more than `TablesAgree`. The numbers of
workers are bounded by the next one, so that a new worker is nobody's; a worker
that is in a table has the socket or the name it is there under; and whoever is
registered and has a player is in `_players`. `Seats` is the part of it that speaks
neither of the list of sockets nor of the game.

Each event has a lemma for what it leaves when it returns, and one for when it
raises. Two of them raise half way: a registration whose peer is gone, and the
end of a connection of a guest whose name is taken.
-/

namespace Felt

namespace Server

variable {α : Type} {S : Site} {s s' : State α}

/-! ## Broadcasts leave the tables alone -/

/-- **The same sessions**: two states that differ in the game and in what is
queued. -/
structure SameTables (s s' : State α) : Prop where
  /-- `_sockets`. -/
  sockets : s'.sockets = s.sockets
  /-- `_clients`. -/
  clients : s'.clients = s.clients
  /-- `_players`. -/
  players : s'.players = s.players
  /-- As many workers. -/
  nextWorker : s'.nextWorker = s.nextWorker
  /-- With the same sockets. -/
  socket : ∀ w, (s'.workers w).socket = (s.workers w).socket
  /-- With the same names. -/
  name : ∀ w, (s'.workers w).name = (s.workers w).name
  /-- With the same players. -/
  player : ∀ w, (s'.workers w).player = (s.workers w).player

namespace SameTables

theorem refl (s : State α) : SameTables s s :=
  ⟨rfl, rfl, rfl, rfl, fun _ => rfl, fun _ => rfl, fun _ => rfl⟩

theorem trans {s₁ s₂ s₃ : State α} (h₁ : SameTables s₁ s₂) (h₂ : SameTables s₂ s₃) :
    SameTables s₁ s₃ where
  sockets := h₂.sockets.trans h₁.sockets
  clients := h₂.clients.trans h₁.clients
  players := h₂.players.trans h₁.players
  nextWorker := h₂.nextWorker.trans h₁.nextWorker
  socket w := (h₂.socket w).trans (h₁.socket w)
  name w := (h₂.name w).trans (h₁.name w)
  player w := (h₂.player w).trans (h₁.player w)

/-- The game itself is not in the tables. -/
theorem setGame (s : State α) (g : Game α) : SameTables s { s with game := g } :=
  ⟨rfl, rfl, rfl, rfl, fun _ => rfl, fun _ => rfl, fun _ => rfl⟩

/-- A queue is not in the tables. -/
theorem mapQueue (s : State α) (w : ℕ) (f : List (Msg α) → List (Msg α)) :
    SameTables s (s.mapWorker w (fun v => { v with sendq := f v.sendq })) := by
  have h : ∀ w', ((s.mapWorker w (fun v => { v with sendq := f v.sendq })).workers w').socket
        = (s.workers w').socket
      ∧ ((s.mapWorker w (fun v => { v with sendq := f v.sendq })).workers w').name
        = (s.workers w').name
      ∧ ((s.mapWorker w (fun v => { v with sendq := f v.sendq })).workers w').player
        = (s.workers w').player := by
    intro w'
    show (Function.update s.workers w _ w').socket = _
      ∧ (Function.update s.workers w _ w').name = _ ∧ (Function.update s.workers w _ w').player = _
    by_cases hw : w' = w
    · subst hw
      rw [Function.update_self]
      exact ⟨rfl, rfl, rfl⟩
    · rw [Function.update_of_ne hw]
      exact ⟨rfl, rfl, rfl⟩
  exact ⟨rfl, rfl, rfl, rfl, fun w' => (h w').1, fun w' => (h w').2.1, fun w' => (h w').2.2⟩

theorem enqueue (s : State α) (m : Msg α) (w : ℕ) : SameTables s (s.enqueue m w) :=
  mapQueue s w (· ++ [m])

theorem deliver (s : State α) (m : Msg α) : SameTables s (s.deliver m) := by
  have h : ∀ (ws : List ℕ) (t : State α),
      SameTables t (ws.foldl (fun t w => t.enqueue m w) t) := by
    intro ws
    induction ws with
    | nil => exact refl
    | cons w ws ih => exact fun t => (enqueue t m w).trans (ih _)
  exact h _ s

/-- **What a method of the game's broadcasts changes no table.** -/
theorem settle (s : State α) (g : Game α) : SameTables s (s.settle g) := by
  have h : ∀ (ms : List (Msg α)) (t : State α), SameTables t (ms.foldl State.deliver t) := by
    intro ms
    induction ms with
    | nil => exact refl
    | cons m ms ih => exact fun t => (deliver t m).trans (ih _)
  exact (h g.sent s).trans (setGame _ _)

end SameTables

/-- What a method of the game's does on the server. -/
theorem onGame_returns {β : Type} {x : Action α β} {Q : β → Game α → Prop}
    (h : Run.Returns x s.game Q) :
    Run.Returns (onGame x) s (fun b s' => SameTables s s' ∧ ∃ g, Q b g
      ∧ s'.game = { g with sent := [] }) := by
  obtain ⟨b, g, hx, hQ⟩ := h
  refine ⟨b, s.settle g, ?_, SameTables.settle s g, g, hQ, rfl⟩
  unfold onGame
  rw [hx]

/-! ## The game's own methods -/

/-- **A player can always be disconnected.** -/
theorem Player.disconnect_returns (p : ℕ) (g : Game α) :
    Run.Returns (Player.disconnect p) g (fun _ g' => g'.players = g.players) := by
  refine Run.Returns.bind (M := fun _ g' => g'.players = g.players) ?_ (fun _ g' h => ?_)
  · refine Run.Returns.get_bind ?_
    cases (g.people p).held with
    | none => exact Run.Returns.pure rfl
    | some item => exact ⟨(), _, rfl, rfl⟩
  · exact ⟨(), _, rfl, h⟩

/-- An object without an id is registered. -/
theorem addObject_returns (L : Dict.Length Obj) {o : Obj} {g : Game α} (h : g.idOf o = none) :
    Run.Returns (addObject L o) g (fun _ g' => g'.players = g.players) := by
  have hfree : assertFree o g = .ok () g := by
    rw [assertFree, Run.get_bind, h]
    rfl
  unfold addObject
  refine ⟨(), _, Run.bind_of_ok hfree, ?_⟩
  cases o <;> rfl

/-- **A player can always be added**, and is then the player of that name. -/
theorem addPlayer_returns (L : Dict.Length Obj) (name : Bytes) (r g b : Value α) (s : Game α) :
    Run.Returns (addPlayer L name r g b) s (fun p s' => s'.players.get name = some p
      ∧ ∀ n ≠ name, s'.players.get n = s.players.get n) := by
  refine Run.Returns.bind (M := fun p s' => s'.players.get name = some p
      ∧ ∀ n ≠ name, s'.players.get n = s.players.get n) ?_ (fun p s' h => ⟨p, _, rfl, h⟩)
  unfold findPlayer
  refine Run.Returns.get_bind ?_
  rcases hp : s.players.get name with _ | p
  · refine Run.Returns.bind (M := fun p s' => s'.players = s.players) ?_ (fun p s' h => ?_)
    · refine Run.Returns.get_bind (Run.Returns.modify_bind ?_)
      refine (addObject_returns L ?_).bind (fun _ s' h => Run.Returns.pure h)
      show (Function.update s.people s.nextPlayer _ s.nextPlayer).id = none
      rw [Function.update_self]
    · refine Run.Returns.modify_bind (Run.Returns.pure ⟨Dict.get_set_self _ _ _, fun n hn => ?_⟩)
      show (s'.players.set name p).get n = _
      rw [Dict.get_set_of_ne _ _ hn, h]
  · exact ⟨p, _, rfl, hp, fun _ _ => rfl⟩

/-! ## Runs -/

/-- **What happens to the session tables**: a connection, a login, a chat
message, or the end of a connection – whether the client closed it, or an
error did. -/
inductive Event (α : Type) where
  /-- A socket is accepted; `peer` is what `getpeername` answers. -/
  | connect (socket : ℕ) (peer : Option Bytes)
  /-- A worker receives a login message. -/
  | login (w : ℕ) (name pass r g b : Value α)
  /-- A worker receives a chat message. -/
  | chat (w : ℕ) (text : Value α)
  /-- A worker is disconnected. -/
  | disconnect (w : ℕ)

/-- What the server does. -/
def perform (S : Site) : Event α → Handler α Unit
  | .connect socket peer => register socket peer
  | .login w name pass r g b => login S w name pass r g b
  | .chat w text => chat w text
  | .disconnect w => disconnect w

/-- `w` is the worker of a socket. -/
def State.Registered (s : State α) (w : ℕ) : Prop :=
  s.clients.get (s.workers w).socket = some w

/-- A new socket is not one of those there are; what is received is received
by the worker of a socket. -/
def Event.Possible (s : State α) : Event α → Prop
  | .connect socket _ => socket ∉ s.sockets ∧ s.clients.get socket = none
  | .login w _ _ _ _ _ => s.Registered w
  | .chat w _ => s.Registered w
  | .disconnect w => s.Registered w

/-- A server that nobody has connected to. -/
def State.start (g : Game α) : State α where
  sockets := []
  clients := .empty
  players := .empty
  workers _ := ⟨0, [], none, []⟩
  nextWorker := 0
  game := g

/-- **What a run of the server reaches** when every event meets `ok`. An event
whose handler raises counts too, with the state it leaves. -/
inductive Reaches (S : Site) (ok : Event α → State α → Prop) (s₀ : State α) :
    State α → Prop where
  /-- The state it starts in. -/
  | start : Reaches S ok s₀ s₀
  /-- An event. -/
  | event {s s' : State α} (e : Event α) (hs : Reaches S ok s₀ s) (he : e.Possible s)
      (hok : ok e s) (hl : (perform S e).Leaves s s') : Reaches S ok s₀ s'

/-- A run that meets a condition meets a weaker one. -/
theorem Reaches.mono {ok ok' : Event α → State α → Prop} (h : ∀ e s, ok e s → ok' e s)
    {s₀ : State α} (hs : Reaches S ok s₀ s) : Reaches S ok' s₀ s := by
  induction hs with
  | start => exact .start
  | event e _ he hok hl ih => exact .event e ih he (h e _ hok) hl

/-! ## Agreement -/

/-- **`w` is logged in under `n`**, as all the tables have it. -/
structure State.Session (s : State α) (n : Bytes) (w : ℕ) : Prop where
  /-- It is the worker of its socket. -/
  registered : s.Registered w
  /-- The socket is one of those that are selected on. -/
  socket : (s.workers w).socket ∈ s.sockets
  /-- It has the name. -/
  name : (s.workers w).name = n
  /-- Its player is the one the game has under that name. -/
  player : ∃ p, (s.workers w).player = some p ∧ s.game.players.get n = some p

/-- **`w` is forgotten** in `s'`: no name stands for it, the names that did in
`s` are free, and no broadcast is queued for it. -/
structure State.Forgotten (s s' : State α) (w : ℕ) : Prop where
  /-- It is logged in under no name. -/
  players : ∀ n, s'.players.get n ≠ some w
  /-- A name it had can be used again. -/
  free : ∀ n, s.players.get n = some w → s'.players.get n = none
  /-- A broadcast is not for it. -/
  sendq : ∀ m, ((s'.deliver m).workers w).sendq = (s'.workers w).sendq

/-- **The session tables agree.** -/
structure TablesAgree (s : State α) : Prop where
  /-- Whoever is in `_players` is logged in. -/
  session : ∀ n w, s.players.get n = some w → s.Session n w
  /-- Nobody is under two names. -/
  unique : ∀ n n' w, s.players.get n = some w → s.players.get n' = some w → n = n'
  /-- Whoever is unregistered is forgotten. -/
  forgotten : ∀ w s', s.Registered w → (unregister w).Leaves s s' → s.Forgotten s' w

/-- The login goes past the checks of `login`. -/
def Event.Admits (S : Site) (s : State α) : Event α → Prop
  | .login _ (.string name) pass _ _ _ => S.refuses pass = false ∧ s.players.get name = none
  | _ => False

/-- **Nobody logs in who is logged in already**: a login with the right
password, under a free name, is by a guest. -/
def LogsInOnce (S : Site) (e : Event α) (s : State α) : Prop :=
  e.Admits S s → ∀ w name pass r g b, e = .login w name pass r g b →
    (s.workers w).player = none

/-! ## The invariant -/

/-- **Who is logged in has a seat**: the tables of workers and names agree,
whatever the game knows. -/
structure Seats (s : State α) : Prop where
  /-- Whoever is in `_players` is registered, has the name, and a player. -/
  session : ∀ n w, s.players.get n = some w →
    s.Registered w ∧ (s.workers w).name = n ∧ (s.workers w).player ≠ none
  /-- The worker of a socket has that socket. -/
  client : ∀ k w, s.clients.get k = some w → (s.workers w).socket = k ∧ w < s.nextWorker
  /-- A worker with a player is logged in under its name. -/
  player : ∀ w p, s.Registered w → (s.workers w).player = some p →
    s.players.get (s.workers w).name = some w

/-- What every event keeps. -/
structure Inv (s : State α) : Prop where
  /-- Whoever is in `_players` is logged in. -/
  session : ∀ n w, s.players.get n = some w → s.Session n w
  /-- The worker of a socket has that socket, which is selected on. -/
  client : ∀ k w, s.clients.get k = some w →
    (s.workers w).socket = k ∧ k ∈ s.sockets ∧ w < s.nextWorker
  /-- A worker with a player is logged in under its name. -/
  player : ∀ w p, s.Registered w → (s.workers w).player = some p →
    s.players.get (s.workers w).name = some w

theorem Inv.seats (hi : Inv s) : Seats s where
  session n w hw := by
    have hs := hi.session n w hw
    obtain ⟨p, hp, -⟩ := hs.player
    exact ⟨hs.registered, hs.name, fun hnone => absurd (hnone.symm.trans hp) nofun⟩
  client k w hw := ⟨(hi.client k w hw).1, (hi.client k w hw).2.2⟩
  player := hi.player

theorem SameTables.registered (h : SameTables s s') {w : ℕ} :
    s'.Registered w ↔ s.Registered w := by
  unfold State.Registered
  rw [h.clients, h.socket]

/-- Two states with the same sessions. -/
theorem Seats.sameTables (hi : Seats s) (h : SameTables s s') : Seats s' where
  session n w hw := by
    rw [h.players] at hw
    rw [h.registered, h.name, h.player]
    exact hi.session n w hw
  client k w hw := by
    rw [h.clients] at hw
    rw [h.socket, h.nextWorker]
    exact hi.client k w hw
  player w p hw hp := by
    rw [h.player] at hp
    rw [h.name, h.players]
    exact hi.player w p (h.registered.mp hw) hp

/-- Two states with the same sessions, and the same players in the game. -/
theorem Inv.sameTables (hi : Inv s) (h : SameTables s s')
    (hg : s'.game.players = s.game.players) : Inv s' where
  session n w hw := by
    rw [h.players] at hw
    have hs := hi.session n w hw
    refine ⟨h.registered.mpr hs.registered, ?_, ?_, ?_⟩
    · rw [h.socket, h.sockets]
      exact hs.socket
    · rw [h.name]
      exact hs.name
    · rw [h.player, hg]
      exact hs.player
  client k w hw := by
    rw [h.clients] at hw
    rw [h.socket, h.sockets, h.nextWorker]
    exact hi.client k w hw
  player w p hw hp := by
    rw [h.player] at hp
    rw [h.name, h.players]
    exact hi.player w p (h.registered.mp hw) hp

/-! ## Leaving -/

/-- **What is left when `w` was unregistered**: its socket and its name are in
no table. -/
structure Removed (s s' : State α) (w : ℕ) : Prop where
  /-- Its socket has no worker. -/
  clients : s'.clients = s.clients.erase (s.workers w).socket
  /-- Its socket is not selected on. -/
  sockets : s'.sockets = s.sockets.erase (s.workers w).socket
  /-- Its name is free. -/
  players : ∀ n, s'.players.get n = if n = (s.workers w).name then none else s.players.get n
  /-- As many workers. -/
  nextWorker : s'.nextWorker = s.nextWorker
  /-- With the same sockets. -/
  socket : ∀ v, (s'.workers v).socket = (s.workers v).socket
  /-- With the same names. -/
  name : ∀ v, (s'.workers v).name = (s.workers v).name
  /-- With the same players. -/
  player : ∀ v, (s'.workers v).player = (s.workers v).player
  /-- The game has the same players. -/
  game : s'.game.players = s.game.players

/-- **A worker is unregistered**, unless it is a guest and somebody is logged
in under its name. -/
theorem unregister_returns {w : ℕ}
    (h : s.players.get (s.workers w).name = none ∨ ∃ p, (s.workers w).player = some p) :
    Run.Returns (unregister w) s (fun _ s' => Removed s s' w) := by
  refine Run.Returns.modify_bind ?_
  rcases hn : s.players.get (s.workers w).name with _ | v
  · refine Run.Returns.bind (M := fun _ t => t =
      { s with clients := s.clients.erase (s.workers w).socket }) ?_ ?_
    · refine Run.Returns.get_bind ?_
      rw [hn]
      exact Run.Returns.pure rfl
    · rintro _ _ rfl
      refine Run.Returns.modify ⟨rfl, rfl, fun n => ?_, rfl, fun _ => rfl, fun _ => rfl,
        fun _ => rfl, rfl⟩
      split
      · next hname => rw [hname, ← hn]
      · rfl
  -- somebody is logged in under the name, so the player is told to let go first
  · obtain ⟨p, hp⟩ := h.resolve_left (by simp [hn])
    refine Run.Returns.bind (M := fun _ t =>
      SameTables { s with
        clients := s.clients.erase (s.workers w).socket
        players := s.players.erase (s.workers w).name } t
      ∧ t.game.players = s.game.players) ?_ ?_
    · refine Run.Returns.get_bind ?_
      rw [hn, hp]
      refine (onGame_returns (Player.disconnect_returns p _)).bind ?_
      rintro _ t ⟨ht, g, hg, htg⟩
      refine Run.Returns.modify ⟨⟨ht.sockets, ht.clients, ?_, ht.nextWorker, ht.socket, ht.name,
        ht.player⟩, ?_⟩
      · show t.players.erase _ = _
        rw [ht.players]
      · show t.game.players = _
        rw [htg]
        exact hg
    · rintro _ t ⟨ht, hg⟩
      refine Run.Returns.modify ⟨ht.clients, ?_, fun n => ?_, ht.nextWorker, ht.socket, ht.name,
        ht.player, hg⟩
      · show t.sockets.erase _ = _
        rw [ht.sockets, ht.socket]
      · show t.players.get n = _
        rw [ht.players]
        exact Dict.get_erase _ _ _

/-- **A guest whose name somebody is logged in under** is unregistered half
way: its socket has no worker, but is still selected on. -/
theorem unregister_error {w v : ℕ} (hn : s.players.get (s.workers w).name = some v)
    (hp : (s.workers w).player = none) :
    unregister w s = .error (.refused "index nil")
      { s with clients := s.clients.erase (s.workers w).socket } := by
  show ((leaveGame w >>= fun _ => _) : Handler α Unit)
    { s with clients := s.clients.erase (s.workers w).socket } = _
  refine Run.bind_of_error ?_
  unfold leaveGame
  rw [Run.get_bind, hn, hp]
  rfl

/-- What both ways of unregistering `w` leave. -/
structure Gone (s s' : State α) (w : ℕ) : Prop where
  /-- Its socket has no worker. -/
  clients : s'.clients = s.clients.erase (s.workers w).socket
  /-- The other sockets are still selected on. -/
  sockets : ∀ k ∈ s.sockets, k ≠ (s.workers w).socket → k ∈ s'.sockets
  /-- It is in `_players` no more, and all others are. -/
  players : ∀ n v, s'.players.get n = some v ↔ s.players.get n = some v ∧ v ≠ w
  /-- As many workers. -/
  nextWorker : s'.nextWorker = s.nextWorker
  /-- With the same sockets. -/
  socket : ∀ v, (s'.workers v).socket = (s.workers v).socket
  /-- With the same names. -/
  name : ∀ v, (s'.workers v).name = (s.workers v).name
  /-- With the same players. -/
  player : ∀ v, (s'.workers v).player = (s.workers v).player
  /-- The game has the same players. -/
  game : s'.game.players = s.game.players

/-- A guest is in `_players` under no name. -/
theorem Seats.ne_of_guest (hi : Seats s) {w : ℕ} (hp : (s.workers w).player = none) {n : Bytes}
    {v : ℕ} (hv : s.players.get n = some v) : v ≠ w := by
  rintro rfl
  exact (hi.session n v hv).2.2 hp

theorem gone_of_removed (hi : Seats s) {w : ℕ} (hw : s.Registered w)
    (hcase : s.players.get (s.workers w).name = none ∨ ∃ p, (s.workers w).player = some p)
    (h : Removed s s' w) : Gone s s' w := by
  refine ⟨h.clients, fun k hk hne => ?_, fun n v => ?_, h.nextWorker, h.socket, h.name,
    h.player, h.game⟩
  · rw [h.sockets]
    exact (List.mem_erase_of_ne hne).mpr hk
  · rw [h.players]
    by_cases hn : n = (s.workers w).name
    · rw [if_pos hn, hn]
      refine iff_of_false (by simp) (fun hv => hv.2 ?_)
      rcases hcase with hnone | ⟨p, hp⟩
      · rw [hnone] at hv
        exact absurd hv.1 nofun
      · rw [hi.player w p hw hp] at hv
        exact (Option.some.inj hv.1).symm
    · rw [if_neg hn]
      refine (and_iff_left_of_imp ?_).symm
      rintro hv rfl
      exact hn ((hi.session n v hv).2.1).symm

/-- **Unregistering a worker.** -/
theorem gone_of_unregister (hi : Seats s) {w : ℕ} (hw : s.Registered w)
    (hl : (unregister w).Leaves s s') : Gone s s' w := by
  by_cases hcase : s.players.get (s.workers w).name = none ∨ ∃ p, (s.workers w).player = some p
  · obtain ⟨_, h⟩ := (unregister_returns hcase).of_leaves hl
    exact gone_of_removed hi hw hcase h
  · obtain ⟨hn, hp⟩ := not_or.mp hcase
    obtain ⟨v, hv⟩ := Option.ne_none_iff_exists'.mp hn
    have hguest : (s.workers w).player = none :=
      Option.eq_none_iff_forall_ne_some.mpr (fun p h => hp ⟨p, h⟩)
    obtain rfl := Run.Leaves.of_error hl (unregister_error hv hguest)
    exact ⟨rfl, fun k hk _ => hk,
      fun n v => (and_iff_left_of_imp (fun h => hi.ne_of_guest hguest h)).symm, rfl,
      fun _ => rfl, fun _ => rfl, fun _ => rfl, rfl⟩

/-- Who is registered when `w` is not any more. -/
theorem Gone.registered {w : ℕ} (h : Gone s s' w) (hw : s.Registered w) (v : ℕ) :
    s'.Registered v ↔ s.Registered v ∧ v ≠ w := by
  unfold State.Registered
  rw [h.clients, h.socket, Dict.get_erase]
  split
  · next hk =>
    refine iff_of_false (by simp) (fun hv => hv.2 ?_)
    rw [hk] at hv
    exact Option.some.inj (hv.1.symm.trans hw)
  · next hk => exact (and_iff_left_of_imp (fun _ hvw => hk (by rw [hvw]))).symm

theorem Seats.gone (hi : Seats s) {w : ℕ} (hw : s.Registered w) (h : Gone s s' w) : Seats s' where
  session n v hv := by
    obtain ⟨hv, hne⟩ := (h.players n v).mp hv
    obtain ⟨hreg, hname, hplayer⟩ := hi.session n v hv
    rw [h.registered hw, h.name, h.player]
    exact ⟨⟨hreg, hne⟩, hname, hplayer⟩
  client k v hv := by
    rw [h.clients, Dict.get_erase] at hv
    split at hv
    · cases hv
    · rw [h.socket, h.nextWorker]
      exact hi.client k v hv
  player v p hv hp := by
    obtain ⟨hv, hne⟩ := (h.registered hw v).mp hv
    rw [h.player] at hp
    rw [h.name]
    exact (h.players _ v).mpr ⟨hi.player v p hv hp, hne⟩

theorem Inv.gone (hi : Inv s) {w : ℕ} (hw : s.Registered w) (h : Gone s s' w) : Inv s' := by
  have hseats := hi.seats.gone hw h
  -- the sockets of the others are still selected on
  have hsocket : ∀ k v, s'.clients.get k = some v → k ∈ s'.sockets := fun k v hv => by
    rw [h.clients, Dict.get_erase] at hv
    split at hv
    · cases hv
    · next hk => exact h.sockets k (hi.client k v hv).2.1 hk
  refine ⟨fun n v hv => ?_, fun k v hv => ?_, hseats.player⟩
  · obtain ⟨hreg, hname, -⟩ := hseats.session n v hv
    refine ⟨hreg, hsocket _ v hreg, hname, ?_⟩
    rw [h.player, h.game]
    exact (hi.session n v ((h.players n v).mp hv).1).player
  · exact ⟨(hseats.client k v hv).1, hsocket k v hv, (hseats.client k v hv).2⟩

/-- A broadcast is queued only for those in `_players`. -/
theorem sendq_deliver_of_not_mem {w : ℕ} (h : ∀ n, s.players.get n ≠ some w) (m : Msg α) :
    ((s.deliver m).workers w).sendq = (s.workers w).sendq := by
  have hfold : ∀ (ws : List ℕ) (t : State α), w ∉ ws →
      ((ws.foldl (fun t v => t.enqueue m v) t).workers w).sendq = (t.workers w).sendq := by
    intro ws
    induction ws with
    | nil => exact fun _ _ => rfl
    | cons v ws ih =>
      intro t hw
      rw [List.foldl_cons, ih _ (fun hm => hw (List.mem_cons_of_mem _ hm))]
      show (Function.update t.workers v _ w).sendq = _
      rw [Function.update_of_ne (fun hv : w = v => hw (by rw [hv]; exact List.mem_cons_self))]
  refine hfold _ s (fun hw => ?_)
  obtain ⟨n, hn⟩ := Dict.mem_values.mp hw
  exact h n hn

/-- **The invariant says that the tables agree.** -/
theorem Inv.tablesAgree (hi : Inv s) : TablesAgree s where
  session := hi.session
  unique n n' w hn hn' := by
    rw [← (hi.session n w hn).name, (hi.session n' w hn').name]
  forgotten w s' hw hl := by
    have h := gone_of_unregister hi.seats hw hl
    have hnot : ∀ n, s'.players.get n ≠ some w := fun n hn => ((h.players n w).mp hn).2 rfl
    refine ⟨hnot, fun n hn => ?_, sendq_deliver_of_not_mem hnot⟩
    refine Option.eq_none_iff_forall_ne_some.mpr (fun v hv => ?_)
    obtain ⟨hv, hne⟩ := (h.players n v).mp hv
    exact hne (Option.some.inj (hv.symm.trans hn))

/-! ## Entering -/

/-- **What a new connection leaves.** -/
structure Joined (s s' : State α) (socket : ℕ) (peer : Bytes) : Prop where
  /-- The socket is selected on. -/
  sockets : s'.sockets = s.sockets ++ [socket]
  /-- It has a worker. -/
  clients : s'.clients = s.clients.set socket s.nextWorker
  /-- The same are logged in. -/
  players : s'.players = s.players
  /-- The worker is a guest. -/
  guest : s'.workers s.nextWorker = Worker.guest socket peer
  /-- The others are as they were. -/
  worker : ∀ w, w ≠ s.nextWorker → s'.workers w = s.workers w
  /-- One more was made. -/
  nextWorker : s'.nextWorker = s.nextWorker + 1
  /-- The game is the same. -/
  game : s'.game = s.game

/-- **A socket whose peer is there gets a worker.** -/
theorem register_returns (socket : ℕ) (peer : Bytes) :
    Run.Returns (register socket (some peer)) s (fun _ s' => Joined s s' socket peer) :=
  ⟨(), _, rfl, rfl, rfl, rfl, Function.update_self _ _ _,
    fun _ hw => Function.update_of_ne hw _ _, rfl, rfl⟩

/-- **A socket whose peer has gone gets none**, but is in the list already. -/
theorem register_error (socket : ℕ) :
    register socket none s
      = .error (.refused "concatenate nil") { s with sockets := s.sockets ++ [socket] } := rfl

/-- Who is registered when somebody has connected. -/
theorem Joined.registered {socket : ℕ} {peer : Bytes} (h : Joined s s' socket peer)
    (hi : Seats s) (hfresh : s.clients.get socket = none) {v : ℕ} (hv : s.Registered v) :
    s'.Registered v ∧ v ≠ s.nextWorker := by
  have hne : v ≠ s.nextWorker := (hi.client _ v hv).2.ne
  refine ⟨?_, hne⟩
  unfold State.Registered
  rw [h.worker v hne, h.clients, Dict.get_set_of_ne _ _ (fun hk => ?_)]
  · exact hv
  · have hv' : s.clients.get (s.workers v).socket = some v := hv
    rw [hk, hfresh] at hv'
    cases hv'

theorem Seats.joined (hi : Seats s) {socket : ℕ} {peer : Bytes}
    (hfresh : s.clients.get socket = none) (h : Joined s s' socket peer) : Seats s' where
  session n w hw := by
    rw [h.players] at hw
    obtain ⟨hreg, hname, hplayer⟩ := hi.session n w hw
    obtain ⟨hreg', hne⟩ := h.registered hi hfresh hreg
    rw [h.worker w hne]
    exact ⟨hreg', hname, hplayer⟩
  client k w hw := by
    rw [h.clients, Dict.get_set] at hw
    rw [h.nextWorker]
    split at hw
    · next hk =>
      obtain rfl := Option.some.inj hw
      rw [h.guest, hk]
      exact ⟨rfl, Nat.lt_succ_self _⟩
    · obtain ⟨hsock, hlt⟩ := hi.client k w hw
      rw [h.worker w hlt.ne]
      exact ⟨hsock, hlt.trans (Nat.lt_succ_self _)⟩
  player w p hw hp := by
    by_cases hne : w = s.nextWorker
    · rw [hne, h.guest] at hp
      cases hp
    · unfold State.Registered at hw
      rw [h.worker w hne] at hw hp ⊢
      rw [h.clients, Dict.get_set] at hw
      rw [h.players]
      split at hw
      · exact absurd (Option.some.inj hw).symm hne
      · exact hi.player w p hw hp

theorem Inv.joined (hi : Inv s) {socket : ℕ} {peer : Bytes} (hfresh : s.clients.get socket = none)
    (h : Joined s s' socket peer) : Inv s' := by
  have hseats := hi.seats.joined hfresh h
  have hsocket : ∀ k w, s'.clients.get k = some w → k ∈ s'.sockets := fun k w hw => by
    rw [h.clients, Dict.get_set] at hw
    rw [h.sockets, List.mem_append, List.mem_singleton]
    split at hw
    · next hk => exact Or.inr hk
    · exact Or.inl (hi.client k w hw).2.1
  refine ⟨fun n w hw => ?_, fun k w hw => ?_, hseats.player⟩
  · obtain ⟨hreg, hname, -⟩ := hseats.session n w hw
    refine ⟨hreg, hsocket _ w hreg, hname, ?_⟩
    rw [h.players] at hw
    have hs := hi.session n w hw
    rw [h.worker w (h.registered hi.seats hfresh hs.registered).2, h.game]
    exact hs.player
  · exact ⟨(hseats.client k w hw).1, hsocket k w hw, (hseats.client k w hw).2⟩

/-- A new connection. -/
theorem Inv.register (hi : Inv s) {socket : ℕ} {peer : Option Bytes}
    (hfresh : s.clients.get socket = none) (hl : (register socket peer).Leaves s s') :
    Inv s' := by
  rcases peer with _ | peer
  · obtain rfl := hl.of_error (register_error socket)
    exact ⟨fun n w hw => { hi.session n w hw with
        socket := List.mem_append_left _ (hi.session n w hw).socket },
      fun k w hw => ⟨(hi.client k w hw).1, List.mem_append_left _ (hi.client k w hw).2.1,
        (hi.client k w hw).2.2⟩, hi.player⟩
  · obtain ⟨_, h⟩ := (register_returns socket peer).of_leaves hl
    exact hi.joined hfresh h

/-- **What `w` logging in under the name `n` leaves.** -/
structure Entered (s s' : State α) (w : ℕ) (n : Bytes) : Prop where
  /-- The sockets are the same. -/
  sockets : s'.sockets = s.sockets
  /-- The workers of the sockets are the same. -/
  clients : s'.clients = s.clients
  /-- It is logged in under the name. -/
  players : s'.players = s.players.set n w
  /-- As many workers. -/
  nextWorker : s'.nextWorker = s.nextWorker
  /-- With the same sockets. -/
  socket : ∀ v, (s'.workers v).socket = (s.workers v).socket
  /-- It has the name, and the others have theirs. -/
  name : ∀ v, (s'.workers v).name = if v = w then n else (s.workers v).name
  /-- It has a player, which is that of the name. -/
  player_self : ∃ p, (s'.workers w).player = some p ∧ s'.game.players.get n = some p
  /-- The others have the players they had. -/
  player : ∀ v, v ≠ w → (s'.workers v).player = (s.workers v).player
  /-- The players of the other names are the same. -/
  game : ∀ n', n' ≠ n → s'.game.players.get n' = s.game.players.get n'

/-- What is queued and broadcast behind that does not matter. -/
theorem Entered.sameTables {t : State α} {w : ℕ} {n : Bytes} (h : Entered s s' w n)
    (ht : SameTables s' t) (hg : t.game.players = s'.game.players) : Entered s t w n where
  sockets := ht.sockets.trans h.sockets
  clients := ht.clients.trans h.clients
  players := ht.players.trans h.players
  nextWorker := ht.nextWorker.trans h.nextWorker
  socket v := (ht.socket v).trans (h.socket v)
  name v := (ht.name v).trans (h.name v)
  player_self := by
    rw [ht.player, hg]
    exact h.player_self
  player v hv := (ht.player v).trans (h.player v hv)
  game n' hn := by
    rw [hg]
    exact h.game n' hn

/-- **A login that passes the checks succeeds.** -/
theorem welcome_returns (w : ℕ) (n : Bytes) (r g b : Value α) :
    Run.Returns (welcome S w n r g b) s (fun _ s' => Entered s s' w n) := by
  refine (onGame_returns (addPlayer_returns S.length n r g b s.game)).bind ?_
  rintro p s₁ ⟨h₁, g₁, ⟨hp, hothers⟩, hg₁⟩
  -- the worker gets its name and its player
  have hent : Entered s (State.enter w p n s₁) w n := by
    refine ⟨h₁.sockets, h₁.clients, ?_, h₁.nextWorker, fun v => ?_, fun v => ?_, ?_,
      fun v hv => ?_, fun n' hn => ?_⟩
    · show s₁.players.set n w = _
      rw [h₁.players]
    · rw [← h₁.socket v]
      show (Function.update s₁.workers w _ v).socket = _
      by_cases hv : v = w
      · rw [hv, Function.update_self]
      · rw [Function.update_of_ne hv]
    · rw [← h₁.name v]
      show (Function.update s₁.workers w _ v).name = _
      by_cases hv : v = w
      · rw [hv, Function.update_self, if_pos rfl]
      · rw [Function.update_of_ne hv, if_neg hv]
    · refine ⟨p, ?_, ?_⟩
      · show (Function.update s₁.workers w _ w).player = _
        rw [Function.update_self]
      · show s₁.game.players.get n = some p
        rw [hg₁]
        exact hp
    · rw [← h₁.player v]
      show (Function.update s₁.workers w _ v).player = _
      rw [Function.update_of_ne hv]
    · show s₁.game.players.get n' = _
      rw [hg₁]
      exact hothers n' hn
  refine Run.Returns.modify_bind (Run.Returns.modify_bind ?_)
  have hmsg : Run.Returns (message (formatString n ++ bytes " joins the game."))
      (State.enter w p n s₁).game
      (fun _ g' => g'.players = (State.enter w p n s₁).game.players) := ⟨(), _, rfl, rfl⟩
  refine (onGame_returns (s := (State.enter w p n s₁).enqueue _ w) hmsg).weaken ?_
  rintro _ s' ⟨h', g', hg', hs'⟩
  refine hent.sameTables ((SameTables.enqueue _ _ w).trans h') ?_
  rw [hs']
  exact hg'

/-- **A login under a free name, with the right password, succeeds** –
whoever makes it. -/
theorem login_returns {w : ℕ} {n : Bytes} {pass r g b : Value α} (hpass : S.refuses pass = false)
    (hfree : s.players.get n = none) :
    Run.Returns (login S w (.string n) pass r g b) s (fun _ s' => Entered s s' w n) := by
  refine Run.Returns.get_bind ?_
  show Run.Returns (if S.refuses pass then _ else if (s.players.get n).isSome then _ else _) s _
  rw [hpass, hfree]
  exact welcome_returns w n r g b

theorem Seats.entered (hi : Seats s) {w : ℕ} {n : Bytes} (hw : s.Registered w)
    (hguest : (s.workers w).player = none) (hfree : s.players.get n = none)
    (hclients : s'.clients = s.clients) (hplayers : s'.players = s.players.set n w)
    (hnext : s'.nextWorker = s.nextWorker)
    (hsocket : ∀ v, (s'.workers v).socket = (s.workers v).socket)
    (hname : ∀ v, (s'.workers v).name = if v = w then n else (s.workers v).name)
    (hself : (s'.workers w).player ≠ none)
    (hother : ∀ v, v ≠ w → (s'.workers v).player = (s.workers v).player) : Seats s' := by
  have hreg : ∀ v, s'.Registered v ↔ s.Registered v := by
    intro v
    unfold State.Registered
    rw [hclients, hsocket]
  refine ⟨fun n' v hv => ?_, fun k v hv => ?_, fun v p hv hp => ?_⟩
  · rw [hplayers, Dict.get_set] at hv
    split at hv
    · next hn =>
      obtain rfl := Option.some.inj hv
      refine ⟨(hreg w).mpr hw, ?_, hself⟩
      rw [hname, if_pos rfl, hn]
    · have hne : v ≠ w := hi.ne_of_guest hguest hv
      rw [hreg, hname, if_neg hne, hother v hne]
      exact hi.session n' v hv
  · rw [hclients] at hv
    rw [hsocket, hnext]
    exact hi.client k v hv
  · rw [hname, hplayers]
    by_cases hne : v = w
    · rw [if_pos hne, hne, Dict.get_set_self]
    · rw [if_neg hne]
      rw [hother v hne] at hp
      have hv' := hi.player v p ((hreg v).mp hv) hp
      rw [Dict.get_set_of_ne _ _ (fun hn => ?_), hv']
      rw [hn, hfree] at hv'
      cases hv'

/-- **A guest that logs in.** -/
theorem Inv.entered (hi : Inv s) {w : ℕ} {n : Bytes} (hw : s.Registered w)
    (hguest : (s.workers w).player = none) (hfree : s.players.get n = none)
    (h : Entered s s' w n) : Inv s' := by
  obtain ⟨p, hp, hgame⟩ := h.player_self
  have hseats := hi.seats.entered hw hguest hfree h.clients h.players h.nextWorker h.socket h.name
    (fun hnone => absurd (hnone.symm.trans hp) nofun) h.player
  have hsocket : ∀ k v, s'.clients.get k = some v → k ∈ s'.sockets := fun k v hv => by
    rw [h.clients] at hv
    rw [h.sockets]
    exact (hi.client k v hv).2.1
  refine ⟨fun n' v hv => ?_, fun k v hv => ?_, hseats.player⟩
  · obtain ⟨hreg, hname, -⟩ := hseats.session n' v hv
    refine ⟨hreg, hsocket _ v hreg, hname, ?_⟩
    rw [h.players, Dict.get_set] at hv
    split at hv
    · next hn =>
      rw [hn, ← Option.some.inj hv]
      exact ⟨p, hp, hgame⟩
    · next hn =>
      rw [h.player v (hi.seats.ne_of_guest hguest hv), h.game n' hn]
      exact (hi.session n' v hv).player
  · exact ⟨(hseats.client k v hv).1, hsocket k v hv, (hseats.client k v hv).2⟩

/-! ## Every event -/

theorem Inv.disconnect (hi : Inv s) {w : ℕ} (hw : s.Registered w)
    (hl : (disconnect w).Leaves s s') : Inv s' :=
  hi.gone hw (gone_of_unregister hi.seats hw hl)

theorem Inv.login (hi : Inv s) {w : ℕ} {name pass r g b : Value α} (hw : s.Registered w)
    (honce : LogsInOnce S (.login w name pass r g b) s)
    (hl : (login S w name pass r g b).Leaves s s') : Inv s' := by
  rw [Run.Leaves, Server.login, Run.get_bind, ← Run.Leaves] at hl
  split at hl
  · next name =>
    by_cases hpass : S.refuses pass = true
    · rw [if_pos hpass] at hl
      exact hi.disconnect hw hl
    · rw [if_neg hpass] at hl
      by_cases hname : (s.players.get name).isSome = true
      · rw [if_pos hname] at hl
        exact hi.disconnect hw hl
      · rw [if_neg hname] at hl
        have hfree : s.players.get name = none := Option.not_isSome_iff_eq_none.mp hname
        have hguest := honce ⟨Bool.not_eq_true _ ▸ hpass, hfree⟩ w _ _ _ _ _ rfl
        obtain ⟨_, h⟩ := (welcome_returns w name r g b).of_leaves hl
        exact hi.entered hw hguest hfree h
  · exact hi.disconnect hw hl

theorem Inv.chat (hi : Inv s) {w : ℕ} {text : Value α} (hl : (chat w text).Leaves s s') :
    Inv s' := by
  have hsend : Run.Returns (send (fun _ => .chat (s.workers w).name text)) s.game
      (fun _ g' => g'.players = s.game.players) := ⟨(), _, rfl, rfl⟩
  obtain ⟨_, h, g', hg', hs'⟩ := (onGame_returns hsend).of_leaves hl
  refine hi.sameTables h ?_
  rw [hs']
  exact hg'

/-- **Every event keeps the invariant**, unless somebody logs in twice. -/
theorem Inv.event (hi : Inv s) (e : Event α) (he : e.Possible s) (honce : LogsInOnce S e s)
    (hl : (perform S e).Leaves s s') : Inv s' := by
  cases e with
  | connect socket peer => exact hi.register he.2 hl
  | login w name pass r g b => exact hi.login he honce hl
  | chat w text => exact hi.chat hl
  | disconnect w => exact hi.disconnect he hl

theorem inv_start (g : Game α) : Inv (State.start g) :=
  ⟨fun _ _ h => absurd h nofun, fun _ _ h => absurd h nofun, fun _ _ h _ => absurd h nofun⟩

/-- **The session tables agree in every state a run reaches** in which nobody
logs in twice on one connection. -/
theorem tablesAgree_of_reaches (S : Site) (g : Game α) (s : State α)
    (hs : Reaches S (LogsInOnce S) (State.start g) s) : TablesAgree s := by
  suffices h : Inv s from h.tablesAgree
  induction hs with
  | start => exact inv_start g
  | event e _ he hok hl ih => exact ih.event e he hok hl

/-- A server without a password, that nobody has connected to. -/
def Site.plain : Site := ⟨Dict.Length.first Obj, none⟩

/-- **One client connects and logs in.** -/
theorem exists_login (n : Bytes) :
    ∃ s₁ s₂ : State Empty, Joined (State.start Game.empty) s₁ 0 [] ∧ Entered s₁ s₂ 0 n
      ∧ Reaches Site.plain (LogsInOnce Site.plain) (State.start Game.empty) s₂ := by
  obtain ⟨_, s₁, hreg, h₁⟩ := register_returns (s := State.start (α := Empty) Game.empty) 0 []
  have hw : s₁.Registered 0 := by
    unfold State.Registered
    rw [show s₁.workers 0 = _ from h₁.guest, h₁.clients]
    exact Dict.get_set_self _ _ _
  have hfree : s₁.players.get n = none := by
    rw [h₁.players]
    rfl
  have hlogin : Run.Returns (login Site.plain 0 (.string n) .nil .nil .nil .nil) s₁
      (fun _ s' => Entered s₁ s' 0 n) := login_returns rfl hfree
  obtain ⟨_, s₂, hlog, h₂⟩ := hlogin
  refine ⟨s₁, s₂, h₁, h₂, .event (.login 0 (.string n) .nil .nil .nil .nil)
    (.event (.connect 0 (some [])) .start ⟨List.not_mem_nil, rfl⟩ nofun (Or.inl ⟨_, hreg⟩))
    hw ?_ (Or.inl ⟨_, hlog⟩)⟩
  intro _ w _ _ _ _ _ he
  cases he
  rw [show s₁.workers 0 = _ from h₁.guest]
  rfl

theorem tablesAgree_of_login : ∃ s : State Empty, s.players.get [97] = some 0 ∧ TablesAgree s := by
  obtain ⟨s₁, s₂, -, h₂, hs⟩ := exists_login [97]
  refine ⟨s₂, ?_, tablesAgree_of_reaches Site.plain Game.empty s₂ hs⟩
  rw [h₂.players]
  exact Dict.get_set_self _ _ _

/-- **A second login under another name leaves the first entry behind**: the
client logs in as `a`, then as `b`, and `a` stands for a worker whose name is
`b`. -/
theorem not_tablesAgree :
    ¬ ∀ s : State Empty,
      Reaches Site.plain (fun _ _ => True) (State.start Game.empty) s → TablesAgree s := by
  intro h
  obtain ⟨s₁, s₂, h₁, h₂, hs⟩ := exists_login [97]
  have hw : s₂.Registered 0 := by
    unfold State.Registered
    rw [h₂.socket, h₂.clients, show s₁.workers 0 = _ from h₁.guest, h₁.clients]
    exact Dict.get_set_self _ _ _
  have hfree : s₂.players.get [98] = none := by
    rw [h₂.players, Dict.get_set_of_ne _ _ (by decide), h₁.players]
    rfl
  have hlogin : Run.Returns (login Site.plain 0 (.string [98]) .nil .nil .nil .nil) s₂
      (fun _ s' => Entered s₂ s' 0 [98]) := login_returns rfl hfree
  obtain ⟨_, s₃, hlog, h₃⟩ := hlogin
  have hr : Reaches Site.plain (fun _ _ => True) (State.start Game.empty) s₃ :=
    .event (.login 0 (.string [98]) .nil .nil .nil .nil) (hs.mono (fun _ _ _ => trivial)) hw
      trivial (Or.inl ⟨_, hlog⟩)
  have hold : s₃.players.get [97] = some 0 := by
    rw [h₃.players, Dict.get_set_of_ne _ _ (by decide), h₂.players]
    exact Dict.get_set_self _ _ _
  have hname := ((h s₃ hr).session [97] 0 hold).name
  rw [h₃.name, if_pos rfl] at hname
  exact absurd hname (by decide)

end Server

end Felt
