import Felt.Lua.Triple
import Felt.Server.Action

/-!
# Connections and sessions

The server keeps three tables: the list of sockets it selects on, the worker
of each socket, and the worker of each name somebody is logged in under. A
worker is a guest until a login makes it the worker of a player.

`unregister` looks a worker up by its current name only. That is enough as
long as a worker logs in once. Nothing keeps a client from logging in a second
time, under another name: the entry under its first name is then there for
good, and stands for a worker that is gone.

A worker is numbered like an object, and what it is now is a function of the
number: its socket and its name, its player and its queue. The tables lead from
sockets and from names to such numbers. Nothing keeps them in line but the order
of the assignments, and the order is the source's.
-/

namespace Felt

namespace Server

/-- **A worker** – the server's end of a connection. -/
structure Worker (α : Type) where
  /-- `socket`. -/
  socket : ℕ
  /-- `name`. -/
  name : Bytes
  /-- `player`. -/
  player : Option ℕ
  /-- `sendq`. -/
  sendq : List (Msg α)

/-- **The state of the server.** Workers are numbered in the order they are
made. -/
structure State (α : Type) where
  /-- `_sockets`. -/
  sockets : List ℕ
  /-- `_clients`. -/
  clients : Dict ℕ ℕ
  /-- `_players`. -/
  players : Dict Bytes ℕ
  /-- The workers. -/
  workers : ℕ → Worker α
  /-- How many workers were made. -/
  nextWorker : ℕ
  /-- `_game`. -/
  game : Game α

/-- **What a server is started with.** -/
structure Site where
  /-- `#`, for the table of objects. -/
  length : Dict.Length Obj
  /-- `_info.pass`. -/
  pass : Option Bytes

/-- The errors of the server. -/
inductive ServerError where
  /-- An error of the game's methods. -/
  | game (e : GameError)
  /-- An error of `box.unpack`. -/
  | box (e : BoxError)
  /-- `no method %s in server API`. -/
  | noMethod
  /-- `malformed message header`. -/
  | malformedHeader
  /-- What a call of the socket failed with. -/
  | socket
  /-- An operation the interpreter refuses on the value it was given. -/
  | refused (operation : String)
  deriving DecidableEq

/-- What a function of the server's does. -/
abbrev Handler (α β : Type) : Type := Run (State α) ServerError β

variable {α : Type}

/-! ## Queues -/

/-- Change the fields of a worker. -/
def State.mapWorker (w : ℕ) (f : Worker α → Worker α) (s : State α) : State α :=
  { s with workers := Function.update s.workers w (f (s.workers w)) }

/-- Queue a message for a worker: the end of `ClientWorker.send`. -/
def State.enqueue (s : State α) (m : Msg α) (w : ℕ) : State α :=
  s.mapWorker w (fun v => { v with sendq := v.sendq ++ [m] })

/-- **`server.send`**, for a message that is packed: queue it for every worker
in `_players`. -/
def State.deliver (s : State α) (m : Msg α) : State α :=
  s.players.values.foldl (fun s w => s.enqueue m w) s

/-- The state after a method of the game's: what it broadcast is queued. -/
def State.settle (s : State α) (g : Game α) : State α :=
  { g.sent.foldl State.deliver s with game := { g with sent := [] } }

/-- Run a method of the game's. -/
def onGame {β : Type} (x : Action α β) : Handler α β := fun s =>
  match x s.game with
  | .ok b g => .ok b (s.settle g)
  | .error e g => .error (.game e) (s.settle g)
  | .timeout => .timeout

/-! ## Coming and going -/

/-- The name of a worker that has not logged in. -/
def guestName (peer : Bytes) : Bytes := bytes "client:" ++ peer

/-- A worker that has not logged in. -/
def Worker.guest (socket : ℕ) (peer : Bytes) : Worker α := ⟨socket, guestName peer, none, []⟩

/-- **`server.register`**, with what `getpeername` answers. -/
def register (socket : ℕ) (peer : Option Bytes) : Handler α Unit := do
  Run.modify (fun s => { s with sockets := s.sockets ++ [socket] })
  let peer ← Run.assertSome peer (.refused "concatenate nil")
  Run.modify (fun s => { s with
    clients := s.clients.set socket s.nextWorker
    workers := Function.update s.workers s.nextWorker (Worker.guest socket peer)
    nextWorker := s.nextWorker + 1 })

/-- `if _players[client.name] then … end`. -/
def leaveGame (w : ℕ) : Handler α Unit := do
  let s ← Run.get
  match s.players.get (s.workers w).name with
  | none => pure ()
  | some _ =>
    let p ← Run.assertSome (s.workers w).player (.refused "index nil")
    onGame (Player.disconnect p)
    Run.modify (fun t => { t with players := t.players.erase (s.workers w).name })

/-- **`server.unregister`.** -/
def unregister (w : ℕ) : Handler α Unit := do
  Run.modify (fun s => { s with clients := s.clients.erase (s.workers w).socket })
  leaveGame w
  Run.modify (fun s => { s with sockets := s.sockets.erase (s.workers w).socket })

/-- **`ClientWorker.disconnect`.** The message it has for the client goes to
the socket at once, past the queue. -/
def disconnect (w : ℕ) : Handler α Unit := unregister w

/-! ## The functions clients may call -/

/-- `_info.pass and _info.pass ~= pass`. -/
def Site.refuses (S : Site) (pass : Value α) : Bool :=
  match S.pass, pass with
  | none, _ => false
  | some p, .string q => p ≠ q
  | some _, _ => true

/-- `client:setName(name)`, `client:setPlayer(player)` and
`_players[client.name] = client`. -/
def State.enter (w p : ℕ) (name : Bytes) (s : State α) : State α :=
  { s.mapWorker w (fun v => { v with name := name, player := some p }) with
    players := s.players.set name w }

/-- The part of `login` behind its checks. -/
def welcome (S : Site) (w : ℕ) (name : Bytes) (r g b : Value α) : Handler α Unit := do
  let p ← onGame (addPlayer S.length name r g b)
  Run.modify (State.enter w p name)
  Run.modify (fun s => s.enqueue (snapshot s.game) w)
  onGame (message (formatString name ++ bytes " joins the game."))

/-- **`server.api.login`.** -/
def login (S : Site) (w : ℕ) (name pass r g b : Value α) : Handler α Unit := do
  let s ← Run.get
  match name with
  | .string name =>
    if S.refuses pass then disconnect w
    else if (s.players.get name).isSome then disconnect w
    else welcome S w name r g b
  | _ => disconnect w

/-- **`server.api.chat`.** -/
def chat (w : ℕ) (text : Value α) : Handler α Unit := do
  let s ← Run.get
  onGame (send (fun _ => .chat (s.workers w).name text))

end Server

end Felt
