import Felt.Net.Call
import Felt.Server.Tables

/-!
# The server's main loop

`server.step` accepts at most one connection, lets the worker of every socket
that has something to read receive one message, and that of every socket that
can be written to send one. What a message does is up to whoever sent it:
`box.unpack` may load any module there is, and `server.dispatch` calls any
method of any object that has an id. Both are parameters, an `Installation`;
a module may do anything to the server, a method anything to the game.

An error in `receiveOne` or `sendOne` is caught, and ends the connection.

The order within a step is the source's: a connection first, then everything that
is read, then everything that is written. A socket that was closed by what was
read is not written to, as the loop looks the worker up again each time.
-/

namespace Felt

namespace Server

open Box (Point Store)

/-- A value that was received: over the tables that came in messages, and the
game's objects. -/
abbrev Datum : Type := Value (Point Obj)

/-- The server, and the tables that came in messages. -/
abbrev Machine : Type := Store Obj (State (Point Obj))

/-- What the main loop does. -/
abbrev Step (β : Type) : Type := Run Machine ServerError β

/-- **What the server runs on**: the modules that can be loaded, the methods
that objects have, and the interpreter's arithmetic and lengths. Modules and
methods return or raise; that is all that is assumed of them. -/
structure Installation where
  /-- What the server is started with. -/
  site : Site
  /-- Counts and positions. -/
  arith : Arith
  /-- How deep and how long `box.unpack` may go. -/
  fuel : ℕ
  /-- `require(type)`, and the `__unpack` of the module it answers. -/
  require : Datum → Box.Effect Obj (State (Point Obj))
    (Option (Datum → Box.Effect Obj (State (Point Obj)) Datum))
  /-- `#` of a list of values. -/
  border : List Datum → ℕ
  /-- It is a border. -/
  isBorder : ∀ l, Box.IsBorder l (border l)
  /-- `#` of a table, and the conversion of a number to a C integer. -/
  interpreter : Net.Interpreter (Point Obj)
  /-- The method of an object, if it has one: it is given the player of the
  caller, and the arguments of the call. -/
  method : Obj → Datum → Option (Option ℕ → List Datum → Game (Point Obj) →
    Except GameError Unit × Game (Point Obj))
  /-- The function of that name in the string library, if there is one: it
  returns or raises. -/
  stringMethod : Datum → Option (Bytes → List Datum → Except ServerError Unit)

/-- What `receive` answers in `receiveOne`: the header, and then the body. -/
structure Reception where
  /-- `self.socket:receive("*l")`. -/
  header : Option Bytes
  /-- `self.socket:receive(len)`. -/
  body : Option Bytes

namespace Installation

/-- `server.game().objects[n]`. -/
def objectAt (s : State (Point Obj)) : Number → Option Obj
  | .fin q => if q.den = 1 ∧ 0 ≤ q.num then s.game.objects.get q.num.toNat else none
  | _ => none

/-- What the server brings to `box.unpack`. -/
def receiver (I : Installation) : Box.Receiver Obj (State (Point Obj)) where
  objs := some objectAt
  require := I.require
  border := I.border
  isBorder := I.isBorder

end Installation

variable {I : Installation}

/-- Run a function of the server's. -/
def onServer {β : Type} (x : Handler (Point Obj) β) : Step β := fun m =>
  match x m.world with
  | .ok b s => .ok b { m with world := s }
  | .error e s => .error e { m with world := s }
  | .timeout => .timeout

/-- `box.unpack(buf, server.game().objects)`. -/
def decode (I : Installation) (buf : Bytes) : Step Datum := fun m =>
  match Box.unpack I.arith I.receiver I.fuel buf m with
  | .ok v st => .ok v st.store
  | .error e st => .error (.box e) st.store
  | .timeout => .timeout

/-- `v[key]`, for a key that no object and no string has. -/
def index (v key : Datum) : Step Datum := do
  let m ← Run.get
  match v with
  | .ref (.table i) =>
    pure (Box.rawget (m.tables.getD i []) key)
  | .ref (.object _) => pure .nil
  | .string _ => pure .nil
  | _ => Run.throw (.refused "index a value")

/-- The log line of a message: its elements are enumerated with `ipairs`. -/
def logMessage (v : Datum) : Step Unit :=
  match v with
  | .ref _ => pure ()
  | _ => Run.throw (.refused "ipairs of a value")

/-- `table.unpack(msg)`: what the message has from one up to its `n`, or to
what `#` answers. An object has no entries. -/
def arguments (I : Installation) (v : Datum) : Step (List Datum) := do
  let m ← Run.get
  match v with
  | .ref (.table i) =>
    match Net.unpackTable I.interpreter (m.tables.getD i []) with
    | .ok args => pure args
    | .error .numberExpected => Run.throw (.refused "number expected")
    | .error .tooManyResults => Run.throw (.refused "too many results to unpack")
  | .ref (.object _) => pure []
  | _ => Run.throw (.refused "unpack a value")

/-- What a table can be unpacked to. -/
theorem arguments_table {I : Installation} {m : Machine} {i : ℕ} {args : List Datum}
    (h : Net.unpackTable I.interpreter (m.tables.getD i []) = .ok args) :
    arguments I (.ref (.table i)) m = .ok args m := by
  rw [arguments, Run.get_bind]
  show (match Net.unpackTable I.interpreter (m.tables.getD i []) with
    | .ok args => (pure args : Step _)
    | .error .numberExpected => Run.throw (.refused "number expected")
    | .error .tooManyResults => Run.throw (.refused "too many results to unpack")) m = _
  rw [h]
  rfl

/-- A method that returns or raises. -/
def runMethod (f : Game (Point Obj) → Except GameError Unit × Game (Point Obj)) :
    Action (Point Obj) Unit :=
  fun g => Run.ofExcept (f g).1 (f g).2

/-- `msg.self[msg.method](msg.self, sender.player, …)`. -/
def callMethod (I : Installation) (self method : Datum) (who : Option ℕ) (args : List Datum) :
    Step Unit :=
  match self with
  | .ref (.object o) =>
    match I.method o method with
    | some f => onServer (onGame (runMethod (f who args)))
    | none => Run.throw (.refused "call nil")
  | .ref (.table _) => Run.throw (.refused "call a value")
  | .string s =>
    match I.stringMethod method with
    | some f => Run.ofExcept (f s args)
    | none => Run.throw (.refused "call nil")
  | _ => Run.throw (.refused "index a value")

/-- `server.api[msg.method](sender, …)`. -/
def callApi (I : Installation) (method : Datum) (w : ℕ) (v : Datum) : Step Unit :=
  if method = .string (bytes "login") then do
    let args ← arguments I v
    onServer (login I.site w (args.getD 0 .nil) (args.getD 1 .nil) (args.getD 2 .nil)
      (args.getD 3 .nil) (args.getD 4 .nil))
  else if method = .string (bytes "chat") then do
    let args ← arguments I v
    onServer (chat w (args.getD 0 .nil))
  else Run.throw .noMethod

/-- **`server.dispatch`.** -/
def dispatch (I : Installation) (v : Datum) (w : ℕ) : Step Unit := do
  let self ← index v (.string (bytes "self"))
  let method ← index v (.string (bytes "method"))
  if self.truthy then do
    let args ← arguments I v
    let m ← Run.get
    callMethod I self method (m.world.workers w).player args
  else callApi I method w v

/-- What `receiveOne` does once it is protected. -/
def receive (I : Installation) (w : ℕ) (rec : Reception) : Step Unit := do
  let header ← Run.assertSome rec.header .socket
  let _ ← Run.assertSome (Number.tonumber header) .malformedHeader
  let buf ← Run.assertSome rec.body .socket
  let msg ← decode I buf
  logMessage msg
  dispatch I msg w

/-- **`ClientWorker.receiveOne`.** -/
def receiveOne (I : Installation) (w : ℕ) (rec : Reception) : Step Unit :=
  Run.xpcall (receive I w rec) (fun _ => onServer (disconnect w))

/-- What `sendOne` does once it is protected, and `send` succeeds or not. -/
def transmit (w : ℕ) (accepted : Bool) : Handler (Point Obj) Unit := do
  Run.modify (State.mapWorker w (fun v => { v with sendq := v.sendq.drop 1 }))
  if accepted then pure () else Run.throw .socket

/-- **`ClientWorker.sendOne`.** -/
def sendOne (w : ℕ) (accepted : Bool) : Handler (Point Obj) Unit := do
  let s ← Run.get
  if (s.workers w).sendq = [] then pure ()
  else Run.xpcall (transmit w accepted) (fun _ => disconnect w)

/-! ## One step of the loop -/

/-- **What the sockets do during a call of `server.step`.** -/
structure Turn where
  /-- The socket that is accepted, and what its `getpeername` answers. -/
  accepted : Option (ℕ × Option Bytes)
  /-- The sockets that are readable, and what is read from each. -/
  readable : List (ℕ × Reception)
  /-- The sockets that are writable, and whether a `send` succeeds. -/
  writable : List (ℕ × Bool)

/-- `_clients[sock]:receiveOne()`. -/
def readOne (I : Installation) (r : ℕ × Reception) : Step Unit := do
  let m ← Run.get
  let w ← Run.assertSome (m.world.clients.get r.1) (.refused "index nil")
  receiveOne I w r.2

/-- `if _clients[sock] then _clients[sock]:sendOne() end`. -/
def writeOne (r : ℕ × Bool) : Step Unit := do
  let m ← Run.get
  match m.world.clients.get r.1 with
  | some w => onServer (sendOne w r.2)
  | none => pure ()

/-- `local sock = _socket:accept()`, and what follows. -/
def accept : Option (ℕ × Option Bytes) → Step Unit
  | some (socket, peer) => onServer (register socket peer)
  | none => pure ()

/-- **`server.step`.** -/
def step (I : Installation) (turn : Turn) : Step Unit := do
  accept turn.accepted
  Run.forList (readOne I) turn.readable
  Run.forList writeOne turn.writable

end Server

end Felt
