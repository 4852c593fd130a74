import Mathlib.Logic.Function.Iterate
import Mathlib.Data.Rat.Floor
import Felt.Box.Value
import Felt.Lua.Dict

/-!
# The server's game

The game is a heap of objects – entities and players – and two tables: which
object has which id, and which id an object has. Entities stand in a tree, as
each has a parent and a list of children; a player may hold an entity, and an
entity knows who holds it.

Whatever the server changes it also broadcasts, and what a broadcast carries
depends on the tables at that very moment: an object the clients know is
written as its id, any other is packed whole. `Game.sent` is the list of
broadcasts an operation has made. Each records, next to the id it was written
as, which object was meant – nothing on the receiving side reads that.

The classes are the shipped ones, and a class is a `Kind`. The colours a
player brings are values the server only stores and passes on.

An entity has all the fields that some method reads; the rest of what a class
puts into one is for the clients to draw, and is part of the constructor in a
message (`ctor`) if it is sent. What is the same in all entities of a class is a
function of the `Kind`.

Objects are numbered as they are made, and a reference to one is its number. So
an entity that has been deleted is still there, as it is in a heap that somebody
may have a reference into; it has no id any more. Most of what is proved is about
objects that have one.
-/

namespace Felt

namespace Server

/-- **The classes of entities**: `game.felt.Field`, `game.chess.Board` and
`Piece`, `game.go.Board` and `Piece`, `game.felt.Pile`, and
`game.gameboxes.Box`. -/
inductive Kind where
  /-- `game.felt.Field`. -/
  | field
  /-- `game.chess.Board`. -/
  | chessBoard
  /-- `game.chess.Piece`. -/
  | chessPiece
  /-- `game.go.Board`. -/
  | goBoard
  /-- `game.go.Piece`. -/
  | goPiece
  /-- `game.felt.Pile`. -/
  | pile
  /-- `game.gameboxes.Box`. -/
  | box
  deriving DecidableEq

/-- How many items a pile has: `math.huge` unless it was given a number. -/
inductive Count where
  /-- `math.huge`. -/
  | huge
  /-- A number. -/
  | of (n : ℤ)
  deriving DecidableEq

namespace Count

/-- `count > 0`. -/
def isPositive : Count → Bool
  | .huge => true
  | .of n => 0 < n

/-- `count + n`. -/
def add : Count → ℤ → Count
  | .huge, _ => .huge
  | .of m, n => .of (m + n)

end Count

/-- **An entity**, with the fields the server reads. An entity of a pile's is
made of the class and the name in `item`. The table of actions is that of the
class (`Felt.Server.Action`); what `ACTION` does to it is not part of a run. -/
structure Entity where
  /-- Its class. -/
  kind : Kind
  /-- `name`. -/
  name : Bytes
  /-- `id`. -/
  id : Option ℕ
  /-- `x`. -/
  x : ℚ
  /-- `y`. -/
  y : ℚ
  /-- `w`. -/
  w : ℚ
  /-- `h`. -/
  h : ℚ
  /-- `game`: the game box it is from – or, for a box, the one it opens. -/
  game : Option Bytes
  /-- `parent`. -/
  parent : Option ℕ
  /-- `children`. -/
  children : List ℕ
  /-- `held_by`. -/
  heldBy : Option ℕ
  /-- `opened`. -/
  opened : Bool
  /-- `count`. -/
  count : Count
  /-- `type` and `ctor.name`. -/
  item : Option (Kind × Bytes)
  deriving DecidableEq

/-- **A player**, over the points colours may refer to. -/
structure Player (α : Type) where
  /-- `name`. -/
  name : Bytes
  /-- `id`. -/
  id : Option ℕ
  /-- `held`. -/
  held : Option ℕ
  /-- `r`. -/
  r : Value α
  /-- `g`. -/
  g : Value α
  /-- `b`. -/
  b : Value α
  deriving DecidableEq

/-- **An object that has an id**: the game itself, an entity or a player. -/
inductive Obj where
  /-- The game. -/
  | game
  /-- An entity. -/
  | entity (e : ℕ)
  /-- A player. -/
  | player (p : ℕ)
  deriving DecidableEq

/-! ## Messages -/

/-- **How an object stands in a message.** -/
inductive Packed where
  /-- Tag `O`: as an id – and which object was meant. -/
  | known (id : ℕ) (o : Obj)
  /-- Tag `C`: packed whole, by its `__pack`. -/
  | whole (o : Obj)
  deriving DecidableEq

/-- The constructor of an object that is packed whole: its fields, as they
are when the message is written. -/
inductive Ctor (α : Type) where
  /-- Of an entity. -/
  | entity (kind : Kind) (id : Option ℕ) (name : Bytes) (x y w h : ℚ) (game : Option Bytes)
      (children : List Packed) (count : Count)
  /-- Of a player. -/
  | player (id : Option ℕ) (name : Bytes) (held : Option Packed) (r g b : Value α)
  deriving DecidableEq

/-- A field that is set on the clients. -/
inductive Key where
  /-- `held`. -/
  | held
  /-- `held_by`. -/
  | heldBy
  deriving DecidableEq

/-- **A method call the server has its clients make.** -/
inductive Call (α : Type) where
  /-- `self:addObject(object)`, on the game. -/
  | addObject (self object : Packed)
  /-- `self:deleteObject(object)`, on the game. -/
  | deleteObject (self object : Packed)
  /-- `self:addPlayer(player)`, on the game. -/
  | addPlayer (self player : Packed)
  /-- `self:set(key, value)`. -/
  | set (self : Packed) (key : Key) (value : Option Packed)
  /-- `self:moveto(parent, x, y)`. -/
  | moveto (self : Packed) (parent : Option Packed) (x y : Option ℚ)
  /-- `client.api.message(text)`. -/
  | message (text : Bytes)
  /-- `client.api.chat(who, message)`. -/
  | chat (who : Bytes) (text : Value α)
  /-- `client.api.game(game)`, the game packed with its tables. -/
  | game (objects : Dict ℕ Packed) (fields players : Dict Bytes Packed)

/-- The objects a call mentions. What a player says may be an object too, and
is left out: a client only shows it. -/
def Call.mentions {α : Type} : Call α → List Packed
  | .addObject self o => [self, o]
  | .deleteObject self o => [self, o]
  | .addPlayer self p => [self, p]
  | .set self _ value => self :: value.toList
  | .moveto self parent _ _ => self :: parent.toList
  | .message _ => []
  | .chat _ _ => []
  | .game objects fields players => objects.values ++ fields.values ++ players.values

/-- The objects a constructor mentions. The colours of a player are left out:
they are what the client that logged in has sent, and nothing is read from
them. -/
def Ctor.mentions {α : Type} : Ctor α → List Packed
  | .entity _ _ _ _ _ _ _ _ children _ => children
  | .player _ _ held _ _ _ => held.toList

/-- The id in a constructor. -/
def Ctor.id {α : Type} : Ctor α → Option ℕ
  | .entity _ id _ _ _ _ _ _ _ _ => id
  | .player id _ _ _ _ _ => id

/-- **A message of the server**: the call, and the objects it carries whole. -/
structure Msg (α : Type) where
  /-- The call. -/
  call : Call α
  /-- The constructor of each object that is packed whole. -/
  carried : List (Obj × Ctor α)

/-- Everything a message mentions, at any depth. -/
def Msg.mentions {α : Type} (m : Msg α) : List Packed :=
  m.call.mentions ++ m.carried.flatMap (fun c => c.2.mentions)

/-! ## The state -/

/-- **The state of the server's game.** Entities and players are numbered in
the order they are made; the tables `objects` and `r_objects` leave out the
game itself, which has the id `0`. -/
structure Game (α : Type) where
  /-- The entities. -/
  entities : ℕ → Entity
  /-- The player objects. -/
  people : ℕ → Player α
  /-- How many entities were made. -/
  nextEntity : ℕ
  /-- How many player objects were made. -/
  nextPlayer : ℕ
  /-- `objects`. -/
  objects : Dict ℕ Obj
  /-- `r_objects`. -/
  rObjects : Dict Obj ℕ
  /-- `fields`. -/
  fields : Dict Bytes ℕ
  /-- `players`. -/
  players : Dict Bytes ℕ
  /-- The game boxes whose script has run. -/
  loaded : List Bytes
  /-- The broadcasts that are not queued yet. -/
  sent : List (Msg α)

/-- The errors of the game's methods. -/
inductive GameError where
  /-- `object ID collision in addObject`. -/
  | collision
  /-- `drop with empty hand`. -/
  | emptyHand
  /-- `module '%s' not found`. -/
  | moduleNotFound (name : Bytes)
  /-- An operation the interpreter refuses on the value it was given. -/
  | refused (operation : String)
  deriving DecidableEq

/-- What a method of the game's does. -/
abbrev Action (α β : Type) : Type := Run (Game α) GameError β

namespace Game

variable {α : Type}

/-- `object.id`. -/
def idOf (g : Game α) : Obj → Option ℕ
  | .game => some 0
  | .entity e => (g.entities e).id
  | .player p => (g.people p).id

/-- `r_objects[object]`, the game's own entry included. -/
def known (g : Game α) : Obj → Option ℕ
  | .game => some 0
  | .entity e => g.rObjects.get (.entity e)
  | .player p => g.rObjects.get (.player p)

end Game

/-! ## What is written for a call -/

section Pack

variable {α : Type} (g : Game α) (objs : Obj → Option ℕ)

/-- How `box.pack` writes an object: it looks it up in `objs`. -/
def packed (o : Obj) : Packed :=
  match objs o with
  | some id => .known id o
  | none => .whole o

/-- The constructor that `__pack` of an object answers. -/
def ctor : Obj → Option (Ctor α)
  | .game => none
  | .entity e =>
    let v := g.entities e
    some (.entity v.kind v.id v.name v.x v.y v.w v.h v.game
      (v.children.map (fun c => packed objs (.entity c))) v.count)
  | .player p =>
    let v := g.people p
    some (.player v.id v.name (v.held.map (fun e => packed objs (.entity e))) v.r v.g v.b)

/-- The objects that were made. -/
def made : List Obj :=
  (List.range g.nextEntity).map .entity ++ (List.range g.nextPlayer).map .player

/-- One round of what is packed whole: `os`, and what they mention. -/
def carryMore (os : List Obj) : List Obj :=
  (made g).filter
    (fun o => o ∈ os ∨ ∃ o' ∈ os, ∃ c ∈ (ctor g objs o').toList, .whole o ∈ c.mentions)

/-- The objects a message carries whole: those its call mentions so, and
those that they mention, at any depth. -/
def carried (call : Call α) : List Obj :=
  (carryMore g objs)^[(made g).length] ((made g).filter (fun o => .whole o ∈ call.mentions))

/-- **`box.pack(call, objs)`.** -/
def pack (call : Call α) : Msg α where
  call := call
  carried := (carried g objs call).flatMap (fun o => (ctor g objs o).toList.map (o, ·))

end Pack

variable {α : Type}

/-- **`server.send`**, as far as the game is concerned: what `call` is, given
how each object is written. -/
def send (call : (Obj → Packed) → Call α) : Action α Unit :=
  Run.modify (fun g => { g with sent := g.sent ++ [pack g g.known (call (packed g.known))] })

/-- **The game, packed for a client that knows nothing**: `{ method = "game";
_game }`. -/
def snapshot (g : Game α) : Msg α :=
  pack g (fun _ => none) (.game (g.objects.map .whole)
    (g.fields.map (fun e => .whole (.entity e))) (g.players.map (fun p => .whole (.player p))))

end Server

end Felt
