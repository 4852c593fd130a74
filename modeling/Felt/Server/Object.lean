import Felt.Server.Game

/-!
# The objects of the game

Every object gets its id when it is registered, after its constructor has
run: the number behind a border of `objects`. When ids have been freed that
may be any free one next to a used one – `Dict.Length` is the interpreter's
choice.

The order in which a method broadcasts and changes the tables is the
source's. `addObject` broadcasts while the object has an id but is in no
table yet, so that it is packed whole; `deleteObject` while it still is, so
that it is packed as its id.

These functions are written with the steps in the source's order, as it decides
what clients see and what is left behind when something raises in between. That
most of them cannot raise, and what they come to as a whole, is the subject of
`Felt.Server.Effect`.
-/

namespace Felt

namespace Server

variable {α : Type}

/-! ## Changing fields -/

/-- Change the fields of an entity. -/
def Game.mapEntity (e : ℕ) (f : Entity → Entity) (g : Game α) : Game α :=
  { g with entities := Function.update g.entities e (f (g.entities e)) }

/-- Change the fields of a player. -/
def Game.mapPlayer (p : ℕ) (f : Player α → Player α) (g : Game α) : Game α :=
  { g with people := Function.update g.people p (f (g.people p)) }

/-- `object.id = id`. -/
def Game.setId (o : Obj) (id : ℕ) (g : Game α) : Game α :=
  match o with
  | .game => g
  | .entity e => g.mapEntity e (fun v => { v with id := some id })
  | .player p => g.mapPlayer p (fun v => { v with id := some id })

/-- `tostring` of an entity. -/
def Game.entityName (g : Game α) (e : ℕ) : Bytes := (g.entities e).name

/-- `tostring` of a player. -/
def Game.playerName (g : Game α) (p : ℕ) : Bytes := (g.people p).name

/-- `server.message`, of a text that was formatted. -/
def message (text : Bytes) : Action α Unit := send (fun _ => .message text)

/-- `self:set("held", item)`, for a player. -/
def setHeld (p : ℕ) (item : Option ℕ) : Action α Unit := do
  Run.modify (Game.mapPlayer p (fun v => { v with held := item }))
  send (fun packed => .set (packed (.player p)) .held (item.map (fun e => packed (.entity e))))

/-- `self:set("held_by", who)`, for an entity. -/
def setHeldBy (e : ℕ) (who : Option ℕ) : Action α Unit := do
  Run.modify (Game.mapEntity e (fun v => { v with heldBy := who }))
  send (fun packed => .set (packed (.entity e)) .heldBy (who.map (fun p => packed (.player p))))

/-! ## The tables of the game -/

/-- `assert(not object.id or self.objects[object.id] == object)`. -/
def assertFree (o : Obj) : Action α Unit := do
  let g ← Run.get
  match g.idOf o with
  | none => pure ()
  | some id => if g.objects.get id = some o then pure () else Run.throw .collision

/-- `Game.addObject`. -/
def addObject (L : Dict.Length Obj) (o : Obj) : Action α Unit := do
  assertFree o
  let g ← Run.get
  let id := (g.idOf o).getD (L.border g.objects + 1)
  Run.modify (Game.setId o id)
  send (fun packed => .addObject (packed .game) (packed o))
  Run.modify (fun g => { g with objects := g.objects.set id o, rObjects := g.rObjects.set o id })

/-- `Game.deleteObject`. -/
def deleteObject (o : Obj) : Action α Unit := do
  send (fun packed => .deleteObject (packed .game) (packed o))
  let g ← Run.get
  let id ← Run.assertSome (g.idOf o) (.refused "table index is nil")
  Run.modify (fun g => { g with objects := g.objects.erase id, rObjects := g.rObjects.erase o })

/-! ## The tree -/

/-- `Entity.remove`. -/
def remove (self child : ℕ) : Action α Unit := do
  Run.modify (Game.mapEntity child (fun v => { v with parent := none }))
  Run.modify (Game.mapEntity self (fun v => { v with children := v.children.erase child }))

/-- `if self.parent and self.parent ~= parent then self.parent:remove(self) end`. -/
def leaveParent (self : ℕ) (parent : Option ℕ) : Action α Unit := do
  let g ← Run.get
  match (g.entities self).parent with
  | none => pure ()
  | some p => if some p = parent then pure () else remove p self

/-- `self.parent = parent` and its list of children, if that is new. -/
def joinParent (self : ℕ) (parent : Option ℕ) : Action α Unit := do
  let g ← Run.get
  match parent with
  | none => pure ()
  | some p =>
    if (g.entities self).parent = some p then pure ()
    else do
      Run.modify (Game.mapEntity self (fun v => { v with parent := some p }))
      Run.modify (Game.mapEntity p (fun v => { v with children := v.children ++ [self] }))

/-- `Entity.moveto`. -/
def moveto (self : ℕ) (parent : Option ℕ) (x y : Option ℚ) : Action α Unit := do
  leaveParent self parent
  Run.modify (Game.mapEntity self (fun v => { v with x := x.getD v.x, y := y.getD v.y }))
  joinParent self parent
  Run.modify (Game.mapEntity self (fun v => { v with parent := parent }))
  send (fun packed =>
    .moveto (packed (.entity self)) (parent.map (fun p => packed (.entity p))) x y)

/-- `Entity.add`. -/
def add (self child : ℕ) (x y : Option ℚ) : Action α Unit := moveto child (some self) x y

mutual

/-- `Entity.delete`, to a depth of `fuel`. -/
def delete : ℕ → ℕ → Action α Unit
  | 0, _ => Run.timeout
  | fuel + 1, self => do
    let g ← Run.get
    deleteChildren fuel self (g.entities self).children.length 0
    moveto self none none none
    deleteObject (.entity self)

/-- The loop over `childrenFTB`: `todo` more positions of a list that was as
long when the loop began. It ends early at a position that is past the end by
then. -/
def deleteChildren : ℕ → ℕ → ℕ → ℕ → Action α Unit
  | _, _, 0, _ => pure ()
  | 0, _, _ + 1, _ => Run.timeout
  | fuel + 1, self, todo + 1, i => do
    let g ← Run.get
    match (g.entities self).children[i]? with
    | none => pure ()
    | some child =>
      delete fuel child
      deleteChildren fuel self todo (i + 1)

end

/-! ## Constructors -/

/-- The class fields `w` and `h`. -/
def Kind.size : Kind → ℚ
  | .field => 16
  | .chessBoard => 380
  | .chessPiece => 45
  | .goBoard => 480
  | .goPiece => 23
  | .pile => 16
  | .box => 16

/-- The class field `game`. -/
def Kind.game : Kind → Option Bytes
  | .chessBoard => some (bytes "chess")
  | .chessPiece => some (bytes "chess")
  | .goBoard => some (bytes "go")
  | .goPiece => some (bytes "go")
  | _ => none

/-- The fields of an entity that its constructor gave nothing but a name. -/
def Kind.entity (kind : Kind) (name : Bytes) : Entity where
  kind := kind
  name := name
  id := none
  x := 0
  y := 0
  w := kind.size
  h := kind.size
  game := kind.game
  parent := none
  children := []
  heldBy := none
  opened := false
  count := .huge
  item := none

/-- `Entity.__new`: construct an entity with these fields, add its children,
and register it. -/
def newEntity (L : Dict.Length Obj) (v : Entity) (children : List ℕ) : Action α ℕ := do
  let g ← Run.get
  let e := g.nextEntity
  Run.modify (fun g =>
    { g with nextEntity := e + 1, entities := Function.update g.entities e v })
  Run.forList (fun child => add e child none none) children
  addObject L (.entity e)
  pure e

/-- The field of that name, as `Game.addField` finds or makes it. -/
def findField (L : Dict.Length Obj) (name : Bytes) : Action α ℕ := do
  let g ← Run.get
  match g.fields.get name with
  | some f => pure f
  | none =>
    let f ← newEntity L (Kind.field.entity name) []
    Run.modify (fun g => { g with fields := g.fields.set name f })
    pure f

/-- `Game.addField`: a field that was just made is added a second time. -/
def addField (L : Dict.Length Obj) (name : Bytes) : Action α ℕ := do
  let f ← findField L name
  addObject L (.entity f)
  pure f

/-- `new "game.felt.Player" { name = name; r = r, g = g, b = b }`. -/
def newPlayer (L : Dict.Length Obj) (name : Bytes) (r g b : Value α) : Action α ℕ := do
  let s ← Run.get
  let p := s.nextPlayer
  Run.modify (fun s => { s with
    nextPlayer := p + 1
    people := Function.update s.people p ⟨name, none, none, r, g, b⟩ })
  addObject L (.player p)
  pure p

/-- What a value of a constructor's makes of a field: `nil` is no value. -/
def override (old new : Value α) : Value α :=
  match new with
  | .nil => old
  | v => v

/-- The player of that name, as `Game.addPlayer` finds or makes it. -/
def findPlayer (L : Dict.Length Obj) (name : Bytes) (r g b : Value α) : Action α ℕ := do
  let s ← Run.get
  match s.players.get name with
  | some p =>
    Run.modify (Game.mapPlayer p (fun v =>
      { v with name := name, r := override v.r r, g := override v.g g, b := override v.b b }))
    pure p
  | none =>
    let p ← newPlayer L name r g b
    Run.modify (fun s => { s with players := s.players.set name p })
    pure p

/-- `Game.addPlayer`. -/
def addPlayer (L : Dict.Length Obj) (name : Bytes) (r g b : Value α) : Action α ℕ := do
  let p ← findPlayer L name r g b
  send (fun packed => .addPlayer (packed .game) (packed (.player p)))
  pure p

end Server

end Felt
