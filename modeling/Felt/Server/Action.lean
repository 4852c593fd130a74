import Felt.Server.Object

/-!
# What players can do

The methods in the `actions` lists of the shipped classes – picking up and
dropping, taking from a pile, opening a game box – and the methods of `Player`
they rest on. A request names an object, a method and coordinates;
`server.dispatch` puts the player who sent it in front of them.

`act` is the method call of such a request. The classes are built from the
traits `Board` and `Token`: a chess piece is both, with a `drop` of its own,
and so is a pile.

A request is carried out by whichever method the class of the entity has, and
`act` chooses it by the kind. Where the class has no such method there is nothing
to call, which is an error. The four methods here are those that a class lists for
its clients (`Kind.actions`). An object has others as well, such as `moveto` and
`delete`, and `server.dispatch` calls any of them; in `Felt.Server.Loop`, which is
about every message there is, the methods of objects are a parameter.
-/

namespace Felt

namespace Server

variable {α : Type}

/-! ## Players -/

namespace Player

/-- `Player.pickup`. -/
def pickup (self item : ℕ) : Action α Unit := do
  setHeld self (some item)
  setHeldBy item (some self)
  let g ← Run.get
  message (formatString (g.playerName self) ++ bytes " picks up "
    ++ formatString (g.entityName item) ++ bytes ".")

/-- `Player.drop`. -/
def drop (self onto : ℕ) (x y : Option ℚ) : Action α Unit := do
  let g ← Run.get
  let item ← Run.assertSome (g.people self).held .emptyHand
  setHeld self none
  setHeldBy item none
  moveto item (some onto) x y
  let g ← Run.get
  message (formatString (g.playerName self) ++ bytes " drops "
    ++ formatString (g.entityName item) ++ bytes " on " ++ formatString (g.entityName onto))

/-- Empty the hand of a player who leaves. -/
def letGo (self : ℕ) : Action α Unit := do
  let g ← Run.get
  match (g.people self).held with
  | none => pure ()
  | some item =>
    setHeldBy item none
    setHeld self none

/-- `Player.disconnect`. -/
def disconnect (self : ℕ) : Action α Unit := do
  letGo self
  let g ← Run.get
  message (formatString (g.playerName self) ++ bytes " disconnected.")

end Player

/-! ## Tokens and boards -/

/-- `Token.pickup`. -/
def Token.pickup (self : ℕ) (who : Option ℕ) : Action α Unit := do
  let g ← Run.get
  match (g.entities self).heldBy with
  | some _ => pure ()
  | none =>
    let who ← Run.assertSome who (.refused "index nil")
    match (g.people who).held with
    | some _ => pure ()
    | none => Player.pickup who self

/-- A grid that dropped items snap to. -/
structure Grid where
  /-- `x`. -/
  x : ℚ
  /-- `y`. -/
  y : ℚ
  /-- `w`. -/
  w : ℚ
  /-- `h`. -/
  h : ℚ
  /-- `rows`. -/
  rows : Option ℤ
  /-- `cols`. -/
  cols : Option ℤ
  /-- `center`. -/
  center : Bool

/-- The class field `grid`. -/
def Kind.grid : Kind → Option Grid
  | .chessBoard => some ⟨10, 10, 45, 45, some 8, some 8, true⟩
  | .goBoard => some ⟨4, 4, 25, 25, some 19, some 19, true⟩
  | _ => none

/-- Where an item is put on a grid when it is dropped at `(x, y)`. -/
def Grid.snap (grid : Grid) (item : Entity) (x y : ℚ) : ℚ × ℚ :=
  let row : ℤ := ⌊(x - grid.x) / grid.w⌋
  let col : ℤ := ⌊(y - grid.y) / grid.h⌋
  if (∀ n ∈ grid.rows, row ≤ n) ∧ (∀ n ∈ grid.cols, col ≤ n) then
    let x := row * grid.w + grid.x
    let y := col * grid.h + grid.y
    if grid.center then (x + (grid.w - item.w) / 2, y + (grid.h - item.h) / 2) else (x, y)
  else (x, y)

/-- Where an item is put that is dropped at `(x, y)`. -/
def Kind.place (kind : Kind) (item : Entity) (x y : ℚ) : ℚ × ℚ :=
  match kind.grid with
  | some grid => grid.snap item x y
  | none => (x - item.w / 2, y - item.h / 2)

/-- `Board.drop`. -/
def Board.drop (self : ℕ) (who : Option ℕ) (x y : Option ℚ) : Action α Unit := do
  let g ← Run.get
  let who ← Run.assertSome who (.refused "index nil")
  match (g.people who).held with
  | none => pure ()
  | some item =>
    if item = self then pure ()
    else do
      let x ← Run.assertSome x (.refused "arithmetic on nil")
      let y ← Run.assertSome y (.refused "arithmetic on nil")
      let (x, y) := (g.entities self).kind.place (g.entities item) x y
      Player.drop who self (some x) (some y)

/-! ## The shipped classes -/

/-- `Piece.drop` of chess. -/
def Piece.drop (self : ℕ) (who : Option ℕ) (x y : Option ℚ) : Action α Unit := do
  let g ← Run.get
  let parent ← Run.assertSome (g.entities self).parent (.refused "index nil")
  if (g.entities parent).kind = .chessBoard then do
    let x ← Run.assertSome x (.refused "arithmetic on nil")
    let y ← Run.assertSome y (.refused "arithmetic on nil")
    Board.drop parent who (some (x + (g.entities self).x)) (some (y + (g.entities self).y))
    Token.pickup self who
  else pure ()

/-- `who.held and not who.held:isInstanceOf(self.type)`. No shipped class is
derived from another one of them. -/
def Pile.refuses (g : Game α) (self who : ℕ) : Bool :=
  match (g.people who).held with
  | none => false
  | some item => (g.entities self).item.map Prod.fst ≠ some (g.entities item).kind

/-- `Pile.drop`. -/
def Pile.drop (fuel : ℕ) (self : ℕ) (who : Option ℕ) (x y : Option ℚ) : Action α Unit := do
  let g ← Run.get
  let p ← Run.assertSome who (.refused "index nil")
  if Pile.refuses g self p then pure ()
  else do
    Board.drop self who x y
    let g ← Run.get
    let child ← Run.assertSome (g.entities self).children[0]? (.refused "index nil")
    delete fuel child
    Run.modify (Game.mapEntity self (fun v => { v with count := v.count.add 1 }))

/-- The classes with the trait `Token`. -/
def Kind.isToken : Kind → Bool
  | .chessPiece => true
  | .goPiece => true
  | .pile => true
  | _ => false

/-- `Pile.takeItem`. -/
def Pile.takeItem (L : Dict.Length Obj) (self : ℕ) (who : Option ℕ) : Action α Unit := do
  let g ← Run.get
  if (g.entities self).count.isPositive then do
    let (kind, name) ← Run.assertSome (g.entities self).item (.refused "call nil")
    let item ← newEntity L (kind.entity name) []
    if kind.isToken then Token.pickup item who else Run.throw (.refused "call nil")
    Run.modify (Game.mapEntity self (fun v => { v with count := v.count.add (-1) }))
  else pure ()

/-! ## Game boxes -/

/-- `board:add(new "game.chess.Piece" { name = name }, x, y)`. -/
def addPiece (L : Dict.Length Obj) (board : ℕ) (name : Bytes) (x y : ℚ) : Action α Unit := do
  let piece ← newEntity L (Kind.chessPiece.entity name) []
  add board piece (some x) (some y)

/-- The pieces of one colour. -/
def addPieces (L : Dict.Length Obj) (board : ℕ) (colour : Bytes) : Action α Unit := do
  let pawnY : ℚ := if colour = bytes "black" then 55 else 280
  let y : ℚ := if colour = bytes "black" then 10 else 325
  Run.forList (fun k => addPiece L board (colour ++ bytes " pawn") (10 + 45 * (k : ℕ)) pawnY)
    (List.range 8)
  Run.forList (fun i => do
    addPiece L board (colour ++ bytes " rook") (10 + 7 * 45 * (i : ℕ)) y
    addPiece L board (colour ++ bytes " knight") (55 + 5 * 45 * (i : ℕ)) y
    addPiece L board (colour ++ bytes " bishop") (100 + 3 * 45 * (i : ℕ)) y) [0, 1]
  addPiece L board (colour ++ bytes " queen") (10 + 3 * 45) y
  addPiece L board (colour ++ bytes " king") (10 + 4 * 45) y

/-- The script of the chess box. -/
def openChess (L : Dict.Length Obj) : Action α Unit := do
  let field ← addField L (bytes "Chess")
  let board ← newEntity L (Kind.chessBoard.entity (bytes "chessboard")) []
  add field board (some 0) (some 0)
  Run.forList (addPieces L board) [bytes "white", bytes "black"]

/-- One of the bowls of the go box. -/
def bowl (name stone : Bytes) (x y : ℚ) : Entity :=
  { Kind.pile.entity name with
    game := some (bytes "go")
    x := x
    y := y
    item := some (.goPiece, stone) }

/-- The script of the go box. -/
def openGo (L : Dict.Length Obj) : Action α Unit := do
  let field ← addField L (bytes "Go")
  let board ← newEntity L (Kind.goBoard.entity (bytes "goban")) []
  add field board (some 0) (some 0)
  let white ← newEntity L (bowl (bytes "white bowl") (bytes "white stone") (-87) 0) []
  add field white none none
  let black ← newEntity L (bowl (bytes "black bowl") (bytes "black stone") 480 (480 - 75)) []
  add field black none none

/-- The script of a game box, for the boxes there are. -/
def boxScript (L : Dict.Length Obj) (name : Bytes) : Action α Unit :=
  if name = bytes "chess" then openChess L
  else if name = bytes "go" then openGo L
  else Run.throw (.moduleNotFound name)

/-- `Game.openGame`: `require` runs a script that has not run yet. -/
def openGame (L : Dict.Length Obj) (name : Bytes) : Action α Unit := do
  let g ← Run.get
  if name ∈ g.loaded then pure ()
  else do
    boxScript L name
    Run.modify (fun g => { g with loaded := g.loaded ++ [name] })

/-- `Box.open`. The box leaves its parent without a word to the clients. -/
def GameBox.openBox (L : Dict.Length Obj) (self : ℕ) : Action α Unit := do
  let g ← Run.get
  if (g.entities self).opened then pure ()
  else do
    let name ← Run.assertSome (g.entities self).game (.refused "concatenate a boolean")
    openGame L name
    Run.modify (Game.mapEntity self (fun v => { v with opened := true }))
    let g ← Run.get
    let parent ← Run.assertSome (g.entities self).parent (.refused "index nil")
    remove parent self

/-! ## Requests -/

/-- The methods in `actions` lists. -/
inductive Method where
  /-- `pickup`. -/
  | pickup
  /-- `drop`. -/
  | drop
  /-- `takeItem`. -/
  | takeItem
  /-- `open`. -/
  | openBox
  deriving DecidableEq

/-- The `actions` list of a class. -/
def Kind.actions : Kind → List Method
  | .field => [.drop]
  | .chessBoard => [.drop]
  | .chessPiece => [.pickup, .drop]
  | .goBoard => [.drop]
  | .goPiece => [.pickup]
  | .pile => [.drop, .pickup, .takeItem]
  | .box => [.openBox]

/-- `self[method](self, who, x, y)`, for a method of an entity. -/
def act (L : Dict.Length Obj) (fuel : ℕ) (self : ℕ) (method : Method) (who : Option ℕ)
    (x y : Option ℚ) : Action α Unit := do
  let g ← Run.get
  let kind := (g.entities self).kind
  if method ∈ kind.actions then
    match method with
    | .pickup => Token.pickup self who
    | .drop =>
      if kind = .chessPiece then Piece.drop self who x y
      else if kind = .pile then Pile.drop fuel self who x y
      else Board.drop self who x y
    | .takeItem => Pile.takeItem L self who
    | .openBox => GameBox.openBox L self
  else Run.throw (.refused "call nil")

/-! ## The game a server starts with -/

/-- `math.ceil(n ^ 0.5)`. -/
def ceilSqrt (n : ℕ) : ℕ := if n = 0 then 0 else Nat.sqrt (n - 1) + 1

/-- `name:gsub("^%a", string.upper)`. -/
def capitalize : Bytes → Bytes
  | [] => []
  | c :: name => (if 97 ≤ c ∧ c ≤ 122 then c - 32 else c) :: name

/-- One of the boxes on the first field. -/
def addBox (L : Dict.Length Obj) (field width : ℕ) (box : Bytes × ℕ) : Action α Unit := do
  let (name, i) := box
  let v : Entity := { Kind.box.entity (capitalize name ++ bytes " Box") with
    game := some name, w := 64, h := 64 }
  let box ← newEntity L v []
  add field box (some (8 + (i % width : ℕ) * (64 + 8))) (some (7 + (i / width : ℕ) * (64 + 8)))

/-- The script of the game boxes, for the boxes `share` has. -/
def openGameboxes (L : Dict.Length Obj) (games : List Bytes) : Action α Unit := do
  let field ← addField L (bytes "Game Boxes")
  Run.forList (addBox L field (ceilSqrt games.length)) games.zipIdx

/-- A game without objects. -/
def Game.empty : Game α where
  entities _ := Kind.field.entity []
  people _ := ⟨[], none, none, .nil, .nil, .nil⟩
  nextEntity := 0
  nextPlayer := 0
  objects := .empty
  rObjects := .empty
  fields := .empty
  players := .empty
  loaded := [bytes "gameboxes"]
  sent := []

/-- **The game `server.start` makes.** There is nobody to broadcast it to. -/
def Game.start (L : Dict.Length Obj) (games : List Bytes) : Game α :=
  match openGameboxes L games Game.empty with
  | .ok _ g => { g with sent := [] }
  | .error _ g => { g with sent := [] }
  | .timeout => Game.empty

end Server

end Felt
