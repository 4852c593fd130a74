import Felt.Server.Action
import Felt.Server.Inheritance

/-!
# The actions that are sent

The class of an entity has a list `actions`, which is sent with the entity: what
the file of the class registers with `ACTION`, and what the traits do that it
mixes in. An action is an entry of the menu, the name of a method, and the
events that ask for it.

The methods that are named are those of `Kind.actions`.

The lists are written down here as the source has them, and an example lets the
files of the classes register them one after the other, with the lists that
`Felt.Server.Inheritance` follows from class to class. What a client does with an
entry – which event of which button asks for it, and what is in the menu – is in
`Felt.Client.Events`.
-/

namespace Felt

namespace Server

/-- The action of the trait `Board`. -/
def Board.entry : ActionEntry := ⟨none, bytes "drop", [bytes "drop"]⟩

/-- The action of the trait `Token`. -/
def Token.entry : ActionEntry :=
  ⟨some (bytes "Pick Up"), bytes "pickup", [bytes "mouse_left_S", bytes "mouse_left"]⟩

/-- **The list `actions` of a class**: what its file registers, and the traits
it mixes in. -/
def Kind.entries : Kind → List ActionEntry
  | .field => [Board.entry]
  | .chessBoard => [Board.entry]
  | .chessPiece => [Token.entry, Board.entry]
  | .goBoard => [Board.entry]
  | .goPiece => [Token.entry]
  | .pile => [Board.entry, Token.entry,
      ⟨some (bytes "Take Item"), bytes "takeItem", [bytes "mouse_left"]⟩]
  | .box => [⟨some (bytes "Open"), bytes "open", [bytes "mouse_left"]⟩]

/-- The name of a class. -/
def Kind.className : Kind → Bytes
  | .field => bytes "game.felt.Field"
  | .chessBoard => bytes "game.chess.Board"
  | .chessPiece => bytes "game.chess.Piece"
  | .goBoard => bytes "game.go.Board"
  | .goPiece => bytes "game.go.Piece"
  | .pile => bytes "game.felt.Pile"
  | .box => bytes "game.gameboxes.Box"

/-- What the file of a class calls. -/
def Kind.file (k : Kind) : List Classes.Op :=
  .declare k.className (bytes "game.felt.Entity") :: k.entries.map (.action k.className)

/-- The files of a server with a chess box, one after the other. -/
example : (Classes.entity.run ([Kind.field, .box, .chessBoard, .chessPiece, .pile].flatMap
    Kind.file)).bind (·.actionsOf Kind.pile.className) = some Kind.pile.entries := by
  decide +kernel

/-- The method of a name. -/
def Method.ofName (name : Bytes) : Option Method :=
  if name = bytes "pickup" then some .pickup
  else if name = bytes "drop" then some .drop
  else if name = bytes "takeItem" then some .takeItem
  else if name = bytes "open" then some .openBox
  else none

/-- **The methods of the actions** are those the class lists. -/
theorem Kind.actions_eq (k : Kind) :
    k.entries.map (fun entry => Method.ofName entry.method) = k.actions.map some := by
  cases k <;> decide

theorem Kind.mem_actions {k : Kind} {entry : ActionEntry} {method : Method} (h : entry ∈ k.entries)
    (hmethod : Method.ofName entry.method = some method) : method ∈ k.actions := by
  have hmem : some method ∈ k.actions.map some := by
    rw [← k.actions_eq, ← hmethod]
    exact List.mem_map_of_mem h
  obtain ⟨method', hlisted, heq⟩ := List.mem_map.mp hmem
  exact Option.some.inj heq ▸ hlisted

/-- **What drops** is not in the menu, and has one event. -/
theorem Kind.entry_of_drop {k : Kind} {entry : ActionEntry} (h : entry ∈ k.entries)
    (hdrop : Method.ofName entry.method = some .drop) : entry = Board.entry := by
  revert entry
  cases k <;> decide

end Server

end Felt
