import Mathlib.Tactic.Linarith
import Mathlib.Tactic.Ring
import Mathlib.Algebra.Order.Floor.Ring
import Felt.Server.Effect

/-!
# Grids

A board with a grid puts what is dropped on it into the cell under the point
of the drop. The cell is found by rounding down, so it may have any index; the
board compares the index with the number of rows and of columns, from above
and with `<=`.

A point is on the grid when both indices are between zero and the number of
rows or columns, the latter excluded. Points left of the grid or above it are
snapped all the same, and so is one more row and one more column at the other
two sides.

Coordinates are rational numbers here. What the board computes is exact then, and
so is the condition: it compares numbers of cells, and the cells have borders.
-/

namespace Felt

namespace Server

/-! ## Cells -/

/-- The index of the cell a coordinate is in, for cells of width `w` from `o`
on. -/
def cell (o w x : ℚ) : ℤ := ⌊(x - o) / w⌋

section Cell

variable {o w x : ℚ} {n : ℤ}

/-- **Where the cells begin.** -/
theorem le_cell_iff (hw : 0 < w) : n ≤ cell o w x ↔ o + n * w ≤ x := by
  unfold cell
  rw [Int.le_floor, le_div_iff₀ hw, le_sub_iff_add_le']

/-- **Where the cells end.** -/
theorem cell_lt_iff (hw : 0 < w) : cell o w x < n ↔ x < o + n * w := by
  rw [← not_le, le_cell_iff hw, not_le]

/-- What is put into a cell, less than a cell away from its corner, is in
it. -/
theorem cell_corner (hw : 0 < w) {d : ℚ} (h0 : 0 ≤ d) (hd : d < w) :
    cell o w (n * w + o + d) = n := by
  refine le_antisymm (Int.lt_add_one_iff.mp ?_) ?_
  · rw [cell_lt_iff hw]
    push_cast
    linarith [add_mul (n : ℚ) 1 w]
  · rw [le_cell_iff hw]
    linarith

end Cell

/-! ## Snapping -/

namespace Grid

/-- `row`: the index along `x`. -/
def row (grid : Grid) (x : ℚ) : ℤ := cell grid.x grid.w x

/-- `col`: the index along `y`. -/
def col (grid : Grid) (y : ℚ) : ℤ := cell grid.y grid.h y

/-- What is dropped at the point is snapped. -/
def Snaps (grid : Grid) (x y : ℚ) : Prop :=
  (∀ n ∈ grid.rows, grid.row x ≤ n) ∧ (∀ n ∈ grid.cols, grid.col y ≤ n)

/-- The corner of an item that is put into a cell. -/
def corner (grid : Grid) (item : Entity) (row col : ℤ) : ℚ × ℚ :=
  if grid.center then
    (row * grid.w + grid.x + (grid.w - item.w) / 2, col * grid.h + grid.y + (grid.h - item.h) / 2)
  else (row * grid.w + grid.x, col * grid.h + grid.y)

/-- **What is snapped is put into its cell.** -/
theorem snap_of_snaps {grid : Grid} {x y : ℚ} (h : grid.Snaps x y) (item : Entity) :
    grid.snap item x y = grid.corner item (grid.row x) (grid.col y) := if_pos h

/-- The point is on the grid. -/
def Within (grid : Grid) (rows cols : ℤ) (x y : ℚ) : Prop :=
  (grid.x ≤ x ∧ x < grid.x + rows * grid.w) ∧ (grid.y ≤ y ∧ y < grid.y + cols * grid.h)

/-- An item at this corner lies inside the cell. -/
def Inside (grid : Grid) (item : Entity) (row col : ℤ) (corner : ℚ × ℚ) : Prop :=
  (grid.x + row * grid.w ≤ corner.1 ∧ corner.1 + item.w ≤ grid.x + (row + 1) * grid.w)
    ∧ (grid.y + col * grid.h ≤ corner.2 ∧ corner.2 + item.h ≤ grid.y + (col + 1) * grid.h)

/-- The item is no larger than a cell. -/
def Holds (grid : Grid) (item : Entity) : Prop :=
  (0 ≤ item.w ∧ item.w ≤ grid.w) ∧ (0 ≤ item.h ∧ item.h ≤ grid.h)

/-- **The item stays on the grid** when it is dropped at the point: it is
snapped exactly on the grid, into a cell of the grid, and lies in it for
good. -/
structure StaysOn (grid : Grid) (rows cols : ℤ) (item : Entity) (x y : ℚ) : Prop where
  /-- It is snapped exactly if the point is on the grid. -/
  snaps_iff : grid.Snaps x y ↔ grid.Within rows cols x y
  /-- The cell is one of the grid. -/
  cell : grid.Snaps x y →
    (0 ≤ grid.row x ∧ grid.row x < rows) ∧ (0 ≤ grid.col y ∧ grid.col y < cols)
  /-- It lies inside the cell. -/
  inside : grid.Snaps x y → grid.center = true → grid.Holds item →
    grid.Inside item (grid.row x) (grid.col y) (grid.snap item x y)
  /-- Dropped again where it lies it stays there. -/
  again : grid.Snaps x y → grid.center = true → grid.Holds item →
    grid.snap item (grid.snap item x y).1 (grid.snap item x y).2 = grid.snap item x y

section StaysOn

variable {grid : Grid} {rows cols : ℤ} {item : Entity} {x y : ℚ}

/-- **Which points are snapped**: the grid has no border to the left and none
above, and one row and one column too many. -/
theorem snaps_iff_lt (hw : 0 < grid.w) (hh : 0 < grid.h) (hrows : grid.rows = some rows)
    (hcols : grid.cols = some cols) : grid.Snaps x y ↔
      x < grid.x + (rows + 1) * grid.w ∧ y < grid.y + (cols + 1) * grid.h := by
  unfold Snaps
  rw [hrows, hcols]
  have hx : grid.row x ≤ rows ↔ x < grid.x + (rows + 1) * grid.w := by
    rw [← Int.lt_add_one_iff]
    exact_mod_cast cell_lt_iff (n := rows + 1) hw
  have hy : grid.col y ≤ cols ↔ y < grid.y + (cols + 1) * grid.h := by
    rw [← Int.lt_add_one_iff]
    exact_mod_cast cell_lt_iff (n := cols + 1) hh
  simp only [Option.mem_def, Option.some.injEq, forall_eq', hx, hy]

/-- **A point is on the grid** exactly if its cell is one of the grid. -/
theorem within_iff (hw : 0 < grid.w) (hh : 0 < grid.h) : grid.Within rows cols x y ↔
    (0 ≤ grid.row x ∧ grid.row x < rows) ∧ (0 ≤ grid.col y ∧ grid.col y < cols) := by
  unfold Within row col
  rw [le_cell_iff hw, cell_lt_iff hw, le_cell_iff hh, cell_lt_iff hh, Int.cast_zero, zero_mul,
    zero_mul, add_zero, add_zero]

/-- What is on the grid is snapped. -/
theorem Within.snaps (h : grid.Within rows cols x y) (hw : 0 < grid.w) (hh : 0 < grid.h)
    (hrows : grid.rows = some rows) (hcols : grid.cols = some cols) : grid.Snaps x y := by
  rw [snaps_iff_lt hw hh hrows hcols, add_mul, add_mul, one_mul, one_mul]
  obtain ⟨⟨-, hx⟩, -, hy⟩ := h
  constructor <;> linarith

/-- A centred item is less than a cell away from the corner of its cell. -/
theorem offset {w size : ℚ} (hw : 0 < w) (h0 : 0 ≤ size) (hle : size ≤ w) :
    0 ≤ (w - size) / 2 ∧ (w - size) / 2 < w := by
  constructor <;> linarith

/-- A centred item lies inside its cell. -/
theorem inside_corner (hcenter : grid.center = true) (hitem : grid.Holds item)
    (row col : ℤ) : grid.Inside item row col (grid.corner item row col) := by
  obtain ⟨⟨-, hw⟩, -, hh⟩ := hitem
  unfold corner
  rw [if_pos hcenter]
  unfold Inside
  rw [add_mul, add_mul, one_mul, one_mul]
  refine ⟨⟨?_, ?_⟩, ?_, ?_⟩ <;> dsimp only <;> linarith

/-- A centred item is in its cell with its corner, too. -/
theorem cells_corner (hw : 0 < grid.w) (hh : 0 < grid.h) (hcenter : grid.center = true)
    (hitem : grid.Holds item) (row col : ℤ) :
    grid.row (grid.corner item row col).1 = row ∧ grid.col (grid.corner item row col).2 = col := by
  obtain ⟨hx0, hx⟩ := offset hw hitem.1.1 hitem.1.2
  obtain ⟨hy0, hy⟩ := offset hh hitem.2.1 hitem.2.2
  unfold corner
  rw [if_pos hcenter]
  exact ⟨cell_corner hw hx0 hx, cell_corner hh hy0 hy⟩

/-- **On the grid an item stays on the grid.** -/
theorem StaysOn.of_within (hw : 0 < grid.w) (hh : 0 < grid.h) (hrows : grid.rows = some rows)
    (hcols : grid.cols = some cols) (h : grid.Within rows cols x y) :
    grid.StaysOn rows cols item x y := by
  have hsnaps := h.snaps hw hh hrows hcols
  refine ⟨iff_of_true hsnaps h, fun _ => (within_iff hw hh).mp h, fun _ hcenter hitem => ?_,
    fun _ hcenter hitem => ?_⟩
  · rw [snap_of_snaps hsnaps]
    exact inside_corner hcenter hitem _ _
  · -- the corner is in the same cell, which decides both times
    rw [snap_of_snaps hsnaps]
    obtain ⟨hrow, hcol⟩ := cells_corner hw hh hcenter hitem (grid.row x) (grid.col y)
    have hagain : grid.Snaps (grid.corner item (grid.row x) (grid.col y)).1
        (grid.corner item (grid.row x) (grid.col y)).2 := by
      unfold Snaps
      rw [hrow, hcol]
      exact hsnaps
    rw [snap_of_snaps hagain, hrow, hcol]

/-- **An item stays on the grid exactly if** the point is on the grid, or so
far beyond it that it is not snapped. On a board that has the grid, this is
where `Board.drop` puts what is held. -/
theorem staysOn_iff (grid : Grid) (rows cols : ℤ) (hrows : grid.rows = some rows)
    (hcols : grid.cols = some cols) (hw : 0 < grid.w) (hh : 0 < grid.h) (item : Entity)
    (x y : ℚ) :
    (grid.StaysOn rows cols item x y ↔ grid.Within rows cols x y
      ∨ grid.x + (rows + 1) * grid.w ≤ x ∨ grid.y + (cols + 1) * grid.h ≤ y)
    ∧ ∀ (α : Type) (g : Game α) (self p held : ℕ), (g.entities self).kind.grid = some grid →
      (g.people p).held = some held → held ≠ self → g.entities held = item →
        Board.drop self (some p) (some x) (some y) g = .ok () (g.dropped p held self
          (some (grid.snap item x y).1) (some (grid.snap item x y).2)) := by
  have hfar : (grid.x + (rows + 1) * grid.w ≤ x ∨ grid.y + (cols + 1) * grid.h ≤ y)
      ↔ ¬grid.Snaps x y := by
    rw [snaps_iff_lt hw hh hrows hcols, not_and_or, not_lt, not_lt]
  constructor
  · rw [hfar]
    constructor
    · intro h
      by_cases hsnaps : grid.Snaps x y
      · exact Or.inl (h.snaps_iff.mp hsnaps)
      · exact Or.inr hsnaps
    · rintro (h | hsnaps)
      · exact .of_within hw hh hrows hcols h
      · exact ⟨iff_of_false hsnaps (fun h => hsnaps (h.snaps hw hh hrows hcols)),
          fun h => absurd h hsnaps, fun h => absurd h hsnaps, fun h => absurd h hsnaps⟩
  · rintro α g self p held hgrid hheld hne rfl
    rw [Board.drop_apply, hheld]
    simp only [if_neg hne]
    unfold Kind.place
    rw [hgrid]

/-- A piece that is dropped on the chessboard. -/
theorem staysOn_chess :
    Grid.StaysOn ⟨10, 10, 45, 45, some 8, some 8, true⟩ 8 8 (Kind.chessPiece.entity []) 20 30 :=
  ((staysOn_iff ⟨10, 10, 45, 45, some 8, some 8, true⟩ 8 8 rfl rfl (by norm_num) (by norm_num)
    (Kind.chessPiece.entity []) 20 30).1).mpr (Or.inl (by
      unfold Within
      norm_num))

/-- **The chessboard snaps a piece into a ninth row**, when it is dropped on
the margin behind the eighth. -/
theorem not_staysOn :
    ¬ ∀ (grid : Grid) (rows cols : ℤ), grid.rows = some rows → grid.cols = some cols →
      0 < grid.w → 0 < grid.h → 0 < rows ∧ 0 < cols → ∀ (item : Entity) (x y : ℚ),
        grid.StaysOn rows cols item x y := by
  intro h
  have hstays := h ⟨10, 10, 45, 45, some 8, some 8, true⟩ 8 8 rfl rfl (by norm_num) (by norm_num)
    (by decide) (Kind.chessPiece.entity []) 375 20
  have hwithin := hstays.snaps_iff.mp ((snaps_iff_lt (by norm_num) (by norm_num) rfl rfl).mpr
    (by norm_num))
  unfold Within at hwithin
  norm_num at hwithin

end StaysOn

end Grid

end Server

end Felt
