import Mathlib.Data.List.Basic
import Mathlib.Tactic.Common

/-! # Rows of cells

A table of cells is read with a cursor: where it is, and how many cells it still has in front of it. A
read of cells that are not in the row gives nothing.

* `Cells.slice` — some cells of a row, next to each other.
* `Cells.Cursor` — a position in a row; `Cursor.On` — it knows how much is left.
* `Cursor.On.slice`, `Cursor.On.cell` — reads within what is left are in the row. -/

namespace Cells

variable {α : Type*}

/-- The `n` cells of a row from `off` on, if they are all in it. -/
def slice (row : List α) (off n : ℕ) : Option (List α) :=
  if off + n ≤ row.length then some ((row.drop off).take n) else none

/-- Behind the first `n` cells the others stand in their order. -/
theorem getD_drop (row : List α) (n off : ℕ) (d : α) :
    (row.drop n).getD off d = row.getD (n + off) d := by
  rw [List.getD_eq_getElem?_getD, List.getElem?_drop, List.getD_eq_getElem?_getD]

/-- A position in a row, and the number of cells left from there on. -/
structure Cursor where
  next : ℕ
  left : ℕ
  deriving DecidableEq, Repr

namespace Cursor

/-- The position in front of a row. -/
def start (row : List α) : Cursor := ⟨0, row.length⟩

/-- The position behind the next `n` cells. -/
def skip (c : Cursor) (n : ℕ) : Cursor := ⟨c.next + n, c.left - n⟩

/-- The cells in front of a position. -/
def rest (c : Cursor) (row : List α) : List α := row.drop c.next

/-- The cursor is at or in front of the end of the row, and counts what is left. -/
def On (c : Cursor) (row : List α) : Prop := c.next + c.left = row.length

variable {row : List α} {c : Cursor} {off n : ℕ}

/-- At the start everything is left. -/
theorem on_start (row : List α) : (start row).On row := Nat.zero_add _

@[simp] theorem rest_start (row : List α) : (start row).rest row = row := rfl

@[simp] theorem rest_skip (c : Cursor) (row : List α) (n : ℕ) :
    (c.skip n).rest row = (c.rest row).drop n := List.drop_drop.symm

@[simp] theorem left_skip (c : Cursor) (n : ℕ) : (c.skip n).left = c.left - n := rfl

/-- As much is left as the cursor says. -/
theorem On.length_rest (h : c.On row) : (c.rest row).length = c.left := by
  unfold rest
  rw [List.length_drop, ← h, Nat.add_sub_cancel_left]

/-- Cells that are left may be skipped. -/
theorem On.skip (h : c.On row) (hn : n ≤ c.left) : (c.skip n).On row := by
  unfold On Cursor.skip at *
  dsimp only
  omega

/-- Cells that are left are read. -/
theorem On.slice (h : c.On row) (hle : off + n ≤ c.left) :
    Cells.slice row (c.next + off) n = some (((c.rest row).drop off).take n) := by
  unfold Cells.slice rest
  rw [if_pos (by rw [← h]; omega), List.drop_drop]

/-- A cell that is left is read from the row. -/
theorem On.cell (h : c.On row) (hlt : off < c.left) (d : α) :
    row[c.next + off]? = some ((c.rest row).getD off d) := by
  have hin : c.next + off < row.length := by
    rw [← h]
    omega
  unfold rest
  rw [List.getElem?_eq_getElem hin, List.getD_eq_getElem?_getD, List.getElem?_drop,
    List.getElem?_eq_getElem hin, Option.getD_some]

end Cursor

end Cells
