import Mathlib.Data.Int.Range
import SpatialIde.Shell.Canvas.DecodeBatch

/-! # The tile grid

A cell of the grid is a row and a column, and its name the two of them with a colon between.  The
cells that cover a box are an index rectangle, row by row.
-/

namespace SpatialIde.Shell.Canvas

open Lib

def MAX_QUEUED_TILES : Nat := 512

structure TileKey where
  row : Int
  col : Int
  deriving DecidableEq, Repr

def tileKeyToString (key : TileKey) : String :=
  Int.repr key.row ++ ":" ++ Int.repr key.col

/-- The indices from one to another, both included. -/
def indices (range : Int × Int) : List Int := Int.range range.1 (range.2 + 1)

/-- The cells of an index rectangle, row by row. -/
def materialiseCells (rows cols : Int × Int) : List TileKey :=
  (indices rows).flatMap fun row => (indices cols).map fun col => ⟨row, col⟩

/-! ### Names -/

theorem isDigit_of_mem_repr {n : Nat} {c : Char} (hc : c ∈ (Nat.repr n).toList) :
    c.isDigit = true := by
  rw [Nat.toList_repr] at hc
  exact Nat.isDigit_of_mem_toDigits (by decide) (by decide) hc

/-- An index is spelled by its digits, after a sign if it is negative. -/
theorem toList_repr (a : Int) : a.repr.toList = if 0 ≤ a then a.toNat.repr.toList
    else '-' :: (-a).toNat.repr.toList := by
  rw [Int.repr_eq_if]
  split_ifs
  · rfl
  · rw [String.toList_append]
    rfl

theorem colon_notMem_repr (a : Int) : ':' ∉ a.repr.toList := by
  intro hc
  rw [toList_repr] at hc
  split_ifs at hc
  · exact absurd (isDigit_of_mem_repr hc) (by decide)
  · rcases List.mem_cons.1 hc with hc | hc
    · exact absurd hc (by decide)
    · exact absurd (isDigit_of_mem_repr hc) (by decide)

end SpatialIde.Shell.Canvas
