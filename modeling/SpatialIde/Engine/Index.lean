import Mathlib.Data.List.AList
import Mathlib.Data.List.Sort
import Mathlib.Data.Rat.Floor
import SpatialIde.Engine.Types
import SpatialIde.Lib.Prog
import SpatialIde.Lib.Visit
import SpatialIde.Lib.Intervals

/-! # The grid index

`build` reads the covering boxes of all features and puts each feature into the cells
of a fixed grid that its box covers, or, where these are too many, into a list that
every query considers.  `candidates` looks at the cells that the viewport covers.

Bounds are exact rationals, so that none of them is infinite or NaN.
-/

namespace SpatialIde.Engine

open Lib

def MAX_INDEXED_FEATURES : Nat := 20000000

/-- Grid cells per axis. -/
def GRID_AXIS_CELLS : Nat := 256

/-- Most cells one feature may occupy before it is held in a coarse list instead. -/
def MAX_CELLS_PER_FEATURE : Nat := 1024

/-- How many steps a phase of the build takes between two looks at its cancellation. -/
def INDEX_POLL_INTERVAL : Nat := 4096

/-- `f64::MIN_POSITIVE`. -/
def MIN_POSITIVE : ℚ := 1 / 2 ^ 1022

structure Feature where
  id : UInt64
  bbox : Bbox ℚ
  deriving DecidableEq, Repr

abbrev GridCell := Nat × Nat

/-- The one question of a build. -/
inductive Poll where
  | isCancelled
  deriving DecidableEq, Repr

abbrev Poll.Answer : Poll → Type := fun _ => Bool

abbrev Build := Prog Poll.Answer EngineError

/-- Give up if cancelled. -/
def poll : Build Unit := do
  let cancelled : Bool ← Prog.query (A := Poll.Answer) Poll.isCancelled
  if cancelled then .throw .cancelled else pure ()

/-- Bbox intersection, the predicate named in the key. -/
def Bbox.meets (b view : Bbox ℚ) : Bool :=
  b.xmin ≤ view.xmax && view.xmin ≤ b.xmax && b.ymin ≤ view.ymax && view.ymin ≤ b.ymax

def Bbox.inverted (b : Bbox ℚ) : Bool := b.xmax < b.xmin || b.ymax < b.ymin

/-- The cell of a coordinate on one axis of the extent; outside of it the first or the last. -/
def axisCell (lo hi x : ℚ) : Nat :=
  let span := max (hi - lo) MIN_POSITIVE
  let n : ℚ := (GRID_AXIS_CELLS - 1 : Nat)
  ⌊max 0 (min ((x - lo) / span * n) n)⌋.toNat

def cellOf (extent : Bbox ℚ) (x y : ℚ) : GridCell :=
  (axisCell extent.xmin extent.xmax x, axisCell extent.ymin extent.ymax y)

/-- `lo..=hi`. -/
def through (lo hi : Nat) : List Nat := List.range' lo (hi + 1 - lo)

/-- The cells from the corner `a` to the corner `b`, column by column. -/
def cellsBetween (a b : GridCell) : List GridCell :=
  (through a.1 b.1).flatMap fun c => (through a.2 b.2).map fun r => (c, r)

abbrev GridCells := AList fun _ : GridCell => List UInt32

def GridCells.slots (cells : GridCells) (cell : GridCell) : List UInt32 := (cells.lookup cell).getD []

/-- `entry(cell).or_default().push(slot)`. -/
def GridCells.push (cells : GridCells) (cell : GridCell) (slot : UInt32) : GridCells :=
  cells.insert cell (cells.slots cell ++ [slot])

structure SpatialIndex where
  features : List Feature
  /-- The least box around all features; none of its bounds has been moved yet where it is `none`. -/
  extent : Option (Bbox ℚ)
  cells : GridCells
  /-- Features too broad to bucket. -/
  spanning : List UInt32

/-! ### The build -/

/-- One chunk of the scan.  The ceiling is enforced while reading. -/
def scanChunk (features chunk : List Feature) : Build (List Feature) := do
  poll
  if features.length + chunk.length > MAX_INDEXED_FEATURES then
    .throw (.ceilingExceeded "MAX_INDEXED_FEATURES" MAX_INDEXED_FEATURES
      (features.length + chunk.length))
  else return features ++ chunk

def scan (chunks : List (List Feature)) : Build (List Feature) := chunks.foldlM scanChunk []

/-- A poll in front of every item whose index is a multiple of the interval. -/
def pollAt (i : Nat) : Build Unit := if i % INDEX_POLL_INTERVAL = 0 then poll else pure ()

def validateBbox (i : Nat) (f : Feature) : Build Nat := do
  pollAt i
  if f.bbox.inverted then
    .throw (.source ("feature at row " ++ toString i ++ " has an inverted covering bbox"))
  else return i + 1

def extendExtent (extent : Option (Bbox ℚ)) (b : Bbox ℚ) : Option (Bbox ℚ) :=
  match extent with
  | none => some b
  | some e => some ⟨min e.xmin b.xmin, min e.ymin b.ymin, max e.xmax b.xmax, max e.ymax b.ymax⟩

def extentStep (st : Nat × Option (Bbox ℚ)) (f : Feature) : Build (Nat × Option (Bbox ℚ)) := do
  pollAt st.1
  return (st.1 + 1, extendExtent st.2 f.bbox)

/-- The grid while it is populated, and the steps since the last poll. -/
structure Grid where
  slot : Nat
  cells : GridCells
  spanning : List UInt32
  sincePoll : Nat

def Grid.start : Grid := ⟨0, ∅, [], 0⟩

def Grid.pollDue (g : Grid) : Build Grid :=
  if g.sincePoll ≥ INDEX_POLL_INTERVAL then do
    poll
    return { g with sincePoll := 0 }
  else pure g

def Grid.insertCell (g : Grid) (cell : GridCell) : Build Grid := do
  let g ← g.pollDue
  return { g with
    cells := g.cells.push cell (UInt32.ofNat g.slot)
    sincePoll := g.sincePoll + 1 }

def Grid.place (extent : Bbox ℚ) (g : Grid) (f : Feature) : Build Grid := do
  let g ← g.pollDue
  let a := cellOf extent f.bbox.xmin f.bbox.ymin
  let b := cellOf extent f.bbox.xmax f.bbox.ymax
  if (b.1 - a.1 + 1) * (b.2 - a.2 + 1) > MAX_CELLS_PER_FEATURE then
    return { g with
      slot := g.slot + 1
      spanning := g.spanning ++ [UInt32.ofNat g.slot]
      sincePoll := g.sincePoll + 1 }
  else
    let g ← (cellsBetween a b).foldlM Grid.insertCell g
    return { g with slot := g.slot + 1 }

/-- The grid of an extent that has a width and a height. -/
def populate (extent : Option (Bbox ℚ)) (features : List Feature) : Build Grid :=
  match extent with
  | none => pure .start
  | some e =>
    if e.xmin < e.xmax ∧ e.ymin < e.ymax then features.foldlM (Grid.place e) .start
    else pure .start

/-- `build_observed`, from the chunks of its scan on. -/
def build (chunks : List (List Feature)) : Build SpatialIndex := do
  let features ← scan chunks
  poll
  let _ ← features.foldlM validateBbox 0
  let extent ← features.foldlM extentStep (0, none)
  let grid ← populate extent.2 features
  poll
  return ⟨features, extent.2, grid.cells, grid.spanning⟩

/-! ### A query -/

namespace SpatialIndex

/-- The id of a slot whose box meets the viewport. -/
def pick (index : SpatialIndex) (view : Bbox ℚ) (s : Nat) : Option UInt64 :=
  match index.features[s]? with
  | some f => if f.bbox.meets view then some f.id else none
  | none => none

def consider (index : SpatialIndex) (view : Bbox ℚ) (st : Visit.Visited UInt64) (slot : UInt32) :
    Visit.Visited UInt64 :=
  Visit.visit (index.pick view) st slot.toNat

/-- `none` says that this index cannot narrow the query. -/
def candidates (index : SpatialIndex) (view : Bbox ℚ) : Option (List UInt64) :=
  match index.extent with
  | none => none
  | some e =>
    if index.features = [] ∨ index.cells.entries = [] then none
    else if view.inverted then none
    else
      let a := cellOf e view.xmin view.ymin
      let b := cellOf e view.xmax view.ymax
      let st := index.spanning.foldl (index.consider view) (Visit.start index.features.length)
      let st := (cellsBetween a b).foldl
        (fun st cell => (index.cells.slots cell).foldl (index.consider view) st) st
      some (st.out.insertionSort (· ≤ ·))

end SpatialIndex

end SpatialIde.Engine
