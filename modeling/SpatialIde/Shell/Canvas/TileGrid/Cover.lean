import SpatialIde.Lib.Rounded
import SpatialIde.Lib.Text
import SpatialIde.Shell.Canvas.TileGrid

/-! # Covers

Where the cells that cover a box lie.  A cell holds its lower edges and not its upper ones.  The
count of the cells comes from the span, before any of them is listed; above a bound only a window
around the centre is.
-/

namespace SpatialIde.Shell.Canvas.Cover

open Lib

inductive TileGridLevel where
  | coarse
  | medium
  | fine
  deriving DecidableEq, Repr

def TILE_GRID_DIMENSIONS : TileGridLevel → Int
  | .coarse => 8
  | .medium => 16
  | .fine => 32

def MAX_COVERING_TILES : Int := (MAX_QUEUED_TILES * 128 : Nat)

def COVER_WINDOW_CELLS_PER_AXIS : Int := 256

structure TileGridFrame where
  originX : Rounded
  originY : Rounded
  baseSpan : Rounded

structure BboxNumbers where
  xmin : Rounded
  ymin : Rounded
  xmax : Rounded
  ymax : Rounded

inductive CrsUnit where
  | degree
  | metre
  | other
  | unestablished
  deriving DecidableEq, Repr

/-- A cell, by its numbers. -/
structure Cell where
  row : Rounded
  col : Rounded
  deriving DecidableEq, Repr

def Cell.ofKey (key : TileKey) : Cell := ⟨.ofInt key.row, .ofInt key.col⟩

section

-- How a number is rounded.
variable (r : Rounding)

def MIN_ANCHOR_SPAN : CrsUnit → Rounded
  | .metre => .ofInt 1
  | .degree => r.round (1 / 1000000)
  | .other => .ofInt 1
  | .unestablished => .ofInt 1

def PAD_FACTOR : Rounded := .ofInt 2

def deriveTileGridFrame (anchor : BboxNumbers) (unit : CrsUnit) : TileGridFrame :=
  let spanX := r.sub anchor.xmax anchor.xmin
  let spanY := r.sub anchor.ymax anchor.ymin
  let anchorSpan := Rounded.max (.max spanX spanY) (MIN_ANCHOR_SPAN r unit)
  let baseSpan := r.mul anchorSpan PAD_FACTOR
  let centerX := r.div (r.add anchor.xmin anchor.xmax) (.ofInt 2)
  let centerY := r.div (r.add anchor.ymin anchor.ymax) (.ofInt 2)
  ⟨r.sub centerX (r.div baseSpan (.ofInt 2)), r.sub centerY (r.div baseSpan (.ofInt 2)), baseSpan⟩

def cellSizeForLevel (frame : TileGridFrame) (level : TileGridLevel) : Rounded :=
  r.div frame.baseSpan (.ofInt (TILE_GRID_DIMENSIONS level))

def tileBbox (frame : TileGridFrame) (level : TileGridLevel) (key : Cell) : BboxNumbers :=
  let cellSize := cellSizeForLevel r frame level
  let xmin := r.add frame.originX (r.mul key.col cellSize)
  let ymin := r.add frame.originY (r.mul key.row cellSize)
  ⟨xmin, ymin, r.add xmin cellSize, r.add ymin cellSize⟩

/-- The indices along one axis, from the first to the last. -/
def coveringIndexRange (minCoord maxCoord origin cellSize : Rounded) : Rounded × Rounded :=
  let start := (r.div (r.sub minCoord origin) cellSize).floor
  if maxCoord.le minCoord then (start, start)
  else
    let rawEnd := r.div (r.sub maxCoord origin) cellSize
    let flooredEnd := rawEnd.floor
    let last := if rawEnd.isInteger then r.sub flooredEnd (.ofInt 1) else flooredEnd
    (start, .max last start)

structure IndexRanges where
  cellSize : Rounded
  cols : Rounded × Rounded
  rows : Rounded × Rounded

def coveringIndexRanges (frame : TileGridFrame) (level : TileGridLevel) (bbox : BboxNumbers) :
    IndexRanges :=
  let cellSize := cellSizeForLevel r frame level
  ⟨cellSize, coveringIndexRange r bbox.xmin bbox.xmax frame.originX cellSize,
    coveringIndexRange r bbox.ymin bbox.ymax frame.originY cellSize⟩

/-- How many indices there are from one to another. -/
def span (range : Rounded × Rounded) : Rounded := r.add (r.sub range.2 range.1) (.ofInt 1)

def coveringCellCount (frame : TileGridFrame) (level : TileGridLevel) (bbox : BboxNumbers) :
    Rounded :=
  let ranges := coveringIndexRanges r frame level bbox
  r.mul (span r ranges.cols) (span r ranges.rows)

def isEnumerableRange (range : Rounded × Rounded) : Bool :=
  range.1.isSafeInteger && range.2.isSafeInteger && range.1.le range.2

/-- `for (i = start; i <= last; i++)`, where it ends. -/
def walk (last : Rounded) : Nat → Rounded → Option (List Rounded)
  | 0, _ => none
  | fuel + 1, i =>
    if i.le last then (walk last fuel (r.add i (.ofInt 1))).map (i :: ·) else some []

def materialiseCells (fuel : Nat) (rows cols : Rounded × Rounded) : Option (List Cell) := do
  let rows ← walk r rows.2 fuel rows.1
  let cells ← rows.mapM fun row => (walk r cols.2 fuel cols.1).map (List.map fun col => ⟨row, col⟩)
  return cells.flatten

inductive TileCover where
  | complete (keys : List Cell) (cellCount : Rounded)
  | truncated (keys : List Cell) (cellCount omittedCellCount : Rounded)
  deriving DecidableEq, Repr

def TileCover.keys : TileCover → List Cell
  | complete keys _ => keys
  | truncated keys _ _ => keys

/-- The index of the centre along one axis. -/
def centreIndex (minCoord maxCoord origin cellSize : Rounded) : Rounded :=
  (r.div (r.sub (r.add minCoord (r.div (r.sub maxCoord minCoord) (.ofInt 2))) origin) cellSize).floor

/-- The window around an index, cut to a range. -/
def windowRange (centre : Rounded) (range : Rounded × Rounded) : Rounded × Rounded :=
  let half := Rounded.ofInt (COVER_WINDOW_CELLS_PER_AXIS / 2)
  (.max range.1 (r.sub centre half),
    .min range.2
      (r.sub (r.add (r.sub centre half) (.ofInt COVER_WINDOW_CELLS_PER_AXIS)) (.ofInt 1)))

def tileCoverForBbox (fuel : Nat) (frame : TileGridFrame) (level : TileGridLevel)
    (bbox : BboxNumbers) : Option TileCover :=
  let ranges := coveringIndexRanges r frame level bbox
  let cellCount := coveringCellCount r frame level bbox
  let enumerable := isEnumerableRange ranges.rows && isEnumerableRange ranges.cols
  if enumerable && cellCount.isFinite && cellCount.le (.ofInt MAX_COVERING_TILES) then
    (materialiseCells r fuel ranges.rows ranges.cols).map (.complete · cellCount)
  else
    let centreCol := centreIndex r bbox.xmin bbox.xmax frame.originX ranges.cellSize
    let centreRow := centreIndex r bbox.ymin bbox.ymax frame.originY ranges.cellSize
    let winCols := windowRange r centreCol ranges.cols
    let winRows := windowRange r centreRow ranges.rows
    if !isEnumerableRange winRows || !isEnumerableRange winCols then
      some (.truncated [] cellCount cellCount)
    else
      (materialiseCells r fuel winRows winCols).map fun keys =>
        .truncated keys cellCount (r.sub cellCount (.ofInt keys.length))

/-! ### Membership -/

/-- White space of a script. -/
def isSpace (c : Char) : Bool := c == '\uFEFF' || (Text.isWhitespace c && c != '\u0085')

/-- The value of digits to a base. -/
def radixValue (base : Nat) (cs : List Char) : Option Nat :=
  if cs = [] then none
  else
    cs.foldlM (fun n c =>
      let lower := c.toLower
      let digit := if c.isDigit then digitValue c else lower.toNat - 'a'.toNat + 10
      if (c.isDigit || (lower.isLower)) && digit < base then some (n * base + digit) else none) 0

/-- A number without a sign: digits, a point among them, and an exponent. -/
def decimalValue (cs : List Char) : Option ℚ := do
  let (whole, fraction) ← F64.splitPoint (cs.takeWhile fun c => !F64.isExponentMark c)
  let exponent ← F64.parseExponent (cs.dropWhile fun c => !F64.isExponentMark c)
  let digits ← digitsValue (whole ++ fraction)
  let scale := exponent - fraction.length
  return if 0 ≤ scale then (digits : ℚ) * 10 ^ scale.toNat else (digits : ℚ) / 10 ^ (-scale).toNat

/-- `Number` of a text. -/
def number (s : String) : Rounded :=
  let radix (base : Nat) (cs : List Char) : Rounded :=
    match radixValue base cs with
    | some n => r.round n
    | none => .nan
  match Text.trimOf isSpace s.toList with
  | [] => .ofInt 0
  | '0' :: 'x' :: cs | '0' :: 'X' :: cs => radix 16 cs
  | '0' :: 'o' :: cs | '0' :: 'O' :: cs => radix 8 cs
  | '0' :: 'b' :: cs | '0' :: 'B' :: cs => radix 2 cs
  | text =>
    let (neg, cs) := splitSign text
    if cs = "Infinity".toList then .inf neg
    else
      match decimalValue cs with
      | some q => r.round (if neg then -q else q)
      | none => .nan

def parseTileKeyOrNull (key : String) : Option Cell :=
  match key.toList.splitOn ':' with
  | [row, col] =>
    let row := number r (String.ofList row)
    let col := number r (String.ofList col)
    if row.isFinite && col.isFinite then some ⟨row, col⟩ else none
  | _ => none

/-- Whether an index is from one to another. -/
def within (range : Rounded × Rounded) (index : Rounded) : Bool :=
  range.1.le index && index.le range.2

/-- `has` of the membership of a box. -/
def coverMembershipFor (frame : TileGridFrame) (level : TileGridLevel) (bbox : BboxNumbers)
    (key : String) : Bool :=
  let ranges := coveringIndexRanges r frame level bbox
  let finiteRanges := ranges.cols.1.isFinite && ranges.cols.2.isFinite && ranges.rows.1.isFinite &&
    ranges.rows.2.isFinite
  if !finiteRanges then false
  else
    match parseTileKeyOrNull r key with
    | none => false
    | some cell => within ranges.cols cell.col && within ranges.rows cell.row

end

end SpatialIde.Shell.Canvas.Cover
