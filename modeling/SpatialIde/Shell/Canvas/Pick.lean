import SpatialIde.Shell.Canvas.DecodeBatch

/-! # Drawing a batch and picking in it

A layer has one datum for each part of a batch, and a pick names a datum by its place.
-/

namespace SpatialIde.Shell.Canvas

open Lib

variable {α : Type}

/-! ### Layers -/

/-- What a layer draws at one place of its data. -/
inductive Datum where
  | polygon (rings : List Ring)
  | point (position : Position)
  | path (path : Ring)
  deriving DecidableEq, Repr

/-- `list[0]`, of which a property is read. -/
def first (list : List α) : Except String α :=
  match list with
  | [] => .error "Cannot read properties of undefined"
  | a :: _ => .ok a

/-- The datum of a part, its vertices moved into the frame. -/
def datumOf (kind : GeometryKind) (toLocal : Position → Position) (rings : Part) :
    Except String Datum :=
  match kind with
  | .polygonal => pure (.polygon (rings.map (List.map toLocal)))
  | .point => do
    let ring ← first rings
    let p ← first ring
    pure (.point (toLocal p))
  | .line => do
    let ring ← first rings
    pure (.path (ring.map toLocal))

def DECKGL_PICK_INDEX_CEILING : Nat := 16777215

def checkPickCeiling (pickOrdinalCount : Nat) : Except String Unit :=
  if DECKGL_PICK_INDEX_CEILING < pickOrdinalCount then
    .error ("[P6 placeholder] batch has " ++ toString pickOrdinalCount ++
      " pick ordinals (polygon parts, line parts or points), above the declared " ++
      "24-bit picking ceiling of " ++ toString DECKGL_PICK_INDEX_CEILING ++
      " (ADR-010 rule 6) -- refused, not rendered")
  else .ok ()

/-- A layer that is pickable. -/
structure Layer where
  id : String
  data : List Datum
  deriving DecidableEq, Repr

def layerId (batch : ResidentBatch) : String :=
  batch.streamHandle ++ ":" ++ toString batch.batchSeq

/-- The pickable layer of a batch. -/
def pickableLayer (toLocal : Position → Position) (kind : GeometryKind) (batch : ResidentBatch) :
    Except String Layer := do
  checkPickCeiling batch.partCount
  let data ← batch.parts.flatten.mapM (datumOf kind toLocal)
  pure ⟨layerId batch, data⟩

/-- The pickable layers, one for each batch. -/
def buildLayers (batches : List ResidentBatch) (toLocal : Position → Position)
    (kind : GeometryKind) : Except String (List Layer) :=
  batches.mapM (pickableLayer toLocal kind)

/-! ### Picks -/

structure PickResult where
  streamHandle : String
  batchSeq : Nat
  id : UInt64
  anchor : Option Position
  deriving DecidableEq, Repr

/-- The first vertex of the exterior ring of the first part. -/
def anchorOf (featureParts : List Part) : Option Position := do
  let firstPart ← featureParts.head?
  let exterior ← firstPart.head?
  exterior.head?

/-- A number, as an index: nothing unless it is an integer. -/
abbrev Ordinal := Option Int

/-- The row of a datum. -/
def rowOf (batch : ResidentBatch) (gpuOrdinal : Ordinal) : Option Nat :=
  match gpuOrdinal with
  | none => none
  | some k => if k < 0 ∨ (batch.partCount : Int) ≤ k then none else batch.partToRow[k.toNat]?

def resolvePick (batch : ResidentBatch) (gpuOrdinal : Ordinal) : Option PickResult := do
  let row ← rowOf batch gpuOrdinal
  let id ← batch.ids[row]?
  let featureParts ← batch.parts[row]?
  pure ⟨batch.streamHandle, batch.batchSeq, id, anchorOf featureParts⟩

/-! ### The values of a row -/

inductive AttributeValue where
  | text (text : String)
  | integer (integer : Int)
  | float32 (number : F64)
  | float64 (number : F64)
  | boolean (boolean : Bool)
  | null
  deriving DecidableEq, Repr

structure AttributeCell where
  name : String
  value : AttributeValue
  deriving DecidableEq, Repr

def readCell (vector : Cells) (index : Nat) : Except DecodeError AttributeValue :=
  match vector with
  | .utf8 cells => .ok ((cells.getD index none).elim .null .text)
  | .bool cells => .ok ((cells.getD index none).elim .null .boolean)
  | .int cells => .ok ((cells.getD index none).elim .null .integer)
  | .float .single cells => .ok ((cells.getD index none).elim .null .float32)
  | .float .double cells => .ok ((cells.getD index none).elim .null .float64)
  | .float .half cells =>
    if (cells.getD index none).isNone then .ok .null
    else .error (.thrown "attribute column is not readable")
  | .nested cells =>
    if (cells.getD index none).isNone then .ok .null
    else .error (.thrown "attribute column is not readable")

/-- The value of a row under a name. -/
def readNamed (child : String → Option Column) (index : Nat) (name : String) :
    Except DecodeError AttributeCell :=
  match child name with
  | none => .error (.thrown "no such column")
  | some c => (readCell c.cells index).map fun value => ⟨name, value⟩

inductive AttributeRow where
  | unprojected
  | notHeld
  | cells (cells : List AttributeCell)
  deriving DecidableEq, Repr

/-- The row of the block that a row of the batch is read at. -/
def BatchAttributes.index (block : BatchAttributes) (row : Nat) : Option Nat :=
  match block.rows with
  | none => some row
  | some rows => rows[row]?

def readRow (ipc : Ipc) (attributes : Attributes) (row : Nat) : Except DecodeError AttributeRow :=
  match attributes with
  | .unprojected => .ok .unprojected
  | .notHeld => .ok .notHeld
  | .held block =>
    match ipc.tableFromIPC block.data with
    | .error text => .error (.thrown text)
    | .ok table =>
      match block.index row with
      | none => .error (.thrown "no such row")
      | some index => (block.names.mapM (readNamed table.getChild index)).map .cells

/-! ### The click -/

inductive ClickPick where
  | feature (pick : PickResult) (bounds : AuthoritativeBbox) (row : AttributeRow)
      (filter : Option Filter)
  | belowPickResolution
  | nothing
  deriving DecidableEq, Repr

/-- What a tap resolves to, of the batch and the ordinal picked at its pixel. -/
def resolveClickPick (ipc : Ipc) (candidate : Option (ResidentBatch × Ordinal))
    (belowPickResolutionNow : Bool) : Except DecodeError ClickPick :=
  match candidate with
  | none => .ok .nothing
  | some (batch, gpuOrdinal) =>
    if belowPickResolutionNow then .ok .belowPickResolution
    else
      match resolvePick batch gpuOrdinal, rowOf batch gpuOrdinal with
      | some pick, some row =>
        match extentOfBatch [batch.parts.getD row []] with
        | none => .ok .nothing
        | some bounds =>
          (readRow ipc batch.attributes row).map fun values =>
            .feature pick bounds values batch.filter
      | _, _ => .ok .nothing

/-! ### The attribute ceiling -/

def RESIDENT_ATTRIBUTE_MAX_BYTES : Nat := 268435456

def withinAttributeCeiling (batch : ResidentBatch) (heldBytes : Nat) : ResidentBatch :=
  match batch.attributes with
  | .held block =>
    if heldBytes + block.bytes ≤ RESIDENT_ATTRIBUTE_MAX_BYTES then batch
    else { batch with attributes := .notHeld }
  | _ => batch

end SpatialIde.Shell.Canvas
