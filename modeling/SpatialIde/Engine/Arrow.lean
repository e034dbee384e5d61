import SpatialIde.Engine.Types
import SpatialIde.Lib.Bytes

/-! # Arrow arrays and record batches

An array is its type and its logical values: offsets into shared buffers and
spare capacity are not visible in it, so a slice is the values it covers.  What
the Arrow crates compute is `Kernels`, a parameter; its fields after the
functions say what the engine relies on of them.
-/

namespace SpatialIde.Engine

open Lib

/-- The types a column can have here; the names of nested fields are left out. -/
inductive DataType where
  | boolean
  | int8
  | int16
  | int32
  | int64
  | uInt8
  | uInt16
  | uInt32
  | uInt64
  | float32
  | float64
  | utf8
  | largeUtf8
  | utf8View
  | binary
  | largeBinary
  | binaryView
  | fixedSizeList (item : DataType) (size : Nat)
  | list (item : DataType)
  | dictionary (key value : DataType)
  /-- Every type no arm of the engine names. -/
  | other (name : String)
  deriving DecidableEq, Repr

/-- The bytes of one value; `none` is a null slot. -/
abbrev Cell := Option (List UInt8)

/-- The bytes of a slot that is not null. -/
def bytesIn (c : Cell) : List UInt8 := c.getD []

structure ArrayRef where
  dataType : DataType
  cells : List Cell
  deriving DecidableEq, Repr

namespace ArrayRef

def len (a : ArrayRef) : Nat := a.cells.length

def cell (a : ArrayRef) (row : Nat) : Cell := a.cells.getD row none

def nullCount (a : ArrayRef) : Nat := a.cells.count none

def slice (a : ArrayRef) (offset length : Nat) : ArrayRef :=
  ⟨a.dataType, (a.cells.drop offset).take length⟩

/-- The bytes all values take together. -/
def valueBytes (a : ArrayRef) : Nat := (a.cells.map fun c => (bytesIn c).length).sum

end ArrayRef

structure Field where
  name : String
  dataType : DataType
  deriving DecidableEq, Repr

/-- One result chunk: a table whose rows all have the width of its schema. -/
structure RecordBatch where
  schema : List Field
  rows : List (List Cell)
  width : ∀ row ∈ rows, row.length = schema.length

namespace RecordBatch

def numRows (c : RecordBatch) : Nat := c.rows.length

/-- The column at a position of the schema. -/
def column (c : RecordBatch) (field : Field) (j : Nat) : ArrayRef :=
  ⟨field.dataType, c.rows.map fun row => row.getD j none⟩

def columnByName (c : RecordBatch) (name : String) : Option ArrayRef :=
  match c.schema.zipIdx.find? fun f => f.1.name = name with
  | some (field, j) => some (c.column field j)
  | none => none

end RecordBatch

/-- The types `admit_attribute_type` emits. -/
def DataType.admitted : DataType → Bool
  | .utf8 | .largeUtf8 | .utf8View | .boolean | .int8 | .int16 | .int32 | .int64 | .uInt8 | .uInt16
  | .uInt32 | .uInt64 | .float64 | .float32 => true
  | _ => false

/-- The Arrow kernels the engine calls, and what it relies on of each. -/
structure Kernels where
  /-- A type as `Display` writes it. -/
  display : DataType → String
  /-- `cast`, which is elementwise and refuses a pair of types, never a value. -/
  cast : DataType → DataType → Except String (Cell → Cell)
  fixedSizeListTryNew : (size values : Nat) → Except String Unit
  listTryNew : (offsets : List Int32) → (values : Nat) → Except String Unit
  concat : List ArrayRef → Except String ArrayRef
  sliceMemorySize : ArrayRef → Except String Nat
  /-- The field types of the schema, and the type and length of each column. -/
  recordBatchTryNew : List DataType → List (DataType × Nat) → Except String Unit
  fixedSizeListTryNew_ok : ∀ size values, values % size = 0 →
    fixedSizeListTryNew size values = .ok ()
  listTryNew_ok : ∀ (offsets : List Int32) (values : Nat) (last : Int32),
    offsets.getLast? = some last → last.toInt ≤ (values : Int) →
    listTryNew offsets values = .ok ()
  /-- Nonempty, of one type, and within what the 32-bit offsets of `Utf8` can address. -/
  concat_ok : ∀ (arrays : List ArrayRef) (t : DataType), arrays ≠ [] →
    (∀ a ∈ arrays, a.dataType = t) →
    (t = .utf8 → (arrays.map ArrayRef.valueBytes).sum < 2 ^ 31) →
    concat arrays = .ok ⟨t, arrays.flatMap ArrayRef.cells⟩
  sliceMemorySize_ok : ∀ a, a.dataType.admitted = true → ∃ n, sliceMemorySize a = .ok n
  recordBatchTryNew_ok : ∀ (columns : List (DataType × Nat)) (rows : Nat),
    (∀ c ∈ columns, c.2 = rows) → recordBatchTryNew (columns.map Prod.fst) columns = .ok ()

/-- Kernels that compute on the logical values, with the messages cut short. -/
def Kernels.logical : Kernels where
  display
    | .utf8 => "Utf8"
    | .int64 => "Int64"
    | .uInt64 => "UInt64"
    | .float64 => "Float64"
    | .binary => "Binary"
    | t => reprStr t
  cast source target :=
    match source with
    | .dictionary _ value => if value = target then .ok id else .error "unsupported cast"
    | _ => if source = target then .ok id else .error "unsupported cast"
  fixedSizeListTryNew size values :=
    if values % size = 0 then .ok () else .error "incorrect length of values"
  listTryNew offsets values :=
    match offsets.getLast? with
    | some last => if last.toInt ≤ (values : Int) then .ok () else .error "max offset exceeds length"
    | none => .error "no offsets"
  concat arrays :=
    match arrays with
    | [] => .error "concat requires input of at least one array"
    | a :: as =>
      if ∀ b ∈ as, b.dataType = a.dataType then
        .ok ⟨a.dataType, (a :: as).flatMap ArrayRef.cells⟩
      else .error "it is not possible to concatenate arrays of different data types"
  sliceMemorySize a := .ok a.valueBytes
  recordBatchTryNew types columns :=
    if types = columns.map Prod.fst ∧ ∀ c ∈ columns, ∀ d ∈ columns, c.2 = d.2 then .ok ()
    else .error "columns do not match the schema"
  fixedSizeListTryNew_ok _ _ h := if_pos h
  listTryNew_ok _ _ _ h hle := by
    simp only [h]
    exact if_pos hle
  concat_ok arrays t hne htypes _ := by
    cases arrays with
    | nil => exact absurd rfl hne
    | cons a as =>
      have ha := htypes a List.mem_cons_self
      have hall : ∀ b ∈ as, b.dataType = a.dataType := fun b hb => by
        rw [ha, htypes b (List.mem_cons_of_mem _ hb)]
      show (if _ then _ else _) = _
      rw [if_pos hall, ha]
  sliceMemorySize_ok a _ := ⟨_, rfl⟩
  recordBatchTryNew_ok columns rows h := by
    refine if_pos ⟨rfl, fun c hc d hd => ?_⟩
    rw [h c hc, h d hd]

variable (K : Kernels)

/-- `column_u64`: nulls are refused before a value is read. -/
def columnU64 (chunk : RecordBatch) (name : String) : Except EngineError (List UInt64) :=
  match chunk.columnByName name with
  | none => .error (.query s!"result has no `{name}` column")
  | some col =>
    if 0 < col.nullCount then
      .error (.query (s!"`{name}` holds {col.nullCount} null value(s); every feature must carry " ++
        "a stable identity"))
    else match col.dataType with
      | .uInt64 => .ok (col.cells.map fun c => UInt64.ofNat (leValue (bytesIn c)))
      | .int64 => col.cells.mapM fun c =>
          let v := (BitVec.ofNat 64 (leValue (bytesIn c))).toInt
          if v < 0 then .error (.query s!"`{name}` holds a negative value: {v}")
          else .ok (UInt64.ofNat v.toNat)
      | t => .error (.query s!"`{name}` is {K.display t}; expected a 64-bit integer")

/-- `binary_value`. -/
def binaryValue (col : ArrayRef) (row : Nat) : Except EngineError (List UInt8) :=
  match col.cell row with
  | none => .error (.wkb s!"row {row} has a null geometry")
  | some bytes =>
    match col.dataType with
    | .binary | .largeBinary | .binaryView => .ok bytes
    | t => .error (.query s!"geometry column is {K.display t}; expected binary")

/-- `decode_dictionary_chunk_column`: a dictionary-encoded column is decoded to the declared
type. -/
def decodeDictionaryChunkColumn (col : ArrayRef) (declared : DataType) :
    Except EngineError ArrayRef :=
  match col.dataType with
  | .dictionary _ _ =>
    match K.cast col.dataType declared with
    | .error e => .error (.arrow s!"dictionary decode: {e}")
    | .ok f => .ok ⟨declared, col.cells.map f⟩
  | _ => .ok col

end SpatialIde.Engine
