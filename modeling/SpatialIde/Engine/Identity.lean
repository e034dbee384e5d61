import Mathlib.Data.List.Dedup
import Mathlib.Data.List.ReduceOption
import SpatialIde.Engine.Envelope

/-! # Stable feature identity

The column a file carries its identity in is its own `id`, or one the caller declares.
`admitIdentity` admits it by its type and then by one scan of the whole column: how many
rows and distinct values there are, and the extremes.  A file without such a column is
admitted under the ordinals of its rows.

The column is read again, value by value, by the stream (`columnU64`) and by the writer
of the levels of detail (`readIds`).
-/

namespace SpatialIde.Engine

open Lib

def NUL : Char := Char.ofNat 0

/-- A column of the schema; DuckDB's export may have reported another name for its position. -/
structure SchemaField extends Field where
  exportedName : Option String

/-- What a file opens as: its schema and its rows. -/
structure SourceFile where
  schema : List SchemaField
  rows : List (List Cell)

namespace SourceFile

/-- The first column of a name. -/
def column (s : SourceFile) (name : String) : Option ArrayRef :=
  match s.schema.zipIdx.find? fun f => f.1.name = name with
  | some (field, j) => some ⟨field.dataType, s.rows.map fun row => row.getD j none⟩
  | none => none

end SourceFile

/-! ### Names that no statement reaches -/

def renderVisibleEscape (name : String) : String := name.replace (String.singleton NUL) "\\u0000"

structure NotAddressableFact where
  bound : String
  exported : Option String
  nulOffset : Option Nat
  deriving DecidableEq, Repr

def NotAddressableFact.render (f : NotAddressableFact) : String :=
  match f.exported with
  | some exported =>
    s!"the resident name `{renderVisibleEscape f.bound}` is not addressable: DuckDB's Arrow " ++
      s!"export reports this position as `{renderVisibleEscape exported}`, a different name than " ++
      "the one DESCRIBE binds it by, so no SELECT list built from either name can be trusted to " ++
      "reach it"
  | none =>
    s!"the name `{renderVisibleEscape f.bound}` contains U+0000, and no SQL statement can address " ++
      "an identifier carrying it"

/-- The byte offset of the first U+0000. -/
def nulOffsetOf (name : String) : Option Nat :=
  if NUL ∈ name.toList then
    some ((name.toList.takeWhile (· ≠ NUL)).map Char.utf8Size).sum
  else none

def notAddressable (bound : String) (exported : Option String) : Option NotAddressableFact :=
  let nulOffset := nulOffsetOf bound
  let differs := exported.any (· ≠ bound)
  if nulOffset.isNone && !differs then none else some ⟨bound, exported, nulOffset⟩

def notAddressableForField (f : SchemaField) : Option NotAddressableFact :=
  notAddressable f.name f.exportedName

/-! ### The types -/

/-- The number in a slot of an integer type. -/
def DataType.numberIn (t : DataType) (bytes : List UInt8) : Int :=
  let unsigned (w : Nat) : Int := (BitVec.ofNat w (leValue bytes)).toNat
  let signed (w : Nat) : Int := (BitVec.ofNat w (leValue bytes)).toInt
  match t with
  | .uInt8 => unsigned 8
  | .uInt16 => unsigned 16
  | .uInt32 => unsigned 32
  | .uInt64 => unsigned 64
  | .int8 => signed 8
  | .int16 => signed 16
  | .int32 => signed 32
  | .int64 => signed 64
  | _ => 0

/-- The values of an integer column; a null slot is `none`. -/
def ArrayRef.numbers (a : ArrayRef) : List (Option Int) :=
  a.cells.map fun c => c.map a.dataType.numberIn

/-! ### What an admission records -/

inductive IdSource where
  | file
  /-- A column that somebody declared, and when. -/
  | mapped (column declaredBy declaredAt : String)
  | sessionOrdinal
  deriving DecidableEq, Repr

def FILE_ROW_NUMBER_COLUMN : String := "file_row_number"

def IdSource.sourceColumn : IdSource → String
  | .file => ID_COLUMN
  | .mapped column _ _ => column
  | .sessionOrdinal => FILE_ROW_NUMBER_COLUMN

inductive IdUniqueness where
  | verifiedAtOpenFullFile
  | declaredNotVerified
  | byConstructionWithinGeneration
  deriving DecidableEq, Repr

structure IdentityDeclaration where
  column : String
  declaredBy : String
  declaredAt : String
  skipUniquenessCheck : Bool
  deriving DecidableEq, Repr

structure DatasetIdentity where
  source : IdSource
  uniqueness : IdUniqueness
  verifiedRows : Option Nat
  maxValue : Option Nat
  candidateColumns : List String
  deriving DecidableEq, Repr

/-- From here on an integer may not be exact as a JavaScript number. -/
def JS_EXACT_INTEGER_LIMIT : Nat := 2 ^ 53

namespace DatasetIdentity

def new (source : IdSource) (uniqueness : IdUniqueness) (verifiedRows maxValue : Option Nat) :
    DatasetIdentity :=
  ⟨source, uniqueness, verifiedRows, maxValue, []⟩

def jsExact (i : DatasetIdentity) : Option Bool := i.maxValue.map (· < JS_EXACT_INTEGER_LIMIT)

end DatasetIdentity

/-! ### The scan -/

/-- A number as `u64`. -/
def u64Of (v : Int) : Option Int := if 0 ≤ v ∧ v < 2 ^ 64 then some v else none

/-- `row.get` of a nullable column; the outer `none` is a number that does not fit. -/
def fits (convert : Int → Option Int) : Option Int → Option (Option Int)
  | none => some none
  | some v => (convert v).map some

inductive IdType where
  | u64
  | i64
  deriving DecidableEq, Repr

/-- The type `write_tier` reads the identity at. -/
def idTypeOf (K : Kernels) (idColumn : String) : DataType → Except EngineError IdType
  | .uInt64 => .ok .u64
  | .int64 => .ok .i64
  | other => .error (.source
      (s!"internal inconsistency: identity column `{idColumn}` is {K.display other} in the file, " ++
        "but this dataset was admitted with it as feature identity"))

/-- `read_ids`, which does not ask whether a slot is null. -/
def readIds (batch : RecordBatch) (idColumn : String) (idType : IdType) :
    Except EngineError (List UInt64) :=
  match batch.columnByName idColumn with
  | none => .error (.source s!"identity column in a batch: no field named `{idColumn}`")
  | some column =>
    match idType with
    | .u64 =>
      match column.dataType with
      | .uInt64 => .ok (column.cells.map fun c => UInt64.ofNat (leValue (bytesIn c)))
      | _ => .error (.source "identity column is not UInt64")
    | .i64 =>
      match column.dataType with
      | .int64 => column.cells.mapM fun c =>
          let v := (BitVec.ofNat 64 (leValue (bytesIn c))).toInt
          if v < 0 then
            .error (.source (s!"identity value {v} is negative; ADR-016 admission should have " ++
              "refused this dataset"))
          else .ok (UInt64.ofNat v.toNat)
      | _ => .error (.source "identity column is not Int64")

/-- The identities `write_tier` takes from the batches of a file. -/
def tierIds (K : Kernels) (idColumn : String) (dataType : DataType) (batches : List RecordBatch) :
    Except EngineError (List (List UInt64)) := do
  let idType ← idTypeOf K idColumn dataType
  batches.mapM fun batch => readIds batch idColumn idType

end SpatialIde.Engine
