import SpatialIde.Lib.Except
import SpatialIde.Lib.Json.Text
import SpatialIde.Lib.Owners
import SpatialIde.Shell.Canvas.Arrow

/-! # Decoding a batch

One pass over the rows of a table builds the ids, the parts of each feature and the row of each
part together.
-/

namespace SpatialIde.Shell.Canvas

open Lib

/-! ### Encodings -/

def EXPECTED_FRAME : String := "authoritative-project-crs"

def ENCODING_POLYGON : String := "geoarrow.polygon"
def ENCODING_MULTIPOLYGON : String := "geoarrow.multipolygon"
def ENCODING_POINT : String := "geoarrow.point"
def ENCODING_LINESTRING : String := "geoarrow.linestring"
def ENCODING_MULTILINESTRING : String := "geoarrow.multilinestring"

def ENCODINGS : List String :=
  [ENCODING_POLYGON, ENCODING_MULTIPOLYGON, ENCODING_POINT, ENCODING_LINESTRING,
    ENCODING_MULTILINESTRING]

/-- What an open draws. -/
inductive GeometryKind where
  | polygonal
  | point
  | line
  deriving DecidableEq, Repr

def geometryKindOf (encoding : String) : GeometryKind :=
  if encoding = ENCODING_POINT then .point
  else if encoding = ENCODING_LINESTRING ∨ encoding = ENCODING_MULTILINESTRING then .line
  else .polygonal

/-! ### Batches -/

abbrev Position := F64 × F64

abbrev Ring := List Position

/-- The rings of a polygon, the path of a line or the position of a point. -/
abbrev Part := List Ring

/-- The projected columns of a batch, copied out of its message. -/
structure BatchAttributes where
  names : List String
  data : List UInt8
  bytes : Nat
  /-- The source row of each kept row, once rows were dropped. -/
  rows : Option (List Nat)
  deriving DecidableEq, Repr

inductive Attributes where
  /-- The open projects no column. -/
  | unprojected
  | notHeld
  | held (block : BatchAttributes)
  deriving DecidableEq, Repr

structure Filter where
  predicate : String
  dialect : String
  deriving DecidableEq, Repr

structure ResidentBatch where
  streamHandle : String
  batchSeq : Nat
  ids : List UInt64
  parts : List (List Part)
  partToRow : List Nat
  partCount : Nat
  totalVertices : Nat
  attributes : Attributes
  filter : Option Filter
  deriving DecidableEq, Repr

def verticesOf (featureParts : List Part) : Nat :=
  (featureParts.map fun rings => (rings.map List.length).sum).sum

inductive DecodeError where
  | unexpectedFrame (frame : Option String)
  | unexpectedEncoding (batchEncoding : Option String) (expectedEncoding : String)
  | unexpectedProjection (expected : List String) (declared : Option String)
      (fieldNames : List String)
  | unreadableAttribute (name : String)
  | missingColumn (name : String)
  | nullId (row : Nat)
  /-- What the package or the language throws. -/
  | thrown (text : String)
  deriving DecidableEq, Repr

/-! ### The geometry of a row -/

namespace Nested

/-- `for (… of value)`. -/
def items : Nested → Except DecodeError (List Nested)
  | list items => .ok items
  | number _ => .error (.thrown "not iterable")

/-- `const [x, y] = Array.from(vertex)`, of a vertex that holds both. -/
def position : Nested → Except DecodeError Position
  | list (number x :: number y :: _) => .ok (x, y)
  | _ => .error (.thrown "not a vertex")

def ring (v : Nested) : Except DecodeError Ring := do (← v.items).mapM position

/-- The rings of a polygon. -/
def rings (v : Nested) : Except DecodeError Part := do (← v.items).mapM ring

/-- One part of one path. -/
def path (v : Nested) : Except DecodeError Part := do pure [← v.ring]

end Nested

/-- The values a geometry is a list of, or the geometry itself. -/
def sources (several : Bool) (geometry : Nested) : Except DecodeError (List Nested) :=
  if several then geometry.items else .ok [geometry]

/-- The parts of a geometry, by the encoding the schema names. -/
def featureParts (encoding : String) (geometry : Nested) : Except DecodeError (List Part) :=
  if encoding = ENCODING_POINT then do
    let p ← geometry.position
    pure [[[p]]]
  else if encoding = ENCODING_LINESTRING ∨ encoding = ENCODING_MULTILINESTRING then do
    let sourceLines ← sources (encoding = ENCODING_MULTILINESTRING) geometry
    sourceLines.mapM Nested.path
  else do
    let sourceParts ← sources (encoding = ENCODING_MULTIPOLYGON) geometry
    sourceParts.mapM Nested.rings

/-- The geometry of a row, `none` for a null. -/
def geometryAt (geomVector : Cells) (i : Nat) : Except DecodeError (Option Nested) :=
  match geomVector with
  | .nested cells => .ok (cells.getD i none)
  | cells => if cells.isNull i then .ok none else .error (.thrown "not iterable")

/-- The parts a row decodes to: none for a null geometry. -/
def rowParts (encoding : String) (geomVector : Cells) (i : Nat) :
    Except DecodeError (List Part) := do
  match ← geometryAt geomVector i with
  | none => pure []
  | some geometry => featureParts encoding geometry

/-- The id of a row, stored in 64 bits.  The engine declares the column an integer one. -/
def rowId (idVector : Cells) (i : Nat) : Except DecodeError UInt64 :=
  if idVector.isNull i then .error (.nullId i)
  else
    match idVector with
    | .int cells =>
      match cells.getD i none with
      | some n => .ok (UInt64.ofInt n)
      | none => .error (.nullId i)
    | _ => .error (.thrown "Cannot convert to a BigInt")

/-! ### The attribute columns -/

/-- Whether the engine emits the type of a column for a projected one. -/
def isReadableAttributeType : Cells → Bool
  | .utf8 _ => true
  | .bool _ => true
  | .int _ => true
  | .float precision _ => precision ≠ .half
  | .nested _ => false

/-- `JSON.parse`, when it gives an array of strings. -/
def parsedNames (declared : String) : Option (List String) := do
  let items ← (← Json.parse declared).asArray
  items.mapM Json.Value.asStr

def copyAttributes (ipc : Ipc) (table : Table) (geometryColumn : String)
    (projection : Option (List String)) : Except DecodeError Attributes :=
  let expected := projection.getD []
  let declared := table.metadata.lookup "attribute_columns"
  if declared.bind parsedNames ≠ some expected ∨
      table.fieldNames ≠ "id" :: geometryColumn :: expected then
    .error (.unexpectedProjection expected declared table.fieldNames)
  else
    match projection with
    | none => .ok .unprojected
    | some names =>
      match (table.columns.drop 2).find? fun c => !isReadableAttributeType c.cells with
      | some c => .error (.unreadableAttribute c.name)
      | none =>
        let data := ipc.tableToIPC (table.select names)
        .ok (.held ⟨names, data, data.length, none⟩)

/-! ### The pass -/

/-- What the pass has built. -/
structure Decoding where
  ids : List UInt64
  parts : List (List Part)
  partRows : List Nat
  totalVertices : Nat
  deriving DecidableEq, Repr

def decodeRow (encoding : String) (idVector geomVector : Cells) (d : Decoding) (i : Nat) :
    Except DecodeError Decoding := do
  let id ← rowId idVector i
  let parts ← rowParts encoding geomVector i
  pure ⟨d.ids ++ [id], d.parts ++ [parts], d.partRows ++ parts.map fun _ => i,
    d.totalVertices + verticesOf parts⟩

def decodeRows (encoding : String) (idVector geomVector : Cells) (n : Nat) :
    Except DecodeError Decoding :=
  (List.range n).foldlM (decodeRow encoding idVector geomVector) ⟨[], [], [], 0⟩

/-- The decode of a table the package has read. -/
def decodeTable (ipc : Ipc) (streamHandle : String) (batchSeq : Nat) (table : Table)
    (geometryColumn expectedEncoding : String) (projection : Option (List String))
    (filter : Option Filter) : Except DecodeError ResidentBatch := do
  let frame := table.metadata.lookup "frame"
  if frame ≠ some EXPECTED_FRAME then .error (.unexpectedFrame frame)
  else
    match table.metadata.lookup "geometry_encoding" with
    | none => .error (.unexpectedEncoding none expectedEncoding)
    | some encoding =>
      if encoding ∉ ENCODINGS ∨ encoding ≠ expectedEncoding then
        .error (.unexpectedEncoding (some encoding) expectedEncoding)
      else
        match table.getChild "id", table.getChild geometryColumn with
        | none, _ => .error (.missingColumn "id")
        | some _, none => .error (.missingColumn geometryColumn)
        | some idVector, some geomVector =>
          let attributes ← copyAttributes ipc table geometryColumn projection
          let d ← decodeRows encoding idVector.cells geomVector.cells table.numRows
          pure ⟨streamHandle, batchSeq, d.ids, d.parts, d.partRows, d.partRows.length,
            d.totalVertices, attributes, filter⟩

def decodeBatch (ipc : Ipc) (streamHandle : String) (batchSeq : Nat) (ipcBytes : List UInt8)
    (geometryColumn expectedEncoding : String) (projection : Option (List String))
    (filter : Option Filter) : Except DecodeError ResidentBatch :=
  match ipc.tableFromIPC ipcBytes with
  | .error text => .error (.thrown text)
  | .ok table =>
    decodeTable ipc streamHandle batchSeq table geometryColumn expectedEncoding projection filter

/-! ### What a decode gives -/

/-- The pass over the first `n` rows. -/
theorem decodeRows_eq {encoding : String} {idVector geomVector : Cells} {n : Nat} {d : Decoding}
    (h : decodeRows encoding idVector geomVector n = .ok d) :
    d.ids.length = n ∧ d.parts.length = n ∧ d.partRows = owners 0 d.parts ∧
      d.totalVertices = (d.parts.map verticesOf).sum ∧
      ∀ i < n, ∃ id parts, rowId idVector i = .ok id ∧ rowParts encoding geomVector i = .ok parts ∧
        d.ids[i]? = some id ∧ d.parts[i]? = some parts := by
  induction n generalizing d with
  | zero =>
    cases h
    exact ⟨rfl, rfl, rfl, rfl, nofun⟩
  | succ n ih =>
    rw [decodeRows, List.range_succ, List.foldlM_append] at h
    obtain ⟨d', hd', hlast⟩ := bind_eq_ok.1 h
    obtain ⟨hids, hparts, howners, htotal, hrows⟩ := ih hd'
    rw [List.foldlM_cons] at hlast
    obtain ⟨d'', hstep, hnil⟩ := bind_eq_ok.1 hlast
    cases hnil
    rw [decodeRow] at hstep
    obtain ⟨id, hid, hstep⟩ := bind_eq_ok.1 hstep
    obtain ⟨parts, hps, hstep⟩ := bind_eq_ok.1 hstep
    cases hstep
    refine ⟨by rw [List.length_append, hids]; rfl, by rw [List.length_append, hparts]; rfl, ?_,
      ?_, ?_⟩
    · rw [owners_append, ← howners, owners_cons, owners_nil, List.append_nil, Nat.zero_add, hparts,
        List.map_const']
    · rw [htotal, List.map_append, List.sum_append, List.map_cons, List.map_nil, List.sum_cons,
        List.sum_nil, Nat.add_zero]
    · intro i hi
      by_cases hlast : i = n
      · refine ⟨id, parts, hlast ▸ hid, hlast ▸ hps, ?_, ?_⟩
        · rw [hlast, ← hids]
          exact List.getElem?_concat_length
        · rw [hlast, ← hparts]
          exact List.getElem?_concat_length
      · have hlt : i < n := by omega
        obtain ⟨id', parts', hid', hps', hi', hp'⟩ := hrows i hlt
        refine ⟨id', parts', hid', hps', ?_, ?_⟩
        · rw [List.getElem?_append_left (by omega), hi']
        · rw [List.getElem?_append_left (by omega), hp']

/-- A decode that succeeds has built the batch by its pass. -/
theorem decodeTable_eq_ok {ipc : Ipc} {streamHandle : String} {batchSeq : Nat} {table : Table}
    {geometryColumn expectedEncoding : String} {projection : Option (List String)}
    {filter : Option Filter} {decoded : ResidentBatch}
    (h : decodeTable ipc streamHandle batchSeq table geometryColumn expectedEncoding projection
      filter = .ok decoded) :
    ∃ idVector geomVector attributes d, table.getChild "id" = some idVector ∧
      table.getChild geometryColumn = some geomVector ∧
      copyAttributes ipc table geometryColumn projection = .ok attributes ∧
      decodeRows expectedEncoding idVector.cells geomVector.cells table.numRows = .ok d ∧
      decoded = ⟨streamHandle, batchSeq, d.ids, d.parts, d.partRows, d.partRows.length,
        d.totalVertices, attributes, filter⟩ := by
  rw [decodeTable] at h
  split_ifs at h with hframe
  cases hencoding : table.metadata.lookup "geometry_encoding" with
  | none =>
    simp only [hencoding] at h
    cases h
  | some encoding =>
    simp only [hencoding] at h
    split_ifs at h with hexpected
    rw [not_or, not_not, not_not] at hexpected
    cases hid : table.getChild "id" with
    | none =>
      simp only [hid] at h
      cases h
    | some idVector =>
      cases hgeom : table.getChild geometryColumn with
      | none =>
        simp only [hid, hgeom] at h
        cases h
      | some geomVector =>
        simp only [hid, hgeom] at h
        obtain ⟨attributes, hcopy, h⟩ := bind_eq_ok.1 h
        obtain ⟨d, hrows, h⟩ := bind_eq_ok.1 h
        cases h
        exact ⟨idVector, geomVector, attributes, d, rfl, rfl, hcopy, hexpected.2 ▸ hrows, rfl⟩

end SpatialIde.Shell.Canvas

/-! ## The box of a batch -/

namespace SpatialIde.Shell.Canvas

open Lib

structure AuthoritativeBbox where
  xmin : F64
  ymin : F64
  xmax : F64
  ymax : F64
  deriving DecidableEq, Repr

/-- A box as it goes over the wire, each bound spelled out. -/
structure Bbox where
  xmin : String
  ymin : String
  xmax : String
  ymax : String
  deriving DecidableEq, Repr

/-- A box a vertex was added to. -/
def AuthoritativeBbox.add (b : AuthoritativeBbox) (p : Position) : AuthoritativeBbox :=
  { xmin := if p.1.lt b.xmin then p.1 else b.xmin
    xmax := if b.xmax.lt p.1 then p.1 else b.xmax
    ymin := if p.2.lt b.ymin then p.2 else b.ymin
    ymax := if b.ymax.lt p.2 then p.2 else b.ymax }

/-- Every vertex of every ring of every part. -/
def verticesIn (parts : List (List Part)) : List Position := parts.flatten.flatten.flatten

/-- The box over every vertex, if there is one. -/
def extentOfBatch (parts : List (List Part)) : Option AuthoritativeBbox :=
  match verticesIn parts with
  | [] => none
  | ps => some (ps.foldl AuthoritativeBbox.add ⟨.posInf, .posInf, .negInf, .negInf⟩)

end SpatialIde.Shell.Canvas
