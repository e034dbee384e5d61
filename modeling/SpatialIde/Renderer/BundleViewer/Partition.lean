import SpatialIde.Lib.Except
import SpatialIde.Lib.Reads

/-! # A partition of a bundle

`decodePartition` takes a partition apart and checks that it is what the manifest and the envelope
say it is: the envelope, the shape of the geometry, the row count, every offset against the array it
indexes, the declared attributes.  Behind the checks it walks the geometry once, for the bounds of
each feature.

A read outside its array is none here, where JavaScript reads `undefined`; the checks themselves
compare such a read, and fail.
-/

namespace SpatialIde.Renderer.BundleViewer

open Lib

def EXPECTED_FRAME : String := "authoritative-project-crs"

def EXPECTED_ENCODING : String := "geoarrow.polygon"

def EXPECTED_AXIS_ORDER : String := "easting,northing"

/-- The numbers of the coordinates, with what the viewer computes with them. -/
structure Numbers (R : Type) where
  lt : R → R → Bool
  add : R → R → R
  sub : R → R → R
  mul : R → R → R
  div : R → R → R
  ofNat : Nat → R
  posInf : R
  negInf : R

/-! ### Tables -/

/-- An entry of a typed array. -/
inductive Entry (R : Type) where
  | double (x : R)
  | bigint (n : Nat)
  | integer (n : Int)
  deriving DecidableEq, Repr

/-- A typed array. -/
inductive Values (R : Type) where
  | float64 (xs : List R)
  | bigUint64 (xs : List Nat)
  | integers (xs : List Int)

def Values.entries {R : Type} : Values R → List (Entry R)
  | float64 xs => xs.map .double
  | bigUint64 xs => xs.map .bigint
  | integers xs => xs.map .integer

/-- The arrays of a column: its offsets, where they are an `Int32Array`, and its values. -/
inductive Data (R : Type) where
  | node (valueOffsets : Option (List Int)) (children : List (Data R)) (values : Option (Values R))

namespace Data

variable {R : Type}

def valueOffsets : Data R → Option (List Int)
  | node valueOffsets _ _ => valueOffsets

def children : Data R → List (Data R)
  | node _ children _ => children

def values : Data R → Option (Values R)
  | node _ _ values => values

end Data

/-- A cell of a column. -/
inductive Cell where
  | null
  | bigint (n : Int)
  | number (text : String)
  | boolean (b : Bool)
  | other (text : String)
  deriving DecidableEq, Repr

/-- The text of a cell, where a null is not an empty text. -/
def displayValue : Cell → Option String
  | .null => none
  | .bigint n => some (toString n)
  | .number text => some text
  | .boolean b => some (if b then "true" else "false")
  | .other text => some text

/-- `data[0]`, and the cell of a row, null behind the last one. -/
structure Column (R : Type) where
  data : Data R
  get : Nat → Cell

structure Table (R : Type) where
  metadata : List (String × String)
  columns : List (String × Column R)

def Table.getChild {R : Type} (table : Table R) (name : String) : Option (Column R) :=
  table.columns.lookup name

/-! ### Partitions -/

structure BundleFailure where
  state : String
  asset : String
  detail : String
  deriving DecidableEq, Repr

structure PartitionAsset where
  path : String
  rows : Nat
  deriving DecidableEq, Repr

structure Manifest where
  crsSource : String
  attributeColumns : List String
  deriving DecidableEq, Repr

structure AttributeColumn where
  name : String
  /-- One per feature, none for a null of the source. -/
  values : List (Option String)
  deriving DecidableEq, Repr

structure Partition (R : Type) where
  index : Nat
  path : String
  /-- The stable feature ids, in array order, where the data of the column holds any values. -/
  ids : Option (List (Entry R))
  /-- `x, y` of every vertex of every ring. -/
  coords : List R
  ringOffsets : List Int
  polygonOffsets : List Int
  features : Int
  /-- `xmin, ymin, xmax, ymax` of each feature. -/
  bboxes : List R
  groups : List Nat
  attributes : List AttributeColumn
  bytes : Nat

section

variable {R : Type} {α : Type}

def fail (state : String) (asset : PartitionAsset) (detail : String) : Except BundleFailure α :=
  .error ⟨state, asset.path, detail⟩

/-! ### Checks -/

def checkEnvelope (stringify : List String → String) (asset : PartitionAsset) (manifest : Manifest)
    (table : Table R) : Except BundleFailure Unit :=
  let envelope := fun key => (table.metadata.lookup key).getD ""
  let declared := stringify manifest.attributeColumns
  if envelope "frame" ≠ EXPECTED_FRAME then
    fail "envelope-frame-mismatch" asset ("envelope names frame \"" ++ envelope "frame" ++
      "\", expected \"" ++ EXPECTED_FRAME ++ "\". An untagged bulk buffer is in violation of " ++
      "ADR-010 rule 1 and is not drawn")
  else if envelope "crs" ≠ manifest.crsSource then
    fail "envelope-crs-mismatch" asset ("partition is in CRS \"" ++ envelope "crs" ++
      "\" but the manifest declares \"" ++ manifest.crsSource ++ "\". This viewer performs no " ++
      "reprojection")
  else if envelope "axis_order" ≠ EXPECTED_AXIS_ORDER then
    fail "envelope-axis-order-mismatch" asset ("axis order \"" ++ envelope "axis_order" ++
      "\", expected \"" ++ EXPECTED_AXIS_ORDER ++ "\"")
  else if envelope "geometry_encoding" ≠ EXPECTED_ENCODING then
    fail "envelope-encoding-mismatch" asset ("geometry encoding \"" ++
      envelope "geometry_encoding" ++ "\", expected \"" ++ EXPECTED_ENCODING ++ "\"")
  else if envelope "attribute_columns" ≠ declared then
    fail "envelope-attributes-mismatch" asset ("envelope declares attribute columns " ++
      envelope "attribute_columns" ++ ", the manifest declares " ++ declared)
  else .ok ()

/-- The id column and the geometry column, which is the second. -/
def idAndGeometry (asset : PartitionAsset) (table : Table R) :
    Except BundleFailure (Column R × Column R) :=
  match table.getChild "id", (table.columns[1]?).bind fun field => table.getChild field.1 with
  | some id, some geometry => .ok (id, geometry)
  | _, _ => fail "partition-decode-failed" asset "missing id or geometry column"

/-- The offsets of a level that is a list, and what it is a list of. -/
def listLevel (asset : PartitionAsset) (detail : String) (data : Data R) :
    Except BundleFailure (List Int × Data R) :=
  match data.valueOffsets, data.children[0]? with
  | some offsets, some child => .ok (offsets, child)
  | _, _ => fail "partition-decode-failed" asset detail

/-- The polygon offsets, the ring offsets and the coordinates. -/
def geometryOf (asset : PartitionAsset) (polys : Data R) :
    Except BundleFailure (List Int × List Int × List R) := do
  let (polygonOffsets, rings) ←
    listLevel asset "geometry column: the polygon level is not a list" polys
  let (ringOffsets, coordsFsl) ←
    listLevel asset "geometry column: the ring level is not a list" rings
  match (coordsFsl.children[0]?).bind Data.values with
  | some (.float64 coords) => .ok (polygonOffsets, ringOffsets, coords)
  | _ =>
    fail "partition-decode-failed" asset "geometry column: the coordinate values are not float64"

/-- `a <= b`, false for a read outside its array. -/
def atMost (a b : Option Int) : Bool :=
  match a, b with
  | some a, some b => a ≤ b
  | _, _ => false

def showOffset (a : Option Int) : String :=
  match a with
  | some a => toString a
  | none => "undefined"

def require (asset : PartitionAsset) (holds : Bool) (detail : String) : Except BundleFailure Unit :=
  if holds then .ok () else fail "partition-decode-failed" asset detail

/-- B1 to B4: every offset that the walk reads, against the array that it indexes. -/
def checkOffsets (asset : PartitionAsset) (polygonOffsets ringOffsets : List Int) (coords : List R)
    (features : Int) : Except BundleFailure Unit := do
  let ringCount : Int := ringOffsets.length - 1
  let pairCount : Int := coords.length / 2
  let polygon := readAt polygonOffsets
  require asset (atMost (some 0) (polygon 0))
    ("polygon offsets start at " ++ showOffset (polygon 0) ++ ", below 0")
  (range 0 features).forM fun f => require asset (atMost (polygon f) (polygon (f + 1)))
    ("polygon offsets decrease at feature " ++ toString f ++ ": " ++ showOffset (polygon f) ++
      " then " ++ showOffset (polygon (f + 1)))
  require asset (atMost (polygon features) (some ringCount))
    ("polygon offsets end at " ++ showOffset (polygon features) ++ ", past the ring count " ++
      toString ringCount)
  -- Both are there: they have just been compared.
  let r0 := (polygon 0).getD 0
  let r1 := (polygon features).getD 0
  let ring := readAt ringOffsets
  require asset (atMost (some 0) (ring r0))
    ("ring offsets start at " ++ showOffset (ring r0) ++ ", below 0")
  (range r0 r1).forM fun r => require asset (atMost (ring r) (ring (r + 1)))
    ("ring offsets decrease at ring " ++ toString r ++ ": " ++ showOffset (ring r) ++ " then " ++
      showOffset (ring (r + 1)))
  require asset (atMost (ring r1) (some pairCount))
    ("ring offsets end at " ++ showOffset (ring r1) ++ ", past the coordinate-pair count " ++
      toString pairCount)

/-- A declared attribute, with a text or a null for each feature. -/
def attributeOf (asset : PartitionAsset) (table : Table R) (features : Int) (name : String) :
    Except BundleFailure AttributeColumn :=
  match table.getChild name with
  | none => fail "attribute-schema-mismatch" asset ("the manifest declares attribute \"" ++ name ++
      "\" and the partition does not carry it")
  | some v => .ok ⟨name, (List.range features.toNat).map fun i => displayValue (v.get i)⟩

/-! ### The walk for the bounds -/

/-- The bounds of some vertices. -/
structure Box (R : Type) where
  xmin : R
  ymin : R
  xmax : R
  ymax : R

variable (N : Numbers R)

def Box.empty : Box R := ⟨N.posInf, N.posInf, N.negInf, N.negInf⟩

def Box.grow (box : Box R) (x y : R) : Box R where
  xmin := if N.lt x box.xmin then x else box.xmin
  ymin := if N.lt y box.ymin then y else box.ymin
  xmax := if N.lt box.xmax x then x else box.xmax
  ymax := if N.lt box.ymax y then y else box.ymax

def Box.entries (box : Box R) : List R := [box.xmin, box.ymin, box.xmax, box.ymax]

def boundsOf (polygonOffsets ringOffsets : List Int) (coords : List R) (f : Int) :
    Option (Box R) := do
  let first ← readAt polygonOffsets f
  let stop ← readAt polygonOffsets (f + 1)
  (range first stop).foldlM (fun box r => do
    let start ← readAt ringOffsets r
    let stop ← readAt ringOffsets (r + 1)
    (range start stop).foldlM (fun box v => do
      let x ← readAt coords (v * 2)
      let y ← readAt coords (v * 2 + 1)
      return box.grow N x y) box) (Box.empty N)

/-- The value that the style matches on, null where it matches on nothing. -/
def matchKey (matchValues : Option (List (Option String))) (f : Int) : Option (Option String) :=
  match matchValues with
  | none => some none
  | some values => readAt values f

/-! ### The whole of it -/

variable (tableFromIPC : List UInt8 → Except String (Table R)) (stringify : List String → String)

/-- `decodePartition`.  None is a read outside an array. -/
def decodePartition (asset : PartitionAsset) (index : Nat) (bytes : List UInt8) (manifest : Manifest)
    (groupFor : Option String → Nat) (matchColumn : Option String) :
    Panics BundleFailure (Partition R) := do
  let table ← .of (match tableFromIPC bytes with
    | .ok table => .ok table
    | .error e => fail "partition-decode-failed" asset e)
  .of (checkEnvelope stringify asset manifest table)
  let (id, geometry) ← .of (idAndGeometry asset table)
  let (polygonOffsets, ringOffsets, coords) ← .of (geometryOf asset geometry.data)
  let ids := id.data.values.map Values.entries
  let features : Int := polygonOffsets.length - 1
  .of (if features ≠ asset.rows then
      fail "partition-row-count-mismatch" asset ("the manifest lists " ++ toString asset.rows ++
        " rows and the partition decodes to " ++ toString features)
    else .ok ())
  .of (checkOffsets asset polygonOffsets ringOffsets coords features)
  let attributes ← .of (manifest.attributeColumns.mapM (attributeOf asset table features))
  let matchValues := matchColumn.bind fun name =>
    (attributes.find? fun a => a.name = name).map AttributeColumn.values
  let boxes ← .unwrap ((range 0 features).mapM (boundsOf N polygonOffsets ringOffsets coords))
  -- An entry of a `Uint8Array` each.
  let groups ← .unwrap ((range 0 features).mapM fun f => do
    return groupFor (← matchKey matchValues f) % 256)
  return {
    index, path := asset.path, ids, coords, ringOffsets, polygonOffsets, features
    bboxes := boxes.flatMap Box.entries
    groups, attributes
    bytes := bytes.length }

end

end SpatialIde.Renderer.BundleViewer
