import SpatialIde.Engine.Arrow
import SpatialIde.Engine.Wkb.Layout

/-! # GeoArrow arrays and tagged batches

A finished builder becomes an array level by level, each offsets buffer checked
rather than asserted; a batch is assembled against the envelope of its open, so
that what the envelope claims is checked on every batch.

`finish_ok` and `assemble_ok` say that neither check fails on what the producer
builds.
-/

namespace SpatialIde.Engine

open Lib Wkb

variable (K : Kernels)

/-! ### Arrays -/

/-- `checked_offsets`. -/
def checkedOffsets (v : List Int32) (what : String) : Except EngineError Unit :=
  match v with
  | [] => .error (.arrow s!"{what}: buffer is empty")
  | first :: _ =>
    if first ≠ 0 then .error (.arrow s!"{what}: start at {first}, not 0")
    else match (v.zip v.tail).find? fun w => w.2 < w.1 with
      | some w => .error (.arrow s!"{what}: not monotonically increasing ({w.1} then {w.2})")
      | none => .ok ()

/-- The interleaved coordinates of a builder as pairs; the number of pairs. -/
def coordinateArray (coords : List F64) (level : String) : Except EngineError Nat :=
  if coords.length % 2 ≠ 0 then
    .error (.arrow s!"coordinate buffer has odd length {coords.length}")
  else match K.fixedSizeListTryNew 2 coords.length with
    | .error e => .error (.arrow s!"{level}: {e}")
    | .ok () => .ok (coords.length / 2)

/-- One list level over `values` items; the number of lists. -/
def listArray (offsets : List Int32) (what level : String) (values : Nat) :
    Except EngineError Nat := do
  checkedOffsets offsets what
  match K.listTryNew offsets values with
  | .error e => .error (.arrow s!"{level}: {e}")
  | .ok () => .ok (offsets.length - 1)

/-- A GeoArrow array, as the buffers it was made of. -/
structure GeometryArray where
  buffers : GeometryBuilder
  /-- The number of geometries. -/
  len : Nat
  deriving DecidableEq, Repr

/-- `GeometryBuilder::finish`, the five `build_*_array`s. -/
def finish (b : GeometryBuilder) : Except EngineError GeometryArray := do
  match b with
  | .polygon p =>
    let coords ← coordinateArray K p.coords "coordinates"
    let rings ← listArray K p.ringOffsets "ring offsets" "rings" coords
    return ⟨b, ← listArray K p.geomOffsets "geometry offsets" "polygons" rings⟩
  | .multiPolygon p =>
    let coords ← coordinateArray K p.coords "coordinates"
    let rings ← listArray K p.ringOffsets "ring offsets" "rings" coords
    let polygons ← listArray K p.partOffsets "part offsets" "polygons" rings
    return ⟨b, ← listArray K p.geomOffsets "geometry offsets" "multipolygons" polygons⟩
  | .point p =>
    return ⟨b, ← coordinateArray K p.coords "points"⟩
  | .lineString p =>
    let coords ← coordinateArray K p.coords "coordinates"
    return ⟨b, ← listArray K p.geomOffsets "geometry offsets" "linestrings" coords⟩
  | .multiLineString p =>
    let coords ← coordinateArray K p.coords "coordinates"
    let parts ← listArray K p.partOffsets "part offsets" "linestrings" coords
    return ⟨b, ← listArray K p.geomOffsets "geometry offsets" "multilinestrings" parts⟩

/-- The storage type a column of the encoding must have. -/
def storageType : GeometryEncoding → DataType
  | .polygon => .list (.list (.fixedSizeList .float64 2))
  | .multiPolygon => .list (.list (.list (.fixedSizeList .float64 2)))
  | .point => .fixedSizeList .float64 2
  | .lineString => .list (.fixedSizeList .float64 2)
  | .multiLineString => .list (.list (.fixedSizeList .float64 2))

/-- `describe_nesting`, to any depth. -/
def describeNesting : DataType → String
  | .list item => s!"List<{describeNesting item}>"
  | .fixedSizeList item n => s!"FixedSizeList<{K.display item}>[{n}]"
  | t => K.display t

/-- The description `validate_polygon_encoding` has of its own. -/
def describePolygon : DataType → String
  | .list (.list (.fixedSizeList item n)) => s!"List<List<FixedSizeList<{K.display item}>[{n}]>>"
  | .list (.list t) => s!"List<List<{K.display t}>>"
  | .list t => s!"List<{K.display t}>"
  | t => K.display t

def extName : GeometryEncoding → String
  | .polygon => EXT_NAME_POLYGON
  | .multiPolygon => EXT_NAME_MULTIPOLYGON
  | .point => EXT_NAME_POINT
  | .lineString => EXT_NAME_LINESTRING
  | .multiLineString => EXT_NAME_MULTILINESTRING

/-- `validate_encoding`: the structure of the array against the encoding the open claims. -/
def validateEncoding (array : GeometryArray) (encoding : GeometryEncoding) :
    Except EngineError Unit :=
  let found := storageType array.buffers.encoding
  let want := storageType encoding
  if found = want then .ok ()
  else
    let describe := if encoding = .polygon then describePolygon K else describeNesting K
    .error (.encodingMismatch s!"{extName encoding} as {describe want}" (describe found))

/-! ### Batches -/

def ID_COLUMN : String := "id"

/-- What every batch of an open claims.  The projected attributes were admitted, so their types are
those `admit_attribute_type` emits. -/
structure BatchEnvelope where
  encoding : GeometryEncoding
  attributes : List Field
  admitted : ∀ f ∈ attributes, f.dataType.admitted = true

/-- A batch that is tagged by construction. -/
structure TaggedBatch where
  ids : List UInt64
  geometry : GeometryArray
  attributes : List ArrayRef
  deriving DecidableEq, Repr

/-- One declared attribute against the array handed in for it. -/
def checkAttribute (rows : Nat) (field : Field) (array : ArrayRef) : Except EngineError Unit :=
  if field.dataType ≠ array.dataType then
    .error (.encodingMismatch s!"attribute `{field.name}` is {K.display field.dataType}"
      (K.display array.dataType))
  else if array.len ≠ rows then
    .error (.encodingMismatch s!"attribute `{field.name}` has {rows} row(s)" s!"{array.len} row(s)")
  else .ok ()

/-- `TaggedBatch::assemble`, the one way to make a batch. -/
def assemble (env : BatchEnvelope) (ids : List UInt64) (geometry : GeometryArray)
    (attributes : List ArrayRef) : Except EngineError TaggedBatch := do
  validateEncoding K geometry env.encoding
  if attributes.length ≠ env.attributes.length then
    throw (.encodingMismatch s!"{env.attributes.length} declared attribute column(s)"
      s!"{attributes.length} array(s)")
  (env.attributes.zip attributes).forM fun fa => checkAttribute K ids.length fa.1 fa.2
  match K.recordBatchTryNew
      (.uInt64 :: storageType env.encoding :: env.attributes.map Field.dataType)
      ((.uInt64, ids.length) :: (storageType geometry.buffers.encoding, geometry.len) ::
        attributes.map fun a => (a.dataType, a.len)) with
  | .error e => throw (.arrow s!"record batch: {e}")
  | .ok () => return ⟨ids, geometry, attributes⟩

/-! ### What the producer builds passes every check -/

variable {K}

theorem coordinateArray_ok {coords : List F64} (h : coords.length % 2 = 0) (level : String) :
    coordinateArray K coords level = .ok (coords.length / 2) := by
  unfold coordinateArray
  rw [if_neg (by omega), K.fixedSizeListTryNew_ok _ _ h]

theorem checkedOffsets_ok {os : List Int32} {n : Nat} (h : IsOffsetBuffer os n) (what : String) :
    checkedOffsets os what = .ok () := by
  have hmono : (os.zip os.tail).find? (fun w => w.2 < w.1) = none := by
    rw [List.find?_eq_none]
    intro w hw
    have hpair := pairwise_zip_tail (List.pairwise_map.1 h.cuts.mono) w hw
    have h₁ := h.nonneg w.1 (List.of_mem_zip hw).1
    have h₂ := h.nonneg w.2 (List.mem_of_mem_tail (List.of_mem_zip hw).2)
    rw [decide_eq_true_eq, Int32.lt_iff_toInt_lt]
    omega
  cases os with
  | nil => exact absurd h.cuts.head (by simp [offsetValues])
  | cons first os =>
    have hfirst : first = 0 := by
      have hhead := h.cuts.head
      have hnn := h.nonneg first List.mem_cons_self
      simp only [offsetValues, List.map_cons, List.head?_cons, Option.some.injEq] at hhead
      exact Int32.toInt_inj.1 (by rw [Int32.toInt_zero]; omega)
    subst hfirst
    unfold checkedOffsets
    simp only [ne_eq, not_true, if_false, hmono]

theorem listArray_ok {os : List Int32} {n : Nat} (h : IsOffsetBuffer os n) (what level : String) :
    listArray K os what level n = .ok (os.length - 1) := by
  obtain ⟨last, hlast, hval⟩ : ∃ last, os.getLast? = some last ∧ last.toInt.toNat = n := by
    have := h.cuts.last
    rwa [offsetValues, List.getLast?_map, Option.map_eq_some_iff] at this
  have hle : last.toInt ≤ (n : Int) := by
    have := h.nonneg last (List.mem_of_getLast? hlast)
    omega
  unfold listArray
  rw [checkedOffsets_ok h, K.listTryNew_ok os n last hlast hle]
  rfl

/-- The number of geometries a builder's outermost level counts. -/
def lenOf : GeometryBuilder → Nat
  | .polygon b => b.geomOffsets.length - 1
  | .multiPolygon b => b.geomOffsets.length - 1
  | .point b => b.coords.length / 2
  | .lineString b => b.geomOffsets.length - 1
  | .multiLineString b => b.geomOffsets.length - 1

/-- **A well-formed builder finishes.** -/
theorem finish_ok {b : GeometryBuilder} (h : b.WellFormed) : finish K b = .ok ⟨b, lenOf b⟩ := by
  cases b with
  | polygon b =>
    simp only [finish, coordinateArray_ok h.paired]
    show (listArray K b.ringOffsets _ _ b.vertices >>= fun rings => _) = _
    rw [listArray_ok h.rings]
    show (listArray K b.geomOffsets _ _ _ >>= fun n => _) = _
    rw [listArray_ok h.geoms]
    rfl
  | multiPolygon b =>
    simp only [finish, coordinateArray_ok h.paired]
    show (listArray K b.ringOffsets _ _ b.vertices >>= fun rings => _) = _
    rw [listArray_ok h.rings]
    show (listArray K b.partOffsets _ _ _ >>= fun polygons => _) = _
    rw [listArray_ok h.parts]
    show (listArray K b.geomOffsets _ _ _ >>= fun n => _) = _
    rw [listArray_ok h.geoms]
    rfl
  | point b =>
    simp only [finish, coordinateArray_ok h.paired]
    rfl
  | lineString b =>
    simp only [finish, coordinateArray_ok h.paired]
    show (listArray K b.geomOffsets _ _ b.vertices >>= fun n => _) = _
    rw [listArray_ok h.geoms]
    rfl
  | multiLineString b =>
    simp only [finish, coordinateArray_ok h.paired]
    show (listArray K b.partOffsets _ _ b.vertices >>= fun parts => _) = _
    rw [listArray_ok h.parts]
    show (listArray K b.geomOffsets _ _ _ >>= fun n => _) = _
    rw [listArray_ok h.geoms]
    rfl

theorem length_geometries {b : GeometryBuilder} (h : b.WellFormed) :
    b.geometries.length = lenOf b := by
  cases b with
  | polygon b => rw [GeometryBuilder.geometries, List.length_map]; exact length_items _ _
  | multiPolygon b => rw [GeometryBuilder.geometries, List.length_map]; exact length_items _ _
  | point b =>
    rw [GeometryBuilder.geometries, List.length_map]
    exact length_positionsOf h.paired
  | lineString b => rw [GeometryBuilder.geometries, List.length_map]; exact length_items _ _
  | multiLineString b => rw [GeometryBuilder.geometries, List.length_map]; exact length_items _ _

theorem checkAttributes_ok {rows : Nat} : ∀ {fields : List Field} {attributes : List ArrayRef},
    List.Forall₂ (fun f a => f.dataType = a.dataType ∧ a.len = rows) fields attributes →
    (fields.zip attributes).forM (fun fa => checkAttribute K rows fa.1 fa.2) = .ok () := by
  intro fields attributes h
  induction h with
  | nil => rfl
  | @cons f a fs as hfa _ ih =>
    show (checkAttribute K rows f a >>= fun _ =>
      (fs.zip as).forM fun fa => checkAttribute K rows fa.1 fa.2) = _
    rw [checkAttribute, if_neg (not_not.2 hfa.1), if_neg (not_not.2 hfa.2)]
    exact ih

theorem columns_of_attributes {rows : Nat} {fields : List Field} {attributes : List ArrayRef}
    (h : List.Forall₂ (fun f a => f.dataType = a.dataType ∧ a.len = rows) fields attributes) :
    attributes.map ArrayRef.dataType = fields.map Field.dataType ∧
      ∀ a ∈ attributes, a.len = rows := by
  induction h with
  | nil => simp
  | cons hfa _ ih =>
    refine ⟨?_, ?_⟩
    · rw [List.map_cons, List.map_cons, hfa.1, ih.1]
    · intro a ha
      rcases List.mem_cons.1 ha with rfl | ha
      · exact hfa.2
      · exact ih.2 a ha

/-- **A batch whose columns have the declared types and one length is assembled.** -/
theorem assemble_ok {env : BatchEnvelope} {ids : List UInt64} {geometry : GeometryArray}
    {attributes : List ArrayRef} (henc : geometry.buffers.encoding = env.encoding)
    (hlen : geometry.len = ids.length)
    (hattrs : List.Forall₂ (fun f a => f.dataType = a.dataType ∧ a.len = ids.length)
      env.attributes attributes) :
    assemble K env ids geometry attributes = .ok ⟨ids, geometry, attributes⟩ := by
  have hvalid : validateEncoding K geometry env.encoding = .ok () := by
    unfold validateEncoding
    rw [henc]
    exact if_pos rfl
  obtain ⟨hfields, hrows⟩ := columns_of_attributes hattrs
  have htypes : ((DataType.uInt64, ids.length) :: (storageType geometry.buffers.encoding,
      geometry.len) :: attributes.map fun a => (a.dataType, a.len)).map Prod.fst =
      .uInt64 :: storageType env.encoding :: env.attributes.map Field.dataType := by
    rw [List.map_cons, List.map_cons, henc, List.map_map, ← hfields]
    rfl
  have hlens : ∀ c ∈ (DataType.uInt64, ids.length) :: (storageType geometry.buffers.encoding,
      geometry.len) :: attributes.map (fun a => (a.dataType, a.len)), c.2 = ids.length := by
    intro c hc
    simp only [List.mem_cons, List.mem_map] at hc
    rcases hc with rfl | rfl | ⟨a, ha, rfl⟩
    · rfl
    · exact hlen
    · exact hrows a ha
  unfold assemble
  rw [hvalid, ← htypes, K.recordBatchTryNew_ok _ _ hlens]
  show (do
    if attributes.length ≠ env.attributes.length then throw _
    (env.attributes.zip attributes).forM fun fa => checkAttribute K ids.length fa.1 fa.2
    _ : Except EngineError TaggedBatch) = _
  rw [if_neg (not_not.2 hattrs.length_eq.symm), checkAttributes_ok hattrs]
  rfl

end SpatialIde.Engine
