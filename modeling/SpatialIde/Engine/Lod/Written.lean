import SpatialIde.Engine.Identity
import SpatialIde.Engine.Stream.Columns
import SpatialIde.Lib.Extremes
import SpatialIde.Lib.Stop

/-! # The rows of a tier

`write_tier` reads a source batch by batch, simplifies each row's polygon and writes what it has, in
the order of the source.  A batch may be cut into slices, one for each worker, whose rows are put
together in the order of the slices: the tier is the same for every number of workers, and so is the
error, but for a panic, which unwinds the caller where there is one worker and is an error where there
are more (`writeTier_workers`).  The ids are read without a look at what is null, so a tier holds the
ids of its source where no id is null.
-/

namespace SpatialIde.Engine.Tier

open Lib

/-! ### Geometries -/

structure Coord where
  x : F64
  y : F64
  deriving DecidableEq, Repr

structure Polygon where
  exterior : List Coord
  interiors : List (List Coord)
  deriving DecidableEq, Repr

inductive Geometry where
  | polygon (p : Polygon)
  /-- Any other geometry, by its name. -/
  | other (typeName : String)

/-- What the geometry crates compute, and how a double is written.  Each may panic; those that do not
fail have then no value. -/
structure GeoLib where
  /-- `read_wkb` and `try_to_geometry`, which has none for an empty geometry. -/
  readWkb : List UInt8 → Except (Stop String) (Option Geometry)
  simplifyVwPreserve : Polygon → F64 → Option Polygon
  isValid : Polygon → Option Bool
  validationErrors : Polygon → Option (List String)
  writePolygon : Polygon → Except (Stop String) (List UInt8)
  display : F64 → String
  /-- No geometry is without a header. -/
  readWkb_nil : ∃ e, readWkb [] = .error e

def ringVertices (p : Polygon) : Nat := p.interiors.foldl (fun n ring => n + ring.length) p.exterior.length

def takeCoord (b : Bbox F64) (c : Coord) : Bbox F64 :=
  ⟨F64.min b.xmin c.x, F64.min b.ymin c.y, F64.max b.xmax c.x, F64.max b.ymax c.y⟩

def polygonBbox (p : Polygon) : Bbox F64 :=
  (p.exterior ++ p.interiors.flatten).foldl takeCoord ⟨.posInf, .posInf, .negInf, .negInf⟩

/-! ### Rows -/

/-- Arm S runs inline. -/
def LOD_BUILD_WORKERS_ARM_S : Nat := 1

def LOD_INVALID_OUTPUT : String := "engine.lod_invalid_output"

structure EmittedRow where
  id : UInt64
  wkb : List UInt8
  bbox : Bbox F64
  verticesBefore : Nat
  verticesAfter : Nat
  deriving DecidableEq, Repr

variable (lib : GeoLib) (epsilon : F64)

/-- The gate that a simplified polygon passes, and the row that is emitted. -/
def gatedRow (id : UInt64) (polygon simplified : Polygon) : Except (Stop EngineError) EmittedRow :=
  match lib.isValid simplified with
  | none => .error .panic
  | some false =>
    match lib.validationErrors simplified with
    | none => .error .panic
    | some errors =>
      .error (.refused (.lodRefused LOD_INVALID_OUTPUT
        (s!"feature {id.toNat} simplified to an invalid Polygon at minimum triangle area " ++
          s!"{lib.display epsilon} (source units): " ++ "; ".intercalate errors ++
          ". The simplifier choice is falsified for this input and no post-processing step is " ++
          "added to rescue it")))
  | some true =>
    match lib.writePolygon simplified with
    | .error e => .error (e.map fun e => .wkb s!"feature {id.toNat}: writing WKB: {e}")
    | .ok wkb =>
      .ok ⟨id, wkb, polygonBbox simplified, ringVertices polygon, ringVertices simplified⟩

def simplifyRow (id : UInt64) (bytes : List UInt8) : Except (Stop EngineError) EmittedRow :=
  match lib.readWkb bytes with
  | .error e => .error (e.map fun e => .wkb s!"feature {id.toNat}: {e}")
  | .ok none => .error (.refused (.wkb s!"feature {id.toNat}: empty geometry"))
  | .ok (some (.other typeName)) =>
    .error (.refused (.wkb s!"feature {id.toNat}: expected a Polygon, found {typeName}"))
  | .ok (some (.polygon polygon)) =>
    match lib.simplifyVwPreserve polygon epsilon with
    | none => .error .panic
    | some simplified => gatedRow lib epsilon id polygon simplified

/-- The ids and the geometries are those of one batch, row by row. -/
def simplifySlice (ids : List UInt64) (wkb : List (List UInt8)) :
    Except (Stop EngineError) (List EmittedRow) :=
  (ids.zip wkb).mapM fun row => simplifyRow lib epsilon row.1 row.2

/-- Where the slices of `n` rows begin and end; no more are made than there are rows. -/
def slices (per n : Nat) : (fuel start : Nat) → List (Nat × Nat)
  | 0, _ => []
  | fuel + 1, start =>
    if start < n then
      let stop := min (start + per) n
      (start, stop) :: slices per n fuel stop
    else []

def sliceOf {α : Type} (xs : List α) (range : Nat × Nat) : List α :=
  (xs.drop range.1).take (range.2 - range.1)

/-- `usize::div_ceil`. -/
def divCeil (n d : Nat) : Nat := (n + d - 1) / d

/-- What `join` hands on of a worker that panicked. -/
def workerPanicked : EngineError := .source "a tier worker panicked"

def simplifyRows (workers : Nat) (ids : List UInt64) (wkb : List (List UInt8)) :
    Except (Stop EngineError) (List EmittedRow) :=
  -- A panic of the inline arm is the caller's own.
  if workers ≤ LOD_BUILD_WORKERS_ARM_S then simplifySlice lib epsilon ids wkb
  else
    let n := ids.length
    let per := divCeil n (max workers 1)
    let results := (slices per n n 0).map fun range =>
      (simplifySlice lib epsilon (sliceOf ids range) (sliceOf wkb range)).mapError
        (Stop.caught workerPanicked)
    -- The first error in the order of the slices.
    (results.mapM id).map List.flatten

/-! ### Batches -/

def readWkbColumn (K : Kernels) (batch : RecordBatch) (geometryColumn : String) :
    Except EngineError (List (List UInt8)) :=
  match batch.columnByName geometryColumn with
  | none => .error (.source s!"geometry column in a batch: no field named `{geometryColumn}`")
  | some column =>
    match column.dataType with
    | .binary | .largeBinary => .ok (column.cells.map bytesIn)
    | other => .error (.encodingMismatch "WKB in a binary column" (K.display other))

/-- A row as it is written. -/
structure TierRow where
  id : Int
  bbox : Bbox F64
  wkb : List UInt8
  deriving DecidableEq, Repr

/-- The id in the type of the column: `r.id` or `r.id as i64`. -/
def emittedId (idType : IdType) (id : UInt64) : Int :=
  match idType with
  | .u64 => id.toNat
  | .i64 => (BitVec.ofNat 64 id.toNat).toInt

def tierRow (idType : IdType) (r : EmittedRow) : TierRow := ⟨emittedId idType r.id, r.bbox, r.wkb⟩

/-- What the writer answers: as it is made, with the footer's metadata in front, when the k-th batch
is assembled and written, and at the end. -/
structure Writer where
  footerMetadata : Option EngineError
  create : Option String
  new : Option String
  assemble : Nat → Option String
  write : Nat → Option String
  close : Option String

structure TierFacts where
  features : Nat
  verticesBefore : Nat
  verticesAfter : Nat
  deriving DecidableEq, Repr

def TierFacts.add (facts : TierFacts) (r : EmittedRow) : TierFacts :=
  ⟨facts.features + 1, facts.verticesBefore + r.verticesBefore, facts.verticesAfter + r.verticesAfter⟩

/-- The rows written so far, and what was counted. -/
structure Written where
  rows : List TierRow
  facts : TierFacts
  deriving DecidableEq, Repr

/-- The source: whether it opens, its footer, and the batches as the reader yields them. -/
structure TierInput where
  openFile : Option String
  footer : Except String (List Field)
  build : Option String
  batches : List (Except String RecordBatch)
  idColumn : String
  geometryColumn : String

/-- A step that is done, or fails. -/
def checked (error : String → EngineError) : Option String → Except EngineError Unit
  | none => .ok ()
  | some e => .error (error e)

def columnIndex (schema : List Field) (name : String) : Except EngineError Field :=
  match schema.find? fun f => f.name = name with
  | none => .error (.source s!"column `{name}` is not in the source schema")
  | some field => .ok field

variable (K : Kernels) (src : TierInput) (writer : Writer)

/-- What comes in front of the first batch. -/
def openTier : Except EngineError IdType := do
  checked (fun e => .source s!"open the source for tiering: {e}") src.openFile
  let fileSchema ← src.footer.mapError fun e => .source s!"read the source's parquet footer: {e}"
  let idField ← columnIndex fileSchema src.idColumn
  let _ ← columnIndex fileSchema src.geometryColumn
  let idType ← idTypeOf K src.idColumn idField.dataType
  checked (fun e => .source s!"build the source reader: {e}") src.build
  match writer.footerMetadata with
  | some e => .error e
  | none => .ok ()
  checked (fun e => .source s!"create the tier file: {e}") writer.create
  checked (fun e => .source s!"parquet writer: {e}") writer.new
  .ok idType

/-- The rows of the k-th batch go to the writer. -/
def emitBatch (k : Nat) : Except EngineError Unit := do
  checked (fun e => .arrow s!"assemble a tier batch: {e}") (writer.assemble k)
  checked (fun e => .source s!"write a tier batch: {e}") (writer.write k)

/-- One batch: it is read, simplified, assembled and written. -/
def batchRows (workers : Nat) (idType : IdType) (b : Except String RecordBatch × Nat) :
    Except (Stop EngineError) (List EmittedRow) :=
  match b.1 with
  | .error e => .error (.refused (.source s!"read a source batch: {e}"))
  | .ok batch => do
    let ids ← raised (readIds batch src.idColumn idType)
    let wkb ← raised (readWkbColumn K batch src.geometryColumn)
    let rows ← simplifyRows lib epsilon workers ids wkb
    raised (emitBatch writer b.2)
    .ok rows

def Written.add (idType : IdType) (w : Written) (rows : List EmittedRow) : Written :=
  ⟨w.rows ++ rows.map (tierRow idType), rows.foldl TierFacts.add w.facts⟩

def writeTier (workers : Nat) : Except (Stop EngineError) Written := do
  let idType ← raised (openTier K src writer)
  let written ← src.batches.zipIdx.foldlM
    (fun w b => (batchRows lib epsilon K src writer workers idType b).map (Written.add idType w))
    ⟨[], ⟨0, 0, 0⟩⟩
  raised (checked (fun e => .source s!"close the tier writer: {e}") writer.close)
  .ok written

/-! ### What the tier should hold -/

def cellsOf (batch : RecordBatch) (column : String) : List Cell :=
  (batch.columnByName column).elim [] ArrayRef.cells

/-- The id and the geometry of each row of the source. -/
def sourceRows : List (Cell × Cell) :=
  src.batches.flatMap fun b =>
    match b with
    | .error _ => []
    | .ok batch => (cellsOf batch src.idColumn).zip (cellsOf batch src.geometryColumn)

/-- The type of the ids. -/
def IdType.dataType : IdType → DataType
  | .u64 => .uInt64
  | .i64 => .int64

/-- A row of the tier is one of the source with its geometry simplified. -/
structure RowOf (idType : IdType) (cells : Cell × Cell) (r : TierRow) : Prop where
  id : ∃ bytes, cells.1 = some bytes ∧ r.id = (IdType.dataType idType).numberIn bytes
  geometry : ∃ bytes polygon simplified, cells.2 = some bytes ∧
    lib.readWkb bytes = .ok (some (.polygon polygon)) ∧
    lib.simplifyVwPreserve polygon epsilon = some simplified ∧
    lib.writePolygon simplified = .ok r.wkb ∧ r.bbox = polygonBbox simplified

/-- The vertices of a row, before and after. -/
def verticesOf (cells : Cell × Cell) : Nat × Nat :=
  match lib.readWkb (bytesIn cells.2) with
  | .ok (some (.polygon polygon)) =>
    (ringVertices polygon, (lib.simplifyVwPreserve polygon epsilon).elim 0 ringVertices)
  | _ => (0, 0)

/-- The tier is the source, row by row, and its facts are those of the rows. -/
structure Faithful (written : Written) : Prop where
  rows : ∃ idType, openTier K src writer = .ok idType ∧
    List.Forall₂ (RowOf lib epsilon idType) (sourceRows src) written.rows
  facts : written.facts = ⟨(sourceRows src).length,
    ((sourceRows src).map fun cells => (verticesOf lib epsilon cells).1).sum,
    ((sourceRows src).map fun cells => (verticesOf lib epsilon cells).2).sum⟩

def NoNullId : Prop := ∀ cells ∈ sourceRows src, cells.1 ≠ none

/-- A batch that is not read, simplified or written. -/
inductive BatchFails (idType : IdType) : Except String RecordBatch × Nat → Prop where
  | unread {e : String} {k : Nat} : BatchFails idType (.error e, k)
  | ids {batch : RecordBatch} {k : Nat} {e : EngineError}
      (h : readIds batch src.idColumn idType = .error e) : BatchFails idType (.ok batch, k)
  | geometries {batch : RecordBatch} {k : Nat} {e : EngineError}
      (h : readWkbColumn K batch src.geometryColumn = .error e) : BatchFails idType (.ok batch, k)
  | row {batch : RecordBatch} {k : Nat} {ids : List UInt64} {wkb : List (List UInt8)}
      {row : UInt64 × List UInt8} {e : Stop EngineError}
      (hids : readIds batch src.idColumn idType = .ok ids)
      (hwkb : readWkbColumn K batch src.geometryColumn = .ok wkb) (hrow : row ∈ ids.zip wkb)
      (h : simplifyRow lib epsilon row.1 row.2 = .error e) : BatchFails idType (.ok batch, k)
  | assemble {batch : RecordBatch} {k : Nat} {e : String} (h : writer.assemble k = some e) :
      BatchFails idType (.ok batch, k)
  | write {batch : RecordBatch} {k : Nat} {e : String} (h : writer.write k = some e) :
      BatchFails idType (.ok batch, k)

/-- A step fails whatever the ids are: opening, a batch, or closing. -/
inductive RunFails : Prop where
  | opening {e : EngineError} (h : openTier K src writer = .error e)
  | batch {idType : IdType} {b : Except String RecordBatch × Nat}
      (hopen : openTier K src writer = .ok idType) (hb : b ∈ src.batches.zipIdx)
      (h : BatchFails lib epsilon K src writer idType b)
  | closing {e : String} (h : writer.close = some e)

/-- A geometry on which one of the crates' functions panics. -/
inductive Panicking (bytes : List UInt8) : Prop where
  | reading (h : lib.readWkb bytes = .error .panic)
  | simplifying {polygon : Polygon} (hread : lib.readWkb bytes = .ok (some (.polygon polygon)))
      (h : lib.simplifyVwPreserve polygon epsilon = none)
  | validating {polygon simplified : Polygon}
      (hread : lib.readWkb bytes = .ok (some (.polygon polygon)))
      (hsimplified : lib.simplifyVwPreserve polygon epsilon = some simplified)
      (h : lib.isValid simplified = none)
  | explaining {polygon simplified : Polygon}
      (hread : lib.readWkb bytes = .ok (some (.polygon polygon)))
      (hsimplified : lib.simplifyVwPreserve polygon epsilon = some simplified)
      (hinvalid : lib.isValid simplified = some false) (h : lib.validationErrors simplified = none)
  | writing {polygon simplified : Polygon}
      (hread : lib.readWkb bytes = .ok (some (.polygon polygon)))
      (hsimplified : lib.simplifyVwPreserve polygon epsilon = some simplified)
      (hvalid : lib.isValid simplified = some true) (h : lib.writePolygon simplified = .error .panic)

/-- A batch is read, and one of its rows panics after those in front of it are simplified. -/
def BatchPanics (idType : IdType) (b : Except String RecordBatch) : Prop :=
  ∃ batch ids wkb before row after, b = .ok batch ∧
    readIds batch src.idColumn idType = .ok ids ∧
    readWkbColumn K batch src.geometryColumn = .ok wkb ∧
    ids.zip wkb = before ++ row :: after ∧
    (∀ r ∈ before, ∃ emitted, simplifyRow lib epsilon r.1 r.2 = .ok emitted) ∧
    Panicking lib epsilon row.2

/-- A batch panics after those in front of it are written. -/
def RunPanics : Prop :=
  ∃ idType before b after, openTier K src writer = .ok idType ∧
    src.batches.zipIdx = before ++ b :: after ∧
    (∀ b' ∈ before, ¬BatchFails lib epsilon K src writer idType b') ∧
    BatchPanics lib epsilon K src idType b.1

/-! ### Slices -/

theorem slices_flatMap {α : Type} {per n : Nat} (hper : 0 < n → 0 < per) {xs : List α}
    (hlen : xs.length ≤ n) : ∀ {fuel start : Nat}, n - start ≤ fuel →
    (slices per n fuel start).flatMap (sliceOf xs) = xs.drop start := by
  intro fuel
  induction fuel with
  | zero =>
    intro start hfuel
    rw [slices, List.flatMap_nil, List.drop_eq_nil_of_le (by omega)]
  | succ fuel ih =>
    intro start hfuel
    rw [slices]
    by_cases hstart : start < n
    · have hpos := hper (by omega)
      rw [if_pos hstart, List.flatMap_cons, ih (by omega), sliceOf]
      have hdrop : xs.drop (min (start + per) n) =
          (xs.drop start).drop (min (start + per) n - start) := by
        rw [List.drop_drop]
        congr 1
        omega
      rw [hdrop, List.take_append_drop]
    · rw [if_neg hstart, List.flatMap_nil, List.drop_eq_nil_of_le (by omega)]

theorem zip_sliceOf {α β : Type} (xs : List α) (ys : List β) (range : Nat × Nat) :
    (sliceOf xs range).zip (sliceOf ys range) = sliceOf (xs.zip ys) range := by
  simp only [sliceOf, List.zip_eq_zipWith, List.drop_zipWith, List.take_zipWith]

variable {lib : GeoLib} {epsilon : F64}

theorem simplifyRows_inline (ids : List UInt64) (wkb : List (List UInt8)) {workers : Nat}
    (hinline : workers ≤ LOD_BUILD_WORKERS_ARM_S) :
    simplifyRows lib epsilon workers ids wkb = simplifySlice lib epsilon ids wkb := by
  rw [simplifyRows, if_pos hinline]

/-- Several workers make the rows of one, or the first error of these; a panic is caught. -/
theorem simplifyRows_caught (ids : List UInt64) (wkb : List (List UInt8)) {workers : Nat}
    (hspawned : ¬workers ≤ LOD_BUILD_WORKERS_ARM_S) :
    simplifyRows lib epsilon workers ids wkb =
      (simplifySlice lib epsilon ids wkb).mapError (Stop.caught workerPanicked) := by
  have hper : 0 < ids.length → 0 < divCeil ids.length (max workers 1) := by
    intro hpos
    rw [divCeil]
    exact Nat.div_pos (by omega) (by omega)
  have hlen : (ids.zip wkb).length ≤ ids.length := by
    rw [List.length_zip]
    omega
  have hslices := @slices_flatMap _ _ _ hper _ hlen ids.length 0 (by omega)
  rw [simplifyRows, if_neg hspawned]
  simp only [List.mapM_map, Function.comp_def, id_eq, simplifySlice, zip_sliceOf, mapError_mapM]
  rw [mapM_flatMap, hslices, List.drop_zero]

theorem batchRows_caught (K : Kernels) (src : TierInput) (writer : Writer) (idType : IdType)
    (b : Except String RecordBatch × Nat) {workers : Nat}
    (hspawned : ¬workers ≤ LOD_BUILD_WORKERS_ARM_S) :
    batchRows lib epsilon K src writer workers idType b =
      (batchRows lib epsilon K src writer 1 idType b).mapError (Stop.caught workerPanicked) := by
  rw [batchRows, batchRows]
  cases b.1 with
  | error e => rfl
  | ok batch =>
    simp only [mapError_bind, raised_caught, simplifyRows_caught _ _ hspawned,
      simplifyRows_inline _ _ (le_refl 1)]
    rfl

/-- Several workers write what one does, and fail where and as it does; its panic they catch. -/
theorem writeTier_caught (K : Kernels) (src : TierInput) (writer : Writer) {workers : Nat}
    (hspawned : ¬workers ≤ LOD_BUILD_WORKERS_ARM_S) :
    writeTier lib epsilon K src writer workers =
      (writeTier lib epsilon K src writer 1).mapError (Stop.caught workerPanicked) := by
  rw [writeTier, writeTier]
  simp only [mapError_bind, raised_caught, mapError_foldlM, mapError_map,
    batchRows_caught K src writer _ _ hspawned]
  rfl

theorem writeTier_inline (K : Kernels) (src : TierInput) (writer : Writer) {workers : Nat}
    (hinline : workers ≤ LOD_BUILD_WORKERS_ARM_S) :
    writeTier lib epsilon K src writer workers = writeTier lib epsilon K src writer 1 := by
  have hbatch : batchRows lib epsilon K src writer workers = batchRows lib epsilon K src writer 1 := by
    funext idType b
    rw [batchRows, batchRows]
    simp only [simplifyRows_inline _ _ hinline, simplifyRows_inline _ _ (le_refl 1)]
  rw [writeTier, writeTier, hbatch]

/-- The number of workers makes no difference, just where one worker does not panic. -/
theorem writeTier_workers (K : Kernels) (src : TierInput) (writer : Writer) :
    (∀ workers, writeTier lib epsilon K src writer workers = writeTier lib epsilon K src writer 1) ↔
      writeTier lib epsilon K src writer 1 ≠ .error .panic := by
  constructor
  · intro h
    have hspawned : ¬2 ≤ LOD_BUILD_WORKERS_ARM_S := by decide
    rw [← h 2, writeTier_caught K src writer hspawned]
    exact caught_ne_panic workerPanicked _
  · intro h workers
    by_cases hinline : workers ≤ LOD_BUILD_WORKERS_ARM_S
    · exact writeTier_inline K src writer hinline
    · rw [writeTier_caught K src writer hinline]
      exact caught_eq_self h

/-! ### What a run writes -/

variable {K : Kernels} {src : TierInput} {writer : Writer} {idType : IdType}

theorem written_of_rows (rowss : List (List EmittedRow)) : ∀ w : Written,
    rowss.foldl (Written.add idType) w =
      ⟨w.rows ++ rowss.flatten.map (tierRow idType), rowss.flatten.foldl TierFacts.add w.facts⟩ := by
  induction rowss with
  | nil =>
    intro w
    rw [List.flatten_nil, List.map_nil, List.append_nil]
    rfl
  | cons rows rowss ih =>
    intro w
    rw [List.foldl_cons, ih, List.flatten_cons, List.map_append, List.foldl_append, Written.add,
      List.append_assoc]

theorem checked_eq_ok {error : String → EngineError} {answer : Option String} :
    checked error answer = .ok () ↔ answer = none := by
  cases answer <;> simp [checked]

theorem emitBatch_eq_ok {k : Nat} :
    emitBatch writer k = .ok () ↔ writer.assemble k = none ∧ writer.write k = none := by
  rw [emitBatch, bind_eq_ok]
  constructor
  · rintro ⟨⟨⟩, hassemble, hwrite⟩
    exact ⟨checked_eq_ok.1 hassemble, checked_eq_ok.1 hwrite⟩
  · rintro ⟨hassemble, hwrite⟩
    exact ⟨(), checked_eq_ok.2 hassemble, checked_eq_ok.2 hwrite⟩

theorem writeTier_eq_ok_iff {workers : Nat} {w : Written} :
    writeTier lib epsilon K src writer workers = .ok w ↔ ∃ idType rowss,
      openTier K src writer = .ok idType ∧
      src.batches.zipIdx.mapM (batchRows lib epsilon K src writer workers idType) = .ok rowss ∧
      writer.close = none ∧
      w = ⟨rowss.flatten.map (tierRow idType), rowss.flatten.foldl TierFacts.add ⟨0, 0, 0⟩⟩ := by
  rw [writeTier]
  simp only [foldlM_map_add, bind_eq_ok, raised_eq_ok]
  constructor
  · rintro ⟨idType, hopen, written, hwritten, ⟨⟩, hclose, hw⟩
    cases hrows : src.batches.zipIdx.mapM (batchRows lib epsilon K src writer workers idType) with
    | error e =>
      rw [hrows] at hwritten
      cases hwritten
    | ok rowss =>
      rw [hrows] at hwritten
      cases hwritten
      cases hw
      exact ⟨idType, rowss, hopen, hrows, checked_eq_ok.1 hclose, written_of_rows rowss _⟩
  · rintro ⟨idType, rowss, hopen, hrows, hclose, rfl⟩
    refine ⟨idType, hopen, rowss.foldl (Written.add idType) ⟨[], ⟨0, 0, 0⟩⟩, by rw [hrows]; rfl, (),
      checked_eq_ok.2 hclose, ?_⟩
    rw [written_of_rows, List.nil_append]

theorem batchRows_eq_ok_iff {batch : RecordBatch} {k : Nat} {rows : List EmittedRow} :
    batchRows lib epsilon K src writer 1 idType (.ok batch, k) = .ok rows ↔ ∃ ids wkb,
      readIds batch src.idColumn idType = .ok ids ∧
      readWkbColumn K batch src.geometryColumn = .ok wkb ∧
      ((ids.zip wkb).mapM fun row => simplifyRow lib epsilon row.1 row.2) = .ok rows ∧
      writer.assemble k = none ∧ writer.write k = none := by
  simp only [batchRows, simplifyRows_inline _ _ (le_refl 1), simplifySlice, bind_eq_ok, raised_eq_ok]
  constructor
  · rintro ⟨ids, hids, wkb, hwkb, rows', hrows, ⟨⟩, hemit, hend⟩
    cases hend
    exact ⟨ids, wkb, hids, hwkb, hrows, emitBatch_eq_ok.1 hemit⟩
  · rintro ⟨ids, wkb, hids, hwkb, hrows, hemit⟩
    exact ⟨ids, hids, wkb, hwkb, rows, hrows, (), emitBatch_eq_ok.2 hemit, rfl⟩

/-! ### One row -/

theorem gatedRow_eq_ok_iff {id : UInt64} {polygon simplified : Polygon} {r : EmittedRow} :
    gatedRow lib epsilon id polygon simplified = .ok r ↔ ∃ wkb,
      lib.isValid simplified = some true ∧ lib.writePolygon simplified = .ok wkb ∧
      r = ⟨id, wkb, polygonBbox simplified, ringVertices polygon, ringVertices simplified⟩ := by
  rw [gatedRow]
  constructor
  · intro h
    split at h
    · cases h
    · split at h <;> cases h
    · next hvalid =>
      split at h
      · cases h
      · next wkb hwrite =>
        cases h
        exact ⟨wkb, hvalid, hwrite, rfl⟩
  · rintro ⟨wkb, hvalid, hwrite, rfl⟩
    simp only [hvalid, hwrite]

theorem simplifyRow_eq_ok_iff {id : UInt64} {bytes : List UInt8} {r : EmittedRow} :
    simplifyRow lib epsilon id bytes = .ok r ↔ ∃ polygon simplified,
      lib.readWkb bytes = .ok (some (.polygon polygon)) ∧
      lib.simplifyVwPreserve polygon epsilon = some simplified ∧
      gatedRow lib epsilon id polygon simplified = .ok r := by
  rw [simplifyRow]
  constructor
  · intro h
    split at h
    · cases h
    · cases h
    · cases h
    · next polygon hread =>
      split at h
      · cases h
      · next simplified hsimplified => exact ⟨polygon, simplified, hread, hsimplified, h⟩
  · rintro ⟨polygon, simplified, hread, hsimplified, h⟩
    simp only [hread, hsimplified, h]

theorem gatedRow_eq_panic_iff {id : UInt64} {polygon simplified : Polygon} :
    gatedRow lib epsilon id polygon simplified = .error .panic ↔
      lib.isValid simplified = none ∨
      (lib.isValid simplified = some false ∧ lib.validationErrors simplified = none) ∨
      (lib.isValid simplified = some true ∧ lib.writePolygon simplified = .error .panic) := by
  rw [gatedRow]
  cases hvalid : lib.isValid simplified with
  | none => simp
  | some valid =>
    cases valid with
    | false => cases herrors : lib.validationErrors simplified <;> simp
    | true => cases hwrite : lib.writePolygon simplified <;> simp [Stop.map_eq_panic]

/-- A row panics on its geometry, whatever its id is. -/
theorem simplifyRow_eq_panic_iff {id : UInt64} {bytes : List UInt8} :
    simplifyRow lib epsilon id bytes = .error .panic ↔ Panicking lib epsilon bytes := by
  rw [simplifyRow]
  constructor
  · intro h
    split at h
    · next e hread =>
      rw [Except.error.injEq, Stop.map_eq_panic] at h
      exact .reading (h ▸ hread)
    · cases h
    · cases h
    · next polygon hread =>
      split at h
      · next hsimplified => exact .simplifying hread hsimplified
      · next simplified hsimplified =>
        obtain hvalid | ⟨hinvalid, herrors⟩ | ⟨hvalid, hwrite⟩ := gatedRow_eq_panic_iff.1 h
        · exact .validating hread hsimplified hvalid
        · exact .explaining hread hsimplified hinvalid herrors
        · exact .writing hread hsimplified hvalid hwrite
  · intro h
    cases h with
    | reading h => simp only [h, Stop.map]
    | simplifying hread h => simp only [hread, h]
    | validating hread hsimplified h =>
      simp only [hread, hsimplified]
      exact gatedRow_eq_panic_iff.2 (.inl h)
    | explaining hread hsimplified hinvalid h =>
      simp only [hread, hsimplified]
      exact gatedRow_eq_panic_iff.2 (.inr (.inl ⟨hinvalid, h⟩))
    | writing hread hsimplified hvalid h =>
      simp only [hread, hsimplified]
      exact gatedRow_eq_panic_iff.2 (.inr (.inr ⟨hvalid, h⟩))

/-- An id is the number in its slot. -/
def IdOf (idType : IdType) (cell : Cell) (id : UInt64) : Prop :=
  ∀ bytes, cell = some bytes → emittedId idType id = (IdType.dataType idType).numberIn bytes

theorem emittedId_i64 {v : Int} (hnonneg : 0 ≤ v) (hlt : v < 2 ^ 63) :
    emittedId .i64 (UInt64.ofNat v.toNat) = v := by
  have hnat : (UInt64.ofNat v.toNat).toNat = v.toNat := UInt64.toNat_ofNat_of_lt' (by
    change v.toNat < 2 ^ 64
    omega)
  rw [emittedId, hnat, BitVec.toInt_ofNat', Int.bmod_eq_of_le] <;> omega

theorem readIds_spec {batch : RecordBatch} {column : String} {ids : List UInt64}
    (h : readIds batch column idType = .ok ids) :
    List.Forall₂ (IdOf idType) (cellsOf batch column) ids := by
  rw [readIds] at h
  rw [cellsOf]
  cases hcol : batch.columnByName column with
  | none =>
    rw [hcol] at h
    cases h
  | some col =>
    simp only [hcol] at h
    rw [Option.elim_some]
    cases idType with
    | u64 =>
      simp only at h
      split at h
      · cases h
        rw [List.forall₂_map_right_iff, List.forall₂_same]
        rintro cell - bytes rfl
        rfl
      · cases h
    | i64 =>
      simp only at h
      split at h
      · refine (mapM_eq_ok.1 h).imp fun cell id hid => ?_
        rintro bytes rfl
        have hlt := BitVec.toInt_lt (x := BitVec.ofNat 64 (leValue (bytesIn (some bytes))))
        split_ifs at hid with hneg
        cases hid
        exact emittedId_i64 (not_lt.1 hneg) (by simpa using hlt)
      · cases h

theorem readWkbColumn_spec {batch : RecordBatch} {column : String} {wkb : List (List UInt8)}
    (h : readWkbColumn K batch column = .ok wkb) : wkb = (cellsOf batch column).map bytesIn := by
  rw [readWkbColumn] at h
  rw [cellsOf]
  cases hcol : batch.columnByName column with
  | none =>
    rw [hcol] at h
    cases h
  | some col =>
    simp only [hcol] at h
    split at h
    · cases h
      rfl
    · cases h
      rfl
    · cases h

/-- A row that was made of two cells. -/
structure Made (lib : GeoLib) (epsilon : F64) (idType : IdType) (cells : Cell × Cell)
    (r : EmittedRow) : Prop where
  id : IdOf idType cells.1 r.id
  geometry : ∃ bytes polygon simplified, cells.2 = some bytes ∧
    lib.readWkb bytes = .ok (some (.polygon polygon)) ∧
    lib.simplifyVwPreserve polygon epsilon = some simplified ∧
    lib.writePolygon simplified = .ok r.wkb ∧ r.bbox = polygonBbox simplified
  vertices : (r.verticesBefore, r.verticesAfter) = verticesOf lib epsilon cells

theorem made_of_simplifyRow {cells : Cell × Cell} {id : UInt64} {r : EmittedRow}
    (hid : IdOf idType cells.1 id) (h : simplifyRow lib epsilon id (bytesIn cells.2) = .ok r) :
    Made lib epsilon idType cells r := by
  obtain ⟨polygon, simplified, hread, hsimplified, h⟩ := simplifyRow_eq_ok_iff.1 h
  obtain ⟨wkb, -, hwrite, rfl⟩ := gatedRow_eq_ok_iff.1 h
  refine ⟨hid, ?_, by simp only [verticesOf, hread, hsimplified, Option.elim_some]⟩
  cases hcell : cells.2 with
  | none =>
    obtain ⟨e, he⟩ := lib.readWkb_nil
    rw [hcell] at hread
    cases he.symm.trans hread
  | some bytes =>
    rw [hcell] at hread
    exact ⟨bytes, polygon, simplified, rfl, hread, hsimplified, hwrite, rfl⟩

theorem made_of_mapM {idCells : List Cell} {ids : List UInt64}
    (hids : List.Forall₂ (IdOf idType) idCells ids) : ∀ {geometries : List Cell}
    {rows : List EmittedRow},
    ((ids.zip (geometries.map bytesIn)).mapM fun row => simplifyRow lib epsilon row.1 row.2) =
      .ok rows → List.Forall₂ (Made lib epsilon idType) (idCells.zip geometries) rows := by
  induction hids with
  | nil =>
    intro geometries rows h
    cases h
    rw [List.zip_nil_left]
    exact .nil
  | @cons cell id idCells ids hid _ ih =>
    intro geometries rows h
    cases geometries with
    | nil =>
      rw [List.map_nil, List.zip_nil_right] at h
      cases h
      rw [List.zip_nil_right]
      exact .nil
    | cons geometry geometries =>
      rw [List.map_cons, List.zip_cons_cons, List.mapM_cons] at h
      obtain ⟨r, hr, hrest⟩ := bind_eq_ok.1 h
      obtain ⟨rows', hrows, hcons⟩ := bind_eq_ok.1 hrest
      cases hcons
      rw [List.zip_cons_cons]
      exact .cons (@made_of_simplifyRow _ _ _ (cell, geometry) _ _ hid hr) (ih hrows)

/-! ### All rows -/

/-- The rows of a batch. -/
def batchCells (src : TierInput) (b : Except String RecordBatch) : List (Cell × Cell) :=
  match b with
  | .error _ => []
  | .ok batch => (cellsOf batch src.idColumn).zip (cellsOf batch src.geometryColumn)

theorem made_of_batches {bs : List (Except String RecordBatch × Nat)}
    {rowss : List (List EmittedRow)}
    (h : bs.mapM (batchRows lib epsilon K src writer 1 idType) = .ok rowss) :
    List.Forall₂ (Made lib epsilon idType) (bs.flatMap fun b => batchCells src b.1) rowss.flatten := by
  induction mapM_eq_ok.1 h with
  | nil => exact .nil
  | @cons b rows bs rowss hb hbs ih =>
    rw [List.flatMap_cons, List.flatten_cons]
    refine List.rel_append ?_ (ih (mapM_eq_ok.2 hbs))
    obtain ⟨b, k⟩ := b
    cases b with
    | error e => cases hb
    | ok batch =>
      obtain ⟨ids, wkb, hids, hwkb, hrows, -, -⟩ := batchRows_eq_ok_iff.1 hb
      rw [readWkbColumn_spec hwkb] at hrows
      exact made_of_mapM (readIds_spec hids) hrows

theorem sourceRows_eq (src : TierInput) :
    sourceRows src = src.batches.zipIdx.flatMap fun b => batchCells src b.1 := by
  have hfst : src.batches = src.batches.zipIdx.map Prod.fst := (List.zipIdx_map_fst 0 _).symm
  rw [sourceRows]
  conv_lhs => rw [hfst]
  rw [List.flatMap_map]
  rfl

theorem facts_of_made {cells : List (Cell × Cell)} {rows : List EmittedRow}
    (h : List.Forall₂ (Made lib epsilon idType) cells rows) : ∀ facts : TierFacts,
    rows.foldl TierFacts.add facts = ⟨facts.features + cells.length,
      facts.verticesBefore + (cells.map fun c => (verticesOf lib epsilon c).1).sum,
      facts.verticesAfter + (cells.map fun c => (verticesOf lib epsilon c).2).sum⟩ := by
  induction h with
  | nil => exact fun facts => rfl
  | @cons c r cells rows hmade _ ih =>
    intro facts
    have hbefore : r.verticesBefore = (verticesOf lib epsilon c).1 := congrArg Prod.fst hmade.vertices
    have hafter : r.verticesAfter = (verticesOf lib epsilon c).2 := congrArg Prod.snd hmade.vertices
    rw [List.foldl_cons, ih, TierFacts.add, List.map_cons, List.map_cons, List.sum_cons,
      List.sum_cons, List.length_cons, hbefore, hafter]
    simp only [TierFacts.mk.injEq]
    exact ⟨by omega, by omega, by omega⟩

theorem rowOf_of_made {cells : Cell × Cell} {r : EmittedRow} (h : Made lib epsilon idType cells r)
    (hnull : cells.1 ≠ none) : RowOf lib epsilon idType cells (tierRow idType r) := by
  obtain ⟨bytes, hbytes⟩ := Option.ne_none_iff_exists'.1 hnull
  exact ⟨⟨bytes, hbytes, h.id bytes hbytes⟩, h.geometry⟩

theorem rowsOf_of_made {cells : List (Cell × Cell)} {rows : List EmittedRow}
    (h : List.Forall₂ (Made lib epsilon idType) cells rows) (hnull : ∀ c ∈ cells, c.1 ≠ none) :
    List.Forall₂ (RowOf lib epsilon idType) cells (rows.map (tierRow idType)) := by
  induction h with
  | nil => exact .nil
  | cons hmade _ ih =>
    obtain ⟨hfirst, hnull⟩ := List.forall_mem_cons.1 hnull
    exact .cons (rowOf_of_made hmade hfirst) (ih hnull)

/-! ### Failures -/

theorem not_batchFails {b : Except String RecordBatch × Nat} {rows : List EmittedRow}
    (h : batchRows lib epsilon K src writer 1 idType b = .ok rows) :
    ¬BatchFails lib epsilon K src writer idType b := by
  intro hfails
  cases hfails with
  | unread => cases h
  | ids he =>
    obtain ⟨ids, wkb, hids, -⟩ := batchRows_eq_ok_iff.1 h
    cases he.symm.trans hids
  | geometries he =>
    obtain ⟨ids, wkb, -, hwkb, -⟩ := batchRows_eq_ok_iff.1 h
    cases he.symm.trans hwkb
  | row hids hwkb hrow he =>
    obtain ⟨ids, wkb, hids', hwkb', hrows, -⟩ := batchRows_eq_ok_iff.1 h
    cases hids.symm.trans hids'
    cases hwkb.symm.trans hwkb'
    obtain ⟨r, hr⟩ := exists_ok_of_mem hrows hrow
    cases he.symm.trans hr
  | assemble he =>
    obtain ⟨ids, wkb, -, -, -, hassemble, -⟩ := batchRows_eq_ok_iff.1 h
    cases he.symm.trans hassemble
  | write he =>
    obtain ⟨ids, wkb, -, -, -, -, hwrite⟩ := batchRows_eq_ok_iff.1 h
    cases he.symm.trans hwrite

theorem exists_batchRows {b : Except String RecordBatch × Nat}
    (h : ¬BatchFails lib epsilon K src writer idType b) :
    ∃ rows, batchRows lib epsilon K src writer 1 idType b = .ok rows := by
  obtain ⟨b, k⟩ := b
  cases b with
  | error e => exact absurd .unread h
  | ok batch =>
    simp only [batchRows_eq_ok_iff]
    cases hids : readIds batch src.idColumn idType with
    | error e => exact absurd (.ids hids) h
    | ok ids =>
      cases hwkb : readWkbColumn K batch src.geometryColumn with
      | error e => exact absurd (.geometries hwkb) h
      | ok wkb =>
        have hall : ∀ row ∈ ids.zip wkb, ∃ r, simplifyRow lib epsilon row.1 row.2 = .ok r := by
          intro row hrow
          cases hr : simplifyRow lib epsilon row.1 row.2 with
          | error e => exact absurd (.row hids hwkb hrow hr) h
          | ok r => exact ⟨r, rfl⟩
        obtain ⟨rows, hrows⟩ := mapM_total hall
        refine ⟨rows, ids, wkb, rfl, rfl, hrows, ?_, ?_⟩
        · cases hassemble : writer.assemble k with
          | some e => exact absurd (.assemble hassemble) h
          | none => rfl
        · cases hwrite : writer.write k with
          | some e => exact absurd (.write hwrite) h
          | none => rfl

theorem batchRows_eq_panic_iff {b : Except String RecordBatch × Nat} :
    batchRows lib epsilon K src writer 1 idType b = .error .panic ↔
      BatchPanics lib epsilon K src idType b.1 := by
  rw [batchRows, BatchPanics]
  cases b.1 with
  | error e => simp
  | ok batch =>
    simp only [bind_eq_error_iff, raised_eq_ok, raised_ne_panic, false_or,
      simplifyRows_inline _ _ (le_refl 1), simplifySlice, mapM_eq_error_iff,
      simplifyRow_eq_panic_iff, Except.ok.injEq]
    constructor
    · rintro ⟨ids, hids, wkb, hwkb, ⟨before, row, after, hrows, hbefore, hrow⟩ | ⟨_, -, _, -, h⟩⟩
      · exact ⟨batch, ids, wkb, before, row, after, rfl, hids, hwkb, hrows, hbefore, hrow⟩
      · cases h
    · rintro ⟨_, ids, wkb, before, row, after, rfl, hids, hwkb, hrows, hbefore, hrow⟩
      exact ⟨ids, hids, wkb, hwkb, .inl ⟨before, row, after, hrows, hbefore, hrow⟩⟩

/-- One worker's run panics at the first batch that is not written, or not at all. -/
theorem writeTier_eq_panic_iff :
    writeTier lib epsilon K src writer 1 = .error .panic ↔ RunPanics lib epsilon K src writer := by
  have hrest : ∀ idType, ((src.batches.zipIdx.foldlM
      (fun w b => (batchRows lib epsilon K src writer 1 idType b).map (Written.add idType w))
      ⟨[], ⟨0, 0, 0⟩⟩) = .error .panic) ↔
      ∃ before b after, src.batches.zipIdx = before ++ b :: after ∧
        (∀ b' ∈ before, ¬BatchFails lib epsilon K src writer idType b') ∧
        BatchPanics lib epsilon K src idType b.1 := by
    intro idType
    have hok : ∀ b, (∃ rows, batchRows lib epsilon K src writer 1 idType b = .ok rows) ↔
        ¬BatchFails lib epsilon K src writer idType b :=
      fun b => ⟨fun ⟨rows, h⟩ => not_batchFails h, exists_batchRows⟩
    rw [foldlM_map_add, map_eq_error, mapM_eq_error_iff]
    simp only [hok, batchRows_eq_panic_iff]
  rw [writeTier]
  simp only [bind_eq_error_iff, raised_eq_ok, raised_ne_panic, false_or, hrest]
  constructor
  · rintro ⟨idType, hopen, ⟨before, b, after, h⟩ | ⟨_, -, _, -, h⟩⟩
    · exact ⟨idType, before, b, after, hopen, h⟩
    · cases h
  · rintro ⟨idType, before, b, after, hopen, h⟩
    exact ⟨idType, hopen, .inl ⟨before, b, after, h⟩⟩

/-- A run is completed just where no step fails. -/
theorem exists_writeTier_iff :
    (∃ w, writeTier lib epsilon K src writer 1 = .ok w) ↔ ¬RunFails lib epsilon K src writer := by
  constructor
  · rintro ⟨w, hw⟩ hfails
    obtain ⟨idType, rowss, hopen, hrows, hclose, -⟩ := writeTier_eq_ok_iff.1 hw
    cases hfails with
    | opening he => cases he.symm.trans hopen
    | batch hopen' hb hbatch =>
      cases hopen.symm.trans hopen'
      obtain ⟨rows, hok⟩ := exists_ok_of_mem hrows hb
      exact not_batchFails hok hbatch
    | closing he => cases he.symm.trans hclose
  · intro h
    cases hopen : openTier K src writer with
    | error e => exact absurd (.opening hopen) h
    | ok idType =>
      have hall : ∀ b ∈ src.batches.zipIdx,
          ∃ rows, batchRows lib epsilon K src writer 1 idType b = .ok rows :=
        fun b hb => exists_batchRows fun hbatch => h (.batch hopen hb hbatch)
      obtain ⟨rowss, hrows⟩ := mapM_total hall
      cases hclose : writer.close with
      | some e => exact absurd (.closing hclose) h
      | none => exact ⟨_, writeTier_eq_ok_iff.2 ⟨idType, rowss, hopen, hrows, hclose, rfl⟩⟩

theorem faithful_of_ok {w : Written} (h : writeTier lib epsilon K src writer 1 = .ok w)
    (hnull : NoNullId src) : Faithful lib epsilon K src writer w := by
  obtain ⟨idType, rowss, hopen, hrows, -, rfl⟩ := writeTier_eq_ok_iff.1 h
  have hmade := made_of_batches hrows
  rw [← sourceRows_eq] at hmade
  refine ⟨⟨idType, hopen, rowsOf_of_made hmade hnull⟩, ?_⟩
  rw [facts_of_made hmade, Nat.zero_add, Nat.zero_add, Nat.zero_add]

theorem noNullId_of_faithful {w : Written} (h : Faithful lib epsilon K src writer w) : NoNullId src := by
  obtain ⟨idType, -, hrows⟩ := h.rows
  intro cells hcells
  obtain ⟨r, -, hrow⟩ : ∃ r ∈ w.rows, RowOf lib epsilon idType cells r := by
    generalize w.rows = rows at hrows
    generalize sourceRows src = all at hrows hcells
    induction hrows with
    | nil => cases hcells
    | @cons c r all rows hrow _ ih =>
      obtain rfl | hcells := List.mem_cons.1 hcells
      · exact ⟨r, List.mem_cons_self, hrow⟩
      · obtain ⟨r', hr', hrow'⟩ := ih hcells
        exact ⟨r', List.mem_cons_of_mem _ hr', hrow'⟩
  obtain ⟨bytes, hbytes, -⟩ := hrow.id
  rw [hbytes]
  exact Option.some_ne_none bytes

/-- A tier is its source simplified, for every number of workers, just where no id is null, or some
step fails and there is no tier; and no geometry that the run comes to is one to panic on. -/
theorem writeTier_faithful_iff (lib : GeoLib) (epsilon : F64) (K : Kernels) (src : TierInput)
    (writer : Writer) :
    (∀ workers,
      writeTier lib epsilon K src writer workers = writeTier lib epsilon K src writer 1 ∧
      ∀ w, writeTier lib epsilon K src writer workers = .ok w →
        Faithful lib epsilon K src writer w) ↔
    (NoNullId src ∨ RunFails lib epsilon K src writer) ∧ ¬RunPanics lib epsilon K src writer := by
  rw [← writeTier_eq_panic_iff]
  constructor
  · intro h
    refine ⟨?_, (writeTier_workers K src writer).1 fun workers => (h workers).1⟩
    by_cases hfails : RunFails lib epsilon K src writer
    · exact .inr hfails
    · obtain ⟨w, hw⟩ := exists_writeTier_iff.2 hfails
      exact .inl (noNullId_of_faithful ((h 1).2 w hw))
  · rintro ⟨h, hpanics⟩ workers
    have hworkers := (writeTier_workers K src writer).2 hpanics workers
    refine ⟨hworkers, fun w hw => ?_⟩
    rw [hworkers] at hw
    obtain hnull | hfails := h
    · exact faithful_of_ok hw hnull
    · exact absurd hfails (exists_writeTier_iff.1 ⟨w, hw⟩)

/-! ### A null id -/

/-- Every text of bytes is one triangle, which is valid and too small to be simplified. -/
def triangles : GeoLib where
  readWkb bytes :=
    if bytes = [] then .error (.refused "failed to fill whole buffer")
    else .ok (some (.polygon ⟨[⟨⟨0⟩, ⟨0⟩⟩, ⟨⟨0⟩, ⟨1⟩⟩, ⟨⟨1⟩, ⟨0⟩⟩, ⟨⟨0⟩, ⟨0⟩⟩], []⟩))
  simplifyVwPreserve polygon _ := some polygon
  isValid _ := some true
  validationErrors _ := some []
  writePolygon _ := .ok [1, 3]
  display _ := "0.1"
  readWkb_nil := ⟨_, rfl⟩

/-- One row, whose id is null. -/
def nullIdInput : TierInput where
  openFile := none
  footer := .ok [⟨"id", .uInt64⟩, ⟨"geometry", .binary⟩]
  build := none
  batches := [.ok ⟨[⟨"id", .uInt64⟩, ⟨"geometry", .binary⟩], [[none, some [1, 3]]], by decide⟩]
  idColumn := "id"
  geometryColumn := "geometry"

def silent : Writer := ⟨none, none, none, fun _ => none, fun _ => none, none⟩

/-- The tier gives the row the id `0`. -/
theorem writeTier_null_id :
    (writeTier triangles ⟨0⟩ Kernels.logical nullIdInput silent 1).map
      (fun w => w.rows.map fun r => r.id) = .ok [0] ∧
    ¬∀ workers,
      writeTier triangles ⟨0⟩ Kernels.logical nullIdInput silent workers =
        writeTier triangles ⟨0⟩ Kernels.logical nullIdInput silent 1 ∧
      ∀ w, writeTier triangles ⟨0⟩ Kernels.logical nullIdInput silent workers = .ok w →
        Faithful triangles ⟨0⟩ Kernels.logical nullIdInput silent w := by
  have hrun : ∃ w, writeTier triangles ⟨0⟩ Kernels.logical nullIdInput silent 1 = .ok w := ⟨_, rfl⟩
  refine ⟨rfl, fun h => ?_⟩
  obtain ⟨w, hw⟩ := hrun
  have hnull := noNullId_of_faithful ((h 1).2 w hw)
  exact hnull (none, some [1, 3]) (by decide) rfl

end SpatialIde.Engine.Tier
