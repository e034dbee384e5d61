import SpatialIde.Engine.Stream.Produce
import SpatialIde.Engine.Wkb.Size
import SpatialIde.Lib.Feed

/-! # Rows, and the batcher the producer is

A row is what one position of a chunk holds: an id, a geometry and a value of
each declared attribute.  What a row weighs is a function of its content, and so
is what a batch of rows is made of: `builderOf`, `itemOf`.  `config` and
`refusals` are the batcher of `Lib.Batcher` the producer runs.
-/

namespace SpatialIde.Engine.Stream

open Lib Wkb

structure Row where
  id : UInt64
  geometryType : DataType
  geometry : Cell
  attributes : List (DataType × Cell)
  deriving DecidableEq, Repr

namespace Row

def bytes (x : Row) : List UInt8 := bytesIn x.geometry

def attrBytes (x : Row) : Nat := (x.attributes.map fun a => attrValueBytes a.1 a.2).sum

/-- The vertices the row's geometry decodes to; none, when it does not decode. -/
def vertices (e : GeometryEncoding) (x : Row) : Nat :=
  match (GeometryBuilder.new e).pushWkb x.bytes with
  | (.ok (), b) => b.vertices
  | (.error _, _) => 0

/-- The row's geometry is the WKB of `g`, which the encoding reads. -/
def Decodes (e : GeometryEncoding) (x : Row) (g : Geometry) : Prop :=
  Readable e g ∧ g.Strict ∧
    ∃ outer orders, orders.length = g.headedParts ∧ x.bytes = g.encode outer orders

/-- **A row decodes on every builder of the encoding alike.** -/
theorem pushWkb_iff {e : GeometryEncoding} {b b' : GeometryBuilder} (hb : b.Started)
    (he : b.encoding = e) (x : Row) :
    b.pushWkb x.bytes = (.ok (), b') ↔ ∃ g, x.Decodes e g ∧ b' = b.append g := by
  subst he
  rw [GeometryBuilder.pushWkb_eq_ok_iff hb]
  constructor
  · rintro ⟨g, outer, orders, hread, hstrict, hlen, hbytes, rfl⟩
    exact ⟨g, ⟨hread, hstrict, outer, orders, hlen, hbytes⟩, rfl⟩
  · rintro ⟨g, ⟨hread, hstrict, outer, orders, hlen, hbytes⟩, rfl⟩
    exact ⟨g, outer, orders, hread, hstrict, hlen, hbytes, rfl⟩

theorem vertices_eq {e : GeometryEncoding} {x : Row} {g : Geometry} (h : x.Decodes e g) :
    x.vertices e = g.vertexCount := by
  have hnew := GeometryBuilder.encoding_new e
  have hread : Readable (GeometryBuilder.new e).encoding g := by rw [hnew]; exact h.1
  have hpush := (pushWkb_iff (GeometryBuilder.started_new e) hnew x).2 ⟨g, h, rfl⟩
  unfold vertices
  rw [hpush]
  show ((GeometryBuilder.new e).append g).vertices = _
  rw [GeometryBuilder.vertices_append hread]
  cases e <;> simp [GeometryBuilder.new, GeometryBuilder.vertices, PolygonBuilder.new,
    MultiPolygonBuilder.new, PointBuilder.new, LineStringBuilder.new, MultiLineStringBuilder.new,
    PolygonBuilder.vertices, MultiPolygonBuilder.vertices, PointBuilder.vertices,
    LineStringBuilder.vertices, MultiLineStringBuilder.vertices]

/-- **A row's vertices are bounded without parsing it.** -/
theorem vertices_le (e : GeometryEncoding) (x : Row) : x.vertices e ≤ x.bytes.length / 16 := by
  rcases hpush : (GeometryBuilder.new e).pushWkb x.bytes with ⟨⟨err⟩ | ⟨⟨⟩⟩, b⟩
  · unfold vertices
    rw [hpush]
    exact Nat.zero_le _
  · obtain ⟨g, hg, -⟩ := (pushWkb_iff (GeometryBuilder.started_new e)
      (GeometryBuilder.encoding_new e) x).1 hpush
    obtain ⟨outer, orders, hlen, hbytes⟩ := hg.2.2
    rw [vertices_eq hg, hbytes]
    exact vertexCount_le hlen

end Row

/-! ### The batcher -/

/-- The batcher of a plan: an item's bound and weight are the estimate of a one-row batch. -/
def config (plan : Plan) : Batcher.Config Row where
  bound x := estimateBytes 1 (x.bytes.length / 16) + x.attrBytes
  weight x := estimateBytes 1 (x.vertices plan.envelope.encoding) + x.attrBytes
  target := plan.policy.targetFor
  maxItems := plan.policy.maxRows

theorem weight_le_bound (plan : Plan) (x : Row) : (config plan).weight x ≤ (config plan).bound x :=
  Nat.add_le_add_right (estimateBytes_mono (x.vertices_le _) 1) _

/-- The batch estimate is additive in its rows. -/
theorem load_eq (plan : Plan) (xs : List Row) : (config plan).load xs =
    estimateBytes xs.length (xs.map (Row.vertices plan.envelope.encoding)).sum +
      (xs.map Row.attrBytes).sum := by
  induction xs with
  | nil => rfl
  | cons x xs ih =>
    have hcons : (config plan).load (x :: xs) =
        (estimateBytes 1 (x.vertices plan.envelope.encoding) + x.attrBytes) +
          (config plan).load xs := rfl
    rw [hcons, ih, List.length_cons, List.map_cons, List.map_cons, List.sum_cons, List.sum_cons,
      Nat.add_comm xs.length 1, estimateBytes_add]
    omega

/-- The builder after a list of rows. -/
def builderOf (e : GeometryEncoding) (xs : List Row) : GeometryBuilder :=
  xs.foldl (fun b x => (b.pushWkb x.bytes).2) (.new e)

theorem builderOf_append (e : GeometryEncoding) (xs : List Row) (x : Row) :
    builderOf e (xs ++ [x]) = ((builderOf e xs).pushWkb x.bytes).2 := by
  rw [builderOf, List.foldl_append]
  rfl

/-- Why a row or a batch is refused.  The row number in the text about a null geometry counts from
the start of a chunk, so it is not a function of the row. -/
inductive Refusal where
  | nullGeometry
  | failed (e : EngineError)
  deriving DecidableEq, Repr

/-- The error a refusal is reported as. -/
inductive Reports : EngineError → Refusal → Prop
  | nullGeometry (row : Nat) : Reports (.wkb s!"row {row} has a null geometry") .nullGeometry
  | failed (e : EngineError) : Reports e (.failed e)

variable (K : Kernels) (plan : Plan)

/-- What `binary_value` refuses of a row. -/
def Row.readRefusal (x : Row) : Option Refusal :=
  match x.geometry with
  | none => some .nullGeometry
  | some _ =>
    match x.geometryType with
    | .binary | .largeBinary | .binaryView => none
    | t => some (.failed (.query s!"geometry column is {K.display t}; expected binary"))

/-- What the strict decode refuses of a row. -/
def decodeRefusal (e : GeometryEncoding) (xs : List Row) (x : Row) : Option Refusal :=
  match (builderOf e xs).pushWkb x.bytes with
  | (.error err, _) => some (.failed err)
  | (.ok (), _) => none

/-- What `flush` refuses of a batch. -/
def ceilingRefusal (b : Batcher.Batch Row) : Option Refusal :=
  let saw := (config plan).load b.items
  if MAX_BATCH_BYTES < saw then
    match b.items with
    | [x] => some (.failed (.featureTooLarge x.id MAX_BATCH_BYTES saw))
    | _ => some (.failed (.ceilingExceeded "MAX_BATCH_BYTES" MAX_BATCH_BYTES saw))
  else none

def refusals : Batcher.Refusals Row Refusal where
  read := Row.readRefusal K
  decode := decodeRefusal plan.envelope.encoding
  batch := ceilingRefusal plan

/-! ### What rows build -/

/-- Every row decodes. -/
def AllDecode (e : GeometryEncoding) (xs : List Row) : Prop := ∀ x ∈ xs, ∃ g, x.Decodes e g

/-- **The builder of decoded rows**: its vertices are theirs, and no level outgrows them. -/
theorem builderOf_spec {e : GeometryEncoding} {xs : List Row} (h : AllDecode e xs) :
    (builderOf e xs).Started ∧ (builderOf e xs).encoding = e ∧ (builderOf e xs).Slim ∧
      (builderOf e xs).vertices = (xs.map (Row.vertices e)).sum := by
  induction xs using List.reverseRecOn with
  | nil =>
    refine ⟨GeometryBuilder.started_new e, GeometryBuilder.encoding_new e,
      GeometryBuilder.slim_new e, ?_⟩
    cases e <;> rfl
  | append_singleton xs x ih =>
    obtain ⟨hstart, henc, hslim, hvert⟩ := ih fun y hy => h y (List.mem_append_left _ hy)
    obtain ⟨g, hg⟩ := h x (by simp)
    have hread : Readable (builderOf e xs).encoding g := by rw [henc]; exact hg.1
    rw [builderOf_append, (Row.pushWkb_iff hstart henc x).2 ⟨g, hg, rfl⟩]
    refine ⟨hstart.append g, ?_, GeometryBuilder.slim_append hstart hslim hread hg.2.1, ?_⟩
    · rw [GeometryBuilder.encoding_append, henc]
    · rw [GeometryBuilder.vertices_append hread, hvert, List.map_append, List.sum_append,
        List.map_singleton, List.sum_singleton, Row.vertices_eq hg]

/-- **What the builder of decoded rows holds**: their geometries, in order. -/
theorem builderOf_geometries {e : GeometryEncoding} {xs : List Row} (h : AllDecode e xs)
    (hv : (xs.map (Row.vertices e)).sum < 2 ^ 31) :
    (builderOf e xs).WellFormed ∧ ∃ gs, List.Forall₂ (Row.Decodes e) xs gs ∧
      (builderOf e xs).geometries = gs.map (normal e) := by
  induction xs using List.reverseRecOn with
  | nil =>
    refine ⟨GeometryBuilder.wellFormed_new e, [], .nil, ?_⟩
    rw [builderOf, List.foldl_nil, GeometryBuilder.geometries_new]
    rfl
  | append_singleton xs x ih =>
    have hxs : AllDecode e xs := fun y hy => h y (List.mem_append_left _ hy)
    obtain ⟨hstart, henc, -, -⟩ := builderOf_spec hxs
    obtain ⟨-, -, hslim, hvert⟩ := builderOf_spec h
    obtain ⟨g, hg⟩ := h x (by simp)
    have hread : Readable (builderOf e xs).encoding g := by rw [henc]; exact hg.1
    have hpush : builderOf e (xs ++ [x]) = (builderOf e xs).append g := by
      rw [builderOf_append, (Row.pushWkb_iff hstart henc x).2 ⟨g, hg, rfl⟩]
    rw [List.map_append, List.sum_append] at hv
    obtain ⟨hwf, gs, hgs, hgeo⟩ := ih hxs (by omega)
    have hfits : ((builderOf e xs).append g).Fits := by
      rw [← hpush]
      refine hslim.fits ?_
      rw [hvert, List.map_append, List.sum_append]
      exact hv
    obtain ⟨hwf', hgeo'⟩ := GeometryBuilder.geometries_append hwf hread hfits
    rw [hpush]
    refine ⟨hwf', gs ++ [g], List.rel_append hgs (.cons hg .nil), ?_⟩
    rw [hgeo', hgeo, henc, List.map_append, List.map_singleton]

/-- What a batch weighs bounds its vertices. -/
theorem vertices_lt_of_load {xs : List Row} (h : (config plan).load xs ≤ MAX_BATCH_BYTES) :
    (xs.map (Row.vertices plan.envelope.encoding)).sum < 2 ^ 31 := by
  rw [load_eq, estimateBytes] at h
  unfold MAX_BATCH_BYTES at h
  omega

end SpatialIde.Engine.Stream
