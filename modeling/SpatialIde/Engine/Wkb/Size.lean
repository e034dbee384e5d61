import SpatialIde.Engine.Wkb.Decode

/-! # How large a decoded geometry is

The producer bounds a row before parsing it: sixteen bytes for each vertex.  That
bound is sound for every geometry a builder accepts (`vertexCount_le`), and the
counts of the levels above the vertices are bounded by the vertices
(`slim_append`), so small batches never reach the limits of an `i32` offset.
-/

namespace SpatialIde.Engine.Wkb

open Lib

/-- The positions of a geometry. -/
def Geometry.vertexCount : Geometry → Nat
  | .point _ => 1
  | .lineString ps => ps.length
  | .polygon rings => rings.flatten.length
  | .multiLineString parts => parts.flatten.length
  | .multiPolygon parts => parts.flatten.flatten.length

theorem length_encodePosition (little : Bool) (p : Position) :
    (encodePosition little p).length = 16 := by
  simp [encodePosition]

theorem length_flatMap_encodePosition (little : Bool) : ∀ ps : List Position,
    (ps.flatMap (encodePosition little)).length = 16 * ps.length := by
  intro ps
  induction ps with
  | nil => rfl
  | cons p ps ih =>
    rw [List.flatMap_cons, List.length_append, length_encodePosition, ih, List.length_cons]
    omega

theorem le_length_encodePositions (little : Bool) (ps : List Position) :
    16 * ps.length ≤ (encodePositions little ps).length := by
  rw [encodePositions, List.length_append, length_flatMap_encodePosition]
  omega

/-- Encodings laid end to end are long enough when each one is. -/
theorem le_length_flatMap {α : Type} {enc : α → List UInt8} {size : α → Nat}
    (h : ∀ x, 16 * size x ≤ (enc x).length) : ∀ xs : List α,
    16 * (xs.map size).sum ≤ (xs.flatMap enc).length := by
  intro xs
  induction xs with
  | nil => simp
  | cons x xs ih =>
    have hx := h x
    rw [List.map_cons, List.sum_cons, List.flatMap_cons, List.length_append]
    omega

theorem le_length_encodeRings (little : Bool) (rings : List (List Position)) :
    16 * rings.flatten.length ≤ (encodeRings little rings).length := by
  have h := le_length_flatMap (le_length_encodePositions little) rings
  rw [List.length_flatten, encodeRings, List.length_append]
  omega

/-- Headed parts are long enough when their bodies are. -/
theorem le_length_parts {α : Type} (code : UInt32) {enc : Bool → α → List UInt8} {size : α → Nat}
    (h : ∀ little x, 16 * size x ≤ (enc little x).length) {orders : List Bool} {parts : List α}
    (hlen : orders.length = parts.length) : 16 * (parts.map size).sum ≤
      ((orders.zip parts).flatMap fun part => encodeHeader part.1 code ++ enc part.1 part.2).length
    := by
  have hpart : ∀ part : Bool × α, 16 * size part.2 ≤
      (encodeHeader part.1 code ++ enc part.1 part.2).length := by
    intro part
    have := h part.1 part.2
    rw [List.length_append]
    omega
  have hsum := le_length_flatMap hpart (orders.zip parts)
  have hsnd : (orders.zip parts).map (fun part => size part.2) = parts.map size := by
    rw [← Function.comp_def size Prod.snd, ← List.map_map,
      List.map_snd_zip (Nat.le_of_eq hlen.symm)]
  rwa [hsnd] at hsum

/-- **Sixteen bytes for each vertex**: `wkb.len() / 16` never under-counts. -/
theorem vertexCount_le {g : Geometry} {outer : Bool} {orders : List Bool}
    (hlen : orders.length = g.headedParts) :
    g.vertexCount ≤ (g.encode outer orders).length / 16 := by
  have key : 16 * g.vertexCount ≤ (g.encode outer orders).length := by
    cases g with
    | point p =>
      simp only [Geometry.vertexCount, Geometry.encode, List.length_append, length_encodePosition]
      omega
    | lineString ps =>
      have := le_length_encodePositions outer ps
      simp only [Geometry.vertexCount, Geometry.encode, List.length_append]
      omega
    | polygon rings =>
      have := le_length_encodeRings outer rings
      simp only [Geometry.vertexCount, Geometry.encode, List.length_append]
      omega
    | multiLineString parts =>
      have := le_length_parts WKB_LINESTRING le_length_encodePositions hlen
      simp only [Geometry.vertexCount, Geometry.encode, List.length_append, List.length_flatten]
      omega
    | multiPolygon parts =>
      have := le_length_parts WKB_POLYGON le_length_encodeRings hlen
      have hsum : parts.flatten.flatten.length = (parts.map fun rings =>
          rings.flatten.length).sum := by
        rw [List.flatten_flatten, List.length_flatten, List.map_map]
        rfl
      simp only [Geometry.vertexCount, Geometry.encode, List.length_append, hsum]
      omega
  omega

namespace GeometryBuilder

theorem vertices_append {b : GeometryBuilder} {g : Geometry} (hg : Readable b.encoding g) :
    (b.append g).vertices = b.vertices + g.vertexCount := by
  cases b with
  | polygon b => cases g <;> first | exact hg.elim | exact half_append _ _
  | multiPolygon b =>
    cases g <;> first | exact hg.elim | skip
    case polygon rings =>
      refine (half_append b.coords [rings].flatten.flatten).trans ?_
      rw [List.flatten_singleton]
      rfl
    case multiPolygon parts => exact half_append _ _
  | point b => cases g <;> first | exact hg.elim | exact half_append _ _
  | lineString b => cases g <;> first | exact hg.elim | exact half_append _ _
  | multiLineString b =>
    cases g <;> first | exact hg.elim | skip
    case lineString ps =>
      refine (half_append b.coords [ps].flatten).trans ?_
      rw [List.flatten_singleton]
      rfl
    case multiLineString parts => exact half_append _ _

/-- No level has more items than there are vertices. -/
def Slim (b : GeometryBuilder) : Prop := ∀ n ∈ b.totals, n ≤ b.vertices

theorem slim_new : ∀ e : GeometryEncoding, (new e).Slim := by
  intro e
  cases e <;> simp [Slim, totals, new, PolygonBuilder.totals, MultiPolygonBuilder.totals,
    LineStringBuilder.totals, MultiLineStringBuilder.totals, PolygonBuilder.new,
    MultiPolygonBuilder.new, LineStringBuilder.new, MultiLineStringBuilder.new, vertices,
    PolygonBuilder.vertices, MultiPolygonBuilder.vertices, LineStringBuilder.vertices,
    MultiLineStringBuilder.vertices]

end GeometryBuilder

/-- Lists that are not empty are not more than their items. -/
theorem length_le_flatten {α : Type} : ∀ xss : List (List α), (∀ xs ∈ xss, 0 < xs.length) →
    xss.length ≤ xss.flatten.length := by
  intro xss
  induction xss with
  | nil => intro _; exact Nat.le_refl _
  | cons xs xss ih =>
    intro h
    have hx := h xs List.mem_cons_self
    have hxs := ih (fun ys hys => h ys (List.mem_cons_of_mem xs hys))
    rw [List.flatten_cons, List.length_append, List.length_cons]
    omega

theorem StrictPolygon.rings_le {rings : List (List Position)} (h : StrictPolygon rings) :
    rings.length ≤ rings.flatten.length :=
  length_le_flatten rings fun ring hring => by
    have := (h.2.2 ring hring).1
    omega

theorem strictParts_le {parts : List (List (List Position))}
    (h : ∀ rings ∈ parts, StrictPolygon rings) :
    parts.length ≤ parts.flatten.length ∧
      parts.flatten.length ≤ parts.flatten.flatten.length := by
  refine ⟨length_le_flatten parts fun rings hrings => ?_, ?_⟩
  · exact List.length_pos_iff.2 (h rings hrings).1
  · refine length_le_flatten parts.flatten fun ring hring => ?_
    obtain ⟨rings, hrings, hring⟩ := List.mem_flatten.1 hring
    have := ((h rings hrings).2.2 ring hring).1
    omega

namespace GeometryBuilder

/-- A level grows by the items appended to it. -/
theorem level_push {os : List Int32} (hos : 0 < os.length) (base : Nat) (sizes : List Nat) :
    (os ++ offsetsFrom base sizes).length - 1 = os.length - 1 + sizes.length := by
  rw [List.length_append, length_offsetsFrom]
  omega

theorem slim_append_multiPolygon {b : MultiPolygonBuilder} (hs : (multiPolygon b).Started)
    (hb : (multiPolygon b).Slim) {parts : List (List (List Position))}
    (hstrict : ∀ rings ∈ parts, StrictPolygon rings) :
    (multiPolygon (b.append parts)).Slim := by
  have hv : (b.append parts).vertices = b.vertices + parts.flatten.flatten.length :=
    half_append _ _
  have hr : (b.append parts).ringOffsets.length - 1 =
      b.ringOffsets.length - 1 + parts.flatten.length := by
    rw [MultiPolygonBuilder.append, level_push hs.1, List.length_map]
  have hp : (b.append parts).partOffsets.length - 1 = b.partOffsets.length - 1 + parts.length := by
    rw [MultiPolygonBuilder.append, level_push hs.2, List.length_map]
  obtain ⟨hparts, hrings⟩ := strictParts_le hstrict
  have hbr : b.ringOffsets.length - 1 ≤ b.vertices :=
    hb _ (by simp [totals, MultiPolygonBuilder.totals])
  have hbp : b.partOffsets.length - 1 ≤ b.vertices :=
    hb _ (by simp [totals, MultiPolygonBuilder.totals])
  intro n hn
  simp only [totals, MultiPolygonBuilder.totals, hr, hp, List.mem_cons, List.not_mem_nil,
    or_false] at hn
  change n ≤ (b.append parts).vertices
  omega

theorem slim_append_multiLineString {b : MultiLineStringBuilder}
    (hs : (multiLineString b).Started) (hb : (multiLineString b).Slim)
    {parts : List (List Position)} (hstrict : ∀ ps ∈ parts, StrictLine ps) :
    (multiLineString (b.append parts)).Slim := by
  have hv : (b.append parts).vertices = b.vertices + parts.flatten.length := half_append _ _
  have hp : (b.append parts).partOffsets.length - 1 = b.partOffsets.length - 1 + parts.length := by
    rw [MultiLineStringBuilder.append, level_push hs, List.length_map]
  have hparts : parts.length ≤ parts.flatten.length := length_le_flatten parts fun ps hps => by
    have := (hstrict ps hps).1
    omega
  have hbp : b.partOffsets.length - 1 ≤ b.vertices :=
    hb _ (by simp [totals, MultiLineStringBuilder.totals])
  intro n hn
  simp only [totals, MultiLineStringBuilder.totals, hp, List.mem_cons, List.not_mem_nil,
    or_false] at hn
  change n ≤ (b.append parts).vertices
  omega

/-- **Strict geometries keep a builder slim.** -/
theorem slim_append {b : GeometryBuilder} (hs : b.Started) (hb : b.Slim) {g : Geometry}
    (hg : Readable b.encoding g) (hstrict : g.Strict) : (b.append g).Slim := by
  cases b with
  | polygon b =>
    cases g <;> first | exact hg.elim | skip
    case polygon rings =>
      have hv : (b.append rings).vertices = b.vertices + rings.flatten.length := half_append _ _
      have hr : (b.append rings).ringOffsets.length - 1 =
          b.ringOffsets.length - 1 + rings.length := by
        rw [PolygonBuilder.append, level_push hs, List.length_map]
      have hrings := StrictPolygon.rings_le hstrict
      have hbr : b.ringOffsets.length - 1 ≤ b.vertices :=
        hb _ (by simp [totals, PolygonBuilder.totals])
      intro n hn
      simp only [append, totals, PolygonBuilder.totals, hr, List.mem_cons, List.not_mem_nil,
        or_false] at hn
      change n ≤ (b.append rings).vertices
      omega
  | multiPolygon b =>
    cases g <;> first | exact hg.elim | skip
    case polygon rings =>
      have hrings : StrictPolygon rings := hstrict
      exact slim_append_multiPolygon hs hb (by simpa using hrings)
    case multiPolygon parts => exact slim_append_multiPolygon hs hb hstrict.2.2
  | point b => cases g <;> first | exact hg.elim | (intro n hn; cases hn)
  | lineString b =>
    cases g <;> first | exact hg.elim | skip
    case lineString ps =>
      intro n hn
      rw [List.mem_singleton.1 hn]
      exact Nat.le_refl _
  | multiLineString b =>
    cases g <;> first | exact hg.elim | skip
    case lineString ps =>
      have hps : StrictLine ps := hstrict
      exact slim_append_multiLineString hs hb (by simpa using hps)
    case multiLineString parts => exact slim_append_multiLineString hs hb hstrict.2.2

theorem Slim.fits {b : GeometryBuilder} (h : b.Slim) (hv : b.vertices < 2 ^ 31) : b.Fits :=
  fun n hn => Nat.lt_of_le_of_lt (h n hn) hv

end GeometryBuilder

end SpatialIde.Engine.Wkb
