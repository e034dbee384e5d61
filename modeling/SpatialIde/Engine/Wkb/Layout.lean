import SpatialIde.Lib.Offsets
import SpatialIde.Engine.Wkb.Geometry

/-! # The geometries a builder holds

A builder is well formed when every offset buffer cuts the level below it and the
coordinates come in pairs.  `geometries` reads such a builder back, and `append`
is what adding one geometry does to its buffers.

* `geometries_append`: while the totals fit an `i32`, appending a geometry leaves
  a well-formed builder that holds one geometry more.
-/

namespace SpatialIde.Engine.Wkb

open Lib

/-! ### `i32` offsets -/

/-- The offsets at which items of the given sizes end, cast as the builders cast them. -/
def offsetsFrom (base : Nat) (sizes : List Nat) : List Int32 :=
  (ends base sizes).map Int32.ofNat

/-- The positions of an offset buffer. -/
def offsetValues (os : List Int32) : List Nat := os.map fun o => o.toInt.toNat

/-- No offset is negative, and together they cut a run of length `n`. -/
structure IsOffsetBuffer (os : List Int32) (n : Nat) : Prop where
  nonneg : ∀ o ∈ os, 0 ≤ o.toInt
  cuts : IsOffsets (offsetValues os) n

theorem toInt_ofNat {n : Nat} (hn : n < 2 ^ 31) : (Int32.ofNat n).toInt = n := by
  rw [Int32.toInt_ofNat']
  have hsize : Int32.size = 2 ^ 32 := rfl
  exact Int.bmod_eq_of_le (by omega) (by omega)

theorem offsetValues_offsetsFrom {base : Nat} {sizes : List Nat} (h : base + sizes.sum < 2 ^ 31) :
    offsetValues (offsetsFrom base sizes) = ends base sizes := by
  rw [offsetValues, offsetsFrom, List.map_map]
  conv_rhs => rw [← List.map_id (ends base sizes)]
  refine List.map_congr_left fun m hm => ?_
  have hle := (le_of_mem_ends sizes base m hm).2
  simp only [Function.comp_apply, id_eq]
  rw [toInt_ofNat (by omega), Int.toNat_natCast]

namespace IsOffsetBuffer

theorem start : IsOffsetBuffer [0] 0 := ⟨by simp, IsOffsets.start⟩

/-- Appending the ends of new items, as long as their total fits an `i32`. -/
theorem append {α : Type} {os : List Int32} {n n' : Nat} (h : IsOffsetBuffer os n)
    (yss : List (List α)) (hn' : n' = n + yss.flatten.length) (hfit : n' < 2 ^ 31) :
    IsOffsetBuffer (os ++ offsetsFrom n (yss.map List.length)) n' := by
  rw [List.length_flatten] at hn'
  subst hn'
  generalize yss.map List.length = sizes at *
  refine ⟨?_, ?_⟩
  · intro o ho
    rcases List.mem_append.1 ho with ho | ho
    · exact h.nonneg o ho
    · obtain ⟨m, hm, rfl⟩ := List.mem_map.1 ho
      have hle := (le_of_mem_ends sizes n m hm).2
      rw [toInt_ofNat (by omega)]
      omega
  · have happ : offsetValues (os ++ offsetsFrom n sizes) = offsetValues os ++ ends n sizes := by
      rw [← offsetValues_offsetsFrom hfit, offsetValues, List.map_append]
      rfl
    rw [happ]
    exact h.cuts.append sizes

end IsOffsetBuffer

/-- The items an offset buffer cuts a run into. -/
def items {α : Type} (os : List Int32) (xs : List α) : List (List α) := slices (offsetValues os) xs

theorem length_items {α : Type} (os : List Int32) (xs : List α) :
    (items os xs).length = os.length - 1 := by
  rw [items, length_slices, offsetValues, List.length_map]

theorem items_append {α : Type} {os : List Int32} {xs : List α} (h : IsOffsetBuffer os xs.length)
    {yss : List (List α)} (hfit : xs.length + yss.flatten.length < 2 ^ 31) :
    items (os ++ offsetsFrom xs.length (yss.map List.length)) (xs ++ yss.flatten) =
      items os xs ++ yss := by
  rw [List.length_flatten] at hfit
  rw [items, offsetValues, List.map_append]
  change slices (_ ++ offsetValues (offsetsFrom xs.length (yss.map List.length))) _ = _
  rw [offsetValues_offsetsFrom hfit]
  exact slices_append h.cuts yss

/-! ### Positions and coordinates -/

/-- The interleaved coordinates of positions. -/
def coordsOf (ps : List Position) : List F64 := ps.flatMap fun p => [p.x, p.y]

/-- The positions of interleaved coordinates. -/
def positionsOf : List F64 → List Position
  | x :: y :: cs => ⟨x, y⟩ :: positionsOf cs
  | _ => []

@[simp] theorem length_coordsOf : ∀ ps : List Position, (coordsOf ps).length = 2 * ps.length := by
  intro ps
  induction ps with
  | nil => rfl
  | cons p ps ih =>
    have hcons : coordsOf (p :: ps) = p.x :: p.y :: coordsOf ps := rfl
    rw [hcons, List.length_cons, List.length_cons, ih, List.length_cons]
    omega

@[simp] theorem positionsOf_coordsOf : ∀ ps : List Position, positionsOf (coordsOf ps) = ps := by
  intro ps
  induction ps with
  | nil => rfl
  | cons p ps ih =>
    have hcons : coordsOf (p :: ps) = p.x :: p.y :: coordsOf ps := rfl
    rw [hcons, positionsOf, ih]

/-- Coordinates that come in pairs are the coordinates of positions. -/
theorem exists_coordsOf : ∀ (n : Nat) (cs : List F64), cs.length = 2 * n →
    ∃ ps : List Position, ps.length = n ∧ cs = coordsOf ps := by
  intro n
  induction n with
  | zero =>
    intro cs h
    rw [List.length_eq_zero_iff.1 (by omega : cs.length = 0)]
    exact ⟨[], rfl, rfl⟩
  | succ n ih =>
    intro cs h
    match cs, h with
    | x :: y :: cs, h =>
      obtain ⟨ps, hlen, rfl⟩ := ih cs (by simp only [List.length_cons] at h; omega)
      exact ⟨⟨x, y⟩ :: ps, by rw [List.length_cons, hlen], rfl⟩

theorem coordsOf_append (ps qs : List Position) :
    coordsOf (ps ++ qs) = coordsOf ps ++ coordsOf qs := List.flatMap_append

theorem positionsOf_append {cs : List F64} (h : cs.length % 2 = 0) (ps : List Position) :
    positionsOf (cs ++ coordsOf ps) = positionsOf cs ++ ps := by
  obtain ⟨qs, _, rfl⟩ := exists_coordsOf (cs.length / 2) cs (by omega)
  rw [← coordsOf_append, positionsOf_coordsOf, positionsOf_coordsOf]

theorem length_positionsOf {cs : List F64} (h : cs.length % 2 = 0) :
    (positionsOf cs).length = cs.length / 2 := by
  obtain ⟨qs, hlen, rfl⟩ := exists_coordsOf (cs.length / 2) cs (by omega)
  rw [positionsOf_coordsOf, hlen]

/-! ### Builders -/

namespace PolygonBuilder

/-- The counts of each level: vertices, rings. -/
def totals (b : PolygonBuilder) : List Nat := [b.vertices, b.ringOffsets.length - 1]

structure WellFormed (b : PolygonBuilder) : Prop where
  paired : b.coords.length % 2 = 0
  rings : IsOffsetBuffer b.ringOffsets b.vertices
  geoms : IsOffsetBuffer b.geomOffsets (b.ringOffsets.length - 1)

def polygons (b : PolygonBuilder) : List (List (List Position)) :=
  items b.geomOffsets (items b.ringOffsets (positionsOf b.coords))

/-- One polygon more. -/
def append (b : PolygonBuilder) (rings : List (List Position)) : PolygonBuilder where
  coords := b.coords ++ coordsOf rings.flatten
  ringOffsets := b.ringOffsets ++ offsetsFrom b.vertices (rings.map List.length)
  geomOffsets := b.geomOffsets ++ offsetsFrom (b.ringOffsets.length - 1) [rings.length]

end PolygonBuilder

namespace MultiPolygonBuilder

/-- The counts of each level: vertices, rings, parts. -/
def totals (b : MultiPolygonBuilder) : List Nat :=
  [b.vertices, b.ringOffsets.length - 1, b.partOffsets.length - 1]

structure WellFormed (b : MultiPolygonBuilder) : Prop where
  paired : b.coords.length % 2 = 0
  rings : IsOffsetBuffer b.ringOffsets b.vertices
  parts : IsOffsetBuffer b.partOffsets (b.ringOffsets.length - 1)
  geoms : IsOffsetBuffer b.geomOffsets (b.partOffsets.length - 1)

def multiPolygons (b : MultiPolygonBuilder) : List (List (List (List Position))) :=
  items b.geomOffsets (items b.partOffsets (items b.ringOffsets (positionsOf b.coords)))

/-- One multipolygon more. -/
def append (b : MultiPolygonBuilder) (parts : List (List (List Position))) :
    MultiPolygonBuilder where
  coords := b.coords ++ coordsOf parts.flatten.flatten
  ringOffsets := b.ringOffsets ++ offsetsFrom b.vertices (parts.flatten.map List.length)
  partOffsets := b.partOffsets ++
    offsetsFrom (b.ringOffsets.length - 1) (parts.map List.length)
  geomOffsets := b.geomOffsets ++ offsetsFrom (b.partOffsets.length - 1) [parts.length]

end MultiPolygonBuilder

namespace PointBuilder

structure WellFormed (b : PointBuilder) : Prop where
  paired : b.coords.length % 2 = 0

def points (b : PointBuilder) : List Position := positionsOf b.coords

/-- One point more. -/
def append (b : PointBuilder) (p : Position) : PointBuilder := ⟨b.coords ++ coordsOf [p]⟩

end PointBuilder

namespace LineStringBuilder

def totals (b : LineStringBuilder) : List Nat := [b.vertices]

structure WellFormed (b : LineStringBuilder) : Prop where
  paired : b.coords.length % 2 = 0
  geoms : IsOffsetBuffer b.geomOffsets b.vertices

def lines (b : LineStringBuilder) : List (List Position) :=
  items b.geomOffsets (positionsOf b.coords)

/-- One line more. -/
def append (b : LineStringBuilder) (ps : List Position) : LineStringBuilder where
  coords := b.coords ++ coordsOf ps
  geomOffsets := b.geomOffsets ++ offsetsFrom b.vertices [ps.length]

end LineStringBuilder

namespace MultiLineStringBuilder

/-- The counts of each level: vertices, parts. -/
def totals (b : MultiLineStringBuilder) : List Nat := [b.vertices, b.partOffsets.length - 1]

structure WellFormed (b : MultiLineStringBuilder) : Prop where
  paired : b.coords.length % 2 = 0
  parts : IsOffsetBuffer b.partOffsets b.vertices
  geoms : IsOffsetBuffer b.geomOffsets (b.partOffsets.length - 1)

def multiLines (b : MultiLineStringBuilder) : List (List (List Position)) :=
  items b.geomOffsets (items b.partOffsets (positionsOf b.coords))

/-- One multilinestring more. -/
def append (b : MultiLineStringBuilder) (parts : List (List Position)) :
    MultiLineStringBuilder where
  coords := b.coords ++ coordsOf parts.flatten
  partOffsets := b.partOffsets ++ offsetsFrom b.vertices (parts.map List.length)
  geomOffsets := b.geomOffsets ++ offsetsFrom (b.partOffsets.length - 1) [parts.length]

end MultiLineStringBuilder

namespace GeometryBuilder

def totals : GeometryBuilder → List Nat
  | .polygon b => b.totals
  | .multiPolygon b => b.totals
  | .point _ => []
  | .lineString b => b.totals
  | .multiLineString b => b.totals

/-- Every count fits an `i32` offset. -/
def Fits (b : GeometryBuilder) : Prop := ∀ n ∈ b.totals, n < 2 ^ 31

def WellFormed : GeometryBuilder → Prop
  | .polygon b => b.WellFormed
  | .multiPolygon b => b.WellFormed
  | .point b => b.WellFormed
  | .lineString b => b.WellFormed
  | .multiLineString b => b.WellFormed

/-- **The geometries a builder holds**, read back through its offsets. -/
def geometries : GeometryBuilder → List Geometry
  | .polygon b => b.polygons.map .polygon
  | .multiPolygon b => b.multiPolygons.map .multiPolygon
  | .point b => b.points.map .point
  | .lineString b => b.lines.map .lineString
  | .multiLineString b => b.multiLines.map .multiLineString

/-- One geometry more, a single one being one part under the Multi encodings. -/
def append : GeometryBuilder → Geometry → GeometryBuilder
  | .polygon b, .polygon rings => .polygon (b.append rings)
  | .multiPolygon b, .polygon rings => .multiPolygon (b.append [rings])
  | .multiPolygon b, .multiPolygon parts => .multiPolygon (b.append parts)
  | .point b, .point p => .point (b.append p)
  | .lineString b, .lineString ps => .lineString (b.append ps)
  | .multiLineString b, .lineString ps => .multiLineString (b.append [ps])
  | .multiLineString b, .multiLineString parts => .multiLineString (b.append parts)
  | b, _ => b

end GeometryBuilder

/-! ### Appending keeps a builder well formed -/

theorem even_append {cs : List F64} (h : cs.length % 2 = 0) (ps : List Position) :
    (cs ++ coordsOf ps).length % 2 = 0 := by
  rw [List.length_append, length_coordsOf]
  omega

theorem half_append (cs : List F64) (ps : List Position) :
    (cs ++ coordsOf ps).length / 2 = cs.length / 2 + ps.length := by
  rw [List.length_append, length_coordsOf]
  omega

/-- Appending to the level whose items are positions. -/
theorem items_positions_append {cs : List F64} {os : List Int32} (hp : cs.length % 2 = 0)
    (h : IsOffsetBuffer os (cs.length / 2)) (pss : List (List Position))
    (hfit : (cs ++ coordsOf pss.flatten).length / 2 < 2 ^ 31) :
    items (os ++ offsetsFrom (cs.length / 2) (pss.map List.length))
        (positionsOf (cs ++ coordsOf pss.flatten)) = items os (positionsOf cs) ++ pss := by
  rw [half_append, ← length_positionsOf hp] at hfit
  rw [← length_positionsOf hp] at h ⊢
  rw [positionsOf_append hp]
  exact items_append h hfit

theorem length_offsetsFrom (base : Nat) (sizes : List Nat) :
    (offsetsFrom base sizes).length = sizes.length := by
  rw [offsetsFrom, List.length_map, length_ends]

/-- The item count of a level after its offset buffer grew. -/
theorem level_append {α : Type} {os : List Int32} {n : Nat} (h : IsOffsetBuffer os n) (base : Nat)
    (yss : List (List α)) :
    (os ++ offsetsFrom base (yss.map List.length)).length - 1 = os.length - 1 + yss.length := by
  have hne := h.cuts.ne_nil
  rw [offsetValues, Ne, List.map_eq_nil_iff] at hne
  have hpos : 0 < os.length := List.length_pos_iff.2 hne
  rw [List.length_append, length_offsetsFrom, List.length_map]
  omega

/-- Appending to a level whose items are the items of the level below. -/
theorem items_items_append {α : Type} {os os' : List Int32} (xs : List α)
    (h : IsOffsetBuffer os (os'.length - 1)) (yss : List (List (List α)))
    (hfit : os'.length - 1 + yss.flatten.length < 2 ^ 31) :
    items (os ++ offsetsFrom (os'.length - 1) (yss.map List.length)) (items os' xs ++ yss.flatten) =
      items os (items os' xs) ++ yss := by
  rw [← length_items os' xs] at h hfit ⊢
  exact items_append h hfit

theorem PolygonBuilder.append_spec {b : PolygonBuilder} (h : b.WellFormed)
    (rings : List (List Position)) (hfit : ∀ n ∈ (b.append rings).totals, n < 2 ^ 31) :
    (b.append rings).WellFormed ∧ (b.append rings).polygons = b.polygons ++ [rings] := by
  have hv : (b.append rings).vertices < 2 ^ 31 := hfit _ (by simp [totals])
  have hr : (b.append rings).ringOffsets.length - 1 < 2 ^ 31 := hfit _ (by simp [totals])
  have hcount : (b.append rings).ringOffsets.length - 1 =
      b.ringOffsets.length - 1 + [rings].flatten.length := by
    rw [append, level_append h.rings, List.flatten_singleton]
  refine ⟨⟨even_append h.paired _, h.rings.append _ (half_append _ _) hv,
    h.geoms.append [rings] hcount hr⟩, ?_⟩
  have hlow := items_positions_append h.paired h.rings _ hv
  have hgeoms := items_items_append (positionsOf b.coords) h.geoms [rings]
    (by rwa [← hcount])
  simp only [polygons, append, vertices]
  rw [hlow]
  rwa [List.flatten_singleton] at hgeoms

theorem MultiPolygonBuilder.append_spec {b : MultiPolygonBuilder} (h : b.WellFormed)
    (parts : List (List (List Position))) (hfit : ∀ n ∈ (b.append parts).totals, n < 2 ^ 31) :
    (b.append parts).WellFormed ∧
      (b.append parts).multiPolygons = b.multiPolygons ++ [parts] := by
  have hv : (b.append parts).vertices < 2 ^ 31 := hfit _ (by simp [totals])
  have hr : (b.append parts).ringOffsets.length - 1 < 2 ^ 31 := hfit _ (by simp [totals])
  have hp : (b.append parts).partOffsets.length - 1 < 2 ^ 31 := hfit _ (by simp [totals])
  have hrings : (b.append parts).ringOffsets.length - 1 =
      b.ringOffsets.length - 1 + parts.flatten.length := level_append h.rings _ _
  have hparts : (b.append parts).partOffsets.length - 1 =
      b.partOffsets.length - 1 + [parts].flatten.length := by
    rw [append, level_append h.parts, List.flatten_singleton]
  refine ⟨⟨even_append h.paired _, h.rings.append _ (half_append _ _) hv,
    h.parts.append _ hrings hr, h.geoms.append [parts] hparts hp⟩, ?_⟩
  have hlow := items_positions_append h.paired h.rings _ hv
  have hmid := items_items_append (positionsOf b.coords) h.parts parts (by rwa [← hrings])
  have hgeoms := items_items_append (items b.ringOffsets (positionsOf b.coords)) h.geoms
    [parts] (by rwa [← hparts])
  simp only [multiPolygons, append, vertices]
  rw [hlow, hmid]
  rwa [List.flatten_singleton] at hgeoms

theorem PointBuilder.append_spec {b : PointBuilder} (h : b.WellFormed) (p : Position) :
    (b.append p).WellFormed ∧ (b.append p).points = b.points ++ [p] :=
  ⟨⟨even_append h.paired _⟩, positionsOf_append h.paired [p]⟩

theorem LineStringBuilder.append_spec {b : LineStringBuilder} (h : b.WellFormed)
    (ps : List Position) (hfit : ∀ n ∈ (b.append ps).totals, n < 2 ^ 31) :
    (b.append ps).WellFormed ∧ (b.append ps).lines = b.lines ++ [ps] := by
  have hv : (b.append ps).vertices < 2 ^ 31 := hfit _ (by simp [totals])
  have hflat : [ps].flatten = ps := List.flatten_singleton
  have hlow := items_positions_append h.paired h.geoms [ps] (by rwa [hflat])
  rw [hflat] at hlow
  refine ⟨⟨even_append h.paired _, h.geoms.append [ps] ?_ hv⟩, hlow⟩
  rw [hflat]
  exact half_append _ _

theorem MultiLineStringBuilder.append_spec {b : MultiLineStringBuilder} (h : b.WellFormed)
    (parts : List (List Position)) (hfit : ∀ n ∈ (b.append parts).totals, n < 2 ^ 31) :
    (b.append parts).WellFormed ∧ (b.append parts).multiLines = b.multiLines ++ [parts] := by
  have hv : (b.append parts).vertices < 2 ^ 31 := hfit _ (by simp [totals])
  have hp : (b.append parts).partOffsets.length - 1 < 2 ^ 31 := hfit _ (by simp [totals])
  have hparts : (b.append parts).partOffsets.length - 1 =
      b.partOffsets.length - 1 + [parts].flatten.length := by
    rw [append, level_append h.parts, List.flatten_singleton]
  refine ⟨⟨even_append h.paired _, h.parts.append _ (half_append _ _) hv,
    h.geoms.append [parts] hparts hp⟩, ?_⟩
  have hlow := items_positions_append h.paired h.parts _ hv
  have hgeoms := items_items_append (positionsOf b.coords) h.geoms [parts]
    (by rwa [← hparts])
  simp only [multiLines, append, vertices]
  rw [hlow]
  rwa [List.flatten_singleton] at hgeoms

namespace GeometryBuilder

theorem wellFormed_new : ∀ e : GeometryEncoding, (new e).WellFormed := by
  intro e
  cases e with
  | polygon => exact ⟨rfl, IsOffsetBuffer.start, IsOffsetBuffer.start⟩
  | multiPolygon =>
    exact ⟨rfl, IsOffsetBuffer.start, IsOffsetBuffer.start, IsOffsetBuffer.start⟩
  | point => exact ⟨rfl⟩
  | lineString => exact ⟨rfl, IsOffsetBuffer.start⟩
  | multiLineString => exact ⟨rfl, IsOffsetBuffer.start, IsOffsetBuffer.start⟩

@[simp] theorem encoding_new : ∀ e : GeometryEncoding, (new e).encoding = e := by
  intro e
  cases e <;> rfl

@[simp] theorem geometries_new : ∀ e : GeometryEncoding, (new e).geometries = [] := by
  intro e
  cases e <;> rfl

@[simp] theorem encoding_append (b : GeometryBuilder) (g : Geometry) :
    (b.append g).encoding = b.encoding := by
  cases b <;> cases g <;> rfl

/-- **Appending a readable geometry** to a well-formed builder leaves a well-formed builder that
holds the old geometries and the new one, while the totals fit an `i32`. -/
theorem geometries_append {b : GeometryBuilder} (h : b.WellFormed) {g : Geometry}
    (hg : Readable b.encoding g) (hfit : (b.append g).Fits) :
    (b.append g).WellFormed ∧
      (b.append g).geometries = b.geometries ++ [normal b.encoding g] := by
  cases b with
  | polygon b =>
    cases g <;> first | exact hg.elim | skip
    case polygon rings =>
      obtain ⟨hwf, heq⟩ := PolygonBuilder.append_spec h rings hfit
      exact ⟨hwf, by simp [geometries, append, heq, normal, encoding]⟩
  | multiPolygon b =>
    cases g <;> first | exact hg.elim | skip
    case polygon rings =>
      obtain ⟨hwf, heq⟩ := MultiPolygonBuilder.append_spec h [rings] hfit
      exact ⟨hwf, by simp [geometries, append, heq, normal, encoding]⟩
    case multiPolygon parts =>
      obtain ⟨hwf, heq⟩ := MultiPolygonBuilder.append_spec h parts hfit
      exact ⟨hwf, by simp [geometries, append, heq, normal, encoding]⟩
  | point b =>
    cases g <;> first | exact hg.elim | skip
    case point p =>
      obtain ⟨hwf, heq⟩ := PointBuilder.append_spec h p
      exact ⟨hwf, by simp [geometries, append, heq, normal, encoding]⟩
  | lineString b =>
    cases g <;> first | exact hg.elim | skip
    case lineString ps =>
      obtain ⟨hwf, heq⟩ := LineStringBuilder.append_spec h ps hfit
      exact ⟨hwf, by simp [geometries, append, heq, normal, encoding]⟩
  | multiLineString b =>
    cases g <;> first | exact hg.elim | skip
    case lineString ps =>
      obtain ⟨hwf, heq⟩ := MultiLineStringBuilder.append_spec h [ps] hfit
      exact ⟨hwf, by simp [geometries, append, heq, normal, encoding]⟩
    case multiLineString parts =>
      obtain ⟨hwf, heq⟩ := MultiLineStringBuilder.append_spec h parts hfit
      exact ⟨hwf, by simp [geometries, append, heq, normal, encoding]⟩

end GeometryBuilder

end SpatialIde.Engine.Wkb
