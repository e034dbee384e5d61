import SpatialIde.Engine.Wkb.Rows

/-! # What accepted rows add up to

A run of accepted rows leaves a builder in closed form: the coordinates of the
geometries one after the other, and at each level the running totals of their
sizes, cast to `i32`.

* `holding`: that closed form, and `trueOffsets` before the cast;
* `pushRows_eq_ok_iff`: a run of pushes succeeds exactly on encodings of strict
  geometries, and leaves the builder holding them.
-/

namespace SpatialIde.Engine.Wkb

open Lib

/-! ### Geometries as each builder sees them -/

namespace Geometry

def asPoint : Geometry → List Position
  | .point p => [p]
  | _ => []

def asLine : Geometry → List Position
  | .lineString ps => ps
  | _ => []

def asPolygon : Geometry → List (List Position)
  | .polygon rings => rings
  | _ => []

/-- The parts, a single line being one. -/
def asMultiLine : Geometry → List (List Position)
  | .lineString ps => [ps]
  | .multiLineString parts => parts
  | _ => []

/-- The parts, a single polygon being one. -/
def asMultiPolygon : Geometry → List (List (List Position))
  | .polygon rings => [rings]
  | .multiPolygon parts => parts
  | _ => []

end Geometry

/-- The offset buffer of items of the given sizes, as the builders cast it. -/
def offsetsOf (sizes : List Nat) : List Int32 := (cuts sizes).map Int32.ofNat

theorem offsetsOf_append (ns ms : List Nat) :
    offsetsOf ns ++ offsetsFrom ns.sum ms = offsetsOf (ns ++ ms) := by
  rw [offsetsOf, offsetsOf, offsetsFrom, ← List.map_append, ← cuts_append]

@[simp] theorem length_offsetsOf (sizes : List Nat) :
    (offsetsOf sizes).length = sizes.length + 1 := by
  rw [offsetsOf, List.length_map, length_cuts]

/-! ### Builders in closed form -/

def PolygonBuilder.holding (gs : List (List (List Position))) : PolygonBuilder where
  coords := coordsOf gs.flatten.flatten
  ringOffsets := offsetsOf (gs.flatten.map List.length)
  geomOffsets := offsetsOf (gs.map List.length)

def MultiPolygonBuilder.holding (gs : List (List (List (List Position)))) :
    MultiPolygonBuilder where
  coords := coordsOf gs.flatten.flatten.flatten
  ringOffsets := offsetsOf (gs.flatten.flatten.map List.length)
  partOffsets := offsetsOf (gs.flatten.map List.length)
  geomOffsets := offsetsOf (gs.map List.length)

def LineStringBuilder.holding (gs : List (List Position)) : LineStringBuilder where
  coords := coordsOf gs.flatten
  geomOffsets := offsetsOf (gs.map List.length)

def MultiLineStringBuilder.holding (gs : List (List (List Position))) :
    MultiLineStringBuilder where
  coords := coordsOf gs.flatten.flatten
  partOffsets := offsetsOf (gs.flatten.map List.length)
  geomOffsets := offsetsOf (gs.map List.length)

theorem half_coordsOf (ps : List Position) : (coordsOf ps).length / 2 = ps.length := by
  rw [length_coordsOf]
  omega

/-- A level of lists after one list more. -/
theorem offsetsOf_snoc {α : Type} (xss yss : List (List α)) :
    offsetsOf (xss.map List.length) ++ offsetsFrom xss.flatten.length (yss.map List.length) =
      offsetsOf ((xss ++ yss).map List.length) := by
  rw [List.length_flatten, offsetsOf_append, List.map_append]

theorem PolygonBuilder.holding_append (gs : List (List (List Position)))
    (g : List (List Position)) : (holding gs).append g = holding (gs ++ [g]) := by
  have hrings := offsetsOf_snoc gs.flatten g
  have hgeoms := offsetsOf_snoc gs [g]
  simp only [holding, append, vertices, half_coordsOf, length_offsetsOf, List.length_map,
    Nat.add_sub_cancel, ← coordsOf_append, hrings]
  rw [List.map_singleton] at hgeoms
  rw [hgeoms]
  simp only [List.flatten_append, List.flatten_singleton]

theorem MultiPolygonBuilder.holding_append (gs : List (List (List (List Position))))
    (g : List (List (List Position))) : (holding gs).append g = holding (gs ++ [g]) := by
  have hrings := offsetsOf_snoc gs.flatten.flatten g.flatten
  have hparts := offsetsOf_snoc gs.flatten g
  have hgeoms := offsetsOf_snoc gs [g]
  simp only [holding, append, vertices, half_coordsOf, length_offsetsOf, List.length_map,
    Nat.add_sub_cancel, ← coordsOf_append, hrings, hparts]
  rw [List.map_singleton] at hgeoms
  rw [hgeoms]
  simp only [List.flatten_append, List.flatten_singleton]

theorem LineStringBuilder.holding_append (gs : List (List Position)) (g : List Position) :
    (holding gs).append g = holding (gs ++ [g]) := by
  have hgeoms := offsetsOf_snoc gs [g]
  simp only [holding, append, vertices, half_coordsOf, ← coordsOf_append]
  rw [List.map_singleton] at hgeoms
  rw [hgeoms]
  simp only [List.flatten_append, List.flatten_singleton]

theorem MultiLineStringBuilder.holding_append (gs : List (List (List Position)))
    (g : List (List Position)) : (holding gs).append g = holding (gs ++ [g]) := by
  have hparts := offsetsOf_snoc gs.flatten g
  have hgeoms := offsetsOf_snoc gs [g]
  simp only [holding, append, vertices, half_coordsOf, length_offsetsOf, List.length_map,
    Nat.add_sub_cancel, ← coordsOf_append, hparts]
  rw [List.map_singleton] at hgeoms
  rw [hgeoms]
  simp only [List.flatten_append, List.flatten_singleton]

/-- `bytes` are the encoding of a strict geometry the builder of `encoding` reads. -/
def Encodes (encoding : GeometryEncoding) (bytes : List UInt8) (g : Geometry) : Prop :=
  Readable encoding g ∧ g.Strict ∧ ∃ (outer : Bool) (orders : List Bool),
    orders.length = g.headedParts ∧ bytes = g.encode outer orders

theorem Encodes.strict {encoding : GeometryEncoding} {rows : List (List UInt8)}
    {gs : List Geometry} (h : List.Forall₂ (Encodes encoding) rows gs) :
    ∀ g ∈ gs, Readable encoding g ∧ g.Strict := by
  induction h with
  | nil => intro g hg; cases hg
  | cons hfirst _ ih => exact List.forall_mem_cons.2 ⟨⟨hfirst.1, hfirst.2.1⟩, ih⟩

namespace GeometryBuilder

/-- The builder of an encoding that holds the geometries `gs`. -/
def holding : GeometryEncoding → List Geometry → GeometryBuilder
  | .polygon, gs => .polygon (.holding (gs.map Geometry.asPolygon))
  | .multiPolygon, gs => .multiPolygon (.holding (gs.map Geometry.asMultiPolygon))
  | .point, gs => .point ⟨coordsOf (gs.flatMap Geometry.asPoint)⟩
  | .lineString, gs => .lineString (.holding (gs.map Geometry.asLine))
  | .multiLineString, gs => .multiLineString (.holding (gs.map Geometry.asMultiLine))

@[simp] theorem encoding_holding (encoding : GeometryEncoding) (gs : List Geometry) :
    (holding encoding gs).encoding = encoding := by
  cases encoding <;> rfl

theorem holding_nil (encoding : GeometryEncoding) : holding encoding [] = new encoding := by
  cases encoding <;> rfl

theorem started_holding (encoding : GeometryEncoding) (gs : List Geometry) :
    (holding encoding gs).Started := by
  cases encoding <;> simp [holding, Started, PolygonBuilder.holding, MultiPolygonBuilder.holding,
    MultiLineStringBuilder.holding]

/-- **Appending a geometry** to a builder in closed form. -/
theorem holding_append {encoding : GeometryEncoding} (gs : List Geometry) {g : Geometry}
    (hg : Readable encoding g) : (holding encoding gs).append g = holding encoding (gs ++ [g]) := by
  cases encoding with
  | polygon =>
    cases g <;> first | exact hg.elim | skip
    case polygon rings =>
      have h := PolygonBuilder.holding_append (gs.map Geometry.asPolygon) rings
      simp only [holding, append, h, List.map_append, List.map_singleton, Geometry.asPolygon]
  | multiPolygon =>
    cases g <;> first | exact hg.elim | skip
    case polygon rings =>
      have h := MultiPolygonBuilder.holding_append (gs.map Geometry.asMultiPolygon) [rings]
      simp only [holding, append, h, List.map_append, List.map_singleton, Geometry.asMultiPolygon]
    case multiPolygon parts =>
      have h := MultiPolygonBuilder.holding_append (gs.map Geometry.asMultiPolygon) parts
      simp only [holding, append, h, List.map_append, List.map_singleton, Geometry.asMultiPolygon]
  | point =>
    cases g <;> first | exact hg.elim | skip
    case point p =>
      simp only [holding, append, PointBuilder.append, List.flatMap_append, List.flatMap_singleton,
        Geometry.asPoint, coordsOf_append]
  | lineString =>
    cases g <;> first | exact hg.elim | skip
    case lineString ps =>
      have h := LineStringBuilder.holding_append (gs.map Geometry.asLine) ps
      simp only [holding, append, h, List.map_append, List.map_singleton, Geometry.asLine]
  | multiLineString =>
    cases g <;> first | exact hg.elim | skip
    case lineString ps =>
      have h := MultiLineStringBuilder.holding_append (gs.map Geometry.asMultiLine) [ps]
      simp only [holding, append, h, List.map_append, List.map_singleton, Geometry.asMultiLine]
    case multiLineString parts =>
      have h := MultiLineStringBuilder.holding_append (gs.map Geometry.asMultiLine) parts
      simp only [holding, append, h, List.map_append, List.map_singleton, Geometry.asMultiLine]

/-- Rows pushed one after the other, up to the first refusal. -/
def pushRows (b : GeometryBuilder) : List (List UInt8) → Except EngineError GeometryBuilder
  | [] => .ok b
  | wkb :: rows =>
    match b.pushWkb wkb with
    | (.ok (), b') => b'.pushRows rows
    | (.error e, _) => .error e

theorem pushRows_cons_eq_ok_iff {b b' : GeometryBuilder} {wkb : List UInt8}
    {rows : List (List UInt8)} : b.pushRows (wkb :: rows) = .ok b' ↔
      ∃ d, b.pushWkb wkb = (.ok (), d) ∧ d.pushRows rows = .ok b' := by
  rw [pushRows]
  rcases b.pushWkb wkb with ⟨_ | ⟨⟩, d⟩
  · simp
  · simp

/-- **A run of pushes succeeds exactly on encodings** of strict geometries, and leaves the builder
holding them after those it held. -/
theorem pushRows_eq_ok_iff {encoding : GeometryEncoding} {b : GeometryBuilder} :
    ∀ (rows : List (List UInt8)) (held : List Geometry),
      (holding encoding held).pushRows rows = .ok b ↔
        ∃ gs, List.Forall₂ (Encodes encoding) rows gs ∧ b = holding encoding (held ++ gs) := by
  intro rows
  induction rows with
  | nil =>
    intro held
    simp [pushRows, eq_comm]
  | cons wkb rows ih =>
    intro held
    rw [pushRows_cons_eq_ok_iff]
    constructor
    · rintro ⟨d, hpush, hrest⟩
      obtain ⟨g, outer, orders, hread, hstrict, hlen, hbytes, rfl⟩ :=
        (pushWkb_eq_ok_iff (started_holding encoding held)).1 hpush
      rw [encoding_holding] at hread
      rw [holding_append held hread, ih] at hrest
      obtain ⟨gs, hrows, hb⟩ := hrest
      refine ⟨g :: gs, .cons ⟨hread, hstrict, outer, orders, hlen, hbytes⟩ hrows, ?_⟩
      rw [hb, List.append_assoc, List.singleton_append]
    · rintro ⟨gs, hrows, hb⟩
      cases hrows with
      | @cons _ g _ gs hg hrows =>
        obtain ⟨hread, hstrict, outer, orders, hlen, hbytes⟩ := hg
        refine ⟨(holding encoding held).append g,
          (pushWkb_eq_ok_iff (started_holding encoding held)).2
            ⟨g, outer, orders, by rwa [encoding_holding], hstrict, hlen, hbytes, rfl⟩, ?_⟩
        rw [holding_append held hread, ih]
        exact ⟨gs, hrows, by rw [hb, List.append_assoc, List.singleton_append]⟩

/-- The interleaved coordinates. -/
def coords : GeometryBuilder → List F64
  | .polygon b => b.coords
  | .multiPolygon b => b.coords
  | .point b => b.coords
  | .lineString b => b.coords
  | .multiLineString b => b.coords

/-- The offset buffers, outermost first. -/
def levels : GeometryBuilder → List (List Int32)
  | .polygon b => [b.geomOffsets, b.ringOffsets]
  | .multiPolygon b => [b.geomOffsets, b.partOffsets, b.ringOffsets]
  | .point _ => []
  | .lineString b => [b.geomOffsets]
  | .multiLineString b => [b.geomOffsets, b.partOffsets]

/-- The sizes of the items at each level, outermost first: the parts or rings of each geometry, the
rings of each part, the vertices of each ring or line. -/
def levelSizes (encoding : GeometryEncoding) (gs : List Geometry) : List (List Nat) :=
  match encoding with
  | .polygon =>
    let polygons := gs.map Geometry.asPolygon
    [polygons.map List.length, polygons.flatten.map List.length]
  | .multiPolygon =>
    let multiPolygons := gs.map Geometry.asMultiPolygon
    [multiPolygons.map List.length, multiPolygons.flatten.map List.length,
      multiPolygons.flatten.flatten.map List.length]
  | .point => []
  | .lineString => [(gs.map Geometry.asLine).map List.length]
  | .multiLineString =>
    let multiLines := gs.map Geometry.asMultiLine
    [multiLines.map List.length, multiLines.flatten.map List.length]

/-- The offsets the buffers stand for: at each level how many rings, parts or vertices come before
each item and in all, as numbers without bound. -/
def trueOffsets (encoding : GeometryEncoding) (gs : List Geometry) : List (List Nat) :=
  (levelSizes encoding gs).map cuts

theorem levels_holding (encoding : GeometryEncoding) (gs : List Geometry) :
    (holding encoding gs).levels = (levelSizes encoding gs).map offsetsOf := by
  cases encoding <;> rfl

theorem strict_asPolygon {gs : List Geometry} (h : ∀ g ∈ gs, Readable .polygon g ∧ g.Strict) :
    ∀ rings ∈ gs.map Geometry.asPolygon, StrictPolygon rings := by
  intro rings hrings
  obtain ⟨g, hg, rfl⟩ := List.mem_map.1 hrings
  obtain ⟨hread, hstrict⟩ := h g hg
  cases g <;> first | exact hread.elim | exact hstrict

theorem strict_asMultiPolygon {gs : List Geometry}
    (h : ∀ g ∈ gs, Readable .multiPolygon g ∧ g.Strict) :
    ∀ parts ∈ gs.map Geometry.asMultiPolygon, parts ≠ [] ∧ IsCount parts.length ∧
      ∀ rings ∈ parts, StrictPolygon rings := by
  intro parts hparts
  obtain ⟨g, hg, rfl⟩ := List.mem_map.1 hparts
  obtain ⟨hread, hstrict⟩ := h g hg
  cases g <;> first | exact hread.elim | skip
  case polygon rings =>
    exact ⟨List.cons_ne_nil _ _, (by decide : IsCount 1),
      fun rings' hmem => List.mem_singleton.1 hmem ▸ hstrict⟩
  case multiPolygon parts => exact hstrict

theorem strict_asLine {gs : List Geometry} (h : ∀ g ∈ gs, Readable .lineString g ∧ g.Strict) :
    ∀ ps ∈ gs.map Geometry.asLine, StrictLine ps := by
  intro ps hps
  obtain ⟨g, hg, rfl⟩ := List.mem_map.1 hps
  obtain ⟨hread, hstrict⟩ := h g hg
  cases g <;> first | exact hread.elim | exact hstrict

theorem strict_asMultiLine {gs : List Geometry}
    (h : ∀ g ∈ gs, Readable .multiLineString g ∧ g.Strict) :
    ∀ parts ∈ gs.map Geometry.asMultiLine, parts ≠ [] ∧ IsCount parts.length ∧
      ∀ ps ∈ parts, StrictLine ps := by
  intro parts hparts
  obtain ⟨g, hg, rfl⟩ := List.mem_map.1 hparts
  obtain ⟨hread, hstrict⟩ := h g hg
  cases g <;> first | exact hread.elim | skip
  case lineString ps =>
    exact ⟨List.cons_ne_nil _ _, (by decide : IsCount 1),
      fun ps' hmem => List.mem_singleton.1 hmem ▸ hstrict⟩
  case multiLineString parts => exact hstrict

/-- **No size needs more than the 32 bits of a WKB count.** -/
theorem isCount_of_levelSizes {encoding : GeometryEncoding} {gs : List Geometry}
    (h : ∀ g ∈ gs, Readable encoding g ∧ g.Strict) :
    ∀ sizes ∈ levelSizes encoding gs, ∀ n ∈ sizes, IsCount n := by
  cases encoding with
  | polygon =>
    have hall := strict_asPolygon h
    intro sizes hsizes n hn
    simp only [levelSizes, List.mem_cons, List.not_mem_nil, or_false] at hsizes
    rcases hsizes with rfl | rfl
    · obtain ⟨rings, hrings, rfl⟩ := List.mem_map.1 hn
      exact (hall rings hrings).2.1
    · obtain ⟨ring, hring, rfl⟩ := List.mem_map.1 hn
      obtain ⟨rings, hrings, hin⟩ := List.mem_flatten.1 hring
      exact ((hall rings hrings).2.2 ring hin).2.1
  | multiPolygon =>
    have hall := strict_asMultiPolygon h
    intro sizes hsizes n hn
    simp only [levelSizes, List.mem_cons, List.not_mem_nil, or_false] at hsizes
    rcases hsizes with rfl | rfl | rfl
    · obtain ⟨parts, hparts, rfl⟩ := List.mem_map.1 hn
      exact (hall parts hparts).2.1
    · obtain ⟨rings, hrings, rfl⟩ := List.mem_map.1 hn
      obtain ⟨parts, hparts, hin⟩ := List.mem_flatten.1 hrings
      exact ((hall parts hparts).2.2 rings hin).2.1
    · obtain ⟨ring, hring, rfl⟩ := List.mem_map.1 hn
      obtain ⟨rings, hrings, hin⟩ := List.mem_flatten.1 hring
      obtain ⟨parts, hparts, hmid⟩ := List.mem_flatten.1 hrings
      exact (((hall parts hparts).2.2 rings hmid).2.2 ring hin).2.1
  | point => intro sizes hsizes; cases hsizes
  | lineString =>
    intro sizes hsizes n hn
    rw [List.mem_singleton.1 hsizes] at hn
    obtain ⟨ps, hps, rfl⟩ := List.mem_map.1 hn
    exact (strict_asLine h ps hps).2
  | multiLineString =>
    have hall := strict_asMultiLine h
    intro sizes hsizes n hn
    simp only [levelSizes, List.mem_cons, List.not_mem_nil, or_false] at hsizes
    rcases hsizes with rfl | rfl
    · obtain ⟨parts, hparts, rfl⟩ := List.mem_map.1 hn
      exact (hall parts hparts).2.1
    · obtain ⟨ps, hps, rfl⟩ := List.mem_map.1 hn
      obtain ⟨parts, hparts, hin⟩ := List.mem_flatten.1 hps
      exact ((hall parts hparts).2.2 ps hin).2

theorem pushRows_new_eq_ok_iff {encoding : GeometryEncoding} {rows : List (List UInt8)}
    {b : GeometryBuilder} : (new encoding).pushRows rows = .ok b ↔
      ∃ gs, List.Forall₂ (Encodes encoding) rows gs ∧ b = holding encoding gs := by
  rw [← holding_nil, pushRows_eq_ok_iff]
  simp only [List.nil_append]

end GeometryBuilder

end SpatialIde.Engine.Wkb
