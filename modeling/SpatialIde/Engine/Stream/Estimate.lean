import SpatialIde.Engine.Stream.Policy
import SpatialIde.Engine.Wkb.Size
import SpatialIde.Engine.Wkb.Totals

/-! # The byte estimate bounds the buffers

`estimate_bytes` is one formula for five layouts.  What it has to leave room for
beyond coordinates and ids is the entries of the offset buffers, one more at
each level than there are items.  A ring has four vertices and a line two, so
the levels above the vertices are small against them; the leading entries fit
as soon as there are two rows.
-/

namespace SpatialIde.Engine.Stream

open Lib Wkb

/-- Lists of at least `k` items each. -/
theorem mul_length_le_flatten {α : Type} {k : Nat} : ∀ xss : List (List α),
    (∀ xs ∈ xss, k ≤ xs.length) → k * xss.length ≤ xss.flatten.length := by
  intro xss
  induction xss with
  | nil => intro _; simp
  | cons xs xss ih =>
    intro h
    have hfirst := h xs List.mem_cons_self
    have hrest := ih fun ys hys => h ys (List.mem_cons_of_mem xs hys)
    rw [List.flatten_cons, List.length_append, List.length_cons, Nat.mul_add, Nat.mul_one]
    omega

/-- What the buffers of a batch occupy: eight bytes for each coordinate value and each id, four for
each entry of an offset buffer. -/
def bufferBytes (rows : Nat) (b : GeometryBuilder) : Nat :=
  8 * b.coords.length + 8 * rows + 4 * (b.levels.map List.length).sum

/-- The rings of polygons: at least one each, of at least four vertices. -/
theorem polygon_counts {polygons : List (List (List Position))}
    (h : ∀ rings ∈ polygons, StrictPolygon rings) :
    polygons.length ≤ polygons.flatten.length ∧
      4 * polygons.flatten.length ≤ polygons.flatten.flatten.length := by
  constructor
  · have hone := mul_length_le_flatten (k := 1) polygons fun rings hrings =>
      List.length_pos_iff.2 (h rings hrings).1
    omega
  · refine mul_length_le_flatten polygons.flatten fun ring hring => ?_
    obtain ⟨rings, hrings, hin⟩ := List.mem_flatten.1 hring
    exact ((h rings hrings).2.2 ring hin).1

/-- **The estimate bounds the buffers**: of two or more accepted rows, whatever the encoding, the
coordinates, ids and offsets, leading entries included, occupy at most `estimate_bytes`. -/
theorem bufferBytes_le_estimateBytes {encoding : GeometryEncoding} {rows : List (List UInt8)}
    {b : GeometryBuilder} (hpushed : (GeometryBuilder.new encoding).pushRows rows = .ok b)
    (htwo : 2 ≤ rows.length) :
    bufferBytes rows.length b ≤ estimateBytes rows.length b.vertices := by
  obtain ⟨gs, hrows, rfl⟩ := GeometryBuilder.pushRows_new_eq_ok_iff.1 hpushed
  have hlen : rows.length = gs.length := hrows.length_eq
  have hstrict := Encodes.strict hrows
  rw [hlen] at htwo ⊢
  cases encoding with
  | polygon =>
    have hall := GeometryBuilder.strict_asPolygon hstrict
    obtain ⟨hone, hfour⟩ := polygon_counts hall
    simp only [bufferBytes, estimateBytes, GeometryBuilder.coords, GeometryBuilder.levels,
      GeometryBuilder.holding, GeometryBuilder.vertices, PolygonBuilder.vertices,
      PolygonBuilder.holding, length_coordsOf, List.map_cons, List.map_nil, List.sum_cons,
      List.sum_nil, length_offsetsOf, List.length_map] at *
    omega
  | multiPolygon =>
    have hall := GeometryBuilder.strict_asMultiPolygon hstrict
    have hparts := mul_length_le_flatten (k := 1) (gs.map Geometry.asMultiPolygon)
      fun parts hparts => List.length_pos_iff.2 (hall parts hparts).1
    obtain ⟨hone, hfour⟩ : (gs.map Geometry.asMultiPolygon).flatten.length ≤
        (gs.map Geometry.asMultiPolygon).flatten.flatten.length ∧
        4 * (gs.map Geometry.asMultiPolygon).flatten.flatten.length ≤
        (gs.map Geometry.asMultiPolygon).flatten.flatten.flatten.length := by
      refine polygon_counts fun rings hrings => ?_
      obtain ⟨parts, hparts, hin⟩ := List.mem_flatten.1 hrings
      exact (hall parts hparts).2.2 rings hin
    simp only [bufferBytes, estimateBytes, GeometryBuilder.coords, GeometryBuilder.levels,
      GeometryBuilder.holding, GeometryBuilder.vertices, MultiPolygonBuilder.vertices,
      MultiPolygonBuilder.holding, length_coordsOf, List.map_cons, List.map_nil, List.sum_cons,
      List.sum_nil, length_offsetsOf, List.length_map] at *
    omega
  | point =>
    simp only [bufferBytes, estimateBytes, GeometryBuilder.coords, GeometryBuilder.levels,
      GeometryBuilder.holding, GeometryBuilder.vertices, PointBuilder.vertices, length_coordsOf,
      List.map_nil, List.sum_nil] at *
    omega
  | lineString =>
    have hall := GeometryBuilder.strict_asLine hstrict
    have htwice := mul_length_le_flatten (gs.map Geometry.asLine) fun ps hps => (hall ps hps).1
    simp only [bufferBytes, estimateBytes, GeometryBuilder.coords, GeometryBuilder.levels,
      GeometryBuilder.holding, GeometryBuilder.vertices, LineStringBuilder.vertices,
      LineStringBuilder.holding, length_coordsOf, List.map_cons, List.map_nil, List.sum_cons,
      List.sum_nil, length_offsetsOf, List.length_map] at *
    omega
  | multiLineString =>
    have hall := GeometryBuilder.strict_asMultiLine hstrict
    have hparts := mul_length_le_flatten (k := 1) (gs.map Geometry.asMultiLine)
      fun parts hparts => List.length_pos_iff.2 (hall parts hparts).1
    have htwice : 2 * (gs.map Geometry.asMultiLine).flatten.length ≤
        (gs.map Geometry.asMultiLine).flatten.flatten.length := by
      refine mul_length_le_flatten _ fun ps hps => ?_
      obtain ⟨parts, hparts, hin⟩ := List.mem_flatten.1 hps
      exact ((hall parts hparts).2.2 ps hin).1
    simp only [bufferBytes, estimateBytes, GeometryBuilder.coords, GeometryBuilder.levels,
      GeometryBuilder.holding, GeometryBuilder.vertices, MultiLineStringBuilder.vertices,
      MultiLineStringBuilder.holding, length_coordsOf, List.map_cons, List.map_nil, List.sum_cons,
      List.sum_nil, length_offsetsOf, List.length_map] at *
    omega

/-- Two squares, each a multipolygon of one ring: nine offset entries, and room for ten. -/
theorem bufferBytes_le_estimateBytes_squares :
    let ring : List Position := [⟨⟨0⟩, ⟨0⟩⟩, ⟨⟨1⟩, ⟨0⟩⟩, ⟨⟨1⟩, ⟨1⟩⟩, ⟨⟨0⟩, ⟨0⟩⟩]
    let row := (Geometry.polygon [ring]).encode true []
    ∃ b, (GeometryBuilder.new .multiPolygon).pushRows [row, row] = .ok b ∧
      bufferBytes 2 b ≤ estimateBytes 2 b.vertices := by
  intro ring row
  have hpushed : (GeometryBuilder.new .multiPolygon).pushRows [row, row] =
      .ok (.multiPolygon (.holding [[[ring]], [[ring]]])) := by decide +kernel
  exact ⟨_, hpushed, bufferBytes_le_estimateBytes hpushed (Nat.le_refl 2)⟩

end SpatialIde.Engine.Stream
