import SpatialIde.Engine.Envelope.Coordinates
import SpatialIde.Lib.Extremes

/-! # The bounding box of a batch

`xy_bounds` folds the coordinates of a batch, and withholds a box with a bound that is not finite.
Of polygons, whose rings begin at a position that is not a NaN, that leaves out a batch with an
infinite coordinate and no other: a NaN is passed over.
-/

namespace SpatialIde.Engine

open Lib Wkb

/-- `[xmin, ymin, xmax, ymax]`. -/
structure Extent where
  xmin : F64
  ymin : F64
  xmax : F64
  ymax : F64
  deriving DecidableEq, Repr

namespace Extent

/-- What `xy_bounds` begins with. -/
def inverted : Extent := ⟨F64.posInf, F64.posInf, F64.negInf, F64.negInf⟩

def extend (b : Extent) (p : Position) : Extent :=
  ⟨b.xmin.min p.x, b.ymin.min p.y, b.xmax.max p.x, b.ymax.max p.y⟩

def isFinite (b : Extent) : Bool :=
  b.xmin.isFinite && b.ymin.isFinite && b.xmax.isFinite && b.ymax.isFinite

end Extent

/-- The fold of `xy_bounds` over the pairs of a coordinate run. -/
def boundsOf (ps : List Position) : Option Extent :=
  let b := ps.foldl Extent.extend Extent.inverted
  if b.isFinite then some b else none

/-- `TaggedBatch::xy_bounds`, of the geometry column. -/
def xyBounds (geometry : PhysicalArray) : Option Extent := do
  let coords ← coordinateValues geometry
  if coords = [] then none else boundsOf (positionsOf coords)

/-- A vertex with a coordinate that is infinite. -/
def Infinite (p : Position) : Prop := p.x.isInfinite = true ∨ p.y.isInfinite = true

/-- A vertex with both coordinates finite. -/
def Finite (p : Position) : Prop := p.x.isFinite = true ∧ p.y.isFinite = true

/-- The box of the vertices, where a NaN is passed over. -/
structure Boxes (ps : List Position) (b : Extent) : Prop where
  xmin : F64.LeastOf F64.key (ps.map Position.x) b.xmin
  ymin : F64.LeastOf F64.key (ps.map Position.y) b.ymin
  xmax : F64.LeastOf (fun x => -x.key) (ps.map Position.x) b.xmax
  ymax : F64.LeastOf (fun x => -x.key) (ps.map Position.y) b.ymax

theorem foldl_extend (ps : List Position) (b : Extent) :
    ps.foldl Extent.extend b =
      ⟨(ps.map Position.x).foldl F64.min b.xmin, (ps.map Position.y).foldl F64.min b.ymin,
        (ps.map Position.x).foldl F64.max b.xmax, (ps.map Position.y).foldl F64.max b.ymax⟩ := by
  induction ps generalizing b with
  | nil => rfl
  | cons p ps ih => rw [List.foldl_cons, ih]; rfl

/-- A box that is reported is the box of the vertices. -/
theorem boxes_of_boundsOf {ps : List Position} {b : Extent} (h : boundsOf ps = some b) :
    Boxes ps b := by
  rw [boundsOf] at h
  split_ifs at h with hfin
  cases h
  rw [foldl_extend] at hfin ⊢
  simp only [Extent.isFinite, Bool.and_eq_true] at hfin
  obtain ⟨⟨⟨hxmin, hymin⟩, hxmax⟩, hymax⟩ := hfin
  exact ⟨F64.leastOf_foldl F64.measures_key (by decide) hxmin,
    F64.leastOf_foldl F64.measures_key (by decide) hymin,
    F64.leastOf_foldl F64.measures_neg_key (by decide) hxmax,
    F64.leastOf_foldl F64.measures_neg_key (by decide) hymax⟩

/-- An infinity among the values is the least or the greatest of them. -/
theorem not_infinite_of_least {xs : List F64} {m n : F64} (hm : F64.LeastOf F64.key xs m)
    (hn : F64.LeastOf (fun x => -x.key) xs n) {x : F64} (hx : x ∈ xs) : x.isInfinite = false := by
  by_contra hinf
  rw [Bool.not_eq_false, F64.measures_key.isInfinite] at hinf
  have hnan : x.isNaN = false := F64.measures_key.isNaN x |>.2 hinf.le
  have hle := hm.le x hx hnan
  have hge : -n.key ≤ -x.key := hn.le x hx hnan
  have hmfin := (F64.measures_key.isFinite m).1 hm.finite
  have hnfin := (F64.measures_key.isFinite n).1 hn.finite
  omega

/-- Vertices some of which are no NaN have a box just where none is infinite. -/
theorem boundsOf_eq_none {ps : List Position} (hx : ∃ p ∈ ps, p.x.isNaN = false)
    (hy : ∃ p ∈ ps, p.y.isNaN = false) : boundsOf ps = none ↔ ∃ p ∈ ps, Infinite p := by
  constructor
  · intro h
    by_contra hno
    push Not at hno
    have hxs : ∀ x ∈ ps.map Position.x, x.isInfinite = false := by
      intro x hx
      obtain ⟨p, hp, rfl⟩ := List.mem_map.1 hx
      exact Bool.eq_false_iff.2 fun hinf => hno p hp (.inl hinf)
    have hys : ∀ y ∈ ps.map Position.y, y.isInfinite = false := by
      intro y hy
      obtain ⟨p, hp, rfl⟩ := List.mem_map.1 hy
      exact Bool.eq_false_iff.2 fun hinf => hno p hp (.inr hinf)
    have hx' : ∃ x ∈ ps.map Position.x, x.isNaN = false := by
      obtain ⟨p, hp, hnan⟩ := hx
      exact ⟨p.x, List.mem_map_of_mem hp, hnan⟩
    have hy' : ∃ y ∈ ps.map Position.y, y.isNaN = false := by
      obtain ⟨p, hp, hnan⟩ := hy
      exact ⟨p.y, List.mem_map_of_mem hp, hnan⟩
    rw [boundsOf, if_pos] at h
    · cases h
    · rw [foldl_extend]
      simp only [Extent.isFinite, Bool.and_eq_true]
      exact ⟨⟨⟨F64.isFinite_foldl F64.measures_key (by decide) hx' hxs,
        F64.isFinite_foldl F64.measures_key (by decide) hy' hys⟩,
        F64.isFinite_foldl F64.measures_neg_key (by decide) hx' hxs⟩,
        F64.isFinite_foldl F64.measures_neg_key (by decide) hy' hys⟩
  · rintro ⟨p, hp, hinf⟩
    cases h : boundsOf ps with
    | none => rfl
    | some b =>
      have hb := boxes_of_boundsOf h
      rcases hinf with hinf | hinf
      · rw [not_infinite_of_least hb.xmin hb.xmax (List.mem_map_of_mem hp)] at hinf
        exact Bool.noConfusion hinf
      · rw [not_infinite_of_least hb.ymin hb.ymax (List.mem_map_of_mem hp)] at hinf
        exact Bool.noConfusion hinf

/-! ### Polygons -/

/-- The first vertex of an accepted ring compares equal to the last, so it is no NaN. -/
theorem exists_not_nan {g : Geometry} (hread : Readable .polygon g) (hstrict : g.Strict) :
    ∃ p ∈ Geometry.positions g, p.x.isNaN = false ∧ p.y.isNaN = false := by
  cases g <;> first | exact hread.elim | skip
  next rings =>
    obtain ⟨hne, -, hrings⟩ := hstrict
    obtain ⟨ring, rings', rfl⟩ := List.exists_cons_of_ne_nil hne
    obtain ⟨hlen, -, hclosed⟩ := hrings ring List.mem_cons_self
    cases ring with
    | nil => exact absurd hlen (by decide)
    | cons p ps =>
      refine ⟨p, List.mem_flatten.2 ⟨p :: ps, List.mem_cons_self, List.mem_cons_self⟩, ?_⟩
      rw [closed, List.head?_cons, List.getLast?_eq_some_getLast (List.cons_ne_nil p ps)] at hclosed
      simp only [Bool.and_eq_true] at hclosed
      exact ⟨(F64.eq_iff.1 hclosed.1).1, (F64.eq_iff.1 hclosed.2).1⟩

/-- The whole column holds the coordinates of the rows. -/
theorem coordinateValues_polygons {K : Kernels} {gs : List Geometry} {array : GeometryArray}
    (hstrict : ∀ g ∈ gs, Readable .polygon g ∧ g.Strict)
    (hbuilt : finish K (.holding .polygon gs) = .ok array) :
    coordinateValues (physical array.buffers) = some (coordsOf (gs.flatMap Geometry.positions)) := by
  have htrue := levels_true hstrict hbuilt
  obtain ⟨rfl, -⟩ := finish_checked hbuilt
  obtain ⟨houter, hinner, -⟩ := (List.forall_mem_cons.1 htrue).imp_right List.forall_mem_cons.1
  have hpos : (gs.map Geometry.asPolygon).flatten.flatten = gs.flatMap Geometry.positions := by
    rw [List.flatten_flatten, List.map_map]
    refine flatMap_positions fun g hg => ?_
    have hone := (hstrict g hg).1
    cases g <;> first | exact hone.elim | rfl
  have h := @coordinateValues_two_levels [] (gs.map Geometry.asPolygon) []
    (by simpa [LevelTrue] using houter.1) (by simpa [LevelTrue] using hinner.1)
  have hwhole : (offsetsOf ((gs.map Geometry.asPolygon).map List.length)).take
      ((gs.map Geometry.asPolygon).length + 1) =
      offsetsOf ((gs.map Geometry.asPolygon).map List.length) :=
    List.take_of_length_le (by simp [length_offsetsOf])
  simp only [List.nil_append, List.append_nil, List.length_nil, PhysicalArray.slice, List.drop_zero,
    hwhole] at h
  rw [← hpos]
  exact h

/-- What a batch of polygons reports. -/
theorem xyBounds_polygons {K : Kernels} {gs : List Geometry} {array : GeometryArray}
    (hstrict : ∀ g ∈ gs, Readable .polygon g ∧ g.Strict)
    (hbuilt : finish K (.holding .polygon gs) = .ok array) :
    (∀ b, xyBounds (physical array.buffers) = some b → Boxes (gs.flatMap Geometry.positions) b) ∧
      (xyBounds (physical array.buffers) = none ↔
        gs = [] ∨ ∃ p ∈ gs.flatMap Geometry.positions, Infinite p) := by
  have hcoords := coordinateValues_polygons hstrict hbuilt
  have hbounds : xyBounds (physical array.buffers) =
      if gs = [] then none else boundsOf (gs.flatMap Geometry.positions) := by
    rw [xyBounds, hcoords]
    show (if _ then _ else _) = _
    rw [positionsOf_coordsOf]
    by_cases hgs : gs = []
    · rw [hgs]
      rfl
    · rw [if_neg hgs, if_neg]
      obtain ⟨g, gs', rfl⟩ := List.exists_cons_of_ne_nil hgs
      obtain ⟨p, hp, -⟩ := exists_not_nan (hstrict g List.mem_cons_self).1
        (hstrict g List.mem_cons_self).2
      intro hnil
      have hlen := congrArg List.length hnil
      rw [length_coordsOf, List.flatMap_cons, List.length_append] at hlen
      have hpos := List.length_pos_of_mem hp
      simp only [List.length_nil] at hlen
      omega
  rw [hbounds]
  by_cases hgs : gs = []
  · simp [hgs]
  · rw [if_neg hgs]
    obtain ⟨g, hg⟩ := List.exists_mem_of_ne_nil gs hgs
    obtain ⟨p, hp, hx, hy⟩ := exists_not_nan (hstrict g hg).1 (hstrict g hg).2
    have hp' : p ∈ gs.flatMap Geometry.positions := List.mem_flatMap.2 ⟨g, hg, hp⟩
    refine ⟨fun b hb => boxes_of_boundsOf hb, ?_⟩
    rw [boundsOf_eq_none ⟨p, hp', hx⟩ ⟨p, hp', hy⟩]
    exact ⟨.inr, fun h => h.resolve_left hgs⟩

end SpatialIde.Engine
