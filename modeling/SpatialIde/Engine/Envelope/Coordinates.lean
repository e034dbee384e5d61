import SpatialIde.Engine.Envelope.Unwrapped

/-! # The coordinates of a slice

A sliced array keeps the buffers of the array it was cut from: slicing a list
array windows its outer offsets, slicing a fixed-size list windows its child, and
everything below is shared.  `coordinate_values` finds the run a slice occupies
by walking the offsets down to the vertices.

* `coordinateValues_slice`: that run holds the coordinates of the rows in the
  window, and no others.
-/

namespace SpatialIde.Engine

open Lib Wkb

/-! ### Arrays as their buffers -/

/-- An Arrow array of the kinds `coordinate_values` tells apart. -/
inductive PhysicalArray where
  | float64 (values : List F64)
  | fixedSizeList (len size : Nat) (values : PhysicalArray)
  | list (valueOffsets : List Int32) (values : PhysicalArray)
  | other
  deriving DecidableEq, Repr

namespace PhysicalArray

/-- Arrow's `slice`: a window, over what is shared. -/
def slice : PhysicalArray → (offset length : Nat) → PhysicalArray
  | float64 values, offset, length => .float64 ((values.drop offset).take length)
  | fixedSizeList _ size values, offset, length =>
    .fixedSizeList length size (values.slice (offset * size) (length * size))
  | list valueOffsets values, offset, length =>
    .list ((valueOffsets.drop offset).take (length + 1)) values
  | other, _, _ => .other

end PhysicalArray

/-- `FixedSizeListArray::try_new` over the interleaved coordinates. -/
def vertexArray (coords : List F64) : PhysicalArray :=
  .fixedSizeList (coords.length / 2) 2 (.float64 coords)

/-- The arrays the five `build_*_array`s nest the buffers in. -/
def physical : GeometryBuilder → PhysicalArray
  | .polygon b => .list b.geomOffsets (.list b.ringOffsets (vertexArray b.coords))
  | .multiPolygon b =>
    .list b.geomOffsets (.list b.partOffsets (.list b.ringOffsets (vertexArray b.coords)))
  | .point b => vertexArray b.coords
  | .lineString b => .list b.geomOffsets (vertexArray b.coords)
  | .multiLineString b => .list b.geomOffsets (.list b.partOffsets (vertexArray b.coords))

/-! ### `coordinate_values` -/

/-- `as usize` of an `i32`. -/
def asUsize (o : Int32) : Nat := (o.toInt % 2 ^ 64).toNat

/-- `get(lo..hi)`. -/
def getRange (xs : List F64) (lo hi : Nat) : Option (List F64) :=
  if lo ≤ hi ∧ hi ≤ xs.length then some ((xs.drop lo).take (hi - lo)) else none

/-- The vertices from `lo` on and before `hi`. -/
def vertexRange (vertices : PhysicalArray) (lo hi : Nat) : Option (List F64) :=
  match vertices with
  | .fixedSizeList _ _ (.float64 flat) => getRange flat (lo * 2) (hi * 2)
  | _ => none

/-- The vertices of the rings from `ringLo` on and before `ringHi`. -/
def ringRange (ringOffsets : List Int32) (values : PhysicalArray) (ringLo ringHi : Nat) :
    Option (List F64) := do
  let vertexLo ← ringOffsets[ringLo]?
  let vertexHi ← ringOffsets[ringHi]?
  vertexRange values (asUsize vertexLo) (asUsize vertexHi)

/-- `coordinate_values`: which level is which is read off the shape of the array. -/
def coordinateValues : PhysicalArray → Option (List F64)
  | .fixedSizeList len _ values =>
    match values with
    | .float64 flat => getRange flat 0 (len * 2)
    | _ => none
  | .list geomOffsets values => do
    let lo ← geomOffsets.head?.map asUsize
    let hi ← geomOffsets.getLast?.map asUsize
    match values with
    | .fixedSizeList _ _ _ => vertexRange values lo hi
    | .list levelOffsets (.list ringOffsets vertices) =>
      let ringLo ← levelOffsets[lo]?.map asUsize
      let ringHi ← levelOffsets[hi]?.map asUsize
      ringRange ringOffsets vertices ringLo ringHi
    | .list levelOffsets vertices => ringRange levelOffsets vertices lo hi
    | _ => none
  | _ => none

/-! ### What offsets say about a run cut in three -/

variable {α : Type}

/-- The offset in front of the items `B` is the number of things in the items before them. -/
theorem cuts_getElem? (A B : List (List α)) :
    (cuts ((A ++ B).map List.length))[A.length]? = some A.flatten.length := by
  induction A using List.reverseRecOn with
  | nil => rfl
  | append_singleton A a _ =>
    have hlen : (cuts (A.map List.length)).length = A.length + 1 := by
      rw [length_cuts, List.length_map]
    rw [List.append_assoc, List.map_append, cuts_append, List.map_append, List.map_singleton,
      List.singleton_append, ends, List.getElem?_append_right (by simp [hlen]), hlen,
      List.length_append, List.length_singleton, Nat.sub_self, List.getElem?_cons_zero,
      List.flatten_append, List.length_append, List.flatten_singleton, List.length_flatten]

/-- The casts of a level are the totals they stand for. -/
def LevelTrue (xss : List (List α)) : Prop :=
  (offsetsOf (xss.map List.length)).map Int32.toInt =
    (cuts (xss.map List.length)).map Nat.cast

/-- The same through the casts. -/
theorem LevelTrue.getElem? {A B : List (List α)} (h : LevelTrue (A ++ B)) :
    (offsetsOf ((A ++ B).map List.length))[A.length]?.map asUsize = some A.flatten.length := by
  have hat := congrArg (·[A.length]?) h
  simp only [List.getElem?_map, cuts_getElem?, Option.map_some] at hat
  obtain ⟨o, ho, hint⟩ := Option.map_eq_some_iff.1 hat
  have hlt := Int32.toInt_lt o
  rw [ho, Option.map_some, asUsize, hint]
  rw [hint] at hlt
  congr 1
  omega

/-- What a window of offsets starts and ends with. -/
theorem window_ends {os : List Int32} {offset length : Nat} (h : offset + length < os.length) :
    ((os.drop offset).take (length + 1)).head? = os[offset]? ∧
      ((os.drop offset).take (length + 1)).getLast? = os[offset + length]? := by
  constructor
  · rw [List.head?_take, if_neg (Nat.succ_ne_zero length), List.head?_drop]
  · have hin : offset + length < os.length := h
    rw [List.getLast?_take, if_neg (Nat.succ_ne_zero length), Nat.add_sub_cancel,
      List.getElem?_drop, List.getElem?_eq_getElem hin, Option.some_or]

/-- The window of the items `B` starts at the things before them and ends at those and theirs. -/
theorem LevelTrue.window {A B C : List (List α)} (h : LevelTrue (A ++ B ++ C)) :
    let os := offsetsOf ((A ++ B ++ C).map List.length)
    (((os.drop A.length).take (B.length + 1)).head?.map asUsize = some A.flatten.length) ∧
      (((os.drop A.length).take (B.length + 1)).getLast?.map asUsize =
        some (A ++ B).flatten.length) := by
  intro os
  have hlen : A.length + B.length < os.length := by
    rw [length_offsetsOf, List.length_map, List.length_append, List.length_append]
    omega
  obtain ⟨hfirst, hlast⟩ := window_ends hlen
  have hhi := h.getElem?
  rw [List.length_append] at hhi
  have h' : LevelTrue (A ++ (B ++ C)) := by rwa [← List.append_assoc]
  have hlo := h'.getElem?
  rw [← List.append_assoc] at hlo
  exact ⟨by rw [hfirst]; exact hlo, by rw [hlast]; exact hhi⟩

/-- The coordinates between two counts of positions. -/
theorem getRange_coordsOf (P Q R : List Position) :
    getRange (coordsOf (P ++ Q ++ R)) (P.length * 2) ((P ++ Q).length * 2) =
      some (coordsOf Q) := by
  have hP := length_coordsOf P
  have hQ := length_coordsOf Q
  have hsub : (P ++ Q).length * 2 - P.length * 2 = (coordsOf Q).length := by
    rw [List.length_append, hQ]
    omega
  have hrun : coordsOf (P ++ Q ++ R) = coordsOf P ++ (coordsOf Q ++ coordsOf R) := by
    rw [coordsOf_append, coordsOf_append, List.append_assoc]
  rw [getRange, if_pos, hsub, hrun, Nat.mul_comm P.length 2, ← hP, List.drop_left, List.take_left]
  rw [length_coordsOf]
  simp only [List.length_append]
  omega

/-! ### The five layouts -/

theorem coordinateValues_point (P Q R : List Position) :
    coordinateValues ((physical (.point ⟨coordsOf (P ++ Q ++ R)⟩)).slice P.length Q.length) =
      some (coordsOf Q) := by
  have hP := length_coordsOf P
  have hQ := length_coordsOf Q
  have hrun : coordsOf (P ++ Q ++ R) = coordsOf P ++ (coordsOf Q ++ coordsOf R) := by
    rw [coordsOf_append, coordsOf_append, List.append_assoc]
  simp only [physical, vertexArray, PhysicalArray.slice, coordinateValues]
  rw [hrun, Nat.mul_comm P.length 2, ← hP, List.drop_left, Nat.mul_comm Q.length 2, ← hQ,
    List.take_left, getRange, if_pos ⟨Nat.zero_le _, Nat.le_refl _⟩, List.drop_zero, Nat.sub_zero,
    List.take_length]

theorem coordinateValues_lineString {A B C : List (List Position)}
    (h : LevelTrue (A ++ B ++ C)) :
    coordinateValues ((physical (.lineString (.holding (A ++ B ++ C)))).slice A.length B.length) =
      some (coordsOf B.flatten) := by
  obtain ⟨hlo, hhi⟩ := h.window
  simp only [physical, vertexArray, LineStringBuilder.holding, PhysicalArray.slice,
    coordinateValues, hlo, hhi, Option.bind_eq_bind, Option.bind_some, vertexRange]
  rw [List.flatten_append, List.flatten_append, getRange_coordsOf]

/-- One level of lists over the vertices, between two counts of lists. -/
theorem ringRange_eq {A B C : List (List Position)} (h : LevelTrue (A ++ B ++ C)) :
    ringRange (offsetsOf ((A ++ B ++ C).map List.length))
        (vertexArray (coordsOf (A ++ B ++ C).flatten)) A.length (A ++ B).length =
      some (coordsOf B.flatten) := by
  have hhi := h.getElem?
  have h' : LevelTrue (A ++ (B ++ C)) := by rwa [← List.append_assoc]
  have hlo := h'.getElem?
  rw [← List.append_assoc] at hlo
  obtain ⟨lo, hlo, hlo'⟩ := Option.map_eq_some_iff.1 hlo
  obtain ⟨hi, hhi, hhi'⟩ := Option.map_eq_some_iff.1 hhi
  simp only [ringRange, hlo, hhi, Option.bind_eq_bind, Option.bind_some, vertexArray, vertexRange,
    hlo', hhi']
  rw [List.flatten_append, List.flatten_append, getRange_coordsOf]

/-- Two levels of lists: a polygon's, and a multilinestring's. -/
theorem coordinateValues_two_levels {A B C : List (List (List Position))}
    (houter : LevelTrue (A ++ B ++ C)) (hinner : LevelTrue (A ++ B ++ C).flatten) :
    coordinateValues (PhysicalArray.slice (.list (offsetsOf ((A ++ B ++ C).map List.length))
        (.list (offsetsOf ((A ++ B ++ C).flatten.map List.length))
          (vertexArray (coordsOf (A ++ B ++ C).flatten.flatten)))) A.length B.length) =
      some (coordsOf B.flatten.flatten) := by
  obtain ⟨hlo, hhi⟩ := houter.window
  have hflat : (A ++ B ++ C).flatten = A.flatten ++ B.flatten ++ C.flatten := by
    rw [List.flatten_append, List.flatten_append]
  have hflat' : (A ++ B).flatten = A.flatten ++ B.flatten := List.flatten_append
  rw [hflat] at hinner
  have hrange := ringRange_eq hinner
  simp only [vertexArray] at hrange ⊢
  simp only [PhysicalArray.slice, coordinateValues, hlo, hhi, Option.bind_eq_bind,
    Option.bind_some]
  rw [hflat, hflat', hrange]

theorem coordinateValues_multiPolygon {A B C : List (List (List (List Position)))}
    (houter : LevelTrue (A ++ B ++ C)) (hmid : LevelTrue (A ++ B ++ C).flatten)
    (hinner : LevelTrue (A ++ B ++ C).flatten.flatten) :
    coordinateValues ((physical (.multiPolygon (.holding (A ++ B ++ C)))).slice
        A.length B.length) = some (coordsOf B.flatten.flatten.flatten) := by
  obtain ⟨hlo, hhi⟩ := houter.window
  have hflat : (A ++ B ++ C).flatten = A.flatten ++ B.flatten ++ C.flatten := by
    rw [List.flatten_append, List.flatten_append]
  have hflat' : (A ++ B).flatten = A.flatten ++ B.flatten := List.flatten_append
  rw [hflat] at hmid hinner
  have hinner' : (A.flatten ++ B.flatten ++ C.flatten).flatten =
      A.flatten.flatten ++ B.flatten.flatten ++ C.flatten.flatten := by
    rw [List.flatten_append, List.flatten_append]
  rw [hinner'] at hinner
  have hrange := ringRange_eq hinner
  have hhi' := hmid.getElem?
  have hmid' : LevelTrue (A.flatten ++ (B.flatten ++ C.flatten)) := by rwa [← List.append_assoc]
  have hlo' := hmid'.getElem?
  rw [← List.append_assoc] at hlo'
  rw [List.flatten_append] at hhi'
  simp only [physical, MultiPolygonBuilder.holding, PhysicalArray.slice, coordinateValues, hlo,
    hhi, Option.bind_eq_bind, Option.bind_some]
  rw [hflat, hflat', hlo', hhi', hinner']
  simp only [Option.bind_some]
  rw [hrange]

/-- The positions of a geometry, in the order they are stored. -/
def Geometry.positions : Geometry → List Position
  | .point p => [p]
  | .lineString ps => ps
  | .polygon rings => rings.flatten
  | .multiLineString parts => parts.flatten
  | .multiPolygon parts => parts.flatten.flatten

/-- A run cut in three at a window. -/
theorem window_split {β : Type} (xs : List β) {offset length : Nat}
    (h : offset + length ≤ xs.length) : ∃ A B C, xs = A ++ B ++ C ∧ A.length = offset ∧
      B.length = length ∧ (xs.drop offset).take length = B := by
  refine ⟨xs.take offset, (xs.drop offset).take length, (xs.drop offset).drop length, ?_, ?_, ?_,
    rfl⟩
  · rw [List.append_assoc, List.take_append_drop, List.take_append_drop]
  · rw [List.length_take]
    omega
  · rw [List.length_take, List.length_drop]
    omega

/-- Nested lists of one kind flatten to the positions of the geometries. -/
theorem flatMap_positions {gs : List Geometry} {as : Geometry → List Position}
    (h : ∀ g ∈ gs, as g = Geometry.positions g) :
    (gs.map as).flatten = gs.flatMap Geometry.positions := by
  rw [List.flatMap_def, List.map_congr_left h]

/-- A point is one position. -/
theorem length_asPoint : ∀ gs : List Geometry, (∀ g ∈ gs, Readable .point g) →
    (gs.flatMap Geometry.asPoint).length = gs.length := by
  intro gs
  induction gs with
  | nil => intro _; rfl
  | cons g gs ih =>
    intro h
    have hg := h g List.mem_cons_self
    rw [List.flatMap_cons, List.length_append, ih fun g' hg' => h g' (List.mem_cons_of_mem g hg')]
    cases g <;> first | exact hg.elim | skip
    rw [Geometry.asPoint, List.length_singleton, List.length_cons, Nat.add_comm]

/-- Every row is one item of the outermost level. -/
theorem lenOf_holding {encoding : GeometryEncoding} {gs : List Geometry}
    (hread : ∀ g ∈ gs, Readable encoding g) : lenOf (.holding encoding gs) = gs.length := by
  cases encoding with
  | point => simp only [lenOf, GeometryBuilder.holding, half_coordsOf, length_asPoint gs hread]
  | polygon | multiPolygon | lineString | multiLineString =>
    simp only [lenOf, GeometryBuilder.holding, PolygonBuilder.holding, MultiPolygonBuilder.holding,
      LineStringBuilder.holding, MultiLineStringBuilder.holding, length_offsetsOf, List.length_map,
      Nat.add_sub_cancel]

variable {K : Kernels}

/-- **`coordinate_values` reads exactly the slice.**  Of an array built from any accepted rows, a
window of rows reads the coordinates of the geometries in the window, one after the other, and
nothing else. -/
theorem coordinateValues_slice {encoding : GeometryEncoding} {rows : List (List UInt8)}
    {b : GeometryBuilder} {array : GeometryArray}
    (hpushed : (GeometryBuilder.new encoding).pushRows rows = .ok b)
    (hbuilt : finish K b = .ok array) :
    ∃ gs, List.Forall₂ (Encodes encoding) rows gs ∧ ∀ offset length,
      offset + length ≤ array.len →
        coordinateValues ((physical array.buffers).slice offset length) =
          some (coordsOf (((gs.drop offset).take length).flatMap Geometry.positions)) := by
  obtain ⟨gs, hrows, rfl⟩ := GeometryBuilder.pushRows_new_eq_ok_iff.1 hpushed
  have hread : ∀ g ∈ gs, Readable encoding g := fun g hg => (Encodes.strict hrows g hg).1
  have htrue := levels_true (Encodes.strict hrows) hbuilt
  obtain ⟨rfl, _⟩ := finish_checked hbuilt
  refine ⟨gs, hrows, fun offset length hwindow => ?_⟩
  change offset + length ≤ lenOf (.holding encoding gs) at hwindow
  rw [lenOf_holding hread] at hwindow
  obtain ⟨A, B, C, rfl, rfl, rfl, hB⟩ := window_split gs hwindow
  have hreadA : ∀ g ∈ A, Readable encoding g := fun g hg =>
    hread g (List.mem_append_left C (List.mem_append_left B hg))
  have hreadB : ∀ g ∈ B, Readable encoding g := fun g hg =>
    hread g (List.mem_append_left C (List.mem_append_right A hg))
  rw [hB]
  have hmap : ∀ {β : Type} (f : Geometry → β), (A ++ B ++ C).map f = A.map f ++ B.map f ++ C.map f :=
    fun f => by rw [List.map_append, List.map_append]
  simp only [GeometryBuilder.levelSizes, hmap] at htrue
  cases encoding with
  | polygon =>
    have hpos : (B.map Geometry.asPolygon).flatten.flatten = B.flatMap Geometry.positions := by
      rw [List.flatten_flatten, List.map_map]
      refine flatMap_positions fun g hg => ?_
      have hone := hreadB g hg
      cases g <;> first | exact hone.elim | rfl
    obtain ⟨houter, hinner, _⟩ := (List.forall_mem_cons.1 htrue).imp_right List.forall_mem_cons.1
    have h := coordinateValues_two_levels houter.1 hinner.1
    rw [hpos, List.length_map, List.length_map, ← hmap] at h
    exact h
  | multiPolygon =>
    have hpos : (B.map Geometry.asMultiPolygon).flatten.flatten.flatten =
        B.flatMap Geometry.positions := by
      rw [List.flatten_flatten, List.map_flatten, List.flatten_flatten, List.map_map, List.map_map]
      refine flatMap_positions fun g hg => ?_
      have hone := hreadB g hg
      cases g <;> first | exact hone.elim | skip
      case polygon rings => exact List.flatten_singleton
      case multiPolygon parts => exact List.flatten_flatten.symm
    obtain ⟨houter, hrest⟩ := List.forall_mem_cons.1 htrue
    obtain ⟨hmid, hinner, _⟩ := (List.forall_mem_cons.1 hrest).imp_right List.forall_mem_cons.1
    have h := coordinateValues_multiPolygon houter.1 hmid.1 hinner.1
    rw [hpos, List.length_map, List.length_map, ← hmap] at h
    exact h
  | point =>
    have hpos : B.flatMap Geometry.asPoint = B.flatMap Geometry.positions := by
      refine List.flatMap_congr fun g hg => ?_
      have hone := hreadB g hg
      cases g <;> first | exact hone.elim | rfl
    have h := coordinateValues_point (A.flatMap Geometry.asPoint) (B.flatMap Geometry.asPoint)
      (C.flatMap Geometry.asPoint)
    rw [length_asPoint A hreadA, length_asPoint B hreadB, ← List.flatMap_append,
      ← List.flatMap_append, hpos] at h
    exact h
  | lineString =>
    have hpos : (B.map Geometry.asLine).flatten = B.flatMap Geometry.positions := by
      refine flatMap_positions fun g hg => ?_
      have hone := hreadB g hg
      cases g <;> first | exact hone.elim | rfl
    have h := coordinateValues_lineString (htrue _ List.mem_cons_self).1
    rw [hpos, List.length_map, List.length_map, ← hmap] at h
    exact h
  | multiLineString =>
    have hpos : (B.map Geometry.asMultiLine).flatten.flatten = B.flatMap Geometry.positions := by
      rw [List.flatten_flatten, List.map_map]
      refine flatMap_positions fun g hg => ?_
      have hone := hreadB g hg
      cases g <;> first | exact hone.elim | skip
      case lineString ps => exact List.flatten_singleton
      case multiLineString parts => rfl
    obtain ⟨houter, hinner, _⟩ := (List.forall_mem_cons.1 htrue).imp_right List.forall_mem_cons.1
    have h := coordinateValues_two_levels houter.1 hinner.1
    rw [hpos, List.length_map, List.length_map, ← hmap] at h
    exact h

/-- The middle row of three multipolygons, and an empty window. -/
theorem coordinateValues_slice_middle :
    let ring : List Position := [⟨⟨0⟩, ⟨0⟩⟩, ⟨⟨1⟩, ⟨0⟩⟩, ⟨⟨1⟩, ⟨1⟩⟩, ⟨⟨0⟩, ⟨0⟩⟩]
    let far : List Position := [⟨⟨5⟩, ⟨6⟩⟩, ⟨⟨7⟩, ⟨6⟩⟩, ⟨⟨7⟩, ⟨8⟩⟩, ⟨⟨5⟩, ⟨6⟩⟩]
    let rows := [(Geometry.multiPolygon [[ring], [ring]]).encode true [true, true],
      (Geometry.polygon [far]).encode true [], (Geometry.polygon [ring]).encode false []]
    ∃ array : GeometryArray, (∃ gs, List.Forall₂ (Encodes .multiPolygon) rows gs ∧
      ∀ offset length, offset + length ≤ array.len →
        coordinateValues ((physical array.buffers).slice offset length) =
          some (coordsOf (((gs.drop offset).take length).flatMap Geometry.positions))) ∧
      coordinateValues ((physical array.buffers).slice 1 1) = some (coordsOf far) ∧
      coordinateValues ((physical array.buffers).slice 3 0) = some [] := by
  intro ring far rows
  let b : GeometryBuilder := .multiPolygon (.holding [[[ring], [ring]], [[far]], [[ring]]])
  have hpushed : (GeometryBuilder.new .multiPolygon).pushRows rows = .ok b := by decide +kernel
  have hbuilt : finish .logical b = .ok ⟨b, 3⟩ := by decide +kernel
  exact ⟨⟨b, 3⟩, coordinateValues_slice hpushed hbuilt, by decide +kernel, by decide +kernel⟩

end SpatialIde.Engine
