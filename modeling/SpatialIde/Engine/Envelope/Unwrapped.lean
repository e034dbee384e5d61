import SpatialIde.Engine.Envelope
import SpatialIde.Engine.Wkb.Totals
import SpatialIde.Lib.Except

/-! # No wrapped offset reaches an array

Offsets are running totals cast to `i32`, and nothing bounds the totals.  One
item adds less than `2 ^ 32`, so the first total that does not fit is cast to a
number below the one before it, and `checked_offsets` sees the decrease.

* `lt_of_wrapped_le`: one step;
* `built_offsets_true`: every offset of an array that was built is the total it
  stands for.
-/

namespace SpatialIde.Engine

open Lib Wkb

/-- **A step that wraps goes down**: from a total that fits, an item of less than `2 ^ 32` leads to
one that fits or to a smaller number. -/
theorem lt_of_wrapped_le {total size : Nat} (htotal : total < 2 ^ 31) (hsize : size < 2 ^ 32)
    (hle : (Int32.ofNat total).toInt ≤ (Int32.ofNat (total + size)).toInt) :
    total + size < 2 ^ 31 := by
  have hwidth : Int32.size = 2 ^ 32 := rfl
  rw [toInt_ofNat htotal, Int32.toInt_ofNat', hwidth, Int.bmod_def] at hle
  by_contra hbig
  split_ifs at hle <;> omega

/-- What `checked_offsets` lets through starts at `0` and never decreases. -/
theorem checkedOffsets_chain {os : List Int32} {what : String}
    (h : checkedOffsets os what = .ok ()) :
    ∀ w ∈ os.zip os.tail, w.1.toInt ≤ w.2.toInt := by
  cases os with
  | nil => cases h
  | cons first os =>
    unfold checkedOffsets at h
    dsimp only at h
    split_ifs at h
    cases hfind : ((first :: os).zip (first :: os).tail).find? fun w => w.2 < w.1 with
    | some w =>
      simp only [hfind] at h
      cases h
    | none =>
      intro w hw
      have hnot := List.find?_eq_none.1 hfind w hw
      rw [decide_eq_true_eq, Int32.lt_iff_toInt_lt] at hnot
      omega

/-- Casts of running totals that never decrease have not wrapped. -/
theorem ends_lt_of_chain : ∀ (sizes : List Nat) (base : Nat), base < 2 ^ 31 →
    (∀ n ∈ sizes, IsCount n) →
    (∀ w ∈ (offsetsFrom base sizes).zip (offsetsFrom base sizes).tail, w.1.toInt ≤ w.2.toInt) →
    (∀ o ∈ (offsetsFrom base sizes).head?, (Int32.ofNat base).toInt ≤ o.toInt) →
    ∀ m ∈ ends base sizes, m < 2 ^ 31 := by
  intro sizes
  induction sizes with
  | nil => intro base _ _ _ _ m hm; cases hm
  | cons n sizes ih =>
    intro base hbase hcount hchain hfirst m hm
    have hnext : base + n < 2 ^ 31 :=
      lt_of_wrapped_le hbase (hcount n List.mem_cons_self) (hfirst _ rfl)
    rw [ends, List.mem_cons] at hm
    rcases hm with rfl | hm
    · exact hnext
    · have hrest : ∀ k ∈ sizes, IsCount k := fun k hk => hcount k (List.mem_cons_of_mem n hk)
      cases sizes with
      | nil => cases hm
      | cons k sizes =>
        refine ih (base + n) hnext hrest (fun w hw => hchain w ?_) (fun o ho => ?_) m hm
        · exact List.mem_cons_of_mem _ hw
        · cases ho
          exact hchain (_, _) List.mem_cons_self

/-- **A checked level**: its offsets are the totals themselves, and cut the run of its items. -/
theorem checkedOffsets_true {sizes : List Nat} {what : String} (hcount : ∀ n ∈ sizes, IsCount n)
    (h : checkedOffsets (offsetsOf sizes) what = .ok ()) :
    (offsetsOf sizes).map Int32.toInt = (cuts sizes).map Nat.cast ∧
      IsOffsetBuffer (offsetsOf sizes) sizes.sum := by
  have hchain := checkedOffsets_chain h
  have hfit : ∀ m ∈ cuts sizes, m < 2 ^ 31 := by
    intro m hm
    rcases List.mem_cons.1 hm with rfl | hm
    · decide
    · refine ends_lt_of_chain sizes 0 (by decide) hcount (fun w hw => hchain w ?_)
        (fun o ho => ?_) m hm
      · cases sizes with
        | nil => cases hw
        | cons n sizes => exact List.mem_cons_of_mem _ hw
      · cases sizes with
        | nil => cases ho
        | cons n sizes =>
          cases ho
          exact hchain (_, _) List.mem_cons_self
  have hints : (offsetsOf sizes).map Int32.toInt = (cuts sizes).map Nat.cast := by
    rw [offsetsOf, List.map_map]
    exact List.map_congr_left fun m hm => toInt_ofNat (hfit m hm)
  refine ⟨hints, ⟨?_, ?_⟩⟩
  · intro o ho
    have hmem := List.mem_map_of_mem (f := Int32.toInt) ho
    rw [hints] at hmem
    obtain ⟨m, _, hm⟩ := List.mem_map.1 hmem
    rw [← hm]
    exact Int.natCast_nonneg m
  · have hvalues : offsetValues (offsetsOf sizes) = cuts sizes := by
      have hmap : offsetValues (offsetsOf sizes) =
          ((offsetsOf sizes).map Int32.toInt).map Int.toNat := by
        rw [offsetValues, List.map_map]
        rfl
      rw [hmap, hints, List.map_map]
      exact List.map_id _
    rw [hvalues]
    exact IsOffsets.cuts sizes

variable {K : Kernels}

theorem listArray_checked {os : List Int32} {what level : String} {values n : Nat}
    (h : listArray K os what level values = .ok n) :
    checkedOffsets os what = .ok () ∧ n = os.length - 1 := by
  obtain ⟨_, hchecked, h⟩ := bind_eq_ok.1 h
  cases htry : K.listTryNew os values with
  | error e =>
    rw [htry] at h
    cases h
  | ok u =>
    rw [htry] at h
    cases h
    exact ⟨hchecked, rfl⟩

theorem coordinateArray_len {coords : List F64} {level : String} {n : Nat}
    (h : coordinateArray K coords level = .ok n) : n = coords.length / 2 := by
  unfold coordinateArray at h
  split_ifs at h
  cases htry : K.fixedSizeListTryNew 2 coords.length with
  | error e =>
    rw [htry] at h
    cases h
  | ok u =>
    rw [htry] at h
    cases h
    rfl

/-- **An array is built of its builder's buffers**, every one of them checked. -/
theorem finish_checked {b : GeometryBuilder} {array : GeometryArray}
    (h : finish K b = .ok array) : array = ⟨b, lenOf b⟩ ∧
      ∀ os ∈ b.levels, ∃ what, checkedOffsets os what = .ok () := by
  cases b with
  | polygon b =>
    obtain ⟨coords, _, h⟩ := bind_eq_ok.1 h
    obtain ⟨rings, hrings, h⟩ := bind_eq_ok.1 h
    obtain ⟨polygons, hpolygons, h⟩ := bind_eq_ok.1 h
    obtain ⟨hgeoms, rfl⟩ := listArray_checked hpolygons
    cases h
    refine ⟨rfl, ?_⟩
    simp only [GeometryBuilder.levels, List.forall_mem_cons]
    exact ⟨⟨_, hgeoms⟩, ⟨_, (listArray_checked hrings).1⟩, by simp⟩
  | multiPolygon b =>
    obtain ⟨coords, _, h⟩ := bind_eq_ok.1 h
    obtain ⟨rings, hrings, h⟩ := bind_eq_ok.1 h
    obtain ⟨polygons, hpolygons, h⟩ := bind_eq_ok.1 h
    obtain ⟨multipolygons, hmultipolygons, h⟩ := bind_eq_ok.1 h
    obtain ⟨hgeoms, rfl⟩ := listArray_checked hmultipolygons
    cases h
    refine ⟨rfl, ?_⟩
    simp only [GeometryBuilder.levels, List.forall_mem_cons]
    exact ⟨⟨_, hgeoms⟩, ⟨_, (listArray_checked hpolygons).1⟩, ⟨_, (listArray_checked hrings).1⟩,
      by simp⟩
  | point b =>
    obtain ⟨coords, hcoords, h⟩ := bind_eq_ok.1 h
    obtain rfl := coordinateArray_len hcoords
    cases h
    exact ⟨rfl, by simp [GeometryBuilder.levels]⟩
  | lineString b =>
    obtain ⟨coords, _, h⟩ := bind_eq_ok.1 h
    obtain ⟨lines, hlines, h⟩ := bind_eq_ok.1 h
    obtain ⟨hgeoms, rfl⟩ := listArray_checked hlines
    cases h
    refine ⟨rfl, ?_⟩
    simp only [GeometryBuilder.levels, List.forall_mem_cons]
    exact ⟨⟨_, hgeoms⟩, by simp⟩
  | multiLineString b =>
    obtain ⟨coords, _, h⟩ := bind_eq_ok.1 h
    obtain ⟨parts, hparts, h⟩ := bind_eq_ok.1 h
    obtain ⟨multilines, hmultilines, h⟩ := bind_eq_ok.1 h
    obtain ⟨hgeoms, rfl⟩ := listArray_checked hmultilines
    cases h
    refine ⟨rfl, ?_⟩
    simp only [GeometryBuilder.levels, List.forall_mem_cons]
    exact ⟨⟨_, hgeoms⟩, ⟨_, (listArray_checked hparts).1⟩, by simp⟩

/-- **Every level of an array that is built is true.** -/
theorem levels_true {encoding : GeometryEncoding} {gs : List Geometry} {array : GeometryArray}
    (hstrict : ∀ g ∈ gs, Readable encoding g ∧ g.Strict)
    (hbuilt : finish K (.holding encoding gs) = .ok array) :
    ∀ sizes ∈ GeometryBuilder.levelSizes encoding gs,
      (offsetsOf sizes).map Int32.toInt = (cuts sizes).map Nat.cast ∧
        IsOffsetBuffer (offsetsOf sizes) sizes.sum := by
  intro sizes hsizes
  obtain ⟨what, hok⟩ := (finish_checked hbuilt).2 (offsetsOf sizes)
    (GeometryBuilder.levels_holding encoding gs ▸ List.mem_map_of_mem hsizes)
  exact checkedOffsets_true (GeometryBuilder.isCount_of_levelSizes hstrict sizes hsizes) hok

/-- The number of items below each level, outermost first. -/
def childLengths : GeometryBuilder → List Nat
  | .polygon b => [b.ringOffsets.length - 1, b.vertices]
  | .multiPolygon b => [b.partOffsets.length - 1, b.ringOffsets.length - 1, b.vertices]
  | .point _ => []
  | .lineString b => [b.vertices]
  | .multiLineString b => [b.partOffsets.length - 1, b.vertices]

theorem childLengths_holding (encoding : GeometryEncoding) (gs : List Geometry) :
    childLengths (.holding encoding gs) =
      (GeometryBuilder.levelSizes encoding gs).map List.sum := by
  cases encoding <;>
    simp only [childLengths, GeometryBuilder.holding, GeometryBuilder.levelSizes,
      PolygonBuilder.holding, PolygonBuilder.vertices, MultiPolygonBuilder.holding,
      MultiPolygonBuilder.vertices, LineStringBuilder.holding, LineStringBuilder.vertices,
      MultiLineStringBuilder.holding, MultiLineStringBuilder.vertices, half_coordsOf,
      length_offsetsOf, List.length_map, Nat.add_sub_cancel, List.length_flatten, List.map_cons,
      List.map_nil]

/-- **No truncated offset reaches an array that is built.**  After any run of accepted rows, however
many vertices, rings and parts they add up to, an array built of the buffers has at every level the
true offsets: those start at `0`, never decrease, and end at the length of the level below. -/
theorem built_offsets_true {encoding : GeometryEncoding} {rows : List (List UInt8)}
    {b : GeometryBuilder} {array : GeometryArray}
    (hpushed : (GeometryBuilder.new encoding).pushRows rows = .ok b)
    (hbuilt : finish K b = .ok array) :
    ∃ gs, List.Forall₂ (Encodes encoding) rows gs ∧
      array.buffers.levels.map (List.map Int32.toInt) =
        (GeometryBuilder.trueOffsets encoding gs).map (List.map Nat.cast) ∧
      List.Forall₂ IsOffsetBuffer array.buffers.levels (childLengths array.buffers) := by
  obtain ⟨gs, hrows, rfl⟩ := GeometryBuilder.pushRows_new_eq_ok_iff.1 hpushed
  have htrue := levels_true (Encodes.strict hrows) hbuilt
  obtain ⟨rfl, _⟩ := finish_checked hbuilt
  refine ⟨gs, hrows, ?_, ?_⟩
  · rw [GeometryBuilder.levels_holding, GeometryBuilder.trueOffsets, List.map_map,
      List.map_map]
    exact List.map_congr_left fun sizes hsizes => (htrue sizes hsizes).1
  · rw [GeometryBuilder.levels_holding, childLengths_holding,
      List.forall₂_map_left_iff, List.forall₂_map_right_iff, List.forall₂_same]
    exact fun sizes hsizes => (htrue sizes hsizes).2

/-- Two rows, one of them a single polygon under the Multi encoding. -/
theorem built_offsets_true_two_rows :
    let ring : List Position := [⟨⟨0⟩, ⟨0⟩⟩, ⟨⟨1⟩, ⟨0⟩⟩, ⟨⟨1⟩, ⟨1⟩⟩, ⟨⟨0⟩, ⟨0⟩⟩]
    let rows := [(Geometry.polygon [ring]).encode true [],
      (Geometry.multiPolygon [[ring, ring], [ring]]).encode false [true, false]]
    ∃ b array, finish .logical b = .ok array ∧ ∃ gs,
      List.Forall₂ (Encodes .multiPolygon) rows gs ∧
      array.buffers.levels.map (List.map Int32.toInt) =
        (GeometryBuilder.trueOffsets .multiPolygon gs).map (List.map Nat.cast) ∧
      List.Forall₂ IsOffsetBuffer array.buffers.levels (childLengths array.buffers) := by
  intro ring rows
  let b : GeometryBuilder := .multiPolygon (.holding [[[ring]], [[ring, ring], [ring]]])
  have hpushed : (GeometryBuilder.new .multiPolygon).pushRows rows = .ok b := by decide +kernel
  have hbuilt : finish .logical b = .ok ⟨b, 2⟩ := by decide +kernel
  exact ⟨b, ⟨b, 2⟩, hbuilt, built_offsets_true hpushed hbuilt⟩

end SpatialIde.Engine
