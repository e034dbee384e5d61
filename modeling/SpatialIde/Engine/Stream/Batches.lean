import SpatialIde.Engine.Stream.Columns
import Mathlib.Algebra.Order.BigOperators.Group.List

/-! # What a pending batch holds, and what `flush` makes of it

`Holds` says that the pending batch is a list of rows, none of them refused.
`toItem_ok` is the whole of `flush` before the channel: within the batch ceiling
the item is built, and it is `itemOf` of the rows however the runs were cut;
above it the batch is refused.
-/

namespace SpatialIde.Engine.Stream

open Lib Wkb

variable (K : Kernels) (plan : Plan)

structure Holds (p : Pending) (xs : List Row) : Prop where
  decode : AllDecode plan.envelope.encoding xs
  shaped : ∀ x ∈ xs, x.Shaped plan.envelope.attributes
  ids : p.ids = xs.map Row.id
  builder : p.builder = builderOf plan.envelope.encoding xs
  vertices : p.vertices = p.builder.vertices
  estBytes : p.estBytes = (config plan).load xs
  firstId : p.firstId = xs.head?.map Row.id
  attrBytes : p.attrBytes = (xs.map Row.attrBytes).sum

/-- The trigger a batcher's cause is reported as. -/
def cutOf : Batcher.Cause → BatchCut
  | .size => .sizeTarget
  | .ceiling => .rowCeiling
  | .early => .timeBudget
  | .end_ => .streamEnd

/-- The columns of a list of rows, one for each declared attribute. -/
def columnsOf (xs : List Row) : List ArrayRef :=
  plan.envelope.attributes.mapIdx fun j f => ⟨f.dataType, xs.map (Row.value j)⟩

/-- **What a batch of rows is sent as.** -/
def itemOf (b : Batcher.Batch Row) : Item where
  batch := ⟨b.items.map Row.id, ⟨builderOf plan.envelope.encoding b.items, b.items.length⟩,
    columnsOf plan b.items⟩
  estBytes := (config plan).load b.items
  vertices := (builderOf plan.envelope.encoding b.items).vertices
  batchIndex := b.index
  targetBytes := b.target
  cutBy := cutOf b.cause

variable {K plan}

theorem holds_new : Holds plan
    (.new plan.envelope.attributes.length plan.envelope.encoding) [] where
  decode := by intro x hx; cases hx
  shaped := by intro x hx; cases hx
  ids := rfl
  builder := rfl
  vertices := by
    show 0 = (GeometryBuilder.new plan.envelope.encoding).vertices
    cases plan.envelope.encoding <;> rfl
  estBytes := rfl
  firstId := rfl
  attrBytes := rfl

theorem Holds.pushAttrRun {p : Pending} {xs : List Row} (h : Holds plan p xs)
    (attrs : List ArrayRef) (start stop : Nat) : Holds plan (p.pushAttrRun attrs start stop) xs := by
  unfold Pending.pushAttrRun
  by_cases hle : stop ≤ start
  · rw [if_pos hle]
    exact h
  · rw [if_neg hle]
    exact ⟨h.decode, h.shaped, h.ids, h.builder, h.vertices, h.estBytes, h.firstId, h.attrBytes⟩

/-- **A decoded row more.** -/
theorem Holds.append {p : Pending} {xs : List Row} (h : Holds plan p xs) {x : Row}
    (hx : x.Shaped plan.envelope.attributes) {builder : GeometryBuilder}
    (hpush : p.builder.pushWkb x.bytes = (.ok (), builder)) :
    Holds plan (p.append builder x.id x.attrBytes) (xs ++ [x]) := by
  obtain ⟨hstart, henc, -, hvert⟩ := builderOf_spec h.decode
  rw [h.builder] at hpush
  obtain ⟨g, hg, hb⟩ := (Row.pushWkb_iff hstart henc x).1 hpush
  have hdecode : AllDecode plan.envelope.encoding (xs ++ [x]) := by
    intro y hy
    rcases List.mem_append.1 hy with hy | hy
    · exact h.decode y hy
    · rw [List.mem_singleton.1 hy]
      exact ⟨g, hg⟩
  have hbuilder : builder = builderOf plan.envelope.encoding (xs ++ [x]) := by
    rw [builderOf_append, hpush]
  obtain ⟨-, -, -, hvert'⟩ := builderOf_spec hdecode
  rw [← hbuilder] at hvert'
  refine ⟨hdecode, ?_, ?_, hbuilder, ?_, ?_, ?_, ?_⟩
  · intro y hy
    rcases List.mem_append.1 hy with hy | hy
    · exact h.shaped y hy
    · rw [List.mem_singleton.1 hy]
      exact hx
  · show p.ids ++ [x.id] = _
    rw [h.ids, List.map_append, List.map_singleton]
  · show p.vertices + (builder.vertices - p.builder.vertices) = builder.vertices
    rw [h.vertices, h.builder, hvert, hvert', List.map_append, List.sum_append]
    omega
  · show estimateBytes (p.ids.length + 1) builder.vertices + (p.attrBytes + x.attrBytes) = _
    rw [load_eq, ← hvert', h.ids, h.attrBytes, List.length_map, List.length_append,
      List.map_append, List.sum_append]
    simp
  · show p.firstId.or (some x.id) = _
    rw [h.firstId]
    cases xs <;> rfl
  · show p.attrBytes + x.attrBytes = _
    rw [h.attrBytes, List.map_append, List.sum_append]
    simp

/-! ### Columns -/

/-- A declared `Utf8` value is no longer than what its row is charged for. -/
theorem Row.Shaped.length_value_le {attributes : List Field} {x : Row} (h : x.Shaped attributes)
    {j : Nat} {f : Field} (hf : attributes[j]? = some f) (ht : f.dataType = .utf8) :
    (bytesIn (x.value j)).length ≤ x.attrBytes := by
  have htype : (x.attributes[j]?).map Prod.fst = some f.dataType := by
    rw [← List.getElem?_map, h, List.getElem?_map, hf]
    rfl
  obtain ⟨a, ha, hat⟩ := Option.map_eq_some_iff.1 htype
  have hle : attrValueBytes a.1 a.2 ≤ x.attrBytes :=
    List.le_sum_of_mem (List.mem_map.2 ⟨a, List.mem_of_getElem? ha, rfl⟩)
  have hvalue : x.value j = a.2 := by
    rw [Row.value, ha]
    rfl
  rw [hvalue]
  refine le_trans ?_ hle
  rw [hat, ht]
  cases a.2 with
  | none => exact Nat.zero_le _
  | some bytes =>
    show bytes.length ≤ 1 + (bytes.length + 4)
    omega

/-- The bytes of a column of rows, against what the rows are charged for. -/
theorem valueBytes_le {attributes : List Field} {j : Nat} {f : Field}
    (hf : attributes[j]? = some f) (ht : f.dataType = .utf8) : ∀ {xs : List Row},
    (∀ x ∈ xs, x.Shaped attributes) →
    (ArrayRef.mk f.dataType (xs.map (Row.value j))).valueBytes ≤ (xs.map Row.attrBytes).sum := by
  intro xs
  induction xs with
  | nil => intro _; exact Nat.zero_le _
  | cons x xs ih =>
    intro h
    have hx := (h x List.mem_cons_self).length_value_le hf ht
    have hxs := ih fun y hy => h y (List.mem_cons_of_mem _ hy)
    simp only [ArrayRef.valueBytes, List.map_cons, List.sum_cons] at hxs ⊢
    omega

theorem valueBytes_flatMap (t : DataType) : ∀ runs : List ArrayRef,
    (runs.map ArrayRef.valueBytes).sum =
      (ArrayRef.mk t (runs.flatMap ArrayRef.cells)).valueBytes := by
  intro runs
  induction runs with
  | nil => rfl
  | cons run runs ih =>
    rw [List.map_cons, List.sum_cons, ih]
    simp [ArrayRef.valueBytes]

/-- **Runs join to the column they cover**, one or many. -/
theorem joinRuns_ok {runs : List ArrayRef} {t : DataType} {cells : List Cell} (compact : Bool)
    (ht : t.admitted = true) (hne : cells ≠ []) (hcells : runs.flatMap ArrayRef.cells = cells)
    (htypes : ∀ a ∈ runs, a.dataType = t)
    (hsmall : t = .utf8 → (ArrayRef.mk t cells).valueBytes < 2 ^ 31) :
    joinRuns K compact runs = .ok ⟨t, cells⟩ := by
  have hruns : runs ≠ [] := by
    rintro rfl
    exact hne hcells.symm
  have hconcat : K.concat runs = .ok ⟨t, cells⟩ := by
    rw [← hcells]
    refine K.concat_ok runs t hruns htypes fun h => ?_
    rw [valueBytes_flatMap t, hcells]
    exact hsmall h
  unfold joinRuns
  split
  · rename_i run
    have hrun : run = ⟨t, cells⟩ := by
      have hcells' : run.cells = cells := by simpa using hcells
      rw [← htypes run (by simp), ← hcells']
    unfold singleRunRetention
    cases compact with
    | false => rw [hrun]; rfl
    | true =>
      obtain ⟨n, hn⟩ := K.sliceMemorySize_ok run (by rw [htypes run (by simp)]; exact ht)
      rw [hn, hrun]
      rfl
  · rw [hconcat]

/-- The runs of every declared attribute join. -/
theorem joinAll_ok {p : Pending} {xs : List Row} (h : Holds plan p xs)
    (hcover : Covers plan.envelope.attributes p.attrs xs) (hne : xs ≠ [])
    (hload : (config plan).load xs ≤ MAX_BATCH_BYTES) (compact : Bool) :
    p.attrs.mapM (joinRuns K compact) = .ok (columnsOf plan xs) := by
  rw [mapM_eq_ok, List.forall₂_iff_get]
  refine ⟨?_, ?_⟩
  · rw [hcover.length, columnsOf, List.length_mapIdx]
  · intro j hj hj'
    rw [columnsOf, List.length_mapIdx] at hj'
    have hf : plan.envelope.attributes[j]? = some plan.envelope.attributes[j] :=
      List.getElem?_eq_getElem hj'
    have hruns : p.attrs[j]? = some p.attrs[j] := List.getElem?_eq_getElem hj
    simp only [List.get_eq_getElem, columnsOf, List.getElem_mapIdx]
    refine joinRuns_ok compact (plan.envelope.admitted _ (List.getElem_mem hj')) ?_
      (hcover.values j _ hruns) (hcover.types j _ _ hf hruns) fun ht => ?_
    · rw [Ne, List.map_eq_nil_iff]
      exact hne
    · refine lt_of_le_of_lt (valueBytes_le hf ht h.shaped) ?_
      rw [load_eq] at hload
      unfold MAX_BATCH_BYTES at hload
      omega

/-! ### Items -/

/-- **Within the ceiling**, the item is a function of the rows. -/
theorem toItem_ok {p : Pending} {b : Batcher.Batch Row} (h : Holds plan p b.items)
    (hcover : Covers plan.envelope.attributes p.attrs b.items) (hne : b.items ≠ [])
    (hload : (config plan).load b.items ≤ MAX_BATCH_BYTES) :
    p.toItem K plan b.index b.target (cutOf b.cause) = .ok (itemOf plan b) := by
  obtain ⟨hwf, gs, hgs, hgeo⟩ := builderOf_geometries h.decode (vertices_lt_of_load plan hload)
  obtain ⟨-, henc, -, -⟩ := builderOf_spec h.decode
  have hceiling : p.checkCeiling = .ok () := by
    unfold Pending.checkCeiling
    rw [h.estBytes, if_neg (by omega)]
  have hlen : lenOf (builderOf plan.envelope.encoding b.items) = b.items.length := by
    rw [← length_geometries hwf, hgeo, List.length_map, hgs.length_eq]
  have hfinish : finish K p.builder = .ok ⟨builderOf plan.envelope.encoding b.items,
      b.items.length⟩ := by
    rw [h.builder, finish_ok hwf, hlen]
  have hassemble : assemble K plan.envelope p.ids ⟨builderOf plan.envelope.encoding b.items,
      b.items.length⟩ (columnsOf plan b.items) = .ok (itemOf plan b).batch := by
    rw [h.ids]
    refine assemble_ok henc (List.length_map _).symm ?_
    rw [List.forall₂_iff_get]
    refine ⟨by rw [columnsOf, List.length_mapIdx], ?_⟩
    intro j hj hj'
    simp only [List.get_eq_getElem, columnsOf, List.getElem_mapIdx, true_and]
    show (b.items.map (Row.value j)).length = _
    rw [List.length_map, List.length_map]
  unfold Pending.toItem
  rw [hceiling, hfinish, joinAll_ok h hcover hne hload]
  show (assemble K plan.envelope p.ids _ (columnsOf plan b.items) >>= fun batch => _) = _
  rw [hassemble, h.estBytes, h.vertices, h.builder]
  rfl

/-- **Above the ceiling**, the batch is refused. -/
theorem toItem_refused {p : Pending} {b : Batcher.Batch Row} (h : Holds plan p b.items)
    (hload : MAX_BATCH_BYTES < (config plan).load b.items) :
    ∃ e, ceilingRefusal plan b = some (.failed e) ∧
      p.toItem K plan b.index b.target (cutOf b.cause) = .error e := by
  have hitem : ∀ e, p.checkCeiling = .error e →
      p.toItem K plan b.index b.target (cutOf b.cause) = .error e := by
    intro e he
    unfold Pending.toItem
    rw [he]
    rfl
  have hcheck := Pending.checkCeiling.eq_1 p
  rw [if_pos (by rw [h.estBytes]; exact hload)] at hcheck
  rw [h.ids, h.firstId, h.estBytes, List.length_map] at hcheck
  unfold ceilingRefusal
  rw [if_pos hload]
  generalize (config plan).load b.items = saw at hcheck
  rcases hb : b.items with _ | ⟨x, _ | ⟨y, ys⟩⟩
  · rw [hb] at hcheck
    exact ⟨_, rfl, hitem _ hcheck⟩
  · rw [hb] at hcheck
    exact ⟨_, rfl, hitem _ hcheck⟩
  · rw [hb] at hcheck
    exact ⟨_, rfl, hitem _ hcheck⟩

end SpatialIde.Engine.Stream
