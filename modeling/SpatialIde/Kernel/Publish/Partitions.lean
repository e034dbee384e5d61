import SpatialIde.Engine.Envelope.Bounds
import SpatialIde.Kernel.Publish.Error

/-! # The partitions of a bundle and the box the manifest reports of them

A publish writes each batch of its stream as a partition and joins the boxes the batches report.  A
batch that withholds its box because a coordinate is infinite looks to `union` like a batch without
vertices, and a batch with a NaN beside finite coordinates reports a box all the same.
-/

namespace SpatialIde.Kernel.Publish

open Lib SpatialIde.Engine SpatialIde.Engine.Wkb

/-- `spatial_engine::MAX_PUBLISH_PARTITIONS`. -/
def MAX_PUBLISH_PARTITIONS : Nat := 100000

/-- `MAX_FEATURES` of the viewer's `ceilings.json`. -/
def MAX_FEATURES : Nat := 2000000

def DATA_DIR : String := "data"

/-- The index with at least five digits. -/
def partitionPath (index : Nat) : String :=
  let digits := toString index
  DATA_DIR ++ "/part-" ++ String.ofList (List.replicate (5 - digits.length) '0') ++ digits ++ ".arrows"

/-- One asset the manifest lists. -/
structure Asset where
  path : String
  bytes : Nat
  contentHash : String
  rows : Option Nat
  deriving DecidableEq, Repr

/-- What the stream hands on: `BatchInfo` and the serialized batch. -/
structure Batch where
  rows : Nat
  payload : List UInt8
  xyBounds : Option Extent
  deriving DecidableEq, Repr

/-- What the loop has gathered. -/
structure Written where
  partitions : List Asset
  rowsTotal : Nat
  bounds : Option Extent
  deriving DecidableEq, Repr

def union : Option Extent → Option Extent → Option Extent
  | none, x => x
  | x, none => x
  | some a, some b => some ⟨a.xmin.min b.xmin, a.ymin.min b.ymin, a.xmax.max b.xmax, a.ymax.max b.ymax⟩

def checkStreamedFeatures (rowsWritten batchRows : Nat) : Except PublishError Unit :=
  let saw := rowsWritten + batchRows
  if saw > MAX_FEATURES then .error (.ceilingExceeded "MAX_FEATURES" MAX_FEATURES saw) else .ok ()

section

-- `write_partition`: the hash of what was written at a path.
variable (writePartition : String → List UInt8 → Except PublishError String)

/-- One turn of the loop of `run_inner`. -/
def writeBatch (w : Written) (batch : Batch) : Except PublishError Written :=
  let index := w.partitions.length
  if index ≥ MAX_PUBLISH_PARTITIONS then
    .error (.ceilingExceeded "MAX_PUBLISH_PARTITIONS" MAX_PUBLISH_PARTITIONS (index + 1))
  else do
    checkStreamedFeatures w.rowsTotal batch.rows
    let rel := partitionPath index
    let hash ← writePartition rel batch.payload
    return {
      partitions := w.partitions ++ [⟨rel, batch.payload.length, hash, some batch.rows⟩]
      rowsTotal := w.rowsTotal + batch.rows
      bounds := union w.bounds batch.xyBounds }

/-- The loop over what the stream answers; a cancellation that is observed is an answer too. -/
def writePartitions (stream : List (Except PublishError Batch)) : Except PublishError Written :=
  stream.foldlM (fun w next => do writeBatch writePartition w (← next)) ⟨[], 0, none⟩

end

theorem writeBatch_bounds {writePartition : String → List UInt8 → Except PublishError String}
    {w w' : Written} {batch : Batch} (h : writeBatch writePartition w batch = .ok w') :
    w'.bounds = union w.bounds batch.xyBounds := by
  rw [writeBatch] at h
  dsimp only at h
  split_ifs at h
  obtain ⟨_, -, h⟩ := bind_eq_ok.1 h
  obtain ⟨_, -, h⟩ := bind_eq_ok.1 h
  cases h
  rfl

/-- The box of a publish that wrote every batch. -/
theorem foldlM_bounds {writePartition : String → List UInt8 → Except PublishError String}
    {batches : List Batch} : ∀ {w w' : Written},
    (batches.map Except.ok).foldlM (fun w (next : Except PublishError Batch) => do
      writeBatch writePartition w (← next)) w = .ok w' →
    w'.bounds = (batches.map Batch.xyBounds).foldl union w.bounds := by
  induction batches with
  | nil =>
    intro w w' h
    cases h
    rfl
  | cons batch batches ih =>
    intro w w' h
    rw [List.map_cons, List.foldlM_cons] at h
    obtain ⟨w₁, hw₁, h⟩ := bind_eq_ok.1 h
    obtain ⟨_, hnext, hw₁⟩ := bind_eq_ok.1 hw₁
    cases hnext
    rw [ih h, writeBatch_bounds hw₁]
    rfl

/-! ### The box of several runs of vertices -/

theorem union_boxes {ps qs : List Position} {b c : Extent} (hb : Boxes ps b) (hc : Boxes qs c) :
    ∃ d, union (some b) (some c) = some d ∧ Boxes (ps ++ qs) d := by
  refine ⟨_, rfl, ?_, ?_, ?_, ?_⟩ <;> rw [List.map_append]
  · exact hb.xmin.append hc.xmin
  · exact hb.ymin.append hc.ymin
  · exact hb.xmax.append hc.xmax
  · exact hb.ymax.append hc.ymax

/-- The vertices of the runs that have a box. -/
def boxed (runs : List (List Position × Option Extent)) : List Position :=
  (runs.filter fun run => run.2.isSome).flatMap Prod.fst

/-- The joined box is that of the runs that have one, and there is none where no run has. -/
theorem foldl_union {runs : List (List Position × Option Extent)}
    (h : ∀ run ∈ runs, ∀ b, run.2 = some b → Boxes run.1 b) :
    (∀ b, (runs.map Prod.snd).foldl union none = some b → Boxes (boxed runs) b) ∧
      ((runs.map Prod.snd).foldl union none = none ↔ ∀ run ∈ runs, run.2 = none) := by
  induction runs using List.reverseRecOn with
  | nil => exact ⟨nofun, fun _ _ h => absurd h List.not_mem_nil, fun _ => rfl⟩
  | append_singleton runs run ih =>
    obtain ⟨hsome, hnone⟩ := ih fun r hr => h r (List.mem_append_left _ hr)
    have hrun := h run (List.mem_append_right _ List.mem_cons_self)
    obtain ⟨ps, box⟩ := run
    rw [List.map_append, List.foldl_append, boxed, List.filter_append, List.flatMap_append]
    cases box with
    | none =>
      have hskip : union ((runs.map Prod.snd).foldl union none) none =
          (runs.map Prod.snd).foldl union none := by
        cases (runs.map Prod.snd).foldl union none <;> rfl
      show (∀ b, union ((runs.map Prod.snd).foldl union none) none = some b → _) ∧
        (union ((runs.map Prod.snd).foldl union none) none = none ↔ _)
      rw [hskip, hnone]
      refine ⟨fun b hb => ?_, ?_⟩
      · simpa [boxed] using hsome b hb
      · simp [or_imp, forall_and]
    | some b =>
      cases hacc : (runs.map Prod.snd).foldl union none with
      | none =>
        have hempty : runs.filter (fun run => run.2.isSome) = [] := by
          refine List.filter_eq_nil_iff.2 fun r hr => ?_
          rw [hnone.1 hacc r hr]
          exact Bool.false_ne_true
        refine ⟨fun c hc => ?_, fun hc => ?_, fun hall => ?_⟩
        · cases hc
          rw [hempty]
          simpa using hrun b rfl
        · cases hc
        · exact nomatch hall (ps, some b) (by simp)
      | some a =>
        obtain ⟨d, hd, hboxes⟩ := union_boxes (hsome a hacc) (hrun b rfl)
        refine ⟨fun c hc => ?_, fun hc => ?_, fun hall => ?_⟩
        · cases hd.symm.trans hc
          simpa [boxed] using hboxes
        · exact nomatch hd.symm.trans hc
        · exact nomatch hall (ps, some b) (by simp)

/-- Where only runs without vertices have no box, no vertex is left out. -/
theorem boxed_eq {runs : List (List Position × Option Extent)}
    (h : ∀ run ∈ runs, run.2 = none → run.1 = []) : boxed runs = runs.flatMap Prod.fst := by
  induction runs with
  | nil => rfl
  | cons run runs ih =>
    have htail := ih fun r hr => h r (List.mem_cons_of_mem _ hr)
    obtain ⟨ps, box⟩ := run
    cases box with
    | none =>
      have hps : ps = [] := h (ps, none) List.mem_cons_self rfl
      rw [List.flatMap_cons, ← htail, hps]
      rfl
    | some b =>
      rw [List.flatMap_cons, ← htail]
      rfl

/-! ### What is published -/

/-- The batch was built from these rows, as the engine builds a batch of polygons. -/
def Carries (K : Kernels) (wkbs : List (List UInt8)) (batch : Batch) : Prop :=
  ∃ builder array, (GeometryBuilder.new .polygon).pushRows wkbs = .ok builder ∧
    finish K builder = .ok array ∧ batch.xyBounds = xyBounds (physical array.buffers)

/-- No box, which the manifest writes as `null`, where there is no vertex or a coordinate that is not
finite; else the least and the greatest of each axis. -/
def Describes (vertices : List Position) : Option Extent → Prop
  | none => vertices = [] ∨ ∃ p ∈ vertices, ¬Finite p
  | some b => vertices ≠ [] ∧ (∀ p ∈ vertices, Finite p) ∧ Boxes vertices b

def verticesOf (gs : List Geometry) : List Position := gs.flatMap Geometry.positions

/-- What the rows of a batch decode to, and what the batch reports of them. -/
structure Reports (gs : List Geometry) (batch : Batch) : Prop where
  boxes : ∀ b, batch.xyBounds = some b → Boxes (verticesOf gs) b
  none_iff : batch.xyBounds = none ↔ gs = [] ∨ ∃ p ∈ verticesOf gs, Infinite p
  vertices : gs ≠ [] → verticesOf gs ≠ []

theorem Carries.reports {K : Kernels} {wkbs : List (List UInt8)} {batch : Batch}
    (h : Carries K wkbs batch) :
    ∃ gs, List.Forall₂ (Encodes .polygon) wkbs gs ∧ Reports gs batch := by
  obtain ⟨builder, array, hpushed, hbuilt, hbounds⟩ := h
  obtain ⟨gs, hrows, rfl⟩ := GeometryBuilder.pushRows_new_eq_ok_iff.1 hpushed
  have hstrict := Encodes.strict hrows
  obtain ⟨hboxes, hnone⟩ := xyBounds_polygons hstrict hbuilt
  refine ⟨gs, hrows, hbounds ▸ hboxes, hbounds ▸ hnone, fun hne hnil => ?_⟩
  obtain ⟨g, hg⟩ := List.exists_mem_of_ne_nil gs hne
  obtain ⟨p, hp, -⟩ := exists_not_nan (hstrict g hg).1 (hstrict g hg).2
  have hmem : p ∈ verticesOf gs := List.mem_flatMap.2 ⟨g, hg, hp⟩
  rw [hnil] at hmem
  exact absurd hmem List.not_mem_nil

theorem not_finite_of_infinite {p : Position} (h : Infinite p) : ¬Finite p := by
  rintro ⟨hx, hy⟩
  rw [F64.measures_key.isFinite] at hx hy
  rcases h with h | h <;> rw [F64.measures_key.isInfinite] at h <;> omega

/-- Every coordinate is finite, or no batch that has a row is without an infinite one. -/
def Describable (gss : List (List Geometry)) : Prop :=
  (∀ gs ∈ gss, ∀ p ∈ verticesOf gs, Finite p) ∨
    ∀ gs ∈ gss, gs = [] ∨ ∃ p ∈ verticesOf gs, Infinite p

theorem describes_iff {pairs : List (List Geometry × Batch)}
    (h : ∀ pair ∈ pairs, Reports pair.1 pair.2) :
    Describes (pairs.flatMap fun pair => verticesOf pair.1)
        ((pairs.map fun pair => pair.2.xyBounds).foldl union none) ↔
      Describable (pairs.map Prod.fst) := by
  let runs := pairs.map fun pair => (verticesOf pair.1, pair.2.xyBounds)
  have hruns : ∀ run ∈ runs, ∀ b, run.2 = some b → Boxes run.1 b := by
    intro run hrun b hb
    obtain ⟨pair, hpair, rfl⟩ := List.mem_map.1 hrun
    exact (h pair hpair).boxes b hb
  have hsnd : (pairs.map fun pair => pair.2.xyBounds) = runs.map Prod.snd := by
    rw [List.map_map]
    rfl
  have hfst : (pairs.flatMap fun pair => verticesOf pair.1) = runs.flatMap Prod.fst := by
    rw [List.flatMap_map]
  obtain ⟨hsome, hnone⟩ := foldl_union hruns
  rw [hsnd, hfst]
  cases hfold : (runs.map Prod.snd).foldl union none with
  | none =>
    have hwithheld : ∀ pair ∈ pairs, pair.1 = [] ∨ ∃ p ∈ verticesOf pair.1, Infinite p :=
      fun pair hpair => (h pair hpair).none_iff.1
        (hnone.1 hfold _ (List.mem_map_of_mem hpair))
    constructor
    · refine fun _ => .inr fun gs hgs => ?_
      obtain ⟨pair, hpair, rfl⟩ := List.mem_map.1 hgs
      exact hwithheld pair hpair
    · intro _
      rw [← hfst]
      by_cases hany : ∃ pair ∈ pairs, ∃ p ∈ verticesOf pair.1, Infinite p
      · obtain ⟨pair, hpair, p, hp, hinf⟩ := hany
        exact .inr ⟨p, List.mem_flatMap.2 ⟨pair, hpair, hp⟩, not_finite_of_infinite hinf⟩
      · refine .inl (List.flatMap_eq_nil_iff.2 fun pair hpair => ?_)
        rcases hwithheld pair hpair with hnil | hinf
        · rw [hnil]
          rfl
        · exact absurd ⟨pair, hpair, hinf⟩ hany
  | some b =>
    have hreported : ∃ pair ∈ pairs, pair.2.xyBounds ≠ none := by
      by_contra hall
      push Not at hall
      have hnil := hnone.2 fun run hrun => by
        obtain ⟨pair, hpair, rfl⟩ := List.mem_map.1 hrun
        exact hall pair hpair
      exact nomatch hfold.symm.trans hnil
    obtain ⟨reported, hin, hbox⟩ := hreported
    constructor
    · rintro ⟨-, hfinite, -⟩
      refine .inl fun gs hgs p hp => ?_
      obtain ⟨pair, hpair, rfl⟩ := List.mem_map.1 hgs
      exact hfinite p (hfst ▸ List.mem_flatMap.2 ⟨pair, hpair, hp⟩)
    · rintro (hfinite | hwithheld)
      · have hbare : ∀ run ∈ runs, run.2 = none → run.1 = [] := by
          intro run hrun hnil
          obtain ⟨pair, hpair, rfl⟩ := List.mem_map.1 hrun
          rcases (h pair hpair).none_iff.1 hnil with hgs | ⟨p, hp, hinf⟩
          · show verticesOf pair.1 = []
            rw [hgs]
            rfl
          · exact absurd (hfinite _ (List.mem_map_of_mem hpair) p hp) (not_finite_of_infinite hinf)
        have hboxes := hsome b hfold
        rw [boxed_eq hbare] at hboxes
        refine ⟨fun hnil => ?_, fun p hp => ?_, hboxes⟩
        · rw [← hfst] at hnil
          have hgs : reported.1 ≠ [] := fun hgs => hbox ((h reported hin).none_iff.2 (.inl hgs))
          exact (h reported hin).vertices hgs (List.flatMap_eq_nil_iff.1 hnil reported hin)
        · rw [← hfst] at hp
          obtain ⟨pair, hpair, hp⟩ := List.mem_flatMap.1 hp
          exact hfinite _ (List.mem_map_of_mem hpair) p hp
      · exact absurd ((h reported hin).none_iff.2 (hwithheld _ (List.mem_map_of_mem hin))) hbox

/-- A publish that writes all its batches reports what the manifest's bounds promise just where every
published coordinate is finite or every batch with a row has an infinite one. -/
theorem bounds_of_published {K : Kernels}
    {writePartition : String → List UInt8 → Except PublishError String}
    {wkbs : List (List (List UInt8))} {batches : List Batch} {w : Written}
    (hbatches : List.Forall₂ (Carries K) wkbs batches)
    (hwritten : writePartitions writePartition (batches.map .ok) = .ok w) :
    ∃ gss, List.Forall₂ (List.Forall₂ (Encodes .polygon)) wkbs gss ∧
      (Describes (gss.flatMap verticesOf) w.bounds ↔ Describable gss) := by
  have hbounds : w.bounds = (batches.map Batch.xyBounds).foldl union none := foldlM_bounds hwritten
  have hpairs : ∃ pairs : List (List Geometry × Batch), batches = pairs.map Prod.snd ∧
      List.Forall₂ (List.Forall₂ (Encodes .polygon)) wkbs (pairs.map Prod.fst) ∧
      ∀ pair ∈ pairs, Reports pair.1 pair.2 := by
    clear hwritten hbounds
    induction hbatches with
    | nil => exact ⟨[], rfl, List.Forall₂.nil, nofun⟩
    | cons hbatch _ ih =>
      obtain ⟨gs, hrows, hreports⟩ := hbatch.reports
      obtain ⟨pairs, rfl, hrest, hall⟩ := ih
      exact ⟨(gs, _) :: pairs, rfl, .cons hrows hrest, List.forall_mem_cons.2 ⟨hreports, hall⟩⟩
  obtain ⟨pairs, rfl, hrows, hreports⟩ := hpairs
  refine ⟨pairs.map Prod.fst, hrows, ?_⟩
  have hiff := describes_iff hreports
  rw [hbounds, List.flatMap_map, List.map_map]
  exact hiff

def ONE : F64 := ⟨0x3FF0000000000000⟩

def FIVE : F64 := ⟨0x4014000000000000⟩

/-- The triangle of the corners `(0, 0)`, `(1, 0)` and `(1, 1)`. -/
def unitTriangle : List Position := [⟨.zero, .zero⟩, ⟨ONE, .zero⟩, ⟨ONE, ONE⟩, ⟨.zero, .zero⟩]

/-- The triangle of the corners `(0, 0)`, `(5, 0)` and `(1, 1)`. -/
def wideTriangle : List Position := [⟨.zero, .zero⟩, ⟨FIVE, .zero⟩, ⟨ONE, ONE⟩, ⟨.zero, .zero⟩]

/-- The triangle of the corners `(5, 5)`, `(∞, 5)` and `(5, 1)`. -/
def endlessTriangle : List Position := [⟨FIVE, FIVE⟩, ⟨.posInf, FIVE⟩, ⟨FIVE, ONE⟩, ⟨FIVE, FIVE⟩]

/-- A batch of the one triangle, with the box given. -/
def triangleBatch (box : Option Extent) : Batch := ⟨1, [], box⟩

theorem carries_triangle (ring : List Position) (b : GeometryBuilder)
    (hpushed : (GeometryBuilder.new .polygon).pushRows [(Geometry.polygon [ring]).encode true []] =
      .ok b) (hbuilt : finish .logical b = .ok ⟨b, 1⟩) :
    Carries .logical [(Geometry.polygon [ring]).encode true []]
      (triangleBatch (xyBounds (physical b))) :=
  ⟨b, ⟨b, 1⟩, hpushed, hbuilt, rfl⟩

/-- Of the two triangles of this batch and the next, each in its own file, the box is reported. -/
theorem bounds_of_published_triangle :
    let wkbs := [[(Geometry.polygon [unitTriangle]).encode true []],
      [(Geometry.polygon [wideTriangle]).encode true []]]
    let w : Written := ⟨[⟨"data/part-00000.arrows", 0, "sha256:0", some 1⟩,
      ⟨"data/part-00001.arrows", 0, "sha256:0", some 1⟩], 2, some ⟨.zero, .zero, FIVE, ONE⟩⟩
    ∃ gss, List.Forall₂ (List.Forall₂ (Encodes .polygon)) wkbs gss ∧
      (Describes (gss.flatMap verticesOf) w.bounds ↔ Describable gss) := by
  intro wkbs w
  have hunit := carries_triangle unitTriangle (.holding .polygon [.polygon [unitTriangle]])
    (by decide +kernel) (by decide +kernel)
  have hwide := carries_triangle wideTriangle (.holding .polygon [.polygon [wideTriangle]])
    (by decide +kernel) (by decide +kernel)
  have hwritten : writePartitions (fun _ _ => .ok "sha256:0")
      ([triangleBatch (some ⟨.zero, .zero, ONE, ONE⟩),
        triangleBatch (some ⟨.zero, .zero, FIVE, ONE⟩)].map .ok) = .ok w := by decide +kernel
  exact bounds_of_published (.cons hunit (.cons hwide .nil)) hwritten

/-- The box of the second batch is reported although the first has vertices outside it, and a
coordinate that is not finite. -/
theorem withheld_box_forgotten :
    ∃ (gss : List (List Geometry)) (batches : List Batch) (w : Written),
      List.Forall₂ (Carries .logical)
        (gss.map fun gs => gs.map fun g => Geometry.encode true [] g) batches ∧
      writePartitions (fun _ _ => .ok "sha256:0") (batches.map .ok) = .ok w ∧
      w.bounds = some ⟨.zero, .zero, ONE, ONE⟩ ∧ (⟨FIVE, FIVE⟩ : Position) ∈ gss.flatMap verticesOf ∧
      ¬Describes (gss.flatMap verticesOf) w.bounds := by
  have hendless := carries_triangle endlessTriangle (.holding .polygon [.polygon [endlessTriangle]])
    (by decide +kernel) (by decide +kernel)
  have hunit := carries_triangle unitTriangle (.holding .polygon [.polygon [unitTriangle]])
    (by decide +kernel) (by decide +kernel)
  refine ⟨[[.polygon [endlessTriangle]], [.polygon [unitTriangle]]],
    [triangleBatch none, triangleBatch (some ⟨.zero, .zero, ONE, ONE⟩)],
    ⟨[⟨"data/part-00000.arrows", 0, "sha256:0", some 1⟩,
      ⟨"data/part-00001.arrows", 0, "sha256:0", some 1⟩], 2, some ⟨.zero, .zero, ONE, ONE⟩⟩,
    .cons hendless (.cons hunit .nil), by decide +kernel, rfl, by decide +kernel, ?_⟩
  rintro ⟨-, hfinite, -⟩
  have hinf := hfinite ⟨.posInf, FIVE⟩ (by decide +kernel)
  exact Bool.noConfusion hinf.1

end SpatialIde.Kernel.Publish
