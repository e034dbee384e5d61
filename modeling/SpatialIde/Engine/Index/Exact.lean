import Mathlib.Tactic.Positivity
import SpatialIde.Engine.Index

/-! # The grid index answers exactly its predicate

`candidates_exact`: what a query returns is sorted, and it is the ids of the features
whose box meets the viewport, each as often as there are such features.

* `axisCell_mono`: a coordinate further along is in no earlier cell, so that two boxes
  that meet share a cell (`meets_cell`);
* `Populated`: each feature is in the list of the broad ones or in all its cells;
* `Lib.Visit.walk_perm`: no slot is put out twice.
-/

namespace SpatialIde.Engine

open Lib

/-! ### Cells -/

theorem span_pos (lo hi : ℚ) : 0 < max (hi - lo) MIN_POSITIVE := by
  refine lt_of_lt_of_le ?_ (le_max_right _ _)
  unfold MIN_POSITIVE
  positivity

/-- **A coordinate further along is in no earlier cell**, whether it lies in the extent or not. -/
theorem axisCell_mono (lo hi : ℚ) {x y : ℚ} (h : x ≤ y) :
    axisCell lo hi x ≤ axisCell lo hi y := by
  unfold axisCell
  have hn : (0 : ℚ) ≤ ((GRID_AXIS_CELLS - 1 : Nat) : ℚ) := Nat.cast_nonneg _
  have hdiv : (x - lo) / max (hi - lo) MIN_POSITIVE ≤ (y - lo) / max (hi - lo) MIN_POSITIVE :=
    div_le_div_of_nonneg_right (sub_le_sub_right h lo) (span_pos lo hi).le
  exact Int.toNat_le_toNat (Int.floor_mono (max_le_max le_rfl
    (min_le_min (mul_le_mul_of_nonneg_right hdiv hn) le_rfl)))

theorem mem_through {lo hi c : Nat} : c ∈ through lo hi ↔ lo ≤ c ∧ c ≤ hi := by
  unfold through
  rw [List.mem_range'_1]
  omega

theorem mem_cellsBetween {a b cell : GridCell} :
    cell ∈ cellsBetween a b ↔ (a.1 ≤ cell.1 ∧ cell.1 ≤ b.1) ∧ a.2 ≤ cell.2 ∧ cell.2 ≤ b.2 := by
  simp only [cellsBetween, List.mem_flatMap, List.mem_map, mem_through]
  constructor
  · rintro ⟨c, hc, r, hr, rfl⟩
    exact ⟨hc, hr⟩
  · rintro ⟨hc, hr⟩
    exact ⟨cell.1, hc, cell.2, hr, rfl⟩

/-- The cells a box covers. -/
def Bbox.covers (b extent : Bbox ℚ) : List GridCell :=
  cellsBetween (cellOf extent b.xmin b.ymin) (cellOf extent b.xmax b.ymax)

theorem Bbox.inverted_eq_false {b : Bbox ℚ} :
    b.inverted = false ↔ b.xmin ≤ b.xmax ∧ b.ymin ≤ b.ymax := by
  simp [inverted]

theorem Bbox.meets_iff {b view : Bbox ℚ} : b.meets view = true ↔
    ((b.xmin ≤ view.xmax ∧ view.xmin ≤ b.xmax) ∧ b.ymin ≤ view.ymax) ∧ view.ymin ≤ b.ymax := by
  simp [meets]

/-- Two intervals that meet have a cell in common, the later one of their first cells. -/
theorem exists_axisCell (lo hi : ℚ) {a b p q : ℚ} (hab : a ≤ b) (hpq : p ≤ q) (haq : a ≤ q)
    (hpb : p ≤ b) : ∃ c, (axisCell lo hi a ≤ c ∧ c ≤ axisCell lo hi b) ∧
      axisCell lo hi p ≤ c ∧ c ≤ axisCell lo hi q := by
  refine ⟨max (axisCell lo hi a) (axisCell lo hi p), ⟨le_max_left _ _, ?_⟩, le_max_right _ _, ?_⟩
  · exact max_le (axisCell_mono lo hi hab) (axisCell_mono lo hi hpb)
  · exact max_le (axisCell_mono lo hi haq) (axisCell_mono lo hi hpq)

/-- **Boxes that meet share a cell.** -/
theorem Bbox.meets_cell (extent : Bbox ℚ) {b view : Bbox ℚ} (hb : b.inverted = false)
    (hview : view.inverted = false) (h : b.meets view = true) :
    ∃ cell, cell ∈ b.covers extent ∧ cell ∈ view.covers extent := by
  obtain ⟨hbx, hby⟩ := inverted_eq_false.1 hb
  obtain ⟨hvx, hvy⟩ := inverted_eq_false.1 hview
  obtain ⟨⟨⟨h₁, h₂⟩, h₃⟩, h₄⟩ := meets_iff.1 h
  obtain ⟨c, hbc, hvc⟩ := exists_axisCell extent.xmin extent.xmax hbx hvx h₁ h₂
  obtain ⟨r, hbr, hvr⟩ := exists_axisCell extent.ymin extent.ymax hby hvy h₃ h₄
  exact ⟨(c, r), mem_cellsBetween.2 ⟨hbc, hbr⟩, mem_cellsBetween.2 ⟨hvc, hvr⟩⟩

/-! ### What a build leaves behind -/

theorem GridCells.slots_push (cells : GridCells) (cell c : GridCell) (slot : UInt32) :
    (cells.push cell slot).slots c =
      if c = cell then cells.slots c ++ [slot] else cells.slots c := by
  unfold push slots
  by_cases h : c = cell
  · rw [if_pos h, h, AList.lookup_insert]
    rfl
  · rw [if_neg h, AList.lookup_insert_ne h]

variable {tr : List (Event Poll.Answer)}

theorem scan_runs {chunks : List (List Feature)} {features : List Feature}
    (h : (scan chunks).Runs tr (.ok features)) :
    features = chunks.flatten ∧ features.length ≤ MAX_INDEXED_FEATURES := by
  refine Prog.runs_foldlM (I := fun done b => b = done.flatten ∧ b.length ≤ MAX_INDEXED_FEATURES)
    ?_ ⟨rfl, Nat.zero_le _⟩ h
  intro done chunk b tr b' ⟨hb, hlen⟩ hrun
  obtain ⟨_, t₁, t₂, -, -, hrest⟩ := Prog.runs_bind_ok.1 hrun
  by_cases hover : b.length + chunk.length > MAX_INDEXED_FEATURES
  · rw [if_pos hover] at hrest
    cases (Prog.runs_throw.1 hrest).2
  · rw [if_neg hover] at hrest
    obtain ⟨-, hb'⟩ := Prog.runs_pure.1 hrest
    cases hb'
    refine ⟨?_, ?_⟩
    · rw [hb, List.flatten_append, List.flatten_singleton]
    · rw [List.length_append]
      omega

theorem validate_runs {features : List Feature} {n : Nat}
    (h : (features.foldlM validateBbox 0).Runs tr (.ok n)) :
    ∀ f ∈ features, f.bbox.inverted = false := by
  refine Prog.runs_foldlM (I := fun done _ => ∀ f ∈ done, f.bbox.inverted = false)
    ?_ (fun f hf => absurd hf List.not_mem_nil) h
  intro done f i tr i' hdone hrun
  obtain ⟨_, t₁, t₂, -, -, hrest⟩ := Prog.runs_bind_ok.1 hrun
  by_cases hinv : f.bbox.inverted = true
  · rw [if_pos hinv] at hrest
    cases (Prog.runs_throw.1 hrest).2
  · intro g hg
    rcases List.mem_append.1 hg with hg | hg
    · exact hdone g hg
    · rw [List.mem_singleton.1 hg]
      exact Bool.eq_false_iff.2 hinv

namespace Grid

theorem pollDue_runs {g g' : Grid} (h : g.pollDue.Runs tr (.ok g')) :
    g'.slot = g.slot ∧ g'.cells = g.cells ∧ g'.spanning = g.spanning := by
  unfold pollDue at h
  by_cases hdue : g.sincePoll ≥ INDEX_POLL_INTERVAL
  · rw [if_pos hdue] at h
    obtain ⟨_, t₁, t₂, -, -, hrest⟩ := Prog.runs_bind_ok.1 h
    · obtain ⟨-, hg⟩ := Prog.runs_pure.1 hrest
      cases hg
      exact ⟨rfl, rfl, rfl⟩
  · rw [if_neg hdue] at h
    obtain ⟨-, hg⟩ := Prog.runs_pure.1 h
    cases hg
    exact ⟨rfl, rfl, rfl⟩

/-- `g'` is `g` with the slot of `g` in the cells `cs` as well. -/
structure Filled (g g' : Grid) (cs : List GridCell) : Prop where
  slot : g'.slot = g.slot
  spanning : g'.spanning = g.spanning
  slots : ∀ c s, s ∈ g'.cells.slots c ↔
    s ∈ g.cells.slots c ∨ (c ∈ cs ∧ s = UInt32.ofNat g.slot)

theorem Filled.insertCell {g g₁ g₂ : Grid} {cs : List GridCell} (h : Filled g g₁ cs)
    {cell : GridCell} (hrun : (g₁.insertCell cell).Runs tr (.ok g₂)) :
    Filled g g₂ (cs ++ [cell]) := by
  obtain ⟨g', t₁, t₂, -, hdue, hrest⟩ := Prog.runs_bind_ok.1 hrun
  obtain ⟨-, hg⟩ := Prog.runs_pure.1 hrest
  cases hg
  obtain ⟨hslot, hcells, hspanning⟩ := pollDue_runs hdue
  refine ⟨hslot.trans h.slot, hspanning.trans h.spanning, fun c s => ?_⟩
  show s ∈ (g'.cells.push cell (UInt32.ofNat g'.slot)).slots c ↔ _
  rw [GridCells.slots_push, hcells, hslot, h.slot, List.mem_append, List.mem_singleton]
  by_cases hc : c = cell
  · rw [if_pos hc, List.mem_append, List.mem_singleton, h.slots]
    constructor
    · rintro ((hs | ⟨-, hs⟩) | hs)
      · exact .inl hs
      · exact .inr ⟨.inr hc, hs⟩
      · exact .inr ⟨.inr hc, hs⟩
    · rintro (hs | ⟨-, hs⟩)
      · exact .inl (.inl hs)
      · exact .inr hs
  · rw [if_neg hc, h.slots]
    simp only [hc, or_false]

/-- **One feature is placed**: in the list of the broad ones, or in every cell it covers. -/
theorem place_runs {extent : Bbox ℚ} {g g' : Grid} {f : Feature}
    (h : (g.place extent f).Runs tr (.ok g')) : g'.slot = g.slot + 1 ∧
      ((g'.spanning = g.spanning ++ [UInt32.ofNat g.slot] ∧
          ∀ c, g'.cells.slots c = g.cells.slots c) ∨
        (g'.spanning = g.spanning ∧ ∀ c s, s ∈ g'.cells.slots c ↔
          s ∈ g.cells.slots c ∨ (c ∈ f.bbox.covers extent ∧ s = UInt32.ofNat g.slot))) := by
  obtain ⟨g₁, t₁, t₂, -, hdue, hrest⟩ := Prog.runs_bind_ok.1 h
  obtain ⟨hslot, hcells, hspanning⟩ := pollDue_runs hdue
  dsimp only at hrest
  split_ifs at hrest
  · obtain ⟨-, hg⟩ := Prog.runs_pure.1 hrest
    cases hg
    refine ⟨by rw [hslot], .inl ⟨by rw [hspanning, hslot], fun c => by rw [hcells]⟩⟩
  · obtain ⟨g₂, t₃, t₄, -, hloop, hlast⟩ := Prog.runs_bind_ok.1 hrest
    obtain ⟨-, hg⟩ := Prog.runs_pure.1 hlast
    cases hg
    have hfilled : Filled g₁ g₂ (f.bbox.covers extent) := by
      refine Prog.runs_foldlM (I := fun done g' => Filled g₁ g' done)
        (fun hdone hrun => hdone.insertCell hrun) ⟨rfl, rfl, fun c s => ?_⟩ hloop
      simp
    refine ⟨by rw [hfilled.slot, hslot], .inr ⟨hfilled.spanning.trans hspanning, fun c s => ?_⟩⟩
    rw [hfilled.slots, hcells, hslot]

/-- **The grid holds the first features**: each of them is in the list of the broad ones or in every
cell it covers, and there is nothing else in either. -/
structure Populated (extent : Bbox ℚ) (features : List Feature) (g : Grid) : Prop where
  slot : g.slot = features.length
  held : ∀ s f, features[s]? = some f → UInt32.ofNat s ∈ g.spanning ∨
    ∀ c ∈ f.bbox.covers extent, UInt32.ofNat s ∈ g.cells.slots c
  spanning : ∀ s ∈ g.spanning, s.toNat < features.length
  cells : ∀ c, ∀ s ∈ g.cells.slots c, s.toNat < features.length

theorem toNat_ofNat_lt (n : Nat) : (UInt32.ofNat n).toNat < n + 1 := by
  rw [UInt32.toNat_ofNat']
  exact Nat.lt_succ_of_le (Nat.mod_le _ _)

theorem Populated.place {extent : Bbox ℚ} {done : List Feature} {g g' : Grid} {f : Feature}
    (h : Populated extent done g) (hrun : (g.place extent f).Runs tr (.ok g')) :
    Populated extent (done ++ [f]) g' := by
  obtain ⟨hslot, hplaced⟩ := place_runs hrun
  have hlength : (done ++ [f]).length = done.length + 1 := by simp
  have hnew := toNat_ofNat_lt g.slot
  have hsplit : ∀ s f', (done ++ [f])[s]? = some f' →
      done[s]? = some f' ∨ (s = g.slot ∧ f' = f) := by
    intro s f' hs
    rcases Nat.lt_or_ge s done.length with hlt | hge
    · rw [List.getElem?_append_left hlt] at hs
      exact .inl hs
    · rw [List.getElem?_append_right hge] at hs
      have hone := List.getElem?_eq_some_iff.1 hs
      obtain ⟨hlt, hval⟩ := hone
      have hzero : s - done.length = 0 := by simpa using hlt
      refine .inr ⟨by rw [h.slot]; omega, ?_⟩
      simp only [hzero, List.getElem_cons_zero] at hval
      exact hval.symm
  rcases hplaced with ⟨hspanning, hcells⟩ | ⟨hspanning, hcells⟩
  · refine ⟨by rw [hslot, h.slot, hlength], fun s f' hs => ?_, fun s hs => ?_, fun c s hs => ?_⟩
    · rw [hspanning]
      rcases hsplit s f' hs with hs | ⟨rfl, -⟩
      · rcases h.held s f' hs with hheld | hheld
        · exact .inl (List.mem_append_left _ hheld)
        · exact .inr fun c hc => hcells c ▸ hheld c hc
      · exact .inl (List.mem_append_right _ List.mem_cons_self)
    · rw [hspanning] at hs
      rcases List.mem_append.1 hs with hs | hs
      · have := h.spanning s hs
        omega
      · rw [List.mem_singleton.1 hs, hlength, ← h.slot]
        exact hnew
    · rw [hcells] at hs
      have := h.cells c s hs
      omega
  · refine ⟨by rw [hslot, h.slot, hlength], fun s f' hs => ?_, fun s hs => ?_, fun c s hs => ?_⟩
    · rw [hspanning]
      rcases hsplit s f' hs with hs | ⟨rfl, rfl⟩
      · rcases h.held s f' hs with hheld | hheld
        · exact .inl hheld
        · exact .inr fun c hc => (hcells c _).2 (.inl (hheld c hc))
      · exact .inr fun c hc => (hcells c _).2 (.inr ⟨hc, rfl⟩)
    · rw [hspanning] at hs
      have := h.spanning s hs
      omega
    · rcases (hcells c s).1 hs with hs | ⟨-, rfl⟩
      · have := h.cells c s hs
        omega
      · rw [hlength, ← h.slot]
        exact hnew

theorem populated_start (extent : Bbox ℚ) : Populated extent [] .start where
  slot := rfl
  held := by intro s f hs; cases hs
  spanning := by intro s hs; cases hs
  cells := by intro c s hs; cases hs

end Grid

theorem populate_runs {extent : Option (Bbox ℚ)} {features : List Feature} {g : Grid}
    (h : (populate extent features).Runs tr (.ok g)) :
    g.cells.entries = [] ∨ ∃ e, extent = some e ∧ g.Populated e features := by
  unfold populate at h
  cases extent with
  | none =>
    obtain ⟨-, hg⟩ := Prog.runs_pure.1 h
    cases hg
    exact .inl rfl
  | some e =>
    dsimp only at h
    split_ifs at h
    · exact .inr ⟨e, rfl, Prog.runs_foldlM (I := fun done g => g.Populated e done)
        (fun hdone hrun => hdone.place hrun) (Grid.populated_start e) h⟩
    · obtain ⟨-, hg⟩ := Prog.runs_pure.1 h
      cases hg
      exact .inl rfl

/-- **What a built index holds.** -/
structure SpatialIndex.Built (index : SpatialIndex) (features : List Feature) : Prop where
  same : index.features = features
  ceiling : features.length ≤ MAX_INDEXED_FEATURES
  upright : ∀ f ∈ features, f.bbox.inverted = false
  grid : index.cells.entries = [] ∨ ∃ e n, index.extent = some e ∧
    Grid.Populated e features ⟨features.length, index.cells, index.spanning, n⟩

theorem build_runs {chunks : List (List Feature)} {index : SpatialIndex}
    (h : (build chunks).Runs tr (.ok index)) : index.Built chunks.flatten := by
  obtain ⟨features, _, _, -, hscan, h₁⟩ := Prog.runs_bind_ok.1 h
  obtain ⟨_, _, _, -, -, h₂⟩ := Prog.runs_bind_ok.1 h₁
  obtain ⟨n, _, _, -, hvalid, h₃⟩ := Prog.runs_bind_ok.1 h₂
  obtain ⟨extent, _, _, -, -, h₄⟩ := Prog.runs_bind_ok.1 h₃
  obtain ⟨grid, _, _, -, hgrid, h₅⟩ := Prog.runs_bind_ok.1 h₄
  obtain ⟨_, _, _, -, -, h₆⟩ := Prog.runs_bind_ok.1 h₅
  obtain ⟨-, hindex⟩ := Prog.runs_pure.1 h₆
  cases hindex
  obtain ⟨rfl, hceiling⟩ := scan_runs hscan
  refine ⟨rfl, hceiling, validate_runs hvalid, ?_⟩
  rcases populate_runs hgrid with hempty | ⟨e, he, hpop⟩
  · exact .inl hempty
  · refine .inr ⟨e, grid.sincePoll, he, ?_⟩
    have hslot : grid = ⟨chunks.flatten.length, grid.cells, grid.spanning, grid.sincePoll⟩ := by
      rw [← hpop.slot]
    rwa [← hslot]

/-! ### What a query returns -/

namespace SpatialIndex

/-- The slots a query looks at, in its order. -/
def visited (index : SpatialIndex) (extent view : Bbox ℚ) : List Nat :=
  (index.spanning ++ (view.covers extent).flatMap index.cells.slots).map UInt32.toNat

theorem candidates_eq_some {index : SpatialIndex} {view : Bbox ℚ} {out : List UInt64}
    (h : index.candidates view = some out) :
    index.cells.entries ≠ [] ∧ view.inverted = false ∧ ∃ e, index.extent = some e ∧
      out = (Visit.walk (index.pick view) (Visit.start index.features.length)
        (index.visited e view)).out.insertionSort (· ≤ ·) := by
  unfold candidates at h
  cases hextent : index.extent with
  | none => rw [hextent] at h; cases h
  | some e =>
    rw [hextent] at h
    dsimp only at h
    split_ifs at h with hempty hinv
    cases h
    refine ⟨fun hcells => hempty (.inr hcells), Bool.eq_false_iff.2 hinv, e, rfl, ?_⟩
    unfold visited Visit.walk
    rw [List.foldl_map, List.foldl_append, List.foldl_flatMap]
    rfl

theorem filterMap_pick (index : SpatialIndex) (view : Bbox ℚ) :
    (List.range index.features.length).filterMap (index.pick view) =
      (index.features.filter (·.bbox.meets view)).map Feature.id := by
  have hpick : index.pick view = fun s =>
      index.features[s]?.bind fun f => if f.bbox.meets view then some f.id else none := by
    funext s
    unfold pick
    cases index.features[s]? <;> rfl
  rw [hpick, Visit.filterMap_range, ← List.filterMap_eq_map, List.filterMap_filter]
  rfl

/-- **The grid index answers exactly its predicate.** -/
theorem candidates_exact {chunks : List (List Feature)} {index : SpatialIndex}
    (h : (build chunks).Runs tr (.ok index)) {view : Bbox ℚ} {out : List UInt64}
    (hout : index.candidates view = some out) :
    out.Pairwise (· ≤ ·) ∧
      out.Perm ((chunks.flatten.filter (·.bbox.meets view)).map Feature.id) := by
  obtain ⟨hfeatures, hceiling, hupright, hgrid⟩ := build_runs h
  obtain ⟨hcells, hview, e, hextent, rfl⟩ := candidates_eq_some hout
  rcases hgrid with hempty | ⟨e', n, hextent', hpop⟩
  · exact absurd hempty hcells
  cases hextent'.symm.trans hextent
  refine ⟨List.pairwise_insertionSort (· ≤ ·) _, (List.perm_insertionSort (· ≤ ·) _).trans ?_⟩
  rw [← hfeatures, ← filterMap_pick]
  refine Visit.walk_perm (fun s hs => ?_) fun s hs hpick => ?_
  · obtain ⟨slot, hslot, rfl⟩ := List.mem_map.1 hs
    rw [hfeatures]
    rcases List.mem_append.1 hslot with hslot | hslot
    · exact hpop.spanning slot hslot
    · obtain ⟨c, -, hc⟩ := List.mem_flatMap.1 hslot
      exact hpop.cells c slot hc
  · -- A feature that meets the viewport is a broad one, or it shares a cell with the viewport.
    have hlt : s < 2 ^ 32 := by
      rw [hfeatures] at hs
      have hmax : MAX_INDEXED_FEATURES < 2 ^ 32 := by decide
      omega
    have hslot : (UInt32.ofNat s).toNat = s := by
      rw [UInt32.toNat_ofNat']
      exact Nat.mod_eq_of_lt hlt
    refine List.mem_map.2 ⟨UInt32.ofNat s, ?_, hslot⟩
    unfold pick at hpick
    cases hf : index.features[s]? with
    | none => rw [hf] at hpick; cases hpick
    | some f =>
      rw [hf] at hpick
      dsimp only at hpick
      by_cases hmeets : f.bbox.meets view = true
      swap
      · rw [if_neg hmeets] at hpick
        cases hpick
      rw [hfeatures] at hf
      have hbox := hupright f (List.mem_of_getElem? hf)
      rcases hpop.held s f hf with hheld | hheld
      · exact List.mem_append_left _ hheld
      · obtain ⟨cell, hfcell, hvcell⟩ := Bbox.meets_cell e hbox hview hmeets
        exact List.mem_append_right _ (List.mem_flatMap.2 ⟨cell, hvcell, hheld cell hfcell⟩)

/-- Two points, on opposite corners of their extent. -/
def corners : List (List Feature) := [[⟨9, ⟨0, 0, 0, 0⟩⟩, ⟨7, ⟨10, 10, 10, 10⟩⟩]]

/-- A viewport that begins in a corner of the extent and ends beside it. -/
def beside : Bbox ℚ := ⟨10, 10, 12, 12⟩

theorem candidates_exact_corners :
    [7].Perm ((corners.flatten.filter (·.bbox.meets beside)).map Feature.id) := by
  have hquery : ((build corners).eval fun _ => false).2.toOption.bind (·.candidates beside) =
      some [7] := by
    decide +kernel
  obtain ⟨index, hindex, hout⟩ := Option.bind_eq_some_iff.1 hquery
  have hrun := Prog.runs_eval (fun _ => false) (build corners)
  cases hbuilt : ((build corners).eval fun _ => false).2 with
  | error e => rw [hbuilt] at hindex; cases hindex
  | ok index' =>
    rw [hbuilt] at hindex hrun
    cases hindex
    exact (candidates_exact hrun hout).2

end SpatialIndex

end SpatialIde.Engine
