import SpatialIde.Renderer.BundleViewer.Walks

/-! # What `decodePartition` returns

Behind its checks `decodePartition` reads inside its arrays, and a partition that it returns is
`Accepted`: every feature can be read, and has its bounds, its group and its attributes.
-/

namespace SpatialIde.Renderer.BundleViewer

open Lib

variable {R : Type} (N : Numbers R) (groupFor : Option String → Nat)

/-- What the checks leave, with the bounds and the groups that are added. -/
structure Accepted (p : Partition R) : Prop where
  readable : ∀ f, 0 ≤ f → f < p.features →
    ∃ rings, polygonOf p.polygonOffsets p.ringOffsets p.coords f = some rings
  boxes : ∃ boxes, p.bboxes = boxes.flatMap Box.entries ∧
    (range 0 p.features).mapM (boundsOf N p.polygonOffsets p.ringOffsets p.coords) = some boxes
  groups : ∀ f, 0 ≤ f → f < p.features → ∃ key, readAt p.groups f = some (groupFor key % 256)
  attributes : ∀ a ∈ p.attributes, a.values.length = p.features

variable {N groupFor}

/-- **A feature has its own bounds.** -/
theorem Accepted.bounds {p : Partition R} (h : Accepted N groupFor p) {f : Int} (h₀ : 0 ≤ f)
    (hf : f < p.features) :
    ∃ box, boundsOf N p.polygonOffsets p.ringOffsets p.coords f = some box ∧
      readAt p.bboxes (f * 4) = some box.xmin ∧ readAt p.bboxes (f * 4 + 1) = some box.ymin ∧
      readAt p.bboxes (f * 4 + 2) = some box.xmax ∧
      readAt p.bboxes (f * 4 + 3) = some box.ymax := by
  obtain ⟨boxes, hbboxes, hboxes⟩ := h.boxes
  obtain ⟨box, hbox⟩ : ∃ box, boundsOf N p.polygonOffsets p.ringOffsets p.coords f = some box := by
    obtain ⟨box, -, hbox⟩ := exists_mem_of_mapM hboxes (mem_range.2 ⟨h₀, hf⟩)
    exact ⟨box, hbox⟩
  have hfour : ∀ box : Box R, box.entries.length = 4 := fun _ => rfl
  have hread : ∀ j : Nat, j < 4 → readAt p.bboxes (f * 4 + j) = box.entries[j]? := by
    intro j hj
    rw [hbboxes]
    exact readAt_flatMap hfour ((readAt_of_mapM hboxes h₀ hf).trans hbox) hj
  refine ⟨box, hbox, ?_, hread 1 (by decide), hread 2 (by decide), hread 3 (by decide)⟩
  rw [← Int.add_zero (f * 4)]
  exact hread 0 (by decide)

theorem attributeOf_eq_ok {asset : PartitionAsset} {table : Table R} {features : Int} {name : String}
    {a : AttributeColumn} (h : attributeOf asset table features name = .ok a) :
    a.values.length = features.toNat := by
  rw [attributeOf] at h
  split at h
  · cases h
  · cases h
    rw [List.length_map, List.length_range]

variable (groupFor) in
theorem exists_groups {features : Int} {matchValues : Option (List (Option String))}
    (h : ∀ values, matchValues = some values → (values.length : Int) = features) :
    ∃ groups : List Nat, ((range 0 features).mapM fun f => do
        return groupFor (← matchKey matchValues f) % 256) = some groups ∧
      ∀ f, 0 ≤ f → f < features → ∃ key, readAt groups f = some (groupFor key % 256) := by
  have hkey : ∀ f, 0 ≤ f → f < features → ∃ key, matchKey matchValues f = some key := by
    intro f h₀ hf
    cases matchValues with
    | none => exact ⟨none, rfl⟩
    | some values => exact readAt_of_lt h₀ (by rw [h values rfl]; exact hf)
  obtain ⟨groups, hgroups⟩ : ∃ groups : List Nat, ((range 0 features).mapM fun f => do
      return groupFor (← matchKey matchValues f) % 256) = some groups := by
    refine exists_mapM fun f hf => ?_
    obtain ⟨key, hkey⟩ := hkey f (mem_range.1 hf).1 (mem_range.1 hf).2
    exact ⟨groupFor key % 256, by rw [hkey]; rfl⟩
  refine ⟨groups, hgroups, fun f h₀ hf => ?_⟩
  obtain ⟨key, hkey⟩ := hkey f h₀ hf
  exact ⟨key, by rw [readAt_of_mapM hgroups h₀ hf, hkey]; rfl⟩

variable (N groupFor) in
/-- **`decodePartition` reads inside its arrays, and what it returns is accepted.** -/
theorem yields_decodePartition (tableFromIPC : List UInt8 → Except String (Table R))
    (stringify : List String → String) (asset : PartitionAsset) (index : Nat) (bytes : List UInt8)
    (manifest : Manifest) (matchColumn : Option String) :
    (decodePartition N tableFromIPC stringify asset index bytes manifest groupFor
      matchColumn).Yields (Accepted N groupFor) := by
  refine Panics.yields_of_bind fun table _ => ?_
  refine Panics.yields_of_bind fun _ _ => ?_
  refine Panics.yields_of_bind fun ⟨id, geometry⟩ _ => ?_
  refine Panics.yields_of_bind fun ⟨polygonOffsets, ringOffsets, coords⟩ _ => ?_
  refine Panics.yields_of_bind fun _ hrows => ?_
  refine Panics.yields_of_bind fun _ hchecks => ?_
  refine Panics.yields_of_bind fun attributes hattributes => ?_
  have hfeatures : (polygonOffsets.length : Int) - 1 = asset.rows := by
    by_contra hne
    rw [if_pos hne] at hrows
    cases hrows
  have hreadable : ∀ f, 0 ≤ f → f < (polygonOffsets.length : Int) - 1 →
      ∃ rings, polygonOf polygonOffsets ringOffsets coords f = some rings :=
    fun f h₀ h => polygonOf_of_checks hchecks h₀ h
  have hlength : ∀ a ∈ attributes, (a.values.length : Int) = polygonOffsets.length - 1 := by
    intro a ha
    obtain ⟨name, -, hname⟩ := exists_of_mem_mapM hattributes ha
    rw [attributeOf_eq_ok hname]
    omega
  obtain ⟨boxes, hboxes⟩ : ∃ boxes, (range 0 ((polygonOffsets.length : Int) - 1)).mapM
      (boundsOf N polygonOffsets ringOffsets coords) = some boxes := by
    refine exists_mapM fun f hf => ?_
    rw [mem_range] at hf
    obtain ⟨rings, hrings⟩ := hreadable f hf.1 hf.2
    exact ⟨_, by rw [boundsOf_eq, hrings]; rfl⟩
  refine Panics.yields_unwrap_bind hboxes ?_
  have hvalues : ∀ values, (matchColumn.bind fun name =>
      (attributes.find? fun a => a.name = name).map AttributeColumn.values) = some values →
      (values.length : Int) = polygonOffsets.length - 1 := by
    intro values h
    obtain ⟨name, -, h⟩ := Option.bind_eq_some_iff.1 h
    obtain ⟨a, ha, rfl⟩ := Option.map_eq_some_iff.1 h
    exact hlength a (List.mem_of_find?_eq_some ha)
  obtain ⟨groups, hgroups, hread⟩ := exists_groups groupFor hvalues
  refine Panics.yields_unwrap_bind hgroups (Panics.yields_pure ?_)
  exact ⟨hreadable, ⟨boxes, rfl, hboxes⟩, hread, hlength⟩

end SpatialIde.Renderer.BundleViewer
