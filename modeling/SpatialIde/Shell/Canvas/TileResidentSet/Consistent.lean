import SpatialIde.Shell.Canvas.TileResidentSet.Evicting

/-! # The bookkeeping of the resident tiles

The known ids, their owners and the stored batches say the same, the totals are sums over the stored
batches, and the suppressors and their inverse name the same pairs (`Consistent`).  A mark changes
nothing of this, so it is said of the tiles without their marks.  An eviction breaks the pairs of the
tiles it goes into next, which `pending` names until they are gone (`Booked`).
-/

namespace SpatialIde.Shell.Canvas

open Lib

/-- An entry, whatever it is marked. -/
def TileEntry.unmarked (entry : TileEntry) : TileEntry := { entry with isPartial := false }

/-- The parts of a batch and their rows are those of its ids. -/
structure ResidentBatch.Agrees (batch : ResidentBatch) : Prop where
  parts : batch.parts.length = batch.ids.length
  partToRow : batch.partToRow = owners 0 batch.parts
  partCount : batch.partCount = batch.partToRow.length

/-- The totals of an entry are sums over its batches. -/
structure TileEntry.Sums (entry : TileEntry) : Prop where
  vertices : entry.vertices = (entry.batches.map ResidentBatch.totalVertices).sum
  features : entry.features = (entry.batches.map fun b => b.ids.length).sum
  agrees : ∀ b ∈ entry.batches, b.Agrees

/-- The entry with another batch. -/
def TileEntry.append (entry : TileEntry) (batch : ResidentBatch) : TileEntry :=
  { entry with
    batches := entry.batches ++ [batch]
    vertices := entry.vertices + batch.totalVertices
    features := entry.features + batch.ids.length }

theorem TileEntry.mem_ids_append {entry : TileEntry} {batch : ResidentBatch} {i : UInt64} :
    i ∈ (entry.append batch).ids ↔ i ∈ entry.ids ∨ i ∈ batch.ids := by
  rw [TileEntry.ids, TileEntry.append, List.flatMap_append, List.mem_append, List.flatMap_cons,
    List.flatMap_nil, List.append_nil]
  exact Iff.rfl

theorem TileEntry.Sums.append {entry : TileEntry} (h : entry.Sums) {batch : ResidentBatch}
    (hbatch : batch.Agrees) : (entry.append batch).Sums where
  vertices := by
    show entry.vertices + batch.totalVertices =
      ((entry.batches ++ [batch]).map ResidentBatch.totalVertices).sum
    rw [List.map_append, List.sum_append, List.map_cons, List.map_nil, List.sum_singleton]
    exact congrArg (· + _) h.vertices
  features := by
    show entry.features + batch.ids.length =
      ((entry.batches ++ [batch]).map fun b => b.ids.length).sum
    rw [List.map_append, List.sum_append, List.map_cons, List.map_nil, List.sum_singleton]
    exact congrArg (· + _) h.features
  agrees := by
    intro b hb
    rcases List.mem_append.1 hb with hb | hb
    · exact h.agrees b hb
    · exact List.mem_singleton.1 hb ▸ hbatch

namespace TileResidentSet

variable {isProtected : String → Bool} {s s' : TileResidentSet} {k : String}

/-- The inverse names an id among those a tile delivered while another one owned them. -/
def Suppressed (s : TileResidentSet) (t : String) (id : UInt64) : Prop :=
  id ∈ (s.suppressedIdsByTile.get t).getD []

/-- The tiles, whatever they are marked. -/
def contents (s : TileResidentSet) : OrderedMap String TileEntry :=
  s.tiles.mapValues TileEntry.unmarked

theorem get_contents (s : TileResidentSet) (t : String) :
    s.contents.get t = (s.tiles.get t).map TileEntry.unmarked := OrderedMap.get_mapValues ..

theorem get_contents_eq_none (s : TileResidentSet) (t : String) :
    s.contents.get t = none ↔ s.tiles.get t = none := by
  rw [get_contents, Option.map_eq_none_iff]

/-! ### Marks -/

theorem isTilePartial_markTilePartial (s : TileResidentSet) (k t : String) :
    (s.markTilePartial k).isTilePartial t = true ↔
      s.isTilePartial t = true ∨ t = k ∧ s.tiles.get t ≠ none := by
  rw [markTilePartial]
  split
  · next entry hk =>
    rw [isTilePartial, isTilePartial]
    dsimp only
    rw [OrderedMap.get_set]
    by_cases ht : t = k
    · rw [if_pos ht, ht, hk]
      exact ⟨fun _ => Or.inr ⟨rfl, Option.some_ne_none entry⟩, fun _ => rfl⟩
    · rw [if_neg ht, or_iff_left fun h => ht h.1]
  · next hk =>
    refine (or_iff_left ?_).symm
    intro h
    rw [h.1] at h
    exact h.2 hk

theorem contents_set_unmarked {entry entry' : TileEntry} (hk : s.tiles.get k = some entry)
    (h : entry'.unmarked = entry.unmarked) :
    (s.tiles.set k entry').mapValues TileEntry.unmarked = s.contents := by
  rw [OrderedMap.mapValues_set, h]
  refine OrderedMap.set_of_get ?_
  rw [OrderedMap.get_mapValues, hk]
  rfl

theorem contents_markTilePartial (s : TileResidentSet) (k : String) :
    (s.markTilePartial k).contents = s.contents := by
  rw [markTilePartial]
  split
  · next entry hk => exact contents_set_unmarked hk (Eq.refl entry.unmarked)
  · rfl

theorem contents_markTileComplete (s : TileResidentSet) (k : String) :
    (s.markTileComplete k).contents = s.contents := by
  rw [markTileComplete]
  split
  · next entry hk => exact contents_set_unmarked hk (Eq.refl entry.unmarked)
  · rfl

/-- The tile is there after, without batches where it was not there before. -/
theorem contents_markTileResidentEmpty (s : TileResidentSet) (k : String) (isPartial : Bool) :
    (s.markTileResidentEmpty k isPartial).contents =
      if s.tiles.get k = none then s.contents.set k ⟨[], 0, 0, false⟩ else s.contents := by
  rw [markTileResidentEmpty]
  split
  · next hk =>
    rw [if_pos hk]
    exact OrderedMap.mapValues_set ..
  · next entry hk =>
    have hres : s.tiles.get k ≠ none := by
      rw [hk]
      exact Option.some_ne_none entry
    rw [if_neg hres]
    cases isPartial with
    | true => exact contents_set_unmarked hk (Eq.refl entry.unmarked)
    | false => rfl

/-! ### The two indices -/

theorem suppressed_suppress (s : TileResidentSet) (k : String) (id : UInt64) (t : String)
    (i : UInt64) :
    ((s.suppress k id).Suppresses t i ↔ s.Suppresses t i ∨ t = k ∧ i = id) ∧
      ((s.suppress k id).Suppressed t i ↔ s.Suppressed t i ∨ t = k ∧ i = id) := by
  constructor
  · show t ∈ ((s.suppressorsOf.set id _).get i).getD [] ↔ _
    rw [OrderedMap.get_set]
    by_cases hi : i = id
    · rw [if_pos hi, hi]
      refine mem_addOnce.trans ?_
      rw [eq_self_iff_true, and_true]
      exact Iff.rfl
    · rw [if_neg hi, or_iff_left (fun h => hi h.2)]
      exact Iff.rfl
  · show i ∈ ((s.suppressedIdsByTile.set k _).get t).getD [] ↔ _
    rw [OrderedMap.get_set]
    by_cases ht : t = k
    · rw [if_pos ht, ht]
      refine mem_addOnce.trans ?_
      rw [eq_self_iff_true, true_and]
      exact Iff.rfl
    · rw [if_neg ht, or_iff_left (fun h => ht h.1)]
      exact Iff.rfl

theorem inverse_unsuppress (s : TileResidentSet) (k : String) (id : UInt64) :
    (s.unsuppress k id).suppressedIdsByTile = s.suppressedIdsByTile ∧
      (s.unsuppress k id).totalFeatures = s.totalFeatures := by
  rw [unsuppress]
  split
  · exact ⟨rfl, rfl⟩
  · dsimp only
    split_ifs
    · exact ⟨rfl, rfl⟩
    · exact ⟨rfl, rfl⟩

theorem inverse_foldl_unsuppress (k : String) (ids : List UInt64) (s : TileResidentSet) :
    (ids.foldl (fun s id => s.unsuppress k id) s).suppressedIdsByTile = s.suppressedIdsByTile ∧
      (ids.foldl (fun s id => s.unsuppress k id) s).totalFeatures = s.totalFeatures := by
  induction ids generalizing s with
  | nil => exact ⟨rfl, rfl⟩
  | cons id ids ih =>
    obtain ⟨hinverse, htotal⟩ := ih (s.unsuppress k id)
    obtain ⟨hinverse', htotal'⟩ := inverse_unsuppress s k id
    exact ⟨hinverse.trans hinverse', htotal.trans htotal'⟩

/-- A tile that goes is in no pair any more that the inverse names for it. -/
structure Forgets (k : String) (s s' : TileResidentSet) : Prop where
  known : s'.knownIds = s.knownIds
  owner : s'.idOwner = s.idOwner
  tiles : s'.tiles = s.tiles
  totalVertices : s'.totalVertices = s.totalVertices
  totalFeatures : s'.totalFeatures = s.totalFeatures
  suppresses : ∀ t i, s'.Suppresses t i ↔ s.Suppresses t i ∧ ¬(t = k ∧ s.Suppressed k i)
  suppressed : ∀ t i, s'.Suppressed t i ↔ s.Suppressed t i ∧ t ≠ k

theorem forgets_forgetSuppressed (s : TileResidentSet) (k : String) :
    Forgets k s (s.forgetSuppressed k) := by
  rw [forgetSuppressed]
  split
  · next hk =>
    have hnone : ∀ i, ¬s.Suppressed k i := by
      intro i h
      rw [Suppressed, hk] at h
      cases h
    refine ⟨rfl, rfl, rfl, rfl, rfl, ?_, ?_⟩
    · intro t i
      exact ⟨fun h => ⟨h, fun hti => hnone i hti.2⟩, fun h => h.1⟩
    · intro t i
      exact ⟨fun h => ⟨h, fun ht => hnone i (ht ▸ h)⟩, fun h => h.1⟩
  · next ids hk =>
    obtain ⟨hknown, howner, htiles, htotal, hsup⟩ := foldl_unsuppress k ids s
    obtain ⟨hinverse, hfeatures⟩ := inverse_foldl_unsuppress k ids s
    refine ⟨hknown, howner, htiles, htotal, hfeatures, ?_, ?_⟩
    · intro t i
      rw [Suppressed, hk]
      exact hsup t i
    · intro t i
      show i ∈ ((OrderedMap.delete _ k).get t).getD [] ↔ _
      rw [hinverse, OrderedMap.get_delete]
      by_cases ht : t = k
      · rw [if_pos ht]
        exact ⟨fun h => absurd h List.not_mem_nil, fun h => absurd ht h.2⟩
      · rw [if_neg ht]
        exact ⟨fun h => ⟨h, ht⟩, fun h => h.1⟩

/-! ### Ids whose owner goes -/

theorem inverse_markTilePartial (s : TileResidentSet) (k : String) :
    (s.markTilePartial k).suppressedIdsByTile = s.suppressedIdsByTile ∧
      (s.markTilePartial k).totalFeatures = s.totalFeatures := by
  rw [markTilePartial]
  split
  · exact ⟨rfl, rfl⟩
  · exact ⟨rfl, rfl⟩

/-- A protected suppressor loses one pair of the inverse. -/
theorem divert_spec (s : TileResidentSet) (t : String) (id : UInt64) :
    (s.divert t id).contents = s.contents ∧ (s.divert t id).totalFeatures = s.totalFeatures ∧
      ∀ u i, (s.divert t id).Suppressed u i ↔ s.Suppressed u i ∧ ¬(u = t ∧ i = id) := by
  obtain ⟨s₀, heq, hcontents, hfeatures, hinverse⟩ : ∃ s₀ : TileResidentSet,
      s.divert t id = s₀.markTilePartial t ∧ s₀.contents = s.contents ∧
        s₀.totalFeatures = s.totalFeatures ∧
        ∀ u i, s₀.Suppressed u i ↔ s.Suppressed u i ∧ ¬(u = t ∧ i = id) := by
    refine ⟨_, rfl, ?_⟩
    split
    · next hk =>
      refine ⟨rfl, rfl, ?_⟩
      intro u i
      refine ⟨fun h => ⟨h, ?_⟩, fun h => h.1⟩
      intro hui
      rw [Suppressed, hui.1, hk] at h
      cases h
    · next ids hk =>
      have hids : ∀ i, i ∈ ids.filter (fun i => i ≠ id) ↔ i ∈ ids ∧ i ≠ id := by
        intro i
        rw [List.mem_filter, decide_eq_true_eq]
      have hold : ∀ i, s.Suppressed t i ↔ i ∈ ids := by
        intro i
        rw [Suppressed, hk]
        rfl
      dsimp only
      split_ifs with hnil
      · refine ⟨rfl, rfl, ?_⟩
        intro u i
        show i ∈ ((s.suppressedIdsByTile.delete t).get u).getD [] ↔ _
        rw [OrderedMap.get_delete]
        by_cases hu : u = t
        · rw [if_pos hu, hu, hold]
          constructor
          · nofun
          · intro h
            have hmem := (hids i).2 ⟨h.1, fun hi => h.2 ⟨rfl, hi⟩⟩
            rw [hnil] at hmem
            cases hmem
        · rw [if_neg hu]
          exact ⟨fun h => ⟨h, fun hui => hu hui.1⟩, fun h => h.1⟩
      · refine ⟨rfl, rfl, ?_⟩
        intro u i
        show i ∈ ((s.suppressedIdsByTile.set t _).get u).getD [] ↔ _
        rw [OrderedMap.get_set]
        by_cases hu : u = t
        · rw [if_pos hu, hu, hold]
          show i ∈ ids.filter _ ↔ _
          rw [hids]
          exact ⟨fun h => ⟨h.1, fun hui => h.2 hui.2⟩, fun h => ⟨h.1, fun hi => h.2 ⟨rfl, hi⟩⟩⟩
        · rw [if_neg hu]
          exact ⟨fun h => ⟨h, fun hui => hu hui.1⟩, fun h => h.1⟩
  obtain ⟨hinverse', hfeatures'⟩ := inverse_markTilePartial s₀ t
  rw [heq]
  refine ⟨(contents_markTilePartial s₀ t).trans hcontents, hfeatures'.trans hfeatures, ?_⟩
  intro u i
  rw [← hinverse, Suppressed, hinverse', ← Suppressed]

/-- What the suppressors of one id come to: the protected ones lose the pair, the others are
evicted after. -/
structure Parts (isProtected : String → Bool) (suppresses : String → UInt64 → Prop)
    (acc acc' : Cascade) : Prop where
  contents : acc'.1.contents = acc.1.contents
  totalFeatures : acc'.1.totalFeatures = acc.1.totalFeatures
  suppressed : ∀ t i, acc'.1.Suppressed t i ↔
    acc.1.Suppressed t i ∧ ¬(isProtected t = true ∧ suppresses t i)
  cascade : ∀ t, t ∈ acc'.2 ↔ t ∈ acc.2 ∨ isProtected t = false ∧ ∃ i, suppresses t i
  marked : ∀ t, acc.1.tiles.get t ≠ none → (acc'.1.isTilePartial t = true ↔
    acc.1.isTilePartial t = true ∨ isProtected t = true ∧ ∃ i, suppresses t i)

theorem parts_releaseSuppressor (isProtected : String → Bool) (id : UInt64) (acc : Cascade)
    (t : String) :
    Parts isProtected (fun u i => u = t ∧ i = id) acc (releaseSuppressor isProtected id acc t) := by
  rw [releaseSuppressor]
  cases hprot : isProtected t with
  | true =>
    obtain ⟨hcontents, hfeatures, hsup⟩ := divert_spec acc.1 t id
    rw [if_pos rfl]
    refine ⟨hcontents, hfeatures, ?_, ?_, ?_⟩
    · intro u i
      rw [hsup]
      exact and_congr_right fun _ => not_congr ⟨fun h => ⟨h.1 ▸ hprot, h⟩, fun h => h.2⟩
    · intro u
      refine ⟨Or.inl, fun h => h.resolve_right ?_⟩
      intro hu
      obtain ⟨hfree, i, hui, _⟩ := hu
      rw [hui, hprot] at hfree
      cases hfree
    · intro u hu
      obtain ⟨s₀, heq, htiles, _⟩ := divert_eq acc.1 t id
      show (acc.1.divert t id).isTilePartial u = true ↔ _
      rw [heq, isTilePartial_markTilePartial, isTilePartial, isTilePartial, htiles]
      refine or_congr_right ⟨fun h => ⟨h.1 ▸ hprot, id, h.1, rfl⟩, ?_⟩
      intro h
      obtain ⟨_, i, hut, _⟩ := h
      exact ⟨hut, hu⟩
  | false =>
    rw [if_neg Bool.false_ne_true]
    refine ⟨rfl, rfl, ?_, ?_, ?_⟩
    · intro u i
      refine ⟨fun h => ⟨h, ?_⟩, fun h => h.1⟩
      intro hu
      rw [hu.2.1, hprot] at hu
      cases hu.1
    · intro u
      rw [mem_addOnce]
      refine or_congr_right ⟨fun h => ⟨h ▸ hprot, id, h, rfl⟩, ?_⟩
      intro h
      obtain ⟨_, i, hu, _⟩ := h
      exact hu
    · intro u _
      refine (or_iff_left ?_).symm
      intro h
      obtain ⟨hu, i, hut, _⟩ := h
      rw [hut, hprot] at hu
      cases hu

theorem Parts.trans {suppresses suppresses' : String → UInt64 → Prop} {acc acc' acc'' : Cascade}
    (h : Parts isProtected suppresses acc acc') (h' : Parts isProtected suppresses' acc' acc'') :
    Parts isProtected (fun t i => suppresses t i ∨ suppresses' t i) acc acc'' where
  contents := h'.contents.trans h.contents
  totalFeatures := h'.totalFeatures.trans h.totalFeatures
  suppressed t i := by
    rw [h'.suppressed, h.suppressed, and_assoc, and_or_left, not_or]
  cascade t := by
    rw [h'.cascade, h.cascade, or_assoc, exists_or, and_or_left]
  marked t ht := by
    have ht' : acc'.1.tiles.get t ≠ none := by
      rw [ne_eq, ← get_contents_eq_none, h.contents, get_contents_eq_none]
      exact ht
    rw [h'.marked t ht', h.marked t ht, or_assoc, exists_or, and_or_left]

theorem Parts.congr {suppresses suppresses' : String → UInt64 → Prop} {acc acc' : Cascade}
    (h : Parts isProtected suppresses acc acc') (heq : ∀ t i, suppresses t i ↔ suppresses' t i) :
    Parts isProtected suppresses' acc acc' where
  contents := h.contents
  totalFeatures := h.totalFeatures
  suppressed t i := by rw [h.suppressed, heq]
  cascade t := by rw [h.cascade, exists_congr (heq t)]
  marked t ht := by rw [h.marked t ht, exists_congr (heq t)]

theorem Parts.refl (acc : Cascade) : Parts isProtected (fun _ _ => False) acc acc where
  contents := rfl
  totalFeatures := rfl
  suppressed _ _ := ⟨fun h => ⟨h, fun hf => hf.2⟩, fun h => h.1⟩
  cascade _ := ⟨Or.inl, fun h => h.resolve_right fun hf => hf.2.elim fun _ hi => hi⟩
  marked _ _ := ⟨Or.inl, fun h => h.resolve_right fun hf => hf.2.elim fun _ hi => hi⟩

theorem parts_releaseSuppressors (isProtected : String → Bool) (id : UInt64) (ts : List String)
    (acc : Cascade) :
    Parts isProtected (fun t i => t ∈ ts ∧ i = id) acc
      (ts.foldl (releaseSuppressor isProtected id) acc) := by
  induction ts generalizing acc with
  | nil => exact (Parts.refl acc).congr fun t i => ⟨False.elim, fun h => List.not_mem_nil h.1⟩
  | cons t ts ih =>
    refine ((parts_releaseSuppressor isProtected id acc t).trans (ih _)).congr ?_
    intro u i
    rw [List.mem_cons, or_and_right]

theorem parts_release (isProtected : String → Bool) (acc : Cascade) (id : UInt64) :
    Parts isProtected (fun t i => acc.1.Suppresses t id ∧ i = id) acc
      (release isProtected acc id) := by
  have hparts := parts_releaseSuppressors isProtected id ((acc.1.suppressorsOf.get id).getD [])
    ({ acc.1 with
        knownIds := acc.1.knownIds.filter fun i => i ≠ id
        idOwner := acc.1.idOwner.delete id }, acc.2)
  rw [release]
  cases hsup : acc.1.suppressorsOf.get id with
  | none =>
    rw [hsup] at hparts
    refine Parts.congr ⟨hparts.contents, hparts.totalFeatures, hparts.suppressed, hparts.cascade,
      hparts.marked⟩ ?_
    intro t i
    rw [Suppresses, hsup]
  | some ts =>
    rw [hsup] at hparts
    refine Parts.congr ⟨hparts.contents, hparts.totalFeatures, hparts.suppressed, hparts.cascade,
      hparts.marked⟩ ?_
    intro t i
    rw [Suppresses, hsup]

theorem parts_foldl_release (isProtected : String → Bool) (s : TileResidentSet)
    (ids : List UInt64) :
    Parts isProtected (fun t i => i ∈ ids ∧ s.Suppresses t i) (s, [])
      (ids.foldl (release isProtected) (s, [])) := by
  induction ids using List.reverseRecOn with
  | nil => exact (Parts.refl _).congr fun t i => ⟨False.elim, fun h => List.not_mem_nil h.1⟩
  | append_singleton ids id ih =>
    have hbefore := (releases_foldl isProtected s ids).suppresses
    rw [List.foldl_append, List.foldl_cons, List.foldl_nil]
    refine (ih.trans (parts_release isProtected _ id)).congr ?_
    intro t i
    rw [hbefore, List.mem_append, List.mem_singleton]
    constructor
    · intro h
      rcases h with h | h
      · exact ⟨Or.inl h.1, h.2⟩
      · rw [h.2]
        exact ⟨Or.inr rfl, h.1.1⟩
    · intro h
      -- The pairs of an id that was there before are gone already.
      by_cases hi : i ∈ ids
      · exact Or.inl ⟨hi, h.2⟩
      · have hid := h.1.resolve_left hi
        exact Or.inr ⟨⟨hid ▸ h.2, hid ▸ hi⟩, hid⟩

/-- What a tile leaves behind that goes, pair by pair. -/
structure Leaves (isProtected : String → Bool) (k : String) (entry : TileEntry)
    (s : TileResidentSet) (r : Cascade) : Prop where
  contents : r.1.contents = s.contents.delete k
  known : ∀ i, i ∈ r.1.knownIds ↔ i ∈ s.knownIds ∧ i ∉ entry.ids
  owner : ∀ i, r.1.idOwner.get i = if i ∈ entry.ids then none else s.idOwner.get i
  totalVertices : r.1.totalVertices = s.totalVertices - entry.vertices
  totalFeatures : r.1.totalFeatures = s.totalFeatures - entry.features
  suppresses : ∀ t i, r.1.Suppresses t i ↔
    (s.Suppresses t i ∧ ¬(t = k ∧ s.Suppressed k i)) ∧ i ∉ entry.ids
  suppressed : ∀ t i, r.1.Suppressed t i ↔ (s.Suppressed t i ∧ t ≠ k) ∧
    ¬(isProtected t = true ∧ i ∈ entry.ids ∧ s.Suppresses t i)
  cascade : ∀ t, t ≠ k → isProtected t = false → ∀ i ∈ entry.ids, s.Suppresses t i → t ∈ r.2
  marked : ∀ t, t ≠ k → s.tiles.get t ≠ none → (r.1.isTilePartial t = true ↔
    s.isTilePartial t = true ∨ isProtected t = true ∧ ∃ i ∈ entry.ids, s.Suppresses t i)

theorem leaves_dropTile (s : TileResidentSet) (isProtected : String → Bool) (k : String)
    (entry : TileEntry) : Leaves isProtected k entry s (s.dropTile isProtected k entry) := by
  rw [dropTile]
  have hforgets := forgets_forgetSuppressed
    { s with
      tiles := s.tiles.delete k
      totalVertices := s.totalVertices - entry.vertices
      totalFeatures := s.totalFeatures - entry.features } k
  generalize { s with
    tiles := s.tiles.delete k
    totalVertices := s.totalVertices - entry.vertices
    totalFeatures := s.totalFeatures - entry.features : TileResidentSet }.forgetSuppressed k = s₁
    at hforgets ⊢
  have hreleases := releases_foldl isProtected s₁ entry.ids
  have hparts := parts_foldl_release isProtected s₁ entry.ids
  change Releases isProtected entry.ids s₁
    ((entry.batches.flatMap ResidentBatch.ids).foldl (release isProtected) (s₁, [])) at hreleases
  change Parts isProtected _ (s₁, [])
    ((entry.batches.flatMap ResidentBatch.ids).foldl (release isProtected) (s₁, [])) at hparts
  generalize (entry.batches.flatMap ResidentBatch.ids).foldl (release isProtected) (s₁, []) = r
    at hreleases hparts ⊢
  have hstay : ∀ t i, t ≠ k → (s₁.Suppresses t i ↔ s.Suppresses t i) := by
    intro t i ht
    rw [hforgets.suppresses]
    exact ⟨fun h => h.1, fun h => ⟨h, fun hti => ht hti.1⟩⟩
  refine ⟨?_, ?_, ?_, hreleases.total.trans hforgets.totalVertices,
    hparts.totalFeatures.trans hforgets.totalFeatures, ?_, ?_, ?_, ?_⟩
  · rw [hparts.contents, contents, hforgets.tiles]
    exact OrderedMap.mapValues_delete ..
  · intro i
    rw [hreleases.known, hforgets.known]
  · intro i
    rw [hreleases.owner, hforgets.owner]
  · intro t i
    rw [hreleases.suppresses, hforgets.suppresses]
    exact Iff.rfl
  · intro t i
    rw [hparts.suppressed, hforgets.suppressed]
    refine and_congr_right fun h => not_congr (and_congr_right fun _ => and_congr_right fun _ => ?_)
    exact hstay t i h.2
  · intro t ht hfree i hi hsup
    exact (hparts.cascade t).2 (Or.inr ⟨hfree, i, hi, (hstay t i ht).2 hsup⟩)
  · intro t ht hres
    have hget : s₁.tiles.get t = s.tiles.get t := by
      rw [hforgets.tiles]
      exact OrderedMap.get_delete_of_ne _ ht
    rw [hparts.marked t (show s₁.tiles.get t ≠ none from hget ▸ hres), isTilePartial, isTilePartial,
      hget]
    refine or_congr_right (and_congr_right fun _ => exists_congr fun i => and_congr_right fun _ => ?_)
    exact hstay t i ht

/-! ### What holds while an eviction goes on -/

/-- A tile in `pending` may be named by the inverse where no suppressor is. -/
structure Booked (pending : String → Prop) (s : TileResidentSet) : Prop where
  known : ∀ i, i ∈ s.knownIds ↔ ∃ t, s.idOwner.get i = some t
  stored : ∀ i t, s.idOwner.get i = some t ↔ ∃ e, s.contents.get t = some e ∧ i ∈ e.ids
  entry : ∀ t e, s.contents.get t = some e → e.Sums
  totalVertices : s.totalVertices = s.contents.total TileEntry.vertices
  totalFeatures : s.totalFeatures = s.contents.total TileEntry.features
  pairs : ∀ t i, s.Suppresses t i →
    s.Suppressed t i ∧ ∃ o, s.idOwner.get i = some o ∧ o ≠ t
  inverse : ∀ t i, s.Suppressed t i →
    s.contents.get t ≠ none ∧ (s.Suppresses t i ∨ pending t)

variable {pending pending' : String → Prop}

theorem booked_new : Booked pending new where
  known _ := ⟨nofun, nofun⟩
  stored _ _ := ⟨nofun, nofun⟩
  entry := nofun
  totalVertices := rfl
  totalFeatures := rfl
  pairs := nofun
  inverse := nofun

theorem Booked.mono (h : Booked pending s)
    (hp : ∀ t e, s.tiles.get t = some e → pending t → pending' t) : Booked pending' s :=
  { h with
    inverse := by
      intro t i hi
      obtain ⟨hres, hor⟩ := h.inverse t i hi
      refine ⟨hres, hor.imp_right fun ht => ?_⟩
      cases he : s.tiles.get t with
      | none =>
        rw [get_contents, he] at hres
        exact absurd rfl hres
      | some e => exact hp t e he ht }

theorem Booked.dropTile {entry : TileEntry} (h : Booked (fun t => pending t ∨ t = k) s)
    (hk : s.tiles.get k = some entry) :
    Booked (fun t => pending t ∨ t ∈ (s.dropTile isProtected k entry).2)
      (s.dropTile isProtected k entry).1 := by
  have hleaves := leaves_dropTile s isProtected k entry
  generalize s.dropTile isProtected k entry = r at hleaves ⊢
  have hcontents : s.contents.get k = some entry.unmarked := by
    rw [get_contents, hk]
    rfl
  -- The tile owns what it stores, and nothing else.
  have hown : ∀ i t, s.idOwner.get i = some t → (i ∈ entry.ids ↔ t = k) := by
    intro i t ht
    constructor
    · intro hi
      have hthere := (h.stored i k).2 ⟨entry.unmarked, hcontents, hi⟩
      rw [ht] at hthere
      exact Option.some.inj hthere
    · intro hkt
      obtain ⟨e, he, hi⟩ := (h.stored i t).1 ht
      rw [hkt, hcontents] at he
      cases he
      exact hi
  refine ⟨?_, ?_, ?_, ?_, ?_, ?_, ?_⟩
  · intro i
    rw [hleaves.known, hleaves.owner, h.known]
    by_cases hi : i ∈ entry.ids
    · rw [if_pos hi]
      exact ⟨fun hn => absurd hi hn.2, nofun⟩
    · rw [if_neg hi]
      exact ⟨fun hn => hn.1, fun hn => ⟨hn, hi⟩⟩
  · intro i t
    rw [hleaves.owner, hleaves.contents, OrderedMap.get_delete]
    constructor
    · intro ht
      by_cases hi : i ∈ entry.ids
      · rw [if_pos hi] at ht
        cases ht
      · rw [if_neg hi] at ht
        rw [if_neg fun htk => hi ((hown i t ht).2 htk)]
        exact (h.stored i t).1 ht
    · intro he
      obtain ⟨e, he, hi⟩ := he
      by_cases htk : t = k
      · rw [if_pos htk] at he
        cases he
      · rw [if_neg htk] at he
        have ht := (h.stored i t).2 ⟨e, he, hi⟩
        rw [if_neg fun hin => htk ((hown i t ht).1 hin)]
        exact ht
  · intro t e he
    rw [hleaves.contents, OrderedMap.get_delete] at he
    split_ifs at he
    exact h.entry t e he
  · have htotal := OrderedMap.total_delete TileEntry.vertices hcontents
    change _ + entry.vertices = _ at htotal
    rw [hleaves.totalVertices, h.totalVertices, hleaves.contents]
    omega
  · have htotal := OrderedMap.total_delete TileEntry.features hcontents
    change _ + entry.features = _ at htotal
    rw [hleaves.totalFeatures, h.totalFeatures, hleaves.contents]
    omega
  · intro t i hi
    obtain ⟨⟨hsup, hnot⟩, hout⟩ := (hleaves.suppresses t i).1 hi
    obtain ⟨hinverse, howner⟩ := h.pairs t i hsup
    have htk : t ≠ k := fun htk => hnot ⟨htk, htk ▸ hinverse⟩
    rw [hleaves.owner, if_neg hout]
    exact ⟨(hleaves.suppressed t i).2 ⟨⟨hinverse, htk⟩, fun hn => hout hn.2.1⟩, howner⟩
  · intro t i hi
    obtain ⟨⟨hinverse, htk⟩, hkept⟩ := (hleaves.suppressed t i).1 hi
    obtain ⟨hres, hor⟩ := h.inverse t i hinverse
    rw [hleaves.contents, OrderedMap.get_delete_of_ne _ htk]
    refine ⟨hres, ?_⟩
    rcases hor with hsup | hpend | heq
    · by_cases hin : i ∈ entry.ids
      · -- Such a suppressor is not protected, or the pair was gone.
        cases hprot : isProtected t with
        | true => exact absurd ⟨hprot, hin, hsup⟩ hkept
        | false => exact Or.inr (Or.inr (hleaves.cascade t htk hprot i hin hsup))
      · exact Or.inl ((hleaves.suppresses t i).2 ⟨⟨hsup, fun hn => htk hn.1⟩, hin⟩)
    · exact Or.inr (Or.inl hpend)
    · exact absurd heq htk

theorem Booked.evictTile (h : Booked (fun _ => False) s) :
    Booked (fun _ => False) (s.evictTile k isProtected).1 := by
  rw [TileResidentSet.evictTile]
  cases hprot : isProtected k with
  | true =>
    rw [evictWithin_protected _ hprot]
    exact h
  | false =>
    have hpend : Booked (fun t => False ∨ t = k) s := h.mono fun _ _ _ hf => Or.inl hf
    exact evictWithin_keeps (fun h hp => h.mono hp) (fun h hk => h.dropTile hk) s.tiles.size
      (Nat.le_refl _) hprot hpend

/-! ### Marking and adding -/

theorem Booked.withTiles (h : Booked pending s) {tiles : OrderedMap String TileEntry}
    (heq : tiles.mapValues TileEntry.unmarked = s.contents) :
    Booked pending { s with tiles := tiles } where
  known := h.known
  stored i t := by
    rw [contents, heq]
    exact h.stored i t
  entry t e he := by
    rw [contents, heq] at he
    exact h.entry t e he
  totalVertices := by
    rw [contents, heq]
    exact h.totalVertices
  totalFeatures := by
    rw [contents, heq]
    exact h.totalFeatures
  pairs := h.pairs
  inverse t i hi := by
    rw [contents, heq]
    exact h.inverse t i hi

theorem Booked.markTilePartial (h : Booked pending s) : Booked pending (s.markTilePartial k) := by
  have heq : s.markTilePartial k = { s with tiles := (s.markTilePartial k).tiles } := by
    rw [TileResidentSet.markTilePartial]
    split
    · rfl
    · rfl
  rw [heq]
  exact h.withTiles (contents_markTilePartial s k)

theorem Booked.markTileComplete (h : Booked pending s) :
    Booked pending (s.markTileComplete k) := by
  have heq : s.markTileComplete k = { s with tiles := (s.markTileComplete k).tiles } := by
    rw [TileResidentSet.markTileComplete]
    split
    · rfl
    · rfl
  rw [heq]
  exact h.withTiles (contents_markTileComplete s k)

theorem markTileResidentEmpty_tiles (s : TileResidentSet) (k : String) (isPartial : Bool) :
    s.markTileResidentEmpty k isPartial =
      { s with tiles := (s.markTileResidentEmpty k isPartial).tiles } := by
  rw [markTileResidentEmpty]
  split
  · rfl
  · split_ifs
    · rfl
    · rfl

theorem Booked.markTileResidentEmpty (h : Booked pending s) (isPartial : Bool) :
    Booked pending (s.markTileResidentEmpty k isPartial) ∧
      (s.markTileResidentEmpty k isPartial).contents.get k ≠ none := by
  have hcontents := contents_markTileResidentEmpty s k isPartial
  rw [markTileResidentEmpty_tiles]
  change OrderedMap.mapValues _ _ = _ at hcontents
  generalize (s.markTileResidentEmpty k isPartial).tiles = tiles at hcontents ⊢
  by_cases hk : s.tiles.get k = none
  · have hnone : s.contents.get k = none := by
      rw [get_contents, hk]
      rfl
    have hdelete : ∀ f : TileEntry → Nat, (s.contents.delete k).total f = s.contents.total f := by
      intro f
      rw [OrderedMap.total, OrderedMap.delete_of_get_eq_none hnone]
      rfl
    rw [if_pos hk] at hcontents
    refine ⟨⟨h.known, ?_, ?_, ?_, ?_, h.pairs, ?_⟩, ?_⟩
    · intro i t
      rw [contents, hcontents, OrderedMap.get_set]
      refine (h.stored i t).trans ?_
      by_cases ht : t = k
      · rw [if_pos ht, ht, hnone]
        constructor
        · intro he
          obtain ⟨e, he, _⟩ := he
          cases he
        · intro he
          obtain ⟨e, he, hi⟩ := he
          cases he
          cases hi
      · rw [if_neg ht]
    · intro t e he
      rw [contents, hcontents, OrderedMap.get_set] at he
      split_ifs at he
      · cases he
        exact ⟨rfl, rfl, fun b hb => absurd hb List.not_mem_nil⟩
      · exact h.entry t e he
    · rw [contents, hcontents, OrderedMap.total_set, hdelete, Nat.zero_add]
      exact h.totalVertices
    · rw [contents, hcontents, OrderedMap.total_set, hdelete, Nat.zero_add]
      exact h.totalFeatures
    · intro t i hi
      obtain ⟨hres, hor⟩ := h.inverse t i hi
      rw [contents, hcontents, OrderedMap.get_set]
      refine ⟨?_, hor⟩
      split_ifs
      · exact Option.some_ne_none _
      · exact hres
    · rw [contents, hcontents, OrderedMap.get_set_self]
      exact Option.some_ne_none _
  · rw [if_neg hk] at hcontents
    refine ⟨h.withTiles hcontents, ?_⟩
    rw [contents, hcontents, get_contents]
    cases he : s.tiles.get k with
    | none => exact absurd he hk
    | some e => exact Option.some_ne_none _

/-- The pairs a scan finds: ids of the batch that other tiles own. -/
structure Pairs (k : String) (ids : List UInt64) (s s' : TileResidentSet) : Prop where
  suppresses : ∀ t i, s'.Suppresses t i ↔
    s.Suppresses t i ∨ t = k ∧ i ∈ ids ∧ i ∈ s.knownIds ∧ s.idOwner.get i ≠ some k
  suppressed : ∀ t i, s'.Suppressed t i ↔
    s.Suppressed t i ∨ t = k ∧ i ∈ ids ∧ i ∈ s.knownIds ∧ s.idOwner.get i ≠ some k
  totalVertices : s'.totalVertices = s.totalVertices
  totalFeatures : s'.totalFeatures = s.totalFeatures

theorem pairs_foldl (k : String) (rows : List (UInt64 × Nat)) (s : TileResidentSet) :
    Pairs k (rows.map Prod.fst) s (rows.foldl (Scan.row k) ⟨s, [], 0⟩).set := by
  induction rows using List.reverseRecOn with
  | nil =>
    have hnil : ∀ (t : String) (i : UInt64) (p : Prop),
        ¬(t = k ∧ i ∈ ([] : List (UInt64 × Nat)).map Prod.fst ∧ p) :=
      fun t i p h => List.not_mem_nil h.2.1
    exact ⟨fun t i => (or_iff_left (hnil t i _)).symm, fun t i => (or_iff_left (hnil t i _)).symm,
      rfl, rfl⟩
  | append_singleton rows row ih =>
    have hscan := scans_foldl k rows s
    rw [List.foldl_append, List.foldl_cons, List.foldl_nil, List.map_append, List.map_cons,
      List.map_nil]
    generalize rows.foldl (Scan.row k) ⟨s, [], 0⟩ = r at ih hscan ⊢
    rw [Scan.row, hscan.known, hscan.owner]
    have hmem : ∀ i, i ∈ rows.map Prod.fst ++ [row.1] ↔ i ∈ rows.map Prod.fst ∨ i = row.1 := by
      intro i
      rw [List.mem_append, List.mem_singleton]
    by_cases hnew : row.1 ∈ s.knownIds ∧ s.idOwner.get row.1 ≠ some k
    · have hsup := suppressed_suppress r.set k row.1
      rw [if_pos hnew.1, if_pos hnew.2]
      have hadd : ∀ t i, (t = k ∧ i ∈ rows.map Prod.fst ∧ i ∈ s.knownIds ∧
          s.idOwner.get i ≠ some k) ∨ t = k ∧ i = row.1 ↔
          t = k ∧ i ∈ rows.map Prod.fst ++ [row.1] ∧ i ∈ s.knownIds ∧
            s.idOwner.get i ≠ some k := by
        intro t i
        rw [hmem, ← and_or_left]
        refine and_congr_right fun _ => ⟨?_, ?_⟩
        · intro h
          rcases h with h | h
          · exact ⟨Or.inl h.1, h.2⟩
          · rw [h]
            exact ⟨Or.inr rfl, hnew⟩
        · intro h
          exact h.1.imp_left fun hi => ⟨hi, h.2⟩
      refine ⟨?_, ?_, ih.totalVertices, ih.totalFeatures⟩
      · intro t i
        rw [(hsup t i).1, ih.suppresses, or_assoc, hadd]
      · intro t i
        rw [(hsup t i).2, ih.suppressed, or_assoc, hadd]
    · have hset : (if row.1 ∈ s.knownIds then
          if s.idOwner.get row.1 ≠ some k then
            ⟨r.set.suppress k row.1, r.keepIdx, r.duplicatesDropped + 1⟩
          else ⟨r.set, r.keepIdx, r.duplicatesDropped + 1⟩
          else (⟨r.set, r.keepIdx ++ [row.2], r.duplicatesDropped⟩ : Scan)).set = r.set := by
        split_ifs with hknown howner
        · exact absurd ⟨hknown, howner⟩ hnew
        · rfl
        · rfl
      have hsame : ∀ i, i ∈ rows.map Prod.fst ∧ i ∈ s.knownIds ∧ s.idOwner.get i ≠ some k ↔
          i ∈ rows.map Prod.fst ++ [row.1] ∧ i ∈ s.knownIds ∧ s.idOwner.get i ≠ some k := by
        intro i
        rw [hmem]
        refine ⟨fun h => ⟨Or.inl h.1, h.2⟩, fun h => ⟨h.1.resolve_right ?_, h.2⟩⟩
        intro hi
        exact hnew (hi ▸ h.2)
      rw [hset]
      refine ⟨?_, ?_, ih.totalVertices, ih.totalFeatures⟩
      · intro t i
        rw [ih.suppresses, hsame]
      · intro t i
        rw [ih.suppressed, hsame]

/-- The scan and the mark of a batch: new pairs for a tile that is there. -/
theorem Booked.scanned (h : Booked pending s) (ids : List UInt64) (isPartial : Bool) :
    Booked pending ((s.scan k ids).set.markTileResidentEmpty k isPartial) := by
  obtain ⟨hmarked, hres⟩ := h.markTileResidentEmpty (k := k) isPartial
  have hscan : Scans k ids.zipIdx s (s.scan k ids) := scans_foldl k ids.zipIdx s
  have hpairs : Pairs k ids s (s.scan k ids).set := by
    have hfst : ids.zipIdx.map Prod.fst = ids := List.zipIdx_map_fst 0 ids
    have hfold := pairs_foldl k ids.zipIdx s
    rw [hfst] at hfold
    exact hfold
  have htiles : ((s.scan k ids).set.markTileResidentEmpty k isPartial).tiles =
      (s.markTileResidentEmpty k isPartial).tiles := by
    rw [TileResidentSet.markTileResidentEmpty, TileResidentSet.markTileResidentEmpty, hscan.tiles]
    split
    · rfl
    · split_ifs
      · rfl
      · exact hscan.tiles
  rw [markTileResidentEmpty_tiles] at hmarked hres ⊢
  rw [htiles]
  refine ⟨?_, ?_, hmarked.entry, hpairs.totalVertices.trans hmarked.totalVertices,
    hpairs.totalFeatures.trans hmarked.totalFeatures, ?_, ?_⟩
  · intro i
    show i ∈ (s.scan k ids).set.knownIds ↔ ∃ t, (s.scan k ids).set.idOwner.get i = some t
    rw [hscan.known, hscan.owner]
    exact h.known i
  · intro i t
    show (s.scan k ids).set.idOwner.get i = some t ↔ _
    rw [hscan.owner]
    exact hmarked.stored i t
  · intro t i hi
    show (s.scan k ids).set.Suppressed t i ∧ ∃ o, (s.scan k ids).set.idOwner.get i = some o ∧ o ≠ t
    rw [hpairs.suppressed, hscan.owner]
    rcases (hpairs.suppresses t i).1 hi with hold | hnew
    · obtain ⟨hinverse, howner⟩ := h.pairs t i hold
      exact ⟨Or.inl hinverse, howner⟩
    · obtain ⟨o, ho⟩ := (h.known i).1 hnew.2.2.1
      refine ⟨Or.inr hnew, o, ho, ?_⟩
      intro heq
      refine hnew.2.2.2 ?_
      rw [ho, heq, hnew.1]
  · intro t i hi
    show _ ∧ ((s.scan k ids).set.Suppresses t i ∨ pending t)
    rw [hpairs.suppresses]
    rcases (hpairs.suppressed t i).1 hi with hold | hnew
    · obtain ⟨hthere, hor⟩ := hmarked.inverse t i hold
      exact ⟨hthere, hor.imp_left Or.inl⟩
    · rw [hnew.1]
      exact ⟨hres, Or.inl (Or.inr ⟨rfl, hnew.2⟩)⟩

theorem store_eq {entry : TileEntry} (hk : s.tiles.get k = some entry) (batch : ResidentBatch) :
    s.store k batch = { s with
      tiles := s.tiles.set k (entry.append batch)
      knownIds := batch.ids.foldl addOnce s.knownIds
      idOwner := batch.ids.foldl (fun m id => m.set id k) s.idOwner
      totalVertices := s.totalVertices + batch.totalVertices
      totalFeatures := s.totalFeatures + batch.ids.length } := by
  rw [TileResidentSet.store, hk]
  rfl

theorem contents_store {entry : TileEntry} (hk : s.tiles.get k = some entry)
    (batch : ResidentBatch) :
    (s.store k batch).contents = s.contents.set k (entry.unmarked.append batch) := by
  rw [store_eq hk, contents]
  exact OrderedMap.mapValues_set ..

/-- The tile owns what it stores: what nobody owned, and what it owned. -/
theorem Booked.stored_store (h : Booked pending s) {entry : TileEntry}
    (hget : s.contents.get k = some entry) {batch : ResidentBatch}
    (hunowned : ∀ i ∈ batch.ids, ∀ t, s.idOwner.get i ≠ some t) (i : UInt64) (t : String) :
    (if i ∈ batch.ids then some k else s.idOwner.get i) = some t ↔
      ∃ e, (s.contents.set k (entry.append batch)).get t = some e ∧ i ∈ e.ids := by
  rw [OrderedMap.get_set]
  by_cases ht : t = k
  · rw [if_pos ht, ht]
    by_cases hi : i ∈ batch.ids
    · rw [if_pos hi]
      exact ⟨fun _ => ⟨_, rfl, TileEntry.mem_ids_append.2 (Or.inr hi)⟩, fun _ => rfl⟩
    · rw [if_neg hi, h.stored i k, hget]
      constructor
      · rintro ⟨e, he, hin⟩
        cases he
        exact ⟨_, rfl, TileEntry.mem_ids_append.2 (Or.inl hin)⟩
      · rintro ⟨e, he, hin⟩
        cases he
        exact ⟨_, rfl, (TileEntry.mem_ids_append.1 hin).resolve_right hi⟩
  · rw [if_neg ht, ← h.stored i t]
    by_cases hi : i ∈ batch.ids
    · rw [if_pos hi]
      constructor
      · intro ho
        exact absurd (Option.some.inj ho).symm ht
      · intro ho
        exact absurd ho (hunowned i hi t)
    · rw [if_neg hi]

theorem Booked.store (h : Booked pending s) {batch : ResidentBatch} (hbatch : batch.Agrees)
    (hfresh : ∀ i ∈ batch.ids, i ∉ s.knownIds) : Booked pending (s.store k batch) := by
  cases hk : s.tiles.get k with
  | none =>
    rw [TileResidentSet.store, hk]
    exact h
  | some entry =>
    have hget : s.contents.get k = some entry.unmarked := by
      rw [get_contents, hk]
      rfl
    -- What nobody knows nobody owns.
    have hunowned : ∀ i ∈ batch.ids, ∀ t, s.idOwner.get i ≠ some t := by
      intro i hi t ht
      exact hfresh i hi ((h.known i).2 ⟨t, ht⟩)
    have howner : ∀ i, (s.store k batch).idOwner.get i =
        if i ∈ batch.ids then some k else s.idOwner.get i := by
      intro i
      rw [store_eq hk]
      exact get_foldl_set ..
    refine ⟨fun i => ?_, fun i t => ?_, fun t e he => ?_, ?_, ?_, fun t i hi => ?_, fun t i hi => ?_⟩
    · rw [howner, store_eq hk]
      show i ∈ batch.ids.foldl addOnce s.knownIds ↔ _
      rw [mem_foldl_addOnce, h.known]
      by_cases hi : i ∈ batch.ids
      · rw [if_pos hi]
        exact ⟨fun _ => ⟨k, rfl⟩, fun _ => Or.inr hi⟩
      · rw [if_neg hi, or_iff_left hi]
    · rw [howner, contents_store hk]
      exact h.stored_store hget hunowned i t
    · rw [contents_store hk, OrderedMap.get_set] at he
      split_ifs at he
      · cases he
        exact (h.entry k _ hget).append hbatch
      · exact h.entry t e he
    · have hvertices := OrderedMap.total_delete TileEntry.vertices hget
      change _ + entry.vertices = _ at hvertices
      rw [contents_store hk, store_eq hk, OrderedMap.total_set]
      show s.totalVertices + batch.totalVertices =
        ((entry.vertices + batch.totalVertices + _ : Nat) : Int)
      rw [h.totalVertices, ← hvertices]
      omega
    · have hfeatures := OrderedMap.total_delete TileEntry.features hget
      change _ + entry.features = _ at hfeatures
      rw [contents_store hk, store_eq hk, OrderedMap.total_set]
      show s.totalFeatures + batch.ids.length =
        ((entry.features + batch.ids.length + _ : Nat) : Int)
      rw [h.totalFeatures, ← hfeatures]
      omega
    · rw [store_eq hk] at hi
      obtain ⟨hinverse, o, ho, hne⟩ := h.pairs t i hi
      refine ⟨?_, o, ?_, hne⟩
      · rw [store_eq hk]
        exact hinverse
      · rw [howner, if_neg fun hin => hunowned i hin o ho]
        exact ho
    · rw [store_eq hk] at hi
      obtain ⟨hres, hor⟩ := h.inverse t i hi
      constructor
      · rw [contents_store hk, OrderedMap.get_set]
        split_ifs
        · exact Option.some_ne_none _
        · exact hres
      · rw [store_eq hk]
        exact hor

theorem agrees_keptRows {batch trimmed : ResidentBatch} {keepIdx : List Nat}
    (h : keptRows batch keepIdx = .ok trimmed) :
    trimmed.Agrees ∧ trimmed.ids = keepIdx.map fun srcIdx => batch.ids.getD srcIdx 0 := by
  rw [keptRows] at h
  split at h
  · cases h
  · cases h
    refine ⟨⟨?_, rfl, rfl⟩, rfl⟩
    show (keepIdx.map _).length = (keepIdx.map _).length
    rw [List.length_map, List.length_map]

theorem Booked.addBatch (h : Booked pending s) {batch : ResidentBatch} (hbatch : batch.Agrees)
    (isPartial : Bool) : Booked pending (s.addBatch k batch isPartial).1 := by
  have hscan : Scans k batch.ids.zipIdx s (s.scan k batch.ids) := scans_foldl k batch.ids.zipIdx s
  have hscanned := h.scanned (k := k) batch.ids isPartial
  have hknown : ((s.scan k batch.ids).set.markTileResidentEmpty k isPartial).knownIds =
      s.knownIds := by
    rw [markTileResidentEmpty_tiles]
    exact hscan.known
  rw [TileResidentSet.addBatch]
  by_cases hnone : (s.scan k batch.ids).keepIdx = []
  · rw [if_pos hnone]
    exact hscanned
  · rw [if_neg hnone]
    by_cases hdup : (s.scan k batch.ids).duplicatesDropped = 0
    · rw [if_pos hdup]
      refine hscanned.store hbatch ?_
      intro i hi
      obtain ⟨j, hj⟩ := List.mem_iff_getElem?.1 hi
      rw [hknown]
      exact hscan.dropped hdup (i, j) (List.mem_zipIdx_iff_getElem?.2 hj)
    · rw [if_neg hdup]
      cases hkept : keptRows batch (s.scan k batch.ids).keepIdx with
      | error text => exact hscanned
      | ok trimmed =>
        obtain ⟨hagrees, hids⟩ := agrees_keptRows hkept
        refine hscanned.store hagrees ?_
        intro i hi
        rw [hids, hscan.keep] at hi
        rw [hknown]
        exact ((mem_kept_ids batch.ids s.knownIds i).1 hi).2

/-! ### Between calls -/

/-- The batches that the tiles store. -/
def storedBatches (s : TileResidentSet) : List ResidentBatch :=
  s.tiles.entries.flatMap fun e => e.2.batches

structure Consistent (s : TileResidentSet) : Prop where
  owned : ∀ i, i ∈ s.knownIds ↔ i ∈ s.idOwner.keys
  stored : ∀ i, i ∈ s.knownIds ↔ ∃ b ∈ s.storedBatches, i ∈ b.ids
  /-- Only the owner stores an id. -/
  owner : ∀ i t, s.idOwner.get i = some t ↔ ∃ e, s.tiles.get t = some e ∧ i ∈ e.ids
  sums : ∀ t e, s.tiles.get t = some e → e.Sums
  totalVertices : s.totalVertices = ((s.storedBatches.map ResidentBatch.totalVertices).sum : Nat)
  totalFeatures : s.totalFeatures = ((s.storedBatches.map fun b => b.ids.length).sum : Nat)
  inverse : ∀ t i, s.Suppresses t i ↔ s.Suppressed t i
  suppressors : ∀ t i, s.Suppresses t i →
    s.isTileResident t = true ∧ ∃ o, s.idOwner.get i = some o ∧ o ≠ t

theorem sum_storedBatches {f : ResidentBatch → Nat} {g : TileEntry → Nat}
    (h : ∀ t e, s.tiles.get t = some e → g e = (e.batches.map f).sum) :
    (s.storedBatches.map f).sum = s.tiles.total g := by
  rw [storedBatches, List.map_flatMap, List.flatMap, List.sum_flatten, List.map_map]
  refine congrArg List.sum (List.map_congr_left ?_)
  intro e he
  exact (h e.1 e.2 (OrderedMap.mem_entries.1 he)).symm

theorem total_contents {g : TileEntry → Nat} (h : ∀ e, g e.unmarked = g e) :
    s.contents.total g = s.tiles.total g := by
  show ((s.tiles.entries.map _).map _).sum = _
  rw [List.map_map]
  exact congrArg List.sum (List.map_congr_left fun e _ => h e.2)

theorem Booked.toConsistent (h : Booked (fun _ => False) s) : Consistent s := by
  -- A tile and its contents store the same.
  have hget : ∀ t e, s.tiles.get t = some e → s.contents.get t = some e.unmarked := by
    intro t e he
    rw [get_contents, he]
    rfl
  have howner : ∀ i t, s.idOwner.get i = some t ↔ ∃ e, s.tiles.get t = some e ∧ i ∈ e.ids := by
    intro i t
    rw [h.stored, get_contents]
    constructor
    · intro he
      obtain ⟨e', he', hi⟩ := he
      obtain ⟨e, he, heq⟩ := Option.map_eq_some_iff.1 he'
      rw [← heq] at hi
      exact ⟨e, he, hi⟩
    · intro he
      obtain ⟨e, he, hi⟩ := he
      exact ⟨e.unmarked, by rw [he]; rfl, hi⟩
  have hsums : ∀ t e, s.tiles.get t = some e → e.Sums := by
    intro t e he
    have hunmarked := h.entry t e.unmarked (hget t e he)
    exact ⟨hunmarked.vertices, hunmarked.features, hunmarked.agrees⟩
  refine ⟨?_, ?_, howner, hsums, ?_, ?_, ?_, ?_⟩
  · intro i
    rw [h.known, OrderedMap.mem_keys]
  · intro i
    rw [h.known]
    constructor
    · intro ho
      obtain ⟨t, ho⟩ := ho
      obtain ⟨e, he, hi⟩ := (howner i t).1 ho
      obtain ⟨b, hb, hi⟩ := List.mem_flatMap.1 hi
      exact ⟨b, List.mem_flatMap.2 ⟨(t, e), OrderedMap.mem_entries.2 he, hb⟩, hi⟩
    · intro hb
      obtain ⟨b, hb, hi⟩ := hb
      obtain ⟨e, he, hb⟩ := List.mem_flatMap.1 hb
      exact ⟨e.1, (howner i e.1).2
        ⟨e.2, OrderedMap.mem_entries.1 he, List.mem_flatMap.2 ⟨b, hb, hi⟩⟩⟩
  · rw [h.totalVertices, sum_storedBatches fun t e he => (hsums t e he).vertices,
      total_contents fun _ => rfl]
  · rw [h.totalFeatures, sum_storedBatches fun t e he => (hsums t e he).features,
      total_contents fun _ => rfl]
  · intro t i
    exact ⟨fun hi => (h.pairs t i hi).1, fun hi => (h.inverse t i hi).2.resolve_right id⟩
  · intro t i hi
    obtain ⟨hinverse, hown⟩ := h.pairs t i hi
    refine ⟨?_, hown⟩
    have hres := (h.inverse t i hinverse).1
    rw [isTileResident]
    cases he : s.tiles.get t with
    | none =>
      rw [get_contents, he] at hres
      exact absurd rfl hres
    | some e => rfl

/-- An eviction comes to an end and names what went, each tile once and none that is protected. -/
structure EvictsExactly (isProtected : String → Bool) (k : String) (s : TileResidentSet) :
    Prop where
  ends : ∀ n, s.tiles.size ≤ n → evictWithin isProtected n s k = s.evictTile k isProtected
  stays : ∀ t, isProtected t = true → s.isTileResident t = true →
    (s.evictTile k isProtected).1.isTileResident t = true
  nodup : (s.evictTile k isProtected).2.Nodup
  went : ∀ t, t ∈ (s.evictTile k isProtected).2 ↔
    s.isTileResident t = true ∧ (s.evictTile k isProtected).1.isTileResident t = false

theorem isTileResident_eq_true {t : String} :
    s.isTileResident t = true ↔ s.tiles.get t ≠ none := by
  rw [isTileResident, Option.isSome_iff_ne_none]

theorem isTileResident_eq_false {t : String} :
    s.isTileResident t = false ↔ s.tiles.get t = none := by
  rw [isTileResident, Option.isSome_eq_false_iff, Option.isNone_iff_eq_none]

theorem evictsExactly (isProtected : String → Bool) (k : String) (s : TileResidentSet) :
    EvictsExactly isProtected k s := by
  have hremoves : Removes isProtected s (s.evictTile k isProtected).1
      (s.evictTile k isProtected).2 := Removes.evictWithin s.tiles.size s k
  refine ⟨fun n hn => evictWithin_fuel hn (Nat.le_refl _), ?_, hremoves.nodup, ?_⟩
  · intro t ht hres
    exact isTileResident_eq_true.2 (hremoves.stays ht (isTileResident_eq_true.1 hres))
  · intro t
    rw [hremoves.mem, isTileResident_eq_true, isTileResident_eq_false]

inductive Update where
  | addBatch (tileKey : String) (batch : ResidentBatch) (isPartial : Bool)
  | evictTile (tileKey : String) (isProtected : String → Bool)
  | markTilePartial (tileKey : String)
  | markTileComplete (tileKey : String)
  | markTileResidentEmpty (tileKey : String) (isPartial : Bool)
  | clear

namespace Update

/-- The set after an update, however it ends. -/
def set (s : TileResidentSet) : Update → TileResidentSet
  | addBatch tileKey batch isPartial => (s.addBatch tileKey batch isPartial).1
  | evictTile tileKey isProtected => (s.evictTile tileKey isProtected).1
  | markTilePartial tileKey => s.markTilePartial tileKey
  | markTileComplete tileKey => s.markTileComplete tileKey
  | markTileResidentEmpty tileKey isPartial => s.markTileResidentEmpty tileKey isPartial
  | clear => .clear

def Agrees : Update → Prop
  | addBatch _ batch _ => batch.Agrees
  | _ => True

end Update

def updated (updates : List Update) : TileResidentSet := updates.foldl Update.set new

theorem Booked.set (h : Booked (fun _ => False) s) {u : Update} (hu : u.Agrees) :
    Booked (fun _ => False) (u.set s) := by
  cases u with
  | addBatch tileKey batch isPartial => exact h.addBatch hu isPartial
  | evictTile tileKey isProtected => exact h.evictTile
  | markTilePartial tileKey => exact h.markTilePartial
  | markTileComplete tileKey => exact h.markTileComplete
  | markTileResidentEmpty tileKey isPartial => exact (h.markTileResidentEmpty isPartial).1
  | clear => exact booked_new

theorem booked_updated {updates : List Update} (h : ∀ u ∈ updates, u.Agrees) :
    Booked (fun _ => False) (updated updates) := by
  induction updates using List.reverseRecOn with
  | nil => exact booked_new
  | append_singleton updates u ih =>
    rw [updated, List.foldl_append, List.foldl_cons, List.foldl_nil]
    exact (ih fun v hv => h v (List.mem_append_left _ hv)).set
      (h u (List.mem_append_right _ List.mem_cons_self))

/-- After any updates the bookkeeping is consistent, and an eviction removes exactly what it
names. -/
theorem updated_consistent {updates : List Update} (h : ∀ u ∈ updates, u.Agrees) :
    Consistent (updated updates) ∧
      ∀ tileKey isProtected, EvictsExactly isProtected tileKey (updated updates) :=
  ⟨(booked_updated h).toConsistent, fun tileKey isProtected => evictsExactly isProtected tileKey _⟩

/-- Two features of one point each. -/
def twoPoints : ResidentBatch :=
  { streamHandle := "s", batchSeq := 0, ids := [1, 2], parts := [[[[(⟨0⟩, ⟨0⟩)]]], [[[(⟨0⟩, ⟨0⟩)]]]],
    partToRow := [0, 1], partCount := 2, totalVertices := 2, attributes := .unprojected,
    filter := none }

/-- Two tiles deliver the same features; the second is protected as the first goes. -/
def sharedUpdates : List Update :=
  [.addBatch "0:0" twoPoints false, .addBatch "0:1" twoPoints false,
    .evictTile "0:0" fun t => t = "0:1"]

theorem updated_consistent_shared : Consistent (updated sharedUpdates) ∧
    ∀ tileKey isProtected, EvictsExactly isProtected tileKey (updated sharedUpdates) := by
  refine updated_consistent ?_
  intro u hu
  have hagrees : twoPoints.Agrees := ⟨rfl, rfl, rfl⟩
  rw [sharedUpdates, List.mem_cons, List.mem_cons, List.mem_singleton] at hu
  rcases hu with hu | hu | hu
  · exact hu ▸ hagrees
  · exact hu ▸ hagrees
  · exact hu ▸ trivial

/-- The protected tile is marked, and what it delivered is not known. -/
example : (updated sharedUpdates).isTilePartial "0:1" = true ∧
    (updated sharedUpdates).knownIds = [] := by decide

end TileResidentSet

end SpatialIde.Shell.Canvas
