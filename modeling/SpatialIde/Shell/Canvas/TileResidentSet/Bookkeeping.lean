import SpatialIde.Shell.Canvas.TileResidentSet

/-! # What each operation on the resident tiles does

One lemma for each operation, in terms of which ids are known, who owns and who suppresses them,
and which tiles are there.
-/

namespace SpatialIde.Shell.Canvas

open Lib

/-- The ids a tile stores. -/
def TileEntry.ids (entry : TileEntry) : List UInt64 := entry.batches.flatMap ResidentBatch.ids

namespace TileResidentSet

/-- A tile delivered an id that another one owns. -/
def Suppresses (s : TileResidentSet) (t : String) (id : UInt64) : Prop :=
  t ∈ (s.suppressorsOf.get id).getD []

/-! ### Marks -/

/-- The same tiles with the same batches, some of them marked partial since. -/
structure Marks (m m' : OrderedMap String TileEntry) : Prop where
  keys : m'.keys = m.keys
  gone : ∀ t, m'.get t = none ↔ m.get t = none
  entry : ∀ t e', m'.get t = some e' →
    ∃ e, m.get t = some e ∧ e'.batches = e.batches ∧ e'.vertices = e.vertices ∧
      (e.isPartial = true → e'.isPartial = true)

namespace Marks

theorem refl (m : OrderedMap String TileEntry) : Marks m m :=
  ⟨rfl, fun _ => Iff.rfl, fun _ e' h => ⟨e', h, rfl, rfl, id⟩⟩

theorem trans {m m' m'' : OrderedMap String TileEntry} (h : Marks m m') (h' : Marks m' m'') :
    Marks m m'' := by
  refine ⟨h'.keys.trans h.keys, fun t => (h'.gone t).trans (h.gone t), ?_⟩
  intro t e'' he''
  obtain ⟨e', he', hbatches', hvertices', hpart'⟩ := h'.entry t e'' he''
  obtain ⟨e, he, hbatches, hvertices, hpart⟩ := h.entry t e' he'
  exact ⟨e, he, hbatches'.trans hbatches, hvertices'.trans hvertices, fun hp => hpart' (hpart hp)⟩

theorem size {m m' : OrderedMap String TileEntry} (h : Marks m m') : m'.size = m.size := by
  have hlen := congrArg List.length h.keys
  rw [OrderedMap.keys, OrderedMap.keys, List.length_map, List.length_map] at hlen
  exact hlen

end Marks

theorem marks_markTilePartial (s : TileResidentSet) (k : String) :
    Marks s.tiles (s.markTilePartial k).tiles := by
  rw [markTilePartial]
  cases hk : s.tiles.get k with
  | none => exact Marks.refl s.tiles
  | some entry =>
    refine ⟨OrderedMap.keys_set_of_mem hk, ?_, ?_⟩
    · intro t
      show (s.tiles.set k _).get t = none ↔ _
      rw [OrderedMap.get_set]
      by_cases ht : t = k
      · rw [if_pos ht, ht, hk]
        exact ⟨nofun, nofun⟩
      · rw [if_neg ht]
    · intro t e' he'
      change (s.tiles.set k _).get t = some e' at he'
      rw [OrderedMap.get_set] at he'
      by_cases ht : t = k
      · rw [if_pos ht] at he'
        cases he'
        exact ⟨entry, ht ▸ hk, rfl, rfl, fun _ => rfl⟩
      · rw [if_neg ht] at he'
        exact ⟨e', he', rfl, rfl, id⟩

/-- A mark leaves no complete tile at its key. -/
theorem isPartial_markTilePartial {s : TileResidentSet} {k : String} {e : TileEntry}
    (h : (s.markTilePartial k).tiles.get k = some e) : e.isPartial = true := by
  rw [markTilePartial] at h
  cases hk : s.tiles.get k with
  | none =>
    rw [hk] at h
    dsimp only at h
    rw [hk] at h
    cases h
  | some entry =>
    rw [hk] at h
    change (s.tiles.set k _).get k = some e at h
    rw [OrderedMap.get_set_self] at h
    cases h
    rfl

theorem frame_markTilePartial (s : TileResidentSet) (k : String) :
    (s.markTilePartial k).knownIds = s.knownIds ∧ (s.markTilePartial k).idOwner = s.idOwner ∧
      (s.markTilePartial k).suppressorsOf = s.suppressorsOf ∧
      (s.markTilePartial k).totalVertices = s.totalVertices := by
  rw [markTilePartial]
  split
  · exact ⟨rfl, rfl, rfl, rfl⟩
  · exact ⟨rfl, rfl, rfl, rfl⟩

/-! ### Ids whose owner goes -/

theorem divert_eq (s : TileResidentSet) (t : String) (id : UInt64) :
    ∃ s₀ : TileResidentSet, s.divert t id = s₀.markTilePartial t ∧ s₀.tiles = s.tiles ∧
      s₀.knownIds = s.knownIds ∧ s₀.idOwner = s.idOwner ∧ s₀.suppressorsOf = s.suppressorsOf ∧
      s₀.totalVertices = s.totalVertices := by
  refine ⟨_, rfl, ?_⟩
  split
  · exact ⟨rfl, rfl, rfl, rfl, rfl⟩
  · dsimp only
    split_ifs
    · exact ⟨rfl, rfl, rfl, rfl, rfl⟩
    · exact ⟨rfl, rfl, rfl, rfl, rfl⟩

/-- What the suppressors of one id come to: each is evicted after, or marked. -/
structure Handles (isProtected : String → Bool) (ts : List String) (acc acc' : Cascade) : Prop where
  known : acc'.1.knownIds = acc.1.knownIds
  owner : acc'.1.idOwner = acc.1.idOwner
  suppressors : acc'.1.suppressorsOf = acc.1.suppressorsOf
  total : acc'.1.totalVertices = acc.1.totalVertices
  marks : Marks acc.1.tiles acc'.1.tiles
  later : acc.2 ⊆ acc'.2
  freed : ∀ t ∈ acc'.2, t ∈ acc.2 ∨ isProtected t = false ∧ t ∈ ts
  caught : ∀ t ∈ ts, t ∈ acc'.2 ∨ ∀ e, acc'.1.tiles.get t = some e → e.isPartial = true

theorem handles_foldl (isProtected : String → Bool) (id : UInt64) (ts : List String)
    (acc : Cascade) :
    Handles isProtected ts acc (ts.foldl (releaseSuppressor isProtected id) acc) := by
  induction ts using List.reverseRecOn with
  | nil =>
    exact ⟨rfl, rfl, rfl, rfl, Marks.refl _, List.Subset.refl _, fun t ht => Or.inl ht, nofun⟩
  | append_singleton ts t ih =>
    rw [List.foldl_append, List.foldl_cons, List.foldl_nil]
    generalize ts.foldl (releaseSuppressor isProtected id) acc = acc' at ih ⊢
    rw [releaseSuppressor]
    cases hprot : isProtected t with
    | true =>
      rw [if_pos rfl]
      obtain ⟨s₀, heq, htiles, hknown, howner, hsup, htotal⟩ := divert_eq acc'.1 t id
      obtain ⟨hknown', howner', hsup', htotal'⟩ := frame_markTilePartial s₀ t
      have hmarks : Marks acc'.1.tiles (s₀.markTilePartial t).tiles :=
        htiles ▸ marks_markTilePartial s₀ t
      rw [heq]
      refine ⟨hknown'.trans (hknown.trans ih.known), howner'.trans (howner.trans ih.owner),
        hsup'.trans (hsup.trans ih.suppressors), htotal'.trans (htotal.trans ih.total),
        ih.marks.trans hmarks, ih.later, ?_, ?_⟩
      · intro u hu
        refine (ih.freed u hu).imp_right ?_
        intro hfreed
        exact ⟨hfreed.1, List.mem_append_left _ hfreed.2⟩
      · intro u hu
        rcases List.mem_append.1 hu with hu | hu
        · refine (ih.caught u hu).imp_right ?_
          intro hpart e he
          obtain ⟨e', he', _, _, hstay⟩ := hmarks.entry u e he
          exact hstay (hpart e' he')
        · rw [List.mem_singleton.1 hu]
          exact Or.inr fun e he => isPartial_markTilePartial he
    | false =>
      rw [if_neg Bool.false_ne_true]
      refine ⟨ih.known, ih.owner, ih.suppressors, ih.total, ih.marks, ?_, ?_, ?_⟩
      · intro u hu
        exact mem_addOnce.2 (Or.inl (ih.later hu))
      · intro u hu
        rcases mem_addOnce.1 hu with hu | hu
        · refine (ih.freed u hu).imp_right ?_
          intro hfreed
          exact ⟨hfreed.1, List.mem_append_left _ hfreed.2⟩
        · exact Or.inr ⟨hu ▸ hprot, hu ▸ List.mem_append_right _ List.mem_cons_self⟩
      · intro u hu
        rcases List.mem_append.1 hu with hu | hu
        · exact (ih.caught u hu).imp_left fun hmem => mem_addOnce.2 (Or.inl hmem)
        · exact Or.inl (mem_addOnce.2 (Or.inr (List.mem_singleton.1 hu)))

/-- Releasing one id handles its suppressors. -/
theorem release_eq (isProtected : String → Bool) (acc : Cascade) (id : UInt64) :
    ∃ acc' : Cascade, Handles isProtected ((acc.1.suppressorsOf.get id).getD [])
        ({ acc.1 with
            knownIds := acc.1.knownIds.filter fun i => i ≠ id
            idOwner := acc.1.idOwner.delete id }, acc.2) acc' ∧
      (release isProtected acc id).1.knownIds = acc'.1.knownIds ∧
      (release isProtected acc id).1.idOwner = acc'.1.idOwner ∧
      (release isProtected acc id).1.tiles = acc'.1.tiles ∧
      (∀ i, (release isProtected acc id).1.suppressorsOf.get i =
        if i = id then none else acc.1.suppressorsOf.get i) ∧
      (release isProtected acc id).2 = acc'.2 ∧
      (release isProtected acc id).1.totalVertices = acc'.1.totalVertices := by
  refine ⟨_, handles_foldl isProtected id _ _, ?_⟩
  have hhandles := handles_foldl isProtected id ((acc.1.suppressorsOf.get id).getD [])
    ({ acc.1 with
        knownIds := acc.1.knownIds.filter fun i => i ≠ id
        idOwner := acc.1.idOwner.delete id }, acc.2)
  rw [release]
  cases hsup : acc.1.suppressorsOf.get id with
  | none =>
    refine ⟨rfl, rfl, rfl, ?_, rfl, rfl⟩
    intro i
    by_cases hi : i = id
    · rw [if_pos hi, hi]
      exact hsup
    · rw [if_neg hi]
  | some ts =>
    rw [hsup] at hhandles
    refine ⟨rfl, rfl, rfl, ?_, rfl, rfl⟩
    intro i
    refine (OrderedMap.get_delete _ id i).trans ?_
    by_cases hi : i = id
    · rw [if_pos hi, if_pos hi]
    · rw [if_neg hi, if_neg hi]
      exact congrArg (fun m => OrderedMap.get m i) hhandles.suppressors

/-- What releasing some ids comes to. -/
structure Releases (isProtected : String → Bool) (ids : List UInt64) (s : TileResidentSet)
    (acc : Cascade) : Prop where
  known : ∀ i, i ∈ acc.1.knownIds ↔ i ∈ s.knownIds ∧ i ∉ ids
  owner : ∀ i, acc.1.idOwner.get i = if i ∈ ids then none else s.idOwner.get i
  suppressors : ∀ i, acc.1.suppressorsOf.get i = if i ∈ ids then none else s.suppressorsOf.get i
  total : acc.1.totalVertices = s.totalVertices
  marks : Marks s.tiles acc.1.tiles
  freed : ∀ t ∈ acc.2, isProtected t = false ∧ ∃ i ∈ ids, s.Suppresses t i
  caught : ∀ i ∈ ids, ∀ t, s.Suppresses t i →
    t ∈ acc.2 ∨ ∀ e, acc.1.tiles.get t = some e → e.isPartial = true

theorem releases_foldl (isProtected : String → Bool) (s : TileResidentSet) (ids : List UInt64) :
    Releases isProtected ids s (ids.foldl (release isProtected) (s, [])) := by
  induction ids using List.reverseRecOn with
  | nil =>
    refine ⟨?_, ?_, ?_, rfl, Marks.refl _, nofun, nofun⟩
    · intro i
      exact ⟨fun h => ⟨h, List.not_mem_nil⟩, fun h => h.1⟩
    · intro i
      rw [if_neg List.not_mem_nil]
      rfl
    · intro i
      rw [if_neg List.not_mem_nil]
      rfl
  | append_singleton ids id ih =>
    rw [List.foldl_append, List.foldl_cons, List.foldl_nil]
    generalize ids.foldl (release isProtected) (s, []) = acc at ih ⊢
    obtain ⟨acc', h, hknown, howner, htiles, hsup, hafter, htotal⟩ := release_eq isProtected acc id
    have hmem : ∀ i, i ∈ ids ++ [id] ↔ i ∈ ids ∨ i = id := by
      intro i
      rw [List.mem_append, List.mem_singleton]
    have hmarks : Marks acc.1.tiles (release isProtected acc id).1.tiles := by
      rw [htiles]
      exact h.marks
    -- Who suppresses the id did so before.
    have hbefore : ∀ t, t ∈ (acc.1.suppressorsOf.get id).getD [] → s.Suppresses t id := by
      intro t ht
      rw [ih.suppressors] at ht
      by_cases hid : id ∈ ids
      · rw [if_pos hid] at ht
        cases ht
      · rw [if_neg hid] at ht
        exact ht
    refine ⟨?_, ?_, ?_, htotal.trans (h.total.trans ih.total), ih.marks.trans hmarks, ?_, ?_⟩
    · intro i
      rw [hknown, h.known, List.mem_filter, ih.known, hmem, decide_eq_true_eq, not_or, and_assoc]
    · intro i
      rw [howner, h.owner]
      refine (OrderedMap.get_delete _ id i).trans ?_
      rw [ih.owner]
      by_cases hi : i = id
      · rw [if_pos hi, if_pos ((hmem i).2 (Or.inr hi))]
      · rw [if_neg hi]
        by_cases hids : i ∈ ids
        · rw [if_pos hids, if_pos ((hmem i).2 (Or.inl hids))]
        · rw [if_neg hids, if_neg (fun hin => ((hmem i).1 hin).elim hids hi)]
    · intro i
      rw [hsup, ih.suppressors]
      by_cases hi : i = id
      · rw [if_pos hi, if_pos ((hmem i).2 (Or.inr hi))]
      · rw [if_neg hi]
        by_cases hids : i ∈ ids
        · rw [if_pos hids, if_pos ((hmem i).2 (Or.inl hids))]
        · rw [if_neg hids, if_neg (fun hin => ((hmem i).1 hin).elim hids hi)]
    · intro t ht
      rw [hafter] at ht
      rcases h.freed t ht with hold | hnew
      · obtain ⟨hprot, i, hi, hsupp⟩ := ih.freed t hold
        exact ⟨hprot, i, (hmem i).2 (Or.inl hi), hsupp⟩
      · exact ⟨hnew.1, id, (hmem id).2 (Or.inr rfl), hbefore t hnew.2⟩
    · intro i hi t hsupp
      rw [hafter]
      have hstay : (t ∈ acc.2 ∨ ∀ e, acc.1.tiles.get t = some e → e.isPartial = true) →
          t ∈ acc'.2 ∨ ∀ e, (release isProtected acc id).1.tiles.get t = some e →
            e.isPartial = true := by
        intro hold
        refine hold.imp (fun hmem => h.later hmem) ?_
        intro hpart e he
        obtain ⟨e', he', _, _, hkeep⟩ := hmarks.entry t e he
        exact hkeep (hpart e' he')
      by_cases hids : i ∈ ids
      · exact hstay (ih.caught i hids t hsupp)
      · have hid : i = id := ((hmem i).1 hi).resolve_left hids
        have ht : t ∈ (acc.1.suppressorsOf.get id).getD [] := by
          rw [ih.suppressors, if_neg (hid ▸ hids)]
          exact hid ▸ hsupp
        rw [htiles]
        exact h.caught t ht

theorem Releases.suppresses {isProtected : String → Bool} {ids : List UInt64} {s : TileResidentSet}
    {acc : Cascade} (h : Releases isProtected ids s acc) (t : String) (i : UInt64) :
    acc.1.Suppresses t i ↔ s.Suppresses t i ∧ i ∉ ids := by
  rw [Suppresses, h.suppressors, Suppresses]
  by_cases hi : i ∈ ids
  · rw [if_pos hi]
    exact ⟨nofun, fun hn => absurd hi hn.2⟩
  · rw [if_neg hi]
    exact ⟨fun hs => ⟨hs, hi⟩, fun hs => hs.1⟩

/-! ### The suppressions of a tile that goes -/

theorem suppresses_unsuppress (s : TileResidentSet) (k : String) (id : UInt64) (t : String)
    (i : UInt64) :
    (s.unsuppress k id).Suppresses t i ↔ s.Suppresses t i ∧ ¬(t = k ∧ i = id) := by
  rw [unsuppress]
  cases hsup : s.suppressorsOf.get id with
  | none =>
    constructor
    · intro h
      refine ⟨h, ?_⟩
      intro hti
      rw [Suppresses, hti.2, hsup] at h
      cases h
    · exact fun h => h.1
  | some ts =>
    have hts : ∀ u, u ∈ ts.filter (fun u => u ≠ k) ↔ u ∈ ts ∧ u ≠ k := by
      intro u
      rw [List.mem_filter, decide_eq_true_eq]
    have hold : ∀ u, s.Suppresses u id ↔ u ∈ ts := by
      intro u
      rw [Suppresses, hsup]
      rfl
    dsimp only
    split_ifs with hnil
    · rw [Suppresses]
      show t ∈ ((s.suppressorsOf.delete id).get i).getD [] ↔ _
      rw [OrderedMap.get_delete]
      by_cases hi : i = id
      · rw [if_pos hi, hi, hold]
        constructor
        · nofun
        · intro h
          have hmem := (hts t).2 ⟨h.1, fun ht => h.2 ⟨ht, rfl⟩⟩
          rw [hnil] at hmem
          cases hmem
      · rw [if_neg hi]
        exact ⟨fun h => ⟨h, fun hti => hi hti.2⟩, fun h => h.1⟩
    · rw [Suppresses]
      show t ∈ ((s.suppressorsOf.set id _).get i).getD [] ↔ _
      rw [OrderedMap.get_set]
      by_cases hi : i = id
      · rw [if_pos hi, hi, hold]
        show t ∈ ts.filter _ ↔ _
        rw [hts]
        exact ⟨fun h => ⟨h.1, fun hti => h.2 hti.1⟩, fun h => ⟨h.1, fun ht => h.2 ⟨ht, rfl⟩⟩⟩
      · rw [if_neg hi]
        exact ⟨fun h => ⟨h, fun hti => hi hti.2⟩, fun h => h.1⟩

theorem frame_unsuppress (s : TileResidentSet) (k : String) (id : UInt64) :
    (s.unsuppress k id).knownIds = s.knownIds ∧ (s.unsuppress k id).idOwner = s.idOwner ∧
      (s.unsuppress k id).tiles = s.tiles ∧
      (s.unsuppress k id).totalVertices = s.totalVertices := by
  rw [unsuppress]
  split
  · exact ⟨rfl, rfl, rfl, rfl⟩
  · dsimp only
    split_ifs
    · exact ⟨rfl, rfl, rfl, rfl⟩
    · exact ⟨rfl, rfl, rfl, rfl⟩

theorem foldl_unsuppress (k : String) (ids : List UInt64) (s : TileResidentSet) :
    (ids.foldl (fun s id => s.unsuppress k id) s).knownIds = s.knownIds ∧
      (ids.foldl (fun s id => s.unsuppress k id) s).idOwner = s.idOwner ∧
      (ids.foldl (fun s id => s.unsuppress k id) s).tiles = s.tiles ∧
      (ids.foldl (fun s id => s.unsuppress k id) s).totalVertices = s.totalVertices ∧
      ∀ t i, (ids.foldl (fun s id => s.unsuppress k id) s).Suppresses t i ↔
        s.Suppresses t i ∧ ¬(t = k ∧ i ∈ ids) := by
  induction ids generalizing s with
  | nil =>
    refine ⟨rfl, rfl, rfl, rfl, ?_⟩
    intro t i
    exact ⟨fun h => ⟨h, fun hti => List.not_mem_nil hti.2⟩, fun h => h.1⟩
  | cons id ids ih =>
    obtain ⟨hknown, howner, htiles, htotal, hsup⟩ := ih (s.unsuppress k id)
    obtain ⟨hknown', howner', htiles', htotal'⟩ := frame_unsuppress s k id
    refine ⟨hknown.trans hknown', howner.trans howner', htiles.trans htiles',
      htotal.trans htotal', ?_⟩
    intro t i
    rw [List.foldl_cons, hsup, suppresses_unsuppress, List.mem_cons, and_assoc]
    refine and_congr_right fun _ => ?_
    rw [← not_or, ← and_or_left]

/-- A tile that goes is no suppressor of what it was known to suppress; no other tile changes. -/
theorem forgetSuppressed_eq (s : TileResidentSet) (k : String) :
    (s.forgetSuppressed k).knownIds = s.knownIds ∧ (s.forgetSuppressed k).idOwner = s.idOwner ∧
      (s.forgetSuppressed k).tiles = s.tiles ∧
      (s.forgetSuppressed k).totalVertices = s.totalVertices ∧
      (∀ t i, (s.forgetSuppressed k).Suppresses t i → s.Suppresses t i) ∧
      ∀ t i, t ≠ k → s.Suppresses t i → (s.forgetSuppressed k).Suppresses t i := by
  rw [forgetSuppressed]
  split
  · exact ⟨rfl, rfl, rfl, rfl, fun _ _ h => h, fun _ _ _ h => h⟩
  · rename_i ids _
    obtain ⟨hknown, howner, htiles, htotal, hsup⟩ := foldl_unsuppress k ids s
    exact ⟨hknown, howner, htiles, htotal, fun t i h => ((hsup t i).1 h).1,
      fun t i ht h => (hsup t i).2 ⟨h, fun hti => ht hti.1⟩⟩

/-- What a tile leaves behind that goes. -/
structure Drops (isProtected : String → Bool) (k : String) (entry : TileEntry)
    (s : TileResidentSet) (r : Cascade) : Prop where
  known : ∀ i, i ∈ r.1.knownIds ↔ i ∈ s.knownIds ∧ i ∉ entry.ids
  owner : ∀ i, i ∉ entry.ids → r.1.idOwner.get i = s.idOwner.get i
  fewer : ∀ t i, r.1.Suppresses t i → s.Suppresses t i
  stays : ∀ t i, t ≠ k → i ∉ entry.ids → s.Suppresses t i → r.1.Suppresses t i
  total : r.1.totalVertices = s.totalVertices - entry.vertices
  marks : Marks (s.tiles.delete k) r.1.tiles
  freed : ∀ t ∈ r.2, isProtected t = false ∧ ∃ i ∈ entry.ids, s.Suppresses t i
  caught : ∀ i ∈ entry.ids, ∀ t, t ≠ k → s.Suppresses t i →
    t ∈ r.2 ∨ ∀ e, r.1.tiles.get t = some e → e.isPartial = true

theorem drops_dropTile (s : TileResidentSet) (isProtected : String → Bool) (k : String)
    (entry : TileEntry) : Drops isProtected k entry s (s.dropTile isProtected k entry) := by
  rw [dropTile]
  obtain ⟨hknown, howner, htiles, htotal, hfewer, hstays⟩ := forgetSuppressed_eq
    { s with
      tiles := s.tiles.delete k
      totalVertices := s.totalVertices - entry.vertices
      totalFeatures := s.totalFeatures - entry.features } k
  generalize { s with
    tiles := s.tiles.delete k
    totalVertices := s.totalVertices - entry.vertices
    totalFeatures := s.totalFeatures - entry.features : TileResidentSet }.forgetSuppressed k = s₁
    at hknown howner htiles htotal hfewer hstays ⊢
  have h := releases_foldl isProtected s₁ entry.ids
  change Releases isProtected entry.ids s₁
    ((entry.batches.flatMap ResidentBatch.ids).foldl (release isProtected) (s₁, [])) at h
  generalize (entry.batches.flatMap ResidentBatch.ids).foldl (release isProtected) (s₁, []) = r
    at h ⊢
  have hsup := h.suppresses
  have hmarks := h.marks
  rw [htiles] at hmarks
  refine ⟨?_, ?_, ?_, ?_, h.total.trans htotal, hmarks, ?_, ?_⟩
  · intro i
    rw [h.known, hknown]
  · intro i hi
    rw [h.owner, if_neg hi, howner]
  · intro t i hs
    exact hfewer t i ((hsup t i).1 hs).1
  · intro t i ht hi hs
    exact (hsup t i).2 ⟨hstays t i ht hs, hi⟩
  · intro t ht
    obtain ⟨hprot, i, hi, hs⟩ := h.freed t ht
    exact ⟨hprot, i, hi, hfewer t i hs⟩
  · intro i hi t ht hs
    exact h.caught i hi t (hstays t i ht hs)

/-! ### A batch that comes -/

/-- What the scan of some rows finds. -/
structure Scans (k : String) (rows : List (UInt64 × Nat)) (s : TileResidentSet) (r : Scan) :
    Prop where
  tiles : r.set.tiles = s.tiles
  known : r.set.knownIds = s.knownIds
  owner : r.set.idOwner = s.idOwner
  stays : ∀ t i, s.Suppresses t i → r.set.Suppresses t i
  suppressed : ∀ row ∈ rows, row.1 ∈ s.knownIds → s.idOwner.get row.1 ≠ some k →
    r.set.Suppresses k row.1
  keep : r.keepIdx = (rows.filter fun row => row.1 ∉ s.knownIds).map Prod.snd
  dropped : r.duplicatesDropped = 0 → ∀ row ∈ rows, row.1 ∉ s.knownIds

theorem suppresses_suppress (s : TileResidentSet) (k : String) (id : UInt64) :
    (s.suppress k id).Suppresses k id ∧
      ∀ t i, s.Suppresses t i → (s.suppress k id).Suppresses t i := by
  constructor
  · show k ∈ ((s.suppressorsOf.set id _).get id).getD []
    rw [OrderedMap.get_set_self]
    exact mem_addOnce.2 (Or.inr rfl)
  · intro t i h
    show t ∈ ((s.suppressorsOf.set id _).get i).getD []
    rw [OrderedMap.get_set]
    by_cases hi : i = id
    · rw [if_pos hi]
      exact mem_addOnce.2 (Or.inl (hi ▸ h))
    · rw [if_neg hi]
      exact h

theorem scans_foldl (k : String) (rows : List (UInt64 × Nat)) (s : TileResidentSet) :
    Scans k rows s (rows.foldl (Scan.row k) ⟨s, [], 0⟩) := by
  induction rows using List.reverseRecOn with
  | nil => exact ⟨rfl, rfl, rfl, fun _ _ h => h, nofun, rfl, fun _ => nofun⟩
  | append_singleton rows row ih =>
    rw [List.foldl_append, List.foldl_cons, List.foldl_nil]
    generalize rows.foldl (Scan.row k) ⟨s, [], 0⟩ = r at ih ⊢
    rw [Scan.row, ih.known, ih.owner]
    by_cases hknown : row.1 ∈ s.knownIds
    · have hfilter : ((rows ++ [row]).filter fun row => row.1 ∉ s.knownIds).map Prod.snd =
          (rows.filter fun row => row.1 ∉ s.knownIds).map Prod.snd := by
        rw [List.filter_append, List.filter_cons_of_neg (by simpa using hknown), List.filter_nil,
          List.append_nil]
      rw [if_pos hknown]
      split_ifs with howner
      · obtain ⟨hself, hstay⟩ := suppresses_suppress r.set k row.1
        refine ⟨ih.tiles, ih.known, ih.owner, fun t i h => hstay t i (ih.stays t i h), ?_,
          ih.keep.trans hfilter.symm, nofun⟩
        intro row' hrow' hknown' howner'
        rcases List.mem_append.1 hrow' with hrow' | hrow'
        · exact hstay k row'.1 (ih.suppressed row' hrow' hknown' howner')
        · rw [List.mem_singleton.1 hrow']
          exact hself
      · refine ⟨ih.tiles, ih.known, ih.owner, ih.stays, ?_, ih.keep.trans hfilter.symm, nofun⟩
        intro row' hrow' hknown' howner'
        rcases List.mem_append.1 hrow' with hrow' | hrow'
        · exact ih.suppressed row' hrow' hknown' howner'
        · rw [List.mem_singleton.1 hrow'] at howner'
          exact absurd howner' howner
    · rw [if_neg hknown]
      refine ⟨ih.tiles, ih.known, ih.owner, ih.stays, ?_, ?_, ?_⟩
      · intro row' hrow' hknown' howner'
        rcases List.mem_append.1 hrow' with hrow' | hrow'
        · exact ih.suppressed row' hrow' hknown' howner'
        · rw [List.mem_singleton.1 hrow'] at hknown'
          exact absurd hknown' hknown
      · rw [List.filter_append, List.filter_cons_of_pos (by simpa using hknown), List.filter_nil,
          List.map_append, ← ih.keep]
        rfl
      · intro hdropped row' hrow'
        rcases List.mem_append.1 hrow' with hrow' | hrow'
        · exact ih.dropped hdropped row' hrow'
        · rw [List.mem_singleton.1 hrow']
          exact hknown

/-- The ids at the kept places are those not known. -/
theorem mem_kept_ids (ids : List UInt64) (known : List UInt64) (i : UInt64) :
    i ∈ (((ids.zipIdx.filter fun row => row.1 ∉ known).map Prod.snd).map fun j => ids.getD j 0) ↔
      i ∈ ids ∧ i ∉ known := by
  rw [List.map_map, List.mem_map]
  constructor
  · intro h
    obtain ⟨⟨id, j⟩, hmem, heq⟩ := h
    rw [List.mem_filter, decide_eq_true_eq] at hmem
    have hget : ids[j]? = some id := List.mem_zipIdx_iff_getElem?.1 hmem.1
    rw [Function.comp_apply, List.getD_eq_getElem?_getD, hget] at heq
    cases heq
    exact ⟨List.mem_of_getElem? hget, hmem.2⟩
  · intro h
    obtain ⟨j, hj⟩ := List.mem_iff_getElem?.1 h.1
    refine ⟨(i, j), ?_, ?_⟩
    · rw [List.mem_filter, decide_eq_true_eq]
      exact ⟨List.mem_zipIdx_iff_getElem?.2 hj, h.2⟩
    · rw [Function.comp_apply, List.getD_eq_getElem?_getD, hj]
      rfl

theorem mem_foldl_addOnce (ids ks : List UInt64) (i : UInt64) :
    i ∈ ids.foldl addOnce ks ↔ i ∈ ks ∨ i ∈ ids := by
  induction ids generalizing ks with
  | nil => exact ⟨Or.inl, fun h => h.resolve_right List.not_mem_nil⟩
  | cons id ids ih => rw [List.foldl_cons, ih, mem_addOnce, List.mem_cons, or_assoc]

theorem get_foldl_set (k : String) (ids : List UInt64) (m : OrderedMap UInt64 String) (i : UInt64) :
    (ids.foldl (fun m id => m.set id k) m).get i = if i ∈ ids then some k else m.get i := by
  induction ids generalizing m with
  | nil => rw [if_neg List.not_mem_nil, List.foldl_nil]
  | cons id ids ih =>
    rw [List.foldl_cons, ih, OrderedMap.get_set]
    by_cases hids : i ∈ ids
    · rw [if_pos hids, if_pos (List.mem_cons_of_mem id hids)]
    · rw [if_neg hids]
      by_cases hi : i = id
      · rw [if_pos hi, if_pos (hi ▸ List.mem_cons_self)]
      · rw [if_neg hi, if_neg (fun h => (List.mem_cons.1 h).elim hi hids)]

/-- The tile is there after, and as complete as it was. -/
theorem markTileResidentEmpty_eq (s : TileResidentSet) (k : String) (isPartial : Bool) :
    (∃ e, (s.markTileResidentEmpty k isPartial).tiles.get k = some e ∧
      e.batches = ((s.tiles.get k).map TileEntry.batches).getD [] ∧
      (e.isPartial = false → isPartial = false ∧
        ∀ e₀, s.tiles.get k = some e₀ → e₀.isPartial = false)) ∧
    (∀ t, t ≠ k → (s.markTileResidentEmpty k isPartial).tiles.get t = s.tiles.get t) ∧
    (s.markTileResidentEmpty k isPartial).knownIds = s.knownIds ∧
    (s.markTileResidentEmpty k isPartial).idOwner = s.idOwner ∧
    (s.markTileResidentEmpty k isPartial).suppressorsOf = s.suppressorsOf := by
  rw [markTileResidentEmpty]
  cases hk : s.tiles.get k with
  | none =>
    refine ⟨⟨⟨[], 0, 0, isPartial⟩, OrderedMap.get_set_self .., rfl, ?_⟩, ?_, rfl, rfl, rfl⟩
    · exact fun h => ⟨h, nofun⟩
    · intro t ht
      exact OrderedMap.get_set_of_ne _ _ ht
  | some e₀ =>
    cases isPartial with
    | true =>
      refine ⟨⟨_, OrderedMap.get_set_self .., rfl, nofun⟩, ?_, rfl, rfl, rfl⟩
      intro t ht
      exact OrderedMap.get_set_of_ne _ _ ht
    | false =>
      refine ⟨⟨e₀, hk, rfl, ?_⟩, fun _ _ => rfl, rfl, rfl, rfl⟩
      intro h
      refine ⟨rfl, ?_⟩
      intro e he
      cases he
      exact h

/-- A batch reads its attributes through no row map. -/
def Unmapped (batch : ResidentBatch) : Prop :=
  ∀ block, batch.attributes = .held block → block.rows = none

/-- The batch that is stored has the ids that are not known. -/
theorem keptRows_eq {batch : ResidentBatch} (h : Unmapped batch) (keepIdx : List Nat) :
    ∃ trimmed, keptRows batch keepIdx = .ok trimmed ∧
      trimmed.ids = keepIdx.map fun srcIdx => batch.ids.getD srcIdx 0 := by
  rw [keptRows]
  cases hattr : batch.attributes with
  | unprojected => exact ⟨_, rfl, rfl⟩
  | notHeld => exact ⟨_, rfl, rfl⟩
  | held block =>
    rw [keptAttributes, h block hattr]
    exact ⟨_, rfl, rfl⟩

/-- What adding a batch comes to. -/
structure Adds (k : String) (batch : ResidentBatch) (isPartial : Bool) (s s' : TileResidentSet) :
    Prop where
  known : ∀ i, i ∈ s'.knownIds ↔ i ∈ s.knownIds ∨ i ∈ batch.ids
  owner : ∀ i, s'.idOwner.get i =
    if i ∈ batch.ids ∧ i ∉ s.knownIds then some k else s.idOwner.get i
  stays : ∀ t i, s.Suppresses t i → s'.Suppresses t i
  suppressed : ∀ i ∈ batch.ids, i ∈ s.knownIds → s.idOwner.get i ≠ some k → s'.Suppresses k i
  others : ∀ t, t ≠ k → s'.tiles.get t = s.tiles.get t
  own : ∃ e', s'.tiles.get k = some e' ∧
    (∀ i, i ∈ e'.ids ↔ i ∈ ((s.tiles.get k).map TileEntry.ids).getD [] ∨
      i ∈ batch.ids ∧ i ∉ s.knownIds) ∧
    (e'.isPartial = false → isPartial = false ∧
      ∀ e, s.tiles.get k = some e → e.isPartial = false)

/-- The tile stores what is not known of a batch. -/
theorem adds_store {k : String} {batch : ResidentBatch} {isPartial : Bool} {s : TileResidentSet}
    {r : Scan} (hscan : Scans k batch.ids.zipIdx s r) {trimmed : ResidentBatch}
    (hids : ∀ i, i ∈ trimmed.ids ↔ i ∈ batch.ids ∧ i ∉ s.knownIds) :
    Adds k batch isPartial s ((r.set.markTileResidentEmpty k isPartial).store k trimmed) := by
  obtain ⟨⟨e, he, hbatches, hpart⟩, hothers, hknown, howner, hsup⟩ :=
    markTileResidentEmpty_eq r.set k isPartial
  generalize r.set.markTileResidentEmpty k isPartial = s₁ at he hothers hknown howner hsup ⊢
  rw [store, he]
  refine ⟨?_, ?_, ?_, ?_, ?_, ?_⟩
  · intro i
    show i ∈ trimmed.ids.foldl addOnce s₁.knownIds ↔ _
    rw [mem_foldl_addOnce, hknown, hscan.known, hids]
    by_cases hi : i ∈ s.knownIds
    · exact ⟨fun _ => Or.inl hi, fun _ => Or.inl hi⟩
    · exact ⟨fun h => h.imp_right And.left, fun h => h.imp_right fun hb => ⟨hb, hi⟩⟩
  · intro i
    show (trimmed.ids.foldl (fun m id => m.set id k) s₁.idOwner).get i = _
    rw [get_foldl_set, howner, hscan.owner]
    exact if_congr (hids i) rfl rfl
  · intro t i h
    have hstay := hscan.stays t i h
    rw [Suppresses, ← hsup] at hstay
    exact hstay
  · intro i hi hin hne
    have hrow : ∃ j, (i, j) ∈ batch.ids.zipIdx := by
      obtain ⟨j, hj⟩ := List.mem_iff_getElem?.1 hi
      exact ⟨j, List.mem_zipIdx_iff_getElem?.2 hj⟩
    obtain ⟨j, hj⟩ := hrow
    have hnew := hscan.suppressed (i, j) hj hin hne
    rw [Suppresses, ← hsup] at hnew
    exact hnew
  · intro t ht
    show (s₁.tiles.set k _).get t = _
    rw [OrderedMap.get_set_of_ne _ _ ht, hothers t ht, hscan.tiles]
  · refine ⟨_, OrderedMap.get_set_self .., ?_, ?_⟩
    · intro i
      show i ∈ (e.batches ++ [trimmed]).flatMap ResidentBatch.ids ↔ _
      rw [List.flatMap_append, List.mem_append, hbatches, hscan.tiles, List.flatMap_cons,
        List.flatMap_nil, List.append_nil, hids]
      cases s.tiles.get k with
      | none => exact Iff.rfl
      | some _ => exact Iff.rfl
    · intro h
      rw [← hscan.tiles]
      exact hpart h

theorem adds_addBatch (s : TileResidentSet) (k : String) {batch : ResidentBatch}
    (hbatch : Unmapped batch) (isPartial : Bool) :
    ∃ result, (s.addBatch k batch isPartial).2 = .ok result ∧
      Adds k batch isPartial s (s.addBatch k batch isPartial).1 := by
  have hscan : Scans k batch.ids.zipIdx s (s.scan k batch.ids) := scans_foldl k batch.ids.zipIdx s
  rw [addBatch]
  by_cases hnone : (s.scan k batch.ids).keepIdx = []
  · -- Every id is known: nothing is stored.
    rw [if_pos hnone]
    refine ⟨_, rfl, ?_⟩
    have hall : ∀ i ∈ batch.ids, i ∈ s.knownIds := by
      intro i hi
      by_contra hin
      have hmem := (mem_kept_ids batch.ids s.knownIds i).2 ⟨hi, hin⟩
      rw [← hscan.keep, hnone] at hmem
      cases hmem
    obtain ⟨⟨e, he, hbatches, hpart⟩, hothers, hknown, howner, hsup⟩ :=
      markTileResidentEmpty_eq (s.scan k batch.ids).set k isPartial
    refine ⟨?_, ?_, ?_, ?_, ?_, ⟨e, he, ?_, ?_⟩⟩
    · intro i
      rw [hknown, hscan.known]
      exact ⟨Or.inl, fun h => h.elim id (hall i)⟩
    · intro i
      rw [howner, hscan.owner, if_neg (fun h => h.2 (hall i h.1))]
    · intro t i h
      have hstay := hscan.stays t i h
      rw [Suppresses, ← hsup] at hstay
      exact hstay
    · intro i hi hin hne
      obtain ⟨j, hj⟩ := List.mem_iff_getElem?.1 hi
      have hnew := hscan.suppressed (i, j) (List.mem_zipIdx_iff_getElem?.2 hj) hin hne
      rw [Suppresses, ← hsup] at hnew
      exact hnew
    · intro t ht
      rw [hothers t ht, hscan.tiles]
    · intro i
      rw [TileEntry.ids, hbatches, hscan.tiles, or_iff_left (fun h => h.2 (hall i h.1))]
      cases s.tiles.get k with
      | none => exact Iff.rfl
      | some _ => exact Iff.rfl
    · intro h
      rw [← hscan.tiles]
      exact hpart h
  · rw [if_neg hnone]
    by_cases hdup : (s.scan k batch.ids).duplicatesDropped = 0
    · rw [if_pos hdup]
      refine ⟨_, rfl, adds_store hscan ?_⟩
      intro i
      refine ⟨?_, fun h => h.1⟩
      intro hi
      obtain ⟨j, hj⟩ := List.mem_iff_getElem?.1 hi
      exact ⟨hi, hscan.dropped hdup (i, j) (List.mem_zipIdx_iff_getElem?.2 hj)⟩
    · rw [if_neg hdup]
      obtain ⟨trimmed, hkept, hids⟩ := keptRows_eq hbatch (s.scan k batch.ids).keepIdx
      rw [hkept]
      refine ⟨_, rfl, adds_store hscan ?_⟩
      intro i
      rw [hids, hscan.keep]
      exact mem_kept_ids batch.ids s.knownIds i

end TileResidentSet

end SpatialIde.Shell.Canvas
