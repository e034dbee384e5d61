import SpatialIde.Shell.Canvas.TileIngest.Calls
import SpatialIde.Shell.Canvas.TileResidentSet.Consistent

/-! # Ingest stays within the vertex ceiling

A plan counts on the tiles it names; an eviction takes at least those, so what the plan makes room
for fits (`Sheds`, `Planned`).  Of a batch that does not fit the most leading features are taken that
do, and the ids that are known after the eviction are left out (`Admits`).
-/

namespace SpatialIde.Shell.Canvas

open Lib

namespace TileResidentSet

variable {isProtected : String → Bool} {s s' s'' : TileResidentSet} {k : String}

/-! ### What an eviction frees -/

/-- One of some tiles stores an id. -/
def StoredBy (s : TileResidentSet) (ts : List String) (i : UInt64) : Prop :=
  ∃ t ∈ ts, ∃ e, s.tiles.get t = some e ∧ i ∈ e.ids

theorem storedBy_append {ts us : List String} {i : UInt64} :
    s.StoredBy (ts ++ us) i ↔ s.StoredBy ts i ∨ s.StoredBy us i := by
  constructor
  · intro h
    obtain ⟨t, ht, he⟩ := h
    exact (List.mem_append.1 ht).imp (fun ht => ⟨t, ht, he⟩) fun ht => ⟨t, ht, he⟩
  · intro h
    rcases h with h | h
    · obtain ⟨t, ht, he⟩ := h
      exact ⟨t, List.mem_append_left _ ht, he⟩
    · obtain ⟨t, ht, he⟩ := h
      exact ⟨t, List.mem_append_right _ ht, he⟩

/-- The tiles that went took their vertices along; a protected tile that stays is marked if it had
delivered what one of them stored. -/
structure Sheds (isProtected : String → Bool) (s s' : TileResidentSet) (went : List String) :
    Prop where
  removes : Removes isProtected s s' went
  entry : ∀ t e', s'.tiles.get t = some e' → ∃ e, s.tiles.get t = some e ∧
    e'.batches = e.batches ∧ e'.vertices = e.vertices
  totalVertices : s'.totalVertices + (went.map s.tileVertexCount).sum = s.totalVertices
  fewer : ∀ t i, s'.Suppresses t i → s.Suppresses t i
  stays : ∀ t i, s'.tiles.get t ≠ none → s.Suppresses t i →
    s'.Suppresses t i ∨ s.StoredBy went i
  marked : ∀ t, s'.tiles.get t ≠ none → (s'.isTilePartial t = true ↔ s.isTilePartial t = true ∨
    isProtected t = true ∧ ∃ i, s.Suppresses t i ∧ s.StoredBy went i)

namespace Sheds

theorem refl (s : TileResidentSet) : Sheds isProtected s s [] where
  removes := Removes.refl s
  entry _ e' h := ⟨e', h, rfl, rfl⟩
  totalVertices := Int.add_zero _
  fewer _ _ h := h
  stays _ _ _ h := Or.inl h
  marked t _ := by
    refine (or_iff_left ?_).symm
    intro h
    obtain ⟨_, i, _, t, ht, _⟩ := h
    cases ht

/-- What the tiles stored that went later, they stored before. -/
theorem storedBy_of {went went' : List String} (h : Sheds isProtected s s' went)
    (h' : Removes isProtected s' s'' went') (i : UInt64) :
    s'.StoredBy went' i ↔ s.StoredBy went' i := by
  constructor
  · intro hi
    obtain ⟨t, ht, e', he', hi⟩ := hi
    obtain ⟨e, he, hbatches, _⟩ := h.entry t e' he'
    refine ⟨t, ht, e, he, ?_⟩
    rw [TileEntry.ids, ← hbatches]
    exact hi
  · intro hi
    obtain ⟨t, ht, e, he, hi⟩ := hi
    obtain ⟨e', he'⟩ := Option.ne_none_iff_exists'.1 ((h'.mem t).1 ht).1
    obtain ⟨e₀, he₀, hbatches, _⟩ := h.entry t e' he'
    rw [he] at he₀
    cases he₀
    refine ⟨t, ht, e', he', ?_⟩
    rw [TileEntry.ids, hbatches]
    exact hi

theorem trans {went went' : List String} (h : Sheds isProtected s s' went)
    (h' : Sheds isProtected s' s'' went') : Sheds isProtected s s'' (went ++ went') where
  removes := h.removes.trans h'.removes
  entry t e'' he'' := by
    obtain ⟨e', he', hbatches', hvertices'⟩ := h'.entry t e'' he''
    obtain ⟨e, he, hbatches, hvertices⟩ := h.entry t e' he'
    exact ⟨e, he, hbatches'.trans hbatches, hvertices'.trans hvertices⟩
  totalVertices := by
    have hcount : went'.map s'.tileVertexCount = went'.map s.tileVertexCount := by
      refine List.map_congr_left ?_
      intro t ht
      obtain ⟨e', he'⟩ := Option.ne_none_iff_exists'.1 ((h'.removes.mem t).1 ht).1
      obtain ⟨e, he, _, hvertices⟩ := h.entry t e' he'
      rw [tileVertexCount_eq he', tileVertexCount_eq he, hvertices]
    have hfirst := h.totalVertices
    have hlast := h'.totalVertices
    rw [hcount] at hlast
    rw [List.map_append, List.sum_append]
    omega
  fewer t i hi := h.fewer t i (h'.fewer t i hi)
  stays t i ht hi := by
    have ht' : s'.tiles.get t ≠ none := fun hnone => ht (h'.removes.fewer t hnone)
    rw [storedBy_append, ← h.storedBy_of h'.removes]
    rcases h.stays t i ht' hi with hi | hi
    · exact (h'.stays t i ht hi).imp_right Or.inr
    · exact Or.inr (Or.inl hi)
  marked t ht := by
    have ht' : s'.tiles.get t ≠ none := fun hnone => ht (h'.removes.fewer t hnone)
    rw [h'.marked t ht, h.marked t ht', or_assoc, ← and_or_left]
    refine or_congr_right (and_congr_right fun _ => ?_)
    constructor
    · intro hor
      rcases hor with hi | hi
      · obtain ⟨i, hi, hby⟩ := hi
        exact ⟨i, hi, storedBy_append.2 (Or.inl hby)⟩
      · obtain ⟨i, hi, hby⟩ := hi
        exact ⟨i, h.fewer t i hi, storedBy_append.2 (Or.inr ((h.storedBy_of h'.removes i).1 hby))⟩
    · intro hi
      obtain ⟨i, hi, hby⟩ := hi
      rcases storedBy_append.1 hby with hby | hby
      · exact Or.inl ⟨i, hi, hby⟩
      · rcases h.stays t i ht' hi with hi' | hearlier
        · exact Or.inr ⟨i, hi', (h.storedBy_of h'.removes i).2 hby⟩
        · exact Or.inl ⟨i, hi, hearlier⟩

theorem dropTile {entry : TileEntry} (hk : s.tiles.get k = some entry)
    (hprot : isProtected k = false) : Sheds isProtected s (s.dropTile isProtected k entry).1 [k] := by
  have hremoves := Removes.dropTile hk hprot
  have hdrop := drops_dropTile s isProtected k entry
  have hleaves := leaves_dropTile s isProtected k entry
  generalize s.dropTile isProtected k entry = r at hremoves hdrop hleaves ⊢
  have hby : ∀ i, s.StoredBy [k] i ↔ i ∈ entry.ids := by
    intro i
    constructor
    · intro h
      obtain ⟨t, ht, e, he, hi⟩ := h
      rw [List.mem_singleton.1 ht, hk] at he
      cases he
      exact hi
    · exact fun hi => ⟨k, List.mem_cons_self, entry, hk, hi⟩
  -- What is left is another tile, and was there.
  have hleft : ∀ t, r.1.tiles.get t ≠ none → t ≠ k ∧ s.tiles.get t ≠ none := by
    intro t ht
    rw [ne_eq, hdrop.marks.gone, OrderedMap.get_delete] at ht
    split_ifs at ht with htk
    · exact absurd rfl ht
    · exact ⟨htk, ht⟩
  refine ⟨hremoves, ?_, ?_, hdrop.fewer, ?_, ?_⟩
  · intro t e' he'
    obtain ⟨e, he, hbatches, hvertices, _⟩ := hdrop.marks.entry t e' he'
    rw [OrderedMap.get_delete] at he
    split_ifs at he
    exact ⟨e, he, hbatches, hvertices⟩
  · rw [hdrop.total, List.map_cons, List.map_nil, List.sum_singleton, tileVertexCount_eq hk]
    omega
  · intro t i ht hi
    rw [hby]
    by_cases hin : i ∈ entry.ids
    · exact Or.inr hin
    · exact Or.inl (hdrop.stays t i (hleft t ht).1 hin hi)
  · intro t ht
    obtain ⟨htk, hres⟩ := hleft t ht
    rw [hleaves.marked t htk hres]
    refine or_congr_right (and_congr_right fun _ => exists_congr fun i => ?_)
    rw [hby, and_comm]

theorem evictWithin (n : Nat) (s : TileResidentSet) (k : String) :
    Sheds isProtected s (evictWithin isProtected n s k).1 (evictWithin isProtected n s k).2 :=
  evictWithin_relates refl (fun h h' => h.trans h') dropTile n s k

end Sheds

/-- A tile that is not protected is gone after its eviction. -/
theorem get_evictTile (s : TileResidentSet) (hprot : isProtected k = false) :
    (s.evictTile k isProtected).1.tiles.get k = none := by
  rw [evictTile]
  cases hk : s.tiles.get k with
  | none =>
    rw [evictWithin_none _ hk]
    exact hk
  | some entry =>
    have hlt := size_dropTile isProtected hk
    obtain ⟨n, hn⟩ := Nat.exists_eq_succ_of_ne_zero (Nat.ne_of_gt (Nat.zero_lt_of_lt hlt))
    rw [hn, evictWithin_succ n hk hprot]
    refine evictEach_relates (R := fun s s' _ => s.tiles.get k = none → s'.tiles.get k = none)
      (fun h h' hnone => h' (h hnone)) (fun s t => (Removes.evictWithin n s t).fewer k)
      ((s.dropTile isProtected k entry).2.filter fun t => t ≠ k)
      ((s.dropTile isProtected k entry).1, [k]) (s := (s.dropTile isProtected k entry).1)
      (fun hnone => hnone) ?_
    exact (get_dropTile k).2 (Or.inl rfl)

/-- A plan is carried out: every tile it names is gone. -/
theorem sheds_evictAll (isProtected : String → Bool) (s : TileResidentSet) (keys : List String) :
    Sheds isProtected s (s.evictAll isProtected keys).1 (s.evictAll isProtected keys).2 ∧
      ∀ a ∈ keys, isProtected a = false → (s.evictAll isProtected keys).1.tiles.get a = none := by
  rw [evictAll]
  induction keys using List.reverseRecOn with
  | nil =>
    refine ⟨Sheds.refl s, ?_⟩
    intro a ha
    cases ha
  | append_singleton keys key ih =>
    rw [List.foldl_append, List.foldl_cons, List.foldl_nil]
    obtain ⟨hsheds, hgone⟩ := ih
    generalize keys.foldl _ (s, []) = acc at hsheds hgone ⊢
    have hone : Sheds isProtected acc.1 (acc.1.evictTile key isProtected).1
        (acc.1.evictTile key isProtected).2 := Sheds.evictWithin acc.1.tiles.size acc.1 key
    refine ⟨hsheds.trans hone, ?_⟩
    intro a ha hfree
    rcases List.mem_append.1 ha with ha | ha
    · exact hone.removes.fewer a (hgone a ha hfree)
    · rw [List.mem_singleton.1 ha] at hfree ⊢
      exact get_evictTile acc.1 hfree

end TileResidentSet

end SpatialIde.Shell.Canvas
