import SpatialIde.Shell.Canvas.TileIngest
import SpatialIde.Shell.Canvas.TileResidentSet.Evicting

/-! # What a complete tile was handed is resident

Between calls, an id that a complete tile was handed is known, and the tile owns it or suppresses it
(`Holds`).  An eviction breaks this for the tiles it goes into next, which `pending` names until
they are gone.
-/

namespace SpatialIde.Shell.Canvas

open Lib

namespace TileResidentSet

/-- `handed` says which ids each tile was handed; a tile in `pending` may miss some. -/
structure Holds (handed : String → List UInt64) (pending : String → Prop) (s : TileResidentSet) :
    Prop where
  known : ∀ i ∈ s.knownIds, ∃ t e, s.tiles.get t = some e ∧ i ∈ e.ids
  owner : ∀ t e i, s.tiles.get t = some e → i ∈ e.ids →
    i ∈ s.knownIds ∧ s.idOwner.get i = some t
  kept : ∀ t e, ¬pending t → s.tiles.get t = some e → e.isPartial = false →
    ∀ i ∈ handed t, i ∈ s.knownIds ∧ (s.idOwner.get i = some t ∨ s.Suppresses t i)

variable {handed : String → List UInt64} {pending pending' : String → Prop}
  {isProtected : String → Bool} {s s' : TileResidentSet} {k : String}

/-- A tile that is not there cannot miss anything. -/
theorem Holds.mono (h : Holds handed pending s)
    (hp : ∀ t e, s.tiles.get t = some e → pending t → pending' t) : Holds handed pending' s where
  known := h.known
  owner := h.owner
  kept t e ht he := h.kept t e (fun hpend => ht (hp t e he hpend)) he

/-! ### Evicting -/

/-- A tile goes: those that deliver what it stored are pending. -/
theorem Holds.dropTile (h : Holds handed (fun t => pending t ∨ t = k) s) {entry : TileEntry}
    (hk : s.tiles.get k = some entry) :
    Holds handed (fun t => pending t ∨ t ∈ (s.dropTile isProtected k entry).2)
      (s.dropTile isProtected k entry).1 := by
  have hdrop := drops_dropTile s isProtected k entry
  generalize s.dropTile isProtected k entry = r at hdrop ⊢
  -- A tile that is left was there, with the same ids.
  have hleft : ∀ t e', r.1.tiles.get t = some e' → t ≠ k ∧ ∃ e, s.tiles.get t = some e ∧
      e'.ids = e.ids ∧ (e.isPartial = true → e'.isPartial = true) := by
    intro t e' he'
    obtain ⟨e, he, hbatches, _, hpart⟩ := hdrop.marks.entry t e' he'
    rw [OrderedMap.get_delete] at he
    split_ifs at he with ht
    exact ⟨ht, e, he, congrArg (List.flatMap ResidentBatch.ids) hbatches, hpart⟩
  -- What another tile stores, the tile that goes does not.
  have hother : ∀ t e i, t ≠ k → s.tiles.get t = some e → i ∈ e.ids → i ∉ entry.ids := by
    intro t e i ht he hi hentry
    have howner := (h.owner t e i he hi).2
    rw [(h.owner k entry i hk hentry).2] at howner
    exact ht (Option.some.inj howner).symm
  refine ⟨?_, ?_, ?_⟩
  · intro i hi
    obtain ⟨hin, hout⟩ := (hdrop.known i).1 hi
    obtain ⟨t, e, he, hmem⟩ := h.known i hin
    have ht : t ≠ k := by
      intro ht
      rw [ht, hk] at he
      cases he
      exact hout hmem
    cases he' : r.1.tiles.get t with
    | none =>
      have hgone := (hdrop.marks.gone t).1 he'
      rw [OrderedMap.get_delete_of_ne _ ht, he] at hgone
      cases hgone
    | some e' =>
      obtain ⟨_, e₀, he₀, hids, _⟩ := hleft t e' he'
      rw [he] at he₀
      cases he₀
      exact ⟨t, e', he', hids ▸ hmem⟩
  · intro t e' i he' hi
    obtain ⟨ht, e, he, hids, _⟩ := hleft t e' he'
    rw [hids] at hi
    obtain ⟨hin, howner⟩ := h.owner t e i he hi
    have hout := hother t e i ht he hi
    exact ⟨(hdrop.known i).2 ⟨hin, hout⟩, by rw [hdrop.owner i hout, howner]⟩
  · intro t e' ht he' hcomplete i hi
    rw [not_or] at ht
    obtain ⟨htk, e, he, _, hpart⟩ := hleft t e' he'
    have hcomplete' : e.isPartial = false := by
      cases he₀ : e.isPartial with
      | false => rfl
      | true => exact absurd (hpart he₀) (by rw [hcomplete]; exact Bool.false_ne_true)
    obtain ⟨hin, hown⟩ := h.kept t e (fun hp => hp.elim ht.1 htk) he hcomplete' i hi
    have hout : i ∉ entry.ids := by
      intro hentry
      have howner := (h.owner k entry i hk hentry).2
      rcases hown with hown | hsup
      · rw [howner] at hown
        exact htk (Option.some.inj hown).symm
      · -- Whoever suppresses such an id is evicted next or marked.
        rcases hdrop.caught i hentry t htk hsup with hcascade | hmarked
        · exact ht.2 hcascade
        · rw [hmarked e' he'] at hcomplete
          cases hcomplete
    refine ⟨(hdrop.known i).2 ⟨hin, hout⟩, ?_⟩
    rw [hdrop.owner i hout]
    exact hown.imp_right (hdrop.stays t i htk hout)

theorem Holds.evictTile (h : Holds handed (fun _ => False) s) :
    Holds handed (fun _ => False) (s.evictTile k isProtected).1 := by
  rw [TileResidentSet.evictTile]
  cases hprot : isProtected k with
  | true =>
    rw [evictWithin_protected _ hprot]
    exact h
  | false =>
    have hpend : Holds handed (fun t => False ∨ t = k) s := h.mono fun _ _ _ hf => Or.inl hf
    exact evictWithin_keeps (fun h hp => h.mono hp) (fun h hk => h.dropTile hk) s.tiles.size
      (Nat.le_refl _) hprot hpend

theorem Holds.evictAll (h : Holds handed (fun _ => False) s) (keys : List String) :
    Holds handed (fun _ => False) (s.evictAll isProtected keys).1 := by
  rw [TileResidentSet.evictAll]
  induction keys using List.reverseRecOn with
  | nil => exact h
  | append_singleton keys key ih =>
    rw [List.foldl_append, List.foldl_cons, List.foldl_nil]
    exact ih.evictTile

/-! ### What an eviction reaches -/

/-- Evicting a tile takes another along: it delivers an id that the tile stores. -/
def TakesAlong (isProtected : String → Bool) (s : TileResidentSet) (a t : String) : Prop :=
  isProtected t = false ∧ ∃ e i, s.tiles.get a = some e ∧ i ∈ e.ids ∧ s.Suppresses t i

/-- Evicting a tile goes on to another in the end. -/
def Reaches (isProtected : String → Bool) (s : TileResidentSet) (a t : String) : Prop :=
  Relation.ReflTransGen (TakesAlong isProtected s) a t

/-- The same set, without some tiles and what they suppress. -/
structure Shrinks (s s' : TileResidentSet) : Prop where
  left : ∀ t e', s'.tiles.get t = some e' → ∃ e, s.tiles.get t = some e ∧ e'.ids = e.ids
  fewer : ∀ t i, s'.Suppresses t i → s.Suppresses t i

theorem Shrinks.refl (s : TileResidentSet) : Shrinks s s :=
  ⟨fun _ e' h => ⟨e', h, rfl⟩, fun _ _ h => h⟩

theorem Shrinks.trans {s'' : TileResidentSet} (h : Shrinks s s') (h' : Shrinks s' s'') :
    Shrinks s s'' := by
  refine ⟨?_, fun t i hs => h.fewer t i (h'.fewer t i hs)⟩
  intro t e'' he''
  obtain ⟨e', he', hids'⟩ := h'.left t e'' he''
  obtain ⟨e, he, hids⟩ := h.left t e' he'
  exact ⟨e, he, hids'.trans hids⟩

/-- What a smaller set reaches, the larger one does. -/
theorem Shrinks.reaches (h : Shrinks s s') {a t : String} (hr : Reaches isProtected s' a t) :
    Reaches isProtected s a t := by
  refine Relation.ReflTransGen.mono ?_ a t hr
  intro b u hb
  obtain ⟨hprot, e', i, he', hi, hsup⟩ := hb
  obtain ⟨e, he, hids⟩ := h.left b e' he'
  exact ⟨hprot, e, i, he, hids ▸ hi, h.fewer u i hsup⟩

theorem shrinks_dropTile {entry : TileEntry} :
    Shrinks s (s.dropTile isProtected k entry).1 := by
  have hdrop := drops_dropTile s isProtected k entry
  refine ⟨?_, hdrop.fewer⟩
  intro t e' he'
  obtain ⟨e, he, hbatches, _, _⟩ := hdrop.marks.entry t e' he'
  rw [OrderedMap.get_delete] at he
  split_ifs at he
  exact ⟨e, he, congrArg (List.flatMap ResidentBatch.ids) hbatches⟩

/-- The tiles that an eviction of some tiles removes, one after the other, each by what is known
of one. -/
theorem reaches_foldl (f : TileResidentSet → String → TileResidentSet)
    (hone : ∀ (s : TileResidentSet) (k : String), isProtected k = false → Shrinks s (f s k) ∧
      ∀ t e, s.tiles.get t = some e → (f s k).tiles.get t = none → Reaches isProtected s k t)
    (ts : List String) (hprot : ∀ t ∈ ts, isProtected t = false) (s : TileResidentSet) :
    Shrinks s (ts.foldl f s) ∧ ∀ t e, s.tiles.get t = some e → (ts.foldl f s).tiles.get t = none →
      ∃ a ∈ ts, Reaches isProtected s a t := by
  induction ts generalizing s with
  | nil =>
    refine ⟨Shrinks.refl s, ?_⟩
    intro t e he hnone
    rw [List.foldl_nil, he] at hnone
    cases hnone
  | cons u ts ih =>
    obtain ⟨hfirst, hgone⟩ := hone s u (hprot u List.mem_cons_self)
    obtain ⟨hrest, hgone'⟩ := ih (fun t ht => hprot t (List.mem_cons_of_mem u ht)) (f s u)
    refine ⟨hfirst.trans hrest, ?_⟩
    intro t e he hnone
    cases he' : (f s u).tiles.get t with
    | none => exact ⟨u, List.mem_cons_self, hgone t e he he'⟩
    | some e' =>
      obtain ⟨a, ha, hreach⟩ := hgone' t e' he' hnone
      exact ⟨a, List.mem_cons_of_mem u ha, hfirst.reaches hreach⟩

theorem reaches_evictWithin (n : Nat) (s : TileResidentSet) (k : String)
    (hprot : isProtected k = false) :
    Shrinks s (evictWithin isProtected n s k).1 ∧
      ∀ t e, s.tiles.get t = some e → (evictWithin isProtected n s k).1.tiles.get t = none →
        Reaches isProtected s k t := by
  have hnothing : ∀ t e, s.tiles.get t = some e → s.tiles.get t = none →
      Reaches isProtected s k t := by
    intro t e he hnone
    rw [he] at hnone
    cases hnone
  induction n generalizing s k with
  | zero => exact ⟨Shrinks.refl s, hnothing⟩
  | succ n ih =>
    cases hk : s.tiles.get k with
    | none =>
      rw [evictWithin_none (n + 1) hk]
      exact ⟨Shrinks.refl s, hnothing⟩
    | some entry =>
      have hdrop := drops_dropTile s isProtected k entry
      have hshrink : Shrinks s (s.dropTile isProtected k entry).1 := shrinks_dropTile
      rw [evictWithin_some n hk hprot]
      obtain ⟨hrest, hgone⟩ := reaches_foldl (fun s t => (evictWithin isProtected n s t).1)
        (fun s k hprot => ih s k hprot (by
          intro t e he hnone
          rw [he] at hnone
          cases hnone))
        ((s.dropTile isProtected k entry).2.filter fun t => t ≠ k)
        (fun t ht => (hdrop.freed t (List.mem_filter.1 ht).1).1)
        (s.dropTile isProtected k entry).1
      refine ⟨hshrink.trans hrest, ?_⟩
      intro t e he hnone
      cases he' : (s.dropTile isProtected k entry).1.tiles.get t with
      | none =>
        -- Only the tile itself has left so far.
        have ht : t = k := by
          by_contra ht
          have hdel := (hdrop.marks.gone t).1 he'
          rw [OrderedMap.get_delete_of_ne _ ht, he] at hdel
          cases hdel
        rw [ht]
        exact Relation.ReflTransGen.refl
      | some e' =>
        obtain ⟨a, ha, hreach⟩ := hgone t e' he' hnone
        obtain ⟨hprot', i, hi, hsup⟩ := hdrop.freed a (List.mem_filter.1 ha).1
        have htake : TakesAlong isProtected s k a := ⟨hprot', entry, i, hk, hi, hsup⟩
        exact Relation.ReflTransGen.head htake (hshrink.reaches hreach)

/-- What a plan evicts is reached from a tile it names. -/
theorem reaches_evictAll (s : TileResidentSet) (keys : List String) {t : String} {e : TileEntry}
    (he : s.tiles.get t = some e) (hnone : (s.evictAll isProtected keys).1.tiles.get t = none) :
    ∃ a ∈ keys, isProtected a = false ∧ Reaches isProtected s a t := by
  have hfst : ∀ (keys : List String) (acc : TileResidentSet × List String),
      (keys.foldl
        (fun (acc : TileResidentSet × List String) key =>
          ((acc.1.evictTile key isProtected).1,
            acc.2 ++ (acc.1.evictTile key isProtected).2)) acc).1 =
        (keys.filter fun a => isProtected a = false).foldl
          (fun s key => (s.evictTile key isProtected).1) acc.1 := by
    intro keys
    induction keys with
    | nil => exact fun _ => rfl
    | cons key keys ih =>
      intro acc
      rw [List.foldl_cons, ih]
      cases hprot : isProtected key with
      | true =>
        rw [List.filter_cons_of_neg (by rw [hprot]; decide)]
        show List.foldl _ (acc.1.evictTile key isProtected).1 _ = _
        rw [evictTile, evictWithin_protected _ hprot]
      | false =>
        rw [List.filter_cons_of_pos (by rw [hprot]; decide)]
        rfl
  rw [evictAll, hfst] at hnone
  obtain ⟨_, hgone⟩ := reaches_foldl (fun s key => (s.evictTile key isProtected).1)
    (fun s k hprot => reaches_evictWithin s.tiles.size s k hprot)
    (keys.filter fun a => isProtected a = false)
    (fun t ht => of_decide_eq_true (List.mem_filter.1 ht).2) s
  obtain ⟨a, ha, hreach⟩ := hgone t e he hnone
  rw [List.mem_filter, decide_eq_true_eq] at ha
  exact ⟨a, ha.1, ha.2, hreach⟩

/-! ### Marking and adding -/

/-- What is handed to tiles that are not there does not matter. -/
theorem Holds.congr {handed' : String → List UInt64} (h : Holds handed pending s)
    (heq : ∀ t e, s.tiles.get t = some e → handed' t = handed t) : Holds handed' pending s where
  known := h.known
  owner := h.owner
  kept t e ht he hcomplete := by
    rw [heq t e he]
    exact h.kept t e ht he hcomplete

theorem Holds.markTilePartial (h : Holds handed pending s) :
    Holds handed pending (s.markTilePartial k) := by
  have hmarks := marks_markTilePartial s k
  obtain ⟨hknown, howner, hsup, _⟩ := frame_markTilePartial s k
  generalize s.markTilePartial k = s' at hmarks hknown howner hsup ⊢
  refine ⟨?_, ?_, ?_⟩
  · intro i hi
    rw [hknown] at hi
    obtain ⟨t, e, he, hmem⟩ := h.known i hi
    cases he' : s'.tiles.get t with
    | none =>
      rw [(hmarks.gone t).1 he'] at he
      cases he
    | some e' =>
      obtain ⟨e₀, he₀, hbatches, _⟩ := hmarks.entry t e' he'
      rw [he] at he₀
      cases he₀
      refine ⟨t, e', he', ?_⟩
      rw [TileEntry.ids, hbatches]
      exact hmem
  · intro t e' i he' hi
    obtain ⟨e, he, hbatches, _⟩ := hmarks.entry t e' he'
    rw [TileEntry.ids, hbatches] at hi
    rw [hknown, howner]
    exact h.owner t e i he hi
  · intro t e' ht he' hcomplete i hi
    obtain ⟨e, he, _, _, hpart⟩ := hmarks.entry t e' he'
    have hcomplete' : e.isPartial = false := by
      cases he₀ : e.isPartial with
      | false => rfl
      | true => exact absurd (hpart he₀) (by rw [hcomplete]; exact Bool.false_ne_true)
    rw [hknown, howner, Suppresses, hsup]
    exact h.kept t e ht he hcomplete' i hi

theorem Holds.markTileResidentEmpty (h : Holds handed pending s) (isPartial : Bool)
    (hnew : s.tiles.get k = none → handed k = []) :
    Holds handed pending (s.markTileResidentEmpty k isPartial) := by
  obtain ⟨⟨e₁, he₁, hbatches, hpart⟩, hothers, hknown, howner, hsup⟩ :=
    markTileResidentEmpty_eq s k isPartial
  generalize s.markTileResidentEmpty k isPartial = s' at he₁ hothers hknown howner hsup ⊢
  refine ⟨?_, ?_, ?_⟩
  · intro i hi
    rw [hknown] at hi
    obtain ⟨t, e, he, hmem⟩ := h.known i hi
    by_cases ht : t = k
    · rw [ht] at he
      refine ⟨k, e₁, he₁, ?_⟩
      rw [TileEntry.ids, hbatches, he]
      exact hmem
    · exact ⟨t, e, by rw [hothers t ht, he], hmem⟩
  · intro t e' i he' hi
    rw [hknown, howner]
    by_cases ht : t = k
    · rw [ht, he₁] at he'
      cases he'
      rw [TileEntry.ids, hbatches] at hi
      cases he : s.tiles.get k with
      | none =>
        rw [he] at hi
        cases hi
      | some e =>
        rw [he] at hi
        rw [ht]
        exact h.owner k e i he hi
    · rw [hothers t ht] at he'
      exact h.owner t e' i he' hi
  · intro t e' hpend he' hcomplete i hi
    rw [hknown, howner, Suppresses, hsup]
    by_cases ht : t = k
    · rw [ht] at hi hpend ⊢
      rw [ht, he₁] at he'
      cases he'
      cases he : s.tiles.get k with
      | none =>
        rw [hnew he] at hi
        cases hi
      | some e => exact h.kept k e hpend he ((hpart hcomplete).2 e he) i hi
    · rw [hothers t ht] at he'
      exact h.kept t e' hpend he' hcomplete i hi

/-- A tile is handed `ids`, of which a batch holds all unless the tile is marked partial. -/
theorem Holds.addBatch {batch : ResidentBatch} {isPartial : Bool} {ids : List UInt64}
    (h : Holds handed (fun _ => False) s) (hbatch : Unmapped batch)
    (hnew : s.tiles.get k = none → handed k = [])
    (hids : isPartial = false → ∀ i ∈ ids, i ∈ batch.ids) :
    Holds (fun t => handed t ++ if t = k then ids else []) (fun _ => False)
      (s.addBatch k batch isPartial).1 := by
  obtain ⟨_, _, hadds⟩ := adds_addBatch s k hbatch isPartial
  generalize (s.addBatch k batch isPartial).1 = s' at hadds ⊢
  obtain ⟨e₁, he₁, hown, hpart⟩ := hadds.own
  refine ⟨?_, ?_, ?_⟩
  · intro i hi
    rcases (hadds.known i).1 hi with hin | hin
    · obtain ⟨t, e, he, hmem⟩ := h.known i hin
      by_cases ht : t = k
      · rw [ht] at he
        refine ⟨k, e₁, he₁, (hown i).2 (Or.inl ?_)⟩
        rw [he]
        exact hmem
      · exact ⟨t, e, by rw [hadds.others t ht, he], hmem⟩
    · by_cases hknown : i ∈ s.knownIds
      · obtain ⟨t, e, he, hmem⟩ := h.known i hknown
        by_cases ht : t = k
        · rw [ht] at he
          refine ⟨k, e₁, he₁, (hown i).2 (Or.inl ?_)⟩
          rw [he]
          exact hmem
        · exact ⟨t, e, by rw [hadds.others t ht, he], hmem⟩
      · exact ⟨k, e₁, he₁, (hown i).2 (Or.inr ⟨hin, hknown⟩)⟩
  · intro t e' i he' hi
    rw [hadds.known, hadds.owner]
    by_cases ht : t = k
    · rw [ht, he₁] at he'
      cases he'
      rcases (hown i).1 hi with hold | hin
      · cases he : s.tiles.get k with
        | none =>
          rw [he] at hold
          cases hold
        | some e =>
          rw [he] at hold
          obtain ⟨hknown, howner⟩ := h.owner k e i he hold
          rw [if_neg (fun hn => hn.2 hknown), ht]
          exact ⟨Or.inl hknown, howner⟩
      · rw [if_pos hin, ht]
        exact ⟨Or.inr hin.1, rfl⟩
    · rw [hadds.others t ht] at he'
      obtain ⟨hknown, howner⟩ := h.owner t e' i he' hi
      rw [if_neg (fun hn => hn.2 hknown)]
      exact ⟨Or.inl hknown, howner⟩
  · intro t e' _ he' hcomplete i hi
    have hold : ∀ e, s.tiles.get t = some e → e.isPartial = false → i ∈ handed t →
        i ∈ s'.knownIds ∧ (s'.idOwner.get i = some t ∨ s'.Suppresses t i) := by
      intro e he hpart hmem
      obtain ⟨hknown, hown⟩ := h.kept t e (fun hf => hf) he hpart i hmem
      rw [hadds.known, hadds.owner, if_neg (fun hn => hn.2 hknown)]
      exact ⟨Or.inl hknown, hown.imp_right (hadds.stays t i)⟩
    by_cases ht : t = k
    · rw [ht, he₁] at he'
      cases he'
      rw [if_pos ht] at hi
      rcases List.mem_append.1 hi with hi | hi
      · cases he : s.tiles.get k with
        | none =>
          rw [ht, hnew he] at hi
          cases hi
        | some e => exact hold e (ht ▸ he) ((hpart hcomplete).2 e he) hi
      · have hin := hids (hpart hcomplete).1 i hi
        rw [hadds.known, hadds.owner, ht]
        refine ⟨Or.inr hin, ?_⟩
        by_cases hknown : i ∈ s.knownIds
        · rw [if_neg (fun hn => hn.2 hknown)]
          by_cases howner : s.idOwner.get i = some k
          · exact Or.inl howner
          · exact Or.inr (hadds.suppressed i hin hknown howner)
        · rw [if_pos ⟨hin, hknown⟩]
          exact Or.inl rfl
    · rw [hadds.others t ht] at he'
      rw [if_neg ht, List.append_nil] at hi
      exact hold e' he' hcomplete hi

end TileResidentSet

end SpatialIde.Shell.Canvas
