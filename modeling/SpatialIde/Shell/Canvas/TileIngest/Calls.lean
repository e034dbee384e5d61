import SpatialIde.Lib.Runs
import SpatialIde.Shell.Canvas.TileIngest.Delivered

/-! # Every order of calls on the resident tiles

What a complete tile was handed since it came is resident at every boundary between two calls, as
long as no call that makes room for a batch evicts the very tile the batch is for.  Where evicting
does not make room, the tile is marked partial: every tile that could go is gone then, so the batch
is trimmed.
-/

namespace SpatialIde.Shell.Canvas

open Lib

namespace TileResidentSet

variable {isProtected : String → Bool} {s : TileResidentSet} {k : String}

/-! ### The vertices that cannot be freed -/

/-- The vertices of the tiles that are not protected. -/
def evictableVertices (isProtected : String → Bool) (s : TileResidentSet) : Nat :=
  ((s.residentTileKeys.filter fun t => !isProtected t).map s.tileVertexCount).sum

/-- The vertices no eviction frees. -/
def fixedVertices (isProtected : String → Bool) (s : TileResidentSet) : Int :=
  s.totalVertices - evictableVertices isProtected s

theorem tileVertexCount_eq {e : TileEntry} (h : s.tiles.get k = some e) :
    s.tileVertexCount k = e.vertices := by
  rw [tileVertexCount, h]

theorem evictableVertices_dropTile {entry : TileEntry} (hk : s.tiles.get k = some entry)
    (hprot : isProtected k = false) :
    entry.vertices + evictableVertices isProtected (s.dropTile isProtected k entry).1 =
      evictableVertices isProtected s := by
  have hmarks := (drops_dropTile s isProtected k entry).marks
  generalize (s.dropTile isProtected k entry).1 = s' at hmarks ⊢
  have hkeys : s'.residentTileKeys = s.residentTileKeys.filter fun t => t ≠ k :=
    hmarks.keys.trans (OrderedMap.keys_delete _ k)
  have hnodup : (s.residentTileKeys.filter fun t => !isProtected t).Nodup :=
    s.tiles.nodup.filter _
  have hmem : k ∈ s.residentTileKeys.filter fun t => !isProtected t :=
    List.mem_filter.2 ⟨OrderedMap.mem_keys.2 ⟨entry, hk⟩, by rw [hprot]; rfl⟩
  have herase : s'.residentTileKeys.filter (fun t => !isProtected t) =
      (s.residentTileKeys.filter fun t => !isProtected t).erase k := by
    rw [hnodup.erase_eq_filter, hkeys, List.filter_filter, List.filter_filter]
    refine List.filter_congr ?_
    intro t _
    rw [Bool.and_comm]
    congr 1
    rw [Bool.eq_iff_iff, bne_iff_ne, decide_eq_true_eq]
  -- The tiles that stay have the vertices they had.
  have hcount : ∀ t, t ≠ k → t ∈ s'.residentTileKeys → s'.tileVertexCount t = s.tileVertexCount t := by
    intro t ht hin
    obtain ⟨e', he'⟩ := OrderedMap.mem_keys.1 hin
    obtain ⟨e, he, _, hvertices, _⟩ := hmarks.entry t e' he'
    rw [OrderedMap.get_delete_of_ne _ ht] at he
    rw [tileVertexCount_eq he', tileVertexCount_eq he, hvertices]
  rw [evictableVertices, evictableVertices, ← tileVertexCount_eq hk, ← List.sum_map_erase _ hmem,
    ← herase]
  congr 2
  refine List.map_congr_left ?_
  intro t ht
  have hin := (List.mem_filter.1 ht).1
  refine hcount t ?_ hin
  intro heq
  rw [hkeys, List.mem_filter, decide_eq_true_eq] at hin
  exact hin.2 heq

theorem fixedVertices_foldl (isProtected : String → Bool)
    {f : TileResidentSet → String → TileResidentSet} (ts : List String)
    (hone : ∀ s t, t ∈ ts → fixedVertices isProtected (f s t) = fixedVertices isProtected s)
    (s : TileResidentSet) :
    fixedVertices isProtected (ts.foldl f s) = fixedVertices isProtected s := by
  induction ts generalizing s with
  | nil => rfl
  | cons t ts ih =>
    rw [List.foldl_cons, ih (fun s u hu => hone s u (List.mem_cons_of_mem t hu)),
      hone s t List.mem_cons_self]

/-- An eviction frees nothing but vertices of tiles that are not protected. -/
theorem fixedVertices_evictWithin (n : Nat) (s : TileResidentSet) (k : String) :
    fixedVertices isProtected (evictWithin isProtected n s k).1 = fixedVertices isProtected s := by
  induction n generalizing s k with
  | zero => rfl
  | succ n ih =>
    cases hk : s.tiles.get k with
    | none => rw [evictWithin_none (n + 1) hk]
    | some entry =>
      cases hprot : isProtected k with
      | true => rw [evictWithin_protected (n + 1) hprot]
      | false =>
        have htotal := (drops_dropTile s isProtected k entry).total
        have hfreed := evictableVertices_dropTile hk hprot
        rw [evictWithin_some n hk hprot,
          fixedVertices_foldl isProtected _ (fun s t _ => ih s t),
          fixedVertices, fixedVertices, htotal, ← hfreed]
        omega

theorem fixedVertices_evictAll (isProtected : String → Bool) (s : TileResidentSet)
    (keys : List String) :
    fixedVertices isProtected (s.evictAll isProtected keys).1 = fixedVertices isProtected s := by
  rw [evictAll]
  induction keys using List.reverseRecOn with
  | nil => rfl
  | append_singleton keys key ih =>
    rw [List.foldl_append, List.foldl_cons, List.foldl_nil]
    exact (fixedVertices_evictWithin _ _ _).trans ih

end TileResidentSet

/-! ### A plan that does not make room -/

/-- A plan over budget names every tile it could. -/
theorem planLoop_over {maxResidentVertices : Int} {xs : List (String × Nat)} {evict : List String}
    {projected : Int} (h : maxResidentVertices < (planLoop maxResidentVertices xs
      (evict, projected)).2) :
    maxResidentVertices < projected - (xs.map Prod.snd).sum := by
  induction xs generalizing evict projected with
  | nil =>
    rw [planLoop] at h
    rw [List.map_nil, List.sum_nil]
    omega
  | cons x xs ih =>
    rw [planLoop] at h
    split_ifs at h with hfits
    · omega
    · have hrest := ih h
      rw [List.map_cons, List.sum_cons]
      omega

/-- Reserved or not, a key is one of the two. -/
theorem sum_filter_reserved (f : String → Nat) (viewport reserved : String → Bool)
    (keys : List String) :
    ((keys.filter fun t => !viewport t && !reserved t).map f).sum +
        ((keys.filter fun t => reserved t && !viewport t).map f).sum =
      ((keys.filter fun t => !viewport t).map f).sum := by
  induction keys with
  | nil => rfl
  | cons t keys ih =>
    cases hv : viewport t <;> cases hr : reserved t <;>
      simp only [List.filter_cons, hv, hr, Bool.not_true, Bool.not_false, Bool.and_true,
        Bool.and_false, Bool.and_self, if_true, if_false, Bool.false_eq_true, List.map_cons,
        List.sum_cons] <;>
      omega

theorem planFor_over {p : IngestParams} {grid : TileGridContext} {s : TileResidentSet}
    {batch : ResidentBatch} {plan : EvictionPlan} (h : planFor p grid s batch = .ok plan)
    (hover : plan.overBudget = true) :
    p.maxResidentVertices < s.fixedVertices p.viewportTileKeys + batch.totalVertices := by
  rw [planFor, planTileEviction] at h
  dsimp only at h
  split_ifs at h with hfits
  · cases h
    cases hover
  · obtain ⟨candidates, hcandidates, h⟩ := bind_eq_ok.1 h
    cases h
    have hloop := planLoop_over (of_decide_eq_true hover)
    have hcells : candidates.map Candidate.vertices =
        (s.residentTileKeys.filter fun k => !p.viewportTileKeys k && !isReservedTileKey k).map
          s.tileVertexCount := by
      refine map_of_mapM hcandidates ?_
      intro t c hc
      obtain ⟨d, _, hc⟩ := bind_eq_ok.1 hc
      cases hc
      rfl
    have hsorted : ((candidates.insertionSort fun a b => b.distance.le a.distance = true).map
        Candidate.vertices).sum = (candidates.map Candidate.vertices).sum :=
      ((List.perm_insertionSort _ candidates).map _).sum_eq
    rw [List.map_append, List.sum_append, List.map_map, List.map_map] at hloop
    change p.maxResidentVertices < _ - ((((candidates.insertionSort fun a b =>
      b.distance.le a.distance = true).map Candidate.vertices).sum +
        ((s.residentTileKeys.filter fun k => isReservedTileKey k && !p.viewportTileKeys k).map
          s.tileVertexCount).sum : Nat) : Int) at hloop
    rw [hsorted, hcells, sum_filter_reserved] at hloop
    rw [TileResidentSet.fixedVertices, TileResidentSet.evictableVertices]
    omega

/-- A batch larger than the room that is left loses features. -/
theorem trimBatch_lt {batch : ResidentBatch} {remaining : Int}
    (hlen : batch.parts.length = batch.ids.length)
    (hvertices : batch.totalVertices = (batch.parts.map verticesOf).sum)
    (hpos : 0 < batch.totalVertices) (hover : remaining < batch.totalVertices) :
    (trimBatchToVertexBudget batch remaining).ids.length < batch.ids.length := by
  obtain ⟨v', m, hm, heq, hfits⟩ := trimLoop_eq remaining batch.parts 0 0 0
  rw [trimBatchToVertexBudget, ← hlen, List.take_length, heq, Nat.zero_add]
  show (batch.ids.take m).length < _
  rw [List.length_take, ← hlen]
  have hnil : batch.parts ≠ [] := by
    intro hnil
    rw [hvertices, hnil] at hpos
    exact absurd hpos (Nat.lt_irrefl 0)
  have hne : m ≠ batch.parts.length := by
    intro hall
    have hsum := hfits hall hnil
    omega
  omega

/-! ### Calls -/

/-- A batch as a decode leaves it. -/
structure AsDecoded (batch : ResidentBatch) : Prop where
  unmapped : TileResidentSet.Unmapped batch
  length : batch.parts.length = batch.ids.length
  vertices : batch.totalVertices = (batch.parts.map verticesOf).sum

/-- Every batch the decode makes is one. -/
theorem asDecoded_of_decodeTable {ipc : Ipc} {streamHandle : String} {batchSeq : Nat}
    {table : Table} {geometryColumn expectedEncoding : String} {projection : Option (List String)}
    {filter : Option Filter} {decoded : ResidentBatch}
    (h : decodeTable ipc streamHandle batchSeq table geometryColumn expectedEncoding projection
      filter = .ok decoded) : AsDecoded decoded := by
  obtain ⟨_, _, attributes, d, _, _, hcopy, hrows, hdecoded⟩ := decodeTable_eq_ok h
  obtain ⟨hids, hparts, _, htotal, _⟩ := decodeRows_eq hrows
  rw [hdecoded]
  refine ⟨?_, hparts.trans hids.symm, htotal⟩
  intro block hblock
  change attributes = .held block at hblock
  rw [hblock] at hcopy
  unfold copyAttributes at hcopy
  dsimp only at hcopy
  split_ifs at hcopy
  cases projection with
  | none => cases hcopy
  | some names =>
    dsimp only at hcopy
    split at hcopy
    · cases hcopy
    · cases hcopy
      rfl

/-- The eviction that makes room for a batch goes on to the resident tile the batch is for. -/
def EvictsOwn (p : IngestParams) (s : TileResidentSet) (tileKey : String) (batch : ResidentBatch) :
    Prop :=
  s.isTileResident tileKey = true ∧ ∃ grid plan, p.grid = some grid ∧
    planFor p grid s batch = .ok plan ∧ (plan.overBudget = false ∨ batch.totalVertices = 0) ∧
    ∃ a ∈ plan.evict, p.viewportTileKeys a = false ∧
      TileResidentSet.Reaches p.viewportTileKeys s a tileKey

inductive Call where
  | ingest (p : IngestParams) (tileKey : String) (batch : ResidentBatch)
  | evict (tileKey : String) (isProtected : String → Bool)
  | markPartial (tileKey : String)
  | markEmpty (tileKey : String) (isPartial : Bool)
  | clear

namespace Call

def set (s : TileResidentSet) : Call → TileResidentSet
  | ingest p tileKey batch => (ingestTileBatch p s tileKey batch).1
  | evict tileKey isProtected => (s.evictTile tileKey isProtected).1
  | markPartial tileKey => s.markTilePartial tileKey
  | markEmpty tileKey isPartial => s.markTileResidentEmpty tileKey isPartial
  | clear => .clear

/-- The ids a call hands to `ingestTileBatch` under a key. -/
def hands (t : String) : Call → List UInt64
  | ingest _ tileKey batch => if t = tileKey then batch.ids else []
  | _ => []

/-- A call that evicts no tile it fills: its batch is one the decode makes, every distance of its
plan can be told, and the eviction does not reach the tile. -/
def Spares (s : TileResidentSet) : Call → Prop
  | ingest p tileKey batch =>
    AsDecoded batch ∧
      (∀ grid, p.grid = some grid → ∃ plan, planFor p grid s batch = .ok plan) ∧
      ¬EvictsOwn p s tileKey batch
  | _ => True

end Call

/-- The set between two calls, and what each tile was handed since the last boundary at which it was
not resident. -/
structure Boundary where
  set : TileResidentSet
  handed : String → List UInt64

namespace Boundary

def start : Boundary := ⟨.new, fun _ => []⟩

def after (b : Boundary) (c : Call) : Boundary :=
  let s := c.set b.set
  ⟨s, fun t => if s.isTileResident t then b.handed t ++ c.hands t else []⟩

def run (calls : List Call) : Boundary := calls.foldl after start

/-- A complete tile misses nothing it was handed. -/
def Complete (b : Boundary) : Prop :=
  ∀ t, b.set.isTileComplete t = true → ∀ i ∈ b.handed t,
    ∃ t' e batch, b.set.tiles.get t' = some e ∧ batch ∈ e.batches ∧ i ∈ batch.ids

end Boundary

namespace TileResidentSet

variable {handed : String → List UInt64} {s : TileResidentSet} {k : String}

/-- A batch is added, of which the tile stores or suppresses what it is handed, unless the tile is
marked. -/
theorem Holds.admitted {batch toAdmit : ResidentBatch} {trimmed : Bool}
    (h : Holds handed (fun _ => False) s) (hbatch : Unmapped toAdmit)
    (hlost : s.tiles.get k = none → trimmed = false → handed k = [])
    (hids : trimmed = false → ∀ i ∈ batch.ids, i ∈ toAdmit.ids) :
    Holds (fun t => handed t ++ if t = k then batch.ids else []) (fun _ => False)
      (s.addBatch k toAdmit trimmed).1 := by
  cases hk : s.tiles.get k with
  | some e =>
    refine h.addBatch hbatch ?_ hids
    intro hnone
    rw [hk] at hnone
    cases hnone
  | none =>
    -- What was handed before counts with what is handed now.
    have hnone : Holds (fun t => if t = k then [] else handed t) (fun _ => False) s := by
      refine h.congr ?_
      intro t e he
      refine if_neg ?_
      intro ht
      rw [ht, hk] at he
      cases he
    have hall : trimmed = false → ∀ i ∈ handed k ++ batch.ids, i ∈ toAdmit.ids := by
      intro htrimmed i hi
      rw [hlost hk htrimmed, List.nil_append] at hi
      exact hids htrimmed i hi
    have hadd := hnone.addBatch hbatch (fun _ => if_pos rfl) hall
    refine hadd.congr ?_
    intro t e he
    by_cases ht : t = k
    · rw [if_pos ht, if_pos ht, if_pos ht, ht, List.nil_append]
    · rw [if_neg ht, if_neg ht, if_neg ht]

/-- A batch that is not marked as trimmed is added whole. -/
theorem mem_toAdmit {p : IngestParams} {batch : ResidentBatch} {overBudget : Bool}
    (h : isTrimmed p s batch overBudget = false) : ∀ i ∈ batch.ids, i ∈ (toAdmit p s batch
      overBudget).ids := by
  intro i hi
  cases overBudget with
  | false => exact hi
  | true =>
    obtain ⟨m, hm⟩ : ∃ m, (toAdmit p s batch true).ids = batch.ids.take m := ⟨_, rfl⟩
    rw [isTrimmed, Bool.true_and, decide_eq_false_iff_not, hm, List.length_take] at h
    rw [hm, List.take_of_length_le (by omega)]
    exact hi

theorem unmapped_toAdmit {p : IngestParams} {batch : ResidentBatch} (h : Unmapped batch)
    (overBudget : Bool) : Unmapped (toAdmit p s batch overBudget) := by
  cases overBudget with
  | false => exact h
  | true => exact h

/-- A batch over budget is trimmed: every tile that could go is gone, and it does not fit. -/
theorem isTrimmed_of_over {p : IngestParams} {grid : TileGridContext} {batch : ResidentBatch}
    {plan : EvictionPlan} (hbatch : AsDecoded batch) (hplan : planFor p grid s batch = .ok plan)
    (hover : plan.overBudget = true) (hpos : batch.totalVertices ≠ 0) :
    isTrimmed p (s.evictAll p.viewportTileKeys plan.evict).1 batch true = true := by
  have hfixed := fixedVertices_evictAll p.viewportTileKeys s plan.evict
  have hroom := planFor_over hplan hover
  generalize (s.evictAll p.viewportTileKeys plan.evict).1 = s₁ at hfixed ⊢
  rw [isTrimmed, Bool.true_and, decide_eq_true_eq]
  refine trimBatch_lt hbatch.length hbatch.vertices (by omega) ?_
  rw [fixedVertices] at hfixed
  omega

theorem Holds.ingest {p : IngestParams} {batch : ResidentBatch}
    (h : Holds handed (fun _ => False) s) (hnew : s.tiles.get k = none → handed k = [])
    (hspares : (Call.ingest p k batch).Spares s) :
    Holds (fun t => handed t ++ if t = k then batch.ids else []) (fun _ => False)
      (ingestTileBatch p s k batch).1 := by
  obtain ⟨hbatch, hplan, hown⟩ := hspares
  have hunmapped := hbatch.unmapped
  by_cases hfits : s.totalVertices + batch.totalVertices ≤ p.maxResidentVertices
  · have hroom : makeRoom p s batch = .ok (s, [], false) := if_pos hfits
    rw [fst_ingestTileBatch hroom]
    exact h.admitted (unmapped_toAdmit hunmapped _) (fun hk _ => hnew hk) mem_toAdmit
  · cases hgrid : p.grid with
    | none =>
      have hroom : makeRoom p s batch = .ok (s, [], true) := by
        rw [makeRoom, if_neg hfits, hgrid]
      rw [fst_ingestTileBatch hroom]
      exact h.admitted (unmapped_toAdmit hunmapped _) (fun hk _ => hnew hk) mem_toAdmit
    | some grid =>
      obtain ⟨plan, hok⟩ := hplan grid hgrid
      have hroom : makeRoom p s batch = .ok ((s.evictAll p.viewportTileKeys plan.evict).1,
          (s.evictAll p.viewportTileKeys plan.evict).2, plan.overBudget) := by
        rw [makeRoom, if_neg hfits, hgrid]
        dsimp only
        rw [hok]
      rw [fst_ingestTileBatch hroom]
      refine (h.evictAll plan.evict).admitted (unmapped_toAdmit hunmapped _) ?_ mem_toAdmit
      intro hgone htrimmed
      cases hk : s.tiles.get k with
      | none => exact hnew hk
      | some e =>
        -- The eviction took the tile: then the batch was trimmed.
        obtain ⟨a, ha, hprot, hreach⟩ := reaches_evictAll s plan.evict hk hgone
        have hresident : s.isTileResident k = true := by
          rw [isTileResident, hk]
          rfl
        exfalso
        refine hown ⟨hresident, grid, plan, hgrid, hok, ?_, a, ha, hprot, hreach⟩
        by_cases hzero : batch.totalVertices = 0
        · exact Or.inr hzero
        · refine Or.inl ?_
          cases hover : plan.overBudget with
          | false => rfl
          | true =>
            rw [hover, isTrimmed_of_over hbatch hok hover hzero] at htrimmed
            cases htrimmed

end TileResidentSet

namespace Boundary

open TileResidentSet

/-- What holds between any two calls. -/
def Sound (b : Boundary) : Prop :=
  Holds b.handed (fun _ => False) b.set ∧ ∀ t, b.set.tiles.get t = none → b.handed t = []

theorem sound_start : start.Sound :=
  ⟨⟨nofun, nofun, fun _ _ _ h => nomatch h⟩, fun _ _ => rfl⟩

/-- A call keeps what was handed to the tiles that stay. -/
theorem Sound.after {b : Boundary} (h : b.Sound) {c : Call} (hc : c.Spares b.set) :
    (b.after c).Sound := by
  have hset : Holds (fun t => b.handed t ++ c.hands t) (fun _ => False) (c.set b.set) := by
    cases c with
    | ingest p tileKey batch => exact h.1.ingest (h.2 tileKey) hc
    | evict tileKey isProtected =>
      refine Holds.congr h.1.evictTile ?_
      exact fun _ _ _ => List.append_nil _
    | markPartial tileKey =>
      refine Holds.congr h.1.markTilePartial ?_
      exact fun _ _ _ => List.append_nil _
    | markEmpty tileKey isPartial =>
      refine Holds.congr (h.1.markTileResidentEmpty isPartial (h.2 tileKey)) ?_
      exact fun _ _ _ => List.append_nil _
    | clear => exact ⟨nofun, nofun, fun _ _ _ h => nomatch h⟩
  refine ⟨hset.congr ?_, ?_⟩
  · intro t e he
    show (if (c.set b.set).isTileResident t then _ else _) = _
    rw [isTileResident, he]
    rfl
  · intro t ht
    change (c.set b.set).tiles.get t = none at ht
    show (if (c.set b.set).isTileResident t then _ else _) = _
    rw [isTileResident, ht]
    rfl

theorem Sound.complete {b : Boundary} (h : b.Sound) : b.Complete := by
  intro t ht i hi
  rw [isTileComplete] at ht
  cases he : b.set.tiles.get t with
  | none =>
    rw [he] at ht
    cases ht
  | some e =>
    rw [he] at ht
    have hpart : e.isPartial = false := by
      cases hp : e.isPartial with
      | false => rfl
      | true =>
        simp only [hp] at ht
        cases ht
    obtain ⟨hknown, _⟩ := h.1.kept t e (fun hf => hf) he hpart i hi
    obtain ⟨t', e', he', hmem⟩ := h.1.known i hknown
    obtain ⟨batch, hbatch, hid⟩ := List.mem_flatMap.1 hmem
    exact ⟨t', e', batch, he', hbatch, hid⟩

end Boundary

/-- In every order of calls none of which evicts the tile it fills, a complete tile misses nothing
it was handed, at any boundary. -/
theorem run_complete {calls : List Call}
    (h : ∀ pre c post, calls = pre ++ c :: post → c.Spares (Boundary.run pre).set) :
    ∀ pre, pre <+: calls → (Boundary.run pre).Complete := by
  intro pre hpre
  obtain ⟨rest, hrest⟩ := hpre
  suffices hsound : (Boundary.run pre).Sound from hsound.complete
  induction pre using List.reverseRecOn generalizing rest with
  | nil => exact Boundary.sound_start
  | append_singleton pre c ih =>
    have hpre : (Boundary.run pre).Sound := ih (c :: rest) (by rw [← hrest, List.append_assoc]; rfl)
    have hc := h pre c rest (by rw [← hrest, List.append_assoc]; rfl)
    rw [Boundary.run, List.foldl_append, List.foldl_cons, List.foldl_nil]
    exact hpre.after hc

/-- A batch of one point. -/
def onePoint (id : UInt64) : ResidentBatch :=
  { streamHandle := "s", batchSeq := 0, ids := [id], parts := [[[[(⟨0⟩, ⟨0⟩)]]]],
    partToRow := [0], partCount := 1, totalVertices := 1, attributes := .unprojected,
    filter := none }

/-- A budget of some vertices, and a viewport that covers no tile. -/
def away (maxResidentVertices : Int) (grid : Option TileGridContext) : IngestParams where
  grid := grid
  viewportTileKeys _ := false
  maxResidentVertices := maxResidentVertices
  priorExtent := none
  extentOfBatch := extentOfBatch
  unionBbox a _ := a

theorem asDecoded_onePoint (id : UInt64) : AsDecoded (onePoint id) :=
  ⟨nofun, rfl, rfl⟩

/-- Two batches of one tile, the second of which makes room by evicting the tile itself: it looks
complete with the second alone. -/
theorem run_complete_evicts_own :
    ¬(Boundary.run [.ingest (away 1 (some ⟨fun _ => .ok ⟨0⟩⟩)) "0:0" (onePoint 1),
      .ingest (away 1 (some ⟨fun _ => .ok ⟨0⟩⟩)) "0:0" (onePoint 2)]).Complete := by
  have hentries : (Boundary.run [.ingest (away 1 (some ⟨fun _ => .ok ⟨0⟩⟩)) "0:0" (onePoint 1),
      .ingest (away 1 (some ⟨fun _ => .ok ⟨0⟩⟩)) "0:0" (onePoint 2)]).set.tiles.entries =
        [("0:0", ⟨[onePoint 2], 1, 1, false⟩)] := rfl
  intro h
  obtain ⟨t, e, batch, he, hbatch, hid⟩ := h "0:0" rfl 1 List.mem_cons_self
  have hmem := OrderedMap.mem_of_lookup he
  rw [hentries, List.mem_singleton] at hmem
  cases hmem
  rw [List.mem_singleton.1 hbatch] at hid
  exact absurd hid (by decide)

/-- Two tiles that deliver one feature, and the eviction of the first. -/
theorem run_complete_shared :
    (Boundary.run [.ingest (away 10 none) "0:0" (onePoint 1),
      .ingest (away 10 none) "0:1" (onePoint 1), .evict "0:0" fun _ => false]).Complete := by
  refine run_complete ?_ _ (List.prefix_refl _)
  intro pre c post heq
  have hmem : c ∈ [Call.ingest (away 10 none) "0:0" (onePoint 1),
      .ingest (away 10 none) "0:1" (onePoint 1), .evict "0:0" fun _ => false] := by
    rw [heq]
    exact List.mem_append_right _ List.mem_cons_self
  rw [List.mem_cons, List.mem_cons, List.mem_singleton] at hmem
  rcases hmem with hc | hc | hc
  · rw [hc]
    exact ⟨asDecoded_onePoint 1, nofun, fun hown => nomatch hown.2⟩
  · rw [hc]
    exact ⟨asDecoded_onePoint 1, nofun, fun hown => nomatch hown.2⟩
  · rw [hc]
    exact trivial

end SpatialIde.Shell.Canvas
