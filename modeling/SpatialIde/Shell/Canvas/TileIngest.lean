import Mathlib.Data.List.Sort
import SpatialIde.Shell.Canvas.TileResidentSet

/-! # Taking a batch in

A batch that would exceed the vertex budget first evicts what the viewport does not cover, farthest
first; where that does not make room, only its leading features are taken.
-/

namespace SpatialIde.Shell.Canvas

open Lib

def INITIAL_TILE_KEY : String := "initial-untiled-look"

/-! ### The plan -/

structure EvictionPlan where
  evict : List String
  overBudget : Bool
  deriving DecidableEq, Repr

structure Candidate where
  key : String
  vertices : Nat
  distance : F64
  deriving DecidableEq, Repr

/-- Tiles in their order until the projection fits. -/
def planLoop (maxResidentVertices : Int) : List (String × Nat) → List String × Int →
    List String × Int
  | [], acc => acc
  | (key, vertices) :: rest, (evict, projected) =>
    if projected ≤ maxResidentVertices then (evict, projected)
    else planLoop maxResidentVertices rest (evict ++ [key], projected - vertices)

/-- `distanceToViewCentre` throws on a key that is not one of a grid cell. -/
def planTileEviction (residentTileKeys : List String) (tileVertices : String → Nat)
    (viewportTileKeys : String → Bool) (incomingVertices : Nat)
    (currentTotalVertices maxResidentVertices : Int)
    (distanceToViewCentre : String → Except String F64) (reservedTileKeys : String → Bool) :
    Except String EvictionPlan := do
  let projectedNoEviction := currentTotalVertices + incomingVertices
  if projectedNoEviction ≤ maxResidentVertices then pure ⟨[], false⟩
  else
    let cells := residentTileKeys.filter fun k => !viewportTileKeys k && !reservedTileKeys k
    let candidates ← cells.mapM fun k => do
      pure (⟨k, tileVertices k, ← distanceToViewCentre k⟩ : Candidate)
    -- Farthest first; tiles at one distance keep their order.
    let evictable := candidates.insertionSort fun a b => b.distance.le a.distance = true
    let reservedEvictable :=
      residentTileKeys.filter fun k => reservedTileKeys k && !viewportTileKeys k
    let (evict, projected) :=
      planLoop maxResidentVertices
        (evictable.map (fun t => (t.key, t.vertices)) ++
          reservedEvictable.map fun k => (k, tileVertices k))
        ([], projectedNoEviction)
    pure ⟨evict, decide (maxResidentVertices < projected)⟩

/-! ### The trim -/

/-- The vertices, features and parts of the longest run of features the budget holds. -/
def trimLoop (remainingVertices : Int) : List (List Part) → Nat × Nat × Nat → Nat × Nat × Nat
  | [], acc => acc
  | featureParts :: rest, (vertices, count, partsKept) =>
    if remainingVertices < vertices + verticesOf featureParts then (vertices, count, partsKept)
    else
      trimLoop remainingVertices rest
        (vertices + verticesOf featureParts, count + 1, partsKept + featureParts.length)

/-- The loop counts the features and the parts of a run from the front; it is shorter than the whole
where the whole does not fit. -/
theorem trimLoop_eq (remaining : Int) (pss : List (List Part)) (v c p : Nat) :
    ∃ v' m, m ≤ pss.length ∧
      trimLoop remaining pss (v, c, p) = (v', c + m, p + (pss.take m).flatten.length) ∧
      (m = pss.length → pss ≠ [] → v + (pss.map verticesOf).sum ≤ remaining) := by
  induction pss generalizing v c p with
  | nil => exact ⟨v, 0, Nat.le_refl 0, rfl, fun _ h => absurd rfl h⟩
  | cons ps pss ih =>
    rw [trimLoop]
    split_ifs with hroom
    · refine ⟨v, 0, Nat.zero_le _, rfl, ?_⟩
      intro h
      rw [List.length_cons] at h
      omega
    · obtain ⟨v', m, hm, heq, hfits⟩ := ih (v + verticesOf ps) (c + 1) (p + ps.length)
      refine ⟨v', m + 1, Nat.succ_le_succ hm, ?_, ?_⟩
      · rw [heq, List.take_succ_cons, List.flatten_cons, List.length_append]
        congr 2 <;> omega
      · intro h _
        rw [List.map_cons, List.sum_cons]
        rw [List.length_cons] at h
        by_cases hnil : pss = []
        · rw [hnil, List.map_nil, List.sum_nil]
          omega
        · have hsum := hfits (by omega) hnil
          omega

def trimBatchToVertexBudget (batch : ResidentBatch) (remainingVertices : Int) : ResidentBatch :=
  let (vertices, count, partsKept) :=
    trimLoop remainingVertices (batch.parts.take batch.ids.length) (0, 0, 0)
  { batch with
    ids := batch.ids.take count
    parts := batch.parts.take count
    partToRow := batch.partToRow.take partsKept
    partCount := partsKept
    totalVertices := vertices }

/-! ### The ingest -/

/-- How far a tile is from the centre of the view: its key parsed, its cell measured. -/
structure TileGridContext where
  tileDistance : String → Except String F64

structure TileBatchIngestResult where
  rowsAdmitted : Nat
  duplicatesDropped : Nat
  evictedTileKeys : List String
  overBudget : Bool
  /-- The extent of the rows before the trim, and of those taken. -/
  unionedExtent : Option AuthoritativeBbox
  batchExtent : Option AuthoritativeBbox
  deriving DecidableEq, Repr

/-- What the caller passes besides the set, the tile and its batch. -/
structure IngestParams where
  grid : Option TileGridContext
  viewportTileKeys : String → Bool
  maxResidentVertices : Int
  priorExtent : Option AuthoritativeBbox
  extentOfBatch : List (List Part) → Option AuthoritativeBbox
  unionBbox : Option AuthoritativeBbox → Option AuthoritativeBbox → Option AuthoritativeBbox

namespace TileResidentSet

/-- Every tile of a plan, in its order. -/
def evictAll (s : TileResidentSet) (isProtected : String → Bool) (keys : List String) :
    TileResidentSet × List String :=
  keys.foldl
    (fun (acc : TileResidentSet × List String) key =>
      let (s, evicted) := acc.1.evictTile key isProtected
      (s, acc.2 ++ evicted))
    (s, [])

end TileResidentSet

def isReservedTileKey (key : String) : Bool := key = INITIAL_TILE_KEY

/-- The plan of a batch. -/
def planFor (p : IngestParams) (grid : TileGridContext) (s : TileResidentSet)
    (batch : ResidentBatch) : Except String EvictionPlan :=
  planTileEviction s.residentTileKeys s.tileVertexCount p.viewportTileKeys batch.totalVertices
    s.totalVertices p.maxResidentVertices grid.tileDistance isReservedTileKey

/-- The set with room made for a batch, what was evicted, and whether the batch is over budget. -/
def makeRoom (p : IngestParams) (s : TileResidentSet) (batch : ResidentBatch) :
    Except String (TileResidentSet × List String × Bool) :=
  if s.totalVertices + batch.totalVertices ≤ p.maxResidentVertices then .ok (s, [], false)
  else
    match p.grid with
    | none => .ok (s, [], true)
    | some grid =>
      match planFor p grid s batch with
      | .error text => .error text
      | .ok plan =>
        let (s, evicted) := s.evictAll p.viewportTileKeys plan.evict
        .ok (s, evicted, plan.overBudget)

/-- The batch as it is added. -/
def toAdmit (p : IngestParams) (s : TileResidentSet) (batch : ResidentBatch) (overBudget : Bool) :
    ResidentBatch :=
  if overBudget then
    trimBatchToVertexBudget batch (max 0 (p.maxResidentVertices - s.totalVertices))
  else batch

def isTrimmed (p : IngestParams) (s : TileResidentSet) (batch : ResidentBatch)
    (overBudget : Bool) : Bool :=
  overBudget && decide ((toAdmit p s batch overBudget).ids.length < batch.ids.length)

/-- The set is returned as an error leaves it. -/
def ingestTileBatch (p : IngestParams) (s : TileResidentSet) (tileKey : String)
    (batch : ResidentBatch) : TileResidentSet × Except String TileBatchIngestResult :=
  match makeRoom p s batch with
  | .error text => (s, .error text)
  | .ok (s, evictedTileKeys, overBudget) =>
    match s.addBatch tileKey (toAdmit p s batch overBudget) (isTrimmed p s batch overBudget) with
    | (s, .error text) => (s, .error text)
    | (s, .ok result) =>
      (s, .ok
        { rowsAdmitted := (result.accepted.map fun b => b.ids.length).getD 0
          duplicatesDropped := result.duplicatesDropped
          evictedTileKeys := evictedTileKeys
          overBudget := overBudget
          unionedExtent := p.unionBbox p.priorExtent (p.extentOfBatch batch.parts)
          batchExtent := result.accepted.bind fun b => p.extentOfBatch b.parts })

/-- Room is made, then the batch is added. -/
theorem fst_ingestTileBatch {p : IngestParams} {s s₁ : TileResidentSet} {tileKey : String}
    {batch : ResidentBatch} {evicted : List String} {overBudget : Bool}
    (h : makeRoom p s batch = .ok (s₁, evicted, overBudget)) :
    (ingestTileBatch p s tileKey batch).1 =
      (s₁.addBatch tileKey (toAdmit p s₁ batch overBudget) (isTrimmed p s₁ batch overBudget)).1 := by
  rw [ingestTileBatch, h]
  dsimp only
  rcases s₁.addBatch tileKey (toAdmit p s₁ batch overBudget) (isTrimmed p s₁ batch overBudget)
    with ⟨s₂, result⟩
  cases result with
  | error text => rfl
  | ok result => rfl

end SpatialIde.Shell.Canvas
