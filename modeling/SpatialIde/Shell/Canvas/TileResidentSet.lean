import SpatialIde.Lib.Intervals
import SpatialIde.Lib.OrderedMap
import SpatialIde.Shell.Canvas.DecodeBatch

/-! # Residency by tile

The batches each tile delivered, without the features another tile already holds.  The tile that
stores a feature owns its id; a tile that delivered the id later is one of its suppressors, and goes
when the owner goes.
-/

namespace SpatialIde.Shell.Canvas

open Lib

structure TileEntry where
  batches : List ResidentBatch
  vertices : Nat
  features : Nat
  isPartial : Bool
  deriving DecidableEq, Repr

structure TileIngestResult where
  accepted : Option ResidentBatch
  duplicatesDropped : Nat
  deriving DecidableEq, Repr

structure TileResidentSet where
  tiles : OrderedMap String TileEntry
  knownIds : List UInt64
  /-- The tile whose batches hold an id. -/
  idOwner : OrderedMap UInt64 String
  /-- The other tiles that delivered an id. -/
  suppressorsOf : OrderedMap UInt64 (List String)
  suppressedIdsByTile : OrderedMap String (List UInt64)
  totalVertices : Int
  totalFeatures : Int

namespace TileResidentSet

def new : TileResidentSet := ⟨.empty, [], .empty, .empty, .empty, 0, 0⟩

variable (s : TileResidentSet)

def isTileResident (tileKey : String) : Bool := (s.tiles.get tileKey).isSome

def isTileComplete (tileKey : String) : Bool :=
  match s.tiles.get tileKey with
  | some entry => !entry.isPartial
  | none => false

def isTilePartial (tileKey : String) : Bool :=
  match s.tiles.get tileKey with
  | some entry => entry.isPartial
  | none => false

def residentTileKeys : List String := s.tiles.keys

def tileVertexCount (tileKey : String) : Nat :=
  match s.tiles.get tileKey with
  | some entry => entry.vertices
  | none => 0

/-! ### Marks -/

def markTileResidentEmpty (tileKey : String) (isPartial : Bool) : TileResidentSet :=
  match s.tiles.get tileKey with
  | none => { s with tiles := s.tiles.set tileKey ⟨[], 0, 0, isPartial⟩ }
  | some existing =>
    if isPartial then { s with tiles := s.tiles.set tileKey { existing with isPartial := true } }
    else s

def markTilePartial (tileKey : String) : TileResidentSet :=
  match s.tiles.get tileKey with
  | some entry => { s with tiles := s.tiles.set tileKey { entry with isPartial := true } }
  | none => s

def markTileComplete (tileKey : String) : TileResidentSet :=
  match s.tiles.get tileKey with
  | some entry => { s with tiles := s.tiles.set tileKey { entry with isPartial := false } }
  | none => s

/-! ### Adding a batch -/

/-- A tile that delivered an id another one owns. -/
def suppress (tileKey : String) (id : UInt64) : TileResidentSet :=
  { s with
    suppressorsOf := s.suppressorsOf.set id (addOnce ((s.suppressorsOf.get id).getD []) tileKey)
    suppressedIdsByTile :=
      s.suppressedIdsByTile.set tileKey (addOnce ((s.suppressedIdsByTile.get tileKey).getD []) id) }

/-- What the scan of a batch has found: the rows to keep, and how many it drops. -/
structure Scan where
  set : TileResidentSet
  keepIdx : List Nat
  duplicatesDropped : Nat

def Scan.row (tileKey : String) (acc : Scan) (row : UInt64 × Nat) : Scan :=
  if row.1 ∈ acc.set.knownIds then
    -- A tile never suppresses what it owns itself.
    if acc.set.idOwner.get row.1 ≠ some tileKey then
      ⟨acc.set.suppress tileKey row.1, acc.keepIdx, acc.duplicatesDropped + 1⟩
    else ⟨acc.set, acc.keepIdx, acc.duplicatesDropped + 1⟩
  else ⟨acc.set, acc.keepIdx ++ [row.2], acc.duplicatesDropped⟩

def scan (tileKey : String) (ids : List UInt64) : Scan :=
  ids.zipIdx.foldl (Scan.row tileKey) ⟨s, [], 0⟩

/-- The attribute block of the kept rows, each read from the source row it came from. -/
def keptAttributes (attributes : Attributes) (keepIdx : List Nat) : Except String Attributes :=
  match attributes with
  | .unprojected => .ok .unprojected
  | .notHeld => .ok .notHeld
  | .held block =>
    match block.rows with
    | some _ =>
      .error "a batch whose attribute block already holds a row map cannot be deduplicated again"
    | none => .ok (.held { block with rows := some keepIdx })

/-- The kept rows of a batch, each with all of its parts, re-indexed. -/
def keptRows (batch : ResidentBatch) (keepIdx : List Nat) : Except String ResidentBatch :=
  match keptAttributes batch.attributes keepIdx with
  | .error text => .error text
  | .ok attributes =>
    let parts := keepIdx.map fun srcIdx => batch.parts.getD srcIdx []
    let partRows := owners 0 parts
    .ok
      { batch with
        ids := keepIdx.map fun srcIdx => batch.ids.getD srcIdx 0
        parts := parts
        partToRow := partRows
        partCount := partRows.length
        totalVertices := (parts.map verticesOf).sum
        attributes := attributes }

/-- A batch a tile stores from here on, and the ids it owns by it. -/
def store (tileKey : String) (batch : ResidentBatch) : TileResidentSet :=
  match s.tiles.get tileKey with
  | none => s
  | some entry =>
    { s with
      tiles := s.tiles.set tileKey
        { entry with
          batches := entry.batches ++ [batch]
          vertices := entry.vertices + batch.totalVertices
          features := entry.features + batch.ids.length }
      knownIds := batch.ids.foldl addOnce s.knownIds
      idOwner := batch.ids.foldl (fun m id => m.set id tileKey) s.idOwner
      totalVertices := s.totalVertices + batch.totalVertices
      totalFeatures := s.totalFeatures + batch.ids.length }

/-- The set is returned as an error leaves it. -/
def addBatch (tileKey : String) (batch : ResidentBatch) (isPartial : Bool) :
    TileResidentSet × Except String TileIngestResult :=
  let scan := s.scan tileKey batch.ids
  let s := scan.set.markTileResidentEmpty tileKey isPartial
  if scan.keepIdx = [] then (s, .ok ⟨none, scan.duplicatesDropped⟩)
  else
    match if scan.duplicatesDropped = 0 then .ok batch else keptRows batch scan.keepIdx with
    | .error text => (s, .error text)
    | .ok trimmed => (s.store tileKey trimmed, .ok ⟨some trimmed, scan.duplicatesDropped⟩)

/-! ### Evicting a tile -/

/-- A tile is no suppressor of an id any more. -/
def unsuppress (tileKey : String) (id : UInt64) : TileResidentSet :=
  match s.suppressorsOf.get id with
  | none => s
  | some suppressors =>
    let left := suppressors.filter fun t => t ≠ tileKey
    if left = [] then { s with suppressorsOf := s.suppressorsOf.delete id }
    else { s with suppressorsOf := s.suppressorsOf.set id left }

/-- The deliveries of a tile that were suppressed. -/
def forgetSuppressed (tileKey : String) : TileResidentSet :=
  match s.suppressedIdsByTile.get tileKey with
  | none => s
  | some ids =>
    let s := ids.foldl (fun s id => s.unsuppress tileKey id) s
    { s with suppressedIdsByTile := s.suppressedIdsByTile.delete tileKey }

/-- A protected suppressor of an id whose owner goes: it stays, incomplete. -/
def divert (t : String) (id : UInt64) : TileResidentSet :=
  let s :=
    match s.suppressedIdsByTile.get t with
    | none => s
    | some ids =>
      let left := ids.filter fun i => i ≠ id
      if left = [] then { s with suppressedIdsByTile := s.suppressedIdsByTile.delete t }
      else { s with suppressedIdsByTile := s.suppressedIdsByTile.set t left }
  s.markTilePartial t

/-- The set, and the tiles to evict after. -/
abbrev Cascade := TileResidentSet × List String

def releaseSuppressor (isProtected : String → Bool) (id : UInt64) (acc : Cascade) (t : String) :
    Cascade :=
  if isProtected t then (acc.1.divert t id, acc.2) else (acc.1, addOnce acc.2 t)

/-- An id whose owner goes. -/
def release (isProtected : String → Bool) (acc : Cascade) (id : UInt64) : Cascade :=
  let s := acc.1
  let s := { s with knownIds := s.knownIds.filter fun i => i ≠ id, idOwner := s.idOwner.delete id }
  match s.suppressorsOf.get id with
  | none => (s, acc.2)
  | some suppressors =>
    let acc := suppressors.foldl (releaseSuppressor isProtected id) (s, acc.2)
    ({ acc.1 with suppressorsOf := acc.1.suppressorsOf.delete id }, acc.2)

/-- A tile leaves the set, without those it takes along. -/
def dropTile (isProtected : String → Bool) (tileKey : String) (entry : TileEntry) : Cascade :=
  let s :=
    { s with
      tiles := s.tiles.delete tileKey
      totalVertices := s.totalVertices - entry.vertices
      totalFeatures := s.totalFeatures - entry.features }
  let s := s.forgetSuppressed tileKey
  (entry.batches.flatMap ResidentBatch.ids).foldl (release isProtected) (s, [])

/-- The eviction, at most `n` tiles deep. -/
def evictWithin (isProtected : String → Bool) :
    Nat → TileResidentSet → String → TileResidentSet × List String
  | 0, s, _ => (s, [])
  | n + 1, s, tileKey =>
    match s.tiles.get tileKey with
    | none => (s, [])
    | some entry =>
      if isProtected tileKey then (s, [])
      else
        let (s, cascadeTiles) := s.dropTile isProtected tileKey entry
        (cascadeTiles.filter fun t => t ≠ tileKey).foldl
          (fun (acc : TileResidentSet × List String) t =>
            let (s, evicted) := evictWithin isProtected n acc.1 t
            (s, acc.2 ++ evicted))
          (s, [tileKey])

/-- Every tile the eviction goes into is gone from the set. -/
def evictTile (tileKey : String) (isProtected : String → Bool) : TileResidentSet × List String :=
  evictWithin isProtected s.tiles.size s tileKey

def clear : TileResidentSet := new

end TileResidentSet

end SpatialIde.Shell.Canvas
