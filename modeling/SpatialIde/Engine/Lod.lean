import SpatialIde.Engine.Index.Cache
import SpatialIde.Lib.Binary64

/-! # The tiers of a source

`build_tiers` keeps three derived files in a folder named by the source's content hash, and a
manifest that records them.  A call reads the manifest once, reuses or rebuilds one tier after the
other, and writes the manifest last; it may stop at any step.  The manifest is the list of its
records.
-/

namespace SpatialIde.Engine

open Lib

/-- Minimum triangle areas in square metres: 0.1, 1 and 5. -/
def LOD_MIN_TRIANGLE_AREA_LADDER : List F64 :=
  [⟨0x3FB999999999999A⟩, ⟨0x3FF0000000000000⟩, ⟨0x4014000000000000⟩]

def LOD_BUILDER_VERSION : UInt32 := 1

def LOD_SIMPLIFIER : String := "geo::SimplifyVwPreserve"

structure LodTierKey where
  sourceContentHash : String
  builderVersion : UInt32
  minTriangleAreaSquareMetres : F64
  simplifier : String
  idColumn : String
  deriving DecidableEq, Repr

def LodTierKey.new (sourceContentHash : String) (area : F64) (idColumn : String) : LodTierKey :=
  ⟨sourceContentHash, LOD_BUILDER_VERSION, area, LOD_SIMPLIFIER, idColumn⟩

inductive TierMiss where
  | absent
  | keyMismatch
  | sourceChanged
  deriving DecidableEq, Repr

structure TierRecord where
  key : LodTierKey
  tier : Nat
  bytes : Nat
  sha256 : String
  sourceValidity : Option ValidityHeuristic
  deriving DecidableEq, Repr

/-- Found by path, admitted by key. -/
def TierRecord.admit (r : TierRecord) (key : LodTierKey)
    (sourceValidity : Option ValidityHeuristic) : Except TierMiss Unit :=
  if r.key ≠ key then .error .keyMismatch
  else if ValidityHeuristic.failClosedMatches r.sourceValidity sourceValidity = false then
    .error .sourceChanged
  else .ok ()

/-- A tier file, and the key that `write_tier` completed it for, where it did. -/
structure TierFile where
  content : List UInt8
  completed : Option LodTierKey
  deriving DecidableEq, Repr

/-- `manifest` is `none` where it is absent or does not parse. -/
structure Folder where
  tiers : Nat → Option TierFile
  manifest : Option (List TierRecord)

def Folder.new : Folder := ⟨fun _ => none, none⟩

/-- `read_manifest`; of two records for a tier the later one. -/
def readManifest (manifest : Option (List TierRecord)) (tier : Nat) : Option TierRecord :=
  (manifest.getD []).reverse.find? fun r => r.tier = tier

/-- What a call reads of its source. -/
structure TierSource where
  contentHash : String
  idColumn : String
  bytes : Nat
  validity : Option ValidityHeuristic
  deriving DecidableEq, Repr

structure TierOutcome where
  record : TierRecord
  /-- `none` where the tier on disk was reused. -/
  miss : Option TierMiss
  deriving DecidableEq, Repr

/-- Where a call is with its next tier. -/
inductive TierPhase where
  | looking
  | rebuilding (miss : TierMiss)
  | written (miss : TierMiss)
  deriving DecidableEq, Repr

structure TierCall where
  source : TierSource
  onDisk : Option (List TierRecord)
  prepared : Bool
  outcomes : List TierOutcome
  phase : TierPhase
  deriving DecidableEq, Repr

/-- The number of the call's next tier. -/
def TierCall.tier (c : TierCall) : Nat := c.outcomes.length + 1

/-- The key of the call's next tier. -/
def TierCall.key (c : TierCall) : LodTierKey :=
  .new c.source.contentHash (LOD_MIN_TRIANGLE_AREA_LADDER.getD c.outcomes.length .zero) c.source.idColumn

/-- The digest of a file, and the two bounds that are computed in doubles from the bytes of the
source: `LOD_TIER_MAX_RELATIVE_BYTES` and `LOD_TIER_SET_HARD_BOUND_RELATIVE_BYTES` times them. -/
structure TierParams where
  digest : List UInt8 → String
  limit : Nat → Nat
  hardBound : Nat → Nat

/-- The folders by content hash, the call under way, and what the last call returned where it ended
well. -/
structure TierState where
  folders : String → Folder
  call : Option TierCall
  reported : Option (String × List TierOutcome)

def TierState.new : TierState := ⟨fun _ => .new, none, none⟩

/-- How the manifest is written: to the end, not at all, or in part. -/
inductive ManifestWrite where
  | written
  | untouched
  | torn
  deriving DecidableEq, Repr

inductive TierEvent where
  | call (source : TierSource)
  /-- Cancelled in front of a tier. -/
  | cancel
  /-- Look at the next tier: what `is_file` says of a file that is there, and whether its length can
  be read. -/
  | look (isFile readable : Bool)
  /-- The preflight and the folder. -/
  | prepare (available : Option Nat) (created : Bool)
  | write (content : List UInt8)
  /-- `write_tier` fails; what it has put into the file, and whether the file can be removed. -/
  | writeFailed (part : Option (List UInt8)) (removed : Bool)
  /-- Hash and measure what was written. -/
  | measure (ok removed : Bool)
  | finish (created : Bool) (manifest : ManifestWrite)
  deriving DecidableEq, Repr

namespace TierState

def folder (s : TierState) (c : TierCall) : Folder := s.folders c.source.contentHash

def setFolder (s : TierState) (c : TierCall) (f : Folder) : TierState :=
  { s with folders := Function.update s.folders c.source.contentHash f }

def setTier (s : TierState) (c : TierCall) (file : Option TierFile) : TierState :=
  let f := s.folder c
  s.setFolder c { f with tiers := Function.update f.tiers c.tier file }

/-- The call fails. -/
def stop (s : TierState) : TierState := { s with call := none }

def goOn (s : TierState) (c : TierCall) (phase : TierPhase) : TierState :=
  { s with call := some { c with phase := phase } }

def push (s : TierState) (c : TierCall) (o : TierOutcome) : TierState :=
  { s with call := some { c with outcomes := c.outcomes ++ [o], phase := .looking } }

/-- The record on disk that may be reused, or why there is none. -/
def reusable (s : TierState) (c : TierCall) (isFile readable : Bool) : Except TierMiss TierRecord :=
  match readManifest c.onDisk c.tier with
  | none => .error .absent
  | some found =>
    match isFile, (s.folder c).tiers c.tier with
    | true, some file =>
      match found.admit c.key c.source.validity with
      | .error miss => .error miss
      | .ok () =>
        if readable && file.content.length = found.bytes then .ok found else .error .absent
    | _, _ => .error .absent

variable (p : TierParams)

def look (s : TierState) (c : TierCall) (isFile readable : Bool) : Option TierState :=
  if c.phase = .looking ∧ c.outcomes.length < LOD_MIN_TRIANGLE_AREA_LADDER.length then
    match s.reusable c isFile readable with
    | .ok record =>
      if p.limit c.source.bytes < record.bytes then some s.stop
      else some (s.push c ⟨record, none⟩)
    | .error miss => some (s.goOn c (.rebuilding miss))
  else none

def prepare (s : TierState) (c : TierCall) (available : Option Nat) (created : Bool) :
    Option TierState :=
  match c.phase with
  | .rebuilding miss =>
    if c.prepared then none
    else
      match available with
      | none => some s.stop
      | some available =>
        if available < p.hardBound c.source.bytes ∨ created = false then some s.stop
        else some (s.goOn { c with prepared := true } (.rebuilding miss))
  | _ => none

/-- `write_tier` completes. -/
def write (s : TierState) (c : TierCall) (content : List UInt8) : Option TierState :=
  match c.phase with
  | .rebuilding miss =>
    if c.prepared then
      some ((s.setTier c (some ⟨content, some c.key⟩)).goOn c (.written miss))
    else none
  | _ => none

def writeFailed (s : TierState) (c : TierCall) (part : Option (List UInt8)) (removed : Bool) :
    Option TierState :=
  match c.phase with
  | .rebuilding _ =>
    if c.prepared then
      if removed then some (s.setTier c none).stop
      else
        match part with
        | some part => some (s.setTier c (some ⟨part, none⟩)).stop
        | none => some s.stop
    else none
  | _ => none

def measure (s : TierState) (c : TierCall) (ok removed : Bool) : Option TierState :=
  match c.phase, (s.folder c).tiers c.tier with
  | .written miss, some file =>
    if ok = false then some s.stop
    else if p.limit c.source.bytes < file.content.length then
      some (if removed then (s.setTier c none).stop else s.stop)
    else
      some (s.push c
        ⟨⟨c.key, c.tier, file.content.length, p.digest file.content,
          c.source.validity⟩, some miss⟩)
  | _, _ => none

def finish (s : TierState) (c : TierCall) (created : Bool) (manifest : ManifestWrite) :
    Option TierState :=
  if c.phase = .looking ∧ c.outcomes.length = LOD_MIN_TRIANGLE_AREA_LADDER.length then
    if created = false then some s.stop
    else
      match manifest with
      | .written =>
        some { (s.setFolder c { s.folder c with manifest := some (c.outcomes.map (·.record)) }).stop
          with reported := some (c.source.contentHash, c.outcomes) }
      | .untouched => some s.stop
      | .torn => some (s.setFolder c { s.folder c with manifest := none }).stop
  else none

def step (s : TierState) (e : TierEvent) : Option TierState :=
  match s.call, e with
  | none, .call source =>
    some { s with
      call := some ⟨source, (s.folders source.contentHash).manifest, false, [], .looking⟩
      reported := none }
  | some c, .cancel =>
    if c.phase = .looking ∧ c.outcomes.length < LOD_MIN_TRIANGLE_AREA_LADDER.length then
      some s.stop
    else none
  | some c, .look isFile readable => s.look p c isFile readable
  | some c, .prepare available created => s.prepare p c available created
  | some c, .write content => s.write c content
  | some c, .writeFailed part removed => s.writeFailed c part removed
  | some c, .measure ok removed => s.measure p c ok removed
  | some c, .finish created manifest => s.finish c created manifest
  | _, _ => none

end TierState

end SpatialIde.Engine
