import SpatialIde.Engine.Types
import SpatialIde.Lib.Decimal
import SpatialIde.Lib.Intervals

/-! # The row-group index

`admitGroups` turns the rows of a footer into entries and decides once, over the whole file,
whether its identity statistics support an id-range injection.  `rangesFor` is what a
viewport selects.  A group that cannot be reasoned about is kept.
-/

namespace SpatialIde.Engine

open Lib

def CANCEL_POLL_INTERVAL : Nat := 4096

/-- Why a file's row-group statistics, or a viewport, cannot narrow a scan. -/
inductive RowGroupRefusal where
  | idStatsAbsent
  | idRangesOverlap
  | idRangesUnordered
  | statsUnparseable
  /-- The viewport is non-finite or inverted: a statement about the query, not about the file. -/
  | viewportUnusable
  | ceilingExceeded
  | noRowGroups
  deriving DecidableEq, Repr

abbrev Verdict := Except RowGroupRefusal Unit

/-- One row group, as the file's own footer describes it. -/
structure RowGroupEntry where
  ordinal : UInt32
  rows : UInt64
  idLo : UInt64
  idHi : UInt64
  /-- `none` is an envelope that cannot be reasoned about. -/
  envelope : Option (Bbox F64)
  deriving DecidableEq, Repr

/-- One row group's footer rows, before admissibility. -/
structure RawGroup where
  ordinal : UInt32
  rows : UInt64
  /-- The least and the greatest value of the identity column, each possibly absent. -/
  id : Option (Option String × Option String)
  /-- The identity column's null count; `none` where the footer does not report one. -/
  idNulls : Option UInt64
  bounds : Bbox (Option String)
  deriving DecidableEq, Repr

namespace RowGroupEntry

/-- The identity column's closed interval over this group. -/
def interval (g : RowGroupEntry) : UInt64 × UInt64 := (g.idLo, g.idHi)

/-- Whether this group must be read for `view`. -/
def intersects (g : RowGroupEntry) (view : Bbox F64) : Bool :=
  match g.envelope with
  | none => true
  | some b =>
    b.xmin.le view.xmax && view.xmin.le b.xmax && b.ymin.le view.ymax && view.ymin.le b.ymax

end RowGroupEntry

namespace RawGroup

/-- The identity interval of a group, and whether the group may be asked for by it. -/
def idInterval (g : RawGroup) : (UInt64 × UInt64) × Verdict :=
  match g.id with
  | some (some lo, some hi) =>
    match parseU64 lo, parseU64 hi with
    | some lo, some hi =>
      if lo ≤ hi then ((lo, hi), .ok ()) else ((0, UInt64.ofNat (2 ^ 64 - 1)), .error .idRangesUnordered)
    | _, _ => ((0, UInt64.ofNat (2 ^ 64 - 1)), .error .statsUnparseable)
  | _ => ((0, UInt64.ofNat (2 ^ 64 - 1)), .error .idStatsAbsent)

/-- One bound as it is reported, moved outward by one place; `none` where it is missing or unusable. -/
def bound (outward : F64 → F64) (reported : Option String) : Option F64 :=
  match reported with
  | some s =>
    match F64.parse s with
    | some v => if v.isFinite then some (outward v) else none
    | none => none
  | none => none

/-- The envelope of a group, widened on every side. -/
def envelope (g : RawGroup) : Option (Bbox F64) :=
  match bound F64.nextDown g.bounds.xmin, bound F64.nextDown g.bounds.ymin,
      bound F64.nextUp g.bounds.xmax, bound F64.nextUp g.bounds.ymax with
  | some xmin, some ymin, some xmax, some ymax =>
    if xmax.lt xmin || ymax.lt ymin then none else some ⟨xmin, ymin, xmax, ymax⟩
  | _, _, _, _ => none

def entry (g : RawGroup) : RowGroupEntry :=
  ⟨g.ordinal, g.rows, g.idInterval.1.1, g.idInterval.1.2, g.envelope⟩

end RawGroup

/-- What `admitGroups` has found so far. -/
structure Admission where
  entries : List RowGroupEntry
  verdict : Verdict
  prevHi : Option UInt64
  deriving Repr

namespace Admission

def start : Admission := ⟨[], .ok (), none⟩

/-- `Result::and`: the first refusal stays. -/
def refuseIf (verdict : Verdict) (found : Bool) (refusal : RowGroupRefusal) : Verdict :=
  verdict.bind fun _ => if found then .error refusal else .ok ()

/-- The verdict behind `g`: its interval, its nulls and the end of the group in front. -/
def verdictBehind (st : Admission) (g : RawGroup) : Verdict :=
  refuseIf
    (refuseIf (st.verdict.bind fun _ => g.idInterval.2) (g.idNulls.all (0 < ·)) .idStatsAbsent)
    (st.prevHi.any (g.idInterval.1.1 ≤ ·)) .idRangesOverlap

def admitGroup (st : Admission) (g : RawGroup) : Admission :=
  ⟨st.entries ++ [g.entry], st.verdictBehind g, some g.idInterval.1.2⟩

end Admission

/-- The groups from index `i` on; `cancelled i` is the token's answer if it is polled there. -/
def admitLoop (cancelled : Nat → Bool) : Nat → List RawGroup → Admission →
    Except EngineError Admission
  | _, [], st => .ok st
  | i, g :: gs, st =>
    if i % CANCEL_POLL_INTERVAL = 0 ∧ cancelled i then .error .cancelled
    else admitLoop cancelled (i + 1) gs (st.admitGroup g)

/-- The built index: its entries and the verdict for the whole file. -/
structure RowGroupIndex where
  groups : List RowGroupEntry
  admissible : Verdict
  deriving DecidableEq, Repr

def admitGroups (cancelled : Nat → Bool) (raw : List RawGroup) : Except EngineError RowGroupIndex :=
  if raw = [] then .ok ⟨[], .error .noRowGroups⟩
  else do
    let st ← admitLoop cancelled 0 raw .start
    return ⟨st.entries, st.verdict⟩

/-- What one viewport selected. -/
structure RowGroupSelection where
  total : Nat
  kept : Nat
  ranges : List (UInt64 × UInt64)
  deriving DecidableEq, Repr

namespace RowGroupIndex

/-- Whether an interval that begins at `lo` is contiguous with one that ends at `hi`. -/
def contiguous (hi lo : UInt64) : Bool := lo == saturatingSucc hi

/-- One group of the loop of `rangesFor`: a group that survives is a range of its own, or the end
of the one in front. -/
def keep (view : Bbox F64) (st : Nat × List (UInt64 × UInt64)) (g : RowGroupEntry) :
    Nat × List (UInt64 × UInt64) :=
  if g.intersects view then (st.1 + 1, Intervals.extend contiguous st.2 g.interval) else st

/-- A viewport that narrows nothing: not finite, or inverted. -/
def unusable (view : Bbox F64) : Bool :=
  !(view.xmin.isFinite && view.ymin.isFinite && view.xmax.isFinite && view.ymax.isFinite) ||
    view.xmax.lt view.xmin || view.ymax.lt view.ymin

def rangesFor (index : RowGroupIndex) (view : Bbox F64) :
    Except RowGroupRefusal RowGroupSelection := do
  index.admissible
  if unusable view then .error .viewportUnusable
  else
    let st := index.groups.foldl (keep view) (0, [])
    .ok ⟨index.groups.length, st.1, st.2⟩

end RowGroupIndex

end SpatialIde.Engine
