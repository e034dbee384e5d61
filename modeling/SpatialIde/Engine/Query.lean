import SpatialIde.Engine.Index
import SpatialIde.Engine.RowGroup
import SpatialIde.Lib.Truth

/-! # The statement of a viewport query

`buildSql` composes the statement that a stream runs.  Without an index its condition is
the caller's filter and the comparison of the covering box with the viewport; an index
adds ranges of identities in front of that comparison.  What a statement selects is
`Statement.select`: the rows of which its condition is true, in the order of the file.
-/

namespace SpatialIde.Engine

open Lib

/-! ### Rows -/

/-- One slot of an Arrow column: the bits in the buffer, and whether they are a value. -/
structure Slot (α : Type) where
  raw : α
  valid : Bool
  deriving DecidableEq, Repr

def Slot.value {α : Type} (s : Slot α) : Option α := if s.valid then some s.raw else none

/-- A row of the file: its identity, the bounds of its covering box, and all else. -/
structure TableRow (ρ : Type) where
  id : Slot UInt64
  bbox : Bbox (Slot ℚ)
  rest : ρ

/-- What the scan of the index reads: the buffers, with no look at what is null. -/
def TableRow.feature {ρ : Type} (row : TableRow ρ) : Feature :=
  ⟨row.id.raw, row.bbox.xmin.raw, row.bbox.ymin.raw, row.bbox.xmax.raw, row.bbox.ymax.raw⟩

/-! ### The ranges of the candidates -/

/-- Most id ranges the engine will put in one statement before falling back to the scan. -/
def MAX_ID_RANGES : Nat := 4096

/-- The ranges that are closed, and the one that is open. -/
structure Compressing where
  out : List (UInt64 × UInt64)
  lo : UInt64
  hi : UInt64

def Compressing.step (maxRanges : Nat) (st : Compressing) (id : UInt64) : Option Compressing :=
  if id = st.hi + 1 then some { st with hi := id }
  else
    let out := st.out ++ [(st.lo, st.hi)]
    if out.length > maxRanges then none else some ⟨out, id, id⟩

/-- `none` where there would be more ranges than the statement may hold. -/
def compressToRanges (sortedIds : List UInt64) (maxRanges : Nat) :
    Option (List (UInt64 × UInt64)) :=
  match sortedIds with
  | [] => some []
  | id :: ids => do
    let st ← ids.foldlM (Compressing.step maxRanges) ⟨[], id, id⟩
    let out := st.out ++ [(st.lo, st.hi)]
    if out.length > maxRanges then none else some out

/-! ### Conditions -/

/-- A test of the identity's source column. -/
inductive IdTest where
  | equals (id : UInt64)
  | between (lo hi : UInt64)
  deriving DecidableEq, Repr

def idTest (range : UInt64 × UInt64) : IdTest :=
  if range.1 = range.2 then .equals range.1 else .between range.1 range.2

/-- What `AND` joins in a `WHERE` clause; `φ` is the text of a caller's predicate. -/
inductive Condition (φ : Type) where
  | filter (text : φ)
  | oneOf (tests : List IdTest)
  /-- Intersection of the covering box, not containment. -/
  | meets (view : Bbox ℚ)

structure Statement (φ : Type) where
  conditions : List (Condition φ)
  /-- `ORDER BY` the source column. -/
  ordered : Bool
  limit : Option Nat

def IdTest.eval (id : Option UInt64) : IdTest → Truth
  | .equals v => Truth.compare (fun a b => decide (a = b)) id (some v)
  | .between lo hi => Truth.and (Truth.compare (fun a b => decide (b ≤ a)) id (some lo))
      (Truth.compare (fun a b => decide (a ≤ b)) id (some hi))

/-- `xmin <= ? AND xmax >= ? AND ymin <= ? AND ymax >= ?`. -/
def meetsTruth (b : Bbox (Slot ℚ)) (view : Bbox ℚ) : Truth :=
  Truth.all [
    Truth.compare (fun a b => decide (a ≤ b)) b.xmin.value (some view.xmax),
    Truth.compare (fun a b => decide (b ≤ a)) b.xmax.value (some view.xmin),
    Truth.compare (fun a b => decide (a ≤ b)) b.ymin.value (some view.ymax),
    Truth.compare (fun a b => decide (b ≤ a)) b.ymax.value (some view.ymin)]

section Select

variable {φ ρ : Type}

/-- `truth` is what the database makes of a caller's predicate in a row. -/
def Condition.eval (truth : φ → TableRow ρ → Truth) (row : TableRow ρ) : Condition φ → Truth
  | .filter text => truth text row
  | .oneOf tests => Truth.any (tests.map (IdTest.eval row.id.value))
  | .meets view => meetsTruth row.bbox view

/-- The statement's condition is true of the row. -/
def Statement.Selects (truth : φ → TableRow ρ → Truth) (s : Statement φ) (row : TableRow ρ) : Prop :=
  Truth.all (s.conditions.map (Condition.eval truth row)) = some true

instance (truth : φ → TableRow ρ → Truth) (s : Statement φ) (row : TableRow ρ) :
    Decidable (s.Selects truth row) :=
  inferInstanceAs (Decidable (_ = _))

/-- The rows of a statement that has no order, as they lie in the file. -/
def Statement.select (truth : φ → TableRow ρ → Truth) (s : Statement φ) (file : List (TableRow ρ)) :
    List (TableRow ρ) :=
  let rows := file.filter (s.Selects truth)
  match s.limit with
  | none => rows
  | some n => rows.take n

end Select

/-! ### The plan -/

/-- What the plan of one stream used to narrow its scan. -/
inductive FilterPlan where
  | wholeFile
  | indexNarrowed (ranges candidates : Nat)
  | scanOnly
  | indexTooFragmented (candidates : Nat)
  | rowGroupsPruned (total kept ranges : Nat)
  | rowGroupsKeptAll (total : Nat)
  | rowGroupsNotPrunable (total : Nat) (reason : RowGroupRefusal)
  | rowGroupsTooFragmented (total kept : Nat)
  | rowGroupsExcludeAll (total : Nat)
  deriving DecidableEq, Repr

/-- Which index a plan may consult. -/
inductive IndexUse where
  | off
  | experimental
  | rowGroups
  deriving DecidableEq, Repr

inductive RowOrdering where
  | unordered
  | byIdentityAscending
  deriving DecidableEq, Repr

structure ViewportQuery (φ : Type) where
  bbox : Option (Bbox ℚ)
  filter : Option φ
  limit : Option Nat

/-- Most row-group ranges in one statement. -/
def MAX_ROW_GROUP_RANGES : Nat := 4096

/-- What the plan asks of the dataset: its covering, and the indexes that may serve it. -/
structure PlanSource where
  /-- The file has covering boxes; else the detail of the refusal. -/
  covering : Except String Unit
  admittedIndex : Option SpatialIndex
  /-- The number of groups of the row-group index, and what it answers for the viewport. -/
  admittedRowGroups : Option (Nat × Except RowGroupRefusal RowGroupSelection)

section Build

variable {φ : Type}

/-- The condition of the row-group seam, if any, and its plan. -/
def rowGroupPlan (src : PlanSource) : Option (List IdTest) × FilterPlan :=
  match src.admittedRowGroups with
  | none => (none, .scanOnly)
  | some (total, .error reason) => (none, .rowGroupsNotPrunable total reason)
  | some (_, .ok sel) =>
    if sel.kept = 0 then (none, .rowGroupsExcludeAll sel.total)
    else if ¬sel.kept < sel.total then (none, .rowGroupsKeptAll sel.total)
    else if sel.ranges.length > MAX_ROW_GROUP_RANGES then
      (none, .rowGroupsTooFragmented sel.total sel.kept)
    else (some (sel.ranges.map idTest), .rowGroupsPruned sel.total sel.kept sel.ranges.length)

/-- The condition of the feature index, if any, and its plan.  What it cannot answer falls
through to the scan, and so does an empty answer. -/
def indexPlan (src : PlanSource) (view : Bbox ℚ) : Option (List IdTest) × FilterPlan :=
  match src.admittedIndex.bind fun idx => idx.candidates view with
  | none => (none, .scanOnly)
  | some candidates =>
    match compressToRanges candidates MAX_ID_RANGES with
    | none => (none, .indexTooFragmented candidates.length)
    | some [] => (none, .scanOnly)
    | some ranges =>
      (some (ranges.map idTest), .indexNarrowed ranges.length candidates.length)

/-- The narrowing an index contributes, and the plan it is reported as. -/
def narrowing (src : PlanSource) (view : Bbox ℚ) : IndexUse → Option (List IdTest) × FilterPlan
  | .off => (none, .scanOnly)
  | .experimental => indexPlan src view
  | .rowGroups => rowGroupPlan src

/-- The caller's filter is always leftmost, and the box is compared whether or not an index
has narrowed the scan. -/
def buildSql (src : PlanSource) (q : ViewportQuery φ) (indexUse : IndexUse)
    (ordering : RowOrdering) : Except EngineError (Statement φ × FilterPlan) :=
  let filter := q.filter.toList.map Condition.filter
  let ordered := ordering = .byIdentityAscending
  match q.bbox with
  | none => .ok (⟨filter, ordered, q.limit⟩, .wholeFile)
  | some view =>
    match src.covering with
    | .error detail => .error (.noCoveringBbox detail)
    | .ok () =>
      let (tests, plan) := narrowing src view indexUse
      .ok (⟨filter ++ tests.toList.map .oneOf ++ [.meets view], ordered, q.limit⟩, plan)

end Build

end SpatialIde.Engine
