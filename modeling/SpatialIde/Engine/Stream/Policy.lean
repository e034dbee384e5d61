import SpatialIde.Engine.Arrow

/-! # Declared ceilings, batch-size policies and the estimate

Every cut and every ceiling is decided on `estimateBytes` and `attrRowBytes`,
which are functions of a row's content, and on the target of the batch's index.
-/

namespace SpatialIde.Engine.Stream

def MAX_BATCH_BYTES : Nat := 4 * 1024 * 1024
def TARGET_BATCH_BYTES : Nat := 1024 * 1024
def MIN_BATCH_BYTES : Nat := 32 * 1024
def FIRST_TARGET_BATCH_BYTES : Nat := 64 * 1024
def BATCH_GROWTH_FACTOR : Nat := 4
def MAX_ROWS_PER_BATCH : Nat := 65536
def MAX_QUEUED_BATCHES : Nat := 2
def PUBLISH_PARTITION_TARGET_BYTES : Nat := 1024 * 1024
def PUBLISH_PARTITION_ROWS : Nat := 8192
def BUDGET_CHECK_ROW_STRIDE : Nat := 256

/-- Which trigger ended a batch. -/
inductive BatchCut where
  | sizeTarget
  | rowCeiling
  | timeBudget
  | streamEnd
  deriving DecidableEq, Repr

/-- What is allowed to end a batch. -/
inductive BatchCutPolicy where
  | sizeOnly
  /-- Batch 0 is also cut once a time budget has elapsed since the first source row. -/
  | timeBudgetedFirstBatch
  deriving DecidableEq, Repr

structure BatchSizePolicy where
  firstTargetBytes : Nat
  growthFactor : Nat
  targetBytes : Nat
  minBytes : Nat
  maxRows : Nat
  cut : BatchCutPolicy
  deriving DecidableEq, Repr

namespace BatchSizePolicy

def default : BatchSizePolicy where
  firstTargetBytes := FIRST_TARGET_BATCH_BYTES
  growthFactor := BATCH_GROWTH_FACTOR
  targetBytes := TARGET_BATCH_BYTES
  minBytes := MIN_BATCH_BYTES
  maxRows := MAX_ROWS_PER_BATCH
  cut := .sizeOnly

/-- The publish policy is flat: one partition is one batch. -/
def publish : BatchSizePolicy where
  firstTargetBytes := PUBLISH_PARTITION_TARGET_BYTES
  growthFactor := 1
  targetBytes := PUBLISH_PARTITION_TARGET_BYTES
  minBytes := MIN_BATCH_BYTES
  maxRows := PUBLISH_PARTITION_ROWS
  cut := .sizeOnly

def timeBudgeted : BatchSizePolicy := { default with cut := .timeBudgetedFirstBatch }

def saturatingMul (a b : Nat) : Nat := min (a * b) (2 ^ 64 - 1)

/-- The loop of `target_for`, `left` steps before its end. -/
def targetFrom (p : BatchSizePolicy) : (left t : Nat) → Nat
  | 0, t => max (min t p.targetBytes) p.minBytes
  | left + 1, t =>
    if p.targetBytes ≤ t then p.targetBytes
    else p.targetFrom left (saturatingMul t p.growthFactor)

/-- Target size for the batch at `index`. -/
def targetFor (p : BatchSizePolicy) (index : Nat) : Nat := p.targetFrom index p.firstTargetBytes

/-- The policies the engine declares. -/
inductive Declared : BatchSizePolicy → Prop
  | default : Declared .default
  | publish : Declared .publish
  | timeBudgeted : Declared .timeBudgeted

theorem targetFrom_le {p : BatchSizePolicy} (hmin : p.minBytes ≤ p.targetBytes) :
    ∀ left t, p.targetFrom left t ≤ p.targetBytes := by
  intro left
  induction left with
  | zero => intro t; exact Nat.max_le.2 ⟨Nat.min_le_right _ _, hmin⟩
  | succ left ih =>
    intro t
    unfold targetFrom
    by_cases h : p.targetBytes ≤ t
    · rw [if_pos h]
    · rw [if_neg h]
      exact ih _

/-- **No target of a declared policy reaches the batch ceiling.** -/
theorem Declared.targetFor_le {p : BatchSizePolicy} (h : Declared p) (index : Nat) :
    p.targetFor index ≤ MAX_BATCH_BYTES := by
  have hle : p.minBytes ≤ p.targetBytes ∧ p.targetBytes ≤ MAX_BATCH_BYTES := by
    cases h <;> decide
  exact (targetFrom_le hle.1 _ _).trans hle.2

end BatchSizePolicy

/-- The bytes a batch of `rows` features and `vertices` vertices is estimated to occupy. -/
def estimateBytes (rows vertices : Nat) : Nat := vertices * 16 + rows * 8 + (rows + vertices) * 4

theorem estimateBytes_add (rows rows' vertices vertices' : Nat) :
    estimateBytes (rows + rows') (vertices + vertices') =
      estimateBytes rows vertices + estimateBytes rows' vertices' := by
  unfold estimateBytes
  omega

theorem estimateBytes_mono {vertices vertices' : Nat} (h : vertices ≤ vertices') (rows : Nat) :
    estimateBytes rows vertices ≤ estimateBytes rows vertices' := by
  unfold estimateBytes
  omega

/-- One value's contribution to `attr_row_bytes`: a validity bit, rounded up, and the value.  A null
slot is never read. -/
def attrValueBytes (t : DataType) (c : Cell) : Nat :=
  match c with
  | none => 1
  | some bytes => 1 + match t with
    | .utf8 => bytes.length + 4
    | .largeUtf8 => bytes.length + 8
    | .utf8View => bytes.length + 16
    | .boolean => 1
    | .int8 | .uInt8 => 1
    | .int16 | .uInt16 => 2
    | .int32 | .uInt32 => 4
    | .float32 => 4
    | .int64 | .uInt64 | .float64 => 8
    | _ => 8

/-- One row's attribute contribution. -/
def attrRowBytes (chunkAttrs : List ArrayRef) (row : Nat) : Nat :=
  (chunkAttrs.map fun col => attrValueBytes col.dataType (col.cell row)).sum

/-- Which trigger, if any, ends the batch that has just had a row appended. -/
def cutReason (estBytes rows target maxRows : Nat) (budgetReached : Bool) : Option BatchCut :=
  if target ≤ estBytes then some .sizeTarget
  else if maxRows ≤ rows then some .rowCeiling
  else if budgetReached then some .timeBudget
  else none

end SpatialIde.Engine.Stream
