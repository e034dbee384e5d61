import SpatialIde.Engine.Stream.Pending
import SpatialIde.Lib.Except
import SpatialIde.Lib.Prog

/-! # The batch producer

`produce` runs a query and turns its chunks into batches.  What surrounds it is
asked: the cancellation flag, DuckDB, the clock of the first batch's budget and
the channel.  What the result iterator will yield is a parameter, `Source`.
-/

namespace SpatialIde.Engine.Stream

open Lib Wkb

/-- How `release_healthy`'s verification of a connection ends. -/
inductive Verification where
  | verified
  | failed
  | unwound
  deriving DecidableEq, Repr

/-- What a producer thread asks of its surroundings. -/
inductive Ask where
  /-- `cancel.is_cancelled()`. -/
  | isCancelled
  | prepare
  /-- `stream_arrow`, which binds and executes. -/
  | execute
  /-- Whether the first batch's time budget has elapsed. -/
  | budgetElapsed
  /-- Nothing is asked: marks that a batch is handed to `flush`. -/
  | flush (p : Pending) (batchIndex targetBytes : Nat) (cutBy : BatchCut)
  /-- A message on the bounded channel; the answer is whether the consumer is still there. -/
  | send (message : Except EngineError Item)
  /-- The verification a returned connection goes through. -/
  | verify
  /-- The source's descriptor as it is now, or why it could not be read. -/
  | reread
  | recordPostCheckBytes (bytes : UInt64)
  | recordSourceChanged (detail : String)

abbrev Ask.Answer : Ask → Type
  | .isCancelled => Bool
  | .prepare => Except String Unit
  | .execute => Except String Unit
  | .budgetElapsed => Bool
  | .flush .. => Unit
  | .send _ => Bool
  | .verify => Verification
  | .reread => Except String SourceDescriptor
  | .recordPostCheckBytes _ => Unit
  | .recordSourceChanged _ => Unit

abbrev Producer := Prog Ask.Answer EngineError

def ask (q : Ask) : Producer q.Answer := .query q

/-- How a result iterator ends: it is drained, or a fetch panics with a payload. -/
inductive Ending where
  | drained
  | panicked (payload : Option String)
  deriving DecidableEq, Repr

structure Source where
  chunks : List RecordBatch
  ending : Ending

/-! ### Errors -/

def OUT_OF_RANGE_DETAIL : String :=
  "[P6 placeholder] a value computed while this query ran was out of range for its type; the row " ++
  "values and the query text are withheld"

def FETCH_PANIC_PREFIX : String := "Failed to fetch Arrow record batch: "

def PENDING_RESULT_WRAPPER : String :=
  "Invalid Input Error: Attempting to execute an unsuccessful or closed pending query result\n" ++
  "Error: "

/-- The text after a prefix. -/
def stripPrefix (p s : String) : Option String :=
  if p.toList.isPrefixOf s.toList then some (String.ofList (s.toList.drop p.length)) else none

def isOutOfRange (message : String) : Bool :=
  "Out of Range Error".toList.isPrefixOf message.toList

/-- DuckDB's text read out of a fetch panic, by anchored prefixes only. -/
def fetchPanicDuckdbText (payload : String) : Option String :=
  match stripPrefix FETCH_PANIC_PREFIX payload with
  | none => none
  | some rest =>
    match stripPrefix PENDING_RESULT_WRAPPER rest with
    | some inner => if isOutOfRange inner then some inner else none
    | none => if isOutOfRange rest then some rest else none

/-- A failure that is not a cancellation. -/
def queryFailure (phase message : String) : EngineError :=
  if isOutOfRange message then .query OUT_OF_RANGE_DETAIL else .query s!"{phase}: {message}"

/-- `classify`, returned out of `produce`: a cancellation comes first. -/
def classify {α : Type} (phase message : String) : Producer α := do
  if ← ask .isCancelled then .throw .cancelled
  else .throw (queryFailure phase message)

/-- What a fetch panic's text is classified by. -/
def fetchPanicText (payload : Option String) : String :=
  let detail := payload.getD "no panic message"
  (fetchPanicDuckdbText detail).getD detail

def classifyFetchPanic {α : Type} (payload : Option String) : Producer α :=
  classify "duckdb fetch panicked" (fetchPanicText payload)

def stopIfCancelled : Producer Unit := do
  if ← ask .isCancelled then .throw .cancelled
  else pure ()

/-- `execute_guarded`: a cancellation that lands before or during the call is not lost. -/
def executeGuarded : Producer Unit := do
  stopIfCancelled
  let result : Except String Unit ← ask .execute
  match result with
  | .error e => classify "execute" e
  | .ok () => stopIfCancelled

/-! ### The producer -/

variable (K : Kernels) (plan : Plan)

/-- Hand over a batch; what is accumulated afterwards is empty. -/
def flush (p : Pending) (batchIndex targetBytes : Nat) (cutBy : BatchCut) : Producer Pending := do
  let _ ← ask (.flush p batchIndex targetBytes cutBy)
  let item ← .lift (p.toItem K plan batchIndex targetBytes cutBy)
  stopIfCancelled
  -- A disconnected receiver means the consumer is gone, which is a cancellation.
  if ← ask (.send (.ok item)) then
    pure (.new p.attrs.length plan.envelope.encoding)
  else .throw .cancelled

/-- The columns a chunk is read through. -/
structure ChunkColumns where
  ids : List UInt64
  geoms : ArrayRef
  attrs : List ArrayRef

/-- A declared attribute's column, with the type the envelope promises. -/
def readAttribute (chunk : RecordBatch) (f : Field) : Except EngineError ArrayRef := do
  let col ← okOr (.query s!"result has no `{f.name}` column") (chunk.columnByName f.name)
  let col ← decodeDictionaryChunkColumn K col f.dataType
  if col.dataType ≠ f.dataType then
    .error (.encodingMismatch s!"attribute `{f.name}` is {K.display f.dataType}"
      (K.display col.dataType))
  else .ok col

def readChunk (chunk : RecordBatch) : Except EngineError ChunkColumns := do
  let ids ← columnU64 K chunk ID_COLUMN
  let geoms ← okOr (.query s!"result has no `{plan.geometryColumn}` column")
    (chunk.columnByName plan.geometryColumn)
  let attrs ← plan.envelope.attributes.mapM (readAttribute K chunk)
  return ⟨ids, geoms, attrs⟩

structure LoopState where
  pending : Pending
  /-- Batches handed over so far. -/
  emitted : Nat
  /-- First row of the chunk that belongs to the batch being accumulated. -/
  runStart : Nat
  rowsSinceBudgetCheck : Nat

def budgeted : Bool := plan.policy.cut = .timeBudgetedFirstBatch

/-- The budget's site in the row loop, a row stride apart. -/
def strideBudget (emitted rowsSinceBudgetCheck : Nat) : Producer (Bool × Nat) :=
  if budgeted plan = true ∧ emitted = 0 then
    if BUDGET_CHECK_ROW_STRIDE ≤ rowsSinceBudgetCheck + 1 then do
      return (← ask .budgetElapsed, 0)
    else pure (false, rowsSinceBudgetCheck + 1)
  else pure (false, rowsSinceBudgetCheck)

/-- The cut in front of a row that might not fit. -/
def cutBefore (cols : ChunkColumns) (row incoming target : Nat) (st : LoopState) :
    Producer LoopState :=
  if st.pending.ids ≠ [] ∧ target < st.pending.estBytes + incoming then do
    let pending ← flush K plan (st.pending.pushAttrRun cols.attrs st.runStart row) st.emitted target
      .sizeTarget
    return ⟨pending, st.emitted + 1, row, 0⟩
  else pure st

/-- Decode a row and append it. -/
def appendRow (cols : ChunkColumns) (row : Nat) (id : UInt64) (wkb : List UInt8) (st : LoopState) :
    Producer LoopState :=
  match st.pending.builder.pushWkb wkb with
  | (.error e, _) => .throw e
  | (.ok (), builder) =>
    pure { st with pending := st.pending.append builder id (attrRowBytes cols.attrs row) }

/-- The cut behind a row. -/
def cutAfter (cols : ChunkColumns) (row target : Nat) (budgetReached : Bool) (st : LoopState) :
    Producer LoopState :=
  match cutReason st.pending.estBytes st.pending.ids.length target plan.policy.maxRows
      budgetReached with
  | some cutBy => do
    let pending ← flush K plan (st.pending.pushAttrRun cols.attrs st.runStart (row + 1)) st.emitted
      target cutBy
    return ⟨pending, st.emitted + 1, row + 1, 0⟩
  | none => pure st

/-- One row of a chunk. -/
def rowStep (cols : ChunkColumns) (row : Nat) (id : UInt64) (st : LoopState) :
    Producer LoopState := do
  stopIfCancelled
  let wkb ← .lift (binaryValue K cols.geoms row)
  let incoming := estimateBytes 1 (wkb.length / 16) + attrRowBytes cols.attrs row
  let target := plan.policy.targetFor st.emitted
  let st ← cutBefore K plan cols row incoming target st
  let st ← appendRow cols row id wkb st
  let budget ← strideBudget plan st.emitted st.rowsSinceBudgetCheck
  cutAfter K plan cols row target budget.1 { st with rowsSinceBudgetCheck := budget.2 }

def rowLoop (cols : ChunkColumns) : (row : Nat) → List UInt64 → LoopState → Producer LoopState
  | _, [], st => pure st
  | row, id :: ids, st => do
    let st ← rowStep K plan cols row id st
    rowLoop cols (row + 1) ids st

/-- The budget's principal site: a chunk boundary, with a row to show. -/
def boundaryBudget (firstRowAt : Bool) (st : LoopState) : Producer LoopState :=
  if budgeted plan = true ∧ st.emitted = 0 ∧ st.pending.ids ≠ [] then do
    let expired : Bool ← if firstRowAt then ask .budgetElapsed else pure false
    if expired then
      let pending ← flush K plan st.pending st.emitted (plan.policy.targetFor st.emitted) .timeBudget
      return ⟨pending, st.emitted + 1, st.runStart, 0⟩
    else pure st
  else pure st

/-- One chunk: its rows, then what of it carries over into the next batch. -/
def chunkStep (firstRowAt : Bool) (chunk : RecordBatch) (st : LoopState) : Producer LoopState := do
  let cols ← .lift (readChunk K plan chunk)
  let st ← rowLoop K plan cols 0 (cols.ids.take chunk.numRows) { st with runStart := 0 }
  boundaryBudget K plan firstRowAt
    { st with pending := st.pending.pushAttrRun cols.attrs st.runStart chunk.numRows }

def chunkLoop (ending : Ending) : Bool → List RecordBatch → LoopState → Producer LoopState
  | _, [], st => do
    stopIfCancelled
    match ending with
    | .drained => pure st
    | .panicked payload => classifyFetchPanic payload
  | firstRowAt, chunk :: chunks, st => do
    stopIfCancelled
    -- The budget's clock starts at the first chunk that carries a row.
    let firstRowAt := firstRowAt || 0 < chunk.numRows
    let st ← chunkStep K plan firstRowAt chunk st
    chunkLoop ending firstRowAt chunks st

/-- What `produce` does once the query runs. -/
def drain (source : Source) : Producer Unit := do
  let pending := Pending.new plan.envelope.attributes.length plan.envelope.encoding
  let st ← chunkLoop K plan source.ending false source.chunks ⟨pending, 0, 0, 0⟩
  if st.pending.ids ≠ [] then do
    let _ ← flush K plan st.pending st.emitted (plan.policy.targetFor st.emitted) .streamEnd
    pure ()
  else pure ()

def produce (source : Source) : Producer Unit := do
  stopIfCancelled
  let prepared : Except String Unit ← ask .prepare
  match prepared with
  | .error e => classify "prepare" e
  | .ok () => do
    executeGuarded
    drain K plan source

end SpatialIde.Engine.Stream
