import SpatialIde.Engine.Envelope
import SpatialIde.Engine.Stream.Policy

/-! # What accumulates toward the next batch

Attribute columns are carried as slices of the chunks they came in, one run for
each stretch of a chunk that a batch takes, and joined once when the batch is
flushed.
-/

namespace SpatialIde.Engine.Stream

open Wkb

structure Pending where
  ids : List UInt64
  builder : GeometryBuilder
  vertices : Nat
  estBytes : Nat
  /-- So that an over-ceiling single feature can be named. -/
  firstId : Option UInt64
  /-- One run list for each declared attribute. -/
  attrs : List (List ArrayRef)
  attrBytes : Nat
  deriving DecidableEq, Repr

/-- What a producer hands to its consumer for one batch. -/
structure Item where
  batch : TaggedBatch
  estBytes : Nat
  vertices : Nat
  batchIndex : Nat
  targetBytes : Nat
  cutBy : BatchCut
  deriving DecidableEq, Repr

/-- What a stream is asked for, as far as its producer reads it. -/
structure Plan where
  geometryColumn : String
  envelope : BatchEnvelope
  policy : BatchSizePolicy
  compactAttributeRetention : Bool

namespace Pending

def new (attributeColumns : Nat) (encoding : GeometryEncoding) : Pending where
  ids := []
  builder := .new encoding
  vertices := 0
  estBytes := 0
  firstId := none
  attrs := List.replicate attributeColumns []
  attrBytes := 0

/-- One more run for each column. -/
def pushRuns (start stop : Nat) : List (List ArrayRef) → List ArrayRef → List (List ArrayRef)
  | runs :: rest, col :: cols =>
    (runs ++ [col.slice start (stop - start)]) :: pushRuns start stop rest cols
  | rest, _ => rest

/-- Rows `start..stop` of the current chunk belong to the batch being accumulated. -/
def pushAttrRun (p : Pending) (chunkAttrs : List ArrayRef) (start stop : Nat) : Pending :=
  if stop ≤ start then p else { p with attrs := pushRuns start stop p.attrs chunkAttrs }

/-- Append a row whose geometry has been decoded into `builder`. -/
def append (p : Pending) (builder : GeometryBuilder) (id : UInt64) (rowBytes : Nat) : Pending where
  ids := p.ids ++ [id]
  builder := builder
  vertices := p.vertices + (builder.vertices - p.builder.vertices)
  estBytes := estimateBytes (p.ids.length + 1) builder.vertices + (p.attrBytes + rowBytes)
  firstId := p.firstId.or (some id)
  attrs := p.attrs
  attrBytes := p.attrBytes + rowBytes

/-- The batch ceiling; a batch of one feature names it. -/
def checkCeiling (p : Pending) : Except EngineError Unit :=
  if MAX_BATCH_BYTES < p.estBytes then
    match p.ids.length, p.firstId with
    | 1, some id => .error (.featureTooLarge id MAX_BATCH_BYTES p.estBytes)
    | _, _ => .error (.ceilingExceeded "MAX_BATCH_BYTES" MAX_BATCH_BYTES p.estBytes)
  else .ok ()

end Pending

variable (K : Kernels)

/-- `single_run_retention`: a slice that keeps too much of its chunk alive is copied, which changes
no value of it. -/
def singleRunRetention (array : ArrayRef) (compact : Bool) : Except EngineError ArrayRef :=
  if compact then
    match K.sliceMemorySize array with
    | .error e => .error (.arrow s!"attribute slice memory: {e}")
    | .ok _ => .ok array
  else .ok array

/-- The runs of one column as one array. -/
def joinRuns (compact : Bool) (runs : List ArrayRef) : Except EngineError ArrayRef :=
  match runs with
  | [run] => singleRunRetention K run compact
  | runs =>
    match K.concat runs with
    | .error e => .error (.arrow s!"attribute concat: {e}")
    | .ok a => .ok a

/-- What `flush` builds of a batch before it sends it. -/
def Pending.toItem (plan : Plan) (p : Pending) (batchIndex targetBytes : Nat) (cutBy : BatchCut) :
    Except EngineError Item := do
  p.checkCeiling
  let geometry ← finish K p.builder
  let attributes ← p.attrs.mapM (joinRuns K plan.compactAttributeRetention)
  let batch ← assemble K plan.envelope p.ids geometry attributes
  return ⟨batch, p.estBytes, p.vertices, batchIndex, targetBytes, cutBy⟩

end SpatialIde.Engine.Stream
