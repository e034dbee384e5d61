import SpatialIde.Shell.Canvas.Pick
import SpatialIde.Shell.Streaming.LiveTicketSet

/-! # Refusals, as the shell shows them

A call of the kernel fails with its typed error or with anything else; a stream fails with the
detail of its terminal, which may start with a code.
-/

namespace SpatialIde.Shell

open Streaming (SOURCE_CHANGED_CODE SOURCE_COVERAGE_LOST_CODE)

/-- The fields of an error by name, in the order they are shown in. -/
structure SkpError where
  code : String
  message : String
  fields : List (String × String)
  deriving DecidableEq, Repr

/-- What a rejected call throws. -/
inductive CallError where
  | skp (skpError : SkpError)
  | other (message : String)
  deriving DecidableEq, Repr

structure FormattedRefusal where
  code : String
  message : String
  fields : List (String × String)
  deriving DecidableEq, Repr

def formatRefusal (error : SkpError) : FormattedRefusal :=
  ⟨error.code, error.message, error.fields⟩

/-- What the table says of a call that failed. -/
def CallError.refusal : CallError → FormattedRefusal
  | .skp error => formatRefusal error
  | .other message => ⟨"table-failed", message, []⟩

def isSessionEndedRefusal : CallError → Bool
  | .skp error => error.code = SOURCE_CHANGED_CODE || error.code = SOURCE_COVERAGE_LOST_CODE
  | .other _ => false

def refusalDetailOf (error : SkpError) : String := error.code ++ ": " ++ error.message

/-- The text before the first `": "` and the text after it. -/
def splitDetail : List Char → Option (List Char × List Char)
  | ':' :: ' ' :: rest => some ([], rest)
  | c :: rest => (splitDetail rest).map fun parts => (c :: parts.1, parts.2)
  | [] => none

/-- `/^engine\.[a-z0-9_]+$/` -/
def isEngineCode (head : List Char) : Bool :=
  "engine.".toList.isPrefixOf head && (head.drop 7).length > 0 &&
    (head.drop 7).all fun c => c.isLower || c.isDigit || c = '_'

def formatTerminalRefusal (detail : String) : FormattedRefusal :=
  match splitDetail detail.toList with
  | some (head, message) =>
    if isEngineCode head then ⟨String.ofList head, String.ofList message, []⟩
    else ⟨"stream-failed", detail, []⟩
  | none => ⟨"stream-failed", detail, []⟩

end SpatialIde.Shell

/-! ## The table's source of rows

A start cancels the stream before it, mints a ticket and attaches to the data plane, with an await
between each two.  The state holds the source's fields, the starts that wait, the streams whose
transport has not reported a terminal, and what has happened so far, in order.
-/

namespace SpatialIde.Shell.Table

open Canvas Streaming

def TABLE_MAX_ROWS : Nat := 1000

def TABLE_MAX_ATTRIBUTE_BYTES : Nat := 67108864

inductive TablePhase where
  | idle
  | loading
  | completed
  | stopped
  | cancelled
  | refused
  | ended
  deriving DecidableEq, Repr

structure TableSourceOptions where
  dataset : String
  geometryColumn : String
  geometryEncoding : String
  projection : Option (List String)
  deriving DecidableEq, Repr

/-- The package that reads a batch, and what an error of it says. -/
structure Decoder where
  ipc : Ipc
  message : DecodeError → String

/-! ### The rows held -/

structure Block where
  ids : List UInt64
  attributes : Option BatchAttributes
  deriving DecidableEq, Repr

namespace Block

/-- What is kept of a batch. -/
def ofBatch (batch : ResidentBatch) : Block where
  ids := batch.ids
  attributes :=
    match batch.attributes with
    | .held block => some block
    | _ => none

def bytes (block : Block) : Nat := block.attributes.elim 0 BatchAttributes.bytes

def readRow (ipc : Ipc) (block : Block) (row : Nat) : Except DecodeError AttributeRow :=
  Canvas.readRow ipc (block.attributes.elim .unprojected .held) row

end Block

def decodeBlock (d : Decoder) (opts : TableSourceOptions) (stream : String) (filter : Option Filter)
    (seq : Nat) (payload : List UInt8) : Except DecodeError Block :=
  (decodeBatch d.ipc stream seq payload opts.geometryColumn opts.geometryEncoding opts.projection
    filter).map Block.ofBatch

/-- What a table shows; `rowAt` reads the last two. -/
structure TableSnapshot where
  phase : TablePhase
  filter : Option Filter
  count : Nat
  ids : Finset UInt64
  refusal : Option FormattedRefusal
  blocks : List Block
  starts : List Nat
  deriving DecidableEq

namespace TableSnapshot

/-- `EMPTY_TABLE` -/
def empty : TableSnapshot := ⟨.idle, none, 0, ∅, none, [], []⟩

/-- `while (b > 0 && starts[b] > index) b--` -/
def blockOf (starts : List Nat) (index : Nat) : Nat → Nat
  | 0 => 0
  | b + 1 => if index < starts.getD (b + 1) 0 then blockOf starts index b else b + 1

/-- The id and the values of a row; the id of a row past the last one is not defined. -/
def rowAt (ipc : Ipc) (t : TableSnapshot) (index : Nat) :
    Except DecodeError (Option UInt64 × AttributeRow) :=
  let b := blockOf t.starts index (t.starts.length - 1)
  match t.blocks[b]? with
  | none => .error (.thrown "the table holds no rows")
  | some block =>
    let row := index - t.starts.getD b 0
    (block.readRow ipc row).map fun values => (block.ids[row]?, values)

end TableSnapshot

/-! ### The source -/

namespace TableSource

/-- What a start waits for, and what it keeps until then. -/
inductive Await where
  /-- The cancel of the handle held before, or one microtask. -/
  | cancelPrevious (mine : Nat) (filter : Option Filter)
  | viewportQuery (mine : Nat) (filter : Option Filter)
  | dataPlaneAttach (mine : Nat) (filter : Option Filter) (stream : String)
  /-- The cancel of the ticket of a start that could not attach. -/
  | cancelUnattached (mine : Nat) (err : CallError)
  deriving DecidableEq, Repr

inductive Answer where
  /-- A cancel answered, or failed: a failure is only logged. -/
  | done
  | minted (stream : String)
  | attached (attach : DataPlaneAttach)
  | rejected (err : CallError)
  deriving DecidableEq, Repr

/-- The sink a stream was started with, and the number of its next batch. -/
structure Sink where
  stream : String
  filter : Option Filter
  seq : Nat
  deriving DecidableEq, Repr

/-- What has happened: what the source was told, what it did, and which start it was for. -/
inductive Entry where
  | started (mine : Nat) (filter : Option Filter)
  | viewportQuery (mine : Nat) (dataset : String) (limit : Nat) (filter : Option Filter)
      (columns : Option (List String))
  | minted (mine : Nat) (stream : String)
  | queryRejected (mine : Nat) (err : CallError)
  | skpCancel (stream : String)
  | dataPlaneAttach (mine : Nat)
  | attachRejected (mine : Nat) (err : CallError)
  | startStream (attach : DataPlaneAttach) (ticketHandle : String)
  /-- The transport handed over a batch of the stream. -/
  | sent (stream : String) (payload : List UInt8)
  | added (stream : String) (block : Block)
  | terminal (stream : String) (terminal : Terminal)
  | onSessionEnded (detail : String)
  | ended
  | disposed
  deriving DecidableEq, Repr

structure State where
  opts : TableSourceOptions
  snapshot : TableSnapshot
  blocks : List Block
  starts : List Nat
  idSet : Finset UInt64
  count : Nat
  held : Nat
  filter : Option Filter
  phase : TablePhase
  refusal : Option FormattedRefusal
  handle : Option String
  selfCancelled : Finset String
  run : Nat
  disposed : Bool
  ended : Bool
  awaiting : List Await
  streams : List Sink
  log : List Entry
  deriving DecidableEq

namespace State

def new (opts : TableSourceOptions) : State where
  opts := opts
  snapshot := .empty
  blocks := []
  starts := []
  idSet := ∅
  count := 0
  held := 0
  filter := none
  phase := .idle
  refusal := none
  handle := none
  selfCancelled := ∅
  run := 0
  disposed := false
  ended := false
  awaiting := []
  streams := []
  log := []

def tell (s : State) (e : Entry) : State := { s with log := s.log ++ [e] }

def await (s : State) (a : Await) : State := { s with awaiting := s.awaiting ++ [a] }

def reset (s : State) (filter : Option Filter) : State :=
  { s with
    blocks := []
    starts := []
    idSet := ∅
    count := 0
    held := 0
    filter := filter
    refusal := none }

/-- What the fields show. -/
def shown (s : State) : TableSnapshot :=
  ⟨s.phase, s.filter, s.count, s.idSet, s.refusal, s.blocks, s.starts⟩

def emit (s : State) : State := { s with snapshot := s.shown }

def setPhase (s : State) (phase : TablePhase) : State := { s with phase := phase }.emit

def cancelHandle (s : State) (handle : String) : State :=
  { s with selfCancelled := insert handle s.selfCancelled }.tell (.skpCancel handle)

/-- The cancel of a handle that was held, if one was. -/
def cancelHeld (s : State) : Option String → State
  | none => s
  | some handle => s.cancelHandle handle

def refuse (s : State) (err : CallError) : State :=
  let s := { s with refusal := some err.refusal }.setPhase .refused
  match err with
  | .skp error =>
    if isSessionEndedRefusal err then s.tell (.onSessionEnded (refusalDetailOf error)) else s
  | .other _ => s

/-! ### The calls of its owner -/

def start (s : State) (filter : Option Filter) : State :=
  if s.disposed ∨ s.ended then s
  else
    let mine := s.run + 1
    let previous := s.handle
    let s := { s with run := mine, handle := none }.tell (.started mine filter)
    -- Whether a handle was held or not, an await passes before the query is issued.
    (((s.reset filter).setPhase .loading).cancelHeld previous).await (.cancelPrevious mine filter)

def cancel (s : State) : State :=
  let s := { s with run := s.run + 1, handle := none }.cancelHeld s.handle
  if s.phase = .loading then s.setPhase .cancelled else s

/-- `end` -/
def endSource (s : State) : State :=
  if s.ended then s
  else
    let handle := s.handle
    let s := { s with ended := true, run := s.run + 1, handle := none }.tell .ended
    ((s.cancelHeld handle).reset s.filter).setPhase .ended

def dispose (s : State) : State := ({ s with disposed := true }.tell .disposed).cancel

/-! ### A start goes on -/

def afterCancelPrevious (s : State) (mine : Nat) (filter : Option Filter) : State :=
  if mine ≠ s.run then s
  else
    (s.tell (.viewportQuery mine s.opts.dataset TABLE_MAX_ROWS filter s.opts.projection)).await
      (.viewportQuery mine filter)

def afterQuery (s : State) (mine : Nat) (filter : Option Filter) (stream : String) : State :=
  let s := s.tell (.minted mine stream)
  if mine ≠ s.run then s.cancelHandle stream
  else
    ({ s with handle := some stream }.tell (.dataPlaneAttach mine)).await
      (.dataPlaneAttach mine filter stream)

def afterQueryRejected (s : State) (mine : Nat) (err : CallError) : State :=
  let s := s.tell (.queryRejected mine err)
  if mine = s.run then s.refuse err else s

def afterAttach (s : State) (mine : Nat) (filter : Option Filter) (stream : String)
    (attach : DataPlaneAttach) : State :=
  if mine ≠ s.run then s
  else
    { s with streams := s.streams ++ [Sink.mk stream filter 0] }.tell (.startStream attach stream)

def afterAttachRejected (s : State) (mine : Nat) (stream : String) (err : CallError) : State :=
  let s := s.tell (.attachRejected mine err)
  if mine = s.run then
    ({ s with handle := none }.cancelHandle stream).await (.cancelUnattached mine err)
  else s

/-- The kernel hands out a handle once. -/
def handedOut (s : State) (stream : String) : Bool :=
  s.log.any fun
    | .minted _ handle => handle = stream
    | _ => false

def resume (s : State) : Await → Answer → Option State
  | .cancelPrevious mine filter, .done => some (s.afterCancelPrevious mine filter)
  | .viewportQuery mine filter, .minted stream =>
    if s.handedOut stream then none else some (s.afterQuery mine filter stream)
  | .viewportQuery mine _, .rejected err => some (s.afterQueryRejected mine err)
  | .dataPlaneAttach mine filter stream, .attached attach =>
    some (s.afterAttach mine filter stream attach)
  | .dataPlaneAttach mine _ stream, .rejected err => some (s.afterAttachRejected mine stream err)
  -- Whether a newer start has been made is not asked here.
  | .cancelUnattached _ err, .done => some (s.refuse err)
  | _, _ => none

/-! ### The sink of a stream -/

/-- `add`, of a batch that decodes. -/
def add (s : State) (stream : String) (block : Block) : State :=
  if TABLE_MAX_ATTRIBUTE_BYTES < s.held + block.bytes then
    ({ s with handle := none }.cancelHandle stream).setPhase .stopped
  else
    { s with
      starts := s.starts ++ [s.count]
      blocks := s.blocks ++ [block]
      idSet := s.idSet ∪ block.ids.toFinset
      count := s.count + block.ids.length
      held := s.held + block.bytes }.emit.tell (.added stream block)

/-- `terminal`, once the handle is let go of. -/
def conclude (s : State) (terminal : Terminal) : State :=
  if isSessionEndedTerminal terminal then s.endSource.tell (.onSessionEnded terminal.detail)
  else if terminal.kind = .completed then s.setPhase .completed
  else { s with refusal := some (formatTerminalRefusal terminal.detail) }.setPhase .refused

def terminal (s : State) (stream : String) (terminal : Terminal) : State :=
  let s := s.tell (.terminal stream terminal)
  if stream ∈ s.selfCancelled then { s with selfCancelled := s.selfCancelled.erase stream }
  else if s.handle ≠ some stream then s
  else { s with handle := none }.conclude terminal

/-- The transport has reported its one terminal. -/
def onTerminal (s : State) (sink : Sink) (terminal : Terminal) : State :=
  { s with streams := s.streams.erase sink }.terminal sink.stream terminal

def onBatch (d : Decoder) (s : State) (sink : Sink) (payload : List UInt8) : State :=
  let s := s.tell (.sent sink.stream payload)
  if s.handle ≠ some sink.stream then s
  else
    match decodeBlock d s.opts sink.stream sink.filter sink.seq payload with
    -- The transport catches what its sink throws, and gives up the stream.
    | .error e => s.onTerminal sink ⟨.sinkPoisoned, d.message e⟩
    | .ok block =>
      { s with streams := s.streams.erase sink ++ [{ sink with seq := sink.seq + 1 }] }.add
        sink.stream block

end State

/-! ### Steps -/

inductive Event where
  | start (filter : Option Filter)
  | cancel
  | endSource
  | dispose
  | answer (await : Await) (answer : Answer)
  | batch (sink : Sink) (payload : List UInt8)
  | terminal (sink : Sink) (terminal : Terminal)
  deriving DecidableEq, Repr

/-- One step; an answer nobody waits for and a frame of a stream that is over do not come. -/
def step (d : Decoder) (s : State) : Event → Option State
  | .start filter => some (s.start filter)
  | .cancel => some s.cancel
  | .endSource => some s.endSource
  | .dispose => some s.dispose
  | .answer await answer =>
    if await ∈ s.awaiting then { s with awaiting := s.awaiting.erase await }.resume await answer
    else none
  | .batch sink payload => if sink ∈ s.streams then some (s.onBatch d sink payload) else none
  | .terminal sink terminal =>
    if sink ∈ s.streams then some (s.onTerminal sink terminal) else none

end TableSource

end SpatialIde.Shell.Table
