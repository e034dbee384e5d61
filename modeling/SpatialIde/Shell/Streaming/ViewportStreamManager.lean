import SpatialIde.Shell.Canvas.DecodeBatch
import SpatialIde.Shell.Streaming.LiveTicketSet

/-! # The baseline stream manager

A request supersedes the stream before it, mints a ticket and attaches to the data plane, with an
await between each two; what the manager does between two awaits is one step.  The state holds the
manager's fields, the awaits nobody has answered yet, the streams whose transport has not reported a
terminal, and every call the manager has made, in order.
-/

namespace SpatialIde.Shell.Streaming

open Canvas (Bbox Filter)

def VIEWPORT_QUERY_MIN_INTERVAL_MS : Int := 120

inductive RequestOutcome where
  | issued (streamHandle : String)
  | throttled
  | superseded
  | stopped
  | sessionEnded
  deriving DecidableEq, Repr

namespace ViewportStreamManager

/-- What one call of `requestViewport` still needs after its first await. -/
structure Request where
  myGeneration : Nat
  bbox : Option Bbox
  bboxCrs : Option String
  filter : Option Filter
  deriving DecidableEq, Repr

/-- What an `async` method waits for, and what it keeps until then. -/
inductive Await where
  /-- `skpCancel` of the stream before, in `supersedeCurrent` for a request or for `stop`. -/
  | cancelPrevious (request : Option Request)
  /-- `supersedeCurrent` itself. -/
  | supersedeCurrent (request : Request)
  | viewportQuery (request : Request)
  | dataPlaneAttach (request : Request) (stream : String)
  /-- `skpCancel` of a ticket that came too late. -/
  | cancelMinted (stream : String) (outcome : RequestOutcome)
  /-- `skpCancel` of a ticket that was current while it attached. -/
  | cancelAttached (stream : String) (outcome : RequestOutcome)
  deriving DecidableEq, Repr

inductive Answer where
  /-- A cancel answered, or failed: a failure is swallowed. -/
  | done
  | minted (stream : String)
  | attached (attach : DataPlaneAttach)
  | rejected
  deriving DecidableEq, Repr

/-- The sink a stream was started with. -/
structure Sink where
  streamHandleAtStart : String
  filter : Option Filter
  deriving DecidableEq, Repr

/-- A call the manager makes, a ticket it is given or what a request comes to. -/
inductive Effect where
  | viewportQuery (dataset : String) (bbox : Option Bbox) (bboxCrs : Option String)
      (filter : Option Filter) (columns : Option (List String))
  | minted (stream : String)
  | skpCancel (stream : String)
  | dataPlaneAttach
  | startStream (attach : DataPlaneAttach) (ticketHandle : String)
  | onStreamOpened (streamHandle : String)
  | onBatch (streamHandle : String) (batchSeq : Nat) (payload : List UInt8)
      (filter : Option Filter)
  | onSuperseded (streamHandle : String)
  | onTerminal (streamHandle : String) (terminal : Terminal)
  | onSessionEnded (detail : String)
  | returned (outcome : RequestOutcome)
  | threw
  deriving DecidableEq, Repr

structure State where
  dataset : String
  columns : Option (List String)
  liveTickets : LiveTicketSet
  sessionEnded : Bool
  currentStreamHandle : Option String
  residentStreamHandle : Option String
  selfCancelledHandles : Finset String
  nextBatchSeq : Nat
  lastIssuedAtMs : Int
  generation : Nat
  stopped : Bool
  awaiting : List Await
  streams : List Sink
  calls : List Effect
  deriving DecidableEq

namespace State

def new (dataset : String) (columns : Option (List String)) : State where
  dataset := dataset
  columns := columns
  liveTickets := .new
  sessionEnded := false
  currentStreamHandle := none
  residentStreamHandle := none
  selfCancelledHandles := ∅
  nextBatchSeq := 0
  lastIssuedAtMs := 0
  generation := 0
  stopped := false
  awaiting := []
  streams := []
  calls := []

def tell (s : State) (e : Effect) : State := { s with calls := s.calls ++ [e] }

def await (s : State) (a : Await) : State := { s with awaiting := s.awaiting ++ [a] }

/-! ### Superseding and ending -/

/-- Nobody is current if this stream was. -/
def dropCurrent (s : State) (stream : String) : State :=
  { s with
    currentStreamHandle :=
      if s.currentStreamHandle = some stream then none else s.currentStreamHandle }

/-- The same for the resident stream, of which nothing was ever forwarded. -/
def dropResident (s : State) (stream : String) : State :=
  { s with
    residentStreamHandle :=
      if s.residentStreamHandle = some stream then none else s.residentStreamHandle }

def clearResidency (s : State) : State :=
  match s.residentStreamHandle with
  | none => s
  | some resident => { s with residentStreamHandle := none }.tell (.onSuperseded resident)

/-- `cancelStream`, whose await nothing follows. -/
def cancelStream (s : State) (streamHandle : String) : State :=
  let s := s.dropCurrent streamHandle
  { s with selfCancelledHandles := insert streamHandle s.selfCancelledHandles }.tell
    (.skpCancel streamHandle)

/-- The end of `supersedeCurrent`; `stop` has nothing to do after it. -/
def finishSupersede (s : State) (request : Option Request) : State :=
  match request with
  | none => s.clearResidency
  | some request => s.clearResidency.await (.supersedeCurrent request)

def supersedeCurrent (s : State) (request : Option Request) : State :=
  match s.currentStreamHandle with
  | none => s.finishSupersede request
  | some previous => (s.cancelStream previous).await (.cancelPrevious request)

def endSession (s : State) (detail : String) : State :=
  if s.sessionEnded then s
  else
    let s := { s with sessionEnded := true, liveTickets := s.liveTickets.invalidate }.clearResidency
    { s with residentStreamHandle := none, currentStreamHandle := none }.tell
      (.onSessionEnded detail)

def stop (s : State) : State :=
  { s with stopped := true, generation := s.generation + 1 }.supersedeCurrent none

/-! ### A request -/

def requestViewport (s : State) (bbox : Option Bbox) (bboxCrs : Option String) (nowMs : Int)
    (filter : Option Filter) : State :=
  if s.sessionEnded then s.tell (.returned .sessionEnded)
  else if s.stopped then s.tell (.returned .stopped)
  else if nowMs - s.lastIssuedAtMs < VIEWPORT_QUERY_MIN_INTERVAL_MS then
    s.tell (.returned .throttled)
  else
    { s with lastIssuedAtMs := nowMs, generation := s.generation + 1 }.supersedeCurrent
      (some ⟨s.generation + 1, bbox, bboxCrs, filter⟩)

/-- After `supersedeCurrent`: the ticket is asked for, unless a newer request has come. -/
def afterSupersede (s : State) (request : Request) : State :=
  if request.myGeneration ≠ s.generation then s.tell (.returned .superseded)
  else
    (s.tell (.viewportQuery s.dataset request.bbox request.bboxCrs request.filter s.columns)).await
      (.viewportQuery request)

/-- After `viewportQuery`: the ticket becomes current, unless it came too late. -/
def afterMint (s : State) (request : Request) (stream : String) : State :=
  let s := s.tell (.minted stream)
  if s.sessionEnded then
    (s.tell (.skpCancel stream)).await (.cancelMinted stream .sessionEnded)
  else if request.myGeneration ≠ s.generation then
    (s.tell (.skpCancel stream)).await (.cancelMinted stream .superseded)
  else
    ({ s with
      currentStreamHandle := some stream
      residentStreamHandle := some stream
      nextBatchSeq := 0
      liveTickets := s.liveTickets.admitTicket stream }.tell .dataPlaneAttach).await
        (.dataPlaneAttach request stream)

/-- After `dataPlaneAttach`: the stream is started, unless it is too late. -/
def afterAttach (s : State) (request : Request) (stream : String) (attach : DataPlaneAttach) :
    State :=
  if s.sessionEnded then
    (s.tell (.skpCancel stream)).await (.cancelAttached stream .sessionEnded)
  else if request.myGeneration ≠ s.generation then
    (s.tell (.skpCancel stream)).await (.cancelAttached stream .superseded)
  else
    ({ s with streams := s.streams ++ [Sink.mk stream request.filter] }.tell
      (.startStream attach stream)).tell (.returned (.issued stream))

/-- After the cancel of a ticket that was current; at the end of a session it leaves the live set
as well. -/
def afterCancelAttached (s : State) (stream : String) (outcome : RequestOutcome) : State :=
  let s := if outcome = .sessionEnded then
    { s with liveTickets := s.liveTickets.retire stream } else s
  ((s.dropCurrent stream).dropResident stream).tell (.returned outcome)

/-- A method goes on with its answer. -/
def resume (s : State) : Await → Answer → Option State
  | .cancelPrevious request, .done => some (s.finishSupersede request)
  | .supersedeCurrent request, .done => some (s.afterSupersede request)
  | .viewportQuery request, .minted stream =>
    -- The kernel hands out a handle once.
    if .minted stream ∈ s.calls ∨ .skpCancel stream ∈ s.calls then none
    else some (s.afterMint request stream)
  | .viewportQuery _, .rejected => some (s.tell .threw)
  | .dataPlaneAttach request stream, .attached attach => some (s.afterAttach request stream attach)
  | .dataPlaneAttach _ _, .rejected => some (s.tell .threw)
  | .cancelMinted _ outcome, .done => some (s.tell (.returned outcome))
  | .cancelAttached stream outcome, .done => some (s.afterCancelAttached stream outcome)
  | _, _ => none

/-! ### The sink of a stream -/

def onOpen (s : State) (sink : Sink) : State :=
  if s.currentStreamHandle ≠ some sink.streamHandleAtStart then s
  else s.tell (.onStreamOpened sink.streamHandleAtStart)

def onBatch (s : State) (sink : Sink) (payload : List UInt8) : State :=
  if !s.liveTickets.isLive sink.streamHandleAtStart then s
  else if s.currentStreamHandle ≠ some sink.streamHandleAtStart then s
  else
    { s with nextBatchSeq := s.nextBatchSeq + 1 }.tell
      (.onBatch sink.streamHandleAtStart s.nextBatchSeq payload sink.filter)

/-- The end of `onTerminal`: a terminal of a stream the manager cancelled is suppressed. -/
def reportTerminal (s : State) (sink : Sink) (terminal : Terminal) : State :=
  if sink.streamHandleAtStart ∈ s.selfCancelledHandles then
    { s with selfCancelledHandles := s.selfCancelledHandles.erase sink.streamHandleAtStart }
  else s.tell (.onTerminal sink.streamHandleAtStart terminal)

def onTerminal (s : State) (sink : Sink) (terminal : Terminal) : State :=
  let s := s.dropCurrent sink.streamHandleAtStart
  let s := { s with liveTickets := s.liveTickets.retire sink.streamHandleAtStart }
  let s := if isSessionEndedTerminal terminal then s.endSession terminal.detail else s
  s.reportTerminal sink terminal

end State

/-! ### Steps -/

inductive Event where
  | requestViewport (bbox : Option Bbox) (bboxCrs : Option String) (nowMs : Int)
      (filter : Option Filter)
  | answer (await : Await) (answer : Answer)
  | cancelStream (streamHandle : String)
  | notifySessionEnded (detail : String)
  | stop
  | opened (sink : Sink)
  | batch (sink : Sink) (payload : List UInt8)
  | terminal (sink : Sink) (terminal : Terminal)
  deriving DecidableEq, Repr

/-- One step; an answer nobody waits for and a frame of a stream that is over do not come. -/
def step (s : State) : Event → Option State
  | .requestViewport bbox bboxCrs nowMs filter =>
    some (s.requestViewport bbox bboxCrs nowMs filter)
  | .answer await answer =>
    if await ∈ s.awaiting then { s with awaiting := s.awaiting.erase await }.resume await answer
    else none
  | .cancelStream streamHandle => some (s.cancelStream streamHandle)
  | .notifySessionEnded detail => some (s.endSession detail)
  | .stop => some s.stop
  | .opened sink => if sink ∈ s.streams then some (s.onOpen sink) else none
  | .batch sink payload => if sink ∈ s.streams then some (s.onBatch sink payload) else none
  | .terminal sink terminal =>
    -- A transport reports one terminal and nothing after it.
    if sink ∈ s.streams then
      some ({ s with streams := s.streams.erase sink }.onTerminal sink terminal)
    else none

end ViewportStreamManager

end SpatialIde.Shell.Streaming
