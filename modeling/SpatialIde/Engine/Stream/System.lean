import SpatialIde.Engine.Stream.Thread

/-! # A producer thread and its consumer

`Step` is one move of the system a stream is: the thread gets an answer, the
consumer takes a message off the bounded channel or finds it gone, somebody
cancels, the file changes, the stream is dropped.  Moves come in any order.

`Sound` is what holds in every state that is reached (`Reachable.sound`): what
the consumer has received and what is queued are what the thread has sent, in
order, and `Stage` is how far the consumer has come.
-/

namespace SpatialIde.Engine.Stream

open Lib Wkb

abbrev Message := Except EngineError Item

/-! ### The consumer -/

structure BatchInfo where
  rows : Nat
  vertices : Nat
  payloadBytes : Nat
  batchIndex : Nat
  targetBytes : Nat
  cutBy : BatchCut
  deriving DecidableEq, Repr

/-- What a bounded wait on the producer found. -/
inductive BatchPoll where
  | ready (result : Except EngineError BatchInfo)
  | ended
  | wouldBlock
  deriving DecidableEq, Repr

/-- What `recv_timeout` returns. -/
inductive TimedReceive where
  | message (m : Message)
  | timeout
  | disconnected

/-- The consumer's side of a stream: whether it is over, and the batches written into `out`. -/
structure BatchStream where
  finished : Bool
  out : List Item
  deriving DecidableEq, Repr

namespace BatchStream

/-- The one place a received item becomes a `BatchInfo`; `ipc` is how writing it ends, with the
bytes written. -/
def absorb (s : BatchStream) (item : Item) (ipc : Except EngineError Nat) :
    Except EngineError BatchInfo × BatchStream :=
  match ipc with
  | .error e => (.error e, { s with finished := true })
  | .ok bytes => (.ok ⟨item.batch.ids.length, item.vertices, bytes, item.batchIndex,
      item.targetBytes, item.cutBy⟩, { s with out := s.out ++ [item] })

/-- `next_into`; a receive finds a message, or that the channel is gone. -/
def nextInto (s : BatchStream) (received : Option Message) (ipc : Except EngineError Nat) :
    Option (Except EngineError BatchInfo) × BatchStream :=
  if s.finished then (none, s)
  else match received with
    | some (.ok item) => ((s.absorb item ipc).map some id)
    | some (.error e) => (some (.error e), { s with finished := true })
    | none => (none, { s with finished := true })

def nextIntoTimeout (s : BatchStream) (received : TimedReceive) (ipc : Except EngineError Nat) :
    BatchPoll × BatchStream :=
  if s.finished then (.ended, s)
  else match received with
    | .message (.ok item) => ((s.absorb item ipc).map .ready id)
    | .message (.error e) => (.ready (.error e), { s with finished := true })
    | .timeout => (.wouldBlock, s)
    | .disconnected => (.ended, { s with finished := true })

end BatchStream

/-- What one call returned. -/
inductive Call where
  | next (result : Option (Except EngineError BatchInfo))
  | poll (result : BatchPoll)
  deriving DecidableEq, Repr

namespace Call

/-- The error a call returned. -/
def error? : Call → Option EngineError
  | next (some (.error e)) | poll (.ready (.error e)) => some e
  | _ => none

/-- The call said that the stream is over. -/
def isEnd : Call → Bool
  | next none | poll .ended => true
  | _ => false

/-- Neither an error nor the end. -/
def Quiet (c : Call) : Prop := c.error? = none ∧ c.isEnd = false

end Call

/-! ### The system -/

structure System where
  /-- What is left of the thread; `none` once its end of the channel is dropped. -/
  thread : Option (Thread Unit)
  queue : List Message
  cancelled : Bool
  /-- The source, as a read of its descriptor finds it. -/
  file : Except String SourceDescriptor
  stats : PostCheckStats
  stream : BatchStream
  dropped : Bool
  /-- History: what the thread asked and was answered. -/
  trace : List (Event Ask.Answer)
  /-- History: the messages taken off the channel. -/
  received : List Message
  /-- History: what the calls returned. -/
  calls : List Call
  /-- History: the failure of the consumer's own serialization. -/
  unwritten : Option EngineError

/-- The message a receive took off the channel. -/
def TimedReceive.message? : TimedReceive → Option Message
  | .message m => some m
  | _ => none

/-- The failure to write what was received. -/
def writeFailure : TimedReceive → Except EngineError Nat → Option EngineError
  | .message (.ok _), .error e => some e
  | _, _ => none

namespace System

/-- The answers the state of the system allows. -/
def Answers (s : System) : (q : Ask) → q.Answer → Prop
  | .isCancelled, cancelled => cancelled = s.cancelled
  -- The channel is bounded: a send waits for a free slot, or finds the consumer gone.
  | .send _, there => if s.dropped then there = false
      else there = true ∧ s.queue.length < MAX_QUEUED_BATCHES
  | .reread, now => now = s.file
  | _, _ => True

/-- The queue after the thread has been answered. -/
def enqueue (queue : List Message) : Event Ask.Answer → List Message
  | ⟨.send m, true⟩ => queue ++ [m]
  | _ => queue

/-- The thread goes on with an answer. -/
def answered (s : System) (e : Event Ask.Answer) (rest : Thread Unit) : System :=
  { s with thread := some rest, queue := enqueue s.queue e, stats := s.stats.record e,
           trace := s.trace ++ [e] }

/-- What a receive finds, and the queue it leaves. -/
inductive Receives (s : System) : TimedReceive → List Message → Prop
  | message {m : Message} {rest : List Message} (h : s.queue = m :: rest) :
      Receives s (.message m) rest
  | disconnected (empty : s.queue = []) (gone : s.thread = none) : Receives s .disconnected []
  | timeout (empty : s.queue = []) (there : s.thread ≠ none) : Receives s .timeout []

/-- A stream that is over does not receive. -/
def Consumes (s : System) (found : TimedReceive) (rest : List Message) : Prop :=
  if s.stream.finished then rest = s.queue else s.Receives found rest

/-- The state after a call that returned `call` and left `stream`. -/
def called (s : System) (found : TimedReceive) (rest : List Message) (ipc : Except EngineError Nat)
    (call : Call) (stream : BatchStream) : System :=
  { s with
    queue := rest
    stream := stream
    received := if s.stream.finished then s.received else s.received ++ found.message?.toList
    calls := s.calls ++ [call]
    unwritten := if s.stream.finished then s.unwritten else writeFailure found ipc }

end System

/-- What `recv` finds, where it finds anything. -/
def timed : Option Message → TimedReceive
  | some m => .message m
  | none => .disconnected

inductive Step : System → System → Prop
  /-- The thread asks, and goes on with the answer. -/
  | answer {s : System} {q : Ask} {k : q.Answer → Thread Unit} {a : q.Answer}
      (running : s.thread = some (.ask q k)) (fits : s.Answers q a) :
      Step s (s.answered ⟨q, a⟩ (k a))
  /-- The thread is over, or it unwinds: its end of the channel is dropped. -/
  | close {s : System} {p : Thread Unit} {r : Except Unwound Unit} (running : s.thread = some p)
      (ended : p.Runs [] r) : Step s { s with thread := none }
  | nextInto {s : System} {found : Option Message} {rest : List Message}
      {ipc : Except EngineError Nat} (there : s.dropped = false)
      (consumes : s.Consumes (timed found) rest) :
      Step s (s.called (timed found) rest ipc (.next (s.stream.nextInto found ipc).1)
        (s.stream.nextInto found ipc).2)
  | nextIntoTimeout {s : System} {found : TimedReceive} {rest : List Message}
      {ipc : Except EngineError Nat} (there : s.dropped = false)
      (consumes : s.Consumes found rest) :
      Step s (s.called found rest ipc (.poll (s.stream.nextIntoTimeout found ipc).1)
        (s.stream.nextIntoTimeout found ipc).2)
  | cancel (s : System) : Step s { s with cancelled := true }
  | change (s : System) (file : Except String SourceDescriptor) : Step s { s with file := file }
  /-- Dropping the stream cancels it. -/
  | drop (s : System) : Step s { s with dropped := true, cancelled := true, queue := [] }

variable (K : Kernels) (plan : Plan) (source : Source) (opened : SourceDescriptor)

/-- A stream that has just been opened, on a token that may have been cancelled. -/
def System.start (cancelled : Bool) (file : Except String SourceDescriptor) : System where
  thread := some (producerThread K plan source opened)
  queue := []
  cancelled := cancelled
  file := file
  stats := ⟨0, none⟩
  stream := ⟨false, []⟩
  dropped := false
  trace := []
  received := []
  calls := []
  unwritten := none

inductive Reachable : System → Prop
  | start (cancelled : Bool) (file : Except String SourceDescriptor) :
      Reachable (.start K plan source opened cancelled file)
  | step {s s' : System} (h : Reachable s) (hstep : Step s s') : Reachable s'

/-! ### The invariant -/

/-- How far the consumer has come. -/
inductive Stage (s : System) : Prop
  | reading (finished : s.stream.finished = false) (quiet : ∀ c ∈ s.calls, c.Quiet)
      (items : s.received = s.stream.out.map .ok) (written : s.unwritten = none)
  /-- A batch could not be written. -/
  | unwritten (e : EngineError) (pre post : List Call) (call : Call)
      (finished : s.stream.finished = true) (calls : s.calls = pre ++ call :: post)
      (quiet : ∀ c ∈ pre, c.Quiet) (error : call.error? = some e)
      (ends : ∀ c ∈ post, c.isEnd = true) (unwritten : s.unwritten = some e)
  /-- An error was received. -/
  | failed (e : EngineError) (pre post : List Call) (call : Call)
      (finished : s.stream.finished = true) (calls : s.calls = pre ++ call :: post)
      (quiet : ∀ c ∈ pre, c.Quiet) (error : call.error? = some e)
      (ends : ∀ c ∈ post, c.isEnd = true) (items : s.received = s.stream.out.map .ok ++ [.error e])
      (written : s.unwritten = none)
  /-- The channel was found empty and gone. -/
  | ended (pre post : List Call) (finished : s.stream.finished = true)
      (calls : s.calls = pre ++ post) (quiet : ∀ c ∈ pre, c.Quiet)
      (ends : ∀ c ∈ post, c.isEnd = true) (items : s.received = s.stream.out.map .ok)
      (gone : s.thread = none) (all : s.received = messages s.trace)
      (accepted : ∀ m, ⟨.send m, false⟩ ∉ s.trace) (written : s.unwritten = none)

structure Sound (s : System) : Prop where
  running : ∀ p, s.thread = some p → (producerThread K plan source opened).Reaches s.trace p
  gone : s.thread = none → ∃ r, (producerThread K plan source opened).Runs s.trace r
  received : s.received <+: messages s.trace
  fifo : s.dropped = false → s.received ++ s.queue = messages s.trace
  refused : ∀ m, ⟨.send m, false⟩ ∈ s.trace → s.dropped = true
  stats : s.stats = s.trace.foldl PostCheckStats.record ⟨0, none⟩
  stage : Stage s

variable {K plan source opened}

theorem sound_start (cancelled : Bool) (file : Except String SourceDescriptor) :
    Sound K plan source opened (.start K plan source opened cancelled file) where
  running := by
    intro p hp
    cases hp
    exact .refl _
  gone := by intro h; cases h
  received := List.prefix_refl _
  fifo := fun _ => rfl
  refused := by intro m h; cases h
  stats := rfl
  stage := .reading rfl (by intro c h; cases h) rfl rfl

/-- What the consumer has seen stays, whatever the others do. -/
theorem Stage.keep {s s' : System} (h : Stage s) (hstream : s'.stream = s.stream)
    (hcalls : s'.calls = s.calls) (hreceived : s'.received = s.received)
    (hunwritten : s'.unwritten = s.unwritten)
    (hgone : s.thread = none → s'.thread = none ∧ s'.trace = s.trace) : Stage s' := by
  cases h with
  | reading finished quiet items written =>
    exact .reading (hstream ▸ finished) (hcalls ▸ quiet) (by rw [hreceived, hstream, items])
      (hunwritten.trans written)
  | unwritten e pre post call finished calls quiet error ends unwritten =>
    exact .unwritten e pre post call (hstream ▸ finished) (hcalls.trans calls) quiet error ends
      (hunwritten.trans unwritten)
  | failed e pre post call finished calls quiet error ends items written =>
    exact .failed e pre post call (hstream ▸ finished) (hcalls.trans calls) quiet error ends
      (by rw [hreceived, hstream, items]) (hunwritten.trans written)
  | ended pre post finished calls quiet ends items gone all accepted written =>
    obtain ⟨hthread, htrace⟩ := hgone gone
    exact .ended pre post (hstream ▸ finished) (hcalls.trans calls) quiet ends
      (by rw [hreceived, hstream, items]) hthread (by rw [hreceived, htrace, all])
      (htrace ▸ accepted) (hunwritten.trans written)

/-- Moves that only the other parties notice. -/
theorem Sound.aside {s s' : System} (h : Sound K plan source opened s)
    (hthread : s'.thread = s.thread) (htrace : s'.trace = s.trace) (hstats : s'.stats = s.stats)
    (hreceived : s'.received = s.received) (hdropped : s.dropped = true → s'.dropped = true)
    (hqueue : s'.dropped = false → s'.queue = s.queue) (hstage : Stage s') :
    Sound K plan source opened s' where
  running := by rw [hthread, htrace]; exact h.running
  gone := by rw [hthread, htrace]; exact h.gone
  received := by rw [hreceived, htrace]; exact h.received
  fifo := by
    intro hno
    rw [hreceived, htrace, hqueue hno]
    refine h.fifo ?_
    cases hs : s.dropped with
    | false => rfl
    | true => rw [hdropped hs] at hno; cases hno
  refused := by
    intro m hm
    rw [htrace] at hm
    exact hdropped (h.refused m hm)
  stats := by rw [hstats, htrace]; exact h.stats
  stage := hstage

theorem messages_snoc (tr : List (Event Ask.Answer)) (queue : List Message) (e : Event Ask.Answer)
    {front : List Message} (h : front ++ queue = messages tr) :
    front ++ System.enqueue queue e = messages (tr ++ [e]) := by
  rw [messages_append, ← h, List.append_assoc]
  congr 1
  obtain ⟨q, a⟩ := e
  cases q with
  | send m => cases a <;> simp [System.enqueue, messages]
  | _ => simp [System.enqueue, messages]

theorem Sound.answer {s : System} (h : Sound K plan source opened s) {q : Ask}
    {k : q.Answer → Thread Unit} {a : q.Answer} (running : s.thread = some (.ask q k))
    (fits : s.Answers q a) : Sound K plan source opened (s.answered ⟨q, a⟩ (k a)) where
  running := by
    intro p hp
    cases hp
    exact (h.running _ running).step a
  gone := by intro hover; cases hover
  received := by
    show s.received <+: messages (s.trace ++ [⟨q, a⟩])
    rw [messages_append]
    exact h.received.trans (List.prefix_append _ _)
  fifo hdrop := messages_snoc s.trace s.queue ⟨q, a⟩ (h.fifo hdrop)
  refused := by
    intro m hm
    rcases List.mem_append.1 hm with hm | hm
    · exact h.refused m hm
    · cases List.mem_singleton.1 hm
      have hfits : if s.dropped then false = false
          else false = true ∧ s.queue.length < MAX_QUEUED_BATCHES := fits
      show s.dropped = true
      by_contra hthere
      rw [if_neg hthere] at hfits
      exact Bool.false_ne_true hfits.1
  stats := by
    show s.stats.record _ = (s.trace ++ [_]).foldl _ _
    rw [List.foldl_append, h.stats]
    rfl
  stage := h.stage.keep rfl rfl rfl rfl fun gone => by rw [gone] at running; cases running

theorem Sound.close {s : System} (h : Sound K plan source opened s) {p : Thread Unit}
    {r : Except Unwound Unit} (running : s.thread = some p) (ended : p.Runs [] r) :
    Sound K plan source opened { s with thread := none } where
  running := by intro p hp; cases hp
  gone := by
    intro _
    have hruns := (h.running p running).runs ended
    rw [List.append_nil] at hruns
    exact ⟨r, hruns⟩
  received := h.received
  fifo := h.fifo
  refused := h.refused
  stats := h.stats
  stage := h.stage.keep rfl rfl rfl rfl fun _ => ⟨rfl, rfl⟩

/-- What a call does to a stream that is not over. -/
inductive Took (b : BatchStream) (ipc : Except EngineError Nat) :
    TimedReceive → Call → BatchStream → Prop
  | batch {item : Item} {bytes : Nat} {call : Call} (hipc : ipc = .ok bytes) (quiet : call.Quiet) :
      Took b ipc (.message (.ok item)) call ⟨b.finished, b.out ++ [item]⟩
  | unwritten {item : Item} {e : EngineError} {call : Call} (hipc : ipc = .error e)
      (error : call.error? = some e) : Took b ipc (.message (.ok item)) call ⟨true, b.out⟩
  | failed {e : EngineError} {call : Call} (error : call.error? = some e) :
      Took b ipc (.message (.error e)) call ⟨true, b.out⟩
  | ended {call : Call} (ends : call.isEnd = true) : Took b ipc .disconnected call ⟨true, b.out⟩
  | waiting {call : Call} (quiet : call.Quiet) : Took b ipc .timeout call b

theorem nextInto_took {b : BatchStream} (h : b.finished = false) (found : Option Message)
    (ipc : Except EngineError Nat) :
    Took b ipc (timed found) (.next (b.nextInto found ipc).1) (b.nextInto found ipc).2 := by
  have hopen : ¬b.finished = true := by rw [h]; exact Bool.false_ne_true
  unfold BatchStream.nextInto
  rw [if_neg hopen]
  cases found with
  | none => exact .ended rfl
  | some m =>
    cases m with
    | error e => exact .failed rfl
    | ok item =>
      cases ipc with
      | error e => exact .unwritten rfl rfl
      | ok bytes => exact .batch rfl ⟨rfl, rfl⟩

theorem nextIntoTimeout_took {b : BatchStream} (h : b.finished = false) (found : TimedReceive)
    (ipc : Except EngineError Nat) :
    Took b ipc found (.poll (b.nextIntoTimeout found ipc).1) (b.nextIntoTimeout found ipc).2 := by
  have hopen : ¬b.finished = true := by rw [h]; exact Bool.false_ne_true
  unfold BatchStream.nextIntoTimeout
  rw [if_neg hopen]
  cases found with
  | disconnected => exact .ended rfl
  | timeout => exact .waiting ⟨rfl, rfl⟩
  | message m =>
    cases m with
    | error e => exact .failed rfl
    | ok item =>
      cases ipc with
      | error e => exact .unwritten rfl rfl
      | ok bytes => exact .batch rfl ⟨rfl, rfl⟩

/-- A call on a stream that is over. -/
theorem Stage.again {s s' : System} (h : Stage s) (finished : s.stream.finished = true) {call : Call}
    (hend : call.isEnd = true) (hcalls : s'.calls = s.calls ++ [call]) (hstream : s'.stream = s.stream)
    (hreceived : s'.received = s.received) (hunwritten : s'.unwritten = s.unwritten)
    (hthread : s'.thread = s.thread) (htrace : s'.trace = s.trace) : Stage s' := by
  have hends : ∀ post : List Call, (∀ c ∈ post, c.isEnd = true) →
      ∀ c ∈ post ++ [call], c.isEnd = true := by
    intro post hpost c hc
    rcases List.mem_append.1 hc with hc | hc
    · exact hpost c hc
    · exact List.mem_singleton.1 hc ▸ hend
  cases h with
  | reading hopen => rw [hopen] at finished; cases finished
  | unwritten e pre post c finished calls quiet error ends unwritten =>
    refine .unwritten e pre (post ++ [call]) c (hstream ▸ finished) ?_ quiet error (hends post ends)
      (hunwritten.trans unwritten)
    rw [hcalls, calls, List.append_assoc]
    rfl
  | failed e pre post c finished calls quiet error ends items written =>
    refine .failed e pre (post ++ [call]) c (hstream ▸ finished) ?_ quiet error (hends post ends) ?_
      (hunwritten.trans written)
    · rw [hcalls, calls, List.append_assoc]
      rfl
    · rw [hreceived, hstream, items]
  | ended pre post finished calls quiet ends items gone all accepted written =>
    refine .ended pre (post ++ [call]) (hstream ▸ finished) ?_ quiet (hends post ends) ?_
      (hthread.trans gone) ?_ (htrace ▸ accepted) (hunwritten.trans written)
    · rw [hcalls, calls, List.append_assoc]
    · rw [hreceived, hstream, items]
    · rw [hreceived, htrace, all]

/-- **A call on a stream that is not over** takes it on by what it found. -/
theorem Sound.took {s : System} (h : Sound K plan source opened s) {found : TimedReceive}
    {rest : List Message} {ipc : Except EngineError Nat} {call : Call} {stream : BatchStream}
    (there : s.dropped = false) (hopen : s.stream.finished = false)
    (receives : s.Receives found rest) (took : Took s.stream ipc found call stream) :
    Sound K plan source opened (s.called found rest ipc call stream) := by
  have hnot : ¬s.stream.finished = true := by rw [hopen]; exact Bool.false_ne_true
  have hfifo := h.fifo there
  obtain ⟨quiet, items, written⟩ : (∀ c ∈ s.calls, c.Quiet) ∧
      s.received = s.stream.out.map .ok ∧ s.unwritten = none := by
    cases h.stage with
    | reading _ quiet items written => exact ⟨quiet, items, written⟩
    | unwritten _ _ _ _ finished => exact absurd finished hnot
    | failed _ _ _ _ finished => exact absurd finished hnot
    | ended _ _ finished => exact absurd finished hnot
  have hquiet : call.Quiet → ∀ c ∈ s.calls ++ [call], c.Quiet := by
    intro hcall c hc
    rcases List.mem_append.1 hc with hc | hc
    · exact quiet c hc
    · exact List.mem_singleton.1 hc ▸ hcall
  have hnil : ∀ c : Call, c ∈ ([] : List Call) → c.isEnd = true := by
    intro c hc
    cases hc
  have hreceived : (s.called found rest ipc call stream).received =
      s.received ++ found.message?.toList := if_neg hnot
  have hunwritten : (s.called found rest ipc call stream).unwritten = writeFailure found ipc :=
    if_neg hnot
  refine ⟨h.running, h.gone, ?_, ?_, h.refused, h.stats, ?_⟩
  · rw [hreceived]
    show _ <+: messages s.trace
    rw [← hfifo]
    cases receives with
    | message hqueue =>
      rw [hqueue]
      exact ⟨rest, by simp [TimedReceive.message?]⟩
    | disconnected empty gone => exact (List.prefix_append_right_inj _).2 List.nil_prefix
    | timeout empty there => exact (List.prefix_append_right_inj _).2 List.nil_prefix
  · intro _
    rw [hreceived]
    show _ ++ rest = messages s.trace
    rw [← hfifo, List.append_assoc]
    cases receives with
    | message hqueue => rw [hqueue]; rfl
    | disconnected empty gone => rw [empty]; rfl
    | timeout empty there => rw [empty]; rfl
  · cases took with
    | batch hipc hcall =>
      refine .reading hopen (hquiet hcall) ?_ ?_
      · rw [hreceived, items]
        show _ = (s.stream.out ++ [_]).map _
        rw [List.map_append]
        rfl
      · rw [hunwritten, hipc]
        rfl
    | unwritten hipc error =>
      refine .unwritten _ s.calls [] call rfl rfl quiet error hnil ?_
      rw [hunwritten, hipc]
      rfl
    | failed error =>
      refine .failed _ s.calls [] call rfl rfl quiet error hnil ?_ ?_
      · rw [hreceived, items]
        rfl
      · rw [hunwritten]
        rfl
    | waiting hcall =>
      refine .reading hopen (hquiet hcall) ?_ ?_
      · rw [hreceived, items]
        exact List.append_nil _
      · rw [hunwritten]
        rfl
    | ended hend =>
      cases receives with
      | disconnected empty gone =>
        refine .ended s.calls [call] rfl rfl quiet ?_ ?_ gone ?_ ?_ ?_
        · intro c hc
          exact List.mem_singleton.1 hc ▸ hend
        · rw [hreceived, items]
          exact List.append_nil _
        · rw [hreceived]
          show s.received ++ [] = messages s.trace
          rw [← hfifo, empty]
        · intro m hm
          have hdropped := h.refused m hm
          rw [there] at hdropped
          cases hdropped
        · rw [hunwritten]
          rfl

/-- A call, whether the stream is over or not. -/
theorem Sound.call {s : System} (h : Sound K plan source opened s) {found : TimedReceive}
    {rest : List Message} {ipc : Except EngineError Nat} {call : Call} {stream : BatchStream}
    (there : s.dropped = false) (consumes : s.Consumes found rest)
    (hover : s.stream.finished = true → call.isEnd = true ∧ stream = s.stream)
    (took : s.stream.finished = false → Took s.stream ipc found call stream) :
    Sound K plan source opened (s.called found rest ipc call stream) := by
  unfold System.Consumes at consumes
  by_cases finished : s.stream.finished = true
  · obtain ⟨hend, rfl⟩ := hover finished
    rw [if_pos finished] at consumes
    have hreceived : (s.called found rest ipc call s.stream).received = s.received := if_pos finished
    have hunwritten : (s.called found rest ipc call s.stream).unwritten = s.unwritten :=
      if_pos finished
    refine ⟨h.running, h.gone, ?_, fun hdrop => ?_, h.refused, h.stats, ?_⟩
    · rw [hreceived]
      exact h.received
    · rw [hreceived]
      show s.received ++ rest = _
      rw [consumes]
      exact h.fifo there
    · exact h.stage.again finished hend rfl rfl hreceived hunwritten rfl rfl
  · have hopen : s.stream.finished = false := by simpa using finished
    rw [if_neg finished] at consumes
    exact h.took there hopen consumes (took hopen)

/-- **Every move keeps the system sound.** -/
theorem Sound.step {s s' : System} (h : Sound K plan source opened s) (hstep : Step s s') :
    Sound K plan source opened s' := by
  cases hstep with
  | answer running fits => exact h.answer running fits
  | close running ended => exact h.close running ended
  | nextInto there consumes =>
    refine h.call there consumes (fun finished => ?_) fun hopen => nextInto_took hopen _ _
    unfold BatchStream.nextInto
    rw [if_pos finished]
    exact ⟨rfl, rfl⟩
  | nextIntoTimeout there consumes =>
    refine h.call there consumes (fun finished => ?_) fun hopen => nextIntoTimeout_took hopen _ _
    unfold BatchStream.nextIntoTimeout
    rw [if_pos finished]
    exact ⟨rfl, rfl⟩
  | cancel | change =>
    exact h.aside rfl rfl rfl rfl id (fun _ => rfl)
      (h.stage.keep rfl rfl rfl rfl fun gone => ⟨gone, rfl⟩)
  | drop =>
    exact h.aside rfl rfl rfl rfl (fun _ => rfl) (fun hno => by cases hno)
      (h.stage.keep rfl rfl rfl rfl fun gone => ⟨gone, rfl⟩)

/-- **Every reachable state is sound.** -/
theorem Reachable.sound {s : System} (h : Reachable K plan source opened s) :
    Sound K plan source opened s := by
  induction h with
  | start cancelled file => exact sound_start cancelled file
  | step _ hstep ih => exact ih.step hstep

end SpatialIde.Engine.Stream
