import SpatialIde.Lib.Runs
import SpatialIde.Shell.Streaming.LiveTicketSet

/-! # The client of one stream

One socket, one operation.  The frames of a message go to the sink one by one, and credit is granted
as batches are handled.  What the callbacks of the sink do is up to its owner: each may cancel the
stream, and then returns or throws.
-/

namespace SpatialIde.Shell.Streaming.AdapterWs

open Lib

def CREDIT_WINDOW : Int := 4

inductive ReadyState where
  | connecting
  | opened
  | closing
  | closed
  deriving DecidableEq, Repr

/-- What was thrown, by the text it turns into: its message, or what `String` makes of it.  There is
none where that throws itself. -/
structure Thrown where
  text : Option String
  deriving DecidableEq, Repr

/-- What a callback of the sink does. -/
structure Reaction where
  /-- The calls it makes of the stream's `cancel`. -/
  cancels : Nat
  throws : Option Thrown

/-- What has happened. -/
inductive Entry where
  | sendStart
  | sendCredit (n : Int)
  | sendCancel
  | close
  | onOpen (operationId streamId : String)
  | onBatch (payload : List UInt8) (contiguous : Bool)
  | onProgress (progress : Progress)
  | onTerminal (terminal : Terminal)
  /-- A callback has thrown. -/
  | threw
  /-- The decoder has thrown. -/
  | pushThrew
  | logSessionEvent (text : String)
  /-- An exception has left a listener. -/
  | escaped
  | errorEvent
  | closeEvent
  deriving DecidableEq, Repr

structure State where
  readyState : ReadyState
  decoder : FrameDecoder
  outstanding : Int
  finished : Bool
  /-- How many callbacks have been called. -/
  calls : Nat
  log : List Entry
  deriving DecidableEq, Repr

def kindText : TerminalKind → String
  | .completed => "Completed"
  | .cancelled => "Cancelled"
  | .producerFailed => "ProducerFailed"
  | .transportFailed => "TransportFailed"
  | .decodeFailed => "DecodeFailed"
  | .sinkPoisoned => "SinkPoisoned"

namespace State

def tell (s : State) (e : Entry) : State := { s with log := s.log ++ [e] }

/-! ### The socket -/

def grant (s : State) (n : Int) : State :=
  if s.readyState = .opened then
    { s with outstanding := s.outstanding + n }.tell (.sendCredit n)
  else s

def begin (s : State) : State := (s.tell .sendStart).grant CREDIT_WINDOW

/-- `ws.close()`, of a socket that is open. -/
def close (s : State) : State := { s with readyState := .closing }.tell .close

/-- `cancel` of the stream that `startStream` returns. -/
def cancel (s : State) : State := if s.readyState = .opened then s.tell .sendCancel else s

/-- The state a fresh socket is found in. -/
def start (readyState : ReadyState) (maxFrameBytes : Nat) : State :=
  let s : State := ⟨readyState, .new maxFrameBytes, 0, false, 0, []⟩
  if readyState = .opened then s.begin else s

section

-- What the callbacks of the sink do, by their number.
variable (sink : Nat → Reaction)

/-! ### The sink -/

def callSink (s : State) (e : Entry) : State × Option Thrown :=
  let reaction := sink s.calls
  let s := cancel^[reaction.cancels] ({ s with calls := s.calls + 1 }.tell e)
  match reaction.throws with
  | none => (s, none)
  | some err => (s.tell .threw, some err)

/-- Cancel, then close. -/
def cleanUp (s : State) : State :=
  if s.readyState = .opened then (s.tell .sendCancel).close else s

def abandonStream (s : State) (terminal : Terminal) : State :=
  if s.finished then s.cleanUp
  else
    match { s with finished := true }.callSink sink (.onTerminal terminal) with
    | (s, none) => s.cleanUp
    | (s, some err) =>
      match err.text with
      | some text =>
        (s.tell (.logSessionEvent (kindText terminal.kind ++ " " ++ terminal.detail ++
          ": onTerminal itself threw -- " ++ text))).cleanUp
      | none => s.tell .escaped

/-- A `catch` that abandons the stream. -/
def failWith (s : State) (kind : TerminalKind) (err : Thrown) : State :=
  match err.text with
  | some detail => s.abandonStream sink ⟨kind, detail⟩
  | none => s.tell .escaped

/-! ### The listeners -/

/-- One frame. -/
def dispatch (s : State) : Frame → State × Option Thrown
  | .opened operationId streamId => s.callSink sink (.onOpen operationId streamId)
  | .batch payload contiguous =>
    match { s with outstanding := s.outstanding - 1 }.callSink sink (.onBatch payload contiguous) with
    | (s, none) =>
      (if s.outstanding ≤ CREDIT_WINDOW / 2 then s.grant (CREDIT_WINDOW - s.outstanding) else s, none)
    | (s, some err) => (s, some err)
  | .progress progress => s.callSink sink (.onProgress progress)
  | .terminal kind detail =>
    match { s with finished := true }.callSink sink (.onTerminal ⟨kind, detail⟩) with
    -- The consumer closes.
    | (s, none) => (s.close, none)
    | (s, some err) => (s, some err)

/-- The frames of a chunk.  After a failure the rest of them is moot. -/
def handle (s : State) : List Frame → State
  | [] => s
  | frame :: frames =>
    match s.dispatch sink frame with
    | (s, some err) => s.failWith sink .sinkPoisoned err
    | (s, none) => if s.finished then s else s.handle frames

def onMessage (s : State) (chunk : List UInt8) : State :=
  let (frames, decoder) := s.decoder.push chunk
  { s with decoder := decoder }.handle sink frames

/-- The listeners of the error and the close event. -/
def onEnd (s : State) (detail : String) : State :=
  if s.finished then s
  else
    match { s with finished := true }.callSink sink (.onTerminal ⟨.transportFailed, detail⟩) with
    | (s, none) => s
    | (s, some _) => s.tell .escaped

end

end State

inductive Event where
  | opened
  | message (chunk : List UInt8)
  /-- A message on which the decoder throws, and how that leaves it. -/
  | messageThrows (err : Thrown) (left : FrameDecoder)
  | error
  | closed
  /-- The peer starts to close. -/
  | closing
  | cancel

/-- One step; the socket opens once, a message arrives while it is open, and after the close event
nothing does. -/
def step (sink : Nat → Reaction) (s : State) : Event → Option State
  | .opened =>
    if s.readyState = .connecting then some { s with readyState := .opened }.begin else none
  | .message chunk => if s.readyState = .opened then some (s.onMessage sink chunk) else none
  | .messageThrows err left =>
    if s.readyState = .opened then
      some (({ s with decoder := left }.tell .pushThrew).failWith sink .decodeFailed err)
    else none
  | .error =>
    if s.readyState = .closed then none
    else some ((s.tell .errorEvent).onEnd sink "connection error")
  | .closed =>
    if s.readyState = .closed then none
    else
      some (({ s with readyState := .closed }.tell .closeEvent).onEnd sink
        "the stream ended without a terminal frame")
  | .closing =>
    if s.readyState = .closed then none else some { s with readyState := .closing }
  | .cancel => some s.cancel

/-! ### The statement -/

namespace Entry

def IsTerminal : Entry → Prop
  | onTerminal _ => True
  | _ => False

/-- A callback of the sink. -/
def IsCall : Entry → Prop
  | onOpen .. => True
  | onBatch .. => True
  | onProgress _ => True
  | onTerminal _ => True
  | _ => False

/-- A callback has thrown, or what arrived could not be decoded. -/
def IsFailure : Entry → Prop
  | threw => True
  | pushThrew => True
  | onTerminal t => t.kind = .decodeFailed
  | _ => False

def IsCredit : Entry → Prop
  | sendCredit _ => True
  | _ => False

/-- What it adds to the credit that has not been used. -/
def credit : Entry → Int
  | sendCredit n => n
  | onBatch .. => -1
  | _ => 0

end Entry

/-- The credit granted minus the batches received. -/
def credit (log : List Entry) : Int := (log.map Entry.credit).sum

/-- One terminal, after which the sink is not called, and there by the close event. -/
structure EndsOnce (log : List Entry) : Prop where
  ordered : log.Pairwise fun a b => a.IsTerminal → ¬b.IsCall
  ended : .closeEvent ∈ log → ∃ t, .onTerminal t ∈ log

/-- Never more credit than the window, and some for each batch. -/
structure WithinCredit (log : List Entry) : Prop where
  within : ∀ pre, pre <+: log → credit pre ≤ CREDIT_WINDOW
  positive : ∀ pre payload contiguous post, log = pre ++ .onBatch payload contiguous :: post →
    0 < credit pre

/-- After each failure a cancel frame and the close, and no credit. -/
def Abandons (log : List Entry) : Prop :=
  ∀ pre e post, log = pre ++ e :: post → e.IsFailure →
    [.sendCancel, .close].Sublist post ∧ ∀ a ∈ post, ¬a.IsCredit

/-! ### Entries of the log -/

theorem credit_append (log more : List Entry) : credit (log ++ more) = credit log + credit more := by
  rw [credit, List.map_append, List.sum_append]
  rfl

theorem credit_snoc (log : List Entry) (e : Entry) : credit (log ++ [e]) = credit log + e.credit := by
  rw [credit_append]
  exact congrArg (credit log + ·) (add_zero _)

theorem withinCredit_nil : WithinCredit [] where
  within := by
    intro pre hpre
    rw [List.prefix_nil.1 hpre]
    decide
  positive := by
    intro pre _ _ post h
    cases pre <;> cases h

theorem WithinCredit.snoc {log : List Entry} (h : WithinCredit log) {e : Entry}
    (hsum : credit log + e.credit ≤ CREDIT_WINDOW) (hbatch : e.credit < 0 → 0 < credit log) :
    WithinCredit (log ++ [e]) where
  within := by
    intro pre hpre
    rcases List.prefix_concat_iff.1 hpre with rfl | hpre
    · rw [credit_snoc]
      exact hsum
    · exact h.within pre hpre
  positive := by
    intro pre payload contiguous post hlog
    rcases List.eq_nil_or_concat post with rfl | ⟨post, last, rfl⟩
    · obtain ⟨rfl, rfl⟩ := List.append_singleton_inj.1 hlog
      exact hbatch (show (-1 : Int) < 0 by decide)
    · rw [List.concat_eq_append, ← List.cons_append, ← List.append_assoc] at hlog
      exact h.positive pre payload contiguous post (List.append_singleton_inj.1 hlog).1

theorem EndsOnce.snoc {log : List Entry} (h : EndsOnce log) {e : Entry}
    (hcall : (∃ t, .onTerminal t ∈ log) → ¬e.IsCall)
    (hclose : e = .closeEvent → ∃ t, .onTerminal t ∈ log) : EndsOnce (log ++ [e]) where
  ordered := by
    refine List.pairwise_append.2 ⟨h.ordered, List.pairwise_singleton _ _, ?_⟩
    intro a ha b hb hterminal
    rw [List.mem_singleton.1 hb]
    cases a with
    | onTerminal t => exact hcall ⟨t, ha⟩
    | _ => exact hterminal.elim
  ended := by
    intro hmem
    rcases List.mem_append.1 hmem with hmem | hmem
    · obtain ⟨t, ht⟩ := h.ended hmem
      exact ⟨t, List.mem_append_left _ ht⟩
    · obtain ⟨t, ht⟩ := hclose (List.mem_singleton.1 hmem).symm
      exact ⟨t, List.mem_append_left _ ht⟩

/-- No credit after a failure. -/
def Spent (log : List Entry) : Prop :=
  ∀ pre e post, log = pre ++ e :: post → e.IsFailure → ∀ a ∈ post, ¬a.IsCredit

theorem spent_of_clean {log : List Entry} (h : ∀ e ∈ log, ¬e.IsFailure) : Spent log := by
  intro pre e post hlog he
  exact absurd he (h e (hlog ▸ List.mem_append_right _ List.mem_cons_self))

theorem Spent.snoc {log : List Entry} (h : Spent log) {e : Entry} (he : ¬e.IsCredit) :
    Spent (log ++ [e]) := by
  intro pre f post hlog hf a ha
  rcases List.eq_nil_or_concat post with rfl | ⟨post, last, rfl⟩
  · cases ha
  · rw [List.concat_eq_append, ← List.cons_append, ← List.append_assoc] at hlog
    obtain ⟨hinit, rfl⟩ := List.append_singleton_inj.1 hlog
    rcases List.mem_append.1 (List.concat_eq_append ▸ ha) with ha | ha
    · exact h pre f post hinit hf a ha
    · rw [List.mem_singleton.1 ha]
      exact he

theorem Abandons.snoc {log : List Entry} (h : Abandons log) {e : Entry} (he : ¬e.IsCredit)
    (hfailure : ¬e.IsFailure) : Abandons (log ++ [e]) := by
  intro pre f post hlog hf
  rcases List.eq_nil_or_concat post with rfl | ⟨post, last, rfl⟩
  · obtain ⟨rfl, rfl⟩ := List.append_singleton_inj.1 hlog
    exact absurd hf hfailure
  · rw [List.concat_eq_append, ← List.cons_append, ← List.append_assoc] at hlog
    obtain ⟨hinit, rfl⟩ := List.append_singleton_inj.1 hlog
    obtain ⟨hsub, hcredit⟩ := h pre f post hinit hf
    rw [List.concat_eq_append]
    refine ⟨hsub.trans (List.sublist_append_left _ _), fun a ha => ?_⟩
    rcases List.mem_append.1 ha with ha | ha
    · exact hcredit a ha
    · rw [List.mem_singleton.1 ha]
      exact he

/-- Cancelled and closed. -/
theorem Spent.abandons {log : List Entry} (h : Spent log) :
    Abandons (log ++ [.sendCancel] ++ [.close]) := by
  intro pre e post hlog he
  have hcancel : Spent (log ++ [.sendCancel]) := h.snoc id
  have hspent : Spent (log ++ [.sendCancel] ++ [.close]) := hcancel.snoc id
  refine ⟨?_, hspent pre e post hlog he⟩
  rw [List.append_assoc] at hlog
  rcases List.append_eq_append_iff.1 hlog with ⟨mid, rfl, hmid⟩ | ⟨mid, rfl, hmid⟩
  · -- The failure would be one of the two last entries.
    have hmem : e ∈ [Entry.sendCancel] ++ [Entry.close] :=
      hmid ▸ List.mem_append_right _ List.mem_cons_self
    rcases List.mem_cons.1 hmem with rfl | hmem
    · exact he.elim
    · rw [List.mem_singleton.1 hmem] at he
      exact he.elim
  · cases mid with
    | nil =>
      obtain ⟨rfl, -⟩ := List.cons.inj hmid
      exact he.elim
    | cons f mid =>
      rw [List.cons_append, List.cons.injEq] at hmid
      rw [hmid.2]
      exact List.sublist_append_right _ _

/-! ### What the listeners keep -/

namespace State

/-- The credit is what the log says. -/
structure Fair (s : State) : Prop where
  balance : s.outstanding = credit s.log
  within : WithinCredit s.log
  fresh : s.readyState = .connecting → credit s.log = 0

/-- No terminal has been told. -/
structure Untold (s : State) : Prop extends Fair s where
  unfinished : s.finished = false
  untold : ∀ e ∈ s.log, ¬e.IsTerminal ∧ e ≠ .errorEvent ∧ e ≠ .closeEvent

/-- The stream goes on. -/
structure Live (s : State) : Prop extends Untold s where
  begun : s.readyState = .opened → .sendStart ∈ s.log
  positive : .sendStart ∈ s.log → 0 < credit s.log

/-- A terminal has been told. -/
structure Told (s : State) : Prop extends Fair s where
  finished : s.finished = true
  told : ∃ t, .onTerminal t ∈ s.log
  once : EndsOnce s.log

/-- No message comes any more. -/
structure Over (s : State) : Prop extends Told s where
  quiet : s.readyState = .connecting ∨ s.readyState = .opened → .errorEvent ∈ s.log

variable {s : State}

theorem log_tell (s : State) (e : Entry) : (s.tell e).log = s.log ++ [e] := rfl

theorem Fair.tell (h : Fair s) {e : Entry} (he : e.credit = 0) : Fair (s.tell e) where
  balance := by
    rw [log_tell, credit_snoc, he, add_zero]
    exact h.balance
  within := by
    refine h.within.snoc ?_ fun hlt => absurd hlt (by omega)
    rw [he, add_zero]
    exact h.within.within s.log List.prefix_rfl
  fresh := by
    intro hstate
    rw [log_tell, credit_snoc, he, add_zero]
    exact h.fresh hstate

theorem Untold.tell (h : Untold s) {e : Entry} (he : e.credit = 0)
    (hnew : ¬e.IsTerminal ∧ e ≠ .errorEvent ∧ e ≠ .closeEvent) : Untold (s.tell e) where
  toFair := h.toFair.tell he
  unfinished := h.unfinished
  untold := by
    intro a ha
    rcases List.mem_append.1 ha with ha | ha
    · exact h.untold a ha
    · rw [List.mem_singleton.1 ha]
      exact hnew

theorem Live.tell (h : Live s) {e : Entry} (he : e.credit = 0)
    (hnew : ¬e.IsTerminal ∧ e ≠ .errorEvent ∧ e ≠ .closeEvent) (hstart : e ≠ .sendStart) :
    Live (s.tell e) where
  toUntold := h.toUntold.tell he hnew
  begun hstate := List.mem_append_left _ (h.begun hstate)
  positive := by
    intro hmem
    rw [log_tell, credit_snoc, he, add_zero]
    rcases List.mem_append.1 hmem with hmem | hmem
    · exact h.positive hmem
    · exact absurd (List.mem_singleton.1 hmem).symm hstart

theorem Told.tell (h : Told s) {e : Entry} (he : e.credit = 0) (hcall : ¬e.IsCall) :
    Told (s.tell e) where
  toFair := h.toFair.tell he
  finished := h.finished
  told := by
    obtain ⟨t, ht⟩ := h.told
    exact ⟨t, List.mem_append_left _ ht⟩
  once := h.once.snoc (fun _ => hcall) fun _ => h.told

theorem Over.tell (h : Over s) {e : Entry} (he : e.credit = 0) (hcall : ¬e.IsCall) :
    Over (s.tell e) where
  toTold := h.toTold.tell he hcall
  quiet hstate := List.mem_append_left _ (h.quiet hstate)

theorem endsOnce_of_untold {log : List Entry}
    (h : ∀ e ∈ log, ¬e.IsTerminal ∧ e ≠ .errorEvent ∧ e ≠ .closeEvent) : EndsOnce log where
  ordered := List.pairwise_of_forall_mem_list fun a ha _ _ hterminal => absurd hterminal (h a ha).1
  ended hmem := absurd rfl (h _ hmem).2.2

/-- The terminal of a stream that had none. -/
theorem Untold.terminal (h : Untold s) (n : Nat) (t : Terminal) :
    Told ({ s with finished := true, calls := n }.tell (.onTerminal t)) where
  toFair := by
    have hfair : Fair { s with finished := true, calls := n } := ⟨h.balance, h.within, h.fresh⟩
    exact hfair.tell rfl
  finished := rfl
  told := ⟨t, List.mem_append_right _ (List.mem_singleton_self _)⟩
  once := by
    refine (endsOnce_of_untold h.untold).snoc ?_ nofun
    rintro ⟨t, ht⟩
    exact absurd trivial (h.untold _ ht).1

/-! ### The calls of the sink -/

section

variable {sink : Nat → Reaction}

/-- What is thrown turns into a text. -/
def Printable (sink : Nat → Reaction) : Prop :=
  ∀ n err, (sink n).throws = some err → ∃ text, err.text = some text

/-- What the entry of a call and the cancels of its callback keep. -/
theorem callSink_keeps (sink : Nat → Reaction) (s : State) {P : State → Prop} {e : Entry}
    (hcancel : ∀ u, P u → P (u.tell .sendCancel)) (h : P ({ s with calls := s.calls + 1 }.tell e)) :
    ∃ u, P u ∧ ((s.callSink sink e = (u, none) ∧ (sink s.calls).throws = none) ∨
      ∃ err, s.callSink sink e = (u.tell .threw, some err) ∧ (sink s.calls).throws = some err) := by
  have hiterate : ∀ (n : Nat) (u : State), P u → P (cancel^[n] u) := by
    intro n
    induction n with
    | zero => exact fun u hu => hu
    | succ n ih =>
      intro u hu
      rw [Function.iterate_succ, Function.comp]
      refine ih _ ?_
      rw [cancel]
      split
      · exact hcancel u hu
      · exact hu
  refine ⟨_, hiterate (sink s.calls).cancels _ h, ?_⟩
  rw [callSink]
  cases hthrows : (sink s.calls).throws with
  | none => exact .inl ⟨rfl, rfl⟩
  | some err => exact .inr ⟨err, rfl, rfl⟩

theorem Told.moved (h : Told s) {readyState : ReadyState} (hmoved : readyState ≠ .connecting) :
    Told { s with readyState := readyState } where
  toFair := ⟨h.balance, h.within, fun hstate => absurd hstate hmoved⟩
  finished := h.finished
  told := h.told
  once := h.once

theorem Told.close (h : Told s) : Over s.close where
  toTold := (h.moved (by decide)).tell rfl id
  quiet hstate := hstate.elim nofun nofun

theorem Told.cleanUp (h : Told s) (hopen : s.readyState = .opened) : Over s.cleanUp := by
  rw [State.cleanUp, if_pos hopen]
  have htold : Told (s.tell .sendCancel) := h.tell rfl id
  exact htold.close

theorem Told.abandon (h : Told s) (hopen : s.readyState = .opened) (t : Terminal) :
    Over (s.abandonStream sink t) := by
  rw [abandonStream, if_pos h.finished]
  exact h.cleanUp hopen

theorem Untold.abandon (hsink : Printable sink) (h : Untold s) (hopen : s.readyState = .opened)
    (t : Terminal) : Over (s.abandonStream sink t) := by
  rw [abandonStream, h.unfinished, if_neg Bool.false_ne_true]
  obtain ⟨u, ⟨hu, hstate⟩, ⟨heq, -⟩ | ⟨err, heq, hthrows⟩⟩ :=
    callSink_keeps sink { s with finished := true }
      (P := fun u => Told u ∧ u.readyState = .opened)
      (fun u hu => ⟨hu.1.tell rfl id, hu.2⟩) ⟨h.terminal (s.calls + 1) t, hopen⟩
  · rw [heq]
    exact hu.cleanUp hstate
  · rw [heq]
    obtain ⟨text, htext⟩ := hsink _ _ hthrows
    have hthrew : Told (u.tell .threw) := hu.tell rfl id
    dsimp only
    rw [htext]
    refine Told.cleanUp ?_ hstate
    exact hthrew.tell rfl id

theorem Untold.failWith (hsink : Printable sink) (h : Untold s) (hopen : s.readyState = .opened)
    (kind : TerminalKind) {err : Thrown} (herr : ∃ text, err.text = some text) :
    Over (s.failWith sink kind err) := by
  obtain ⟨text, htext⟩ := herr
  rw [State.failWith, htext]
  exact h.abandon hsink hopen _

theorem Told.failWith (h : Told s) (hopen : s.readyState = .opened) (kind : TerminalKind)
    {err : Thrown} (herr : ∃ text, err.text = some text) : Over (s.failWith sink kind err) := by
  obtain ⟨text, htext⟩ := herr
  rw [State.failWith, htext]
  exact h.abandon hopen _

/-- A call that tells no terminal, of a stream that goes on. -/
theorem Live.call (sink : Nat → Reaction) (h : Live s) (hopen : s.readyState = .opened) {e : Entry} (he : e.credit = 0)
    (hnew : ¬e.IsTerminal ∧ e ≠ .errorEvent ∧ e ≠ .closeEvent) (hstart : e ≠ .sendStart) :
    (∃ u, s.callSink sink e = (u, none) ∧ Live u ∧ u.readyState = .opened) ∨
      ∃ u err, s.callSink sink e = (u, some err) ∧ (∃ n, (sink n).throws = some err) ∧
        Untold u ∧ u.readyState = .opened := by
  have hlive : Live { s with calls := s.calls + 1 } :=
    ⟨⟨⟨h.balance, h.within, h.fresh⟩, h.unfinished, h.untold⟩, h.begun, h.positive⟩
  obtain ⟨u, ⟨hu, hstate⟩, ⟨heq, -⟩ | ⟨err, heq, hthrows⟩⟩ :=
    callSink_keeps sink s (P := fun u => Live u ∧ u.readyState = .opened)
      (fun u hu => ⟨hu.1.tell rfl ⟨id, nofun, nofun⟩ nofun, hu.2⟩)
      ⟨hlive.tell he hnew hstart, hopen⟩
  · exact .inl ⟨u, heq, hu, hstate⟩
  · exact .inr ⟨_, err, heq, ⟨_, hthrows⟩, hu.toUntold.tell rfl ⟨id, nofun, nofun⟩, hstate⟩

/-- The credit that follows a batch. -/
theorem Untold.grant (h : Untold s) (hopen : s.readyState = .opened) (hstart : .sendStart ∈ s.log)
    (hcredit : 0 ≤ credit s.log) (hwithin : credit s.log ≤ CREDIT_WINDOW) :
    Live (if s.outstanding ≤ CREDIT_WINDOW / 2 then s.grant (CREDIT_WINDOW - s.outstanding)
      else s) := by
  have hwindow : CREDIT_WINDOW = 4 := rfl
  have hhalf : CREDIT_WINDOW / 2 = 2 := rfl
  have hbalance := h.balance
  by_cases hlow : s.outstanding ≤ CREDIT_WINDOW / 2
  · rw [if_pos hlow, State.grant, if_pos hopen]
    have hsum : credit (s.log ++ [.sendCredit (CREDIT_WINDOW - s.outstanding)]) = CREDIT_WINDOW := by
      rw [credit_snoc]
      change credit s.log + (CREDIT_WINDOW - s.outstanding) = CREDIT_WINDOW
      omega
    refine ⟨⟨⟨?_, ?_, fun hstate => ?_⟩, h.unfinished, ?_⟩, fun _ => ?_, fun _ => ?_⟩
    · rw [log_tell, hsum]
      change s.outstanding + (CREDIT_WINDOW - s.outstanding) = CREDIT_WINDOW
      omega
    · refine h.within.snoc (Int.le_of_eq ((credit_snoc _ _).symm.trans hsum)) fun hneg => ?_
      change CREDIT_WINDOW - s.outstanding < 0 at hneg
      omega
    · exact absurd (hopen.symm.trans hstate) (by decide)
    · intro e he
      rcases List.mem_append.1 he with he | he
      · exact h.untold e he
      · rw [List.mem_singleton.1 he]
        exact ⟨id, nofun, nofun⟩
    · exact List.mem_append_left _ hstart
    · rw [log_tell, hsum]
      decide
  · rw [if_neg hlow]
    exact ⟨h, fun _ => hstart, fun _ => by omega⟩

/-- A batch has been received and not been answered yet. -/
structure Received (s : State) : Prop extends Untold s where
  begun : .sendStart ∈ s.log
  spent : 0 ≤ credit s.log
  within' : credit s.log ≤ CREDIT_WINDOW

theorem Received.tell (h : Received s) {e : Entry} (he : e.credit = 0)
    (hnew : ¬e.IsTerminal ∧ e ≠ .errorEvent ∧ e ≠ .closeEvent) : Received (s.tell e) := by
  have hcredit : credit (s.tell e).log = credit s.log := by
    rw [log_tell, credit_snoc, he, add_zero]
  refine ⟨h.toUntold.tell he hnew, List.mem_append_left _ h.begun, ?_, ?_⟩
  · rw [hcredit]
    exact h.spent
  · rw [hcredit]
    exact h.within'

theorem Live.receive (h : Live s) (hopen : s.readyState = .opened) (payload : List UInt8)
    (contiguous : Bool) (n : Nat) :
    Received ({ s with outstanding := s.outstanding - 1, calls := n }.tell
      (.onBatch payload contiguous)) := by
  have hbegun := h.begun hopen
  have hpositive := h.positive hbegun
  have hwithin := h.within.within s.log List.prefix_rfl
  have hcredit : credit (s.log ++ [.onBatch payload contiguous]) = credit s.log - 1 := credit_snoc _ _
  refine ⟨⟨⟨?_, ?_, fun hstate => ?_⟩, h.unfinished, ?_⟩, List.mem_append_left _ hbegun, ?_, ?_⟩
  · rw [log_tell, hcredit, ← h.balance]
    rfl
  · refine h.within.snoc ?_ fun _ => hpositive
    change credit s.log - 1 ≤ CREDIT_WINDOW
    omega
  · exact absurd (hopen.symm.trans hstate) (by decide)
  · intro e he
    rcases List.mem_append.1 he with he | he
    · exact h.untold e he
    · rw [List.mem_singleton.1 he]
      exact ⟨id, nofun, nofun⟩
  · rw [log_tell, hcredit]
    omega
  · rw [log_tell, hcredit]
    omega

theorem Live.dispatch (sink : Nat → Reaction) (h : Live s) (hopen : s.readyState = .opened) (frame : Frame) :
    (∃ u, s.dispatch sink frame = (u, none) ∧ ((Live u ∧ u.readyState = .opened) ∨ Over u)) ∨
      ∃ u err, s.dispatch sink frame = (u, some err) ∧ (∃ n, (sink n).throws = some err) ∧
        (Untold u ∨ Told u) ∧ u.readyState = .opened := by
  cases frame with
  | opened operationId streamId =>
    rcases h.call sink hopen (e := .onOpen operationId streamId) rfl
      ⟨id, nofun, nofun⟩ nofun with ⟨u, heq, hu⟩ | ⟨u, err, heq, hthrows, hu, hstate⟩
    · exact .inl ⟨u, heq, .inl hu⟩
    · exact .inr ⟨u, err, heq, hthrows, .inl hu, hstate⟩
  | progress progress =>
    rcases h.call sink hopen (e := .onProgress progress) rfl
      ⟨id, nofun, nofun⟩ nofun with ⟨u, heq, hu⟩ | ⟨u, err, heq, hthrows, hu, hstate⟩
    · exact .inl ⟨u, heq, .inl hu⟩
    · exact .inr ⟨u, err, heq, hthrows, .inl hu, hstate⟩
  | batch payload contiguous =>
    obtain ⟨u, ⟨hu, hstate⟩, ⟨heq, -⟩ | ⟨err, heq, hthrows⟩⟩ :=
      callSink_keeps sink { s with outstanding := s.outstanding - 1 }
        (P := fun u => Received u ∧ u.readyState = .opened)
        (fun u hu => ⟨hu.1.tell rfl ⟨id, nofun, nofun⟩, hu.2⟩)
        ⟨h.receive hopen payload contiguous (s.calls + 1), hopen⟩
    · have hlive := hu.toUntold.grant hstate hu.begun hu.spent hu.within'
      refine .inl ⟨_, ?_, .inl ⟨hlive, ?_⟩⟩
      · rw [State.dispatch, heq]
      · split
        · rw [State.grant, if_pos hstate]
          exact hstate
        · exact hstate
    · refine .inr ⟨u.tell .threw, err, ?_, ⟨_, hthrows⟩, .inl ?_, hstate⟩
      · rw [State.dispatch, heq]
      · exact hu.toUntold.tell rfl ⟨id, nofun, nofun⟩
  | terminal kind detail =>
    obtain ⟨u, ⟨hu, hstate⟩, ⟨heq, -⟩ | ⟨err, heq, hthrows⟩⟩ :=
      callSink_keeps sink { s with finished := true }
        (P := fun u => Told u ∧ u.readyState = .opened)
        (fun u hu => ⟨hu.1.tell rfl id, hu.2⟩)
        ⟨h.toUntold.terminal (s.calls + 1) ⟨kind, detail⟩, hopen⟩
    · refine .inl ⟨u.close, ?_, .inr hu.close⟩
      rw [State.dispatch, heq]
    · refine .inr ⟨u.tell .threw, err, ?_, ⟨_, hthrows⟩, .inr (hu.tell rfl id), hstate⟩
      rw [State.dispatch, heq]

/-- The stream goes on, or is over. -/
def Good (s : State) : Prop := Live s ∨ Over s

theorem Live.handle (hsink : Printable sink) (frames : List Frame) (h : Live s)
    (hopen : s.readyState = .opened) : Good (s.handle sink frames) := by
  induction frames generalizing s with
  | nil => exact .inl h
  | cons frame frames ih =>
    rw [State.handle]
    rcases h.dispatch sink hopen frame with
      ⟨u, heq, ⟨hu, hstate⟩ | hu⟩ | ⟨u, err, heq, ⟨n, hthrows⟩, hu | hu, hstate⟩
    · rw [heq]
      dsimp only
      rw [hu.unfinished, if_neg Bool.false_ne_true]
      exact ih hu hstate
    · rw [heq]
      dsimp only
      rw [if_pos hu.finished]
      exact .inr hu
    · rw [heq]
      exact .inr (hu.failWith hsink hstate _ (hsink n err hthrows))
    · rw [heq]
      exact .inr (hu.failWith hstate _ (hsink n err hthrows))

/-- The listener of an error or a close event. -/
theorem Untold.onEnd (h : Untold s) {e : Entry} (he : e = .errorEvent ∨ e = .closeEvent)
    (hquiet : s.readyState = .connecting ∨ s.readyState = .opened → e = .errorEvent) (detail : String) :
    Over ((s.tell e).onEnd sink detail) := by
  have hcredit : e.credit = 0 := by rcases he with rfl | rfl <;> rfl
  have hcall : ¬e.IsCall := by rcases he with rfl | rfl <;> exact id
  have hterminal : ¬e.IsTerminal := by rcases he with rfl | rfl <;> exact id
  have hnone : ¬∃ t, Entry.onTerminal t ∈ s.log := fun ⟨t, ht⟩ => (h.untold _ ht).1 trivial
  -- The terminal follows the event at once.
  have hstart : Over ({ s.tell e with finished := true, calls := s.calls + 1 }.tell
      (.onTerminal ⟨.transportFailed, detail⟩)) := by
    have hfair : Fair { s with finished := true, calls := s.calls + 1 } :=
      ⟨h.balance, h.within, h.fresh⟩
    refine ⟨⟨(hfair.tell hcredit).tell rfl, rfl, ⟨_, List.mem_concat_self⟩, ?_⟩, fun hstate => ?_⟩
    · change EndsOnce (s.log ++ [e] ++ [.onTerminal ⟨.transportFailed, detail⟩])
      refine ⟨?_, fun _ => ⟨_, List.mem_concat_self⟩⟩
      rw [List.append_assoc]
      refine List.pairwise_append.2 ⟨(endsOnce_of_untold h.untold).ordered, ?_, ?_⟩
      · exact List.pairwise_pair.2 fun hbad => absurd hbad hterminal
      · intro a ha b _ hbad
        exact absurd hbad (h.untold a ha).1
    · refine List.mem_append_left _ ?_
      rw [← hquiet hstate]
      exact List.mem_concat_self
  rw [State.onEnd, show (s.tell e).finished = false from h.unfinished, if_neg Bool.false_ne_true]
  obtain ⟨u, hu, ⟨heq, -⟩ | ⟨err, heq, -⟩⟩ :=
    callSink_keeps sink { s.tell e with finished := true } (P := Over)
      (fun u hu => hu.tell rfl id) hstart
  · rw [heq]
    exact hu
  · rw [heq]
    have hthrew : Over (u.tell .threw) := hu.tell rfl id
    exact hthrew.tell rfl id

/-- The start frame and the first credit. -/
theorem Fair.begin (h : Fair s) (hopen : s.readyState = .opened) (hcredit : credit s.log = 0) :
    Fair s.begin ∧ credit s.begin.log = CREDIT_WINDOW := by
  have hstart : credit (s.log ++ [.sendStart]) = 0 := by
    rw [credit_snoc, hcredit]
    rfl
  have hlog : s.begin.log = s.log ++ [.sendStart] ++ [.sendCredit CREDIT_WINDOW] := by
    rw [State.begin, State.grant, if_pos (show (s.tell .sendStart).readyState = .opened from hopen)]
    rfl
  have hsum : credit s.begin.log = CREDIT_WINDOW := by
    rw [hlog, credit_snoc, hstart]
    rfl
  have hfair : Fair (s.tell .sendStart) := h.tell rfl
  refine ⟨⟨?_, ?_, fun hstate => ?_⟩, hsum⟩
  · rw [hsum, State.begin, State.grant,
      if_pos (show (s.tell .sendStart).readyState = .opened from hopen)]
    change s.outstanding + CREDIT_WINDOW = CREDIT_WINDOW
    rw [h.balance, hcredit, zero_add]
  · rw [hlog]
    refine hfair.within.snoc ?_ fun hneg => absurd hneg (by decide)
    rw [log_tell, hstart]
    decide
  · rw [State.begin, State.grant,
      if_pos (show (s.tell .sendStart).readyState = .opened from hopen)] at hstate
    exact absurd (hopen.symm.trans hstate) (by decide)

theorem log_begin (hopen : s.readyState = .opened) :
    s.begin = { s with outstanding := s.outstanding + CREDIT_WINDOW,
                       log := s.log ++ [.sendStart] ++ [.sendCredit CREDIT_WINDOW] } := by
  rw [State.begin, State.grant, if_pos (show (s.tell .sendStart).readyState = .opened from hopen)]
  rfl

theorem Untold.begin (h : Untold s) (hopen : s.readyState = .opened) (hcredit : credit s.log = 0) :
    Live s.begin := by
  obtain ⟨hfair, hsum⟩ := h.toFair.begin hopen hcredit
  rw [log_begin hopen] at hfair hsum ⊢
  refine ⟨⟨hfair, h.unfinished, ?_⟩, fun _ => ?_, fun _ => ?_⟩
  · intro e he
    rcases List.mem_append.1 he with he | he
    · rcases List.mem_append.1 he with he | he
      · exact h.untold e he
      · rw [List.mem_singleton.1 he]
        exact ⟨id, nofun, nofun⟩
    · rw [List.mem_singleton.1 he]
      exact ⟨id, nofun, nofun⟩
  · exact List.mem_append_left _ List.mem_concat_self
  · rw [hsum]
    decide

end

end State

/-! ### Runs -/

/-- Each frame that is handled is well formed, or the sink throws at what it tells. -/
def Faultless (sink : Nat → Reaction) (n : Nat) : List Frame → Prop
  | [] => True
  | .terminal kind _ :: _ => (sink n).throws = none → kind ≠ .decodeFailed
  | _ :: frames => (sink n).throws = none → Faultless sink (n + 1) frames

/-- No frame is completed after an error event, and what the decoder throws turns into a text. -/
def Orderly (s : State) : Event → Prop
  | .message chunk => .errorEvent ∈ s.log → (s.decoder.push chunk).1 = []
  | .messageThrows err _ => ∃ text, err.text = some text
  | _ => True

/-- No frame is malformed, and the sink does not throw at the end of the connection. -/
def Calm (sink : Nat → Reaction) (s : State) : Event → Prop
  | .message chunk => Faultless sink s.calls (s.decoder.push chunk).1
  | .error => s.finished = false → (sink s.calls).throws = none
  | .closed => s.finished = false → (sink s.calls).throws = none
  | _ => True

namespace State

variable {sink : Nat → Reaction} {s t : State}

theorem good_start (readyState : ReadyState) (maxFrameBytes : Nat) :
    Good (start readyState maxFrameBytes) := by
  have hfresh : Untold ⟨readyState, .new maxFrameBytes, 0, false, 0, []⟩ :=
    ⟨⟨rfl, withinCredit_nil, fun _ => rfl⟩, rfl, nofun⟩
  rw [start]
  by_cases hopen : readyState = .opened
  · rw [if_pos hopen]
    exact .inl (hfresh.begin hopen rfl)
  · rw [if_neg hopen]
    exact .inl ⟨hfresh, fun hstate => absurd hstate hopen, nofun⟩

theorem Live.moved (h : Live s) {readyState : ReadyState} (hconnecting : readyState ≠ .connecting)
    (hopened : readyState ≠ .opened) : Live { s with readyState := readyState } where
  toFair := ⟨h.balance, h.within, fun hstate => absurd hstate hconnecting⟩
  unfinished := h.unfinished
  untold := h.untold
  begun hstate := absurd hstate hopened
  positive := h.positive

theorem Over.moved (h : Over s) {readyState : ReadyState} (hconnecting : readyState ≠ .connecting)
    (hopened : readyState ≠ .opened) : Over { s with readyState := readyState } where
  toTold := h.toTold.moved hconnecting
  quiet hstate := absurd hstate (not_or.2 ⟨hconnecting, hopened⟩)

theorem Over.message (h : Over s) (hopen : s.readyState = .opened) {chunk : List UInt8}
    (hquiet : .errorEvent ∈ s.log → (s.decoder.push chunk).1 = []) :
    Over (s.onMessage sink chunk) := by
  rw [onMessage]
  dsimp only
  rw [hquiet (h.quiet (.inr hopen))]
  exact ⟨⟨⟨h.balance, h.within, h.fresh⟩, h.finished, h.told, h.once⟩, h.quiet⟩

theorem Over.begin (h : Over s) (hstate : s.readyState = .connecting) :
    Over { s with readyState := .opened }.begin := by
  have hfair : Fair { s with readyState := .opened } := ⟨h.balance, h.within, nofun⟩
  have hbegin := (hfair.begin rfl (h.fresh hstate)).1
  rw [log_begin rfl] at hbegin ⊢
  refine ⟨⟨hbegin, h.finished, ?_, ?_⟩, fun _ => ?_⟩
  · obtain ⟨t, ht⟩ := h.told
    exact ⟨t, List.mem_append_left _ (List.mem_append_left _ ht)⟩
  · have hstart : EndsOnce (s.log ++ [.sendStart]) := h.once.snoc (fun _ => id) nofun
    exact hstart.snoc (fun _ => id) nofun
  · exact List.mem_append_left _ (List.mem_append_left _ (h.quiet (.inl hstate)))

theorem Live.ended (h : Live s) {e : Entry} (he : e = .errorEvent ∨ e = .closeEvent)
    (hquiet : s.readyState = .connecting ∨ s.readyState = .opened → e = .errorEvent)
    (detail : String) : Good ((s.tell e).onEnd sink detail) :=
  .inr (h.toUntold.onEnd he hquiet detail)

theorem Over.ended (h : Over s) {e : Entry} (he : e = .errorEvent ∨ e = .closeEvent)
    (detail : String) : Good ((s.tell e).onEnd sink detail) := by
  rw [onEnd, if_pos (show (s.tell e).finished = true from h.finished)]
  rcases he with rfl | rfl
  · exact .inr (h.tell rfl id)
  · exact .inr (h.tell rfl id)

/-- One event. -/
theorem good_step (hsink : Printable sink) (h : Good s) {e : Event} (he : Orderly s e)
    (ht : step sink s e = some t) : Good t := by
  cases e with
  | opened =>
    rw [step] at ht
    split at ht
    · next hstate =>
      cases ht
      rcases h with h | h
      · have hopened : Untold { s with readyState := .opened } :=
          ⟨⟨h.balance, h.within, nofun⟩, h.unfinished, h.untold⟩
        exact .inl (hopened.begin rfl (h.fresh hstate))
      · exact .inr (h.begin hstate)
    · cases ht
  | message chunk =>
    rw [step] at ht
    split at ht
    · next hopen =>
      cases ht
      rcases h with h | h
      · refine Live.handle hsink _ ?_ hopen
        exact ⟨⟨⟨h.balance, h.within, h.fresh⟩, h.unfinished, h.untold⟩, h.begun, h.positive⟩
      · exact .inr (h.message hopen he)
    · cases ht
  | messageThrows err left =>
    rw [step] at ht
    split at ht
    · next hopen =>
      cases ht
      rcases h with h | h
      · have huntold : Untold { s with decoder := left } :=
          ⟨⟨h.balance, h.within, h.fresh⟩, h.unfinished, h.untold⟩
        have htold := huntold.tell (e := .pushThrew) rfl ⟨id, nofun, nofun⟩
        exact .inr (htold.failWith hsink hopen _ he)
      · have htold : Told { s with decoder := left } :=
          ⟨⟨h.balance, h.within, h.fresh⟩, h.finished, h.told, h.once⟩
        have hthrew := htold.tell (e := .pushThrew) rfl id
        exact .inr (hthrew.failWith hopen _ he)
    · cases ht
  | error =>
    rw [step] at ht
    split at ht
    · cases ht
    · cases ht
      rcases h with h | h
      · exact h.ended (.inl rfl) (fun _ => rfl) _
      · exact h.ended (.inl rfl) _
  | closed =>
    rw [step] at ht
    split at ht
    · cases ht
    · cases ht
      rcases h with h | h
      · have hmoved : Live { s with readyState := .closed } := h.moved (by decide) (by decide)
        exact hmoved.ended (.inr rfl) (fun hstate => hstate.elim nofun nofun) _
      · have hmoved : Over { s with readyState := .closed } := h.moved (by decide) (by decide)
        exact hmoved.ended (.inr rfl) _
  | closing =>
    rw [step] at ht
    split at ht
    · cases ht
    · cases ht
      rcases h with h | h
      · exact .inl (h.moved (by decide) (by decide))
      · exact .inr (h.moved (by decide) (by decide))
  | cancel =>
    rw [step] at ht
    cases ht
    rw [State.cancel]
    split
    · rcases h with h | h
      · exact .inl (h.tell rfl ⟨id, nofun, nofun⟩ nofun)
      · exact .inr (h.tell rfl id)
    · exact h

/-! ### What follows a failure -/

/-- Nothing has failed, or the stream has been given up. -/
structure Abandoned (s : State) : Prop where
  finished : s.finished = true
  moved : s.readyState ≠ .connecting ∧ s.readyState ≠ .opened
  abandons : Abandons s.log

def Clean (s : State) : Prop := ∀ e ∈ s.log, ¬e.IsFailure

theorem Clean.tell (h : Clean s) {e : Entry} (he : ¬e.IsFailure) : Clean (s.tell e) := by
  intro a ha
  rcases List.mem_append.1 ha with ha | ha
  · exact h a ha
  · rw [List.mem_singleton.1 ha]
    exact he

theorem Abandoned.tell (h : Abandoned s) {e : Entry} (he : ¬e.IsCredit) (hfailure : ¬e.IsFailure) :
    Abandoned (s.tell e) := ⟨h.finished, h.moved, h.abandons.snoc he hfailure⟩

theorem abandons_of_clean {log : List Entry} (h : ∀ e ∈ log, ¬e.IsFailure) : Abandons log := by
  intro pre e post hlog he
  exact absurd he (h e (hlog ▸ List.mem_append_right _ List.mem_cons_self))

theorem abandoned_cleanUp (h : Spent s.log) (hfinished : s.finished = true)
    (hopen : s.readyState = .opened) : Abandoned s.cleanUp := by
  rw [cleanUp, if_pos hopen]
  exact ⟨hfinished, ⟨nofun, nofun⟩, h.abandons⟩

theorem abandoned_abandonStream (hsink : Printable sink) (h : Spent s.log)
    (hopen : s.readyState = .opened) (t : Terminal) : Abandoned (s.abandonStream sink t) := by
  rw [abandonStream]
  split
  · next hfinished => exact abandoned_cleanUp h hfinished hopen
  · next hfinished =>
    obtain ⟨u, ⟨hu, hdone, hstate⟩, ⟨heq, -⟩ | ⟨err, heq, hthrows⟩⟩ :=
      callSink_keeps sink { s with finished := true } (e := .onTerminal t)
        (P := fun u => Spent u.log ∧ u.finished = true ∧ u.readyState = .opened)
        (fun u hu => ⟨hu.1.snoc id, hu.2⟩) ⟨h.snoc id, rfl, hopen⟩
    · rw [heq]
      exact abandoned_cleanUp hu hdone hstate
    · obtain ⟨text, htext⟩ := hsink _ _ hthrows
      rw [heq]
      dsimp only
      rw [htext]
      have hthrew : Spent (u.tell .threw).log := hu.snoc id
      exact abandoned_cleanUp (hthrew.snoc id) hdone hstate

theorem abandoned_failWith (hsink : Printable sink) (h : Spent s.log)
    (hopen : s.readyState = .opened) (kind : TerminalKind) {err : Thrown}
    (herr : ∃ text, err.text = some text) : Abandoned (s.failWith sink kind err) := by
  obtain ⟨text, htext⟩ := herr
  rw [State.failWith, htext]
  exact abandoned_abandonStream hsink h hopen _

/-- A stream that has not ended, open and without a failure. -/
structure Sound (s : State) : Prop where
  clean : Clean s
  opened : s.readyState = .opened
  unfinished : s.finished = false

theorem Sound.grant (h : Sound s) :
    Sound (if s.outstanding ≤ CREDIT_WINDOW / 2 then s.grant (CREDIT_WINDOW - s.outstanding) else s) ∧
      (if s.outstanding ≤ CREDIT_WINDOW / 2 then s.grant (CREDIT_WINDOW - s.outstanding)
        else s).calls = s.calls := by
  split
  · rw [State.grant, if_pos h.opened]
    refine ⟨⟨?_, h.opened, h.unfinished⟩, rfl⟩
    exact Clean.tell (s := { s with outstanding := s.outstanding + (CREDIT_WINDOW - s.outstanding) })
      h.clean id
  · exact ⟨h, rfl⟩

/-- A frame that ends nothing. -/
theorem Sound.dispatch (h : Sound s) {frame : Frame}
    (hframe : ∀ kind detail, frame ≠ .terminal kind detail) :
    (∃ u, s.dispatch sink frame = (u, none) ∧ (sink s.calls).throws = none ∧ Sound u ∧
      u.calls = s.calls + 1) ∨
      ∃ u err, s.dispatch sink frame = (u, some err) ∧ (sink s.calls).throws = some err ∧
        Spent u.log ∧ u.readyState = .opened := by
  have hcancel : ∀ u, (Sound u ∧ u.calls = s.calls + 1) →
      Sound (u.tell .sendCancel) ∧ (u.tell .sendCancel).calls = s.calls + 1 :=
    fun u hu => ⟨⟨hu.1.clean.tell id, hu.1.opened, hu.1.unfinished⟩, hu.2⟩
  have hthrew : ∀ {u : State}, Sound u → Spent (u.tell .threw).log :=
    fun hu => (spent_of_clean hu.clean).snoc id
  -- What the entry of the call leaves.
  have hstart : ∀ {e : Entry} (n : Int), ¬e.IsFailure →
      Sound ({ s with outstanding := n, calls := s.calls + 1 }.tell e) :=
    fun n he => ⟨Clean.tell (s := { s with outstanding := n, calls := s.calls + 1 }) h.clean he,
      h.opened, h.unfinished⟩
  cases frame with
  | opened operationId streamId =>
    obtain ⟨u, ⟨hu, hcalls⟩, ⟨heq, hnone⟩ | ⟨err, heq, hthrows⟩⟩ :=
      callSink_keeps sink s (e := .onOpen operationId streamId)
        (P := fun u => Sound u ∧ u.calls = s.calls + 1) hcancel ⟨hstart s.outstanding id, rfl⟩
    · exact .inl ⟨u, heq, hnone, hu, hcalls⟩
    · exact .inr ⟨_, err, heq, hthrows, hthrew hu, hu.opened⟩
  | progress progress =>
    obtain ⟨u, ⟨hu, hcalls⟩, ⟨heq, hnone⟩ | ⟨err, heq, hthrows⟩⟩ :=
      callSink_keeps sink s (e := .onProgress progress)
        (P := fun u => Sound u ∧ u.calls = s.calls + 1) hcancel ⟨hstart s.outstanding id, rfl⟩
    · exact .inl ⟨u, heq, hnone, hu, hcalls⟩
    · exact .inr ⟨_, err, heq, hthrows, hthrew hu, hu.opened⟩
  | batch payload contiguous =>
    obtain ⟨u, ⟨hu, hcalls⟩, ⟨heq, hnone⟩ | ⟨err, heq, hthrows⟩⟩ :=
      callSink_keeps sink { s with outstanding := s.outstanding - 1 }
        (e := .onBatch payload contiguous) (P := fun u => Sound u ∧ u.calls = s.calls + 1) hcancel
        ⟨hstart (s.outstanding - 1) id, rfl⟩
    · obtain ⟨hsound, heqcalls⟩ := hu.grant
      refine .inl ⟨_, ?_, hnone, hsound, heqcalls.trans hcalls⟩
      rw [State.dispatch, heq]
    · refine .inr ⟨u.tell .threw, err, ?_, hthrows, hthrew hu, hu.opened⟩
      rw [State.dispatch, heq]
  | terminal kind detail => exact absurd rfl (hframe kind detail)

/-- A terminal frame. -/
theorem Sound.terminal (h : Sound s) (kind : TerminalKind) (detail : String) :
    (∃ u, s.dispatch sink (.terminal kind detail) = (u, none) ∧ (sink s.calls).throws = none ∧
      u.finished = true ∧ (kind ≠ .decodeFailed → Clean u)) ∨
      ∃ u err, s.dispatch sink (.terminal kind detail) = (u, some err) ∧
        (sink s.calls).throws = some err ∧ Spent u.log ∧ u.readyState = .opened := by
  obtain ⟨u, ⟨hspent, hclean, hdone, hstate⟩, ⟨heq, hnone⟩ | ⟨err, heq, hthrows⟩⟩ :=
    callSink_keeps sink { s with finished := true }
      (e := .onTerminal ⟨kind, detail⟩)
      (P := fun u => Spent u.log ∧ (kind ≠ .decodeFailed → Clean u) ∧ u.finished = true ∧
        u.readyState = .opened)
      (fun u hu => ⟨hu.1.snoc id, fun hkind => (hu.2.1 hkind).tell id, hu.2.2⟩)
      ⟨(spent_of_clean h.clean).snoc id, fun hkind =>
        Clean.tell (s := { s with finished := true, calls := s.calls + 1 }) h.clean hkind,
        rfl, h.opened⟩
  · refine .inl ⟨u.close, ?_, hnone, hdone, fun hkind => ?_⟩
    · rw [State.dispatch, heq]
    · exact Clean.tell (s := { u with readyState := .closing }) (hclean hkind) id
  · refine .inr ⟨u.tell .threw, err, ?_, hthrows, hspent.snoc id, hstate⟩
    rw [State.dispatch, heq]

/-- After a message nothing has failed, or the stream has been given up. -/
theorem Sound.handle (hsink : Printable sink) (frames : List Frame) (h : Sound s)
    (hfaultless : Faultless sink s.calls frames) :
    Clean (s.handle sink frames) ∨ Abandoned (s.handle sink frames) := by
  induction frames generalizing s with
  | nil => exact .inl h.clean
  | cons frame frames ih =>
    rw [State.handle]
    by_cases hframe : ∀ kind detail, frame ≠ .terminal kind detail
    · rcases h.dispatch hframe with ⟨u, heq, hnone, hu, hcalls⟩ | ⟨u, err, heq, hthrows, hu, hstate⟩
      · rw [heq]
        dsimp only
        rw [hu.unfinished, if_neg Bool.false_ne_true]
        refine ih hu ?_
        rw [hcalls]
        cases frame with
        | terminal kind detail => exact absurd rfl (hframe kind detail)
        | _ => exact hfaultless hnone
      · rw [heq]
        exact .inr (abandoned_failWith hsink hu hstate _ (hsink _ _ hthrows))
    · push Not at hframe
      obtain ⟨kind, detail, rfl⟩ := hframe
      rcases h.terminal kind detail with
        ⟨u, heq, hnone, hdone, hclean⟩ | ⟨u, err, heq, hthrows, hu, hstate⟩
      · rw [heq]
        dsimp only
        rw [if_pos hdone]
        exact .inl (hclean (hfaultless hnone))
      · rw [heq]
        exact .inr (abandoned_failWith hsink hu hstate _ (hsink _ _ hthrows))

/-- Nothing has failed, or the stream has been given up. -/
def Settled (s : State) : Prop := Clean s ∨ Abandoned s

theorem Settled.tell (h : Settled s) {e : Entry} (he : ¬e.IsCredit) (hfailure : ¬e.IsFailure) :
    Settled (s.tell e) := by
  rcases h with h | h
  · exact .inl (h.tell hfailure)
  · exact .inr (h.tell he hfailure)

theorem Settled.abandons (h : Settled s) : Abandons s.log := by
  rcases h with h | h
  · exact abandons_of_clean h
  · exact h.abandons

theorem settled_start (readyState : ReadyState) (maxFrameBytes : Nat) :
    Settled (start readyState maxFrameBytes) := by
  have hfresh : Clean ⟨readyState, .new maxFrameBytes, 0, false, 0, []⟩ := nofun
  rw [start]
  by_cases hopen : readyState = .opened
  · rw [if_pos hopen, log_begin hopen]
    have hstart := hfresh.tell (e := .sendStart) id
    exact .inl (hstart.tell (e := .sendCredit CREDIT_WINDOW) id)
  · rw [if_neg hopen]
    exact .inl hfresh

/-- The listener of an error or a close event at which the sink does not throw. -/
theorem Settled.ended (h : Settled s) {e : Entry} (he : ¬e.IsCredit) (hfailure : ¬e.IsFailure)
    (hnone : s.finished = false → (sink s.calls).throws = none) (detail : String) :
    Settled ((s.tell e).onEnd sink detail) := by
  have htell := h.tell he hfailure
  rw [onEnd]
  split
  · exact htell
  · next hfinished =>
    have hunfinished : s.finished = false := Bool.eq_false_iff.2 hfinished
    have hclean : Clean s := by
      rcases h with h | h
      · exact h
      · exact absurd h.finished hfinished
    obtain ⟨u, hu, ⟨heq, -⟩ | ⟨err, -, hthrows⟩⟩ :=
      callSink_keeps sink { s.tell e with finished := true }
        (e := .onTerminal ⟨.transportFailed, detail⟩) (P := Clean) (fun u hu => hu.tell id) <|
        Clean.tell (s := { s.tell e with finished := true, calls := s.calls + 1 })
          (hclean.tell hfailure) nofun
    · rw [heq]
      exact .inl hu
    · exact absurd (hthrows.symm.trans (hnone hunfinished)) nofun

theorem settled_step (hsink : Printable sink) (hgood : Good s) (h : Settled s) {e : Event}
    (he : Orderly s e) (hcalm : Calm sink s e) (ht : step sink s e = some t) : Settled t := by
  -- A stream that has been given up is neither open nor about to be.
  have hclean : s.readyState = .connecting ∨ s.readyState = .opened → Clean s := by
    intro hstate
    rcases h with h | h
    · exact h
    · exact absurd hstate (not_or.2 h.moved)
  cases e with
  | opened =>
    rw [step] at ht
    split at ht
    · next hstate =>
      cases ht
      have hopened : Clean { s with readyState := .opened } := hclean (.inl hstate)
      rw [log_begin rfl]
      have hstart := hopened.tell (e := .sendStart) id
      exact .inl (hstart.tell (e := .sendCredit CREDIT_WINDOW) id)
    · cases ht
  | message chunk =>
    rw [step] at ht
    split at ht
    · next hopen =>
      cases ht
      rcases hgood with hgood | hgood
      · have hsound : Sound { s with decoder := (s.decoder.push chunk).2 } :=
          ⟨hclean (.inr hopen), hopen, hgood.unfinished⟩
        exact hsound.handle hsink _ hcalm
      · rw [onMessage]
        dsimp only
        rw [he (hgood.quiet (.inr hopen))]
        exact .inl (hclean (.inr hopen))
    · cases ht
  | messageThrows err left =>
    rw [step] at ht
    split at ht
    · next hopen =>
      cases ht
      have hspent : Spent s.log := spent_of_clean (hclean (.inr hopen))
      have hthrew : Spent ({ s with decoder := left }.tell .pushThrew).log := hspent.snoc id
      exact .inr (abandoned_failWith hsink hthrew hopen _ he)
    · cases ht
  | error =>
    rw [step] at ht
    split at ht
    · cases ht
    · cases ht
      exact h.ended id id hcalm _
  | closed =>
    rw [step] at ht
    split at ht
    · cases ht
    · cases ht
      have hmoved : Settled { s with readyState := .closed } := by
        rcases h with h | h
        · exact .inl h
        · exact .inr ⟨h.finished, ⟨nofun, nofun⟩, h.abandons⟩
      exact hmoved.ended id id hcalm _
  | closing =>
    rw [step] at ht
    split at ht
    · cases ht
    · cases ht
      rcases h with h | h
      · exact .inl h
      · exact .inr ⟨h.finished, ⟨nofun, nofun⟩, h.abandons⟩
  | cancel =>
    rw [step] at ht
    cases ht
    rw [State.cancel]
    split
    · exact h.tell id id
    · exact h

end State

open State

/-- **Every run of a client stream.**  What its steps have to meet is that no frame comes after an
error event, and for what follows a failure that nothing is malformed. -/
theorem run_ends {sink : Nat → Reaction} (hsink : Printable sink) {readyState : ReadyState}
    {maxFrameBytes : Nat} {es : List Event} {s : State}
    (horderly : Meets (step sink) Orderly (start readyState maxFrameBytes) es)
    (hs : runFrom (step sink) (start readyState maxFrameBytes) es = some s) :
    EndsOnce s.log ∧ WithinCredit s.log ∧
      (s.finished = false → .sendStart ∈ s.log → 0 < credit s.log) ∧
      (Meets (step sink) (Calm sink) (start readyState maxFrameBytes) es → Abandons s.log) := by
  have hgood : Good s :=
    runFrom_keeps (good_start readyState maxFrameBytes) (fun _ _ _ h he ht => good_step hsink h he ht)
      horderly hs
  refine ⟨?_, ?_, ?_, fun hcalm => ?_⟩
  · rcases hgood with h | h
    · exact endsOnce_of_untold h.untold
    · exact h.once
  · rcases hgood with h | h
    · exact h.within
    · exact h.within
  · intro hfinished hstart
    rcases hgood with h | h
    · exact h.positive hstart
    · exact absurd (h.finished.symm.trans hfinished) nofun
  · have hboth : Meets (step sink) (fun s e => Orderly s e ∧ Calm sink s e)
        (start readyState maxFrameBytes) es := fun pre e post t hes ht =>
      ⟨horderly pre e post t hes ht, hcalm pre e post t hes ht⟩
    have hsettled : Good s ∧ Settled s :=
      runFrom_keeps (I := fun s => Good s ∧ Settled s)
        ⟨good_start readyState maxFrameBytes, settled_start readyState maxFrameBytes⟩
        (fun _ _ _ h he ht =>
          ⟨good_step hsink h.1 he.1 ht, settled_step hsink h.1 h.2 he.1 he.2 ht⟩) hboth hs
    exact hsettled.2.abandons

/-- A sink whose third callback throws. -/
def poisoned (n : Nat) : Reaction := ⟨0, if n = 2 then some ⟨some "no canvas"⟩ else none⟩

theorem printable_poisoned : Printable poisoned := by
  intro n err herr
  rw [poisoned] at herr
  split at herr
  · cases herr
    exact ⟨_, rfl⟩
  · cases herr

/-- Two batches without bytes. -/
def twoBatches : List UInt8 := [16, 0, 0, 0, 0, 0, 0, 0, 16, 0, 0, 0, 0, 0, 0, 0]

theorem push_twoBatches :
    ((FrameDecoder.new 64).push twoBatches).1 = [.batch [] true, .batch [] true] := by
  rw [FrameDecoder.push, if_neg (by decide), FrameDecoder.frames]
  change (FrameDecoder.frames [.batch [] true] _).1 = _
  rw [FrameDecoder.frames]
  change (FrameDecoder.frames [.batch [] true, .batch [] true] _).1 = _
  rw [FrameDecoder.frames]
  rfl

/-- Two batches and the credit for two more, then a message at which the decoder throws, and the
end. -/
def thrown : List Event :=
  [.opened, .message twoBatches, .messageThrows ⟨some "no frame"⟩ (.new 64), .closing, .closed]

/-- The socket once it is open, and the stream behind the two batches. -/
def fresh : State := { start .connecting 64 with readyState := .opened }.begin

def topped (d : FrameDecoder) : State := ⟨.opened, d, 4, false, 2,
  [.sendStart, .sendCredit 4, .onBatch [] true, .onBatch [] true, .sendCredit 2]⟩

theorem step_twoBatches : ∃ d, step poisoned fresh (.message twoBatches) = some (topped d) := by
  refine ⟨((FrameDecoder.new 64).push twoBatches).2, ?_⟩
  rw [step, if_pos (show fresh.readyState = .opened from rfl), onMessage]
  dsimp only
  rw [show fresh.decoder = .new 64 from rfl, push_twoBatches]
  rfl

theorem run_ends_thrown :
    ∃ s, runFrom (step poisoned) (start .connecting 64) thrown = some s ∧
      s.log.take 5 = [.sendStart, .sendCredit 4, .onBatch [] true, .onBatch [] true, .sendCredit 2] ∧
      EndsOnce s.log ∧ Abandons s.log := by
  obtain ⟨d, hbatches⟩ := step_twoBatches
  have hopened : step poisoned (start .connecting 64) .opened = some fresh := rfl
  have hrest : runFrom (step poisoned) (start .connecting 64) thrown =
      runFrom (step poisoned) (topped d) (thrown.drop 2) := by
    show (step poisoned fresh (.message twoBatches)).bind (runFrom (step poisoned) · _) = _
    rw [hbatches]
    rfl
  obtain ⟨s, hs, htake⟩ : ∃ s, runFrom (step poisoned) (topped d) (thrown.drop 2) = some s ∧
      s.log.take 5 =
        [.sendStart, .sendCredit 4, .onBatch [] true, .onBatch [] true, .sendCredit 2] :=
    ⟨_, rfl, rfl⟩
  rw [← hrest] at hs
  have horderly : Meets (step poisoned) Orderly (start .connecting 64) thrown :=
    .cons trivial hopened <| .cons (fun herror => absurd herror (by decide)) hbatches <|
      .cons ⟨_, rfl⟩ rfl <| .cons trivial rfl <| .cons trivial rfl meets_nil
  have hfaultless : Calm poisoned fresh (.message twoBatches) := by
    show Faultless poisoned 0 ((FrameDecoder.new 64).push twoBatches).1
    rw [push_twoBatches]
    exact fun _ _ => trivial
  have hcalm : Meets (step poisoned) (Calm poisoned) (start .connecting 64) thrown :=
    .cons trivial hopened <| .cons hfaultless hbatches <| .cons trivial rfl <| .cons trivial rfl <|
      .cons nofun rfl meets_nil
  obtain ⟨honce, -, -, habandons⟩ := run_ends printable_poisoned horderly hs
  exact ⟨s, hs, htake, honce, habandons hcalm⟩

/-- A frame that declares more than sixteen mebibytes. -/
def oversized : List UInt8 := [2, 0, 0, 0, 1, 0, 0, 1]

def silent (_ : Nat) : Reaction := ⟨0, none⟩

def oversizedTerminal : Terminal :=
  ⟨.decodeFailed, "frame declares 16777217 bytes, over the declared 16777216 ceiling"⟩

theorem push_oversized :
    ((FrameDecoder.new (16 * 1024 * 1024)).push oversized).1 =
      [.terminal oversizedTerminal.kind oversizedTerminal.detail] := by
  rw [FrameDecoder.push, if_neg (by decide), FrameDecoder.frames]
  rfl

theorem step_oversized {s : State} (hopen : s.readyState = .opened)
    (hnew : s.decoder = .new (16 * 1024 * 1024)) :
    ∃ d, step silent s (.message oversized) =
      some ({ s with decoder := d, finished := true, calls := s.calls + 1 }.tell
        (.onTerminal oversizedTerminal)).close := by
  refine ⟨(s.decoder.push oversized).2, ?_⟩
  rw [step, if_pos hopen, onMessage]
  dsimp only
  rw [hnew, push_oversized]
  rfl

/-- A fault of the decoder comes back as a terminal frame, at which the socket is closed without a
cancel frame; and after an error event a frame calls the sink once more. -/
theorem run_faulted :
    (∃ s, runFrom (step silent) (start .connecting (16 * 1024 * 1024))
        [.opened, .message oversized] = some s ∧
      s.log = [.sendStart, .sendCredit 4, .onTerminal oversizedTerminal, .close] ∧
      ¬Abandons s.log) ∧
    ∃ s, runFrom (step silent) (start .connecting (16 * 1024 * 1024))
        [.opened, .error, .message oversized] = some s ∧ ¬EndsOnce s.log := by
  -- The socket once it is open, and after the error event.
  let running : State := { start .connecting (16 * 1024 * 1024) with readyState := .opened }.begin
  let errored : State := (running.tell .errorEvent).onEnd silent "connection error"
  constructor
  · obtain ⟨d, hd⟩ := step_oversized (s := running) rfl rfl
    refine ⟨_, (runFrom_snoc (step silent) (start .connecting (16 * 1024 * 1024)) [.opened]
      (.message oversized)).trans hd, rfl, fun h => ?_⟩
    have hsub := (h [.sendStart, .sendCredit 4] (.onTerminal oversizedTerminal) [.close] rfl rfl).1
    exact absurd hsub.length_le (by decide)
  · obtain ⟨d, hd⟩ := step_oversized (s := errored) rfl rfl
    refine ⟨_, (runFrom_snoc (step silent) (start .connecting (16 * 1024 * 1024)) [.opened, .error]
      (.message oversized)).trans hd, fun h => ?_⟩
    have hordered := h.ordered
    change List.Pairwise _ [Entry.sendStart, Entry.sendCredit 4, Entry.errorEvent,
      Entry.onTerminal ⟨.transportFailed, "connection error"⟩, Entry.onTerminal oversizedTerminal,
      Entry.close] at hordered
    have htwice := (List.pairwise_cons.1 hordered.tail.tail.tail).1
    exact htwice (.onTerminal oversizedTerminal) List.mem_cons_self trivial trivial

end SpatialIde.Shell.Streaming.AdapterWs
