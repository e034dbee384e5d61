import SpatialIde.Lib.Runs

/-! # The queue of steps to record

One call to the kernel at a time, in the order of the changes.  What `send` and `report` do is up to
the owner: they return or throw, and may queue further steps before that, so they stand on a stack
while they run.  The drain is at most once in that stack or in an await.
-/

namespace SpatialIde.Shell.Workspace.StepRecorder

open Lib

def MAX_PENDING_STEP_RECORDS : Nat := 64

/-- What a call may throw or reject with. -/
inductive Thrown where
  /-- It carries the kernel's refusal. -/
  | skp (message : String)
  | error (message : String)
  /-- Anything else; `none` where it cannot be turned into a text. -/
  | other (text : Option String)
  deriving DecidableEq, Repr

/-- The kernel's own message for a typed refusal, the error's message otherwise.  It throws what
`String(error)` throws. -/
def failureMessage : Thrown → Option String
  | .skp message => some message
  | .error message => some message
  | .other text => text

structure PendingStep (ι : Type) where
  dataset : String
  intent : ι
  deriving DecidableEq, Repr

/-- A callback that runs, with the step it was called for. -/
inductive Frame (ι : Type) where
  /-- `deps.send`, called by the drain. -/
  | send (step : PendingStep ι)
  /-- `deps.report`, called by the drain for a step that was not confirmed. -/
  | notConfirmed (step : PendingStep ι)
  /-- `deps.report`, called by `enqueue` for a step that is not sent. -/
  | notSent (step : PendingStep ι)
  deriving DecidableEq, Repr

/-- What has happened. -/
inductive Entry (ι : Type) where
  | accepted (step : PendingStep ι)
  | send (step : PendingStep ι)
  | confirmed (step : PendingStep ι)
  | failed (step : PendingStep ι) (error : Thrown)
  | reportNotConfirmed (step : PendingStep ι) (message : String)
  | reportNotSent (step : PendingStep ι) (waiting : Nat)
  deriving DecidableEq, Repr

structure State (ι : Type) where
  /-- The step in flight is the head. -/
  waiting : List (PendingStep ι)
  draining : Bool
  /-- The callbacks that run, the innermost first. -/
  stack : List (Frame ι)
  /-- The steps whose call has returned a promise that has not settled. -/
  awaits : List (PendingStep ι)
  log : List (Entry ι)
  deriving DecidableEq, Repr

variable {ι : Type}

namespace State

def new : State ι := ⟨[], false, [], [], []⟩

def tell (s : State ι) (e : Entry ι) : State ι := { s with log := s.log ++ [e] }

/-- A callback is called. -/
def call (s : State ι) (frame : Frame ι) (e : Entry ι) : State ι :=
  { s with stack := frame :: s.stack }.tell e

/-- The head of the loop of `drain`. -/
def drainLoop (s : State ι) : State ι :=
  match s.waiting with
  | [] => { s with draining := false }
  | step :: _ => s.call (.send step) (.send step)

def drain (s : State ι) : State ι := { s with draining := true }.drainLoop

/-- `waiting.shift()` -/
def shift (s : State ι) : State ι := { s with waiting := s.waiting.tail }

/-- The `catch` of the loop.  An exception in it leaves the loop. -/
def catchFailure (s : State ι) (step : PendingStep ι) (error : Thrown) : State ι :=
  let s := s.tell (.failed step error)
  match failureMessage error with
  | some message => s.call (.notConfirmed step) (.reportNotConfirmed step message)
  | none => { s.shift with draining := false }

def enqueue (s : State ι) (step : PendingStep ι) : State ι :=
  if MAX_PENDING_STEP_RECORDS ≤ s.waiting.length then
    s.call (.notSent step) (.reportNotSent step s.waiting.length)
  else
    let s := { s with waiting := s.waiting ++ [step] }.tell (.accepted step)
    if s.draining then s else s.drain

/-- The innermost callback returns; `send` returns a promise. -/
def finish (s : State ι) : Frame ι → State ι
  | .send step => { s with awaits := step :: s.awaits }
  | .notConfirmed _ => s.shift.drainLoop
  | .notSent _ => s

/-- The innermost callback throws. -/
def raise (s : State ι) (error : Thrown) : Frame ι → State ι
  | .send step => s.catchFailure step error
  | .notConfirmed _ => { s.shift with draining := false }
  | .notSent _ => s

/-- A promise settles. -/
def settle (s : State ι) (step : PendingStep ι) : Option Thrown → State ι
  | none => ((s.tell (.confirmed step)).shift).drainLoop
  | some error => s.catchFailure step error

end State

inductive Event (ι : Type) where
  /-- The owner queues a step, also from inside a callback. -/
  | enqueue (step : PendingStep ι)
  | finish
  | raise (error : Thrown)
  /-- A promise is resolved, or rejected. -/
  | settle (step : PendingStep ι) (error : Option Thrown)
  deriving DecidableEq, Repr

/-- One step; a promise settles when no callback runs. -/
def step [DecidableEq ι] (s : State ι) : Event ι → Option (State ι)
  | .enqueue step => some (s.enqueue step)
  | .finish =>
    match s.stack with
    | [] => none
    | frame :: stack => some ({ s with stack := stack }.finish frame)
  | .raise error =>
    match s.stack with
    | [] => none
    | frame :: stack => some ({ s with stack := stack }.raise error frame)
  | .settle step error =>
    if s.stack = [] ∧ step ∈ s.awaits then
      some ({ s with awaits := s.awaits.erase step }.settle step error)
    else none

/-! ### What the log comes to -/

namespace Entry

def acceptedStep : Entry ι → Option (PendingStep ι)
  | accepted step => some step
  | _ => none

def sentStep : Entry ι → Option (PendingStep ι)
  | send step => some step
  | _ => none

def failure : Entry ι → Option (PendingStep ι × Thrown)
  | failed step error => some (step, error)
  | _ => none

def reportMade : Entry ι → Option (PendingStep ι × String)
  | reportNotConfirmed step message => some (step, message)
  | _ => none

def refusal : Entry ι → Option (PendingStep ι × Nat)
  | reportNotSent step waiting => some (step, waiting)
  | _ => none

end Entry

def accepted (log : List (Entry ι)) : List (PendingStep ι) := log.filterMap Entry.acceptedStep

def sent (log : List (Entry ι)) : List (PendingStep ι) := log.filterMap Entry.sentStep

def failures (log : List (Entry ι)) : List (PendingStep ι × Thrown) := log.filterMap Entry.failure

def reports (log : List (Entry ι)) : List (PendingStep ι × String) :=
  log.filterMap Entry.reportMade

/-- The steps that were refused, and how many were waiting. -/
def refusals (log : List (Entry ι)) : List (PendingStep ι × Nat) :=
  log.filterMap Entry.refusal

theorem filterMap_tell {α : Type} (f : Entry ι → Option α) (s : State ι) (e : Entry ι) :
    (s.tell e).log.filterMap f = s.log.filterMap f ++ (f e).toList := by
  rw [State.tell, List.filterMap_append, List.filterMap_cons, List.filterMap_nil]
  cases f e <;> rfl

/-- The report of a failure. -/
def reportOf (failure : PendingStep ι × Thrown) : Option (PendingStep ι × String) :=
  (failureMessage failure.2).map fun message => (failure.1, message)

/-- The step of a call to `send` that has not returned. -/
def Frame.called : Frame ι → Option (PendingStep ι)
  | .send step => some step
  | _ => none

/-- The step a callback of the drain was called for. -/
def Frame.drained : Frame ι → Option (PendingStep ι)
  | .send step => some step
  | .notConfirmed step => some step
  | .notSent _ => none

namespace State

/-- The calls to `send` that have not settled. -/
def inFlight (s : State ι) : List (PendingStep ι) := s.stack.filterMap Frame.called ++ s.awaits

/-- The steps the drain is at: in flight, or failed and being reported. -/
def active (s : State ι) : List (PendingStep ι) := s.stack.filterMap Frame.drained ++ s.awaits

/-- The drain is under way exactly while it is at a step, which is the head of the queue; a queue
that stands still has room. -/
structure Sound (s : State ι) : Prop where
  queue : ∃ done, accepted s.log = done ++ s.waiting ∧ sent s.log = done ++ s.active
  drains : (s.active = [] ∧ s.draining = false ∧ s.waiting.length < MAX_PENDING_STEP_RECORDS) ∨
    ∃ head rest, s.active = [head] ∧ s.waiting = head :: rest ∧ s.draining = true
  room : s.waiting.length ≤ MAX_PENDING_STEP_RECORDS
  reported : reports s.log = (failures s.log).filterMap reportOf

/-- The drain has left its step, which is still in the queue. -/
structure Left (head : PendingStep ι) (s : State ι) : Prop where
  queue : ∃ done, accepted s.log = done ++ s.waiting ∧ sent s.log = done ++ [head]
  active_eq : s.active = []
  waiting_eq : ∃ rest, s.waiting = head :: rest
  draining : s.draining = true
  room : s.waiting.length ≤ MAX_PENDING_STEP_RECORDS
  reported : reports s.log = (failures s.log).filterMap reportOf

/-- The drain is at no step. -/
structure Idle (s : State ι) : Prop where
  queue : accepted s.log = sent s.log ++ s.waiting
  active_eq : s.active = []
  room : s.waiting.length < MAX_PENDING_STEP_RECORDS
  reported : reports s.log = (failures s.log).filterMap reportOf

theorem sound_new : Sound (.new : State ι) where
  queue := ⟨[], rfl, rfl⟩
  drains := .inl ⟨rfl, rfl, Nat.zero_lt_succ _⟩
  room := Nat.zero_le _
  reported := rfl

theorem active_call (s : State ι) (frame : Frame ι) (e : Entry ι) :
    (s.call frame e).active = frame.drained.toList ++ s.active := by
  rw [active, active, call, tell, List.filterMap_cons]
  cases frame.drained <;> rfl

theorem active_cons {s : State ι} {frame : Frame ι} {stack : List (Frame ι)}
    (hstack : s.stack = frame :: stack) :
    s.active = frame.drained.toList ++ { s with stack := stack }.active := by
  rw [active, active, hstack, List.filterMap_cons]
  cases frame.drained <;> rfl

variable {s : State ι} {head : PendingStep ι}

/-! ### What each move does -/

theorem Left.shift (h : Left head s) : Idle s.shift := by
  obtain ⟨done, haccepted, hsent⟩ := h.queue
  obtain ⟨rest, hrest⟩ := h.waiting_eq
  have hroom := h.room
  rw [hrest] at haccepted hroom
  refine ⟨?_, h.active_eq, ?_, h.reported⟩
  · change accepted s.log = sent s.log ++ s.waiting.tail
    rw [haccepted, hsent, hrest, List.tail_cons, List.append_assoc, List.singleton_append]
  · change s.waiting.tail.length < MAX_PENDING_STEP_RECORDS
    rw [hrest, List.tail_cons]
    rw [List.length_cons] at hroom
    omega

theorem Idle.stop (h : Idle s) : Sound { s with draining := false } where
  queue := ⟨sent s.log, h.queue, by
    change sent s.log = sent s.log ++ s.active
    rw [h.active_eq, List.append_nil]⟩
  drains := .inl ⟨h.active_eq, rfl, h.room⟩
  room := Nat.le_of_lt h.room
  reported := h.reported

/-- The loop goes on with the head of the queue, or ends. -/
theorem drainLoop_sound (hqueue : accepted s.log = sent s.log ++ s.waiting)
    (hactive : s.active = []) (hdraining : s.draining = true)
    (hroom : s.waiting.length ≤ MAX_PENDING_STEP_RECORDS)
    (hreported : reports s.log = (failures s.log).filterMap reportOf) : Sound s.drainLoop := by
  rw [drainLoop]
  split
  · next hwaiting =>
    refine Idle.stop ⟨hqueue, hactive, ?_, hreported⟩
    rw [hwaiting]
    exact Nat.zero_lt_succ _
  · next head rest hwaiting =>
    have hat : (s.call (.send head) (.send head)).active = [head] := by
      rw [active_call, hactive]
      rfl
    refine ⟨⟨sent s.log, ?_, ?_⟩, .inr ⟨head, rest, hat, hwaiting, hdraining⟩, hroom, ?_⟩
    · rw [accepted, call, filterMap_tell]
      exact (List.append_nil _).trans hqueue
    · rw [hat, sent, call, filterMap_tell]
      rfl
    · rw [reports, failures, call, filterMap_tell, filterMap_tell]
      exact (List.append_nil _).trans (hreported.trans (congrArg _ (List.append_nil _).symm))

theorem Idle.drainLoop (h : Idle s) (hdraining : s.draining = true) : Sound s.drainLoop :=
  drainLoop_sound h.queue h.active_eq hdraining (Nat.le_of_lt h.room) h.reported

/-- A failed step is reported, or not where its error has no text; either way the queue moves on
with it. -/
theorem Left.catchFailure (h : Left head s) (error : Thrown) :
    Sound (s.catchFailure head error) := by
  obtain ⟨done, hqueue, hdone⟩ := h.queue
  obtain ⟨rest, hrest⟩ := h.waiting_eq
  rw [State.catchFailure]
  dsimp only
  split
  · next message hmessage =>
    have hactive : (s.tell (.failed head error)).active = [] := h.active_eq
    have hat : ((s.tell (.failed head error)).call (.notConfirmed head)
        (.reportNotConfirmed head message)).active = [head] := by
      rw [active_call, hactive]
      rfl
    refine ⟨⟨done, ?_, ?_⟩, .inr ⟨head, rest, hat, hrest, h.draining⟩, h.room, ?_⟩
    · rw [accepted, call, filterMap_tell, filterMap_tell]
      exact (List.append_nil _).trans ((List.append_nil _).trans hqueue)
    · rw [hat, sent, call, filterMap_tell, filterMap_tell]
      exact (List.append_nil _).trans ((List.append_nil _).trans hdone)
    · have hreport : reportOf (head, error) = some (head, message) := by
        rw [reportOf, hmessage]
        rfl
      rw [reports, failures, call, filterMap_tell, filterMap_tell, filterMap_tell, filterMap_tell]
      change (reports s.log ++ []) ++ [(head, message)] =
        ((failures s.log ++ [(head, error)]) ++ []).filterMap reportOf
      rw [List.append_nil, List.append_nil, List.filterMap_append, List.filterMap_cons, hreport,
        h.reported]
      rfl
  · next hmessage =>
    have hleft : Left head (s.tell (.failed head error)) := by
      refine ⟨⟨done, ?_, ?_⟩, h.active_eq, h.waiting_eq, h.draining, h.room, ?_⟩
      · rw [accepted, filterMap_tell]
        exact (List.append_nil _).trans hqueue
      · rw [sent, filterMap_tell]
        exact (List.append_nil _).trans hdone
      · have hreport : reportOf (head, error) = none := by
          rw [reportOf, hmessage]
          rfl
        rw [reports, failures, filterMap_tell, filterMap_tell]
        change reports s.log ++ [] = (failures s.log ++ [(head, error)]).filterMap reportOf
        rw [List.append_nil, List.filterMap_append, List.filterMap_cons, hreport, h.reported]
        exact (List.append_nil _).symm
    exact hleft.shift.stop

/-- A callback of the drain ends. -/
theorem Sound.pop (h : Sound s) {frame : Frame ι} {stack : List (Frame ι)} {step : PendingStep ι}
    (hstack : s.stack = frame :: stack) (hframe : frame.drained = some step) :
    Left step { s with stack := stack } := by
  have hactive := active_cons hstack
  rw [hframe] at hactive
  obtain ⟨done, hqueue, hdone⟩ := h.queue
  rcases h.drains with ⟨hnil, -, -⟩ | ⟨head, rest, hat, hwaiting, hdraining⟩
  · rw [hnil] at hactive
    cases hactive
  · rw [hat] at hactive hdone
    obtain ⟨rfl, hrest⟩ := List.cons.inj hactive
    exact ⟨⟨done, hqueue, hdone⟩, hrest.symm, ⟨rest, hwaiting⟩, hdraining, h.room, h.reported⟩

/-- A callback that `enqueue` called ends. -/
theorem Sound.popNotSent (h : Sound s) {step : PendingStep ι} {stack : List (Frame ι)}
    (hstack : s.stack = .notSent step :: stack) : Sound { s with stack := stack } := by
  have hactive : s.active = { s with stack := stack }.active := active_cons hstack
  refine ⟨?_, ?_, h.room, h.reported⟩
  · rw [← hactive]
    exact h.queue
  · rw [← hactive]
    exact h.drains

/-- The promise of a call to `send` settles. -/
theorem Sound.take [DecidableEq ι] (h : Sound s) {step : PendingStep ι} (hstep : step ∈ s.awaits) :
    Left step { s with awaits := s.awaits.erase step } := by
  obtain ⟨done, hqueue, hdone⟩ := h.queue
  have hmem : step ∈ s.active := List.mem_append_right _ hstep
  rcases h.drains with ⟨hnil, -, -⟩ | ⟨head, rest, hat, hwaiting, hdraining⟩
  · rw [hnil] at hmem
    cases hmem
  · rw [hat, List.mem_singleton] at hmem
    subst hmem
    rw [hat] at hdone
    have hawaits : s.stack.filterMap Frame.drained = [] ∧ s.awaits = [step] := by
      rcases List.append_eq_singleton_iff.1 hat with ⟨hstack, hawaits⟩ | ⟨hstack, hawaits⟩
      · exact ⟨hstack, hawaits⟩
      · rw [hawaits] at hstep
        cases hstep
    refine ⟨⟨done, hqueue, hdone⟩, ?_, ⟨rest, hwaiting⟩, hdraining, h.room, h.reported⟩
    rw [active, hawaits.2, List.erase_cons_head]
    exact (List.append_nil _).trans hawaits.1

theorem Left.drainLoop (h : Left head s) : Sound s.shift.drainLoop :=
  h.shift.drainLoop h.draining

theorem Sound.enqueue (h : Sound s) (step : PendingStep ι) : Sound (s.enqueue step) := by
  obtain ⟨done, hqueue, hdone⟩ := h.queue
  rw [State.enqueue]
  split
  · -- The callback is not one of the drain.
    have hactive : (s.call (.notSent step) (.reportNotSent step s.waiting.length)).active =
        s.active := active_call s _ _
    refine ⟨⟨done, ?_, ?_⟩, ?_, h.room, ?_⟩
    · rw [accepted, call, filterMap_tell]
      exact (List.append_nil _).trans hqueue
    · rw [hactive, sent, call, filterMap_tell]
      exact (List.append_nil _).trans hdone
    · rw [hactive]
      exact h.drains
    · rw [reports, failures, call, filterMap_tell, filterMap_tell]
      exact (List.append_nil _).trans (h.reported.trans (congrArg _ (List.append_nil _).symm))
  · next hfull =>
    have haccepted : accepted (({ s with waiting := s.waiting ++ [step] } : State ι).tell
        (.accepted step)).log = done ++ (s.waiting ++ [step]) := by
      rw [accepted, filterMap_tell]
      exact (congrArg (· ++ [step]) hqueue).trans (List.append_assoc _ _ _)
    have hsent : sent (({ s with waiting := s.waiting ++ [step] } : State ι).tell
        (.accepted step)).log = done ++ s.active := by
      rw [sent, filterMap_tell]
      exact (List.append_nil _).trans hdone
    have hreported : reports (({ s with waiting := s.waiting ++ [step] } : State ι).tell
        (.accepted step)).log = (failures (({ s with waiting := s.waiting ++ [step] } :
          State ι).tell (.accepted step)).log).filterMap reportOf := by
      rw [reports, failures, filterMap_tell, filterMap_tell]
      exact (List.append_nil _).trans (h.reported.trans (congrArg _ (List.append_nil _).symm))
    have hroom : (s.waiting ++ [step]).length ≤ MAX_PENDING_STEP_RECORDS := by
      rw [List.length_append, List.length_singleton]
      omega
    dsimp only
    split
    · next hdraining =>
      refine ⟨⟨done, haccepted, hsent⟩, .inr ?_, hroom, hreported⟩
      rcases h.drains with ⟨-, hnot, -⟩ | ⟨head, rest, hat, hwaiting, hd⟩
      · exact absurd (hdraining.symm.trans hnot) (by decide)
      · exact ⟨head, rest ++ [step], hat, by
          change s.waiting ++ [step] = _
          rw [hwaiting, List.cons_append], hd⟩
    · next hdraining =>
      rcases h.drains with ⟨hactive, -, -⟩ | ⟨-, -, -, -, hd⟩
      · rw [hactive, List.append_nil] at hsent
        refine drainLoop_sound ?_ hactive rfl hroom hreported
        exact haccepted.trans (congrArg (· ++ (s.waiting ++ [step])) hsent.symm)
      · exact absurd hd hdraining

theorem Sound.finish (h : Sound s) {frame : Frame ι} {stack : List (Frame ι)}
    (hstack : s.stack = frame :: stack) : Sound ({ s with stack := stack }.finish frame) := by
  cases frame with
  | send step =>
    have hleft := h.pop hstack rfl
    have hat : ({ s with stack := stack, awaits := step :: s.awaits } : State ι).active = [step] := by
      obtain ⟨hcallbacks, hawaits⟩ := List.append_eq_nil_iff.1 hleft.active_eq
      change stack.filterMap Frame.drained = [] at hcallbacks
      change s.awaits = [] at hawaits
      rw [active, hcallbacks, hawaits]
      rfl
    obtain ⟨rest, hrest⟩ := hleft.waiting_eq
    obtain ⟨done, hqueue, hdone⟩ := hleft.queue
    exact ⟨⟨done, hqueue, hdone.trans (congrArg (done ++ ·) hat.symm)⟩,
      .inr ⟨step, rest, hat, hrest, hleft.draining⟩, h.room, h.reported⟩
  | notConfirmed step => exact (h.pop hstack rfl).drainLoop
  | notSent step => exact h.popNotSent hstack

theorem Sound.raise (h : Sound s) {frame : Frame ι} {stack : List (Frame ι)} (error : Thrown)
    (hstack : s.stack = frame :: stack) : Sound ({ s with stack := stack }.raise error frame) := by
  cases frame with
  | send step => exact (h.pop hstack rfl).catchFailure error
  | notConfirmed step => exact (h.pop hstack rfl).shift.stop
  | notSent step => exact h.popNotSent hstack

theorem Left.confirm (h : Left head s) : Left head (s.tell (.confirmed head)) := by
  obtain ⟨done, hqueue, hdone⟩ := h.queue
  refine ⟨⟨done, ?_, ?_⟩, h.active_eq, h.waiting_eq, h.draining, h.room, ?_⟩
  · rw [accepted, filterMap_tell]
    exact (List.append_nil _).trans hqueue
  · rw [sent, filterMap_tell]
    exact (List.append_nil _).trans hdone
  · rw [reports, failures, filterMap_tell, filterMap_tell]
    exact (List.append_nil _).trans (h.reported.trans (congrArg _ (List.append_nil _).symm))

theorem Left.settle (h : Left head s) (error : Option Thrown) : Sound (s.settle head error) := by
  cases error with
  | none => exact h.confirm.drainLoop
  | some error => exact h.catchFailure error

end State

/-! ### Runs -/

section

variable [DecidableEq ι] {s : State ι}

theorem sound_step (h : s.Sound) {e : Event ι} {s' : State ι} (hs' : step s e = some s') :
    s'.Sound := by
  cases e with
  | enqueue x =>
    cases hs'
    exact h.enqueue x
  | finish =>
    rw [step] at hs'
    split at hs'
    · cases hs'
    · next frame stack hstack =>
      cases hs'
      exact h.finish hstack
  | raise error =>
    rw [step] at hs'
    split at hs'
    · cases hs'
    · next frame stack hstack =>
      cases hs'
      exact h.raise error hstack
  | settle x error =>
    rw [step] at hs'
    split at hs'
    · next hx =>
      cases hs'
      exact (h.take hx.2).settle error
    · cases hs'

end

/-- What is told of a step that is accepted. -/
theorem log_enqueue (s : State ι) (x : PendingStep ι)
    (hroom : s.waiting.length < MAX_PENDING_STEP_RECORDS) :
    (s.enqueue x).log = s.log ++ .accepted x ::
      if s.draining then [] else [.send ((s.waiting ++ [x]).headD x)] := by
  rw [State.enqueue, if_neg (by omega)]
  change State.log (if s.draining = true then _ else _) = _
  by_cases hdraining : s.draining = true
  · rw [if_pos hdraining, if_pos hdraining]
    rfl
  · rw [if_neg hdraining, if_neg hdraining, State.drain, State.drainLoop]
    split
    · next hnil => exact absurd (List.append_eq_nil_iff.1 hnil).2 (List.cons_ne_nil x [])
    · next head rest hcons =>
      change s.waiting ++ [x] = head :: rest at hcons
      rw [hcons]
      exact List.append_assoc _ _ _

/-- What a run says of the queue. -/
structure Recorded (s : State ι) : Prop where
  oneInFlight : s.inFlight.length ≤ 1
  /-- The steps are sent in their order, each at most once. -/
  inOrder : sent s.log <+: accepted s.log
  refused : ∀ x, if s.waiting.length = MAX_PENDING_STEP_RECORDS then
      refusals (s.enqueue x).log = refusals s.log ++ [(x, MAX_PENDING_STEP_RECORDS)] ∧
        accepted (s.enqueue x).log = accepted s.log
    else refusals (s.enqueue x).log = refusals s.log ∧
      accepted (s.enqueue x).log = accepted s.log ++ [x]
  /-- A failure is reported as soon as its error has a text, and nothing else is. -/
  reported : reports s.log = (failures s.log).filterMap reportOf
  /-- What is in the queue no more has been sent. -/
  kept : ∃ done, accepted s.log = done ++ s.waiting ∧ done <+: sent s.log
  restarts : ∀ x head rest, s.active = [] → s.waiting = head :: rest →
    (s.enqueue x).log = s.log ++ [.accepted x, .send head]
  roomy : s.active = [] → s.waiting.length < MAX_PENDING_STEP_RECORDS

theorem Frame.drained_of_called {frame : Frame ι} {x : PendingStep ι} (h : frame.called = some x) :
    frame.drained = some x := by
  cases frame <;> first | exact h | cases h

/-- A call in flight is one the drain is at. -/
theorem length_inFlight_le (s : State ι) : s.inFlight.length ≤ s.active.length := by
  rw [State.inFlight, State.active, List.length_append, List.length_append]
  refine Nat.add_le_add_right ?_ _
  induction s.stack with
  | nil => exact Nat.le_refl _
  | cons frame stack ih =>
    rw [List.filterMap_cons, List.filterMap_cons]
    cases hcalled : frame.called with
    | none =>
      cases frame.drained with
      | none => exact ih
      | some x => exact Nat.le_succ_of_le ih
    | some x =>
      rw [Frame.drained_of_called hcalled]
      exact Nat.succ_le_succ ih

theorem State.Sound.recorded {s : State ι} (h : s.Sound) : Recorded s where
  oneInFlight := by
    refine Nat.le_trans (length_inFlight_le s) ?_
    rcases h.drains with ⟨hnil, -, -⟩ | ⟨head, rest, hat, -, -⟩
    · rw [hnil]
      exact Nat.zero_le 1
    · rw [hat]
      exact Nat.le_refl 1
  inOrder := by
    obtain ⟨done, hqueue, hdone⟩ := h.queue
    rw [hqueue, hdone, List.prefix_append_right_inj]
    rcases h.drains with ⟨hnil, -, -⟩ | ⟨head, rest, hat, hwaiting, -⟩
    · rw [hnil]
      exact List.nil_prefix
    · rw [hat, hwaiting]
      exact ⟨rest, rfl⟩
  refused := by
    intro x
    have hroom := h.room
    split
    · next hfull =>
      rw [State.enqueue, if_pos (Nat.le_of_eq hfull.symm), refusals, accepted, State.call, filterMap_tell,
        filterMap_tell, hfull]
      exact ⟨rfl, List.append_nil _⟩
    · next hfull =>
      rw [log_enqueue s x (by omega), refusals, accepted, refusals, accepted,
        List.filterMap_append, List.filterMap_append]
      split
      · exact ⟨List.append_nil _, rfl⟩
      · exact ⟨List.append_nil _, rfl⟩
  reported := h.reported
  kept := by
    obtain ⟨done, hqueue, hdone⟩ := h.queue
    exact ⟨done, hqueue, hdone ▸ List.prefix_append done _⟩
  restarts := by
    intro x head rest hactive hwaiting
    rcases h.drains with ⟨-, hdraining, hroom⟩ | ⟨_, _, hat, -, -⟩
    · rw [log_enqueue s x hroom, hdraining, hwaiting]
      rfl
    · rw [hactive] at hat
      cases hat
  roomy := by
    intro hactive
    rcases h.drains with ⟨-, -, hroom⟩ | ⟨head, rest, hat, -, -⟩
    · exact hroom
    · rw [hactive] at hat
      cases hat

/-- **Every run of the queue.** -/
theorem run_recorded [DecidableEq ι] {es : List (Event ι)} {s : State ι}
    (hs : runFrom step .new es = some s) : Recorded s :=
  (runFrom_keeps_all State.sound_new (fun _ _ _ h ht => sound_step h ht) hs).recorded

def change (n : Nat) : PendingStep Nat := ⟨"parcels", n⟩

/-- Two changes, of which the second is made while the failure of the first is reported, and the
report throws. -/
def reentered : List (Event Nat) :=
  [.enqueue (change 1), .finish, .settle (change 1) (some (.error "no answer")),
    .enqueue (change 2), .raise (.error "no notice")]

theorem run_recorded_reentered : ∃ s, runFrom step .new reentered = some s ∧ Recorded s := by
  have hrun : ∃ s, runFrom step .new reentered = some s := ⟨_, rfl⟩
  obtain ⟨s, hs⟩ := hrun
  exact ⟨s, hs, run_recorded hs⟩

/-- The change that is made inside the report starts nothing, although no call is in flight and the
queue is not empty, and the queue stands still after it.  A failure that has no text is not
reported. -/
theorem run_unstarted :
    (∃ s, runFrom step .new (reentered.take 3) = some s ∧ s.waiting = [change 1] ∧
      s.inFlight = [] ∧ (s.enqueue (change 2)).log = s.log ++ [.accepted (change 2)]) ∧
    (∃ s, runFrom step .new reentered = some s ∧ s.waiting = [change 2] ∧ s.active = [] ∧
      s.draining = false) ∧
    ∃ s, runFrom step .new [.enqueue (change 1), .raise (.other none)] = some s ∧
      failures s.log = [(change 1, .other none)] ∧ reports s.log = [] :=
  ⟨⟨_, rfl, rfl, rfl, rfl⟩, ⟨_, rfl, rfl, rfl, rfl⟩, ⟨_, rfl, rfl, rfl⟩⟩

end SpatialIde.Shell.Workspace.StepRecorder
