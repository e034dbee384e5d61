import SpatialIde.Engine.Types
import SpatialIde.Lib.Runs

/-! # Cancelling a query that runs

A `CancelToken` is a flag, the interrupt handle of the connection that is bound, and whether a closure
runs under the guard.  A call binds a connection (`attach`), runs closures (`execute_guarded`) and
unbinds it (`detach`); a cancel sets the flag, interrupts what is bound, and where a closure runs leaves
a thread that goes on interrupting.  Every access to an atomic and every section under the mutex is one
event of the machine.

`Inv` says who holds the slot and which window is open, and that one cancel is the first.
-/

namespace SpatialIde.Engine.Cancel

open Lib

/-- What a guarded closure ends with. -/
inductive Ending where
  | ok
  | err
  | panic
  deriving DecidableEq, Repr

inductive Guarded where
  | ok
  | err
  | cancelled
  deriving DecidableEq, Repr

/-- Where a call is that binds a connection. -/
inductive Phase where
  | idle
  | refused (error : EngineError)
  /-- Bound, with what the last `execute_guarded` returned. -/
  | attached (last : Option Guarded)
  /-- `in_execute` is set and the flag is not read yet. -/
  | opened
  | executing
  /-- The closure has ended or did not run, and `in_execute` is still set. -/
  | closing (ending : Option Ending)
  /-- The closure returned `Ok` and the flag is to be read again. -/
  | rechecking
  /-- The closure unwound, and so did the call. -/
  | unwound
  | detached
  deriving DecidableEq

inductive GuardEvent where
  | storesInExecute
  | loadsCancelled
  | closureEnds (ending : Ending)
  /-- The drop of `WindowOpen`. -/
  | clearsInExecute
  | reloadsCancelled
  deriving DecidableEq, Repr

/-- `execute_guarded`, with the flag as it is. -/
def Phase.next (cancelled : Bool) : Phase → GuardEvent → Option Phase
  | .attached _, .storesInExecute => some .opened
  | .opened, .loadsCancelled => some (if cancelled then .closing none else .executing)
  | .executing, .closureEnds ending => some (.closing (some ending))
  | .closing none, .clearsInExecute => some (.attached (some .cancelled))
  | .closing (some .ok), .clearsInExecute => some .rechecking
  | .closing (some .err), .clearsInExecute => some (.attached (some .err))
  | .closing (some .panic), .clearsInExecute => some .unwound
  | .rechecking, .reloadsCancelled =>
    some (.attached (some (if cancelled then .cancelled else .ok)))
  | _, _ => none

/-- What it writes to `in_execute`. -/
def GuardEvent.write (inExecute : Bool) : GuardEvent → Bool
  | .storesInExecute => true
  | .clearsInExecute => false
  | _ => inExecute

/-- The handle of the call is in the slot. -/
def Phase.holds : Phase → Bool
  | .idle | .refused _ | .detached => false
  | _ => true

def Phase.inWindow : Phase → Bool
  | .opened | .executing | .closing _ => true
  | _ => false

/-- Where a cancel is. -/
inductive CancelPhase where
  | idle
  | swapped (already : Bool)
  | interrupted (already : Bool)
  /-- It was the first and saw a window open. -/
  | spawning
  /-- It has returned, and its re-interrupter runs. -/
  | reinterrupting
  | done
  deriving DecidableEq, Repr

/-- It found the flag unset, and is not over. -/
def CancelPhase.first : CancelPhase → Bool
  | .swapped already | .interrupted already => !already
  | .spawning | .reinterrupting => true
  | _ => false

inductive CancelEvent where
  | swaps
  | interrupts
  | loadsInExecute
  | spawns (accepted : Bool)
  deriving DecidableEq, Repr

section

variable (η : Type)

/-- A handle in the slot, with the call that bound it. -/
structure Binding where
  call : Nat
  handle : η
  deriving DecidableEq

structure State where
  cancelled : Bool
  interrupt : Option (Binding η)
  inExecute : Bool
  calls : Nat → Phase
  cancels : Nat → CancelPhase
  /-- The interrupts, the last one in front. -/
  raised : List (Binding η)

inductive Event where
  | attach (call : Nat) (handle : η)
  | guard (call : Nat) (e : GuardEvent)
  | detach (call : Nat)
  | cancel (canceller : Nat) (e : CancelEvent)
  /-- A turn of the loop in the thread of a cancel. -/
  | reinterrupt (canceller : Nat)
  deriving DecidableEq

end

variable {η : Type}

def alreadyBound : EngineError :=
  .source
    "this cancellation token is already bound to a running stream; each stream needs its own token"

namespace State

def new : State η := ⟨false, none, false, fun _ => .idle, fun _ => .idle, []⟩

def setCall (s : State η) (call : Nat) (phase : Phase) : State η :=
  { s with calls := Function.update s.calls call phase }

def setCancel (s : State η) (canceller : Nat) (phase : CancelPhase) : State η :=
  { s with cancels := Function.update s.cancels canceller phase }

/-- What is in the slot is interrupted. -/
def poke (s : State η) : State η := { s with raised := s.interrupt.toList ++ s.raised }

def attach (s : State η) (call : Nat) (handle : η) : State η :=
  match s.interrupt with
  | some _ => s.setCall call (.refused alreadyBound)
  | none =>
    { s.setCall call (.attached none) with
      raised := if s.cancelled then ⟨call, handle⟩ :: s.raised else s.raised
      interrupt := some ⟨call, handle⟩ }

def cancelInner (s : State η) (canceller : Nat) : CancelPhase → CancelEvent → Option (State η)
  | .idle, .swaps => some { s.setCancel canceller (.swapped s.cancelled) with cancelled := true }
  | .swapped already, .interrupts => some (s.poke.setCancel canceller (.interrupted already))
  | .interrupted already, .loadsInExecute =>
    some (s.setCancel canceller (if !already && s.inExecute then .spawning else .done))
  | .spawning, .spawns accepted =>
    some (s.setCancel canceller (if accepted then .reinterrupting else .done))
  | _, _ => none

def step (s : State η) : Event η → Option (State η)
  | .attach call handle => if s.calls call = .idle then some (s.attach call handle) else none
  | .guard call e =>
    match (s.calls call).next s.cancelled e with
    | some phase => some { s.setCall call phase with inExecute := e.write s.inExecute }
    | none => none
  | .detach call =>
    match s.calls call with
    | .attached _ => some { s.setCall call .detached with interrupt := none }
    | _ => none
  | .cancel canceller e => s.cancelInner canceller (s.cancels canceller) e
  | .reinterrupt canceller =>
    if s.cancels canceller = .reinterrupting then
      if s.inExecute then
        match s.interrupt with
        | some _ => some s.poke
        | none => some (s.setCancel canceller .done)
      else some (s.setCancel canceller .done)
    else none

end State

/-! ### One call, and one cancel -/

/-- A step of `execute_guarded` is one of a call that holds the slot, and it holds it afterwards; what it
writes to `in_execute` is whether its window is open. -/
theorem Phase.next_holds {p p' : Phase} {cancelled : Bool} {e : GuardEvent}
    (h : p.next cancelled e = some p') :
    p.holds = true ∧ p'.holds = true ∧ e.write p.inWindow = p'.inWindow := by
  cases p with
  | attached last | executing =>
    cases e <;> cases h
    exact ⟨rfl, rfl, rfl⟩
  | opened | rechecking =>
    cases e <;> cases h
    cases cancelled <;> exact ⟨rfl, rfl, rfl⟩
  | closing ending =>
    rcases ending with _ | _ | _ | _ <;> cases e <;> cases h <;> exact ⟨rfl, rfl, rfl⟩
  | idle | refused error | unwound | detached => cases e <;> cases h

/-- A closure starts in the step that finds the flag unset. -/
theorem Phase.next_executing {p : Phase} {cancelled : Bool} {e : GuardEvent}
    (h : p.next cancelled e = some .executing) : e = .loadsCancelled ∧ cancelled = false := by
  cases p with
  | opened =>
    cases e <;> cases cancelled <;> cases h
    exact ⟨rfl, rfl⟩
  | closing ending => rcases ending with _ | _ | _ | _ <;> cases e <;> cases h
  | rechecking => cases e <;> cases cancelled <;> cases h
  | idle | refused error | attached last | executing | unwound | detached => cases e <;> cases h

/-- `Ok` is returned in the step that finds the flag unset again. -/
theorem Phase.next_ok {p : Phase} {cancelled : Bool} {e : GuardEvent}
    (h : p.next cancelled e = some (.attached (some .ok))) :
    e = .reloadsCancelled ∧ cancelled = false := by
  cases p with
  | rechecking =>
    cases e <;> cases cancelled <;> cases h
    exact ⟨rfl, rfl⟩
  | closing ending => rcases ending with _ | _ | _ | _ <;> cases e <;> cases h
  | opened => cases e <;> cases cancelled <;> cases h
  | idle | refused error | attached last | executing | unwound | detached => cases e <;> cases h

/-- Only the drop of `WindowOpen` closes a window. -/
theorem Phase.next_closes {p p' : Phase} {cancelled : Bool} {e : GuardEvent}
    (h : p.next cancelled e = some p') (hopen : p.inWindow = true) (he : e ≠ .clearsInExecute) :
    p'.inWindow = true := by
  rw [← (Phase.next_holds h).2.2]
  cases e with
  | clearsInExecute => exact absurd rfl he
  | storesInExecute => rfl
  | loadsCancelled | closureEnds ending | reloadsCancelled => exact hopen

theorem Phase.holds_of_inWindow {p : Phase} (h : p.inWindow = true) : p.holds = true := by
  cases p <;> cases h <;> rfl

/-- What a step can do. -/
theorem step_cases {s s' : State η} {e : Event η} (hs : s.step e = some s') :
    (∃ n handle, e = .attach n handle ∧ s.calls n = .idle ∧ s' = s.attach n handle) ∨
    (∃ n g p, e = .guard n g ∧ (s.calls n).next s.cancelled g = some p ∧
      s' = { s.setCall n p with inExecute := g.write s.inExecute }) ∨
    (∃ n last, e = .detach n ∧ s.calls n = .attached last ∧
      s' = { s.setCall n .detached with interrupt := none }) ∨
    (∃ c g, e = .cancel c g ∧ s.cancelInner c (s.cancels c) g = some s') ∨
    (∃ c, e = .reinterrupt c ∧ s' = s.poke) ∨
    ∃ c, e = .reinterrupt c ∧ (s.inExecute = false ∨ s.interrupt = none) ∧ s' = s.setCancel c .done := by
  cases e with
  | attach n handle =>
    rw [State.step] at hs
    split_ifs at hs with hidle
    exact .inl ⟨n, handle, rfl, hidle, (Option.some.inj hs).symm⟩
  | guard n g =>
    rw [State.step] at hs
    split at hs
    next p hp => exact .inr (.inl ⟨n, g, p, rfl, hp, (Option.some.inj hs).symm⟩)
    · cases hs
  | detach n =>
    rw [State.step] at hs
    split at hs
    next last hn => exact .inr (.inr (.inl ⟨n, last, rfl, hn, (Option.some.inj hs).symm⟩))
    · cases hs
  | cancel c g => exact .inr (.inr (.inr (.inl ⟨c, g, rfl, hs⟩)))
  | reinterrupt c =>
    rw [State.step] at hs
    split_ifs at hs with hrunning hwindow
    · split at hs
      · exact .inr (.inr (.inr (.inr (.inl ⟨c, rfl, (Option.some.inj hs).symm⟩))))
      next hnone =>
        exact .inr (.inr (.inr (.inr (.inr ⟨c, rfl, .inr hnone, (Option.some.inj hs).symm⟩))))
    · have hclosed := eq_false_of_ne_true hwindow
      exact .inr (.inr (.inr (.inr (.inr ⟨c, rfl, .inl hclosed, (Option.some.inj hs).symm⟩))))

/-! ### What holds of every state -/

/-- The call that holds the slot is the one in it, `in_execute` is set where a window is open, and one
cancel at most found the flag unset. -/
structure Inv (s : State η) : Prop where
  slot : ∀ n, (s.calls n).holds = true ↔ ∃ handle, s.interrupt = some ⟨n, handle⟩
  window : s.inExecute = true ↔ ∃ n, (s.calls n).inWindow = true
  one : ∀ c c', (s.cancels c).first = true → (s.cancels c').first = true → c = c'
  unset : s.cancelled = false → ∀ c, (s.cancels c).first = false

theorem inv_new : Inv (State.new : State η) :=
  ⟨fun _ => ⟨nofun, nofun⟩, ⟨nofun, nofun⟩, nofun, fun _ _ => rfl⟩

@[simp] theorem calls_setCall (s : State η) (n : Nat) (p : Phase) (m : Nat) :
    (s.setCall n p).calls m = if m = n then p else s.calls m :=
  Function.update_apply s.calls n p m

@[simp] theorem cancels_setCancel (s : State η) (c : Nat) (p : CancelPhase) (c' : Nat) :
    (s.setCancel c p).cancels c' = if c' = c then p else s.cancels c' :=
  Function.update_apply s.cancels c p c'

namespace Inv

variable {s : State η} {n c : Nat}

/-- The flag `in_execute` tells of the call that holds the slot. -/
theorem inExecute_eq (h : Inv s) (hn : (s.calls n).holds = true) :
    s.inExecute = (s.calls n).inWindow := by
  rw [Bool.eq_iff_iff, h.window]
  refine ⟨fun ⟨m, hm⟩ => ?_, fun hopen => ⟨n, hopen⟩⟩
  obtain ⟨handle, hslot⟩ := (h.slot n).1 hn
  obtain ⟨handle', hslot'⟩ := (h.slot m).1 (Phase.holds_of_inWindow hm)
  have hsame : n = m := congrArg Binding.call (Option.some.inj (hslot.symm.trans hslot'))
  rw [hsame]
  exact hm

/-- A call other than the one that holds the slot has no window. -/
theorem closed_of_ne (h : Inv s) {m : Nat} (hn : (s.calls n).holds = true) (hne : m ≠ n) :
    (s.calls m).inWindow = false := by
  by_contra hopen
  obtain ⟨handle, hslot⟩ := (h.slot n).1 hn
  obtain ⟨handle', hslot'⟩ :=
    (h.slot m).1 (Phase.holds_of_inWindow (eq_true_of_ne_false hopen))
  exact hne (congrArg Binding.call (Option.some.inj (hslot'.symm.trans hslot)))

theorem guard (h : Inv s) {e : GuardEvent} {p : Phase}
    (hp : (s.calls n).next s.cancelled e = some p) :
    Inv { s.setCall n p with inExecute := e.write s.inExecute } := by
  obtain ⟨hn, hholds, hwrite⟩ := Phase.next_holds hp
  refine ⟨fun m => ?_, ?_, h.one, h.unset⟩
  · change ((s.setCall n p).calls m).holds = true ↔ ∃ handle, s.interrupt = some ⟨m, handle⟩
    rw [← h.slot m, calls_setCall]
    by_cases hm : m = n
    · rw [if_pos hm, hm]
      exact iff_of_true hholds hn
    · rw [if_neg hm]
  · change e.write s.inExecute = true ↔ ∃ m, ((s.setCall n p).calls m).inWindow = true
    rw [h.inExecute_eq hn, hwrite]
    refine ⟨fun hopen => ⟨n, by rw [calls_setCall, if_pos rfl]; exact hopen⟩, fun ⟨m, hm⟩ => ?_⟩
    rw [calls_setCall] at hm
    by_cases hmn : m = n
    · rw [if_pos hmn] at hm
      exact hm
    · rw [if_neg hmn, h.closed_of_ne hn hmn] at hm
      cases hm

theorem attach (h : Inv s) (hidle : s.calls n = .idle) (handle : η) : Inv (s.attach n handle) := by
  have hwindow : ∀ p : Phase, p.inWindow = false →
      (s.inExecute = true ↔ ∃ m, ((s.setCall n p).calls m).inWindow = true) := by
    intro p hp
    rw [h.window]
    refine exists_congr fun m => ?_
    rw [calls_setCall]
    by_cases hm : m = n
    · rw [if_pos hm, hm, hidle, hp]
      rfl
    · rw [if_neg hm]
  rw [State.attach]
  split
  next b hbound =>
    refine ⟨fun m => ?_, hwindow _ rfl, h.one, h.unset⟩
    rw [calls_setCall]
    by_cases hm : m = n
    · rw [if_pos hm, hm]
      have hnone := h.slot n
      rw [hidle] at hnone
      exact hnone
    · rw [if_neg hm]
      exact h.slot m
  next hnone =>
    refine ⟨fun m => ?_, hwindow _ rfl, h.one, h.unset⟩
    change ((s.setCall n (.attached none)).calls m).holds = true ↔
      ∃ handle', some (Binding.mk n handle) = some ⟨m, handle'⟩
    rw [calls_setCall]
    by_cases hm : m = n
    · rw [if_pos hm, hm]
      exact iff_of_true rfl ⟨handle, rfl⟩
    · rw [if_neg hm, h.slot m, hnone]
      refine ⟨nofun, fun ⟨_, hsome⟩ => ?_⟩
      exact absurd (congrArg Binding.call (Option.some.inj hsome)).symm hm

theorem detach (h : Inv s) {last : Option Guarded} (hn : s.calls n = .attached last) :
    Inv { s.setCall n .detached with interrupt := none } := by
  have hholds : (s.calls n).holds = true := by rw [hn]; rfl
  obtain ⟨handle, hbound⟩ := (h.slot n).1 hholds
  refine ⟨fun m => ?_, ?_, h.one, h.unset⟩
  · change ((s.setCall n .detached).calls m).holds = true ↔ ∃ handle', none = some (Binding.mk m handle')
    rw [calls_setCall]
    by_cases hm : m = n
    · rw [if_pos hm]
      exact ⟨nofun, nofun⟩
    · rw [if_neg hm, h.slot m, hbound]
      refine ⟨fun ⟨_, hsome⟩ => ?_, nofun⟩
      exact absurd (congrArg Binding.call (Option.some.inj hsome)).symm hm
  · change s.inExecute = true ↔ ∃ m, ((s.setCall n .detached).calls m).inWindow = true
    rw [h.inExecute_eq hholds, hn]
    refine ⟨nofun, fun ⟨m, hm⟩ => ?_⟩
    rw [calls_setCall] at hm
    by_cases hmn : m = n
    · rw [if_pos hmn] at hm
      cases hm
    · rw [if_neg hmn, h.closed_of_ne hholds hmn] at hm
      cases hm

/-- A cancel that was the first, or is not the first, is so afterwards or no longer. -/
theorem setCancel (h : Inv s) {p : CancelPhase} (hp : p.first = true → (s.cancels c).first = true) :
    Inv (s.setCancel c p) := by
  have hstays : ∀ c', ((s.setCancel c p).cancels c').first = true → (s.cancels c').first = true := by
    intro c' hc'
    rw [cancels_setCancel] at hc'
    by_cases hsame : c' = c
    · rw [if_pos hsame] at hc'
      rw [hsame]
      exact hp hc'
    · rw [if_neg hsame] at hc'
      exact hc'
  refine ⟨h.slot, h.window, fun c₁ c₂ h₁ h₂ => h.one c₁ c₂ (hstays c₁ h₁) (hstays c₂ h₂), fun hunset c' => ?_⟩
  refine eq_false_of_ne_true fun hc' => ?_
  exact absurd (hstays c' hc') (by rw [h.unset hunset c']; exact Bool.false_ne_true)

theorem poke (h : Inv s) : Inv s.poke := ⟨h.slot, h.window, h.one, h.unset⟩

theorem swap (h : Inv s) :
    Inv { s.setCancel c (.swapped s.cancelled) with cancelled := true } := by
  refine ⟨h.slot, h.window, fun c₁ c₂ h₁ h₂ => ?_, nofun⟩
  change ((s.setCancel c (.swapped s.cancelled)).cancels c₁).first = true at h₁
  change ((s.setCancel c (.swapped s.cancelled)).cancels c₂).first = true at h₂
  cases hset : s.cancelled with
  | true =>
    rw [hset] at h₁ h₂
    have hkept : Inv (s.setCancel c (.swapped true)) := h.setCancel nofun
    exact hkept.one c₁ c₂ h₁ h₂
  | false =>
    have honly : ∀ c', ((s.setCancel c (.swapped s.cancelled)).cancels c').first = true → c' = c := by
      intro c' hc'
      by_contra hne
      rw [cancels_setCancel, if_neg hne, h.unset hset c'] at hc'
      cases hc'
    rw [honly c₁ h₁, honly c₂ h₂]

theorem cancelInner (h : Inv s) {e : CancelEvent} {s' : State η}
    (hs : s.cancelInner c (s.cancels c) e = some s') : Inv s' := by
  cases hc : s.cancels c with
  | idle =>
    cases e <;> rw [hc] at hs <;> cases hs
    exact h.swap
  | swapped already =>
    cases e <;> rw [hc] at hs <;> cases hs
    refine h.poke.setCancel fun hfirst => ?_
    change (s.cancels c).first = true
    rw [hc]
    exact hfirst
  | interrupted already =>
    cases e <;> rw [hc] at hs <;> cases hs
    refine h.setCancel fun hfirst => ?_
    rw [hc]
    cases already with
    | false => rfl
    | true => exact hfirst
  | spawning =>
    cases e <;> rw [hc] at hs <;> cases hs
    exact h.setCancel fun _ => by rw [hc]; rfl
  | reinterrupting | done => cases e <;> rw [hc] at hs <;> cases hs

theorem step (h : Inv s) {e : Event η} {s' : State η} (hs : s.step e = some s') : Inv s' := by
  rcases step_cases hs with ⟨m, handle, rfl, hidle, rfl⟩ | ⟨m, g, p, rfl, hp, rfl⟩ |
    ⟨m, last, rfl, hm, rfl⟩ | ⟨c, g, rfl, hc⟩ | ⟨c, rfl, rfl⟩ | ⟨c, rfl, -, rfl⟩
  · exact h.attach hidle handle
  · exact h.guard hp
  · exact h.detach hm
  · exact h.cancelInner hc
  · exact h.poke
  · exact h.setCancel nofun

end Inv

/-! ### What a step changes -/

section

variable {s s' : State η} {e : Event η}

theorem calls_cancelInner {c : Nat} {p : CancelPhase} {g : CancelEvent}
    (hs : s.cancelInner c p g = some s') : s'.calls = s.calls := by
  cases p <;> cases g <;> cases hs <;> rfl

theorem cancelled_cancelInner {c : Nat} {p : CancelPhase} {g : CancelEvent}
    (hs : s.cancelInner c p g = some s') :
    s'.cancelled = true ↔ s.cancelled = true ∨ g = .swaps := by
  cases g with
  | swaps =>
    cases p <;> cases hs
    exact iff_of_true rfl (.inr rfl)
  | interrupts | loadsInExecute | spawns accepted =>
    cases p <;> cases hs
    exact ⟨.inl, fun h => h.resolve_right nofun⟩

theorem cancels_cancelInner {c c' : Nat} {p : CancelPhase} {g : CancelEvent}
    (hs : s.cancelInner c p g = some s') (hne : c' ≠ c) : s'.cancels c' = s.cancels c' := by
  cases p <;> cases g <;> cases hs
  all_goals exact (cancels_setCancel ..).trans (if_neg hne)

theorem raised_cancelInner {c : Nat} {p : CancelPhase} {g : CancelEvent}
    (hs : s.cancelInner c p g = some s') : s'.raised = s.raised ∨ s'.raised = s.poke.raised := by
  cases p <;> cases g <;> cases hs
  all_goals first | exact .inl rfl | exact .inr rfl

theorem calls_attach (s : State η) {n m : Nat} (handle : η) (hne : m ≠ n) :
    (s.attach n handle).calls m = s.calls m := by
  rw [State.attach]
  split <;> exact (calls_setCall ..).trans (if_neg hne)

theorem calls_attach_self (s : State η) (n : Nat) (handle : η) :
    (s.attach n handle).calls n = .attached none ∨
    (s.attach n handle).calls n = .refused alreadyBound := by
  rw [State.attach]
  split
  · exact .inr ((calls_setCall ..).trans (if_pos rfl))
  · exact .inl ((calls_setCall ..).trans (if_pos rfl))

theorem attach_keeps (s : State η) (n : Nat) (handle : η) :
    (s.attach n handle).cancelled = s.cancelled ∧ (s.attach n handle).cancels = s.cancels := by
  rw [State.attach]
  split <;> exact ⟨rfl, rfl⟩

/-- A call stands still, is bound or refused, goes a step under the guard, or is unbound. -/
theorem calls_of_step (hs : s.step e = some s') (n : Nat) :
    s'.calls n = s.calls n ∨
    (s.calls n = .idle ∧ (s'.calls n = .attached none ∨ s'.calls n = .refused alreadyBound)) ∨
    (∃ g, e = .guard n g ∧ (s.calls n).next s.cancelled g = some (s'.calls n)) ∨
    e = .detach n ∧ (∃ last, s.calls n = .attached last) ∧ s'.calls n = .detached := by
  rcases step_cases hs with ⟨m, handle, rfl, hidle, rfl⟩ | ⟨m, g, p, rfl, hp, rfl⟩ |
    ⟨m, last, rfl, hm, rfl⟩ | ⟨c, g, rfl, hc⟩ | ⟨c, rfl, rfl⟩ | ⟨c, rfl, -, rfl⟩
  · by_cases hn : n = m
    · rw [hn]
      exact .inr (.inl ⟨hidle, calls_attach_self s m handle⟩)
    · exact .inl (calls_attach s handle hn)
  · by_cases hn : n = m
    · subst hn
      refine .inr (.inr (.inl ⟨g, rfl, hp.trans ?_⟩))
      exact congrArg some ((calls_setCall ..).trans (if_pos rfl)).symm
    · exact .inl ((calls_setCall ..).trans (if_neg hn))
  · by_cases hn : n = m
    · subst hn
      exact .inr (.inr (.inr ⟨rfl, ⟨last, hm⟩, (calls_setCall ..).trans (if_pos rfl)⟩))
    · exact .inl ((calls_setCall ..).trans (if_neg hn))
  · exact .inl (congrFun (calls_cancelInner hc) n)
  · exact .inl rfl
  · exact .inl rfl

theorem cancelled_of_step (hs : s.step e = some s') :
    s'.cancelled = true ↔ s.cancelled = true ∨ ∃ c, e = .cancel c .swaps := by
  have hsame : (∀ c, e ≠ .cancel c .swaps) →
      (s.cancelled = true ↔ s.cancelled = true ∨ ∃ c, e = .cancel c .swaps) :=
    fun hne => ⟨.inl, fun h => h.resolve_right fun ⟨c, hc⟩ => hne c hc⟩
  rcases step_cases hs with ⟨m, handle, rfl, -, rfl⟩ | ⟨m, g, p, rfl, -, rfl⟩ |
    ⟨m, last, rfl, -, rfl⟩ | ⟨c, g, rfl, hc⟩ | ⟨c, rfl, rfl⟩ | ⟨c, rfl, -, rfl⟩
  · rw [(attach_keeps s m handle).1]
    exact hsame nofun
  · exact hsame nofun
  · exact hsame nofun
  · rw [cancelled_cancelInner hc]
    refine or_congr_right ⟨fun hg => ⟨c, by rw [hg]⟩, fun ⟨c', hc'⟩ => ?_⟩
    exact (Event.cancel.inj hc').2
  · exact hsame nofun
  · exact hsame nofun

/-- The first cancel is over only where it saw no window, its thread was refused, or the thread found no
window or nothing bound. -/
theorem first_cancelInner {c : Nat} {g : CancelEvent} (hs : s.cancelInner c (s.cancels c) g = some s')
    (hc : (s.cancels c).first = true) (hwindow : s.inExecute = true) (hg : g ≠ .spawns false) :
    (s'.cancels c).first = true ∧
    (s.cancels c = .spawning → s'.cancels c = .reinterrupting) := by
  cases hp : s.cancels c with
  | idle | done =>
    rw [hp] at hc
    cases hc
  | reinterrupting =>
    rw [hp] at hs
    cases g <;> cases hs
  | swapped already =>
    rw [hp] at hs hc
    cases g <;> cases hs
    refine ⟨?_, nofun⟩
    rw [cancels_setCancel, if_pos rfl]
    exact hc
  | interrupted already =>
    rw [hp] at hs hc
    cases g <;> cases hs
    refine ⟨?_, nofun⟩
    rw [cancels_setCancel, if_pos rfl, hwindow, Bool.and_true]
    cases already with
    | false => rfl
    | true => cases hc
  | spawning =>
    rw [hp] at hs
    cases g with
    | spawns accepted =>
      cases accepted with
      | false => exact absurd rfl hg
      | true =>
        cases hs
        have hself : (s.setCancel c .reinterrupting).cancels c = .reinterrupting :=
          (cancels_setCancel ..).trans (if_pos rfl)
        refine ⟨?_, fun _ => hself⟩
        exact congrArg CancelPhase.first hself
    | swaps | interrupts | loadsInExecute => cases hs

/-- It has seen a window, and has left its thread or is about to. -/
def Seen (s : State η) (c : Nat) : Prop := s.cancels c = .spawning ∨ s.cancels c = .reinterrupting

theorem first_of_step (hs : s.step e = some s') {c : Nat} (hc : (s.cancels c).first = true)
    (hwindow : s.inExecute = true) (hbound : s.interrupt ≠ none) (hspawn : e ≠ .cancel c (.spawns false)) :
    (s'.cancels c).first = true ∧ (Seen s c → Seen s' c) := by
  have hsame : s'.cancels c = s.cancels c → (s'.cancels c).first = true ∧ (Seen s c → Seen s' c) := by
    intro heq
    rw [Seen, Seen, heq]
    exact ⟨hc, id⟩
  rcases step_cases hs with ⟨m, handle, rfl, -, rfl⟩ | ⟨m, g, p, rfl, -, rfl⟩ |
    ⟨m, last, rfl, -, rfl⟩ | ⟨c', g, rfl, hc'⟩ | ⟨c', rfl, rfl⟩ | ⟨c', rfl, hover, rfl⟩
  · exact hsame (congrFun (attach_keeps s m handle).2 c)
  · exact hsame rfl
  · exact hsame rfl
  · by_cases hne : c = c'
    · subst hne
      have hg : g ≠ .spawns false := fun hg => hspawn (by rw [hg])
      obtain ⟨hfirst, hspawned⟩ := first_cancelInner hc' hc hwindow hg
      refine ⟨hfirst, fun hseen => ?_⟩
      rcases hseen with hspawning | hrunning
      · exact .inr (hspawned hspawning)
      · rw [hrunning] at hc'
        cases g <;> cases hc'
    · exact hsame (cancels_cancelInner hc' hne)
  · exact hsame rfl
  · rcases hover with hclosed | hnone
    · exact absurd (hclosed.symm.trans hwindow) Bool.false_ne_true
    · exact absurd hnone hbound

/-- What is interrupted is in the slot, or is put there. -/
theorem raised_of_step (hs : s.step e = some s') :
    ∃ new, s'.raised = new ++ s.raised ∧
      ∀ b ∈ new, s.interrupt = some b ∨ e = .attach b.call b.handle ∧ s.calls b.call = .idle := by
  have hsame : s'.raised = s.raised → ∃ new, s'.raised = new ++ s.raised ∧
      ∀ b ∈ new, s.interrupt = some b ∨ e = .attach b.call b.handle ∧ s.calls b.call = .idle :=
    fun heq => ⟨[], heq, nofun⟩
  have hpoke : s'.raised = s.poke.raised → ∃ new, s'.raised = new ++ s.raised ∧
      ∀ b ∈ new, s.interrupt = some b ∨ e = .attach b.call b.handle ∧ s.calls b.call = .idle :=
    fun heq => ⟨s.interrupt.toList, heq, fun b hb => .inl (Option.mem_toList.1 hb)⟩
  rcases step_cases hs with ⟨m, handle, rfl, hidle, rfl⟩ | ⟨m, g, p, rfl, -, rfl⟩ |
    ⟨m, last, rfl, -, rfl⟩ | ⟨c', g, rfl, hc'⟩ | ⟨c', rfl, rfl⟩ | ⟨c', rfl, -, rfl⟩
  · rw [State.attach] at hsame ⊢
    split
    · exact ⟨[], rfl, nofun⟩
    · by_cases hset : s.cancelled = true
      · refine ⟨[⟨m, handle⟩], if_pos hset, fun b hb => ?_⟩
        rw [List.mem_singleton.1 hb]
        exact .inr ⟨rfl, hidle⟩
      · exact ⟨[], if_neg hset, nofun⟩
  · exact hsame rfl
  · exact hsame rfl
  · rcases raised_cancelInner hc' with heq | heq
    · exact hsame heq
    · exact hpoke heq
  · exact hpoke rfl
  · exact hsame rfl

end

/-! ### What a run has behind it -/

/-- The flag is set where a cancel swapped it, a call that detached is over, and where a closure runs and
the flag is set the first cancel is under way, unless its thread was refused. -/
structure Told (events : List (Event η)) (s : State η) : Prop where
  swapped : s.cancelled = true ↔ ∃ c, .cancel c .swaps ∈ events
  detached : ∀ n, .detach n ∈ events → s.calls n = .detached
  reached : ∀ n, s.calls n = .executing → s.cancelled = true →
    ∃ c, (s.cancels c).first = true ∨ .cancel c (.spawns false) ∈ events

theorem told_new : Told [] (State.new : State η) :=
  ⟨⟨nofun, nofun⟩, nofun, nofun⟩

theorem Told.not_swapped {events : List (Event η)} {s : State η} (h : Told events s)
    (hunset : s.cancelled = false) (c : Nat) : .cancel c .swaps ∉ events := by
  intro hc
  rw [h.swapped.2 ⟨c, hc⟩] at hunset
  cases hunset

/-- A closure that runs holds the slot, and its window is open. -/
theorem Inv.bound_of_inWindow {s : State η} (h : Inv s) {n : Nat} (hn : (s.calls n).inWindow = true) :
    s.inExecute = true ∧ ∃ handle, s.interrupt = some ⟨n, handle⟩ :=
  ⟨h.window.2 ⟨n, hn⟩, (h.slot n).1 (Phase.holds_of_inWindow hn)⟩

/-- The flag is unset where a cancel swaps it first. -/
theorem first_of_swap {s s' : State η} {e : Event η} (hs : s.step e = some s')
    (hunset : s.cancelled = false) (hset : s'.cancelled = true) : ∃ c, (s'.cancels c).first = true := by
  obtain ⟨c, rfl⟩ := ((cancelled_of_step hs).1 hset).resolve_left (by rw [hunset]; exact Bool.false_ne_true)
  rw [State.step] at hs
  generalize s.cancels c = p at hs
  cases p <;> cases hs
  refine ⟨c, ?_⟩
  change ((s.setCancel c (.swapped s.cancelled)).cancels c).first = true
  rw [cancels_setCancel, if_pos rfl, hunset]
  rfl

theorem Told.step {events : List (Event η)} {s s' : State η} {e : Event η} (hinv : Inv s)
    (h : Told events s) (hs : s.step e = some s') : Told (events ++ [e]) s' := by
  refine ⟨?_, fun n hn => ?_, fun n hn hset => ?_⟩
  · rw [cancelled_of_step hs, h.swapped]
    constructor
    · rintro (⟨c, hc⟩ | ⟨c, rfl⟩)
      · exact ⟨c, List.mem_append_left _ hc⟩
      · exact ⟨c, mem_snoc⟩
    · rintro ⟨c, hc⟩
      rcases List.mem_append.1 hc with hc | hc
      · exact .inl ⟨c, hc⟩
      · exact .inr ⟨c, (List.mem_singleton.1 hc).symm⟩
  · rcases calls_of_step hs n with heq | ⟨hidle, -⟩ | ⟨g, rfl, hg⟩ | ⟨-, -, heq⟩
    · rcases List.mem_append.1 hn with hold | hnew
      · exact heq.trans (h.detached n hold)
      · obtain rfl := (List.mem_singleton.1 hnew)
        rw [State.step] at hs
        split at hs
        · obtain rfl := Option.some.inj hs
          exact (calls_setCall ..).trans (if_pos rfl)
        · cases hs
    · rcases List.mem_append.1 hn with hold | hnew
      · rw [h.detached n hold] at hidle
        cases hidle
      · obtain rfl := (List.mem_singleton.1 hnew)
        rw [State.step, hidle] at hs
        cases hs
    · rcases List.mem_append.1 hn with hold | hnew
      · rw [h.detached n hold] at hg
        cases g <;> cases hg
      · cases List.mem_singleton.1 hnew
    · exact heq
  · rcases calls_of_step hs n with heq | ⟨-, hno | hno⟩ | ⟨g, rfl, hg⟩ | ⟨-, -, hno⟩
    · have hrunning : s.calls n = .executing := heq.symm.trans hn
      cases hwas : s.cancelled with
      | false =>
        obtain ⟨c, hc⟩ := first_of_swap hs hwas hset
        exact ⟨c, .inl hc⟩
      | true =>
        have hopen : (s.calls n).inWindow = true := by rw [hrunning]; rfl
        obtain ⟨hwindow, handle, hbound⟩ := hinv.bound_of_inWindow hopen
        obtain ⟨c, hc | hc⟩ := h.reached n hrunning hwas
        · by_cases hspawn : e = .cancel c (.spawns false)
          · exact ⟨c, .inr (by rw [hspawn]; exact mem_snoc)⟩
          · have hnone : s.interrupt ≠ none := by rw [hbound]; exact Option.some_ne_none _
            exact ⟨c, .inl (first_of_step hs hc hwindow hnone hspawn).1⟩
        · exact ⟨c, .inr (List.mem_append_left _ hc)⟩
    · rw [hno] at hn
      cases hn
    · rw [hno] at hn
      cases hn
    · rw [hn] at hg
      have hunset := (Phase.next_executing hg).2
      obtain ⟨c, hc⟩ := first_of_swap hs hunset hset
      exact ⟨c, .inl hc⟩
    · rw [hno] at hn
      cases hn

theorem told_of_run {events : List (Event η)} {s : State η}
    (hs : runFrom State.step State.new events = some s) : Inv s ∧ Told events s := by
  refine runFrom_keeps_history (I := fun events s => Inv s ∧ Told events s) ⟨inv_new, told_new⟩ ?_ hs
  intro before t e t' ⟨hinv, htold⟩ hstep
  exact ⟨hinv.step hstep, htold.step hinv hstep⟩

theorem window_of_spawning {t t' : State η} {c : Nat}
    (hload : t.step (.cancel c .loadsInExecute) = some t') (hspawning : t'.cancels c = .spawning) :
    t.inExecute = true ∧ t'.calls = t.calls := by
  rw [State.step] at hload
  refine ⟨?_, calls_cancelInner hload⟩
  generalize t.cancels c = p at hload
  cases p <;> cases hload
  rw [cancels_setCancel, if_pos rfl] at hspawning
  split_ifs at hspawning with hboth
  exact (Bool.and_eq_true_iff.1 hboth).2

/-- A window that a cancel has seen, while it stays open and no thread is refused. -/
theorem seen_of_run {n c : Nat} {mid : List (Event η)} {t s : State η} (hinv : Inv t)
    (hopen : (t.calls n).inWindow = true) (hseen : Seen t c)
    (hclears : .guard n .clearsInExecute ∉ mid) (hspawns : .cancel c (.spawns false) ∉ mid)
    (hs : runFrom State.step t mid = some s) :
    Inv s ∧ (s.calls n).inWindow = true ∧ Seen s c := by
  induction mid using List.reverseRecOn generalizing s with
  | nil =>
    cases hs
    exact ⟨hinv, hopen, hseen⟩
  | append_singleton mid e ih =>
    rw [runFrom_snoc] at hs
    obtain ⟨u, hu, he⟩ := Option.bind_eq_some_iff.1 hs
    rw [List.mem_append, not_or, List.mem_singleton] at hclears hspawns
    obtain ⟨hinv', hopen', hseen'⟩ := ih hclears.1 hspawns.1 hu
    obtain ⟨hwindow, handle, hbound⟩ := hinv'.bound_of_inWindow hopen'
    have hfirst : (u.cancels c).first = true := by
      rcases hseen' with heq | heq <;> rw [heq] <;> rfl
    have hnone : u.interrupt ≠ none := by rw [hbound]; exact Option.some_ne_none _
    refine ⟨hinv'.step he, ?_, (first_of_step he hfirst hwindow hnone (Ne.symm hspawns.2)).2 hseen'⟩
    rcases calls_of_step he n with heq | ⟨hidle, -⟩ | ⟨g, rfl, hg⟩ | ⟨-, ⟨last, hlast⟩, -⟩
    · rw [heq]
      exact hopen'
    · rw [hidle] at hopen'
      cases hopen'
    · exact Phase.next_closes hg hopen' fun hclear => hclears.2 (by rw [hclear])
    · rw [hlast] at hopen'
      cases hopen'

/-! ### The token -/

/-- In a step of a run: a closure starts and `Ok` is returned only where no cancel has swapped the flag,
one re-interrupter at most runs, what is interrupted is bound or being bound and has not been unbound, and
a second binding is refused.  Where a closure runs behind a swapped flag the first cancel is on its way;
one that has seen a window interrupts the call of that window in every turn as long as it is open. -/
structure Kept (before : List (Event η)) (s : State η) (e : Event η) (s' : State η) : Prop where
  runs : ∀ n, s.calls n ≠ .executing → s'.calls n = .executing →
    e = .guard n .loadsCancelled ∧ ∀ c, .cancel c .swaps ∉ before
  returns : ∀ n, s.calls n ≠ s'.calls n → s'.calls n = .attached (some .ok) →
    e = .guard n .reloadsCancelled ∧ ∀ c, .cancel c .swaps ∉ before
  reaches : ∀ n, s'.calls n = .executing → s'.cancelled = true →
    ∃ c, (s'.cancels c).first = true ∨ .cancel c (.spawns false) ∈ before ++ [e]
  goesOn : ∀ pre c mid t t', before = pre ++ .cancel c .loadsInExecute :: mid →
    runFrom State.step State.new pre = some t → t.step (.cancel c .loadsInExecute) = some t' →
    t'.cancels c = .spawning →
    ∃ n, (t.calls n).inWindow = true ∧
      (.guard n .clearsInExecute ∉ mid → .cancel c (.spawns false) ∉ mid →
        s.cancels c = .spawning ∨
        s.cancels c = .reinterrupting ∧ ∃ handle, s.interrupt = some ⟨n, handle⟩ ∧
          s.step (.reinterrupt c) = some { s with raised := ⟨n, handle⟩ :: s.raised })
  alone : ∀ c c', s'.cancels c = .reinterrupting → s'.cancels c' = .reinterrupting → c = c'
  strangers : ∃ new, s'.raised = new ++ s.raised ∧ ∀ b ∈ new,
    (s.interrupt = some b ∨ e = .attach b.call b.handle) ∧ .detach b.call ∉ before
  refuses : ∀ n handle b, e = .attach n handle → s.interrupt = some b →
    s' = s.setCall n (.refused alreadyBound)

theorem Inv.goesOn {s : State η} (h : Inv s) {n c : Nat} (hopen : (s.calls n).inWindow = true)
    (hseen : Seen s c) :
    s.cancels c = .spawning ∨
    s.cancels c = .reinterrupting ∧ ∃ handle, s.interrupt = some ⟨n, handle⟩ ∧
      s.step (.reinterrupt c) = some { s with raised := ⟨n, handle⟩ :: s.raised } := by
  obtain ⟨hwindow, handle, hbound⟩ := h.bound_of_inWindow hopen
  refine hseen.imp id fun hrunning => ⟨hrunning, handle, hbound, ?_⟩
  rw [State.step, if_pos hrunning, if_pos hwindow, hbound, State.poke, hbound]
  rfl

/-- **A token never lets a cancelled execution through and never interrupts a stranger**: in every step
of every run. -/
theorem cancelToken_kept (before : List (Event η)) (e : Event η) (s s' : State η)
    (hrun : runFrom State.step State.new before = some s) (hs : s.step e = some s') :
    Kept before s e s' := by
  obtain ⟨hinv, htold⟩ := told_of_run hrun
  refine ⟨fun n hne hn => ?_, fun n hne hn => ?_, (htold.step hinv hs).reached, ?_,
    fun c c' hc hc' => ?_, ?_, ?_⟩
  · rcases calls_of_step hs n with heq | ⟨-, hno | hno⟩ | ⟨g, rfl, hg⟩ | ⟨-, -, hno⟩
    · exact absurd (heq.symm.trans hn) hne
    · cases hno.symm.trans hn
    · cases hno.symm.trans hn
    · rw [hn] at hg
      obtain ⟨rfl, hunset⟩ := Phase.next_executing hg
      exact ⟨rfl, htold.not_swapped hunset⟩
    · cases hno.symm.trans hn
  · rcases calls_of_step hs n with heq | ⟨-, hno | hno⟩ | ⟨g, rfl, hg⟩ | ⟨-, -, hno⟩
    · exact absurd heq.symm hne
    · cases hno.symm.trans hn
    · cases hno.symm.trans hn
    · rw [hn] at hg
      obtain ⟨rfl, hunset⟩ := Phase.next_ok hg
      exact ⟨rfl, htold.not_swapped hunset⟩
    · cases hno.symm.trans hn
  · intro pre c mid t t' hbefore hpre hload hspawning
    rw [hbefore, runFrom_append, hpre] at hrun
    change (t.step (.cancel c .loadsInExecute)).bind (runFrom State.step · mid) = some s at hrun
    rw [hload] at hrun
    obtain ⟨hwindow, hcalls⟩ := window_of_spawning hload hspawning
    have hpast := (told_of_run hpre).1
    obtain ⟨n, hopen⟩ := hpast.window.1 hwindow
    refine ⟨n, hopen, fun hclears hspawns => ?_⟩
    have hopen' : (t'.calls n).inWindow = true := by rw [hcalls]; exact hopen
    obtain ⟨hnow, hstill, hseen⟩ :=
      seen_of_run (hpast.step hload) hopen' (.inl hspawning) hclears hspawns hrun
    exact hnow.goesOn hstill hseen
  · exact (hinv.step hs).one c c' (by rw [hc]; rfl) (by rw [hc']; rfl)
  · obtain ⟨new, hnew, hfrom⟩ := raised_of_step hs
    refine ⟨new, hnew, fun b hb => ?_⟩
    rcases hfrom b hb with hbound | ⟨hattach, hidle⟩
    · refine ⟨.inl hbound, fun hdetached => ?_⟩
      have hholds := (hinv.slot b.call).2 ⟨b.handle, hbound⟩
      rw [htold.detached b.call hdetached] at hholds
      cases hholds
    · refine ⟨.inr hattach, fun hdetached => ?_⟩
      rw [htold.detached b.call hdetached] at hidle
      cases hidle
  · rintro n handle b rfl hbound
    rw [State.step] at hs
    split_ifs at hs
    rw [← Option.some.inj hs, State.attach, hbound]

/-- A cancel inside a window, and a turn of the thread it leaves. -/
theorem cancelToken_kept_window :
    ∃ s s' : State String,
      runFrom State.step State.new
        [.attach 0 "a", .attach 1 "b", .guard 0 .storesInExecute, .guard 0 .loadsCancelled,
          .cancel 7 .swaps, .cancel 7 .interrupts, .cancel 7 .loadsInExecute,
          .cancel 7 (.spawns true)] = some s ∧
      s.step (.reinterrupt 7) = some s' ∧ s'.raised = [⟨0, "a"⟩, ⟨0, "a"⟩] ∧
      Kept
        [.attach 0 "a", .attach 1 "b", .guard 0 .storesInExecute, .guard 0 .loadsCancelled,
          .cancel 7 .swaps, .cancel 7 .interrupts, .cancel 7 .loadsInExecute,
          .cancel 7 (.spawns true)] s (.reinterrupt 7) s' :=
  ⟨_, _, rfl, rfl, rfl, cancelToken_kept _ _ _ _ rfl rfl⟩

end SpatialIde.Engine.Cancel
