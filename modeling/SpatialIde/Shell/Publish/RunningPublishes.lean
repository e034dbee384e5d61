import Mathlib.Data.Set.Function
import SpatialIde.Lib.OrderedMap
import SpatialIde.Lib.Runs

/-! # The publishes that run

`RunningPublishes` keeps a cancel token for every publish that runs, under a key.  An execute registers
where its key is absent (`run_exclusive`); a prepare replaces what is there
(`with_registered_cancel`), and either removes its key when its body has ended.  When the last window
closes every token is cancelled and the exit waits until the map is empty.  As long as no prepare
finds its key registered, a key belongs to one body (`Registry`).
-/

namespace SpatialIde.Shell.Publish.Running

open Lib

inductive Phase where
  /-- Registered, and the body has not ended. -/
  | running
  /-- The body has ended, the key is still to be removed. -/
  | ended
  deriving DecidableEq, Repr

structure Call where
  key : String
  phase : Phase
  deriving DecidableEq, Repr

/-- How far a request to exit has come. -/
inductive ExitPhase where
  | idle
  /-- It found something registered. -/
  | looked
  /-- It was the first to begin a drain. -/
  | won
  deriving DecidableEq, Repr

/-- A call is the number of its token. -/
structure State where
  inner : OrderedMap String Nat
  /-- What the `watch` channel holds. -/
  count : Nat
  drainBegun : Bool
  cancelled : List Nat
  calls : OrderedMap Nat Call
  next : Nat
  exits : Nat → ExitPhase
  /-- How often the answer was `PreventAndDrain`. -/
  prevented : Nat

def State.new : State := ⟨.empty, 0, false, [], .empty, 0, fun _ => .idle, 0⟩

inductive Event where
  /-- `try_insert` of a new token. -/
  | runExclusive (key : String)
  /-- `insert` of a new token. -/
  | withRegisteredCancel (key : String)
  | bodyEnds (call : Nat)
  /-- `remove`, behind a body. -/
  | remove (call : Nat)
  | cancel (key : String)
  /-- The three steps of `on_exit_requested`. -/
  | exitLooks (request : Nat)
  | exitSwaps (request : Nat)
  | exitCancelsAll (request : Nat)
  deriving DecidableEq, Repr

namespace State

/-- A new token is put under the key, and the body runs with it. -/
def register (s : State) (key : String) : State :=
  { s with
    inner := s.inner.set key s.next
    count := (s.inner.set key s.next).size
    calls := s.calls.set s.next ⟨key, .running⟩
    next := s.next + 1 }

def unregister (s : State) (call : Nat) (key : String) : State :=
  { s with
    inner := s.inner.delete key
    count := (s.inner.delete key).size
    calls := s.calls.delete call }

def setExit (s : State) (request : Nat) (phase : ExitPhase) : State :=
  { s with exits := Function.update s.exits request phase }

def step (s : State) : Event → Option State
  | .runExclusive key =>
    match s.inner.get key with
    | some _ => some s
    | none => some (s.register key)
  | .withRegisteredCancel key => some (s.register key)
  | .bodyEnds call =>
    match s.calls.get call with
    | some ⟨key, .running⟩ => some { s with calls := s.calls.set call ⟨key, .ended⟩ }
    | _ => none
  | .remove call =>
    match s.calls.get call with
    | some ⟨key, .ended⟩ => some (s.unregister call key)
    | _ => none
  | .cancel key =>
    match s.inner.get key with
    | some token => some { s with cancelled := token :: s.cancelled }
    | none => some s
  | .exitLooks request =>
    if s.exits request = .idle then
      if s.inner.size = 0 then some s else some (s.setExit request .looked)
    else none
  | .exitSwaps request =>
    if s.exits request = .looked then
      if s.drainBegun then some (s.setExit request .idle)
      else some { s.setExit request .won with drainBegun := true }
    else none
  | .exitCancelsAll request =>
    if s.exits request = .won then
      some { s.setExit request .idle with
        cancelled := s.inner.values ++ s.cancelled
        prevented := s.prevented + 1 }
    else none

@[simp] theorem exits_setExit (s : State) (request : Nat) (phase : ExitPhase) (r : Nat) :
    (s.setExit request phase).exits r = if r = request then phase else s.exits r := by
  exact Function.update_apply s.exits request phase r

inductive DrainOutcome where
  | drained
  | timedOut
  deriving DecidableEq, Repr

/-- What `wait_idle` answers when it looks at the count; `none` where it goes on waiting. -/
def waitIdle (s : State) (elapsed : Bool) : Option DrainOutcome :=
  if s.count = 0 then some .drained else if elapsed then some .timedOut else none

/-- The body of a call runs. -/
def Runs (s : State) (call : Nat) (key : String) : Prop := s.calls.get call = some ⟨key, .running⟩

end State

/-! ### What is wanted -/

/-- In a state: the token of a body is the one under its key, no other body has the key, a drain does
not end while a body runs, and at most one request was told to wait. -/
structure Kept (s : State) : Prop where
  registered : ∀ call key, s.Runs call key → s.inner.get key = some call
  alone : ∀ call other key, s.Runs call key → s.Runs other key → call = other
  drained : ∀ elapsed, s.waitIdle elapsed = some .drained → ∀ call key, ¬s.Runs call key
  once : s.prevented ≤ 1

/-- In a step: a cancel reaches the body of its key, a key is removed by the call that registered it
and when its body has ended, and a request is told to wait when all that is registered is cancelled. -/
structure KeptBy (s : State) (e : Event) (s' : State) : Prop where
  cancels : ∀ key call, e = .cancel key → s.Runs call key → call ∈ s'.cancelled
  removes : ∀ key call, s.inner.get key = some call → s'.inner.get key = none →
    e = .remove call ∧ s.calls.get call = some ⟨key, .ended⟩
  prevents : s'.prevented ≠ s.prevented → ∃ request, e = .exitCancelsAll request ∧
    ∀ key call, s.inner.get key = some call → call ∈ s'.cancelled

/-- No prepare finds its key registered. -/
def Unregistered (s : State) (e : Event) : Prop :=
  ∀ key, e = .withRegisteredCancel key → s.inner.get key = none

/-! ### What a step does -/

/-- The map belongs to the calls, one key each. -/
structure Registry (s : State) : Prop where
  own : ∀ call c, s.calls.get call = some c → s.inner.get c.key = some call
  known : ∀ key call, s.inner.get key = some call → ∃ phase, s.calls.get call = some ⟨key, phase⟩
  fresh : ∀ call c, s.calls.get call = some c → call < s.next
  count : s.count = s.inner.size

/-- One request at most has begun the drain, and is told to wait once. -/
structure Draining (s : State) : Prop where
  won : ∀ request, s.exits request = .won → s.drainBegun = true ∧ s.prevented = 0
  one : ∀ r r', s.exits r = .won → s.exits r' = .won → r = r'
  begun : s.drainBegun = false → s.prevented = 0
  once : s.prevented ≤ 1

theorem registry_new : Registry State.new :=
  ⟨nofun, nofun, nofun, rfl⟩

theorem draining_new : Draining State.new :=
  ⟨nofun, nofun, fun _ => rfl, Nat.zero_le _⟩

theorem Registry.register {s : State} (h : Registry s) {key : String}
    (habsent : s.inner.get key = none) : Registry (s.register key) := by
  refine ⟨fun call c hc => ?_, fun key' call hkey => ?_, fun call c hc => ?_, rfl⟩
  · rw [State.register, OrderedMap.get_set] at hc
    rw [State.register, OrderedMap.get_set]
    by_cases hnew : call = s.next
    · rw [if_pos hnew] at hc
      obtain rfl := Option.some.inj hc
      rw [if_pos rfl, hnew]
    · rw [if_neg hnew] at hc
      have hown := h.own call c hc
      have hkey : c.key ≠ key := by
        rintro rfl
        rw [habsent] at hown
        cases hown
      rw [if_neg hkey]
      exact hown
  · rw [State.register, OrderedMap.get_set] at hkey
    rw [State.register, OrderedMap.get_set]
    by_cases hsame : key' = key
    · rw [if_pos hsame] at hkey
      obtain rfl := Option.some.inj hkey
      exact ⟨.running, by rw [if_pos rfl, hsame]⟩
    · rw [if_neg hsame] at hkey
      obtain ⟨phase, hcall⟩ := h.known key' call hkey
      have hne : call ≠ s.next := Nat.ne_of_lt (h.fresh call _ hcall)
      exact ⟨phase, by rw [if_neg hne]; exact hcall⟩
  · rw [State.register, OrderedMap.get_set] at hc
    by_cases hnew : call = s.next
    · rw [hnew]
      exact Nat.lt_succ_self _
    · rw [if_neg hnew] at hc
      exact Nat.lt_succ_of_lt (h.fresh call c hc)

theorem Registry.unregister {s : State} (h : Registry s) {call : Nat} {key : String} {phase : Phase}
    (hcall : s.calls.get call = some ⟨key, phase⟩) : Registry (s.unregister call key) := by
  have hown : s.inner.get key = some call := h.own call _ hcall
  refine ⟨fun other c hc => ?_, fun key' other hkey => ?_, fun other c hc => ?_, rfl⟩
  · rw [State.unregister, OrderedMap.get_delete] at hc
    rw [State.unregister, OrderedMap.get_delete]
    split_ifs at hc with hother
    have hc' := h.own other c hc
    have hne : c.key ≠ key := by
      rintro heq
      rw [heq, hown] at hc'
      exact hother (Option.some.inj hc').symm
    rw [if_neg hne]
    exact hc'
  · rw [State.unregister, OrderedMap.get_delete] at hkey
    rw [State.unregister, OrderedMap.get_delete]
    split_ifs at hkey with hsame
    obtain ⟨phase', hother⟩ := h.known key' other hkey
    have hne : other ≠ call := by
      rintro rfl
      rw [hcall] at hother
      exact hsame (congrArg Call.key (Option.some.inj hother)).symm
    exact ⟨phase', by rw [if_neg hne]; exact hother⟩
  · rw [State.unregister, OrderedMap.get_delete] at hc
    split_ifs at hc
    exact h.fresh other c hc

theorem Registry.ended {s : State} (h : Registry s) {call : Nat} {key : String}
    (hcall : s.Runs call key) :
    Registry { s with calls := s.calls.set call ⟨key, .ended⟩ } := by
  refine ⟨fun other c hc => ?_, fun key' other hkey => ?_, fun other c hc => ?_, h.count⟩
  · rw [OrderedMap.get_set] at hc
    by_cases hother : other = call
    · rw [if_pos hother] at hc
      obtain rfl := Option.some.inj hc
      rw [hother]
      exact h.own call ⟨key, .running⟩ hcall
    · rw [if_neg hother] at hc
      exact h.own other c hc
  · obtain ⟨phase, hold⟩ := h.known key' other hkey
    rw [OrderedMap.get_set]
    by_cases hother : other = call
    · have hsame : key = key' := by
        rw [hother] at hold
        exact congrArg Call.key (Option.some.inj (hcall.symm.trans hold))
      exact ⟨.ended, by rw [if_pos hother, hsame]⟩
    · exact ⟨phase, by rw [if_neg hother]; exact hold⟩
  · rw [OrderedMap.get_set] at hc
    by_cases hother : other = call
    · rw [hother]
      exact h.fresh call ⟨key, .running⟩ hcall
    · rw [if_neg hother] at hc
      exact h.fresh other c hc

/-- A step leaves the map and the calls, registers an absent key, ends a body, or removes its key. -/
theorem Registry.step {s s' : State} {e : Event} (h : Registry s) (he : Unregistered s e)
    (hs : s.step e = some s') : Registry s' := by
  cases e with
  | runExclusive key =>
    rw [State.step] at hs
    split at hs
    · obtain rfl := Option.some.inj hs
      exact h
    next habsent =>
      obtain rfl := Option.some.inj hs
      exact h.register habsent
  | withRegisteredCancel key =>
    obtain rfl := Option.some.inj hs
    exact h.register (he key rfl)
  | bodyEnds call =>
    rw [State.step] at hs
    split at hs
    next key hcall =>
      obtain rfl := Option.some.inj hs
      exact h.ended hcall
    · cases hs
  | remove call =>
    rw [State.step] at hs
    split at hs
    next key hcall =>
      obtain rfl := Option.some.inj hs
      exact h.unregister hcall
    · cases hs
  | cancel key =>
    rw [State.step] at hs
    split at hs <;>
    · obtain rfl := Option.some.inj hs
      exact ⟨h.own, h.known, h.fresh, h.count⟩
  | exitLooks request =>
    rw [State.step] at hs
    split_ifs at hs <;>
    · obtain rfl := Option.some.inj hs
      exact ⟨h.own, h.known, h.fresh, h.count⟩
  | exitSwaps request =>
    rw [State.step] at hs
    split_ifs at hs <;>
    · obtain rfl := Option.some.inj hs
      exact ⟨h.own, h.known, h.fresh, h.count⟩
  | exitCancelsAll request =>
    rw [State.step] at hs
    split_ifs at hs
    obtain rfl := Option.some.inj hs
    exact ⟨h.own, h.known, h.fresh, h.count⟩

/-- A request that moves on and does not win leaves the others as they were. -/
theorem Draining.setExit {s : State} (h : Draining s) (request : Nat) {phase : ExitPhase}
    (hphase : phase ≠ .won) : Draining (s.setExit request phase) := by
  have hstays : ∀ r, (s.setExit request phase).exits r = .won → s.exits r = .won := by
    intro r hr
    rw [State.exits_setExit] at hr
    split_ifs at hr
    · exact absurd hr hphase
    · exact hr
  refine ⟨fun r hr => h.won r (hstays r hr), fun r r' hr hr' => ?_, h.begun, h.once⟩
  exact h.one r r' (hstays r hr) (hstays r' hr')

/-- Nobody has won while the drain has not begun, so the request that begins it is alone. -/
theorem Draining.wins {s : State} (h : Draining s) (request : Nat) (hbegun : s.drainBegun = false) :
    Draining { s.setExit request .won with drainBegun := true } := by
  have hnobody : ∀ r, s.exits r ≠ .won := by
    intro r hr
    rw [(h.won r hr).1] at hbegun
    cases hbegun
  have honly : ∀ r, (s.setExit request .won).exits r = .won → r = request := by
    intro r hr
    rw [State.exits_setExit] at hr
    split_ifs at hr with hr'
    · exact hr'
    · exact absurd hr (hnobody r)
  refine ⟨fun r _ => ⟨rfl, h.begun hbegun⟩, fun r r' hr hr' => ?_, nofun, h.once⟩
  exact (honly r hr).trans (honly r' hr').symm

/-- The one that won is answered, and nobody has won any more. -/
theorem Draining.answered {s : State} (h : Draining s) {request : Nat}
    (hwon : s.exits request = .won) (cancelled : List Nat) :
    Draining { s.setExit request .idle with
      cancelled := cancelled
      prevented := s.prevented + 1 } := by
  obtain ⟨hbegun, hnone⟩ := h.won request hwon
  have hnobody : ∀ r, (s.setExit request .idle).exits r ≠ .won := by
    intro r hr
    rw [State.exits_setExit] at hr
    split_ifs at hr with hne
    exact hne (h.one r request hr hwon)
  refine ⟨fun r hr => absurd hr (hnobody r), fun r _ hr => absurd hr (hnobody r), fun hfalse => ?_, ?_⟩
  · exact absurd (hbegun.symm.trans hfalse) (by decide)
  · exact Nat.succ_le_of_lt (by rw [hnone]; exact Nat.one_pos)

theorem Draining.step {s s' : State} {e : Event} (h : Draining s) (hs : s.step e = some s') :
    Draining s' := by
  cases e with
  | runExclusive key | cancel key =>
    rw [State.step] at hs
    split at hs <;>
    · obtain rfl := Option.some.inj hs
      exact ⟨h.won, h.one, h.begun, h.once⟩
  | withRegisteredCancel key =>
    obtain rfl := Option.some.inj hs
    exact ⟨h.won, h.one, h.begun, h.once⟩
  | bodyEnds call | remove call =>
    rw [State.step] at hs
    split at hs
    · obtain rfl := Option.some.inj hs
      exact ⟨h.won, h.one, h.begun, h.once⟩
    · cases hs
  | exitLooks request =>
    rw [State.step] at hs
    split_ifs at hs
    · obtain rfl := Option.some.inj hs
      exact h
    · obtain rfl := Option.some.inj hs
      exact h.setExit request nofun
  | exitSwaps request =>
    rw [State.step] at hs
    split_ifs at hs with _ hbegun
    · obtain rfl := Option.some.inj hs
      exact h.setExit request nofun
    · obtain rfl := Option.some.inj hs
      exact h.wins request (Bool.eq_false_of_not_eq_true hbegun)
  | exitCancelsAll request =>
    rw [State.step] at hs
    split_ifs at hs with hwon
    obtain rfl := Option.some.inj hs
    exact h.answered hwon _

/-! ### What follows -/

theorem Registry.kept {s : State} (h : Registry s) (hd : Draining s) : Kept s := by
  refine ⟨fun call key hcall => h.own call ⟨key, .running⟩ hcall, fun call other key hcall hother => ?_,
    fun elapsed hidle call key hcall => ?_, hd.once⟩
  · have hsame : some call = some other :=
      (h.own call ⟨key, .running⟩ hcall).symm.trans (h.own other ⟨key, .running⟩ hother)
    exact Option.some.inj hsame
  · have hzero : s.inner.size = 0 := by
      rw [State.waitIdle, h.count] at hidle
      by_contra hne
      rw [if_neg hne] at hidle
      cases elapsed <;> cases hidle
    have hin := h.own call ⟨key, .running⟩ hcall
    rw [OrderedMap.get, List.eq_nil_of_length_eq_zero hzero] at hin
    cases hin

/-- Only the removal behind a body takes a key out of the map. -/
theorem Registry.removes {s s' : State} {e : Event} (h : Registry s) (hs : s.step e = some s')
    {key : String} {call : Nat} (hkey : s.inner.get key = some call)
    (hgone : s'.inner.get key = none) :
    e = .remove call ∧ s.calls.get call = some ⟨key, .ended⟩ := by
  have hstays : s'.inner ≠ s.inner := by
    intro heq
    rw [heq, hkey] at hgone
    cases hgone
  have hregister : ∀ key', s' ≠ s.register key' := by
    rintro key' rfl
    rw [State.register, OrderedMap.get_set] at hgone
    split_ifs at hgone
    rw [hkey] at hgone
    cases hgone
  cases e with
  | runExclusive key' =>
    rw [State.step] at hs
    split at hs
    · exact absurd (congrArg State.inner (Option.some.inj hs).symm) hstays
    · exact absurd (Option.some.inj hs).symm (hregister key')
  | withRegisteredCancel key' => exact absurd (Option.some.inj hs).symm (hregister key')
  | bodyEnds other =>
    rw [State.step] at hs
    split at hs
    · exact absurd (congrArg State.inner (Option.some.inj hs).symm) hstays
    · cases hs
  | remove other =>
    rw [State.step] at hs
    split at hs
    next key' hother =>
      obtain rfl := Option.some.inj hs
      rw [State.unregister, OrderedMap.get_delete] at hgone
      split_ifs at hgone with hsame
      · have hown := h.own other _ hother
        rw [hsame, hown] at hkey
        rw [hsame, ← Option.some.inj hkey]
        exact ⟨rfl, hother⟩
      · rw [hkey] at hgone
        cases hgone
    · cases hs
  | cancel key' =>
    rw [State.step] at hs
    split at hs <;> exact absurd (congrArg State.inner (Option.some.inj hs).symm) hstays
  | exitLooks request =>
    rw [State.step] at hs
    split_ifs at hs <;> exact absurd (congrArg State.inner (Option.some.inj hs).symm) hstays
  | exitSwaps request =>
    rw [State.step] at hs
    split_ifs at hs <;> exact absurd (congrArg State.inner (Option.some.inj hs).symm) hstays
  | exitCancelsAll request =>
    rw [State.step] at hs
    split_ifs at hs
    exact absurd (congrArg State.inner (Option.some.inj hs).symm) hstays

/-- A request is told to wait in one step only, which cancels all that is registered. -/
theorem prevents_of_step {s s' : State} {e : Event} (hs : s.step e = some s')
    (hne : s'.prevented ≠ s.prevented) :
    ∃ request, e = .exitCancelsAll request ∧
      ∀ key call, s.inner.get key = some call → call ∈ s'.cancelled := by
  have hstays : ∀ t : State, t.prevented = s.prevented → some t ≠ some s' := by
    intro t ht heq
    rw [← Option.some.inj heq] at hne
    exact hne ht
  cases e with
  | runExclusive key | cancel key =>
    rw [State.step] at hs
    split at hs <;> exact absurd hs (hstays _ rfl)
  | withRegisteredCancel key => exact absurd hs (hstays _ rfl)
  | bodyEnds call | remove call =>
    rw [State.step] at hs
    split at hs
    · exact absurd hs (hstays _ rfl)
    · cases hs
  | exitLooks request | exitSwaps request =>
    rw [State.step] at hs
    split_ifs at hs <;> exact absurd hs (hstays _ rfl)
  | exitCancelsAll request =>
    rw [State.step] at hs
    split_ifs at hs
    obtain rfl := Option.some.inj hs
    refine ⟨request, rfl, fun key call hkey => List.mem_append_left _ ?_⟩
    exact List.mem_map_of_mem (OrderedMap.mem_entries.2 hkey)

theorem Registry.keptBy {s s' : State} {e : Event} (h : Registry s) (hs : s.step e = some s') :
    KeptBy s e s' := by
  refine ⟨fun key call he hcall => ?_, fun key call => h.removes hs, prevents_of_step hs⟩
  obtain rfl := he
  rw [State.step, h.own call ⟨key, .running⟩ hcall] at hs
  obtain rfl := Option.some.inj hs
  exact List.mem_cons_self

/-- **As long as no prepare finds its key registered, a running publish stays cancellable and is waited
for**: in every state of a run, and in every step of it. -/
theorem runningPublishes_kept (events : List Event)
    (hmeets : Meets State.step Unregistered State.new events) :
    (∀ s, runFrom State.step State.new events = some s → Kept s) ∧
    ∀ before e after s s', events = before ++ e :: after →
      runFrom State.step State.new before = some s → s.step e = some s' → Kept s ∧ KeptBy s e s' := by
  have hrun : ∀ es s, Meets State.step Unregistered State.new es →
      runFrom State.step State.new es = some s → Registry s ∧ Draining s := by
    intro es s hes hs
    refine runFrom_keeps (I := fun s => Registry s ∧ Draining s) ⟨registry_new, draining_new⟩ ?_ hes hs
    intro t e t' ht he hstep
    exact ⟨ht.1.step he hstep, ht.2.step hstep⟩
  constructor
  · intro s hs
    obtain ⟨hregistry, hdraining⟩ := hrun events s hmeets hs
    exact hregistry.kept hdraining
  · intro before e after s s' hevents hs hstep
    rw [hevents] at hmeets
    obtain ⟨hregistry, hdraining⟩ := hrun before s hmeets.append_left hs
    exact ⟨hregistry.kept hdraining, hregistry.keptBy hstep⟩

theorem runningPublishes_kept_run :
    ∃ s, runFrom State.step State.new
        [.withRegisteredCancel "prepare:a", .runExclusive "b", .runExclusive "b", .cancel "b",
          .exitLooks 0, .exitSwaps 0, .exitCancelsAll 0, .bodyEnds 1, .remove 1] = some s ∧
      Kept s ∧ s.Runs 0 "prepare:a" := by
  have hmeets : Meets State.step Unregistered State.new
      [.withRegisteredCancel "prepare:a", .runExclusive "b", .runExclusive "b", .cancel "b",
        .exitLooks 0, .exitSwaps 0, .exitCancelsAll 0, .bodyEnds 1, .remove 1] := by
    refine .cons (fun key h => by cases h; rfl) rfl ?_
    refine .cons nofun rfl (.cons nofun rfl (.cons nofun rfl (.cons nofun rfl (.cons nofun rfl ?_))))
    exact .cons nofun rfl (.cons nofun rfl (.cons nofun rfl meets_nil))
  obtain ⟨s, hs⟩ : ∃ s, runFrom State.step State.new
      [.withRegisteredCancel "prepare:a", .runExclusive "b", .runExclusive "b", .cancel "b",
        .exitLooks 0, .exitSwaps 0, .exitCancelsAll 0, .bodyEnds 1, .remove 1] = some s := ⟨_, rfl⟩
  refine ⟨s, hs, (runningPublishes_kept _ hmeets).1 s hs, ?_⟩
  cases hs
  rfl

/-- Two prepares of one dataset: the second takes the key of the first, and takes it along when it
ends, so a drain ends while the first still runs and no cancel reaches it. -/
theorem runningPublishes_replaced :
    ∃ s, runFrom State.step State.new
        [.withRegisteredCancel "prepare:a", .withRegisteredCancel "prepare:a", .bodyEnds 1, .remove 1] =
          some s ∧
      s.Runs 0 "prepare:a" ∧ s.inner.get "prepare:a" = none ∧ s.waitIdle false = some .drained ∧
      ¬Kept s := by
  refine ⟨_, rfl, rfl, rfl, rfl, fun hkept => ?_⟩
  exact hkept.drained false rfl 0 "prepare:a" rfl

end SpatialIde.Shell.Publish.Running
