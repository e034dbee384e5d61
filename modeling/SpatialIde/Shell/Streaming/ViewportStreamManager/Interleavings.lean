import SpatialIde.Lib.Runs
import SpatialIde.Shell.Streaming.ViewportStreamManager.Sound

/-! # Every interleaving of the baseline stream manager

What the manager promises its canvas holds in every order of its steps, but for three kinds of
them: a cancel that answers when a newer stream is already current, a request that goes on to mint
after its session ended, and an attach that fails for a ticket nobody has cancelled.
-/

namespace SpatialIde.Shell.Streaming.ViewportStreamManager

open Lib
open Canvas (Bbox Filter)

/-! ### Steps -/

/-- A step that no late answer disturbs: no cancel answers while a newer stream is current, no
request goes on to mint in a session that is over, and no attach fails for a ticket that has not
been cancelled. -/
def Undisturbed (s : State) : Event → Prop
  | .answer (.cancelPrevious _) _ => s.currentStreamHandle = none
  | .answer (.supersedeCurrent request) _ =>
    ¬(s.sessionEnded = true ∧ request.myGeneration = s.generation)
  | .answer (.dataPlaneAttach _ stream) .rejected => .skpCancel stream ∈ s.calls
  | _ => True

section

variable {s s' : State}

theorem Sound.resume (hs : Sound none s) {a : Await} {answer : Answer} (ha : a ∈ s.awaiting)
    (hok : Undisturbed s (.answer a answer))
    (h : { s with awaiting := s.awaiting.erase a }.resume a answer = some s') :
    Sound none s' := by
  cases a with
  | cancelPrevious request =>
    cases answer with
    | done =>
      cases h
      refine (hs.erase _ (Or.inl rfl)).finishSupersede hok ?_
      intro r hr
      exact hs.claims_erase ha (congrArg (Option.map Request.myGeneration) hr)
    | _ => cases h
  | supersedeCurrent request =>
    cases answer with
    | done =>
      cases h
      have herase : Sound none { s with awaiting := s.awaiting.erase (.supersedeCurrent request) } :=
        hs.erase _ (Or.inl rfl)
      unfold State.afterSupersede
      split_ifs with hgeneration
      · exact herase.tell fun _ => ⟨_, _, rfl⟩
      · refine (herase.tell fun _ => ⟨_, _, rfl⟩).await _ ?_ ?_ nofun nofun
        · intro g hg
          cases hg
          have hclaims := hs.claims_erase ha rfl
          exact ⟨hclaims.fresh, hclaims.le, hclaims.lt⟩
        · intro r hr hmine
          rcases hr with hr | hr
          · cases hr
          · cases hr
            exact hs.minting request (Or.inl ha) hmine
    | _ => cases h
  | viewportQuery request =>
    have herase : Sound none { s with awaiting := s.awaiting.erase (.viewportQuery request) } :=
      hs.erase _ (Or.inl rfl)
    cases answer with
    | minted stream =>
      unfold State.resume at h
      dsimp only at h
      split_ifs at h with hfresh
      cases h
      rw [not_or] at hfresh
      exact herase.afterMint (fun hin => hfresh.1 (mem_minted.1 hin))
        (fun hin => hfresh.2 (mem_cancelled.1 hin)) (hs.claims_erase ha rfl)
        fun hmine => (hs.minting request (Or.inr ha) hmine).2
    | rejected =>
      cases h
      exact herase.tell fun _ => ⟨_, _, rfl⟩
    | _ => cases h
  | dataPlaneAttach request stream =>
    have herase : Sound (some stream)
        { s with awaiting := s.awaiting.erase (.dataPlaneAttach request stream) } :=
      hs.erase _ (Or.inr rfl)
    obtain ⟨hminted, hstarted, hself⟩ := hs.attaching stream (State.mem_attaching ha)
    have hattaching := not_mem_filterMap_erase hs.attaching_nodup ha rfl
    cases answer with
    | attached attach =>
      cases h
      unfold State.afterAttach
      split_ifs with hended hgeneration
      · refine herase.retract hminted hstarted hattaching ?_ _
        have hnone : s.currentStreamHandle = none := hs.closed (Or.inl hended)
        rw [hnone]
        nofun
      · refine herase.retract hminted hstarted hattaching ?_ _
        exact fun hc => hgeneration (hs.attached request stream ha hc)
      · refine (herase.start hminted hstarted hattaching hself ?_ attach request.filter).tell
          fun _ => ⟨_, _, rfl⟩
        intro o ho
        exact (hs.retracted stream o (List.mem_of_mem_erase ho)).2.2.1 (State.mem_attaching ha)
    | rejected =>
      cases h
      exact (herase.settle (Or.inr (Or.inr (mem_cancelled.2 hok)))).tell fun _ => ⟨_, _, rfl⟩
    | _ => cases h
  | cancelMinted stream outcome =>
    cases answer with
    | done =>
      cases h
      exact (hs.erase _ (Or.inl rfl)).tell fun _ => ⟨_, _, rfl⟩
    | _ => cases h
  | cancelAttached stream outcome =>
    cases answer with
    | done =>
      cases h
      obtain ⟨_, hstarted, hattaching, _⟩ := hs.retracted stream outcome ha
      have hsub : (s.awaiting.erase (.cancelAttached stream outcome)).Sublist s.awaiting :=
        List.erase_sublist
      refine (hs.erase _ (Or.inl rfl)).afterCancelAttached ?_ hstarted outcome
      exact fun hin => hattaching ((hsub.filterMap _).subset hin)
    | _ => cases h

/-- One undisturbed step. -/
theorem Sound.step (hs : Sound none s) {e : Event} (hok : Undisturbed s e)
    (h : step s e = some s') : Sound none s' := by
  cases e with
  | requestViewport bbox bboxCrs nowMs filter =>
    cases h
    exact hs.requestViewport bbox bboxCrs nowMs filter
  | answer await answer =>
    unfold ViewportStreamManager.step at h
    dsimp only at h
    split_ifs at h with ha
    exact hs.resume ha hok h
  | cancelStream streamHandle =>
    cases h
    exact hs.cancelStream streamHandle
  | notifySessionEnded detail =>
    cases h
    exact hs.endSession detail
  | stop =>
    cases h
    exact hs.stop
  | opened sink =>
    unfold ViewportStreamManager.step at h
    dsimp only at h
    split_ifs at h with hsink
    cases h
    unfold State.onOpen
    split_ifs
    · exact hs
    · exact hs.tell fun _ => ⟨_, _, rfl⟩
  | batch sink payload =>
    unfold ViewportStreamManager.step at h
    dsimp only at h
    split_ifs at h with hsink
    cases h
    unfold State.onBatch
    split_ifs with hlive hcurrent
    · exact hs
    · exact hs
    · exact hs.forward (hs.streams sink hsink).1 (not_not.1 hcurrent) payload sink.filter
  | terminal sink terminal =>
    unfold ViewportStreamManager.step at h
    dsimp only at h
    split_ifs at h with hsink
    cases h
    exact hs.onTerminal hsink terminal

/-! ### What one step calls -/

/-- A method that starts nothing, forwards nothing, asks for nothing and reports no terminal. -/
structure Calm (s s' : State) : Prop where
  started : (ledger s'.calls).started = (ledger s.calls).started
  forwarded : (ledger s'.calls).forwarded = (ledger s.calls).forwarded
  queries : (ledger s'.calls).queries = (ledger s.calls).queries
  terminals : (ledger s'.calls).terminals = (ledger s.calls).terminals

theorem Calm.of_calls (h : s'.calls = s.calls) : Calm s s' := by
  refine ⟨?_, ?_, ?_, ?_⟩ <;> rw [h]

theorem Calm.trans {s'' : State} (h : Calm s s') (h' : Calm s' s'') : Calm s s'' :=
  ⟨h'.started.trans h.started, h'.forwarded.trans h.forwarded, h'.queries.trans h.queries,
    h'.terminals.trans h.terminals⟩

/-- One more call of another kind. -/
theorem Calm.snoc {s'' : State} (h : Calm s s') (e : Effect)
    (he : ∀ l : Ledger, (l.note e).started = l.started ∧ (l.note e).forwarded = l.forwarded ∧
      (l.note e).queries = l.queries ∧ (l.note e).terminals = l.terminals)
    (hcalls : s''.calls = s'.calls ++ [e]) : Calm s s'' := by
  obtain ⟨hstarted, hforwarded, hqueries, hterminals⟩ := he (ledger s'.calls)
  refine h.trans ⟨?_, ?_, ?_, ?_⟩
  · rw [hcalls, ledger_snoc, hstarted]
  · rw [hcalls, ledger_snoc, hforwarded]
  · rw [hcalls, ledger_snoc, hqueries]
  · rw [hcalls, ledger_snoc, hterminals]

theorem calm_refl (s : State) : Calm s s := .of_calls rfl

theorem calm_clearResidency (s : State) : Calm s s.clearResidency := by
  unfold State.clearResidency
  cases s.residentStreamHandle with
  | none => exact calm_refl s
  | some resident =>
    exact (calm_refl s).snoc (.onSuperseded resident) (fun _ => ⟨rfl, rfl, rfl, rfl⟩) rfl

theorem calm_cancelStream (s : State) (h : String) : Calm s (s.cancelStream h) :=
  (calm_refl s).snoc (.skpCancel h) (fun _ => ⟨rfl, rfl, rfl, rfl⟩) rfl

theorem calm_finishSupersede (s : State) (request : Option Request) :
    Calm s (s.finishSupersede request) := by
  cases request with
  | none => exact calm_clearResidency s
  | some request => exact (calm_clearResidency s).trans (.of_calls rfl)

theorem calm_supersedeCurrent (s : State) (request : Option Request) :
    Calm s (s.supersedeCurrent request) := by
  rcases Option.eq_none_or_eq_some s.currentStreamHandle with hc | ⟨previous, hc⟩
  · rw [supersedeCurrent_none hc]
    exact calm_finishSupersede s request
  · rw [supersedeCurrent_some hc]
    exact (calm_cancelStream s previous).trans (.of_calls rfl)

theorem calm_endSession (s : State) (detail : String) : Calm s (s.endSession detail) := by
  unfold State.endSession
  split_ifs
  · exact calm_refl s
  · have hclear := calm_clearResidency { s with
      sessionEnded := true
      liveTickets := s.liveTickets.invalidate }
    have hmarked : Calm s { s with
      sessionEnded := true
      liveTickets := s.liveTickets.invalidate } := .of_calls rfl
    exact (hmarked.trans hclear).snoc (.onSessionEnded detail) (fun _ => ⟨rfl, rfl, rfl, rfl⟩) rfl

theorem calm_stop (s : State) : Calm s s.stop := by
  have hmarked : Calm s { s with stopped := true, generation := s.generation + 1 } := .of_calls rfl
  exact hmarked.trans (calm_supersedeCurrent _ none)

theorem calm_returned (s : State) (outcome : RequestOutcome) :
    Calm s (s.tell (.returned outcome)) :=
  (calm_refl s).snoc _ (fun _ => ⟨rfl, rfl, rfl, rfl⟩) rfl

theorem calm_requestViewport (s : State) (bbox : Option Bbox) (bboxCrs : Option String)
    (nowMs : Int) (filter : Option Filter) :
    Calm s (s.requestViewport bbox bboxCrs nowMs filter) := by
  unfold State.requestViewport
  split_ifs
  · exact calm_returned s _
  · exact calm_returned s _
  · exact calm_returned s _
  · have hmarked : Calm s { s with lastIssuedAtMs := nowMs, generation := s.generation + 1 } :=
      .of_calls rfl
    exact hmarked.trans (calm_supersedeCurrent _ _)

theorem calm_afterMint (s : State) (request : Request) (stream : String) :
    Calm s (s.afterMint request stream) := by
  have hminted : Calm s (s.tell (.minted stream)) :=
    (calm_refl s).snoc _ (fun _ => ⟨rfl, rfl, rfl, rfl⟩) rfl
  unfold State.afterMint
  dsimp only
  split_ifs
  · exact hminted.snoc (.skpCancel stream) (fun _ => ⟨rfl, rfl, rfl, rfl⟩) rfl
  · exact hminted.snoc (.skpCancel stream) (fun _ => ⟨rfl, rfl, rfl, rfl⟩) rfl
  · exact hminted.snoc .dataPlaneAttach (fun _ => ⟨rfl, rfl, rfl, rfl⟩) rfl

theorem calm_afterCancelAttached (s : State) (stream : String) (outcome : RequestOutcome) :
    Calm s (s.afterCancelAttached stream outcome) := by
  unfold State.afterCancelAttached
  dsimp only
  split_ifs
  · exact (calm_refl s).snoc (.returned outcome) (fun _ => ⟨rfl, rfl, rfl, rfl⟩) rfl
  · exact (calm_refl s).snoc (.returned outcome) (fun _ => ⟨rfl, rfl, rfl, rfl⟩) rfl

/-- What a step may call, given the state it finds. -/
structure Answers (s : State) (e : Event) (s' : State) : Prop where
  /-- A ticket is started while it is current, or after it was cancelled. -/
  started : ∀ h ∈ (ledger s'.calls).started, h ∈ (ledger s.calls).started ∨
    s.currentStreamHandle = some h ∨ h ∈ (ledger s.calls).cancelled
  /-- A batch is forwarded only while its stream is current and its ticket live. -/
  forwarded : (ledger s'.calls).forwarded = (ledger s.calls).forwarded ∨
    ∃ sink payload, e = .batch sink payload ∧
      s.currentStreamHandle = some sink.streamHandleAtStart ∧
      s.liveTickets.isLive sink.streamHandleAtStart = true ∧
      s'.calls = s.calls ++
        [.onBatch sink.streamHandleAtStart s.nextBatchSeq payload sink.filter]
  /-- Nothing is forwarded or asked for once the session has ended or the manager was stopped. -/
  closed : s.sessionEnded = true ∨ s.stopped = true →
    (ledger s'.calls).forwarded = (ledger s.calls).forwarded ∧
      (ledger s'.calls).queries = (ledger s.calls).queries
  /-- A terminal is reported exactly if the stream was not cancelled. -/
  terminal : ∀ sink t, e = .terminal sink t → (ledger s'.calls).terminals =
    if sink.streamHandleAtStart ∈ (ledger s.calls).cancelled then (ledger s.calls).terminals
    else (ledger s.calls).terminals ++ [(sink.streamHandleAtStart, t)]
  /-- Nothing else is reported as a terminal. -/
  noTerminal : (∀ sink t, e ≠ .terminal sink t) →
    (ledger s'.calls).terminals = (ledger s.calls).terminals

theorem Calm.answers (h : Calm s s') {e : Event} (he : ∀ sink t, e ≠ .terminal sink t) :
    Answers s e s' where
  started := fun _ hk => Or.inl (h.started ▸ hk)
  forwarded := Or.inl h.forwarded
  closed := fun _ => ⟨h.forwarded, h.queries⟩
  terminal := fun sink t heq => absurd heq (he sink t)
  noTerminal := fun _ => h.terminals

theorem answers_resume (hs : Sound none s) {a : Await} {answer : Answer} (ha : a ∈ s.awaiting)
    (hok : Undisturbed s (.answer a answer))
    (h : { s with awaiting := s.awaiting.erase a }.resume a answer = some s') :
    Answers s (.answer a answer) s' := by
  have herase : Calm s { s with awaiting := s.awaiting.erase a } := .of_calls rfl
  cases a with
  | cancelPrevious request =>
    cases answer with
    | done =>
      cases h
      exact (herase.trans (calm_finishSupersede _ request)).answers nofun
    | _ => cases h
  | supersedeCurrent request =>
    cases answer with
    | done =>
      cases h
      unfold State.afterSupersede
      split_ifs with hgeneration
      · exact (herase.trans (calm_returned _ _)).answers nofun
      · have hmine : request.myGeneration = s.generation := not_not.1 hgeneration
        have hlive : ¬(s.sessionEnded = true ∨ s.stopped = true) := by
          rintro (hended | hstopped)
          · exact hok ⟨hended, hmine⟩
          · have hlt := hs.generations_lt hstopped _ (List.mem_filterMap.2 ⟨_, ha, rfl⟩)
            omega
        refine ⟨?_, Or.inl ?_, fun hclosed => absurd hclosed hlive, nofun, fun _ => ?_⟩
        · intro k hk
          refine Or.inl ?_
          unfold State.await State.tell at hk
          rwa [ledger_snoc] at hk
        · unfold State.await State.tell
          rw [ledger_snoc]
          rfl
        · unfold State.await State.tell
          rw [ledger_snoc]
          rfl
    | _ => cases h
  | viewportQuery request =>
    cases answer with
    | minted stream =>
      unfold State.resume at h
      dsimp only at h
      split_ifs at h
      cases h
      exact (herase.trans (calm_afterMint _ request stream)).answers nofun
    | rejected =>
      cases h
      exact (herase.snoc .threw (fun _ => ⟨rfl, rfl, rfl, rfl⟩) rfl).answers nofun
    | _ => cases h
  | dataPlaneAttach request stream =>
    cases answer with
    | attached attach =>
      cases h
      unfold State.afterAttach
      split_ifs with hended hgeneration
      · exact (herase.snoc (.skpCancel stream) (fun _ => ⟨rfl, rfl, rfl, rfl⟩) rfl).answers nofun
      · exact (herase.snoc (.skpCancel stream) (fun _ => ⟨rfl, rfl, rfl, rfl⟩) rfl).answers nofun
      · have hcurrent := hs.latest request stream ha (not_not.1 hgeneration)
          (Bool.eq_false_of_not_eq_true hended)
        unfold State.tell
        refine ⟨?_, Or.inl ?_, fun _ => ⟨?_, ?_⟩, nofun, fun _ => ?_⟩
        · intro k hk
          rw [ledger_snoc, ledger_snoc] at hk
          rcases List.mem_append.1 hk with hk | hk
          · exact Or.inl hk
          · rw [List.mem_singleton.1 hk]
            exact Or.inr hcurrent
        all_goals
          rw [ledger_snoc, ledger_snoc]
          rfl
    | rejected =>
      cases h
      exact (herase.snoc .threw (fun _ => ⟨rfl, rfl, rfl, rfl⟩) rfl).answers nofun
    | _ => cases h
  | cancelMinted stream outcome =>
    cases answer with
    | done =>
      cases h
      exact (herase.trans (calm_returned _ outcome)).answers nofun
    | _ => cases h
  | cancelAttached stream outcome =>
    cases answer with
    | done =>
      cases h
      exact (herase.trans (calm_afterCancelAttached _ stream outcome)).answers nofun
    | _ => cases h

theorem selfCancelledHandles_endSession (s : State) (detail : String) :
    (s.endSession detail).selfCancelledHandles = s.selfCancelledHandles := by
  unfold State.endSession State.clearResidency
  split_ifs
  · rfl
  · cases s.residentStreamHandle <;> rfl

/-- A terminal is suppressed for a stream that was cancelled, and reported for any other. -/
theorem answers_terminal (hs : Sound none s) {sink : Sink} (hsink : sink ∈ s.streams)
    (terminal : Terminal) : Answers s (.terminal sink terminal)
      ({ s with streams := s.streams.erase sink }.onTerminal sink terminal) := by
  have hself : sink.streamHandleAtStart ∈ s.selfCancelledHandles ↔
      sink.streamHandleAtStart ∈ (ledger s.calls).cancelled :=
    ⟨hs.selfCancelled _, (hs.streams sink hsink).2⟩
  obtain ⟨s₁, hcalm, hhandles, heq⟩ : ∃ s₁, Calm s s₁ ∧
      s₁.selfCancelledHandles = s.selfCancelledHandles ∧
      { s with streams := s.streams.erase sink }.onTerminal sink terminal =
        s₁.reportTerminal sink terminal := by
    unfold State.onTerminal
    dsimp only
    split_ifs
    · refine ⟨_, Calm.trans ?_ (calm_endSession _ _), ?_, rfl⟩
      · exact .of_calls rfl
      · rw [selfCancelledHandles_endSession]
        rfl
    · refine ⟨_, ?_, ?_, rfl⟩
      · exact .of_calls rfl
      · rfl
  rw [heq]
  unfold State.reportTerminal
  rw [hhandles]
  split_ifs with hin
  · refine ⟨fun k hk => Or.inl (hcalm.started ▸ hk), Or.inl hcalm.forwarded,
      fun _ => ⟨hcalm.forwarded, hcalm.queries⟩, ?_, fun hne => absurd rfl (hne sink terminal)⟩
    intro sink' t ht
    cases ht
    rw [if_pos (hself.1 hin)]
    exact hcalm.terminals
  · unfold State.tell
    refine ⟨?_, Or.inl ?_, fun _ => ⟨?_, ?_⟩, ?_, fun hne => absurd rfl (hne sink terminal)⟩
    · intro k hk
      rw [ledger_snoc] at hk
      exact Or.inl (hcalm.started ▸ hk)
    · rw [ledger_snoc]
      exact hcalm.forwarded
    · rw [ledger_snoc]
      exact hcalm.forwarded
    · rw [ledger_snoc]
      exact hcalm.queries
    · intro sink' t ht
      cases ht
      rw [if_neg fun hc => hin (hself.2 hc), ledger_snoc, ← hcalm.terminals]
      rfl

theorem answers_step (hs : Sound none s) {e : Event} (hok : Undisturbed s e)
    (h : step s e = some s') : Answers s e s' := by
  cases e with
  | requestViewport bbox bboxCrs nowMs filter =>
    cases h
    exact (calm_requestViewport s bbox bboxCrs nowMs filter).answers nofun
  | answer await answer =>
    unfold ViewportStreamManager.step at h
    dsimp only at h
    split_ifs at h with ha
    exact answers_resume hs ha hok h
  | cancelStream streamHandle =>
    cases h
    exact (calm_cancelStream s streamHandle).answers nofun
  | notifySessionEnded detail =>
    cases h
    exact (calm_endSession s detail).answers nofun
  | stop =>
    cases h
    exact (calm_stop s).answers nofun
  | opened sink =>
    unfold ViewportStreamManager.step at h
    dsimp only at h
    split_ifs at h
    cases h
    unfold State.onOpen
    split_ifs
    · exact (calm_refl s).answers nofun
    · exact ((calm_refl s).snoc (.onStreamOpened sink.streamHandleAtStart)
        (fun _ => ⟨rfl, rfl, rfl, rfl⟩) rfl).answers nofun
  | batch sink payload =>
    unfold ViewportStreamManager.step at h
    dsimp only at h
    split_ifs at h
    cases h
    unfold State.onBatch
    split_ifs with hlive hcurrent
    · exact (calm_refl s).answers nofun
    · exact (calm_refl s).answers nofun
    · have hc := not_not.1 hcurrent
      rw [Bool.not_eq_true', Bool.not_eq_false] at hlive
      refine ⟨?_, Or.inr ⟨sink, payload, rfl, hc, hlive, rfl⟩, ?_, nofun, fun _ => ?_⟩
      · intro k hk
        unfold State.tell at hk
        rw [ledger_snoc] at hk
        exact Or.inl hk
      · intro hclosed
        rw [hs.closed hclosed] at hc
        cases hc
      · unfold State.tell
        rw [ledger_snoc]
        rfl
  | terminal sink terminal =>
    unfold ViewportStreamManager.step at h
    dsimp only at h
    split_ifs at h with hsink
    cases h
    exact answers_terminal hs hsink terminal

/-! ### Runs -/

/-- What the manager promises about its tickets and the canvas. -/
structure Serves (s : State) : Prop where
  /-- A ticket waits for its attach, was started or was cancelled. -/
  ticket : ∀ h ∈ (ledger s.calls).minted, (∃ r, .dataPlaneAttach r h ∈ s.awaiting) ∨
    h ∈ (ledger s.calls).started ∨ h ∈ (ledger s.calls).cancelled
  /-- Only tickets are started, each once. -/
  started : (∀ h ∈ (ledger s.calls).started, h ∈ (ledger s.calls).minted) ∧
    (ledger s.calls).started.Nodup
  /-- A stream's batches are numbered from 0. -/
  batchSeqs : ∀ h, (ledger s.calls).batchSeqs h = List.range ((ledger s.calls).batchSeqs h).length
  orderly : (ledger s.calls).orderly
  superseded : (ledger s.calls).superseded.Nodup
  /-- The canvas holds the batches of one stream. -/
  canvas : ∀ b ∈ (ledger s.calls).canvas, ∀ b' ∈ (ledger s.calls).canvas, b.1 = b'.1
  ended : (ledger s.calls).ended.length ≤ 1

theorem Sound.serves (hs : Sound none s) : Serves s where
  ticket := by
    intro h hh
    rcases hs.ticket h hh with hattach | hnone | hdone
    · obtain ⟨a, ha, hah⟩ := List.mem_filterMap.1 hattach
      cases a <;> cases hah
      exact Or.inl ⟨_, ha⟩
    · cases hnone
    · exact Or.inr hdone
  started := ⟨hs.started_minted, hs.started_nodup⟩
  batchSeqs := hs.batchSeqs
  orderly := hs.orderly
  superseded := hs.superseded_nodup
  canvas := by
    intro b hb b' hb'
    exact Option.some.inj ((hs.canvas b hb).2.symm.trans (hs.canvas b' hb').2)
  ended := by
    rw [hs.ended]
    split_ifs <;> omega

end

/-- In a run that no late answer disturbs, the manager keeps its promises in every state it
reaches, and every further such step calls only what the state allows. -/
theorem run_serves (dataset : String) (columns : Option (List String)) {es : List Event}
    (hes : Meets step Undisturbed (.new dataset columns) es) {s : State}
    (hs : runFrom step (.new dataset columns) es = some s) :
    Serves s ∧ ∀ e s', Undisturbed s e → step s e = some s' → Answers s e s' := by
  have hsound : Sound none s := by
    refine runFrom_keeps (I := Sound none) (sound_new dataset columns) ?_ hes hs
    intro t e t' ht hok hstep
    exact ht.step hok hstep
  exact ⟨hsound.serves, fun e s' hok hstep => answers_step hsound hok hstep⟩

/-! ### Runs that go wrong, and one that does not -/

def request (generation : Nat) : Request := ⟨generation, none, none, none⟩

def attach : DataPlaneAttach := ⟨"ws://127.0.0.1", "spatial-ide", "tok.00"⟩

/-- The first request, up to its ticket. -/
def mintFirst : List Event :=
  [.requestViewport none none 200 none, .answer (.supersedeCurrent (request 1)) .done,
    .answer (.viewportQuery (request 1)) (.minted "s")]

/-- A request that finds no stream, all the way to its first batch. -/
def showStream (generation : Nat) (nowMs : Int) (stream : String) : List Event :=
  [.requestViewport none none nowMs none, .answer (.supersedeCurrent (request generation)) .done,
    .answer (.viewportQuery (request generation)) (.minted stream),
    .answer (.dataPlaneAttach (request generation) stream) (.attached attach),
    .batch ⟨stream, none⟩ [0]]

/-- The second request waits for a cancel while the third shows its stream. -/
def supersededLate : List Event :=
  showStream 1 200 "s" ++ .requestViewport none none 400 none :: showStream 3 600 "t" ++
    [.answer (.cancelPrevious (some (request 2))) .done, .batch ⟨"t", none⟩ [1],
      .requestViewport none none 800 none, .answer (.cancelPrevious (some (request 4))) .done,
      .answer (.supersedeCurrent (request 4)) .done,
      .answer (.viewportQuery (request 4)) (.minted "u"),
      .answer (.dataPlaneAttach (request 4) "u") (.attached attach), .batch ⟨"u", none⟩ [2]]

/-- The attach of a ticket fails: it is neither started nor cancelled.  A cancel answers when a newer
stream is current: its later batches stay on the canvas with those of the stream after it.  A
session ends during a cancel: the request goes on to mint. -/
theorem run_serves_disturbed :
    (∃ s, runFrom step (.new "d" none)
        (mintFirst ++ [.answer (.dataPlaneAttach (request 1) "s") .rejected]) = some s ∧
      ¬Serves s) ∧
    (∃ s, runFrom step (.new "d" none) supersededLate = some s ∧ ¬Serves s) ∧
    (∃ s s', runFrom step (.new "d" none)
        [.requestViewport none none 200 none, .notifySessionEnded "engine.source_changed: x"] =
          some s ∧
      step s (.answer (.supersedeCurrent (request 1)) .done) = some s' ∧
      ¬Answers s (.answer (.supersedeCurrent (request 1)) .done) s') := by
  refine ⟨?_, ?_, ?_⟩
  · obtain ⟨s, hs, hcalls, hawaiting⟩ : ∃ s, runFrom step (.new "d" none)
        (mintFirst ++ [.answer (.dataPlaneAttach (request 1) "s") .rejected]) = some s ∧
        s.calls = [.viewportQuery "d" none none none none, .minted "s", .dataPlaneAttach, .threw] ∧
        s.awaiting = [] := ⟨_, rfl, rfl, rfl⟩
    refine ⟨s, hs, fun h => ?_⟩
    have hticket := h.ticket "s" (by rw [hcalls]; exact List.mem_cons_self)
    rw [hcalls, hawaiting] at hticket
    rcases hticket with ⟨r, hr⟩ | hstarted | hcancelled
    · cases hr
    · cases hstarted
    · cases hcancelled
  · obtain ⟨s, hs, hcanvas⟩ : ∃ s, runFrom step (.new "d" none) supersededLate = some s ∧
        (ledger s.calls).canvas = [("t", 1), ("u", 0)] := ⟨_, rfl, rfl⟩
    refine ⟨s, hs, fun h => ?_⟩
    have hone := h.canvas
    rw [hcanvas] at hone
    exact absurd (hone ("t", 1) List.mem_cons_self ("u", 0)
      (List.mem_cons_of_mem _ List.mem_cons_self)) (by decide)
  · obtain ⟨s, hs, hended, hcalls, s', hs', hcalls'⟩ : ∃ s, runFrom step (.new "d" none)
        [.requestViewport none none 200 none, .notifySessionEnded "engine.source_changed: x"] =
          some s ∧ s.sessionEnded = true ∧ s.calls = [.onSessionEnded "engine.source_changed: x"] ∧
        ∃ s', step s (.answer (.supersedeCurrent (request 1)) .done) = some s' ∧
          s'.calls = [.onSessionEnded "engine.source_changed: x",
            .viewportQuery "d" none none none none] := ⟨_, rfl, rfl, rfl, _, rfl, rfl⟩
    refine ⟨s, s', hs, hs', fun h => ?_⟩
    have hqueries := (h.closed (Or.inl hended)).2
    rw [hcalls, hcalls'] at hqueries
    exact absurd (show (1 : Nat) = 0 from hqueries) Nat.one_ne_zero

/-- A stream that is shown, superseded in time and reported over. -/
theorem run_serves_shown : ∃ s, runFrom step (.new "d" none) (showStream 1 200 "s" ++
    [.requestViewport none none 400 none, .terminal ⟨"s", none⟩ ⟨.producerFailed, "cancelled"⟩,
      .answer (.cancelPrevious (some (request 2))) .done]) = some s ∧ Serves s ∧
    ∀ e s', Undisturbed s e → step s e = some s' → Answers s e s' := by
  obtain ⟨s, hs⟩ : ∃ s, runFrom step (.new "d" none) (showStream 1 200 "s" ++
    [.requestViewport none none 400 none, .terminal ⟨"s", none⟩ ⟨.producerFailed, "cancelled"⟩,
      .answer (.cancelPrevious (some (request 2))) .done]) = some s := ⟨_, rfl⟩
  refine ⟨s, hs, run_serves "d" none ?_ hs⟩
  refine Meets.cons trivial rfl ?_
  refine Meets.cons (fun h => nomatch h.1) rfl ?_
  refine Meets.cons trivial rfl ?_
  refine Meets.cons trivial rfl ?_
  refine Meets.cons trivial rfl ?_
  refine Meets.cons trivial rfl ?_
  refine Meets.cons trivial rfl ?_
  exact Meets.cons rfl rfl meets_nil

end SpatialIde.Shell.Streaming.ViewportStreamManager
