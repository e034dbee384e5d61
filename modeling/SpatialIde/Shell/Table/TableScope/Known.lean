import SpatialIde.Shell.Table.TableScope
import SpatialIde.Shell.Table.TableSource.Truthful
import SpatialIde.Shell.Workspace.WorkspaceState.Invariants

/-! # What is said of a member is known

In every run of the table's source the filter, the rows and the end it shows are of one query, also
where a start is refused for the one before.
-/

namespace SpatialIde.Shell.Table.TableSource

open Canvas Streaming Workspace Lib

/-! ### A source that is not refused for another start -/

/-- Two sources that differ in what they show of an end; where the second shows a complete result the
first does. -/
def Beside (t s : State) : Prop :=
  ∃ phase refusal snapshot, s = { t with phase := phase, refusal := refusal, snapshot := snapshot } ∧
    (phase = .completed → t.phase = .completed)

variable {d : Decoder} {s t : State}

namespace Beside

theorem refl (s : State) : Beside s s := ⟨s.phase, s.refusal, s.snapshot, rfl, id⟩

/-- Both take the same branch. -/
theorem ite {c c' : Prop} [Decidable c] [Decidable c'] (hc : c ↔ c') {t₁ s₁ t₂ s₂ : State}
    (hthen : Beside t₁ s₁) (helse : Beside t₂ s₂) :
    Beside (if c then t₁ else t₂) (if c' then s₁ else s₂) := by
  by_cases h : c
  · rw [if_pos h, if_pos (hc.1 h)]
    exact hthen
  · rw [if_neg h, if_neg (mt hc.2 h)]
    exact helse

theorem cancelHeld (h : Beside t s) (handle : Option String) :
    Beside (t.cancelHeld handle) (s.cancelHeld handle) := by
  obtain ⟨phase, refusal, snapshot, rfl, hphase⟩ := h
  cases handle with
  | none => exact ⟨phase, refusal, snapshot, rfl, hphase⟩
  | some handle => exact ⟨phase, refusal, snapshot, rfl, hphase⟩

theorem setPhase (h : Beside t s) (phase : TablePhase) : Beside (t.setPhase phase) (s.setPhase phase) := by
  obtain ⟨_, refusal, _, rfl, -⟩ := h
  exact ⟨phase, refusal, _, rfl, id⟩

theorem tell (h : Beside t s) (e : Entry) : Beside (t.tell e) (s.tell e) := by
  obtain ⟨phase, refusal, snapshot, rfl, hphase⟩ := h
  exact ⟨phase, refusal, snapshot, rfl, hphase⟩

theorem await (h : Beside t s) (a : Await) : Beside (t.await a) (s.await a) := by
  obtain ⟨phase, refusal, snapshot, rfl, hphase⟩ := h
  exact ⟨phase, refusal, snapshot, rfl, hphase⟩

theorem reset (h : Beside t s) (filter : Option Filter) : Beside (t.reset filter) (s.reset filter) := by
  obtain ⟨phase, refusal, snapshot, rfl, hphase⟩ := h
  exact ⟨phase, none, snapshot, rfl, hphase⟩

theorem cancelHandle (h : Beside t s) (handle : String) :
    Beside (t.cancelHandle handle) (s.cancelHandle handle) := h.cancelHeld (some handle)

theorem refuse (h : Beside t s) (err : CallError) : Beside (t.refuse err) (s.refuse err) := by
  have hrefused : Beside ({ t with refusal := some err.refusal }.setPhase .refused)
      ({ s with refusal := some err.refusal }.setPhase .refused) := by
    obtain ⟨_, _, _, rfl, -⟩ := h
    exact ⟨.refused, some err.refusal, _, rfl, nofun⟩
  cases err with
  | skp error =>
    rw [State.refuse, State.refuse]
    split
    · exact hrefused.tell _
    · exact hrefused
  | other message => exact hrefused

theorem start (h : Beside t s) (filter : Option Filter) : Beside (t.start filter) (s.start filter) := by
  obtain ⟨phase, refusal, snapshot, rfl, hphase⟩ := h
  rw [State.start, State.start]
  split
  · exact ⟨phase, refusal, snapshot, rfl, hphase⟩
  · refine Beside.await (Beside.cancelHeld ?_ _) _
    refine ⟨.loading, none, _, rfl, ?_⟩
    intro hcompleted
    cases hcompleted

/-- The phase of a source that was loading. -/
def stopLoading (s : State) : State := if s.phase = .loading then s.setPhase .cancelled else s

theorem stopLoading_beside (h : Beside t s) : Beside (stopLoading t) (stopLoading s) := by
  obtain ⟨phase, refusal, snapshot, rfl, hphase⟩ := h
  rw [stopLoading, stopLoading]
  -- One of them may be loading while the other is refused.
  split
  · next hloading =>
    split
    · exact ⟨.cancelled, refusal, _, rfl, id⟩
    · exact ⟨phase, refusal, snapshot, rfl, fun hc => absurd (hloading.symm.trans (hphase hc)) nofun⟩
  · split
    · exact ⟨.cancelled, refusal, _, rfl, nofun⟩
    · exact ⟨phase, refusal, snapshot, rfl, hphase⟩

theorem cancel (h : Beside t s) : Beside t.cancel s.cancel := by
  obtain ⟨phase, refusal, snapshot, rfl, hphase⟩ := h
  refine stopLoading_beside ?_
  refine cancelHeld ?_ t.handle
  exact ⟨phase, refusal, snapshot, rfl, hphase⟩

theorem dispose (h : Beside t s) : Beside t.dispose s.dispose := by
  refine Beside.cancel (Beside.tell ?_ _)
  obtain ⟨phase, refusal, snapshot, rfl, hphase⟩ := h
  exact ⟨phase, refusal, snapshot, rfl, hphase⟩

theorem endSource (h : Beside t s) : Beside t.endSource s.endSource := by
  obtain ⟨phase, refusal, snapshot, rfl, hphase⟩ := h
  rw [State.endSource, State.endSource]
  split
  · exact ⟨phase, refusal, snapshot, rfl, hphase⟩
  · refine Beside.setPhase (Beside.reset (Beside.cancelHeld ?_ t.handle) _) _
    exact ⟨phase, refusal, snapshot, rfl, hphase⟩

theorem conclude (h : Beside t s) (terminal : Terminal) :
    Beside (t.conclude terminal) (s.conclude terminal) := by
  rw [State.conclude, State.conclude]
  split
  · exact h.endSource.tell _
  · split
    · exact h.setPhase .completed
    · obtain ⟨phase, refusal, snapshot, rfl, hphase⟩ := h
      refine ⟨.refused, _, _, rfl, ?_⟩
      intro hcompleted
      cases hcompleted

theorem terminal (h : Beside t s) (stream : String) (terminal : Terminal) :
    Beside (t.terminal stream terminal) (s.terminal stream terminal) := by
  obtain ⟨phase, refusal, snapshot, rfl, hphase⟩ := h
  refine ite Iff.rfl ⟨phase, refusal, snapshot, rfl, hphase⟩ ?_
  refine ite Iff.rfl ⟨phase, refusal, snapshot, rfl, hphase⟩ ?_
  refine conclude ?_ terminal
  exact ⟨phase, refusal, snapshot, rfl, hphase⟩

theorem onTerminal (h : Beside t s) (sink : Sink) (terminal : Terminal) :
    Beside (t.onTerminal sink terminal) (s.onTerminal sink terminal) := by
  refine Beside.terminal ?_ sink.stream terminal
  obtain ⟨phase, refusal, snapshot, rfl, hphase⟩ := h
  exact ⟨phase, refusal, snapshot, rfl, hphase⟩

theorem add (h : Beside t s) (stream : String) (block : Block) :
    Beside (t.add stream block) (s.add stream block) := by
  obtain ⟨phase, refusal, snapshot, rfl, hphase⟩ := h
  rw [State.add, State.add]
  split
  · refine ⟨.stopped, refusal, _, rfl, ?_⟩
    intro hcompleted
    cases hcompleted
  · exact ⟨phase, refusal, _, rfl, hphase⟩

theorem onBatch (h : Beside t s) (sink : Sink) (payload : List UInt8) :
    Beside (t.onBatch d sink payload) (s.onBatch d sink payload) := by
  obtain ⟨phase, refusal, snapshot, rfl, hphase⟩ := h
  refine ite Iff.rfl ⟨phase, refusal, snapshot, rfl, hphase⟩ ?_
  have hopts : ∀ s : State, (s.tell (.sent sink.stream payload)).opts = s.opts := fun _ => rfl
  rw [hopts, hopts]
  cases decodeBlock d t.opts sink.stream sink.filter sink.seq payload with
  | error e =>
    refine onTerminal ?_ sink _
    exact ⟨phase, refusal, snapshot, rfl, hphase⟩
  | ok block =>
    refine add ?_ sink.stream block
    exact ⟨phase, refusal, snapshot, rfl, hphase⟩

/-- An answer is taken in the same way. -/
theorem resume (h : Beside t s) {await : Await} {answer : Answer} {s' : State}
    (hs' : s.resume await answer = some s') :
    ∃ t', t.resume await answer = some t' ∧ Beside t' s' := by
  have hbeside := h
  obtain ⟨phase, refusal, snapshot, rfl, hphase⟩ := h
  cases await with
  | cancelPrevious mine filter =>
    cases answer with
    | done =>
      cases hs'
      refine ⟨_, rfl, ?_⟩
      rw [State.afterCancelPrevious, State.afterCancelPrevious]
      split
      · exact hbeside
      · exact (hbeside.tell _).await _
    | _ => cases hs'
  | viewportQuery mine filter =>
    cases answer with
    | minted stream =>
      rw [State.resume] at hs' ⊢
      split at hs'
      · cases hs'
      · next hfree =>
        cases hs'
        have hfree' : ¬t.handedOut stream = true := hfree
        rw [if_neg hfree']
        refine ⟨_, rfl, ?_⟩
        refine ite Iff.rfl ((hbeside.tell _).cancelHandle stream) ?_
        exact ⟨phase, refusal, snapshot, rfl, hphase⟩
    | rejected err =>
      cases hs'
      exact ⟨_, rfl, ite Iff.rfl ((hbeside.tell _).refuse err) (hbeside.tell _)⟩
    | _ => cases hs'
  | dataPlaneAttach mine filter stream =>
    cases answer with
    | attached attach =>
      cases hs'
      refine ⟨_, rfl, ?_⟩
      rw [State.afterAttach, State.afterAttach]
      split
      · exact hbeside
      · exact ⟨phase, refusal, snapshot, rfl, hphase⟩
    | rejected err =>
      cases hs'
      refine ⟨_, rfl, ?_⟩
      refine ite Iff.rfl ?_ (hbeside.tell _)
      exact ⟨phase, refusal, snapshot, rfl, hphase⟩
    | _ => cases hs'
  | cancelUnattached mine err =>
    cases answer with
    | done =>
      cases hs'
      exact ⟨_, rfl, hbeside.refuse err⟩
    | _ => cases hs'

theorem step (h : Beside t s) {e : Event} {s' : State} (hs' : step d s e = some s') :
    ∃ t', TableSource.step d t e = some t' ∧ Beside t' s' := by
  cases e with
  | start filter =>
    cases hs'
    exact ⟨_, rfl, h.start filter⟩
  | cancel =>
    cases hs'
    exact ⟨_, rfl, h.cancel⟩
  | endSource =>
    cases hs'
    exact ⟨_, rfl, h.endSource⟩
  | dispose =>
    cases hs'
    exact ⟨_, rfl, h.dispose⟩
  | answer await answer =>
    rw [TableSource.step] at hs' ⊢
    split at hs'
    · next hawait =>
      have hsame : await ∈ t.awaiting := by
        obtain ⟨phase, refusal, snapshot, rfl, -⟩ := h
        exact hawait
      have herase : Beside { t with awaiting := t.awaiting.erase await }
          { s with awaiting := s.awaiting.erase await } := by
        obtain ⟨phase, refusal, snapshot, rfl, hphase⟩ := h
        exact ⟨phase, refusal, snapshot, rfl, hphase⟩
      rw [if_pos hsame]
      exact herase.resume hs'
    · cases hs'
  | batch sink payload =>
    rw [TableSource.step] at hs' ⊢
    split at hs'
    · next hsink =>
      have hsame : sink ∈ t.streams := by
        obtain ⟨phase, refusal, snapshot, rfl, -⟩ := h
        exact hsink
      cases hs'
      rw [if_pos hsame]
      exact ⟨_, rfl, h.onBatch sink payload⟩
    · cases hs'
  | terminal sink terminal =>
    rw [TableSource.step] at hs' ⊢
    split at hs'
    · next hsink =>
      have hsame : sink ∈ t.streams := by
        obtain ⟨phase, refusal, snapshot, rfl, -⟩ := h
        exact hsink
      cases hs'
      rw [if_pos hsame]
      exact ⟨_, rfl, h.onTerminal sink terminal⟩
    · cases hs'

end Beside

/-- A refusal that the other source takes no notice of. -/
theorem Beside.refuse_right (h : Beside t s) (err : CallError) :
    ∃ log, ledger log = ledger t.log ∧ Beside { t with log := log } (s.refuse err) := by
  obtain ⟨phase, refusal, snapshot, rfl, hphase⟩ := h
  have hnever : TablePhase.refused = .completed → t.phase = .completed := by
    intro hcompleted
    cases hcompleted
  cases err with
  | skp error =>
    rw [State.refuse]
    split
    · refine ⟨t.log ++ [.onSessionEnded (refusalDetailOf error)], ?_, .refused, _, _, rfl, hnever⟩
      rw [ledger_snoc]
      rfl
    · exact ⟨t.log, rfl, .refused, _, _, rfl, hnever⟩
  | other message => exact ⟨t.log, rfl, .refused, _, _, rfl, hnever⟩

/-- A sound source is kept beside another one through a step. -/
theorem Beside.good_step (hgood : Good d t) (h : Beside t s) {e : Event} {s' : State}
    (hs' : TableSource.step d s e = some s') : ∃ t', Good d t' ∧ Beside t' s' := by
  by_cases he : NotOvertaken t e
  · obtain ⟨t', ht', hbeside⟩ := h.step hs'
    exact ⟨t', TableSource.good_step hgood he ht', hbeside⟩
  · cases e with
    | answer await answer =>
      cases await with
      | cancelUnattached mine err =>
        rw [TableSource.step] at hs'
        split at hs'
        · cases answer with
          | done =>
            -- A start that is over is refused.
            cases hs'
            have herase : Beside { t with awaiting := t.awaiting.erase (.cancelUnattached mine err) }
                { s with awaiting := s.awaiting.erase (.cancelUnattached mine err) } := by
              obtain ⟨phase, refusal, snapshot, rfl, hphase⟩ := h
              exact ⟨phase, refusal, snapshot, rfl, hphase⟩
            obtain ⟨log, hlog, hbeside⟩ := herase.refuse_right err
            refine ⟨_, ?_, hbeside⟩
            have hmark := (Sound.erase hgood (.cancelUnattached mine err)).mark log t.disposed t.ended
            rw [← hlog] at hmark
            exact hmark
          | _ => cases hs'
        · cases hs'
      | _ => exact absurd trivial he
    | _ => exact absurd trivial he

/-! ### What has been asked for a stream -/

/-- Nothing is started, and no ticket comes. -/
def Entry.Plain : Entry → Prop
  | .started .. => False
  | .minted .. => False
  | _ => True

/-- Nothing waits for a query, or to make one. -/
def Await.Plain : Await → Prop
  | .cancelPrevious .. => False
  | .viewportQuery .. => False
  | _ => True

/-- A source goes on without a start, a query or a ticket. -/
structure Follows (s s' : State) : Prop where
  opts : s'.opts = s.opts
  run : s.run ≤ s'.run
  log : ∃ es, s'.log = s.log ++ es ∧ ∀ e ∈ es, e.Plain
  awaiting : ∀ a ∈ s'.awaiting, a ∈ s.awaiting ∨ a.Plain

namespace Follows

theorem of_eq {s' : State} (hopts : s'.opts = s.opts) (hrun : s.run ≤ s'.run) (hlog : s'.log = s.log)
    (hawaiting : s'.awaiting = s.awaiting) : Follows s s' :=
  ⟨hopts, hrun, ⟨[], hlog.trans (List.append_nil _).symm, nofun⟩, fun _ ha => .inl (hawaiting ▸ ha)⟩

theorem refl (s : State) : Follows s s := of_eq rfl le_rfl rfl rfl

theorem trans {s₁ s₂ s₃ : State} (h : Follows s₁ s₂) (h' : Follows s₂ s₃) : Follows s₁ s₃ := by
  obtain ⟨es, hes, hplain⟩ := h.log
  obtain ⟨es', hes', hplain'⟩ := h'.log
  refine ⟨h'.opts.trans h.opts, h.run.trans h'.run, ⟨es ++ es', ?_, ?_⟩, fun a ha => ?_⟩
  · rw [hes', hes, List.append_assoc]
  · exact List.forall_mem_append.2 ⟨hplain, hplain'⟩
  · exact (h'.awaiting a ha).elim (h.awaiting a) .inr

theorem tell {s₀ : State} (h : Follows s₀ s) {e : Entry} (he : e.Plain) : Follows s₀ (s.tell e) := by
  refine h.trans ⟨rfl, le_rfl, ⟨[e], rfl, ?_⟩, fun a ha => .inl ha⟩
  exact fun x hx => List.mem_singleton.1 hx ▸ he

theorem cancelHandle {s₀ : State} (h : Follows s₀ s) (handle : String) :
    Follows s₀ (s.cancelHandle handle) := by
  refine tell (h.trans ?_) trivial
  exact of_eq rfl le_rfl rfl rfl

theorem cancelHeld {s₀ : State} (h : Follows s₀ s) (handle : Option String) :
    Follows s₀ (s.cancelHeld handle) := by
  cases handle with
  | none => exact h
  | some handle => exact h.cancelHandle handle

theorem setPhase {s₀ : State} (h : Follows s₀ s) (phase : TablePhase) : Follows s₀ (s.setPhase phase) :=
  h.trans (of_eq rfl le_rfl rfl rfl)

theorem await {s₀ : State} (h : Follows s₀ s) {a : Await} (ha : a.Plain) : Follows s₀ (s.await a) := by
  refine h.trans ⟨rfl, le_rfl, ⟨[], (List.append_nil _).symm, nofun⟩, fun b hb => ?_⟩
  rcases List.mem_append.1 hb with hb | hb
  · exact .inl hb
  · exact .inr (List.mem_singleton.1 hb ▸ ha)

theorem cancel (s : State) : Follows s s.cancel := by
  have hheld : Follows s ({ s with run := s.run + 1, handle := none }.cancelHeld s.handle) := by
    refine cancelHeld ?_ _
    exact of_eq rfl (Nat.le_succ _) rfl rfl
  rw [State.cancel]
  split
  · exact hheld.setPhase _
  · exact hheld

theorem dispose (s : State) : Follows s s.dispose := by
  have hmark : Follows s { s with disposed := true } := of_eq rfl le_rfl rfl rfl
  have htold : Follows s ({ s with disposed := true }.tell .disposed) := hmark.tell trivial
  exact htold.trans (cancel _)

theorem endSource (s : State) : Follows s s.endSource := by
  rw [State.endSource]
  split
  · exact refl s
  · have hmark : Follows s { s with ended := true, run := s.run + 1, handle := none } :=
      of_eq rfl (Nat.le_succ _) rfl rfl
    have hheld := (@tell _ _ hmark .ended trivial).cancelHeld s.handle
    refine setPhase (hheld.trans ?_) _
    exact of_eq rfl le_rfl rfl rfl

theorem refuse (s : State) (err : CallError) : Follows s (s.refuse err) := by
  have hrefused : Follows s ({ s with refusal := some err.refusal }.setPhase .refused) :=
    of_eq rfl le_rfl rfl rfl
  cases err with
  | skp error =>
    rw [State.refuse]
    split
    · exact hrefused.tell trivial
    · exact hrefused
  | other message => exact hrefused

theorem conclude (s : State) (terminal : Terminal) : Follows s (s.conclude terminal) := by
  rw [State.conclude]
  split
  · exact (endSource s).tell trivial
  · split
    · exact (refl s).setPhase _
    · exact of_eq rfl le_rfl rfl rfl

theorem terminal (s : State) (stream : String) (terminal : Terminal) :
    Follows s (s.terminal stream terminal) := by
  have htold : Follows s (s.tell (.terminal stream terminal)) := (refl s).tell trivial
  rw [State.terminal]
  split
  · exact htold.trans (of_eq rfl le_rfl rfl rfl)
  · split
    · exact htold
    · refine trans ?_ (conclude _ terminal)
      exact htold.trans (of_eq rfl le_rfl rfl rfl)

theorem onTerminal (s : State) (sink : Sink) (terminal : Terminal) :
    Follows s (s.onTerminal sink terminal) := by
  have hstreams : Follows s { s with streams := s.streams.erase sink } := of_eq rfl le_rfl rfl rfl
  exact hstreams.trans (Follows.terminal _ _ _)

theorem add (s : State) (stream : String) (block : Block) : Follows s (s.add stream block) := by
  rw [State.add]
  split
  · have hlet : Follows s { s with handle := none } := of_eq rfl le_rfl rfl rfl
    exact (hlet.cancelHandle stream).setPhase _
  · refine tell ?_ trivial
    exact of_eq rfl le_rfl rfl rfl

theorem onBatch (s : State) (sink : Sink) (payload : List UInt8) :
    Follows s (s.onBatch d sink payload) := by
  have htold : Follows s (s.tell (.sent sink.stream payload)) := (refl s).tell trivial
  rw [State.onBatch]
  split
  · exact htold
  · split
    · exact htold.trans (onTerminal _ _ _)
    · refine trans ?_ (add _ _ _)
      exact htold.trans (of_eq rfl le_rfl rfl rfl)

end Follows

/-- Each start is one, and a ticket is of the query made for its start. -/
structure Asked (s : State) : Prop where
  numbered : ∀ mine filter, .started mine filter ∈ s.log → mine ≤ s.run
  single : ∀ mine f f', .started mine f ∈ s.log → .started mine f' ∈ s.log → f = f'
  waits : ∀ mine filter, Await.cancelPrevious mine filter ∈ s.awaiting → .started mine filter ∈ s.log
  queries : ∀ mine filter, Await.viewportQuery mine filter ∈ s.awaiting →
    .started mine filter ∈ s.log ∧
      .viewportQuery mine s.opts.dataset TABLE_MAX_ROWS filter s.opts.projection ∈ s.log
  minted : ∀ mine stream, .minted mine stream ∈ s.log → ∃ filter, .started mine filter ∈ s.log ∧
    .viewportQuery mine s.opts.dataset TABLE_MAX_ROWS filter s.opts.projection ∈ s.log

theorem asked_new (opts : TableSourceOptions) : Asked (.new opts) := by
  constructor <;> nofun

theorem Asked.follows {s' : State} (h : Asked s) (hf : Follows s s') : Asked s' := by
  obtain ⟨es, hes, hplain⟩ := hf.log
  have hkeep : ∀ e ∈ s.log, e ∈ s'.log := fun e he => hes ▸ List.mem_append_left _ he
  have hback : ∀ e ∈ s'.log, ¬e.Plain → e ∈ s.log := by
    intro e he hnot
    rw [hes, List.mem_append] at he
    exact he.resolve_right fun hmem => hnot (hplain e hmem)
  have hwait : ∀ a ∈ s'.awaiting, ¬a.Plain → a ∈ s.awaiting := fun a ha hnot =>
    (hf.awaiting a ha).resolve_right hnot
  constructor
  · intro mine filter hmem
    exact (h.numbered mine filter (hback _ hmem id)).trans hf.run
  · intro mine f f' hmem hmem'
    exact h.single mine f f' (hback _ hmem id) (hback _ hmem' id)
  · intro mine filter hmem
    exact hkeep _ (h.waits mine filter (hwait _ hmem id))
  · intro mine filter hmem
    obtain ⟨hstart, hquery⟩ := h.queries mine filter (hwait _ hmem id)
    rw [hf.opts]
    exact ⟨hkeep _ hstart, hkeep _ hquery⟩
  · intro mine stream hmem
    obtain ⟨filter, hstart, hquery⟩ := h.minted mine stream (hback _ hmem id)
    rw [hf.opts]
    exact ⟨filter, hkeep _ hstart, hkeep _ hquery⟩

namespace Asked

theorem erase (h : Asked s) (a : Await) : Asked { s with awaiting := s.awaiting.erase a } where
  numbered := h.numbered
  single := h.single
  waits mine filter hmem := h.waits mine filter (List.mem_of_mem_erase hmem)
  queries mine filter hmem := h.queries mine filter (List.mem_of_mem_erase hmem)
  minted := h.minted

/-- A start that has been told of waits. -/
theorem awaitStart (h : Asked s) {mine : Nat} {filter : Option Filter}
    (hstart : .started mine filter ∈ s.log) : Asked (s.await (.cancelPrevious mine filter)) where
  numbered := h.numbered
  single := h.single
  waits := by
    intro m f hawait
    rcases List.mem_append.1 hawait with hawait | hawait
    · exact h.waits m f hawait
    · cases List.mem_singleton.1 hawait
      exact hstart
  queries := by
    intro m f hawait
    rcases List.mem_append.1 hawait with hawait | hawait
    · exact h.queries m f hawait
    · cases List.mem_singleton.1 hawait
  minted := h.minted

theorem start (h : Asked s) (filter : Option Filter) : Asked (s.start filter) := by
  rw [State.start]
  split
  · exact h
  · -- The start is told of, and then waits.
    have hstarted : Asked ({ s with run := s.run + 1, handle := none }.tell
        (.started (s.run + 1) filter)) := by
      have hold : ∀ {mine f}, Entry.started mine f ∈ s.log ++ [.started (s.run + 1) filter] →
          .started mine f ∈ s.log ∨ mine = s.run + 1 ∧ f = filter := by
        intro mine f hmem
        rcases List.mem_append.1 hmem with hmem | hmem
        · exact .inl hmem
        · cases List.mem_singleton.1 hmem
          exact .inr ⟨rfl, rfl⟩
      constructor
      · intro mine f hmem
        rcases hold hmem with hmem | ⟨rfl, -⟩
        · exact (h.numbered mine f hmem).trans (Nat.le_succ _)
        · exact le_rfl
      · intro mine f f' hmem hmem'
        rcases hold hmem with hmem | ⟨rfl, rfl⟩
        · rcases hold hmem' with hmem' | ⟨rfl, -⟩
          · exact h.single mine f f' hmem hmem'
          · exact absurd (h.numbered _ f hmem) (by omega)
        · rcases hold hmem' with hmem' | ⟨-, rfl⟩
          · exact absurd (h.numbered _ f' hmem') (by omega)
          · rfl
      · intro mine f hmem
        exact List.mem_append_left _ (h.waits mine f hmem)
      · intro mine f hmem
        obtain ⟨hstart, hquery⟩ := h.queries mine f hmem
        exact ⟨List.mem_append_left _ hstart, List.mem_append_left _ hquery⟩
      · intro mine stream hmem
        rcases List.mem_append.1 hmem with hmem | hmem
        · obtain ⟨f, hstart, hquery⟩ := h.minted mine stream hmem
          exact ⟨f, List.mem_append_left _ hstart, List.mem_append_left _ hquery⟩
        · cases List.mem_singleton.1 hmem
    have hheld : Follows ({ s with run := s.run + 1, handle := none }.tell
        (.started (s.run + 1) filter)) (((({ s with run := s.run + 1, handle := none }.tell
          (.started (s.run + 1) filter)).reset filter).setPhase .loading).cancelHeld s.handle) := by
      refine Follows.cancelHeld ?_ _
      exact .of_eq rfl le_rfl rfl rfl
    have hasked := hstarted.follows hheld
    have hmem : Entry.started (s.run + 1) filter ∈ (((({ s with run := s.run + 1, handle := none }.tell
        (.started (s.run + 1) filter)).reset filter).setPhase .loading).cancelHeld s.handle).log := by
      obtain ⟨es, hes, -⟩ := hheld.log
      rw [hes]
      exact List.mem_append_left _ (List.mem_append_right _ List.mem_cons_self)
    exact hasked.awaitStart hmem

/-- The query of a start is made. -/
theorem afterCancelPrevious (h : Asked s) {mine : Nat} {filter : Option Filter}
    (hstart : .started mine filter ∈ s.log) : Asked (s.afterCancelPrevious mine filter) := by
  rw [State.afterCancelPrevious]
  split
  · exact h
  · have hasked := h.follows ((Follows.refl s).tell (e := .viewportQuery mine s.opts.dataset
      TABLE_MAX_ROWS filter s.opts.projection) trivial)
    constructor
    · exact hasked.numbered
    · exact hasked.single
    · intro m f hawait
      rcases List.mem_append.1 hawait with hawait | hawait
      · exact hasked.waits m f hawait
      · cases List.mem_singleton.1 hawait
    · intro m f hawait
      rcases List.mem_append.1 hawait with hawait | hawait
      · exact hasked.queries m f hawait
      · cases List.mem_singleton.1 hawait
        exact ⟨List.mem_append_left _ hstart, List.mem_append_right _ List.mem_cons_self⟩
    · exact hasked.minted

/-- The ticket of a query comes. -/
theorem mint (h : Asked s) {mine : Nat} {filter : Option Filter} (stream : String)
    (hstart : .started mine filter ∈ s.log)
    (hquery : .viewportQuery mine s.opts.dataset TABLE_MAX_ROWS filter s.opts.projection ∈ s.log) :
    Asked (s.tell (.minted mine stream)) := by
  have hold : ∀ {e : Entry}, e ∈ s.log ++ [.minted mine stream] → e ≠ .minted mine stream →
      e ∈ s.log := by
    intro e he hne
    exact (List.mem_append.1 he).resolve_right fun hmem => hne (List.mem_singleton.1 hmem)
  constructor
  · intro m f hmem
    exact h.numbered m f (hold hmem nofun)
  · intro m f f' hmem hmem'
    exact h.single m f f' (hold hmem nofun) (hold hmem' nofun)
  · intro m f hawait
    exact List.mem_append_left _ (h.waits m f hawait)
  · intro m f hawait
    obtain ⟨hs, hq⟩ := h.queries m f hawait
    exact ⟨List.mem_append_left _ hs, List.mem_append_left _ hq⟩
  · intro m name hmem
    rcases List.mem_append.1 hmem with hmem | hmem
    · obtain ⟨f, hs, hq⟩ := h.minted m name hmem
      exact ⟨f, List.mem_append_left _ hs, List.mem_append_left _ hq⟩
    · cases List.mem_singleton.1 hmem
      exact ⟨filter, List.mem_append_left _ hstart, List.mem_append_left _ hquery⟩

theorem answer (h : Asked s) {await : Await} (hawait : await ∈ s.awaiting) {answer : Answer} {s' : State}
    (hs' : { s with awaiting := s.awaiting.erase await }.resume await answer = some s') : Asked s' := by
  have herase := h.erase await
  cases await with
  | cancelPrevious mine filter =>
    cases answer with
    | done =>
      cases hs'
      exact herase.afterCancelPrevious (h.waits mine filter hawait)
    | _ => cases hs'
  | viewportQuery mine filter =>
    obtain ⟨hstart, hquery⟩ := h.queries mine filter hawait
    cases answer with
    | minted stream =>
      rw [State.resume] at hs'
      split at hs'
      · cases hs'
      · cases hs'
        have hminted := herase.mint stream hstart hquery
        rw [State.afterQuery]
        split
        · exact hminted.follows ((Follows.refl _).cancelHandle stream)
        · refine hminted.follows (Follows.await ?_ trivial)
          refine Follows.tell ?_ trivial
          exact .of_eq rfl le_rfl rfl rfl
    | rejected err =>
      cases hs'
      have htold := (Follows.refl { s with awaiting := s.awaiting.erase (.viewportQuery mine filter) }).tell
        (e := .queryRejected mine err) trivial
      rw [State.afterQueryRejected]
      split
      · exact herase.follows (htold.trans (.refuse _ err))
      · exact herase.follows htold
    | _ => cases hs'
  | dataPlaneAttach mine filter stream =>
    cases answer with
    | attached attach =>
      cases hs'
      rw [State.afterAttach]
      split
      · exact herase
      · refine herase.follows (Follows.tell ?_ trivial)
        exact .of_eq rfl le_rfl rfl rfl
    | rejected err =>
      cases hs'
      have htold := (Follows.refl { s with
        awaiting := s.awaiting.erase (.dataPlaneAttach mine filter stream) }).tell
          (e := .attachRejected mine err) trivial
      rw [State.afterAttachRejected]
      split
      · refine herase.follows (Follows.await (Follows.cancelHandle ?_ stream) trivial)
        exact htold.trans (.of_eq rfl le_rfl rfl rfl)
      · exact herase.follows htold
    | _ => cases hs'
  | cancelUnattached mine err =>
    cases answer with
    | done =>
      cases hs'
      exact herase.follows (.refuse _ err)
    | _ => cases hs'

theorem step (h : Asked s) {e : Event} {s' : State} (hs' : TableSource.step d s e = some s') :
    Asked s' := by
  cases e with
  | start filter =>
    cases hs'
    exact h.start filter
  | cancel =>
    cases hs'
    exact h.follows (.cancel s)
  | endSource =>
    cases hs'
    exact h.follows (.endSource s)
  | dispose =>
    cases hs'
    exact h.follows (.dispose s)
  | answer await answer =>
    rw [TableSource.step] at hs'
    split at hs'
    · next hawait => exact h.answer hawait hs'
    · cases hs'
  | batch sink payload =>
    rw [TableSource.step] at hs'
    split at hs'
    · cases hs'
      exact h.follows (.onBatch s sink payload)
    · cases hs'
  | terminal sink terminal =>
    rw [TableSource.step] at hs'
    split at hs'
    · cases hs'
      exact h.follows (.onTerminal s sink terminal)
    · cases hs'

end Asked

/-! ### What the table shows -/

/-- The snapshot is of the fields as they are. -/
def Shown (s : State) : Prop := s.snapshot = s.shown

namespace Shown

theorem cancelHeld (h : Shown s) (handle : Option String) : Shown (s.cancelHeld handle) := by
  cases handle with
  | none => exact h
  | some handle => exact h

theorem cancel (h : Shown s) : Shown s.cancel := by
  have hheld : Shown ({ s with run := s.run + 1, handle := none }.cancelHeld s.handle) := by
    refine cancelHeld ?_ _
    exact h
  rw [State.cancel]
  split
  · rfl
  · exact hheld

theorem endSource (h : Shown s) : Shown s.endSource := by
  rw [State.endSource]
  split
  · exact h
  · rfl

theorem refuse (s : State) (err : CallError) : Shown (s.refuse err) := by
  cases err with
  | skp error =>
    rw [State.refuse]
    split
    · rfl
    · rfl
  | other message => rfl

theorem onTerminal (h : Shown s) (sink : Sink) (terminal : Terminal) :
    Shown (s.onTerminal sink terminal) := by
  rw [State.onTerminal, State.terminal]
  split
  · exact h
  · split
    · exact h
    · rw [State.conclude]
      split
      · refine Shown.endSource ?_
        exact h
      · split
        · rfl
        · rfl

theorem onBatch (h : Shown s) (sink : Sink) (payload : List UInt8) : Shown (s.onBatch d sink payload) := by
  rw [State.onBatch]
  split
  · exact h
  · split
    · refine onTerminal ?_ sink _
      exact h
    · rw [State.add]
      split
      · rfl
      · rfl

theorem resume (h : Shown s) {await : Await} {answer : Answer} {s' : State}
    (hs' : s.resume await answer = some s') : Shown s' := by
  cases await with
  | cancelPrevious mine filter =>
    cases answer with
    | done =>
      cases hs'
      rw [State.afterCancelPrevious]
      split
      · exact h
      · exact h
    | _ => cases hs'
  | viewportQuery mine filter =>
    cases answer with
    | minted stream =>
      rw [State.resume] at hs'
      split at hs'
      · cases hs'
      · cases hs'
        rw [State.afterQuery]
        split
        · exact h
        · exact h
    | rejected err =>
      cases hs'
      rw [State.afterQueryRejected]
      split
      · exact refuse _ err
      · exact h
    | _ => cases hs'
  | dataPlaneAttach mine filter stream =>
    cases answer with
    | attached attach =>
      cases hs'
      rw [State.afterAttach]
      split
      · exact h
      · exact h
    | rejected err =>
      cases hs'
      rw [State.afterAttachRejected]
      split
      · exact h
      · exact h
    | _ => cases hs'
  | cancelUnattached mine err =>
    cases answer with
    | done =>
      cases hs'
      exact refuse _ err
    | _ => cases hs'

theorem start (h : Shown s) (filter : Option Filter) : Shown (s.start filter) := by
  rw [State.start]
  split
  · exact h
  · refine cancelHeld ?_ s.handle
    rfl

theorem step (h : Shown s) {e : Event} {s' : State} (hs' : TableSource.step d s e = some s') :
    Shown s' := by
  cases e with
  | start filter =>
    cases hs'
    exact h.start filter
  | cancel =>
    cases hs'
    exact h.cancel
  | endSource =>
    cases hs'
    exact h.endSource
  | dispose =>
    cases hs'
    refine Shown.cancel ?_
    exact h
  | answer await answer =>
    rw [TableSource.step] at hs'
    split at hs'
    · refine Shown.resume ?_ hs'
      exact h
    · cases hs'
  | batch sink payload =>
    rw [TableSource.step] at hs'
    split at hs'
    · cases hs'
      exact h.onBatch sink payload
    · cases hs'
  | terminal sink terminal =>
    rw [TableSource.step] at hs'
    split at hs'
    · cases hs'
      exact h.onTerminal sink terminal
    · cases hs'

end Shown

/-- What holds of every run: of what the table shows, some sound source beside it knows. -/
theorem run_beside {opts : TableSourceOptions} {es : List Event}
    (hs : runFrom (step d) (.new opts) es = some s) :
    Shown s ∧ Asked s ∧ ∃ t, Good d t ∧ Beside t s := by
  have hnew : Shown (.new opts) := rfl
  refine runFrom_keeps_all (I := fun s => Shown s ∧ Asked s ∧ ∃ t, Good d t ∧ Beside t s)
    ⟨hnew, asked_new opts, _, .new d opts, .refl _⟩ ?_ hs
  rintro s e s' ⟨hshown, hasked, t, hgood, hbeside⟩ hs'
  exact ⟨hshown.step hs', hasked.step hs', hbeside.good_step hgood hs'⟩

/-! ### The statement -/

/-- The features of the dataset open, and which of them a filter is true of. -/
structure Dataset where
  features : Set Int
  satisfies : Filter → Int → Prop

/-- A feature passes a filter; with none every feature does. -/
def Dataset.Passes (D : Dataset) : Option Filter → Int → Prop
  | none, id => id ∈ D.features
  | some filter, id => id ∈ D.features ∧ D.satisfies filter id

/-- A stream was issued with a filter and a limit. -/
def Issued (s : State) (stream : String) (filter : Option Filter) (limit : Nat) : Prop :=
  ∃ mine dataset columns, .viewportQuery mine dataset limit filter columns ∈ s.log ∧
    .minted mine stream ∈ s.log

/-- What streams deliver, those of the table and those of the map: rows that pass their filter, and
all of them where a stream ends complete below its limit. -/
structure Delivers (D : Dataset) (delivered : Option Filter → Int → Prop) (d : Decoder) (s : State) :
    Prop where
  only : ∀ filter id, delivered filter id → D.Passes filter id
  sent : ∀ stream filter limit, Issued s stream filter limit → ∀ i payload block,
    ((ledger s.log).sentOn stream)[i]? = some payload →
    decodeBlock d s.opts stream filter i payload = .ok block →
    ∀ u ∈ block.ids, delivered filter u.toNat
  all : ∀ stream filter terminal blocks, Issued s stream filter TABLE_MAX_ROWS →
    (stream, terminal) ∈ (ledger s.log).terminals → terminal.kind = .completed →
    FromStream d s.opts stream filter ((ledger s.log).sentOn stream) blocks →
    blocks.length = ((ledger s.log).sentOn stream).length → countOf blocks < TABLE_MAX_ROWS →
    ∀ id, D.Passes filter id → ∃ block ∈ blocks, ∃ u ∈ block.ids, (u.toNat : Int) = id

/-- The members a click leaves. -/
def membersAfter (members : SelectionMembers) (click : SelectionClick) : SelectionMembers :=
  (applySelectionMode members click.mode click.id click.input).members

def clicked (clicks : List SelectionClick) : SelectionMembers := clicks.foldl membersAfter NO_MEMBERS

/-! ### What is known -/

/-- A member was there, or is what the click kept. -/
theorem get_membersAfter {members : SelectionMembers} {click : SelectionClick} {id : Int}
    {m : SelectionMember} (h : (membersAfter members click).get id = some m) :
    members.get id = some m ∨ id = click.id ∧ m = memberOf click.input := by
  have hset : ∀ base : SelectionMembers, (base.set click.id (memberOf click.input)).get id = some m →
      base.get id = some m ∨ id = click.id ∧ m = memberOf click.input := by
    intro base hget
    rw [OrderedMap.get_set] at hget
    split at hget
    · next hid => exact .inr ⟨hid, (Option.some.inj hget).symm⟩
    · exact .inl hget
  have hclicked := clicked_applySelectionMode click members
  rw [← membersAfter] at hclicked
  generalize membersAfter members click = after at h hclicked
  cases hclicked with
  | same => exact .inl h
  | left =>
    rw [OrderedMap.get_delete] at h
    split at h
    · cases h
    · exact .inl h
  | joined habsent hroom => exact hset members h
  | alone hmode hother =>
    rcases hset NO_MEMBERS h with hget | hclick
    · cases hget
    · exact .inr hclick

/-- What a member was first selected with. -/
theorem exists_click {clicks : List SelectionClick} {id : Int} {m : SelectionMember}
    (h : (clicked clicks).get id = some m) : ∃ c ∈ clicks, id = c.id ∧ m = memberOf c.input := by
  induction clicks using List.reverseRecOn with
  | nil => cases h
  | append_singleton clicks c ih =>
    rw [clicked, List.foldl_append] at h
    rcases get_membersAfter h with hget | hclick
    · exact exists_snoc (ih hget)
    · exact ⟨c, mem_snoc, hclick⟩

theorem mem_starts {log : List Entry} {p : Nat × Option Filter} :
    p ∈ (ledger log).starts ↔ .started p.1 p.2 ∈ log := by
  induction log using List.reverseRecOn with
  | nil => exact ⟨nofun, nofun⟩
  | append_singleton log e ih =>
    rw [ledger_snoc, List.mem_append, List.mem_singleton, ← ih]
    cases e <;> simp [Ledger.note, Prod.ext_iff]

/-- The ticket of the latest start is of a query with its filter. -/
theorem Asked.issued (h : Asked s) {mine : Nat} {filter : Option Filter} {stream : String}
    (hlatest : (ledger s.log).latest = some (mine, filter))
    (hminted : (mine, stream) ∈ (ledger s.log).minted) : Issued s stream filter TABLE_MAX_ROWS := by
  have hticket := mem_minted.1 hminted
  obtain ⟨filter', hstart, hquery⟩ := h.minted mine stream hticket
  have hlast := mem_starts.1 (List.mem_of_getLast? hlatest)
  rw [h.single mine filter' filter hstart hlast] at hquery
  exact ⟨mine, _, _, hquery, hticket⟩

variable {D : Dataset} {delivered : Option Filter → Int → Prop}

/-- A row the table shows was delivered under the table's filter. -/
theorem delivered_of_shown (hrun : Shown s ∧ Asked s ∧ ∃ t, Good d t ∧ Beside t s)
    (h : Delivers D delivered d s) {u : UInt64} (hu : u ∈ s.snapshot.ids) :
    delivered s.snapshot.filter u.toNat := by
  obtain ⟨hshown, hasked, t, hgood, phase, refusal, snapshot, rfl, -⟩ := hrun
  rw [hshown] at hu ⊢
  change u ∈ t.idSet at hu
  change delivered t.filter u.toNat
  rw [(Sound.rows hgood).idSet_eq, List.mem_toFinset, List.mem_flatMap] at hu
  obtain ⟨block, hblock, hu⟩ := hu
  rcases Sound.source hgood with hnil | ⟨mine, filter, stream, hlatest, hminted, hfrom⟩
  · rw [hnil] at hblock
    cases hblock
  · obtain ⟨i, hi⟩ := List.mem_iff_getElem?.1 hblock
    obtain ⟨payload, hsent, hdecode⟩ := hfrom i block hi
    have hfilter : t.filter = filter := by
      rw [Sound.filter hgood, hlatest]
      rfl
    rw [hfilter]
    exact h.sent stream filter _ (hasked.issued hlatest hminted) i payload block hsent hdecode u hu

/-- A complete result has every row that passes its filter. -/
theorem shown_of_passes (hrun : Shown s ∧ Asked s ∧ ∃ t, Good d t ∧ Beside t s)
    (h : Delivers D delivered d s) (hcomplete : resultIsComplete s.snapshot = true) {id : Int}
    (hid : D.Passes s.snapshot.filter id) : s.snapshot.hasId id = true := by
  obtain ⟨hshown, hasked, t, hgood, phase, refusal, snapshot, rfl, hphase⟩ := hrun
  rw [hshown] at hcomplete hid ⊢
  obtain ⟨hcompleted, hcount⟩ := of_decide_eq_true hcomplete
  obtain ⟨mine, filter, stream, terminal, hlatest, hminted, hterminal, hkind, hfrom, hlength⟩ :=
    Sound.completed hgood (hphase hcompleted)
  have hfilter : t.filter = filter := by
    rw [Sound.filter hgood, hlatest]
    rfl
  change D.Passes t.filter id at hid
  rw [hfilter] at hid
  change t.count < TABLE_MAX_ROWS at hcount
  rw [(Sound.rows hgood).count_eq] at hcount
  obtain ⟨block, hblock, u, hu, hsame⟩ := h.all stream filter terminal t.blocks
    (hasked.issued hlatest hminted) hterminal hkind hfrom hlength hcount id hid
  refine decide_eq_true ⟨u, ?_, hsame⟩
  change u ∈ t.idSet
  rw [(Sound.rows hgood).idSet_eq, List.mem_toFinset, List.mem_flatMap]
  exact ⟨block, hblock, hu⟩

/-- **What is said of a member is known**: in every run of the table's source, and for every selection,
filter and set of features resident under it, each member is listed, failed or not established, a
listed one passes the filter, and a failed one does not. -/
theorem secondScope_known {opts : TableSourceOptions} {es : List Event}
    (hs : runFrom (step d) (.new opts) es = some s) (h : Delivers D delivered d s)
    {clicks : List SelectionClick} (hclicks : ∀ c ∈ clicks, delivered c.input.filter c.id)
    (viewFilter : Option Filter) {residentUnderView : Finset Int}
    (hresident : ∀ id ∈ residentUnderView, delivered viewFilter id) :
    let members := clicked clicks
    let those := fun v => membersOf v members viewFilter s.snapshot residentUnderView
    secondScope members viewFilter s.snapshot residentUnderView =
        ⟨those .listed, (those .failed).length, (those .notEstablished).length⟩ ∧
      (those .listed ++ those .failed ++ those .notEstablished).Perm members.keys ∧
      members.keys.Nodup ∧ (those .listed).Sublist members.keys ∧
      (∀ id ∈ those .listed, D.Passes viewFilter id) ∧
      ∀ id ∈ those .failed, ¬D.Passes viewFilter id := by
  have hrun := run_beside hs
  -- A member was captured under the filter it keeps.
  have hmember : ∀ id m, (clicked clicks).get id = some m → delivered m.filter id := by
    intro id m hget
    obtain ⟨c, hc, rfl, rfl⟩ := exists_click hget
    exact hclicks c hc
  refine ⟨secondScope_eq _ _ _ _, perm_membersOf _ _ _ _, (clicked clicks).nodup,
    List.filter_sublist.map _, fun id hid => ?_, fun id hid hpasses => ?_⟩
  · obtain ⟨m, hget, hv⟩ := mem_membersOf.1 hid
    rw [verdict] at hv
    split at hv
    · next hlisted =>
      rcases hlisted with hnone | hsame | hmem | hshows
      · -- With no filter a member is a feature.
        have hpasses := h.only _ _ (hmember id m hget)
        rw [hnone]
        cases hfilter : m.filter with
        | none =>
          rw [hfilter] at hpasses
          exact hpasses
        | some filter =>
          rw [hfilter] at hpasses
          exact hpasses.1
      · rw [← sameFilter_iff.1 hsame]
        exact h.only _ _ (hmember id m hget)
      · exact h.only _ _ (hresident id hmem)
      · rw [Bool.and_eq_true] at hshows
        obtain ⟨u, hu, rfl⟩ := of_decide_eq_true hshows.2
        rw [← sameFilter_iff.1 hshows.1]
        exact h.only _ _ (delivered_of_shown hrun h hu)
    · split at hv
      · cases hv
      · cases hv
  · obtain ⟨m, hget, hv⟩ := mem_membersOf.1 hid
    rw [verdict] at hv
    split at hv
    · cases hv
    · next hlisted =>
      split at hv
      · next hcomplete =>
        rw [Bool.and_eq_true] at hcomplete
        rw [← sameFilter_iff.1 hcomplete.1] at hpasses
        have hhas := shown_of_passes hrun h hcomplete.2 hpasses
        exact hlisted (.inr (.inr (.inr (Bool.and_eq_true_iff.2 ⟨hcomplete.1, hhas⟩))))
      · cases hv

/-- One town, which is not large. -/
def smallTown : Dataset := ⟨{7}, fun _ _ => False⟩

/-- It was clicked while no filter was in force. -/
def townClick : SelectionClick := ⟨.add, 7, ⟨⟨.zero, .zero, .zero, .zero⟩, .unprojected, none⟩⟩

/-- The stream of the query for the large towns ends without a batch. -/
def noneLarge : List Event :=
  reattached ++ [.terminal ⟨"b", some large, 0⟩ ⟨.completed, ""⟩]

/-- The complete result for the large towns lacks it. -/
theorem secondScope_known_small : ∃ s, runFrom (step unreadable) (.new townsOptions) noneLarge = some s ∧
    secondScope (clicked [townClick]) (some large) s.snapshot ∅ = ⟨[], 1, 0⟩ ∧
    ∀ id ∈ membersOf .failed (clicked [townClick]) (some large) s.snapshot ∅,
      ¬smallTown.Passes (some large) id := by
  obtain ⟨s, hs⟩ : ∃ s, runFrom (step unreadable) (.new townsOptions) noneLarge = some s := ⟨_, rfl⟩
  have hlog : (runFrom (step unreadable) (.new townsOptions) noneLarge).map State.log = some
      [.started 1 none, .viewportQuery 1 "towns" TABLE_MAX_ROWS none none, .minted 1 "a",
        .dataPlaneAttach 1, .attachRejected 1 (.other "no data plane"), .skpCancel "a",
        .started 2 (some large), .viewportQuery 2 "towns" TABLE_MAX_ROWS (some large) none,
        .minted 2 "b", .dataPlaneAttach 2, .startStream ⟨"ws", "v", "tok"⟩ "b",
        .terminal "b" ⟨.completed, ""⟩] := rfl
  have hsnapshot : (runFrom (step unreadable) (.new townsOptions) noneLarge).map State.snapshot =
      some ⟨.completed, some large, 0, ∅, none, [], []⟩ := rfl
  rw [hs, Option.map_some, Option.some.injEq] at hlog hsnapshot
  have hdelivers : Delivers smallTown (fun filter id => filter = none ∧ id = 7) unreadable s := by
    constructor
    · rintro filter id ⟨rfl, rfl⟩
      exact Set.mem_singleton 7
    · intro stream filter limit _ i payload block hsent
      rw [hlog] at hsent
      cases hsent
    · rintro stream filter terminal blocks ⟨mine, dataset, columns, hquery, hminted⟩ hterminal - - - - id hid
      rw [hlog] at hquery hminted hterminal
      -- The one stream that ended was issued for the large towns.
      obtain ⟨rfl, rfl⟩ := Prod.mk.inj (List.mem_singleton.1 hterminal)
      simp at hminted
      subst hminted
      simp at hquery
      obtain ⟨-, rfl, -⟩ := hquery
      exact hid.2.elim
  have hclicks : ∀ c ∈ [townClick], c.input.filter = none ∧ c.id = 7 := by
    intro c hc
    rw [List.mem_singleton.1 hc]
    exact ⟨rfl, rfl⟩
  have hresident : ∀ id ∈ (∅ : Finset Int), some large = none ∧ id = 7 :=
    fun id hid => absurd hid (Finset.notMem_empty id)
  have hknown := secondScope_known hs hdelivers hclicks (some large) hresident
  refine ⟨s, hs, ?_, hknown.2.2.2.2.2⟩
  rw [hsnapshot]
  decide +kernel

end SpatialIde.Shell.Table.TableSource
