import SpatialIde.Shell.App.InForce
import SpatialIde.Shell.Workspace.WorkspaceState.Invariants

/-! # The ids of the cards

A new card takes the next number of the view as it was last rendered, and keeps it while its query
waits for the throttle.  A filter that is committed meanwhile takes the same number.
-/

namespace SpatialIde.Shell.App

open Streaming Workspace
open Streaming.ViewportStreamManager (Await Answer Request)

/-- A card of this id and this text was handed out. -/
def Given (log : List Entry) (clause : FilterClause) : Prop :=
  ∃ c ∈ handedOut log, c.id = clause.id ∧ c.text = clause.text

/-- **An id is of one text.** -/
def OneText (log : List Entry) : Prop :=
  ∀ c ∈ handedOut log, ∀ c' ∈ handedOut log, c.id = c'.id → c.text = c'.text

/-- The cards that the answer commits were handed out before, or are numbered from the next number
of the view on. -/
def NumberKept (s : State) : Event → Prop
  | .answer (.dataPlaneAttach request k) (.attached _) _ _ =>
    s.manager.sessionEnded = false → request.myGeneration = s.manager.generation →
      ∀ call, holder s.calls (.dataPlaneAttach request k) = some call → call.recovering = false →
        ∀ clauses, call.transition = .filterClausesSet clauses →
          ∀ c ∈ clauses, viewNextClauseNumber s.view ≤ c.id.number ∨ Given s.log c
  | _ => True

/-! ### Numbers -/

/-- Every card has been handed out, the one that a call adds apart. -/
structure Numbered (s : State) : Prop where
  below : ∀ c ∈ handedOut s.log, c.id.number < viewNextClauseNumber s.view
  view : ∀ c ∈ viewClauses s.view, Given s.log c
  rendered : ∀ c ∈ viewClauses s.rendered, Given s.log c
  calls : ∀ call ∈ s.calls, ∀ clauses, call.transition = .filterClausesSet clauses →
    ∃ added : FilterClause, ∀ c ∈ clauses, Given s.log c ∨ c = added

variable {s s' : State} {e : Event} {call : ApplyCall} {sink : ViewportStreamManager.Sink}

theorem Given.lt (h : Numbered s) {c : FilterClause} (hc : Given s.log c) :
    c.id.number < viewNextClauseNumber s.view := by
  obtain ⟨c', hc', hid, -⟩ := hc
  rw [← hid]
  exact h.below c' hc'

theorem Given.mono {log log' : List Entry} {c : FilterClause} (h : Given log c)
    (hlog : handedOut log ⊆ handedOut log') : Given log' c := by
  obtain ⟨c', hc', heq⟩ := h
  exact ⟨c', hlog hc', heq⟩

theorem Keeps.numbered (h : Keeps s s') (hs : Numbered s) : Numbered s' := by
  have hclauses : viewClauses s'.view = viewClauses s.view := congrArg (·.2.1) h.view
  have hnext : viewNextClauseNumber s'.view = viewNextClauseNumber s.view :=
    congrArg (·.2.2) h.view
  have hgiven : ∀ c, Given s.log c → Given s'.log c :=
    fun c hc => hc.mono (h.handedOut ▸ List.Subset.refl _)
  refine ⟨?_, ?_, ?_, ?_⟩
  · rw [h.handedOut, hnext]
    exact hs.below
  · rw [hclauses]
    exact fun c hc => hgiven c (hs.view c hc)
  · rcases h.rendered with hrendered | hrendered
    · rw [hrendered]
      exact fun c hc => hgiven c (hs.rendered c hc)
    · rw [hrendered]
      exact fun c hc => hgiven c (hs.view c hc)
  · intro call hcall clauses hclauses
    rcases h.calls call hcall with ⟨old, hold, heq⟩ | hchanges
    · obtain ⟨added, hadded⟩ := hs.calls old hold clauses (heq.trans hclauses)
      exact ⟨added, fun c hc => (hadded c hc).imp (hgiven c) id⟩
    · obtain ⟨added, hadded⟩ := hchanges clauses hclauses
      refine ⟨added, fun c hc => (hadded c hc).imp ?_ id⟩
      rintro ⟨old, hold, hid, htext⟩
      obtain ⟨c', hc', hid', htext'⟩ := hgiven old (hs.rendered old hold)
      exact ⟨c', hc', hid'.trans hid, htext'.trans htext⟩

theorem Commits.handedOut (h : Commits s e s' call sink) :
    handedOut s'.log = handedOut s.log ++ viewClauses s'.view := by
  rw [h.log]
  simp [App.handedOut, Entry.clauses]

/-- The cards of the view are numbered below its next number. -/
theorem Numbered.lt_next (hs : Numbered s) (t : ViewTransition) :
    ∀ c ∈ viewClauses (applyViewTransition s.view t),
      c.id.number < viewNextClauseNumber (applyViewTransition s.view t) := by
  cases hsets : setsFilter t with
  | false =>
    have hpart := filterPart_applyViewTransition s.view hsets
    have hclauses : viewClauses (applyViewTransition s.view t) = viewClauses s.view :=
      congrArg (·.2.1) hpart
    have hnext : viewNextClauseNumber (applyViewTransition s.view t) =
        viewNextClauseNumber s.view := congrArg (·.2.2) hpart
    rw [hclauses, hnext]
    exact fun c hc => (hs.view c hc).lt hs
  | true =>
    cases t with
    | filterApply filter =>
      cases filter with
      | none => nofun
      | some filter =>
        intro c hc
        rw [List.mem_singleton.1 hc]
        exact Nat.lt_succ_self _
    | filterClausesSet clauses => exact (le_nextClauseNumber clauses _).2
    | _ => cases hsets

theorem Commits.numbered (h : Commits s e s' call sink) (hs : Numbered s) : Numbered s' := by
  have hold : App.handedOut s.log ⊆ App.handedOut s'.log := by
    rw [h.handedOut]
    exact List.subset_append_left _ _
  refine ⟨?_, ?_, ?_, ?_⟩
  · intro c hc
    rw [h.handedOut] at hc
    rw [h.view] at hc ⊢
    rcases List.mem_append.1 hc with hc | hc
    · exact Nat.lt_of_lt_of_le (hs.below c hc) (viewNextClauseNumber_le s.view call.transition)
    · exact hs.lt_next call.transition c hc
  · intro c hc
    refine ⟨c, ?_, rfl, rfl⟩
    rw [h.handedOut]
    exact List.mem_append_right _ hc
  · rw [h.rendered]
    exact fun c hc => (hs.rendered c hc).mono hold
  · intro call hcall clauses hclauses
    obtain ⟨added, hadded⟩ := hs.calls call (h.calls hcall) clauses hclauses
    exact ⟨added, fun c hc => (hadded c hc).imp (·.mono hold) id⟩

/-- The cards that are committed: given before, or one card numbered from the next number on. -/
theorem Commits.fresh (h : Commits s e s' call sink) (hs : Numbered s) (hkept : NumberKept s e) :
    ∃ added : FilterClause, ∀ c ∈ viewClauses s'.view, Given s.log c ∨
      c = added ∧ viewNextClauseNumber s.view ≤ c.id.number := by
  have hcall : call ∈ s.calls := by
    obtain ⟨request, k, attach, refused, nowMs, -, hholder, -⟩ := h.awaited
    exact (holder_eq_some hholder).1
  rw [h.view]
  cases ht : call.transition with
  | filterApply filter =>
    cases filter with
    | none => exact ⟨⟨⟨0⟩, "", true⟩, nofun⟩
    | some filter =>
      refine ⟨⟨⟨viewNextClauseNumber s.view⟩, filter.predicate, true⟩, fun c hc => .inr ?_⟩
      rw [List.mem_singleton.1 hc]
      exact ⟨rfl, Nat.le_refl _⟩
  | filterClausesSet clauses =>
    obtain ⟨added, hadded⟩ := hs.calls call hcall clauses ht
    obtain ⟨request, k, attach, refused, nowMs, rfl, hholder, hlatest⟩ := h.awaited
    refine ⟨added, fun c hc => ?_⟩
    rcases hkept h.ended hlatest call hholder h.primary clauses ht c hc with hnext | hgiven
    · exact (hadded c hc).imp id fun heq => ⟨heq, hnext⟩
    · exact .inl hgiven
  | _ =>
    have hpart := filterPart_applyViewTransition s.view (t := call.transition) (by rw [ht]; rfl)
    rw [ht] at hpart
    have hclauses := congrArg (·.2.1) hpart
    dsimp only [filterPart] at hclauses
    rw [hclauses]
    exact ⟨⟨⟨0⟩, "", true⟩, fun c hc => .inl (hs.view c hc)⟩

/-- **A commit under the condition** gives no id to a second text. -/
theorem Commits.oneText (h : Commits s e s' call sink) (hs : Numbered s) (hone : OneText s.log)
    (hkept : NumberKept s e) : OneText s'.log := by
  obtain ⟨added, hadded⟩ := h.fresh hs hkept
  have hcases : ∀ c ∈ App.handedOut s'.log, Given s.log c ∨
      c = added ∧ viewNextClauseNumber s.view ≤ c.id.number := by
    intro c hc
    rw [h.handedOut] at hc
    rcases List.mem_append.1 hc with hc | hc
    · exact .inl ⟨c, hc, rfl, rfl⟩
    · exact hadded c hc
  intro c hc c' hc' hid
  rcases hcases c hc with hgiven | ⟨rfl, hnext⟩
  · rcases hcases c' hc' with hgiven' | ⟨-, hnext⟩
    · obtain ⟨d, hd, hdid, hdtext⟩ := hgiven
      obtain ⟨d', hd', hdid', hdtext'⟩ := hgiven'
      rw [← hdtext, ← hdtext']
      exact hone d hd d' hd' (hdid.trans (hid.trans hdid'.symm))
    · have hlt := hgiven.lt hs
      rw [hid] at hlt
      omega
  · rcases hcases c' hc' with hgiven | ⟨heq, -⟩
    · have hlt := hgiven.lt hs
      rw [← hid] at hlt
      omega
    · rw [heq]

/-! ### Runs -/

section

variable {dataset : String} {columns : Option (List String)} {view : ViewState} {nowMs : Int}
  {es : List Event}

theorem sound_opened (dataset : String) (columns : Option (List String)) (view : ViewState)
    (nowMs : Int) : Sound (.opened dataset columns view nowMs) := by
  have hnew : Plays (.new dataset columns) [] [] none :=
    { serial := ViewportStreamManager.serial_new dataset columns
      last := fun sink hsink => absurd hsink (Option.some_ne_none sink).symm
      since := fun _ hsink => absurd hsink List.not_mem_nil
      generations_nodup := List.nodup_nil
      held := fun _ hcall => absurd hcall List.not_mem_nil
      mine := fun _ ha => absurd ha List.not_mem_nil }
  have hbound : Sound {
      manager := .new dataset columns
      activeFilter := none
      view := view.rebind dataset
      rendered := view.rebind dataset
      lastViewportBbox := none
      debounced := none
      clausePending := false
      calls := []
      log := [] } := ⟨⟨fun _ hc => absurd hc List.not_mem_nil, rfl, rfl⟩, hnew⟩
  exact hbound.keeps_issue none nowMs

theorem handedOut_opened (dataset : String) (columns : Option (List String)) (view : ViewState)
    (nowMs : Int) : handedOut (State.opened dataset columns view nowMs).log = [] := rfl

theorem numbered_opened (dataset : String) (columns : Option (List String)) (view : ViewState)
    (nowMs : Int) : Numbered (.opened dataset columns view nowMs) where
  below := by
    rw [handedOut_opened]
    exact fun _ hc => absurd hc List.not_mem_nil
  view := fun _ hc => absurd hc List.not_mem_nil
  rendered := fun _ hc => absurd hc List.not_mem_nil
  calls := fun _ hc => absurd hc List.not_mem_nil

theorem sound_of_run (hrun : Lib.runFrom step (.opened dataset columns view nowMs) es = some s) :
    Sound s :=
  Lib.runFrom_keeps_all (sound_opened dataset columns view nowMs)
    (fun _ _ _ h hstep => (h.step hstep).1) hrun

/-- **A run whose steps meet the condition** gives no id to two texts. -/
theorem oneText_of_run (hmeets : Lib.Meets step NumberKept (.opened dataset columns view nowMs) es)
    (hrun : Lib.runFrom step (.opened dataset columns view nowMs) es = some s) : OneText s.log := by
  have hkept : Sound s ∧ Numbered s ∧ OneText s.log := by
    refine Lib.runFrom_keeps (I := fun s => Sound s ∧ Numbered s ∧ OneText s.log) ?_ ?_ hmeets hrun
    · refine ⟨sound_opened _ _ _ _, numbered_opened _ _ _ _, ?_⟩
      exact fun _ hc => absurd hc List.not_mem_nil
    · rintro t e t' ⟨hsound, hnumbered, hone⟩ hok hstep
      obtain ⟨hsound', hkeeps | ⟨call, sink, hcommits⟩⟩ := hsound.step hstep
      · refine ⟨hsound', hkeeps.numbered hnumbered, ?_⟩
        rw [OneText, hkeeps.handedOut]
        exact hone
      · exact ⟨hsound', hcommits.numbered hnumbered, hcommits.oneText hnumbered hone hok⟩
  exact hkept.2.2

end

/-- A step commits nothing, or it starts a stream and commits the filter of that stream. -/
def OnlyIssued (s s' : State) : Prop :=
  (s'.activeFilter = s.activeFilter ∧ filterPart s'.view = filterPart s.view) ∨
    ∃ sink, s'.log = s.log ++ [.started sink, .committed sink.filter (viewClauses s'.view)] ∧
      s'.activeFilter = sink.filter

/-- **The filter in force is the filter on the map**, in every state of every run; it is committed
with the stream of its query only; and, if every card that is committed has kept its number, an id
is of one text. -/
theorem inForce_of_run (dataset : String) (columns : Option (List String)) (view : ViewState)
    (nowMs : Int) (es : List Event) (s : State)
    (hrun : Lib.runFrom step (.opened dataset columns view nowMs) es = some s) :
    InForce s ∧ (∀ e s', step s e = some s' → OnlyIssued s s') ∧
      (Lib.Meets step NumberKept (.opened dataset columns view nowMs) es → OneText s.log) := by
  have hsound := sound_of_run hrun
  refine ⟨hsound.inForce, fun e s' hstep => ?_, fun hmeets => oneText_of_run hmeets hrun⟩
  obtain ⟨-, hkeeps | ⟨call, sink, hcommits⟩⟩ := hsound.step hstep
  · exact .inl ⟨hkeeps.activeFilter, hkeeps.view⟩
  · exact .inr ⟨sink, hcommits.log, hcommits.activeFilter⟩

/-- A view with a dataset opened in it at one second. -/
def OPENED : State := .opened "d" none (.mint ⟨1⟩ "d") 1000

def ATTACH : ViewportStreamManager.Answer := .attached ⟨"ws://127.0.0.1", "a", "b"⟩

/-- A card is added. -/
def ADDED : List Event :=
  let request : Request := ⟨2, none, none, some ⟨"a > 1", FILTER_DIALECT_DUCKDB_EXPR_0⟩⟩
  [.changeClauses (.add "a > 1") 1200,
    .answer (.supersedeCurrent request) .done false 1201,
    .answer (.viewportQuery request) (.minted "h") false 1202,
    .answer (.dataPlaneAttach request "h") ATTACH false 1203]

/-- The call that waits for the last answer of these. -/
def ADDING : ApplyCall :=
  let filter : Option Canvas.Filter := some ⟨"a > 1", FILTER_DIALECT_DUCKDB_EXPR_0⟩
  { newFilter := filter
    transition := .filterClausesSet [⟨⟨1⟩, "a > 1", true⟩]
    clauseStep := some (.add ⟨1⟩)
    recovering := false
    retried := false
    await := some (.dataPlaneAttach ⟨2, none, none, filter⟩ "h") }

theorem inForce_of_run_added : ∃ s, Lib.runFrom step OPENED ADDED = some s ∧
    s.activeFilter = some ⟨"a > 1", FILTER_DIALECT_DUCKDB_EXPR_0⟩ ∧ InForce s ∧ OneText s.log := by
  have hrun : (Lib.runFrom step OPENED ADDED).map (·.activeFilter) =
      some (some ⟨"a > 1", FILTER_DIALECT_DUCKDB_EXPR_0⟩) := by
    decide +kernel
  have hbefore : (Lib.runFrom step OPENED (ADDED.take 3)).map
      (fun s => (s.calls, viewNextClauseNumber s.view)) = some ([ADDING], 1) := by
    decide +kernel
  obtain ⟨s, hs, hactive⟩ := Option.map_eq_some_iff.1 hrun
  obtain ⟨hforce, -, hone⟩ := inForce_of_run "d" none (.mint ⟨1⟩ "d") 1000 ADDED s hs
  refine ⟨s, hs, hactive, hforce, hone ?_⟩
  intro pre e post t hes ht
  rcases pre with _ | ⟨_, _ | ⟨_, _ | ⟨_, _ | ⟨_, pre⟩⟩⟩⟩
  · cases hes
    trivial
  · cases hes
    trivial
  · cases hes
    trivial
  · cases hes
    obtain ⟨t', ht', heq⟩ := Option.map_eq_some_iff.1 hbefore
    obtain rfl : t' = t := Option.some.inj (ht'.symm.trans ht)
    rw [Prod.mk.injEq] at heq
    obtain ⟨hcalls, hnext⟩ := heq
    intro _ _ call hholder _ clauses hclauses c hc
    rw [hcalls] at hholder
    obtain rfl : call = ADDING := List.mem_singleton.1 (holder_eq_some hholder).1
    cases hclauses
    rw [List.mem_singleton.1 hc, hnext]
    exact .inl (Nat.le_refl 1)
  · simp [ADDED] at hes

/-- A card is added less than the interval after the first look, an Apply of the panel is issued and
committed before the retry of the card. -/
def OVERTAKEN : List Event :=
  let first : Request := ⟨1, none, none, none⟩
  let panel : Request := ⟨2, none, none, some ⟨"b > 2", FILTER_DIALECT_DUCKDB_EXPR_0⟩⟩
  let filter : Option Canvas.Filter := some ⟨"a > 1", FILTER_DIALECT_DUCKDB_EXPR_0⟩
  let card : Request := ⟨3, none, none, filter⟩
  [.changeClauses (.add "a > 1") 1119,
    .apply "b > 2" 1120,
    .answer (.supersedeCurrent first) .done false 1121,
    .answer (.supersedeCurrent panel) .done false 1121,
    .answer (.viewportQuery panel) (.minted "h") false 1130,
    .answer (.dataPlaneAttach panel "h") ATTACH false 1140,
    .render,
    .retry ⟨filter, .filterClausesSet [⟨⟨1⟩, "a > 1", true⟩], some (.add ⟨1⟩), false, true, none⟩
      1240,
    .answer (.cancelPrevious (some card)) .done false 1241,
    .answer (.supersedeCurrent card) .done false 1241,
    .answer (.viewportQuery card) (.minted "k") false 1250,
    .answer (.dataPlaneAttach card "k") ATTACH false 1260]

/-- The first id is given to both texts, and no query is pending in the end. -/
theorem card_overtaken : ∃ s, Lib.runFrom step OPENED OVERTAKEN = some s ∧
    s.manager.awaiting = [] ∧ s.calls = [] ∧ ¬ OneText s.log := by
  have hrun : (Lib.runFrom step OPENED OVERTAKEN).map
      (fun s => (s.manager.awaiting, s.calls, handedOut s.log)) =
        some ([], [], [⟨⟨1⟩, "b > 2", true⟩, ⟨⟨1⟩, "a > 1", true⟩]) := by
    decide +kernel
  obtain ⟨s, hs, heq⟩ := Option.map_eq_some_iff.1 hrun
  rw [Prod.mk.injEq, Prod.mk.injEq] at heq
  obtain ⟨hawaiting, hcalls, hcards⟩ := heq
  refine ⟨s, hs, hawaiting, hcalls, fun hone => ?_⟩
  rw [OneText, hcards] at hone
  have htexts := hone ⟨⟨1⟩, "b > 2", true⟩ (by simp) ⟨⟨1⟩, "a > 1", true⟩ (by simp) rfl
  exact absurd htexts (by decide)

end SpatialIde.Shell.App
