import SpatialIde.Lib.Runs
import SpatialIde.Shell.Workspace.WorkspaceState

/-! # What holds of the workspace

Every view's filter is what its cards combine to, its selection stays within the ceiling and keeps
what each member was clicked with, and a resource is closed once, when nothing holds it.
-/

namespace SpatialIde.Shell.Workspace

open Lib Canvas

def run (es : List WorkspaceAction) : WorkspaceState := es.foldl workspaceReducer initialWorkspaceState

theorem run_snoc (es : List WorkspaceAction) (a : WorkspaceAction) :
    run (es ++ [a]) = workspaceReducer (run es) a := List.foldl_append

/-! ### One view -/

structure ViewSound (view : ViewState) : Prop where
  filter : view.filter = combineClauses (viewClauses view)
  ids : ((viewClauses view).map FilterClause.id).Nodup
  below : ∀ clause ∈ viewClauses view, clause.id.number < viewNextClauseNumber view
  size : (viewSelection view).size ≤ SELECTION_MAX_FEATURES
  pinned : viewPinned view = true → (viewInspected view).isSome

/-- A filter is of the one dialect there is, and a list of cards repeats no id. -/
def ViewTransition.WellFormed : ViewTransition → Prop
  | filterApply (some filter) => filter.dialect = FILTER_DIALECT_DUCKDB_EXPR_0
  | filterClausesSet clauses => (clauses.map FilterClause.id).Nodup
  | _ => True

theorem viewSound_mint (id : ViewId) (key : ResourceKey) : ViewSound (.mint id key) where
  filter := rfl
  ids := List.nodup_nil
  below := nofun
  size := Nat.zero_le _
  pinned := nofun

theorem le_nextClauseNumber (clauses : List FilterClause) (next : Nat) :
    next ≤ nextClauseNumber next clauses ∧
      ∀ clause ∈ clauses, clause.id.number < nextClauseNumber next clauses := by
  induction clauses generalizing next with
  | nil => exact ⟨Nat.le_refl _, nofun⟩
  | cons clause clauses ih =>
    obtain ⟨hle, hlt⟩ := ih (max next (clause.id.number + 1))
    refine ⟨Nat.le_trans (Nat.le_max_left _ _) hle, ?_⟩
    intro c hc
    rcases List.mem_cons.1 hc with rfl | hc
    · exact Nat.lt_of_lt_of_le (Nat.lt_succ_self _) (Nat.le_trans (Nat.le_max_right _ _) hle)
    · exact hlt c hc

/-- What a click does to the members: nothing, or the feature leaves, joins, or is selected alone. -/
inductive Clicked (click : SelectionClick) (members : SelectionMembers) : SelectionMembers → Prop
  | same : Clicked click members members
  | left : Clicked click members (members.delete click.id)
  | joined : members.get click.id = none → members.size < SELECTION_MAX_FEATURES →
      Clicked click members (members.set click.id (memberOf click.input))
  | alone : click.mode = .replace → (members.get click.id = none ∨ members.size ≠ 1) →
      Clicked click members (NO_MEMBERS.set click.id (memberOf click.input))

/-- The members an outcome comes with. -/
def SelectionOutcome.members : SelectionOutcome → SelectionMembers
  | changed members => members
  | unchanged members => members
  | refused members _ => members

theorem clicked_withMember {click : SelectionClick} {members : SelectionMembers}
    (habsent : members.get click.id = none) :
    Clicked click members (withMember members click.id click.input).members := by
  rw [withMember]
  split
  · exact .same
  · next hroom => exact .joined habsent (by omega)

theorem clicked_applySelectionMode (click : SelectionClick) (members : SelectionMembers) :
    Clicked click members
      (applySelectionMode members click.mode click.id click.input).members := by
  rcases hmember : members.get click.id with _ | member
  · cases hmode : click.mode with
    | toggle => simpa [applySelectionMode, hmember] using clicked_withMember hmember
    | replace =>
      simp only [applySelectionMode, hmember]
      exact .alone hmode (.inl hmember)
    | add => simpa [applySelectionMode, hmember] using clicked_withMember hmember
    | remove =>
      simp only [applySelectionMode, hmember]
      exact .same
  · cases hmode : click.mode with
    | toggle =>
      simp only [applySelectionMode, hmember]
      exact .left
    | replace =>
      by_cases hone : members.size = 1
      · simp only [applySelectionMode, hmember, hone]
        exact .same
      · simp only [applySelectionMode, hmember, hone]
        exact .alone hmode (.inr hone)
    | add =>
      simp only [applySelectionMode, hmember]
      exact .same
    | remove =>
      simp only [applySelectionMode, hmember]
      exact .left

/-- A click changes the selection of a view and the notice, and nothing else. -/
theorem applySelection_eq (view : ViewState) (click : SelectionClick) :
    ∃ selection notice, applySelection view click =
      { view with selection := selection, selectionNotice := notice } ∧
      Clicked click (viewSelection view) (selection.getD NO_MEMBERS) := by
  have hclicked := clicked_applySelectionMode click (viewSelection view)
  rw [applySelection]
  split
  · next members refusal heq => exact ⟨view.selection, _, rfl, .same⟩
  · next members heq =>
    rw [heq] at hclicked
    exact ⟨some members, none, rfl, hclicked⟩
  · next members heq =>
    rw [heq] at hclicked
    split
    · exact ⟨view.selection, view.selectionNotice, rfl, .same⟩
    · exact ⟨some members, none, rfl, hclicked⟩

/-- The selection stays within the ceiling. -/
theorem Clicked.size_le {click : SelectionClick} {members members' : SelectionMembers}
    (h : Clicked click members members') (hsize : members.size ≤ SELECTION_MAX_FEATURES) :
    members'.size ≤ SELECTION_MAX_FEATURES := by
  cases h with
  | same => exact hsize
  | left => exact Nat.le_trans (OrderedMap.size_delete_le members click.id) hsize
  | joined habsent hroom =>
    rw [OrderedMap.size_set_of_absent habsent]
    exact hroom
  | alone hmode habsent =>
    rw [OrderedMap.size_set_of_absent rfl]
    decide

/-- The end of a selection leaves it empty, with a notice or without. -/
theorem selectionEnd_eq (view : ViewState) (reason : SelectionEndReason) (dropped : Nat) :
    ∃ selection notice, applyViewTransition view (.selectionEnd reason dropped) =
      { view with selection := selection, selectionNotice := notice } ∧
      (selection.getD NO_MEMBERS).size = 0 := by
  simp only [applyViewTransition]
  generalize (if 0 < dropped then some (SelectionNotice.ended reason dropped) else none) = notice
  split
  · next h => exact ⟨view.selection, view.selectionNotice, rfl, h.1⟩
  · exact ⟨some NO_MEMBERS, notice, rfl, rfl⟩

theorem inspectNone_eq (view : ViewState) :
    ∃ pinned, applyViewTransition view (.inspectSet none) =
      { view with inspected := none, pinned := pinned } ∧ pinned.getD false = false := by
  rw [applyViewTransition]
  split
  · next h =>
    refine ⟨view.pinned, ?_, h.2⟩
    rw [← show view.inspected = none from h.1]
  · exact ⟨some false, rfl, rfl⟩

/-- A transition keeps what holds of a view. -/
theorem ViewSound.applyViewTransition {view : ViewState} (h : ViewSound view) {t : ViewTransition}
    (ht : t.WellFormed) : ViewSound (applyViewTransition view t) := by
  cases t with
  | filterApply filter =>
    cases filter with
    | none => exact { h with filter := rfl, ids := List.nodup_nil, below := nofun }
    | some filter =>
      exact {
        h with
        filter := by
          change some filter = combineClauses [⟨⟨viewNextClauseNumber view⟩, filter.predicate, true⟩]
          rw [combineClauses_alone rfl, ← show filter.dialect = _ from ht]
        ids := List.nodup_singleton _
        below := by
          intro clause hclause
          rw [List.mem_singleton.1 hclause]
          exact Nat.lt_succ_self _ }
  | filterClausesSet clauses =>
    exact {
      h with
      filter := rfl
      ids := ht
      below := (le_nextClauseNumber clauses (viewNextClauseNumber view)).2 }
  | styleSet set => exact { h with }
  | toolSet tool =>
    rw [Workspace.applyViewTransition]
    split
    · exact h
    · exact { h with }
  | modeSet mode =>
    rw [Workspace.applyViewTransition]
    split
    · exact h
    · exact { h with }
  | selectionApply click =>
    obtain ⟨selection, notice, heq, hclicked⟩ := applySelection_eq view click
    rw [Workspace.applyViewTransition, heq]
    exact { h with size := hclicked.size_le h.size }
  | selectionClear =>
    rw [Workspace.applyViewTransition]
    split
    · exact h
    · exact { h with size := Nat.zero_le _ }
  | selectionEnd reason dropped =>
    obtain ⟨selection, notice, heq, hempty⟩ := selectionEnd_eq view reason dropped
    rw [heq]
    exact { h with size := Nat.le_trans (Nat.le_of_eq hempty) (Nat.zero_le _) }
  | inspectSet feature =>
    cases feature with
    | none =>
      obtain ⟨pinned, heq, hunpinned⟩ := inspectNone_eq view
      rw [heq]
      exact { h with
        pinned := fun hpinned => by
          rw [show pinned.getD false = true from hpinned] at hunpinned
          cases hunpinned }
    | some feature => exact { h with pinned := fun _ => rfl }
  | inspectPin pinned =>
    rw [Workspace.applyViewTransition]
    split
    · exact h
    · exact { h with pinned := fun hpinned => (Bool.and_eq_true_iff.1 hpinned).2 }

/-! ### What a transition leaves as it is -/

theorem resource_applyViewTransition (view : ViewState) (t : ViewTransition) :
    (applyViewTransition view t).resource = view.resource := by
  cases t with
  | filterApply filter => cases filter <;> rfl
  | selectionApply click =>
    obtain ⟨selection, notice, heq, -⟩ := applySelection_eq view click
    rw [applyViewTransition, heq]
  | inspectSet feature =>
    cases feature with
    | none =>
      obtain ⟨pinned, heq, -⟩ := inspectNone_eq view
      rw [heq]
    | some feature => rfl
  | toolSet tool => rw [applyViewTransition]; split <;> rfl
  | modeSet mode => rw [applyViewTransition]; split <;> rfl
  | selectionClear => rw [applyViewTransition]; split <;> rfl
  | selectionEnd reason dropped =>
    obtain ⟨selection, notice, heq, -⟩ := selectionEnd_eq view reason dropped
    rw [heq]
  | inspectPin pinned => rw [applyViewTransition]; split <;> rfl
  | _ => rfl

/-- The number of the next card does not go down. -/
theorem viewNextClauseNumber_le (view : ViewState) (t : ViewTransition) :
    viewNextClauseNumber view ≤ viewNextClauseNumber (applyViewTransition view t) := by
  cases t with
  | filterApply filter =>
    cases filter with
    | none => exact Nat.le_refl _
    | some filter => exact Nat.le_succ _
  | filterClausesSet clauses => exact (le_nextClauseNumber clauses _).1
  | selectionApply click =>
    obtain ⟨selection, notice, heq, -⟩ := applySelection_eq view click
    rw [applyViewTransition, heq]
    exact Nat.le_refl _
  | inspectSet feature =>
    cases feature with
    | none =>
      obtain ⟨pinned, heq, -⟩ := inspectNone_eq view
      rw [heq]
      exact Nat.le_refl _
    | some feature => exact Nat.le_refl _
  | toolSet tool => rw [applyViewTransition]; split <;> exact Nat.le_refl _
  | modeSet mode => rw [applyViewTransition]; split <;> exact Nat.le_refl _
  | selectionClear => rw [applyViewTransition]; split <;> exact Nat.le_refl _
  | selectionEnd reason dropped =>
    obtain ⟨selection, notice, heq, -⟩ := selectionEnd_eq view reason dropped
    rw [heq]
    exact Nat.le_refl _
  | inspectPin pinned => rw [applyViewTransition]; split <;> exact Nat.le_refl _
  | _ => exact Nat.le_refl _

/-- The end of a generation leaves nothing selected, nothing inspected and nothing pinned. -/
theorem endViewGeneration_eq (view : ViewState) (reason : SelectionEndReason) :
    ∃ selection notice pinned, endViewGeneration view reason =
      { view with
        selection := selection, selectionNotice := notice, inspected := none, pinned := pinned } ∧
      (selection.getD NO_MEMBERS).size = 0 ∧ pinned.getD false = false := by
  obtain ⟨selection, notice, heq, hempty⟩ := selectionEnd_eq view reason (viewSelection view).size
  obtain ⟨pinned, hclear, hunpinned⟩ :=
    inspectNone_eq { view with selection := selection, selectionNotice := notice }
  refine ⟨selection, notice, pinned, ?_, hempty, hunpinned⟩
  rw [endViewGeneration, heq, hclear]

theorem resource_endViewGeneration (view : ViewState) (reason : SelectionEndReason) :
    (endViewGeneration view reason).resource = view.resource := by
  obtain ⟨selection, notice, pinned, heq, -⟩ := endViewGeneration_eq view reason
  rw [heq]

theorem endViewGeneration_empty (view : ViewState) (reason : SelectionEndReason) :
    (viewSelection (endViewGeneration view reason)).size = 0 ∧
      viewInspected (endViewGeneration view reason) = none := by
  obtain ⟨selection, notice, pinned, heq, hempty, -⟩ := endViewGeneration_eq view reason
  rw [heq]
  exact ⟨hempty, rfl⟩

theorem ViewSound.endViewGeneration {view : ViewState} (h : ViewSound view)
    (reason : SelectionEndReason) : ViewSound (endViewGeneration view reason) := by
  obtain ⟨selection, notice, pinned, heq, hempty, hunpinned⟩ := endViewGeneration_eq view reason
  rw [heq]
  exact {
    h with
    size := Nat.le_trans (Nat.le_of_eq hempty) (Nat.zero_le _)
    pinned := fun hpinned => by
      rw [show pinned.getD false = true from hpinned] at hunpinned
      cases hunpinned }

/-- A view that is bound to another open keeps its style, its tools and the number of its cards. -/
theorem ViewSound.rebind {view : ViewState} (h : ViewSound view) (key : ResourceKey) :
    ViewSound (view.rebind key) := by
  rw [ViewState.rebind]
  split
  · exact { h with filter := rfl, ids := List.nodup_nil, below := nofun }
  · exact { h.endViewGeneration .reopened with
      filter := rfl, ids := List.nodup_nil, below := nofun }

/-! ### The workspace -/

/-- A view is bound to the resource. -/
def Bound (s : WorkspaceState) (key : ResourceKey) : Prop :=
  ∃ id view, s.views.get id = some view ∧ view.resource = key

/-- The generation of the resource has ended. -/
def Ended (s : WorkspaceState) (key : ResourceKey) : Prop :=
  ∃ entry, s.resources.get key = some entry ∧ entry.generationEnded = true

/-- What the actions promise: an admitted handle is fresh, a consumer is acquired on a resource that is
bound and released by its owner, where that is a view only on a resource the view is not bound to, a
resource is closed when it is offered, and nothing is selected or inspected once the generation has
ended. -/
def Allowed (s : WorkspaceState) : WorkspaceAction → Prop
  | .resourceAdmitted a => s.resources.get a.dataset = none
  | .resourceGenerationEnded _ => True
  | .consumerAcquired key _ => Bound s key
  | .consumerReleased key consumer =>
    ∀ id view, consumer = .view id → s.views.get id = some view → view.resource ≠ key
  | .resourceClosed key => key ∈ selectClosable s
  | .viewTransition id (.selectionApply _) =>
    ∀ view, s.views.get id = some view → ¬Ended s view.resource
  | .viewTransition id (.inspectSet (some _)) =>
    ∀ view, s.views.get id = some view → ¬Ended s view.resource
  | .viewTransition _ _ => True

def WorkspaceAction.WellFormed : WorkspaceAction → Prop
  | viewTransition _ transition => transition.WellFormed
  | _ => True

/-- The one view of the workspace and the resources it and the export runs hold. -/
structure Sound (s : WorkspaceState) (id : ViewId) (view : ViewState) : Prop where
  drawn : s.drawOrder = [id]
  held : s.views.get id = some view
  only : ∀ other, other ≠ id → s.views.get other = none
  intact : ViewSound view
  bound : ∃ entry, s.resources.get view.resource = some entry
  listed : ∀ key entry, s.resources.get key = some entry →
    entry.consumers.count (.view id) = if key = view.resource then 1 else 0
  free : ∀ key entry, s.resources.get key = some entry → entry.closed = true →
    entry.consumers = []
  ended : Ended s view.resource → (viewSelection view).size = 0 ∧ viewInspected view = none

/-- Before the first admission there is nothing. -/
structure Unopened (s : WorkspaceState) : Prop where
  drawn : s.drawOrder = []
  views : ∀ id, s.views.get id = none
  resources : ∀ key, s.resources.get key = none

theorem unopened_initial : Unopened initialWorkspaceState := ⟨rfl, fun _ => rfl, fun _ => rfl⟩

theorem mem_selectClosable {s : WorkspaceState} {key : ResourceKey} :
    key ∈ selectClosable s ↔
      ∃ entry, s.resources.get key = some entry ∧ entry.consumers = [] ∧ entry.closed = false := by
  rw [selectClosable, List.mem_map]
  constructor
  · rintro ⟨⟨k, entry⟩, hmem, rfl⟩
    obtain ⟨hentry, hfree⟩ := List.mem_filter.1 hmem
    rw [Bool.and_eq_true, List.isEmpty_iff, Bool.not_eq_true'] at hfree
    exact ⟨entry, OrderedMap.mem_entries.1 hentry, hfree⟩
  · rintro ⟨entry, hentry, hconsumers, hclosed⟩
    refine ⟨(key, entry), List.mem_filter.2 ⟨OrderedMap.mem_entries.2 hentry, ?_⟩, rfl⟩
    rw [Bool.and_eq_true, List.isEmpty_iff, Bool.not_eq_true']
    exact ⟨hconsumers, hclosed⟩

theorem Unopened.withResource {s : WorkspaceState} (h : Unopened s) (key : ResourceKey)
    (change : ResourceEntry → ResourceEntry) : Workspace.withResource s key change = s := by
  rw [Workspace.withResource, h.resources key]

/-- Everything but an admission finds nothing to change. -/
theorem Unopened.reduce {s : WorkspaceState} (h : Unopened s) {a : WorkspaceAction}
    (ha : ∀ admission, a ≠ .resourceAdmitted admission) : workspaceReducer s a = s := by
  cases a with
  | resourceAdmitted a => exact absurd rfl (ha a)
  | resourceGenerationEnded key => rw [workspaceReducer, endGeneration, h.resources key]
  | consumerAcquired key consumer => exact h.withResource key _
  | consumerReleased key consumer => exact h.withResource key _
  | resourceClosed key => exact h.withResource key _
  | viewTransition id t => rw [workspaceReducer, h.views id]

/-- The first admission mints the view. -/
theorem Unopened.admitted {s : WorkspaceState} (h : Unopened s) (a : Admitted) :
    Sound (Workspace.admitted s a) ⟨s.nextViewNumber⟩ (.mint ⟨s.nextViewNumber⟩ a.dataset) := by
  have hkey := h.resources a.dataset
  have hget : ∀ key, (s.resources.set a.dataset
      ⟨a, false, [.view ⟨s.nextViewNumber⟩], false⟩).get key =
        if key = a.dataset then some ⟨a, false, [.view ⟨s.nextViewNumber⟩], false⟩ else none := by
    intro key
    rw [OrderedMap.get_set, h.resources key]
  have heq : Workspace.admitted s a =
      ⟨s.views.set ⟨s.nextViewNumber⟩ (.mint ⟨s.nextViewNumber⟩ a.dataset),
        s.resources.set a.dataset ⟨a, false, [.view ⟨s.nextViewNumber⟩], false⟩,
        [⟨s.nextViewNumber⟩], s.nextViewNumber + 1⟩ := by
    simp only [Workspace.admitted, h.drawn, hkey, Option.getD_none, List.nil_append]
  rw [heq]
  exact {
    drawn := rfl
    held := OrderedMap.get_set_self _ _ _
    only := fun other hother => by rw [OrderedMap.get_set_of_ne _ _ hother, h.views]
    intact := viewSound_mint _ _
    bound := ⟨_, (hget a.dataset).trans (if_pos rfl)⟩
    listed := by
      intro key entry hentry
      rw [hget] at hentry
      split at hentry
      · next hsame =>
        cases hentry
        exact (List.count_singleton_self).trans (if_pos hsame).symm
      · cases hentry
    free := by
      intro key entry hentry hclosed
      rw [hget] at hentry
      split at hentry
      · cases hentry
        cases hclosed
      · cases hentry
    ended := fun _ => ⟨rfl, rfl⟩ }

namespace Sound

variable {s : WorkspaceState} {id : ViewId} {view : ViewState}

/-- A change of one resource that keeps the view's place in it. -/
theorem withResource (h : Sound s id view) {key : ResourceKey}
    {change : ResourceEntry → ResourceEntry}
    (hcount : ∀ entry, s.resources.get key = some entry →
      (change entry).consumers.count (.view id) = entry.consumers.count (.view id))
    (hfree : ∀ entry, s.resources.get key = some entry → (change entry).closed = true →
      (change entry).consumers = [])
    (hended : ∀ entry, (change entry).generationEnded = entry.generationEnded) :
    Sound (Workspace.withResource s key change) id view := by
  rw [Workspace.withResource]
  split
  · exact h
  · next old hold =>
    exact {
      h with
      bound := by
        obtain ⟨entry, hentry⟩ := h.bound
        by_cases hkey : view.resource = key
        · exact ⟨change old, by rw [hkey, OrderedMap.get_set_self]⟩
        · exact ⟨entry, by rw [OrderedMap.get_set_of_ne _ _ hkey]; exact hentry⟩
      listed := by
        intro key' entry hentry
        rw [OrderedMap.get_set] at hentry
        split at hentry
        · next hkey =>
          cases hentry
          rw [hcount old hold, h.listed key old hold, hkey]
        · exact h.listed key' entry hentry
      free := by
        intro key' entry hentry hclosed
        rw [OrderedMap.get_set] at hentry
        split at hentry
        · cases hentry
          exact hfree old hold hclosed
        · exact h.free key' entry hentry hclosed
      ended := by
        rintro ⟨entry, hentry, hover⟩
        refine h.ended ?_
        rw [OrderedMap.get_set] at hentry
        split at hentry
        · next hkey =>
          cases hentry
          exact ⟨old, hkey ▸ hold, (hended old).symm.trans hover⟩
        · exact ⟨entry, hentry, hover⟩ }

/-- The resource of the view is not closed, and the view is among its consumers. -/
theorem entry_of_bound (h : Sound s id view) {entry : ResourceEntry}
    (hentry : s.resources.get view.resource = some entry) :
    ConsumerId.view id ∈ entry.consumers ∧ entry.closed = false := by
  have hcount := h.listed view.resource entry hentry
  rw [if_pos rfl] at hcount
  have hmem : ConsumerId.view id ∈ entry.consumers := List.count_pos_iff.1 (by omega)
  refine ⟨hmem, ?_⟩
  rcases hclosed : entry.closed with _ | _
  · rfl
  · rw [h.free _ entry hentry hclosed] at hmem
    cases hmem

theorem of_bound (h : Sound s id view) {key : ResourceKey} (hbound : Bound s key) :
    key = view.resource := by
  obtain ⟨other, bound, hget, hkey⟩ := hbound
  by_cases hother : other = id
  · rw [hother, h.held, Option.some.injEq] at hget
    rw [← hkey, hget]
  · rw [h.only other hother] at hget
    cases hget

theorem acquire (h : Sound s id view) {key : ResourceKey} (hbound : Bound s key)
    (consumer : ConsumerId) :
    Sound (workspaceReducer s (.consumerAcquired key consumer)) id view := by
  refine h.withResource ?_ ?_ ?_
  · intro entry hentry
    rw [h.of_bound hbound] at hentry
    obtain ⟨hmem, -⟩ := h.entry_of_bound hentry
    rw [ResourceEntry.join]
    split
    · rfl
    · next hnew =>
      have hother : consumer ≠ .view id := fun heq => hnew (heq ▸ hmem)
      rw [List.count_append, List.count_singleton]
      simp [hother]
  · intro entry hentry hclosed
    rw [h.of_bound hbound] at hentry
    obtain ⟨-, hopen⟩ := h.entry_of_bound hentry
    rw [ResourceEntry.join] at hclosed
    split at hclosed
    · rw [hopen] at hclosed
      cases hclosed
    · rw [show entry.closed = true from hclosed] at hopen
      cases hopen
  · intro entry
    rw [ResourceEntry.join]
    split <;> rfl

theorem release (h : Sound s id view) {key : ResourceKey} {consumer : ConsumerId}
    (howner : ∀ other held, consumer = .view other → s.views.get other = some held →
      held.resource ≠ key) :
    Sound (workspaceReducer s (.consumerReleased key consumer)) id view := by
  refine h.withResource ?_ ?_ fun _ => rfl
  · intro entry hentry
    change (entry.consumers.filter _).count (.view id) = entry.consumers.count (.view id)
    by_cases hview : consumer = .view id
    · -- The view is not among the consumers of a resource it is not bound to.
      have hnone : entry.consumers.count (.view id) = 0 := by
        rw [h.listed key entry hentry, if_neg (Ne.symm (howner id view hview h.held))]
      rw [hnone]
      exact List.count_eq_zero.2 fun hmem => List.count_eq_zero.1 hnone (List.mem_filter.1 hmem).1
    · exact List.count_filter (decide_eq_true (Ne.symm hview))
  · intro entry hentry hclosed
    change entry.consumers.filter _ = []
    rw [h.free key entry hentry hclosed]
    rfl

theorem close (h : Sound s id view) {key : ResourceKey} (hclosable : key ∈ selectClosable s) :
    Sound (workspaceReducer s (.resourceClosed key)) id view := by
  obtain ⟨offered, hoffered, hconsumers, -⟩ := mem_selectClosable.1 hclosable
  refine h.withResource (fun _ _ => rfl) ?_ fun _ => rfl
  intro entry hentry _
  rw [hoffered, Option.some.injEq] at hentry
  exact hentry ▸ hconsumers

/-- The view changes in place. -/
theorem update (h : Sound s id view) {view' : ViewState} (hsound : ViewSound view')
    (hresource : view'.resource = view.resource)
    (hended : Ended s view.resource → (viewSelection view').size = 0 ∧ viewInspected view' = none) :
    Sound { s with views := s.views.set id view' } id view' where
  drawn := h.drawn
  held := OrderedMap.get_set_self _ _ _
  only other hother := by rw [OrderedMap.get_set_of_ne _ _ hother, h.only other hother]
  intact := hsound
  bound := by rw [hresource]; exact h.bound
  listed := by rw [hresource]; exact h.listed
  free := h.free
  ended := by rw [hresource]; exact hended

/-- A transition of a view whose generation has ended selects and inspects nothing. -/
theorem empty_of_ended {t : ViewTransition}
    (hallowed : Allowed s (.viewTransition id t)) (hheld : s.views.get id = some view)
    (hended : Ended s view.resource)
    (hempty : (viewSelection view).size = 0 ∧ viewInspected view = none) :
    (viewSelection (applyViewTransition view t)).size = 0 ∧
      viewInspected (applyViewTransition view t) = none := by
  cases t with
  | filterApply filter => cases filter <;> exact hempty
  | selectionApply click => exact absurd hended (hallowed view hheld)
  | inspectSet feature =>
    cases feature with
    | none =>
      obtain ⟨pinned, heq, -⟩ := inspectNone_eq view
      rw [heq]
      exact ⟨hempty.1, rfl⟩
    | some feature => exact absurd hended (hallowed view hheld)
  | toolSet tool => rw [applyViewTransition]; split <;> exact hempty
  | modeSet mode => rw [applyViewTransition]; split <;> exact hempty
  | selectionClear =>
    rw [applyViewTransition]
    split
    · exact hempty
    · exact ⟨rfl, hempty.2⟩
  | selectionEnd reason dropped =>
    obtain ⟨selection, notice, heq, hnone⟩ := selectionEnd_eq view reason dropped
    rw [heq]
    exact ⟨hnone, hempty.2⟩
  | inspectPin pinned => rw [applyViewTransition]; split <;> exact hempty
  | _ => exact hempty

theorem transition (h : Sound s id view) {other : ViewId} {t : ViewTransition}
    (hallowed : Allowed s (.viewTransition other t)) (ht : t.WellFormed) :
    ∃ view', Sound (workspaceReducer s (.viewTransition other t)) id view' := by
  by_cases hother : other = id
  · subst hother
    refine ⟨applyViewTransition view t, ?_⟩
    rw [workspaceReducer, h.held]
    exact h.update (h.intact.applyViewTransition ht) (resource_applyViewTransition view t)
      fun hended => empty_of_ended hallowed h.held hended (h.ended hended)
  · refine ⟨view, ?_⟩
    rw [workspaceReducer, h.only other hother]
    exact h

/-- The generation of a resource ends, and with it what is selected and inspected in the view. -/
theorem endGeneration (h : Sound s id view) (key : ResourceKey) :
    ∃ view', Sound (Workspace.endGeneration s key) id view' := by
  rw [Workspace.endGeneration]
  split
  · exact ⟨view, h⟩
  · next old hold =>
    split
    · exact ⟨view, h⟩
    · have hget : ∀ k, (s.resources.set key { old with generationEnded := true }).get k =
          if k = key then some { old with generationEnded := true } else s.resources.get k :=
        fun k => OrderedMap.get_set _ _ _ k
      have hviews : ∀ other, (s.views.mapValues fun v =>
          if v.resource = key then endViewGeneration v .sourceChanged else v).get other =
            (s.views.get other).map fun v =>
              if v.resource = key then endViewGeneration v .sourceChanged else v :=
        fun other => OrderedMap.get_mapValues _ _ other
      have hresource : (if view.resource = key then endViewGeneration view .sourceChanged
          else view).resource = view.resource := by
        split
        · exact resource_endViewGeneration view .sourceChanged
        · rfl
      refine ⟨if view.resource = key then endViewGeneration view .sourceChanged else view, ?_⟩
      exact {
        drawn := h.drawn
        held := by rw [hviews, h.held]; rfl
        only := fun other hother => by rw [hviews, h.only other hother]; rfl
        intact := by
          split
          · exact h.intact.endViewGeneration .sourceChanged
          · exact h.intact
        bound := by
          obtain ⟨entry, hentry⟩ := h.bound
          rw [hresource]
          by_cases hkey : view.resource = key
          · exact ⟨_, (hget _).trans (if_pos hkey)⟩
          · exact ⟨entry, (hget _).trans ((if_neg hkey).trans hentry)⟩
        listed := by
          intro k entry hentry
          rw [hresource]
          rw [hget] at hentry
          split at hentry
          · next hk =>
            cases hentry
            rw [hk]
            exact h.listed key old hold
          · exact h.listed k entry hentry
        free := by
          intro k entry hentry hclosed
          rw [hget] at hentry
          split at hentry
          · cases hentry
            exact h.free key old hold hclosed
          · exact h.free k entry hentry hclosed
        ended := by
          rintro ⟨entry, hentry, hover⟩
          rw [hresource, hget] at hentry
          split
          · exact endViewGeneration_empty view .sourceChanged
          · next hkey =>
            rw [if_neg hkey] at hentry
            exact h.ended ⟨entry, hentry, hover⟩ }

/-- The view is bound to a fresh open and leaves the one it was bound to. -/
theorem admitted (h : Sound s id view) {a : Admitted}
    (hfresh : s.resources.get a.dataset = none) :
    Sound (Workspace.admitted s a) id (view.rebind a.dataset) := by
  obtain ⟨old, hold⟩ := h.bound
  have hne : view.resource ≠ a.dataset := by
    intro heq
    rw [heq, hfresh] at hold
    cases hold
  have heq : Workspace.admitted s a =
      { s with
        views := s.views.set id (view.rebind a.dataset)
        resources := (s.resources.set view.resource (old.leave (.view id))).set a.dataset
          ⟨a, false, [.view id], false⟩ } := by
    simp only [Workspace.admitted, h.drawn, h.held, hold, hfresh, Option.getD_none]
    rw [if_pos hne]
    rfl
  have hget : ∀ key, ((s.resources.set view.resource (old.leave (.view id))).set a.dataset
      ⟨a, false, [.view id], false⟩).get key =
        if key = a.dataset then some ⟨a, false, [.view id], false⟩
        else if key = view.resource then some (old.leave (.view id)) else s.resources.get key := by
    intro key
    rw [OrderedMap.get_set, OrderedMap.get_set]
  have hempty : (viewSelection (view.rebind a.dataset)).size = 0 ∧
      viewInspected (view.rebind a.dataset) = none := by
    rw [ViewState.rebind, if_neg hne]
    exact endViewGeneration_empty view .reopened
  rw [heq]
  exact {
    drawn := h.drawn
    held := OrderedMap.get_set_self _ _ _
    only := fun other hother => by rw [OrderedMap.get_set_of_ne _ _ hother, h.only other hother]
    intact := h.intact.rebind a.dataset
    bound := ⟨_, (hget a.dataset).trans (if_pos rfl)⟩
    listed := by
      intro key entry hentry
      change _ = if key = a.dataset then 1 else 0
      rw [hget] at hentry
      split at hentry
      · next hkey =>
        cases hentry
        rw [if_pos hkey]
        exact List.count_singleton_self
      · next hkey =>
        rw [if_neg hkey]
        split at hentry
        · cases hentry
          refine List.count_eq_zero.2 fun hmem => ?_
          exact absurd rfl (of_decide_eq_true (List.mem_filter.1 hmem).2)
        · next hother => rw [h.listed key entry hentry, if_neg hother]
    free := by
      intro key entry hentry hclosed
      rw [hget] at hentry
      split at hentry
      · cases hentry
        cases hclosed
      · split at hentry
        · cases hentry
          change old.consumers.filter _ = []
          rw [h.free _ old hold hclosed]
          rfl
        · exact h.free key entry hentry hclosed
    ended := fun _ => hempty }

/-- Every action the promises allow keeps what holds of the workspace. -/
theorem step (h : Sound s id view) {a : WorkspaceAction} (hallowed : Allowed s a)
    (ha : a.WellFormed) : ∃ view', Sound (workspaceReducer s a) id view' := by
  cases a with
  | resourceAdmitted a => exact ⟨_, h.admitted hallowed⟩
  | resourceGenerationEnded key => exact h.endGeneration key
  | consumerAcquired key consumer => exact ⟨view, h.acquire hallowed consumer⟩
  | consumerReleased key consumer => exact ⟨view, h.release hallowed⟩
  | resourceClosed key => exact ⟨view, h.close hallowed⟩
  | viewTransition other t => exact h.transition hallowed ha

end Sound

/-- Every action of a run meets the promises where it comes. -/
def Kept (es : List WorkspaceAction) : Prop :=
  ∀ pre a post, es = pre ++ a :: post → Allowed (run pre) a

theorem Kept.init {es : List WorkspaceAction} {a : WorkspaceAction} (h : Kept (es ++ [a])) :
    Kept es ∧ Allowed (run es) a := by
  refine ⟨fun pre b post heq => ?_, h es a [] rfl⟩
  exact h pre b (post ++ [a]) (by rw [heq, List.append_assoc]; rfl)

theorem kept_nil : Kept [] := by
  intro pre a post heq
  cases pre <;> cases heq

theorem Kept.snoc {es : List WorkspaceAction} {a : WorkspaceAction} (h : Kept es)
    (ha : Allowed (run es) a) : Kept (es ++ [a]) := by
  intro pre b post heq
  rcases snoc_eq_append_cons heq with ⟨rfl, rfl, rfl⟩ | ⟨post', rfl, rfl⟩
  · exact ha
  · exact h pre b post' rfl

theorem Kept.take {pre post : List WorkspaceAction} (h : Kept (pre ++ post)) : Kept pre := by
  intro pre' b post' heq
  exact h pre' b (post' ++ post) (by rw [heq, List.append_assoc]; rfl)

/-- A run opens nothing, or holds one view. -/
theorem run_sound {es : List WorkspaceAction} (h : Kept es) (hes : ∀ a ∈ es, a.WellFormed) :
    Unopened (run es) ∨ ∃ id view, Sound (run es) id view := by
  induction es using List.reverseRecOn with
  | nil => exact .inl unopened_initial
  | append_singleton es a ih =>
    obtain ⟨hkept, hallowed⟩ := h.init
    have ha := hes a mem_snoc
    rw [run_snoc]
    rcases ih hkept fun b hb => hes b (List.mem_append_left _ hb) with hnone | ⟨id, view, hsound⟩
    · cases a with
      | resourceAdmitted a => exact .inr ⟨_, _, hnone.admitted a⟩
      | _ =>
        rw [hnone.reduce fun _ heq => by cases heq]
        exact .inl hnone
    · obtain ⟨view', hsound'⟩ := hsound.step hallowed ha
      exact .inr ⟨id, view', hsound'⟩

end SpatialIde.Shell.Workspace
