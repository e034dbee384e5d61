import SpatialIde.Shell.Workspace.WorkspaceState.Invariants

/-! # Runs of the workspace

What a run keeps of each member of a selection, the numbers of its cards and the resources it closes.
-/

namespace SpatialIde.Shell.Workspace

open Lib Canvas

variable {s : WorkspaceState} {es : List WorkspaceAction} {a : WorkspaceAction}

/-! ### The members of a selection -/

/-- The members of a view's selection. -/
def selectionOf (s : WorkspaceState) (id : ViewId) : SelectionMembers :=
  (s.views.get id).elim NO_MEMBERS viewSelection

/-- A replace click on a feature that is one of several. -/
def Rejoins (s : WorkspaceState) (id : ViewId) (k : Int) (a : WorkspaceAction) : Prop :=
  ∃ click, a = .viewTransition id (.selectionApply click) ∧ click.mode = .replace ∧ click.id = k ∧
    (selectionOf s id).size ≠ 1

/-- A member is kept as the click left it that it last joined by: it has been selected since, and
kept what it was selected with, as long as no replace click has found it one of several. -/
def Joined (es : List WorkspaceAction) (id : ViewId) (k : Int) (member : SelectionMember) : Prop :=
  ∃ pre click post, es = pre ++ .viewTransition id (.selectionApply click) :: post ∧
    click.id = k ∧ (selectionOf (run pre) id).get k = none ∧
    (∀ post', post' <+: post → ((selectionOf (run (pre ++
      .viewTransition id (.selectionApply click) :: post')) id).get k).isSome) ∧
    ((∀ post₁ a post₂, post = post₁ ++ a :: post₂ → ¬Rejoins (run (pre ++
      .viewTransition id (.selectionApply click) :: post₁)) id k a) →
        member = memberOf click.input)

theorem get_empty_of_size {members : SelectionMembers} (h : members.size = 0) (k : Int) :
    members.get k = none := by
  rw [OrderedMap.get, List.eq_nil_of_length_eq_zero h]
  rfl

theorem selectionOf_set (s : WorkspaceState) (id : ViewId) (view : ViewState) (other : ViewId) :
    selectionOf { s with views := s.views.set id view } other =
      if other = id then viewSelection view else selectionOf s other := by
  simp only [selectionOf, OrderedMap.get_set]
  split <;> rfl

/-- What a click leaves was there before, or is what it was clicked with. -/
theorem Clicked.get_cases {click : SelectionClick} {members members' : SelectionMembers}
    (h : Clicked click members members') {k : Int} {member : SelectionMember}
    (hmember : members'.get k = some member) :
    members.get k = some member ∨ (click.id = k ∧ member = memberOf click.input ∧
      (members.get k = none ∨ (click.mode = .replace ∧ members.size ≠ 1))) := by
  cases h with
  | same => exact .inl hmember
  | left =>
    rw [OrderedMap.get_delete] at hmember
    split at hmember
    · cases hmember
    · exact .inl hmember
  | joined habsent hroom =>
    rw [OrderedMap.get_set] at hmember
    split at hmember
    · next hk =>
      cases hmember
      exact .inr ⟨hk.symm, rfl, .inl (hk ▸ habsent)⟩
    · exact .inl hmember
  | alone hmode hother =>
    rw [OrderedMap.get_set] at hmember
    split at hmember
    · next hk =>
      cases hmember
      subst hk
      exact .inr ⟨rfl, rfl, hother.imp_right fun hsize => ⟨hmode, hsize⟩⟩
    · cases hmember

theorem member_transition {view : ViewState} {t : ViewTransition} {k : Int}
    {member : SelectionMember}
    (h : (viewSelection (applyViewTransition view t)).get k = some member) :
    (viewSelection view).get k = some member ∨ ∃ click, t = .selectionApply click ∧
      click.id = k ∧ member = memberOf click.input ∧
      ((viewSelection view).get k = none ∨
        (click.mode = .replace ∧ (viewSelection view).size ≠ 1)) := by
  cases t with
  | filterApply filter => cases filter <;> exact .inl h
  | selectionApply click =>
    obtain ⟨selection, notice, heq, hclicked⟩ := applySelection_eq view click
    rw [applyViewTransition, heq] at h
    exact (hclicked.get_cases h).imp_right fun hjoined => ⟨click, rfl, hjoined⟩
  | inspectSet feature =>
    cases feature with
    | none =>
      obtain ⟨pinned, heq, -⟩ := inspectNone_eq view
      rw [heq] at h
      exact .inl h
    | some feature => exact .inl h
  | selectionClear =>
    rw [applyViewTransition] at h
    split at h
    · exact .inl h
    · cases h
  | selectionEnd reason dropped =>
    obtain ⟨selection, notice, heq, hempty⟩ := selectionEnd_eq view reason dropped
    rw [heq] at h
    have hnone : (selection.getD NO_MEMBERS).get k = some member := h
    rw [get_empty_of_size hempty] at hnone
    cases hnone
  | toolSet tool =>
    rw [applyViewTransition] at h
    split at h <;> exact .inl h
  | modeSet mode =>
    rw [applyViewTransition] at h
    split at h <;> exact .inl h
  | inspectPin pinned =>
    rw [applyViewTransition] at h
    split at h <;> exact .inl h
  | _ => exact .inl h

theorem member_endViewGeneration {view : ViewState} {reason : SelectionEndReason} {k : Int}
    {member : SelectionMember} :
    (viewSelection (endViewGeneration view reason)).get k ≠ some member := by
  rw [get_empty_of_size (endViewGeneration_empty view reason).1]
  exact nofun

theorem member_rebind {view : ViewState} {key : ResourceKey} {k : Int} {member : SelectionMember}
    (h : (viewSelection (view.rebind key)).get k = some member) :
    (viewSelection view).get k = some member := by
  rw [ViewState.rebind] at h
  split at h
  · exact h
  · exact absurd h member_endViewGeneration

/-- A member after an action was one before it, or the action is the click it joins by. -/
theorem member_step {id : ViewId} {k : Int} {member : SelectionMember}
    (h : (selectionOf (workspaceReducer s a) id).get k = some member) :
    (selectionOf s id).get k = some member ∨
      ∃ click, a = .viewTransition id (.selectionApply click) ∧ click.id = k ∧
        member = memberOf click.input ∧
        ((selectionOf s id).get k = none ∨ Rejoins s id k a) := by
  have hsame : ∀ key change, (selectionOf (withResource s key change) id).get k = some member →
      (selectionOf s id).get k = some member := by
    intro key change hmember
    rw [withResource] at hmember
    split at hmember <;> exact hmember
  cases a with
  | consumerAcquired key consumer => exact .inl (hsame _ _ h)
  | consumerReleased key consumer => exact .inl (hsame _ _ h)
  | resourceClosed key => exact .inl (hsame _ _ h)
  | resourceGenerationEnded key =>
    rw [workspaceReducer, endGeneration] at h
    split at h
    · exact .inl h
    · split at h
      · exact .inl h
      · simp only [selectionOf, OrderedMap.get_mapValues] at h ⊢
        cases hview : s.views.get id with
        | none =>
          rw [hview] at h
          cases h
        | some view =>
          rw [hview] at h
          simp only [Option.map_some, Option.elim_some] at h
          split at h
          · exact absurd h member_endViewGeneration
          · exact .inl h
  | resourceAdmitted a =>
    rw [workspaceReducer, admitted] at h
    split at h
    · simp only [selectionOf, OrderedMap.get_set] at h ⊢
      split at h
      · cases h
      · exact .inl h
    · split at h
      · exact .inl h
      · next viewId rest hdraw view hview =>
        simp only [selectionOf, OrderedMap.get_set] at h ⊢
        split at h
        · next hid =>
          rw [hid, hview]
          exact .inl (member_rebind h)
        · exact .inl h
  | viewTransition other t =>
    rw [workspaceReducer] at h
    split at h
    · exact .inl h
    · next view hview =>
      rw [selectionOf_set] at h
      split at h
      · next hid =>
        subst hid
        rw [selectionOf, hview, Option.elim_some]
        refine (member_transition h).imp_right ?_
        rintro ⟨click, rfl, hk, hmember, hjoined⟩
        refine ⟨click, rfl, hk, hmember, hjoined.imp_right fun hreplace => ?_⟩
        exact ⟨click, rfl, hreplace.1, hk, by rw [selectionOf, hview]; exact hreplace.2⟩
      · exact .inl h

theorem run_joined (es : List WorkspaceAction) (id : ViewId) (k : Int) (member : SelectionMember)
    (h : (selectionOf (run es) id).get k = some member) : Joined es id k member := by
  induction es using List.reverseRecOn generalizing member with
  | nil => cases h
  | append_singleton es a ih =>
    have hnow := h
    rw [run_snoc] at hnow
    -- The member was there before: it joined then, and stays.
    have hstay : ∀ before, (selectionOf (run es) id).get k = some before →
        (before = member ∨ Rejoins (run es) id k a) → Joined (es ++ [a]) id k member := by
      intro before hbefore hsame
      obtain ⟨pre, click, post, rfl, hk, habsent, hpresent, hmember⟩ := ih before hbefore
      refine ⟨pre, click, post ++ [a], by rw [List.append_assoc]; rfl, hk, habsent, ?_, ?_⟩
      · intro post' hpost'
        rcases List.prefix_concat_iff.1 hpost' with rfl | hpost'
        · rw [List.append_assoc] at h
          exact Option.isSome_iff_exists.2 ⟨member, h⟩
        · exact hpresent post' hpost'
      · intro hnever
        rcases hsame with rfl | hrejoins
        · refine hmember fun post₁ b post₂ hpost => hnever post₁ b (post₂ ++ [a]) ?_
          rw [hpost, List.append_assoc]
          rfl
        · exact absurd hrejoins (hnever post a [] rfl)
    rcases member_step hnow with hbefore | ⟨click, rfl, hk, rfl, habsent | hrejoins⟩
    · exact hstay member hbefore (.inl rfl)
    · refine ⟨es, click, [], rfl, hk, habsent, ?_, fun _ => rfl⟩
      intro post' hpost'
      rw [List.prefix_nil.1 hpost']
      exact Option.isSome_iff_exists.2 ⟨_, h⟩
    · rcases hbefore : (selectionOf (run es) id).get k with _ | before
      · refine ⟨es, click, [], rfl, hk, hbefore, ?_, fun _ => rfl⟩
        intro post' hpost'
        rw [List.prefix_nil.1 hpost']
        exact Option.isSome_iff_exists.2 ⟨_, h⟩
      · exact hstay before hbefore (.inr hrejoins)

/-! ### The numbers of the cards -/

/-- The number of a view's next card. -/
def nextNumberOf (s : WorkspaceState) (id : ViewId) : Nat :=
  (s.views.get id).elim 0 viewNextClauseNumber

theorem viewNextClauseNumber_endViewGeneration (view : ViewState) (reason : SelectionEndReason) :
    viewNextClauseNumber (endViewGeneration view reason) = viewNextClauseNumber view := by
  obtain ⟨selection, notice, pinned, heq, -⟩ := endViewGeneration_eq view reason
  rw [heq]
  rfl

theorem viewNextClauseNumber_rebind (view : ViewState) (key : ResourceKey) :
    viewNextClauseNumber (view.rebind key) = viewNextClauseNumber view := by
  rw [ViewState.rebind]
  split
  · rfl
  · exact viewNextClauseNumber_endViewGeneration view .reopened

/-- A view replaced by one whose number is no lower. -/
theorem nextNumberOf_set {id : ViewId} {view view' : ViewState} (hview : s.views.get id = some view)
    (hle : viewNextClauseNumber view ≤ viewNextClauseNumber view') (other : ViewId) :
    nextNumberOf s other ≤ ((s.views.set id view').get other).elim 0 viewNextClauseNumber := by
  rw [OrderedMap.get_set]
  split
  · next hother =>
    rw [hother, nextNumberOf, hview]
    exact hle
  · exact Nat.le_refl _

theorem nextNumberOf_step (h : Unopened s ∨ ∃ id view, Sound s id view) (id : ViewId) :
    nextNumberOf s id ≤ nextNumberOf (workspaceReducer s a) id := by
  have hsame : ∀ key change, nextNumberOf (withResource s key change) id = nextNumberOf s id := by
    intro key change
    rw [withResource]
    split <;> rfl
  cases a with
  | consumerAcquired key consumer => exact Nat.le_of_eq (hsame _ _).symm
  | consumerReleased key consumer => exact Nat.le_of_eq (hsame _ _).symm
  | resourceClosed key => exact Nat.le_of_eq (hsame _ _).symm
  | resourceGenerationEnded key =>
    rw [workspaceReducer, endGeneration]
    split
    · exact Nat.le_refl _
    · split
      · exact Nat.le_refl _
      · simp only [nextNumberOf, OrderedMap.get_mapValues]
        cases s.views.get id with
        | none => exact Nat.le_refl _
        | some view =>
          simp only [Option.map_some, Option.elim_some]
          split
          · exact Nat.le_of_eq (viewNextClauseNumber_endViewGeneration view _).symm
          · exact Nat.le_refl _
  | resourceAdmitted a =>
    rcases h with hnone | ⟨own, view, hsound⟩
    · rw [nextNumberOf, hnone.views id]
      exact Nat.zero_le _
    · rw [workspaceReducer, admitted, hsound.drawn]
      simp only [hsound.held]
      exact nextNumberOf_set hsound.held
        (Nat.le_of_eq (viewNextClauseNumber_rebind view a.dataset).symm) id
  | viewTransition other t =>
    rw [workspaceReducer]
    split
    · exact Nat.le_refl _
    · next view hview => exact nextNumberOf_set hview (viewNextClauseNumber_le view t) id

theorem nextNumberOf_le {pre post : List WorkspaceAction} (h : Kept (pre ++ post))
    (hes : ∀ a ∈ pre ++ post, a.WellFormed) (id : ViewId) :
    nextNumberOf (run pre) id ≤ nextNumberOf (run (pre ++ post)) id := by
  induction post using List.reverseRecOn with
  | nil => rw [List.append_nil]
  | append_singleton post a ih =>
    rw [← List.append_assoc] at h hes ⊢
    have hinit : ∀ b ∈ pre ++ post, b.WellFormed := fun b hb => hes b (List.mem_append_left _ hb)
    rw [run_snoc]
    exact Nat.le_trans (ih h.take hinit) (nextNumberOf_step (run_sound h.take hinit) id)

/-! ### The resources closed -/

/-- The resource has been closed. -/
def Closed (s : WorkspaceState) (key : ResourceKey) : Prop :=
  ∃ entry, s.resources.get key = some entry ∧ entry.closed = true

theorem closed_withResource {key other : ResourceKey} {change : ResourceEntry → ResourceEntry}
    (hchange : ∀ entry, entry.closed = true → (change entry).closed = true) (h : Closed s other) :
    Closed (withResource s key change) other := by
  obtain ⟨entry, hentry, hclosed⟩ := h
  rw [withResource]
  split
  · exact ⟨entry, hentry, hclosed⟩
  · next old hold =>
    by_cases hkey : other = key
    · rw [hkey, hold, Option.some.injEq] at hentry
      exact ⟨change old, by rw [hkey, OrderedMap.get_set_self], hchange old (hentry ▸ hclosed)⟩
    · exact ⟨entry, by rw [OrderedMap.get_set_of_ne _ _ hkey]; exact hentry, hclosed⟩

/-- A resource that was closed stays so. -/
theorem closed_step (hs : Unopened s ∨ ∃ id view, Sound s id view) (ha : Allowed s a)
    {key : ResourceKey} (h : Closed s key) : Closed (workspaceReducer s a) key := by
  cases a with
  | consumerAcquired other consumer =>
    refine closed_withResource (fun entry hclosed => ?_) h
    rw [ResourceEntry.join]
    split <;> exact hclosed
  | consumerReleased other consumer => exact closed_withResource (fun _ hclosed => hclosed) h
  | resourceClosed other => exact closed_withResource (fun _ _ => rfl) h
  | resourceGenerationEnded other =>
    obtain ⟨entry, hentry, hclosed⟩ := h
    rw [workspaceReducer, endGeneration]
    split
    · exact ⟨entry, hentry, hclosed⟩
    · next old hold =>
      split
      · exact ⟨entry, hentry, hclosed⟩
      · by_cases hkey : key = other
        · rw [hkey, hold, Option.some.injEq] at hentry
          exact ⟨_, (OrderedMap.get_set _ _ _ key).trans (if_pos hkey), hentry ▸ hclosed⟩
        · exact ⟨entry, (OrderedMap.get_set_of_ne _ _ hkey).trans hentry, hclosed⟩
  | resourceAdmitted a =>
    obtain ⟨entry, hentry, hclosed⟩ := h
    rcases hs with hnone | ⟨id, view, hsound⟩
    · rw [hnone.resources key] at hentry
      cases hentry
    · have hfresh : key ≠ a.dataset := by
        rintro rfl
        rw [show s.resources.get a.dataset = none from ha] at hentry
        cases hentry
      have hother : key ≠ view.resource := by
        rintro rfl
        rw [(hsound.entry_of_bound hentry).2] at hclosed
        cases hclosed
      rw [workspaceReducer, admitted, hsound.drawn]
      simp only [hsound.held]
      refine ⟨entry, ?_, hclosed⟩
      rw [OrderedMap.get_set_of_ne _ _ hfresh]
      split
      · split
        · rw [OrderedMap.get_set_of_ne _ _ hother]
          exact hentry
        · exact hentry
      · exact hentry
  | viewTransition other t =>
    rw [workspaceReducer]
    split <;> exact h

theorem closed_run {pre post : List WorkspaceAction} (h : Kept (pre ++ post))
    (hes : ∀ a ∈ pre ++ post, a.WellFormed) {key : ResourceKey} (hclosed : Closed (run pre) key) :
    Closed (run (pre ++ post)) key := by
  induction post using List.reverseRecOn with
  | nil =>
    rw [List.append_nil]
    exact hclosed
  | append_singleton post a ih =>
    rw [← List.append_assoc] at h hes ⊢
    have hinit : ∀ b ∈ pre ++ post, b.WellFormed := fun b hb => hes b (List.mem_append_left _ hb)
    rw [run_snoc]
    exact closed_step (run_sound h.take hinit) h.init.2 (ih h.take hinit)

/-- A resource is closed once. -/
theorem closed_once (h : Kept es) (hes : ∀ a ∈ es, a.WellFormed) {pre post : List WorkspaceAction}
    {key : ResourceKey} (heq : es = pre ++ .resourceClosed key :: post) :
    .resourceClosed key ∉ post := by
  intro hagain
  obtain ⟨post₁, post₂, rfl⟩ := List.append_of_mem hagain
  have hsplit : es = (pre ++ [.resourceClosed key]) ++ post₁ ++ .resourceClosed key :: post₂ := by
    rw [heq, List.append_assoc, List.append_assoc]
    rfl
  have hkept : Kept (pre ++ [.resourceClosed key] ++ post₁) := by
    rw [hsplit] at h
    exact h.take
  have hwell : ∀ a ∈ pre ++ [.resourceClosed key] ++ post₁, a.WellFormed := by
    intro a ha
    exact hes a (hsplit ▸ List.mem_append_left _ ha)
  have hclosed : Closed (run (pre ++ [.resourceClosed key])) key := by
    obtain ⟨entry, hentry, -⟩ := mem_selectClosable.1 (h pre _ _ heq)
    refine ⟨{ entry with closed := true }, ?_, rfl⟩
    rw [run_snoc, workspaceReducer, withResource, hentry]
    exact OrderedMap.get_set_self _ _ _
  obtain ⟨entry, hentry, hover⟩ := closed_run hkept hwell hclosed
  obtain ⟨offered, hoffered, -, hopen⟩ := mem_selectClosable.1 (h _ _ _ hsplit)
  rw [hentry, Option.some.injEq] at hoffered
  rw [← hoffered, hover] at hopen
  cases hopen

/-! ### The workspace over a run -/

/-- What holds of the workspace after a run, and of the run. -/
structure Upheld (es : List WorkspaceAction) : Prop where
  view : ∀ id view, (run es).views.get id = some view → ViewSound view
  member : ∀ id k member, (selectionOf (run es) id).get k = some member → Joined es id k member
  number : ∀ pre post, es = pre ++ post → ∀ id, nextNumberOf (run pre) id ≤ nextNumberOf (run es) id
  bound : ∀ id view, (run es).views.get id = some view →
    ∃ entry, (run es).resources.get view.resource = some entry
  listed : ∀ id view, (run es).views.get id = some view → ∀ key entry,
    (run es).resources.get key = some entry →
      entry.consumers.count (.view id) = if key = view.resource then 1 else 0
  ended : ∀ id view, (run es).views.get id = some view → Ended (run es) view.resource →
    (viewSelection view).size = 0 ∧ viewInspected view = none
  offered : ∀ key, key ∈ selectClosable (run es) ↔
    ∃ entry, (run es).resources.get key = some entry ∧ entry.consumers = [] ∧ entry.closed = false
  free : ∀ key entry, (run es).resources.get key = some entry → entry.closed = true →
    entry.consumers = []
  once : ∀ pre key post, es = pre ++ .resourceClosed key :: post → .resourceClosed key ∉ post

/-- Every run that keeps the promises upholds the workspace. -/
theorem run_upheld (h : Kept es) (hes : ∀ a ∈ es, a.WellFormed) : Upheld es := by
  have hsound := run_sound h hes
  have hone : ∀ id view, (run es).views.get id = some view → Sound (run es) id view := by
    intro id view hview
    rcases hsound with hnone | ⟨own, held, hsound⟩
    · rw [hnone.views id] at hview
      cases hview
    · by_cases hid : id = own
      · subst hid
        rw [hsound.held, Option.some.injEq] at hview
        exact hview ▸ hsound
      · rw [hsound.only id hid] at hview
        cases hview
  exact {
    view := fun id view hview => (hone id view hview).intact
    member := run_joined es
    number := by
      rintro pre post rfl id
      exact nextNumberOf_le h hes id
    bound := fun id view hview => (hone id view hview).bound
    listed := fun id view hview => (hone id view hview).listed
    ended := fun id view hview => (hone id view hview).ended
    offered := fun key => mem_selectClosable
    free := by
      intro key entry hentry
      rcases hsound with hnone | ⟨own, held, hsound⟩
      · rw [hnone.resources key] at hentry
        cases hentry
      · exact hsound.free key entry hentry
    once := fun pre key post heq => closed_once h hes heq }

/-- The one view of these runs. -/
def theView : ViewId := ⟨1⟩

def openTowns : WorkspaceAction := .resourceAdmitted ⟨"towns", "first"⟩

def setFilter (predicate dialect : String) : WorkspaceAction :=
  .viewTransition theView (.filterApply (some ⟨predicate, dialect⟩))

def setCards (clauses : List FilterClause) : WorkspaceAction :=
  .viewTransition theView (.filterClausesSet clauses)

/-- A click on a feature, at a box that starts at `xmin`. -/
def clickAt (mode : SelectionMode) (id : Int) (xmin : UInt64) (row : AttributeRow) :
    WorkspaceAction :=
  .viewTransition theView
    (.selectionApply ⟨mode, id, ⟨⟨xmin⟩, ⟨0⟩, ⟨0⟩, ⟨0⟩⟩, row, none⟩)

/-- A filter is applied, and an export run holds the first open over a reopening. -/
def reopened : List WorkspaceAction :=
  [openTowns, setFilter "area > 10" FILTER_DIALECT_DUCKDB_EXPR_0,
    .consumerAcquired "towns" (.exportRun 1), .resourceAdmitted ⟨"roads", "second"⟩]

/-- The view is released and acquired as at every reopening, and the first open is closed when the
export run lets go of it. -/
theorem run_upheld_reopened : Upheld (reopened ++ [.consumerReleased "towns" (.view theView),
    .consumerAcquired "roads" (.view theView), .consumerReleased "towns" (.exportRun 1),
    .resourceClosed "towns"]) := by
  refine run_upheld ?_ ?_
  · have hopened : Kept [openTowns] := kept_nil.snoc rfl
    have hfiltered : Kept [openTowns, setFilter "area > 10" FILTER_DIALECT_DUCKDB_EXPR_0] :=
      hopened.snoc trivial
    have hheld := hfiltered.snoc (a := .consumerAcquired "towns" (.exportRun 1))
      ⟨theView, _, rfl, rfl⟩
    have hreopened : Kept reopened := hheld.snoc (a := .resourceAdmitted ⟨"roads", "second"⟩) rfl
    -- The view is bound to the second open by now.
    have hbound : ((run reopened).views.get theView).map ViewState.resource = some "roads" := rfl
    have hleft : Allowed (run reopened) (.consumerReleased "towns" (.view theView)) := by
      intro id view hview hget
      cases hview
      rw [hget, Option.map_some, Option.some.injEq] at hbound
      rw [hbound]
      decide
    have hagain := (hreopened.snoc hleft).snoc (a := .consumerAcquired "roads" (.view theView))
      ⟨theView, _, rfl, rfl⟩
    have hreleased := hagain.snoc (a := .consumerReleased "towns" (.exportRun 1)) fun _ _ hview => by
      cases hview
    exact hreleased.snoc (a := .resourceClosed "towns") (List.mem_singleton.2 rfl)
  · intro a ha
    simp only [reopened, List.cons_append, List.nil_append, List.mem_cons, List.not_mem_nil,
      or_false] at ha
    rcases ha with rfl | rfl | rfl | rfl | rfl | rfl | rfl | rfl
    · exact trivial
    · exact rfl
    · exact trivial
    · exact trivial
    · exact trivial
    · exact trivial
    · exact trivial
    · exact trivial

/-- A row of one text that is past the ceiling. -/
def wideRow : List AttributeCell := [⟨"", .text (String.ofList (List.replicate 6000 'a'))⟩]

theorem capturedRow_wide {text : String} (h : utf16Length text = 6000) :
    capturedRow (.cells [⟨"", .text text⟩]) = .cut [] 1 := by
  have hindex : cutIndex 0 [⟨"", .text text⟩] = some 0 := by
    simp only [cutIndex, cellBytes, h]
    exact if_pos (by rw [CAPTURED_ROW_MAX_BYTES]; omega)
  rw [capturedRow, hindex]
  rfl

theorem capturedRow_wideRow : capturedRow (.cells wideRow) ≠ .whole (.cells wideRow) := by
  rw [wideRow, capturedRow_wide]
  · exact nofun
  · rw [utf16Length, String.toList_ofList, List.map_replicate, List.sum_replicate]
    rfl

/-- A click keeps the row as it captures it. -/
theorem selected_row (row : AttributeRow) : ∃ member,
    (selectionOf (run [openTowns, clickAt .add 1 0 row]) theView).get 1 = some member ∧
      member.row = capturedRow row := ⟨_, rfl, rfl⟩

/-- Two features are selected, and a replace click names the first again. -/
def replaced : List WorkspaceAction :=
  [openTowns, clickAt .add 1 0 .unprojected, clickAt .add 2 0 .unprojected,
    clickAt .replace 1 1 .unprojected]

/-- What the actions promise is not enough: a filter of another dialect, cards that share an id, a
feature that is selected anew where it was one of several, and a row past the ceiling. -/
theorem kept_not_upheld :
    (Kept [openTowns, setFilter "area > 10" "sql"] ∧
      ∃ view, (run [openTowns, setFilter "area > 10" "sql"]).views.get theView = some view ∧
        view.filter ≠ combineClauses (viewClauses view)) ∧
    (Kept [openTowns, setCards [⟨⟨1⟩, "a", true⟩, ⟨⟨1⟩, "b", true⟩]] ∧
      ∃ view, (run [openTowns, setCards [⟨⟨1⟩, "a", true⟩, ⟨⟨1⟩, "b", true⟩]]).views.get theView =
        some view ∧ ¬((viewClauses view).map FilterClause.id).Nodup) ∧
    (Kept replaced ∧ ∃ first last,
      (selectionOf (run (replaced.take 2)) theView).get 1 = some first ∧
      (selectionOf (run (replaced.take 3)) theView).get 1 = some first ∧
      (selectionOf (run replaced) theView).get 1 = some last ∧ last.bounds ≠ first.bounds) ∧
    (Kept [openTowns, clickAt .add 1 0 (.cells wideRow)] ∧ ∃ member,
      (selectionOf (run [openTowns, clickAt .add 1 0 (.cells wideRow)]) theView).get 1 =
        some member ∧ member.row ≠ .whole (.cells wideRow)) := by
  have hopened : Kept [openTowns] := kept_nil.snoc rfl
  have hclick : ∀ mode id xmin row, Allowed (run [openTowns]) (clickAt mode id xmin row) := by
    rintro mode id xmin row view hview ⟨entry, hentry, hover⟩
    cases hview
    cases hentry
    cases hover
  refine ⟨⟨hopened.snoc trivial, _, rfl, by decide⟩, ⟨hopened.snoc trivial, _, rfl, by decide⟩,
    ⟨?_, _, _, rfl, rfl, rfl, by decide⟩, ⟨hopened.snoc (hclick _ _ _ _), ?_⟩⟩
  · have hone : Kept [openTowns, clickAt .add 1 0 .unprojected] := hopened.snoc (hclick _ _ _ _)
    have htwo := hone.snoc (a := clickAt .add 2 0 .unprojected) (by
      rintro view hview ⟨entry, hentry, hover⟩
      cases hview
      cases hentry
      cases hover)
    exact htwo.snoc (a := clickAt .replace 1 1 .unprojected) (by
      rintro view hview ⟨entry, hentry, hover⟩
      cases hview
      cases hentry
      cases hover)
  · obtain ⟨member, hmember, hrow⟩ := selected_row (.cells wideRow)
    exact ⟨member, hmember, hrow ▸ capturedRow_wideRow⟩

end SpatialIde.Shell.Workspace
