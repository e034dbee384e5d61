import SpatialIde.Kernel.Permission.Boundary

/-! # What stands between an attempt and its publish

A run of `execute` is the questions it asks with their answers, whatever they are.  The publish is
reached behind an intent record, one grant that covers the facts at both readings of the clock, and
an answer that names the destination (`Authorized`); and behind the intent record every run asks for
one outcome record, which says how the attempt ended (`Concluded`).
-/

namespace SpatialIde.Kernel.Permission

open Lib SpatialIde.Kernel.Publish

abbrev Trace := List (Event Answer)

/-! ### How an attempt ends -/

namespace BoundaryError

/-- A failed cleanup is read through to its cause. -/
def cause : BoundaryError → BoundaryError
  | publish e => publish e.cause
  | e => e

/-- The gate said no. -/
inductive Declines : BoundaryError → Prop
  | permission {e : PermissionError} (h : ∀ detail, e ≠ .approvalUnavailable detail) :
      Declines (.permission e)
  | publish {e : PublishError} (h : e.Declines) : Declines (.publish e)

end BoundaryError

/-- The class of a record and what the caller is told. -/
inductive Agrees : Outcome → Except BoundaryError PublishOutcome → Prop
  | published {outcome : PublishOutcome} : Agrees .success (.ok outcome)
  | unrecorded {outcome : PublishOutcome} {path detail : String} :
      Agrees .success (.error (.outcomeNotAudited outcome path detail))
  | cancelled {e : BoundaryError} (h : e.cause = .publish .cancelled) :
      Agrees .cancelled (.error e)
  | refused {e : BoundaryError} (h : e.cause.Declines) : Agrees .refused (.error e)
  | failed {e : BoundaryError} (hcancelled : e.cause ≠ .publish .cancelled)
      (hdeclines : ¬e.cause.Declines)
      (hpublished : ∀ outcome path detail, e ≠ .outcomeNotAudited outcome path detail) :
      Agrees .failed (.error e)

theorem agrees_publish (e : PublishError) : Agrees (publishOutcome e) (.error (.publish e)) := by
  induction e with
  | cancelled => exact .cancelled rfl
  | stagingNotRemoved after path detail ih =>
    cases h : publishOutcome after with
    | success => rw [h] at ih; cases ih
    | cancelled =>
      rw [h] at ih
      cases ih with
      | cancelled hcause => rw [publishOutcome, h]; exact .cancelled hcause
    | refused =>
      rw [h] at ih
      cases ih with
      | refused hcause => rw [publishOutcome, h]; exact .refused hcause
    | failed =>
      rw [h] at ih
      cases ih with
      | failed h₁ h₂ _ => rw [publishOutcome, h]; exact .failed h₁ h₂ (by simp)
  | destinationNotWritable | insufficientSpace | io | engine | style | canonical =>
    refine .failed ?_ ?_ (by simp)
    · simp [BoundaryError.cause, PublishError.cause]
    · rintro (_ | ⟨⟨⟩⟩)
  | _ => exact .refused (.publish (by constructor))

/-- **The class of a failing record agrees with the error.** -/
theorem agrees_outcomeOf {e : BoundaryError}
    (h : ∀ outcome path detail, e ≠ .outcomeNotAudited outcome path detail) :
    Agrees (outcomeOf e) (.error e) := by
  cases e with
  | permission e =>
    cases e with
    | approvalUnavailable detail =>
      refine .failed (by simp [BoundaryError.cause]) ?_ (by simp)
      rintro ⟨hne⟩
      exact hne detail rfl
    | _ => exact .refused (.permission (by simp))
  | audit e =>
    refine .failed (by simp [BoundaryError.cause]) ?_ (by simp)
    rintro ⟨⟩
  | publish e => exact agrees_publish e
  | outcomeNotAudited outcome path detail => exact absurd rfl (h outcome path detail)

/-! ### Reading a run -/

def intentOf : Event Answer → Option (IntentRecord × Except AuditError Unit)
  | ⟨.appendIntent r, written⟩ => some (r, written)
  | _ => none

def outcomeRecordOf : Event Answer → Option (OutcomeRecord × Except AuditError Unit)
  | ⟨.appendOutcome r, written⟩ => some (r, written)
  | _ => none

def readingOf : Event Answer → Option Nat
  | ⟨.now, t⟩ => some t
  | _ => none

/-- The intent records a run asks for, and whether they were written. -/
def intents (tr : Trace) : List (IntentRecord × Except AuditError Unit) := tr.filterMap intentOf

def outcomes (tr : Trace) : List (OutcomeRecord × Except AuditError Unit) :=
  tr.filterMap outcomeRecordOf

/-- The readings of the monotonic clock. -/
def readings (tr : Trace) : List Nat := tr.filterMap readingOf

/-- The destination of the attempt, as the file system resolves it. -/
def Resolved (attempt : PublishAttempt) (before : Trace) (destination : Path) : Prop :=
  ∃ asked parent name, attempt.destination.fileName = some name ∧
    (⟨.canonicalize asked, .ok parent⟩ : Event Answer) ∈ before ∧ destination = parent.join name

/-- What the operation is. -/
def factsOf (attempt : PublishAttempt) (pre : PublishPreflight) (destination : Path) :
    OperationFacts :=
  { operation := .publish
    datasetName := attempt.datasetName
    contentHash := pre.sourceContentHash
    destination := destination }

/-- The first steps: a preflight, and a destination that does not hold the log. -/
structure Described (attempt : PublishAttempt) (before : Trace) (pre : PublishPreflight)
    (destination : Path) : Prop where
  preflight : (⟨.preflight, .ok pre⟩ : Event Answer) ∈ before
  resolved : Resolved attempt before destination

/-- **What stands before a publish.** -/
structure Authorized (attempt : PublishAttempt) (before : Trace) (pre : PublishPreflight)
    (destination : Path) : Prop extends Described attempt before pre destination where
  recorded : ∃ intent, intents before = [(intent, .ok ())]
  granted : ∃ first second, readings before = [first, second] ∧ ∃ g ∈ attempt.grants.grants,
    g.Covers (factsOf attempt pre destination) ∧ g.expired first = false ∧
      g.expired second = false
  confirmed : ∃ prompt given, (⟨.respond prompt, .ok given⟩ : Event Answer) ∈ before ∧
    prompt.confirmationPhrase = confirmationPhrase destination ∧
      Text.trim given.answer = prompt.confirmationPhrase

/-- No publish has succeeded. -/
def Unpublished (tr : Trace) : Prop :=
  ∀ pre outcome, (⟨.publishPrepared pre, .ok outcome⟩ : Event Answer) ∉ tr

/-- The step that ended an attempt behind its intent record, and its error. -/
inductive Stops (machine : Machine) (attempt : PublishAttempt) (tr : Trace) : BoundaryError → Prop
  | grant {pre : PublishPreflight} {destination : Path} {t : Nat} {e : PermissionError}
      (described : Described attempt tr pre destination) (reading : t ∈ readings tr)
      (h : attempt.grants.find machine.normalizeDestination (factsOf attempt pre destination) t =
        .error e) : Stops machine attempt tr (.permission e)
  | channel {prompt : ApprovalPrompt} {e : PermissionError}
      (h : (⟨.respond prompt, .error e⟩ : Event Answer) ∈ tr) :
      Stops machine attempt tr (.permission e)
  | answer {prompt : ApprovalPrompt} {given : Approval} {e : PermissionError}
      (h : (⟨.respond prompt, .ok given⟩ : Event Answer) ∈ tr) (hcheck : check prompt given = .error e) :
      Stops machine attempt tr (.permission e)
  | publish {pre : PublishPreflight} {e : PublishError}
      (h : (⟨.publishPrepared pre, .error e⟩ : Event Answer) ∈ tr) :
      Stops machine attempt tr (.publish e)

/-- **How an attempt behind its intent record ends**, given what became of its outcome record. -/
inductive Concluded (machine : Machine) (attempt : PublishAttempt) (tr : Trace)
    (record : OutcomeRecord) : Except AuditError Unit → Except BoundaryError PublishOutcome → Prop
  | published {pre : PublishPreflight} {outcome : PublishOutcome}
      (h : (⟨.publishPrepared pre, .ok outcome⟩ : Event Answer) ∈ tr) (kind : record.errorKind = none) :
      Concluded machine attempt tr record (.ok ()) (.ok outcome)
  | unrecorded {pre : PublishPreflight} {outcome : PublishOutcome} {e : AuditError}
      (h : (⟨.publishPrepared pre, .ok outcome⟩ : Event Answer) ∈ tr) (kind : record.errorKind = none) :
      Concluded machine attempt tr record (.error e) (.error (.outcomeNotAudited outcome
        (machine.normalizeDestination attempt.audit) (e.message machine.lowerExp)))
  /-- The error of the step that failed, whether or not it could be recorded. -/
  | stopped {written : Except AuditError Unit} {e : BoundaryError}
      (h : Stops machine attempt tr e) (unpublished : Unpublished tr)
      (kind : record.errorKind = some (errorKind e)) :
      Concluded machine attempt tr record written (.error e)

/-! ### What stays true as a run goes on -/

section

variable {machine : Machine} {attempt : PublishAttempt} {tr tr' : Trace}

theorem Resolved.mono {destination : Path} (h : Resolved attempt tr destination) (hsub : tr ⊆ tr') :
    Resolved attempt tr' destination := by
  obtain ⟨asked, parent, name, hname, hmem, hdest⟩ := h
  exact ⟨asked, parent, name, hname, hsub hmem, hdest⟩

theorem Described.mono {pre : PublishPreflight} {destination : Path}
    (h : Described attempt tr pre destination) (hsub : tr ⊆ tr') :
    Described attempt tr' pre destination :=
  ⟨hsub h.preflight, h.resolved.mono hsub⟩

theorem readings_subset (hsub : tr ⊆ tr') : readings tr ⊆ readings tr' := by
  intro t ht
  obtain ⟨e, he, hread⟩ := List.mem_filterMap.1 ht
  exact List.mem_filterMap.2 ⟨e, hsub he, hread⟩

theorem Stops.mono {e : BoundaryError} (h : Stops machine attempt tr e) (hsub : tr ⊆ tr') :
    Stops machine attempt tr' e := by
  cases h with
  | grant described reading h => exact .grant (described.mono hsub) (readings_subset hsub reading) h
  | channel h => exact .channel (hsub h)
  | answer h hcheck => exact .answer (hsub h) hcheck
  | publish h => exact .publish (hsub h)

theorem Stops.not_unrecorded {e : BoundaryError} (h : Stops machine attempt tr e) :
    ∀ outcome path detail, e ≠ .outcomeNotAudited outcome path detail := by
  rintro outcome path detail rfl
  cases h

end

/-- Neither a record nor the publish. -/
def isQuiet : Question → Bool
  | .appendIntent _ | .appendOutcome _ | .publishPrepared _ => false
  | _ => true

theorem intentOf_of_isQuiet {e : Event Answer} (h : isQuiet e.1 = true) : intentOf e = none := by
  obtain ⟨q, a⟩ := e
  cases q <;> first | rfl | cases h

theorem outcomeRecordOf_of_isQuiet {e : Event Answer} (h : isQuiet e.1 = true) :
    outcomeRecordOf e = none := by
  obtain ⟨q, a⟩ := e
  cases q <;> first | rfl | cases h

/-- Every publish of the stretch is authorized by what stands before it. -/
def AuthorizedIn (attempt : PublishAttempt) (past tr : Trace) : Prop :=
  ∀ before pre answer after,
    tr = before ++ (⟨.publishPrepared pre, answer⟩ : Event Answer) :: after →
      ∃ destination, Authorized attempt (past ++ before) pre destination

/-- What happens behind `past`, where the attempt has its intent record: one outcome record, and no
publish that was not authorized. -/
structure Closes (machine : Machine) (attempt : PublishAttempt) (attemptId : String) (past tr : Trace)
    (r : Except BoundaryError PublishOutcome) : Prop where
  intents_eq : intents tr = []
  outcomes_eq : ∃ record written, outcomes tr = [(record, written)] ∧ record.attempt = attemptId ∧
    Agrees record.outcome r ∧ Concluded machine attempt (past ++ tr) record written r
  authorized : AuthorizedIn attempt past tr

section

variable {machine : Machine} {attempt : PublishAttempt} {attemptId : String} {past tr : Trace}
  {r : Except BoundaryError PublishOutcome}

theorem authorizedIn_of_quiet (h : ∀ e ∈ tr, isQuiet e.1 = true) : AuthorizedIn attempt past tr := by
  intro before pre answer after htr
  have := h ⟨.publishPrepared pre, answer⟩ (by rw [htr]; simp)
  cases this

theorem unpublished_of_quiet (h : ∀ e ∈ tr, isQuiet e.1 = true) : Unpublished tr := by
  intro pre outcome hmem
  cases h _ hmem

theorem Unpublished.append {tr' : Trace} (h : Unpublished tr) (h' : Unpublished tr') :
    Unpublished (tr ++ tr') := by
  intro pre outcome hmem
  rcases List.mem_append.1 hmem with hmem | hmem
  · exact h pre outcome hmem
  · exact h' pre outcome hmem

/-- One question more, which is not the publish. -/
theorem Unpublished.concat {e : Event Answer} (h : Unpublished tr) (hquiet : isQuiet e.1 = true) :
    Unpublished (tr ++ [e]) :=
  h.append (unpublished_of_quiet (by simpa using hquiet))

/-- One more question in front, which is not the publish. -/
theorem AuthorizedIn.cons {e : Event Answer}
    (hpublish : ∀ pre answer, e ≠ (⟨.publishPrepared pre, answer⟩ : Event Answer))
    (h : AuthorizedIn attempt (past ++ [e]) tr) : AuthorizedIn attempt past (e :: tr) := by
  intro before pre answer after htr
  cases before with
  | nil =>
    rw [List.nil_append] at htr
    exact absurd (List.cons.inj htr).1 (hpublish pre answer)
  | cons e' before =>
    obtain ⟨rfl, htail⟩ := List.cons.inj htr
    obtain ⟨destination, hauth⟩ := h before pre answer after htail
    rw [← List.append_cons] at hauth
    exact ⟨destination, hauth⟩

theorem ne_publish_of_isQuiet {e : Event Answer} (h : isQuiet e.1 = true) (pre : PublishPreflight)
    (answer : Answer (.publishPrepared pre)) :
    e ≠ (⟨.publishPrepared pre, answer⟩ : Event Answer) := by
  rintro rfl
  cases h

theorem three_subset (a b c : Event Answer) : past ⊆ past ++ [a] ++ [b] ++ [c] :=
  fun _ h => List.mem_append_left _ (List.mem_append_left _ (List.mem_append_left _ h))

/-- One more question in front, about none of the records and not the publish. -/
theorem Closes.cons {e : Event Answer} (hquiet : isQuiet e.1 = true)
    (h : Closes machine attempt attemptId (past ++ [e]) tr r) :
    Closes machine attempt attemptId past (e :: tr) r where
  intents_eq := by
    rw [intents, List.filterMap_cons_none (intentOf_of_isQuiet hquiet)]
    exact h.intents_eq
  outcomes_eq := by
    obtain ⟨record, written, houtcomes, hid, hagrees, hconcluded⟩ := h.outcomes_eq
    refine ⟨record, written, ?_, hid, hagrees, ?_⟩
    · rw [outcomes, List.filterMap_cons_none (outcomeRecordOf_of_isQuiet hquiet)]
      exact houtcomes
    · rw [← List.append_cons] at hconcluded
      exact hconcluded
  authorized := h.authorized.cons (ne_publish_of_isQuiet hquiet)

theorem runs_ask {q : Question} {f : Answer q → Boundary PublishOutcome}
    (h : Prog.Runs (ask q >>= f) tr r) :
    ∃ a tr', tr = (⟨q, a⟩ : Event Answer) :: tr' ∧ Prog.Runs (f a) tr' r :=
  Prog.runs_query_bind.1 h

theorem intents_of_quiet (h : ∀ e ∈ tr, isQuiet e.1 = true) : intents tr = [] :=
  List.filterMap_eq_nil_iff.2 fun e he => intentOf_of_isQuiet (h e he)

theorem outcomes_of_quiet (h : ∀ e ∈ tr, isQuiet e.1 = true) : outcomes tr = [] :=
  List.filterMap_eq_nil_iff.2 fun e he => outcomeRecordOf_of_isQuiet (h e he)

/-- The outcome record, and nothing that matters behind it. -/
theorem closes_of_record {record : OutcomeRecord} {written : Except AuditError Unit} {shown : Trace}
    (hshown : ∀ e ∈ shown, isQuiet e.1 = true) (hid : record.attempt = attemptId)
    (hagrees : Agrees record.outcome r) (hconcluded : Concluded machine attempt
      (past ++ (⟨.appendOutcome record, written⟩ : Event Answer) :: shown) record written r) :
    Closes machine attempt attemptId past
      ((⟨.appendOutcome record, written⟩ : Event Answer) :: shown) r where
  intents_eq := by
    show intents shown = []
    exact intents_of_quiet hshown
  outcomes_eq := by
    refine ⟨record, written, ?_, hid, hagrees, hconcluded⟩
    show (record, written) :: outcomes shown = _
    rw [outcomes_of_quiet hshown]
  authorized := AuthorizedIn.cons (by simp) (authorizedIn_of_quiet hshown)

/-- The two questions of `finish`, and the line it shows when the record is not written. -/
theorem finish_runs {ctx : OutcomeContext} {e : BoundaryError} {r : Except BoundaryError BoundaryError}
    (h : Prog.Runs (finish machine attempt ctx e) tr r) :
    r = .ok e ∧ ∃ writtenAt written shown, (∀ e ∈ shown, isQuiet e.1 = true) ∧
      tr = (⟨.clock, writtenAt⟩ : Event Answer) ::
        ⟨.appendOutcome (ctx.failureRecord writtenAt e), written⟩ :: shown := by
  obtain ⟨writtenAt, tr₁, rfl, h₁⟩ := Prog.runs_query_bind.1 h
  obtain ⟨written, tr₂, rfl, h₂⟩ := Prog.runs_query_bind.1 h₁
  cases written with
  | ok _ =>
    obtain ⟨rfl, rfl⟩ := Prog.runs_pure.1 h₂
    exact ⟨rfl, writtenAt, _, [], by simp, rfl⟩
  | error audit =>
    obtain ⟨_, tr₃, rfl, h₃⟩ := Prog.runs_query_bind.1 h₂
    obtain ⟨rfl, rfl⟩ := Prog.runs_pure.1 h₃
    exact ⟨rfl, writtenAt, _, _, by simp [isQuiet], rfl⟩

/-- A failing step writes its record and gives its error. -/
theorem refuse_closes {ctx : OutcomeContext} {e : BoundaryError} (hid : ctx.attemptId = attemptId)
    (hstops : Stops machine attempt past e) (hunpublished : Unpublished past)
    (h : Prog.Runs (refuse machine attempt ctx e) tr r) :
    Closes machine attempt attemptId past tr r := by
  rcases Prog.runs_bind.1 h with ⟨e', -, h⟩ | ⟨e', t₁, t₂, rfl, h₁, h₂⟩
  · cases (finish_runs h).1
  · obtain ⟨he, writtenAt, written, shown, hshown, rfl⟩ := finish_runs h₁
    cases he
    obtain ⟨rfl, rfl⟩ := Prog.runs_throw.1 h₂
    rw [List.append_nil]
    refine Closes.cons rfl (closes_of_record hshown hid ?_ ?_)
    · exact agrees_outcomeOf hstops.not_unrecorded
    · refine .stopped (hstops.mono (by simp)) ((hunpublished.concat rfl).append ?_) rfl
      intro pre outcome hmem
      rcases List.mem_cons.1 hmem with hmem | hmem
      · cases hmem
      · cases hshown _ hmem

/-- A publish that succeeded. -/
theorem succeed_closes {ctx : OutcomeContext} {pre : PublishPreflight} {outcome : PublishOutcome}
    (hid : ctx.attemptId = attemptId) (hpublished : (⟨.publishPrepared pre, .ok outcome⟩ : Event Answer) ∈ past)
    (h : Prog.Runs (succeed machine attempt ctx outcome) tr r) :
    Closes machine attempt attemptId past tr r := by
  obtain ⟨manifestHash, tr₁, rfl, h₁⟩ := runs_ask h
  obtain ⟨writtenAt, tr₂, rfl, h₂⟩ := runs_ask h₁
  obtain ⟨written, tr₃, rfl, h₃⟩ := runs_ask h₂
  have hmem := List.mem_append_left
    ((⟨.appendOutcome (ctx.successRecord writtenAt manifestHash outcome), written⟩ : Event Answer) ::
      tr₃) (List.mem_append_left [(⟨.clock, writtenAt⟩ : Event Answer)]
        (List.mem_append_left [(⟨.manifestHash outcome.bundlePath, manifestHash⟩ : Event Answer)]
          hpublished))
  refine Closes.cons rfl (Closes.cons rfl ?_)
  cases written with
  | ok _ =>
    obtain ⟨rfl, rfl⟩ := Prog.runs_pure.1 h₃
    exact closes_of_record (by simp) hid .published (.published hmem rfl)
  | error e =>
    obtain ⟨rfl, rfl⟩ := Prog.runs_throw.1 h₃
    exact closes_of_record (by simp) hid .unrecorded (.unrecorded hmem rfl)

/-- The publish itself is where the run has to be authorized. -/
theorem operate_closes {ctx : OutcomeContext} {pre : PublishPreflight} {destination : Path}
    (hid : ctx.attemptId = attemptId) (hauth : Authorized attempt past pre destination)
    (hunpublished : Unpublished past) (h : Prog.Runs (operate machine attempt ctx pre) tr r) :
    Closes machine attempt attemptId past tr r := by
  obtain ⟨result, tr₁, rfl, h₁⟩ := runs_ask h
  have hmem : (⟨.publishPrepared pre, result⟩ : Event Answer) ∈
      past ++ [(⟨.publishPrepared pre, result⟩ : Event Answer)] :=
    List.mem_append_right _ List.mem_cons_self
  have hrest : Closes machine attempt attemptId
      (past ++ [(⟨.publishPrepared pre, result⟩ : Event Answer)]) tr₁ r := by
    cases result with
    | ok outcome => exact succeed_closes hid hmem h₁
    | error e => exact refuse_closes hid (.publish hmem) (hunpublished.append (by simp [Unpublished])) h₁
  refine ⟨hrest.intents_eq, ?_, ?_⟩
  · have := hrest.outcomes_eq
    rw [← List.append_cons] at this
    exact this
  · intro before pre' answer after htr
    cases before with
    | nil =>
      rw [List.nil_append] at htr
      cases htr
      exact ⟨destination, by rw [List.append_nil]; exact hauth⟩
    | cons e before =>
      obtain ⟨rfl, htail⟩ := List.cons.inj htr
      have := hrest.authorized before pre' answer after htail
      rw [← List.append_cons] at this
      exact this

/-- The grants that two readings found: one of them is live at both. -/
theorem live_at_both {g g' : PublishGrant} {t t' : Nat} (h : g.expired t = false)
    (h' : g'.expired t' = false) :
    (g.expired t = false ∧ g.expired t' = false) ∨
      (g'.expired t = false ∧ g'.expired t' = false) := by
  have hback : ∀ {g : PublishGrant} {t t' : Nat}, t ≤ t' → g.expired t' = false →
      g.expired t = false := by
    intro g t t' hle hlive
    by_contra hexp
    have := PublishGrant.expired_mono hle (by simpa using hexp)
    rw [hlive] at this
    cases this
  rcases Nat.le_total t t' with hle | hle
  · exact .inr ⟨hback hle h', h'⟩
  · exact .inl ⟨h, hback hle h⟩

theorem confirm_closes {ctx : OutcomeContext} {pre : PublishPreflight} {destination : Path}
    {grant : PublishGrant} {first : Nat} (hid : ctx.attemptId = attemptId)
    (hdescribed : Described attempt past pre destination) (hunpublished : Unpublished past)
    (hintent : ∃ intent, intents past = [(intent, .ok ())]) (hreading : readings past = [first])
    (hfind : attempt.grants.find machine.normalizeDestination (factsOf attempt pre destination)
      first = .ok grant)
    (h : Prog.Runs (confirm machine attempt ctx pre (factsOf attempt pre destination) grant first)
      tr r) : Closes machine attempt attemptId past tr r := by
  obtain ⟨route, tr₁, rfl, h₁⟩ := runs_ask h
  refine Closes.cons rfl ?_
  obtain ⟨given, tr₂, rfl, h₂⟩ := runs_ask h₁
  have hroute : ({ ctx with approvalRoute := some route } : OutcomeContext).attemptId = attemptId :=
    hid
  refine Closes.cons rfl ?_
  cases given with
  | error e =>
    exact refuse_closes hroute (.channel (List.mem_append_right _ List.mem_cons_self))
      ((hunpublished.concat rfl).concat rfl) h₂
  | ok given =>
    dsimp only at h₂
    split at h₂
    · next e hcheck =>
      exact refuse_closes hroute (.answer (List.mem_append_right _ List.mem_cons_self) hcheck)
        ((hunpublished.concat rfl).concat rfl) h₂
    · next hcheck =>
      obtain ⟨second, tr₃, rfl, h₃⟩ := runs_ask h₂
      refine Closes.cons rfl ?_
      have hstill := fun prompt : ApprovalPrompt =>
        ((hunpublished.concat (e := ⟨.route, route⟩) rfl).concat (e := ⟨.respond prompt, .ok given⟩)
          rfl).concat (e := ⟨.now, second⟩) rfl
      split at h₃
      · next e hagain =>
        refine refuse_closes hroute (.grant (hdescribed.mono (three_subset _ _ _)) ?_ hagain) (hstill _) h₃
        exact List.mem_filterMap.2 ⟨_, List.mem_append_right _ List.mem_cons_self, rfl⟩
      · next grant' hagain =>
        obtain ⟨hmem, hcovers, hlive⟩ := GrantSet.find_eq_ok hfind
        obtain ⟨hmem', hcovers', hlive'⟩ := GrantSet.find_eq_ok hagain
        have hnoted : (({ ctx with approvalRoute := some route } : OutcomeContext).noteGrant grant'
            second).attemptId = attemptId := hid
        refine operate_closes hnoted ⟨hdescribed.mono (three_subset _ _ _), ?_, ⟨first, second, ?_, ?_⟩, ?_⟩
          (hstill _) h₃
        · obtain ⟨intent, hintent⟩ := hintent
          refine ⟨intent, ?_⟩
          simp only [intents, List.filterMap_append] at hintent ⊢
          rw [hintent]
          rfl
        · simp only [readings, List.filterMap_append] at hreading ⊢
          rw [hreading]
          rfl
        · rcases live_at_both hlive hlive' with hboth | hboth
          · exact ⟨grant, hmem, hcovers, hboth⟩
          · exact ⟨grant', hmem', hcovers', hboth⟩
        · exact ⟨_, given, List.mem_append_left _ (List.mem_append_right _ List.mem_cons_self), rfl,
            check_eq_ok hcheck⟩

theorem gated_closes {attemptId : String} {pre : PublishPreflight} {destination : Path}
    (hdescribed : Described attempt past pre destination) (hunpublished : Unpublished past)
    (hintent : ∃ intent, intents past = [(intent, .ok ())]) (hreading : readings past = [])
    (h : Prog.Runs (gated machine attempt attemptId pre (factsOf attempt pre destination)) tr r) :
    Closes machine attempt attemptId past tr r := by
  obtain ⟨first, tr₁, rfl, h₁⟩ := runs_ask h
  refine Closes.cons rfl ?_
  have hsub : past ⊆ past ++ [(⟨.now, first⟩ : Event Answer)] := List.subset_append_left _ _
  have hfirst : readings (past ++ [(⟨.now, first⟩ : Event Answer)]) = [first] := by
    simp only [readings, List.filterMap_append] at hreading ⊢
    rw [hreading]
    rfl
  split at h₁
  · next e hfind =>
    refine refuse_closes rfl (.grant (hdescribed.mono hsub) ?_ hfind) (hunpublished.concat rfl) h₁
    rw [hfirst]
    exact List.mem_cons_self
  · next grant hfind =>
    refine confirm_closes rfl (hdescribed.mono hsub) (hunpublished.concat rfl) ?_ hfirst hfind h₁
    obtain ⟨intent, hintent⟩ := hintent
    refine ⟨intent, ?_⟩
    simp only [intents, List.filterMap_append] at hintent ⊢
    rw [hintent]
    rfl

/-! ### The whole run -/

/-- What a run that stands behind `past` shows of the records and the publish. -/
structure Audited (machine : Machine) (attempt : PublishAttempt) (past tr : Trace)
    (r : Except BoundaryError PublishOutcome) : Prop where
  /-- The publish is reached with everything in front of it. -/
  authorized : AuthorizedIn attempt past tr
  /-- Behind an intent record there is one outcome record. -/
  recorded : ∀ intent, (intent, .ok ()) ∈ intents tr →
    ∃ record written, outcomes tr = [(record, written)] ∧ record.attempt = intent.attempt ∧
      Agrees record.outcome r ∧ Concluded machine attempt (past ++ tr) record written r
  /-- Without one there is none, and no publish: the failure itself is what is given. -/
  unrecorded : (∀ intent, (intent, .ok ()) ∉ intents tr) → outcomes tr = [] ∧
    (∀ pre answer, (⟨.publishPrepared pre, answer⟩ : Event Answer) ∉ tr) ∧ ∃ e, r = .error e ∧
      (∀ outcome path detail, e ≠ .outcomeNotAudited outcome path detail) ∧
        ∀ intent e', (intent, .error e') ∈ intents tr → e = .audit e'

theorem Audited.cons {e : Event Answer} (hquiet : isQuiet e.1 = true)
    (h : Audited machine attempt (past ++ [e]) tr r) :
    Audited machine attempt past (e :: tr) r where
  authorized := h.authorized.cons (ne_publish_of_isQuiet hquiet)
  recorded := by
    rw [intents, List.filterMap_cons_none (intentOf_of_isQuiet hquiet), outcomes,
      List.filterMap_cons_none (outcomeRecordOf_of_isQuiet hquiet), List.append_cons]
    exact h.recorded
  unrecorded := by
    rw [intents, List.filterMap_cons_none (intentOf_of_isQuiet hquiet), outcomes,
      List.filterMap_cons_none (outcomeRecordOf_of_isQuiet hquiet)]
    intro hnone
    obtain ⟨houtcomes, hpublish, hr⟩ := h.unrecorded hnone
    refine ⟨houtcomes, fun pre answer hmem => ?_, hr⟩
    rcases List.mem_cons.1 hmem with he | hmem
    · exact ne_publish_of_isQuiet hquiet pre answer he.symm
    · exact hpublish pre answer hmem

/-- A run that fails before its intent record. -/
theorem audited_of_quiet {e : BoundaryError} (hquiet : ∀ ev ∈ tr, isQuiet ev.1 = true)
    (he : ∀ outcome path detail, e ≠ .outcomeNotAudited outcome path detail) :
    Audited machine attempt past tr (.error e) where
  authorized := authorizedIn_of_quiet hquiet
  recorded := by
    rw [intents_of_quiet hquiet]
    intro intent h
    cases h
  unrecorded := by
    intro _
    refine ⟨outcomes_of_quiet hquiet, fun pre answer hmem => ?_, e, rfl, ?_⟩
    · cases hquiet _ hmem
    · refine ⟨he, ?_⟩
      rw [intents_of_quiet hquiet]
      intro intent e' h
      cases h

/-- The intent record is written, and what follows it. -/
theorem recorded_audited {intent : IntentRecord} {pre : PublishPreflight} {destination : Path}
    (hdescribed : Described attempt past pre destination) (hunpublished : Unpublished past)
    (hintent : intents past = [])
    (hreading : readings past = [])
    (h : Prog.Runs (gated machine attempt intent.attempt pre (factsOf attempt pre destination)) tr r) :
    Audited machine attempt past ((⟨.appendIntent intent, .ok ()⟩ : Event Answer) :: tr) r := by
  have hcloses : Closes machine attempt intent.attempt
      (past ++ [(⟨.appendIntent intent, .ok ()⟩ : Event Answer)]) tr r := by
    refine gated_closes (hdescribed.mono (List.subset_append_left _ _))
      (hunpublished.append (by simp [Unpublished])) ⟨intent, ?_⟩ ?_ h
    · simp only [intents, List.filterMap_append] at hintent ⊢
      rw [hintent]
      rfl
    · simp only [readings, List.filterMap_append] at hreading ⊢
      rw [hreading]
      rfl
  have hone : intents ((⟨.appendIntent intent, .ok ()⟩ : Event Answer) :: tr) =
      [(intent, .ok ())] := by
    show (intent, .ok ()) :: intents tr = _
    rw [hcloses.intents_eq]
  refine ⟨AuthorizedIn.cons (by simp) hcloses.authorized, ?_, ?_⟩
  · intro intent' hmem
    rw [hone, List.mem_singleton] at hmem
    cases hmem
    obtain ⟨record, written, houtcomes, hid, hagrees, hconcluded⟩ := hcloses.outcomes_eq
    rw [← List.append_cons] at hconcluded
    exact ⟨record, written, houtcomes, hid, hagrees, hconcluded⟩
  · intro hnone
    rw [hone] at hnone
    exact absurd List.mem_cons_self (hnone intent)

theorem intents_concat_of_quiet {e : Event Answer} (hquiet : isQuiet e.1 = true) :
    intents (past ++ [e]) = intents past := by
  rw [intents, List.filterMap_append, List.filterMap_cons_none (intentOf_of_isQuiet hquiet),
    List.filterMap_nil, List.append_nil]
  rfl

theorem record_audited {pre : PublishPreflight} {destination : Path}
    (hdescribed : Described attempt past pre destination) (hunpublished : Unpublished past)
    (hintent : intents past = [])
    (hreading : readings past = [])
    (h : Prog.Runs (record machine attempt pre (factsOf attempt pre destination)) tr r) :
    Audited machine attempt past tr r := by
  obtain ⟨attemptId, tr₁, rfl, h₁⟩ := runs_ask h
  refine Audited.cons rfl ?_
  obtain ⟨writtenAt, tr₂, rfl, h₂⟩ := runs_ask h₁
  refine Audited.cons rfl ?_
  obtain ⟨written, tr₃, rfl, h₃⟩ := runs_ask h₂
  cases written with
  | error e =>
    obtain ⟨rfl, rfl⟩ := Prog.runs_throw.1 h₃
    refine ⟨AuthorizedIn.cons (by simp) (authorizedIn_of_quiet (by simp)), ?_, ?_⟩
    · intro intent hmem
      simp [intents, intentOf] at hmem
    · intro _
      refine ⟨rfl, by simp, .audit e, rfl, by simp, fun intent e' hmem => ?_⟩
      simp only [intents, List.filterMap_cons, intentOf, List.filterMap_nil, List.mem_singleton,
        Prod.mk.injEq, Except.error.injEq] at hmem
      rw [hmem.2]
  | ok written =>
    refine recorded_audited (hdescribed.mono ?_) ((hunpublished.concat rfl).concat rfl) ?_ ?_ h₃
    · exact List.subset_append_of_subset_left _ (List.subset_append_left _ _)
    · rw [intents_concat_of_quiet rfl, intents_concat_of_quiet rfl]
      exact hintent
    · simp only [readings, List.filterMap_append] at hreading ⊢
      rw [hreading]
      rfl

/-- The destination is resolved, and nothing is written. -/
theorem resolveDestination_runs {r : Except BoundaryError Path}
    (h : Prog.Runs (resolveDestination machine attempt.destination) tr r) :
    (∀ e ∈ tr, isQuiet e.1 = true) ∧ readings tr = [] ∧
      (∀ destination, r = .ok destination → Resolved attempt tr destination) ∧
      ∀ e, r = .error e → ∀ outcome path detail, e ≠ .outcomeNotAudited outcome path detail := by
  rw [resolveDestination] at h
  split at h
  · next hname =>
    obtain ⟨rfl, rfl⟩ := Prog.runs_throw.1 h
    exact ⟨by simp, rfl, by simp, by simp⟩
  · next name hname =>
    obtain ⟨resolved, tr₁, rfl, h₁⟩ := Prog.runs_query_bind.1 h
    cases resolved with
    | error e =>
      obtain ⟨rfl, rfl⟩ := Prog.runs_throw.1 h₁
      exact ⟨by simp [isQuiet], rfl, by simp, by simp⟩
    | ok parent =>
      obtain ⟨rfl, rfl⟩ := Prog.runs_pure.1 h₁
      refine ⟨by simp [isQuiet], rfl, fun destination hdest => ?_, by simp⟩
      cases hdest
      exact ⟨_, parent, name, hname, List.mem_cons_self, rfl⟩

/-- A stretch of questions about none of the records and not the publish. -/
theorem Audited.append {quiet : Trace} (hquiet : ∀ e ∈ quiet, isQuiet e.1 = true)
    (h : Audited machine attempt (past ++ quiet) tr r) :
    Audited machine attempt past (quiet ++ tr) r := by
  induction quiet generalizing past with
  | nil =>
    rw [List.append_nil] at h
    exact h
  | cons e quiet ih =>
    refine Audited.cons (hquiet e List.mem_cons_self) (ih ?_ ?_)
    · intro e' he'
      exact hquiet e' (List.mem_cons_of_mem _ he')
    · rw [← List.append_cons]
      exact h

theorem execute_audited (h : Prog.Runs (execute machine attempt) tr r) :
    Audited machine attempt [] tr r := by
  obtain ⟨pre, tr₁, rfl, h₁⟩ := runs_ask h
  cases pre with
  | error e =>
    obtain ⟨rfl, rfl⟩ := Prog.runs_throw.1 h₁
    exact audited_of_quiet (by simp [isQuiet]) (by simp)
  | ok pre =>
    refine Audited.cons rfl ?_
    rcases Prog.runs_bind.1 h₁ with ⟨e, rfl, h₂⟩ | ⟨destination, t₁, t₂, rfl, h₂, h₃⟩
    · obtain ⟨hquiet, -, -, he⟩ := resolveDestination_runs h₂
      exact audited_of_quiet hquiet (he e rfl)
    · obtain ⟨hquiet, hreading, hresolved, -⟩ := resolveDestination_runs h₂
      refine Audited.append hquiet ?_
      dsimp only at h₃
      split at h₃
      · obtain ⟨rfl, rfl⟩ := Prog.runs_throw.1 h₃
        exact audited_of_quiet (by simp) (by simp)
      · refine record_audited ⟨by simp, ?_⟩ (unpublished_of_quiet (by simpa [isQuiet] using hquiet))
          ?_ ?_ h₃
        · exact (hresolved destination rfl).mono (List.subset_append_right _ _)
        · exact intents_of_quiet (by simpa [isQuiet] using hquiet)
        · rw [List.nil_append, readings, List.singleton_append, List.filterMap_cons_none rfl]
          exact hreading

end

theorem mem_outcomes {record : OutcomeRecord} {written : Except AuditError Unit} {tr : Trace}
    (h : (⟨.appendOutcome record, written⟩ : Event Answer) ∈ tr) :
    (record, written) ∈ outcomes tr :=
  List.mem_filterMap.2 ⟨_, h, rfl⟩

theorem of_mem_outcomes {record : OutcomeRecord} {written : Except AuditError Unit} {tr : Trace}
    (h : (record, written) ∈ outcomes tr) :
    (⟨.appendOutcome record, written⟩ : Event Answer) ∈ tr := by
  obtain ⟨⟨q, a⟩, hmem, hread⟩ := List.mem_filterMap.1 h
  cases q with
  | appendOutcome r => cases hread; exact hmem
  | _ => cases hread

theorem of_mem_intents {intent : IntentRecord} {written : Except AuditError Unit} {tr : Trace}
    (h : (intent, written) ∈ intents tr) :
    (⟨.appendIntent intent, written⟩ : Event Answer) ∈ tr := by
  obtain ⟨⟨q, a⟩, hmem, hread⟩ := List.mem_filterMap.1 h
  cases q with
  | appendIntent r => cases hread; exact hmem
  | _ => cases hread

/-- **An outcome that is not audited** is a publish that succeeded and a record that was not
written. -/
theorem Audited.unaudited_iff {machine : Machine} {attempt : PublishAttempt} {tr : Trace}
    {r : Except BoundaryError PublishOutcome} (h : Audited machine attempt [] tr r) :
    (∃ outcome path detail, r = .error (.outcomeNotAudited outcome path detail)) ↔
      ∃ pre outcome record e, (⟨.publishPrepared pre, .ok outcome⟩ : Event Answer) ∈ tr ∧
        (⟨.appendOutcome record, .error e⟩ : Event Answer) ∈ tr := by
  constructor
  · intro ⟨outcome, path, detail, hr⟩
    by_cases hintent : ∃ intent, (intent, .ok ()) ∈ intents tr
    · obtain ⟨intent, hintent⟩ := hintent
      obtain ⟨record, written, houtcomes, -, -, hconcluded⟩ := h.recorded intent hintent
      cases hconcluded with
      | published => cases hr
      | @unrecorded pre outcome e hpublished =>
        refine ⟨pre, outcome, record, e, hpublished, of_mem_outcomes ?_⟩
        rw [houtcomes]
        exact List.mem_cons_self
      | stopped hstops =>
        cases hr
        exact absurd rfl (hstops.not_unrecorded outcome path detail)
    · obtain ⟨-, -, e, he, hne, -⟩ := h.unrecorded (not_exists.1 hintent)
      rw [hr] at he
      cases he
      exact absurd rfl (hne outcome path detail)
  · intro ⟨pre, outcome, record, e, hpublished, hrecord⟩
    obtain ⟨before, after, htr⟩ := List.append_of_mem hpublished
    obtain ⟨destination, hauth⟩ := h.authorized before pre _ after htr
    obtain ⟨intent, hintent⟩ := hauth.recorded
    have hmem : (intent, .ok ()) ∈ intents tr := by
      rw [htr, intents, List.filterMap_append]
      refine List.mem_append_left _ ?_
      rw [List.nil_append, intents] at hintent
      rw [hintent]
      exact List.mem_cons_self
    obtain ⟨record', written, houtcomes, -, -, hconcluded⟩ := h.recorded intent hmem
    have hone := mem_outcomes hrecord
    rw [houtcomes, List.mem_singleton] at hone
    cases hone
    cases hconcluded with
    | unrecorded => exact ⟨_, _, _, rfl⟩
    | stopped _ hunpublished => exact absurd hpublished (hunpublished pre outcome)

/-- **A publish stands behind an audited, live and confirmed grant, and every attempt that has its
intent record asks for one outcome record that tells how it ended.** -/
theorem execute_gated {machine : Machine} {attempt : PublishAttempt} {tr : Trace}
    {r : Except BoundaryError PublishOutcome} (h : Prog.Runs (execute machine attempt) tr r) :
    (∀ before pre answer after,
      tr = before ++ (⟨.publishPrepared pre, answer⟩ : Event Answer) :: after →
        ∃ destination, Authorized attempt before pre destination) ∧
    (∀ intent, (⟨.appendIntent intent, .ok ()⟩ : Event Answer) ∈ tr →
      ∃ record written, outcomes tr = [(record, written)] ∧ record.attempt = intent.attempt ∧
        Agrees record.outcome r ∧ Concluded machine attempt tr record written r) ∧
    ((∀ intent, (⟨.appendIntent intent, .ok ()⟩ : Event Answer) ∉ tr) → outcomes tr = [] ∧
      (∀ pre answer, (⟨.publishPrepared pre, answer⟩ : Event Answer) ∉ tr) ∧
        ∃ e, r = .error e ∧ ∀ intent e',
          (⟨.appendIntent intent, .error e'⟩ : Event Answer) ∈ tr → e = .audit e') ∧
    ((∃ outcome path detail, r = .error (.outcomeNotAudited outcome path detail)) ↔
      ∃ pre outcome record e, (⟨.publishPrepared pre, .ok outcome⟩ : Event Answer) ∈ tr ∧
        (⟨.appendOutcome record, .error e⟩ : Event Answer) ∈ tr) := by
  have haudited := execute_audited h
  refine ⟨haudited.authorized, ?_, ?_, haudited.unaudited_iff⟩
  · intro intent hmem
    exact haudited.recorded intent (List.mem_filterMap.2 ⟨_, hmem, rfl⟩)
  · intro hnone
    obtain ⟨houtcomes, hpublish, e, hr, -, he⟩ :=
      haudited.unrecorded fun intent hmem => hnone intent (of_mem_intents hmem)
    exact ⟨houtcomes, hpublish, e, hr, fun intent e' hmem =>
      he intent e' (List.mem_filterMap.2 ⟨_, hmem, rfl⟩)⟩

/-- A machine on which paths are shown with slashes. -/
def slashes : Machine where
  normalizeDestination path := path.fileName.getD ""
  toStringLossy path := "/".intercalate (path.components.map fun
    | .normal name => name
    | _ => "")
  windows := false
  lowerExp _ := ""

/-- One grant, for one destination. -/
def granted : PublishAttempt where
  datasetName := "roads"
  destination := ⟨[.rootDir, .normal "out"]⟩
  grants := ⟨[⟨.publish, ⟨"roads", "sha256:00"⟩, .exact ⟨[.rootDir, .normal "out"]⟩,
    ⟨.osUser, "me"⟩, 0, NANOS_PER_SEC, by decide⟩], by decide⟩
  principal := ⟨.osUser, "me"⟩
  audit := ⟨[.rootDir, .normal "log"]⟩

/-- Everything goes well until the outcome is to be recorded. -/
def unrecorded : (q : Question) → Answer q
  | .preflight => .ok ⟨"00", "11"⟩
  | .canonicalize path => .ok path
  | .randomSuffix => "a"
  | .clock => ""
  | .now => 7
  | .appendIntent _ => .ok ()
  | .route => .interactive
  | .respond prompt => .ok ⟨prompt.confirmationPhrase⟩
  | .publishPrepared _ => .ok ⟨⟨[.rootDir, .normal "out"]⟩, "22", 3, 1⟩
  | .manifestHash _ => none
  | .appendOutcome _ => .error (.rotationFailed "log" "")
  | .eprintln _ => ()

theorem execute_gated_unrecorded :
    ∃ tr r, Prog.Runs (execute slashes granted) tr r ∧
      (∃ outcome path detail, r = .error (.outcomeNotAudited outcome path detail)) ∧
      ∃ pre outcome record e, (⟨.publishPrepared pre, .ok outcome⟩ : Event Answer) ∈ tr ∧
        (⟨.appendOutcome record, .error e⟩ : Event Answer) ∈ tr := by
  have hrun := Prog.runs_eval unrecorded (execute slashes granted)
  have hr : (Prog.eval unrecorded (execute slashes granted)).2 = .error (.outcomeNotAudited
      ⟨⟨[.rootDir, .normal "out"]⟩, "22", 3, 1⟩ "log"
      (AuditError.message slashes.lowerExp (.rotationFailed "log" ""))) := by
    decide +kernel
  exact ⟨_, _, hrun, ⟨_, _, _, hr⟩, (execute_gated hrun).2.2.2.1 ⟨_, _, _, hr⟩⟩

end SpatialIde.Kernel.Permission
