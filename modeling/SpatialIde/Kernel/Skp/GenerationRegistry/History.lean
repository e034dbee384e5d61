import SpatialIde.Kernel.Skp.GenerationRegistry
import SpatialIde.Lib.Runs

/-! # Histories of the generation registry

`Run` is a history of calls on one registry, in which each name is opened at most once.
`Recorded` is what the state says of the history behind it, and `Recorded.step` is one call.
-/

namespace SpatialIde.Kernel.Skp.GenerationRegistry

open Lib

inductive Call where
  | mintForOpen (dataset : String) (session : SessionRef)
  | liveGeneration (dataset : String)
  | attributeTicket (handle dataset : String)
  | ticketLiveness (handle : String)
  | endedReason (dataset : String)
  | beginClose (dataset : String)
  | invalidate (dataset : String) (reason : SessionEndReason)
  | forgetDataset (dataset : String)
  deriving DecidableEq, Repr

inductive Answer where
  | minted (g : Nat)
  | generation (result : Except NotLive Nat)
  | attributed (b : Bool)
  | liveness (l : TicketLiveness)
  | reason (r : Option SessionEndReason)
  | done
  | ended (report : Option EndReport)

/-- One call, as it was made. -/
structure Event where
  before : GenerationState
  call : Call
  clock : Clock Reading

namespace Event

def perform (e : Event) : Answer × GenerationState :=
  match e.call with
  | .mintForOpen dataset session => (mintForOpen e.before e.clock dataset session).map .minted id
  | .liveGeneration dataset => (liveGeneration e.before e.clock dataset).map .generation id
  | .attributeTicket handle dataset =>
    (attributeTicket e.before e.clock handle dataset).map .attributed id
  | .ticketLiveness handle => (ticketLiveness e.before e.clock handle).map .liveness id
  | .endedReason dataset => (endedReason e.before e.clock dataset).map .reason id
  | .beginClose dataset => (.done, beginClose e.before dataset)
  | .invalidate dataset reason => (invalidate e.before e.clock dataset reason).map .ended id
  | .forgetDataset dataset => (.done, forgetDataset e.before dataset)

def answer (e : Event) : Answer := e.perform.1

def after (e : Event) : GenerationState := e.perform.2

/-- The generation that the call minted for a dataset. -/
def opens (dataset : String) (e : Event) : Option (Nat × SessionRef) :=
  match e.call, e.answer with
  | .mintForOpen d session, .minted g => if d = dataset then some (g, session) else none
  | _, _ => none

/-- The dataset the call attributed a ticket to, and when. -/
def attributes (handle : String) (e : Event) : Option (String × Nat) :=
  match e.call, e.answer with
  | .attributeTicket h dataset, .attributed true =>
    if h = handle then some (dataset, e.clock.reads .stamp) else none
  | _, _ => none

/-- The end of a generation of a dataset that the call reports. -/
def ends (dataset : String) (e : Event) : Option EndReport :=
  match e.call, e.answer with
  | .invalidate d _, .ended report => if d = dataset then report else none
  | _, _ => none

end Event

/-- **A history of one registry**, from its creation: calls one after the other, on a clock that
never runs backwards, each name opened at most once. -/
inductive Run : List Event → GenerationState → Prop
  | start : Run [] .empty
  | next {es : List Event} {st : GenerationState} (run : Run es st) (call : Call)
      (clock : Clock Reading) (later : ∀ e ∈ es, e.clock.ended ≤ clock.begun)
      (fresh : ∀ dataset session, call = .mintForOpen dataset session →
        ∀ e ∈ es, e.opens dataset = none) :
      Run (es ++ [⟨st, call, clock⟩]) (Event.after ⟨st, call, clock⟩)

/-- What a ticket was last attributed to, and when. -/
def attribution (handle : String) (es : List Event) : Option (String × Nat) :=
  es.foldl (fun last e => (e.attributes handle).or last) none

theorem attribution_snoc {handle : String} {es : List Event} {e : Event} :
    attribution handle (es ++ [e]) = (e.attributes handle).or (attribution handle es) := by
  rw [attribution, List.foldl_append]
  rfl

/-- A run up to any of its calls. -/
theorem Run.split {es pre post : List Event} {st : GenerationState} {e : Event} (run : Run es st)
    (hes : es = pre ++ e :: post) : Run pre e.before ∧ ∀ a ∈ pre, a.clock.ended ≤ e.clock.begun := by
  induction run generalizing post with
  | start =>
    have := congrArg List.length hes
    simp at this
  | @next es' st' run call clock later fresh ih =>
    rcases snoc_eq_append_cons hes with ⟨rfl, rfl, -⟩ | ⟨post', -, hes'⟩
    · exact ⟨run, later⟩
    · exact ih hes'

/-! ### What the state says of the history -/

/-- **The state, and the history behind it**, up to a time. -/
structure Recorded (es : List Event) (now : Nat) (st : GenerationState) : Prop where
  /-- A live generation is one that was opened, and has not ended. -/
  live : ∀ d g s, st.live.get d = some (g, s) → (∃ m ∈ es, m.opens d = some (g, s)) ∧
    st.invalidated.get d = none ∧ ∀ e ∈ es, e.ends d = none
  /-- The numbers that were given out. -/
  number : ∀ e ∈ es, ∀ d g s, e.opens d = some (g, s) → g ≤ st.next
  /-- What has ended was opened. -/
  opened : ∀ e ∈ es, ∀ d, e.ends d ≠ none → ∃ m ∈ es, m.opens d ≠ none
  ended : ∀ d, es.countP (fun e => (e.ends d).isSome) ≤ 1
  ticket : ∀ h a, st.tickets.get h = some a → attribution h es = some (a.dataset, a.attributedAt)
  attributed : ∀ h d t, attribution h es = some (d, t) → ∃ m ∈ es, m.opens d ≠ none
  /-- The last attribution of a ticket, to a generation that is live, is kept in the window. -/
  kept : ∀ h d t g, attribution h es = some (d, t) → st.liveNumber d = some g →
    st.tickets.get h = some ⟨d, g, t⟩ ∨ t + MAX_AGE < now
  /-- A dead ticket was reported by the end of its generation. -/
  dead : ∀ h a, st.deadTickets.get h = some a →
    ∃ e ∈ es, ∃ report, e.ends a.dataset = some report ∧ report.reason = a.reason ∧
      h ∈ report.tickets

/-- The call opens nothing, ends nothing and attributes nothing. -/
structure Silent (e : Event) : Prop where
  opens : ∀ d, e.opens d = none
  ends : ∀ d, e.ends d = none
  attributes : ∀ h, e.attributes h = none

section

variable {es : List Event} {e : Event} {now : Nat} {st : GenerationState}

theorem recorded_empty : Recorded [] now .empty where
  live d g s h := by rw [GenerationState.empty, Table.get_empty] at h; cases h
  number _ he := absurd he List.not_mem_nil
  opened _ he := absurd he List.not_mem_nil
  ended _ := Nat.zero_le _
  ticket h a hget := by rw [GenerationState.empty, Table.get_empty] at hget; cases hget
  attributed h d t hat := by cases hat
  kept h d t g hat := by cases hat
  dead h a hget := by rw [GenerationState.empty, Table.get_empty] at hget; cases hget

theorem Recorded.mono {now' : Nat} (r : Recorded es now st) (hle : now ≤ now') :
    Recorded es now' st :=
  { r with kept := fun h d t g hat hlive => (r.kept h d t g hat hlive).imp_right (lt_of_lt_of_le · hle) }

theorem liveNumber_prune {clock : Clock Reading} {d : String} :
    (prune st clock).liveNumber d = st.liveNumber d := rfl

theorem Recorded.prune {clock : Clock Reading} (r : Recorded es now st) (hle : now ≤ clock.ended) :
    Recorded es clock.ended (prune st clock) where
  live := r.live
  number := r.number
  opened := r.opened
  ended := r.ended
  ticket h a hget := r.ticket h a (Table.get_retain_eq_some.1 hget).1
  attributed := r.attributed
  kept h d t g hat hlive := by
    rcases r.kept h d t g hat hlive with hget | hlate
    · by_cases hage : clock.reads (.ticket h) - t ≤ MAX_AGE
      · refine .inl (Table.get_retain_of_pos hget ?_)
        rw [liveNumber_prune] at hlive
        rw [hlive, beq_self_eq_true, Bool.and_true]
        exact decide_eq_true hage
      · have hread := clock.le_ended (.ticket h)
        exact .inr (by omega)
    · exact .inr (lt_of_lt_of_le hlate hle)
  dead h a hget := r.dead h a (Table.get_retain_eq_some.1 hget).1

theorem Recorded.silent (r : Recorded es now st) (hsilent : Silent e) :
    Recorded (es ++ [e]) now st := by
  have hattribution : ∀ h, attribution h (es ++ [e]) = attribution h es := by
    intro h
    rw [attribution_snoc, hsilent.attributes, Option.none_or]
  refine ⟨fun d g s hget => ?_, ?_, ?_, fun d => ?_, fun h a hget => ?_, fun h d t hat => ?_,
    fun h d t g hat hlive => ?_, fun h a hget => exists_snoc (r.dead h a hget)⟩
  · obtain ⟨hopens, hinvalidated, hends⟩ := r.live d g s hget
    exact ⟨exists_snoc hopens, hinvalidated, forall_snoc hends (hsilent.ends d)⟩
  · refine forall_snoc r.number fun d g s hopens => ?_
    rw [hsilent.opens] at hopens
    cases hopens
  · refine forall_snoc (fun a ha d hends => exists_snoc (r.opened a ha d hends)) fun d hends => ?_
    exact absurd (hsilent.ends d) hends
  · rw [List.countP_append, List.countP_singleton, hsilent.ends]
    exact r.ended d
  · rw [hattribution]
    exact r.ticket h a hget
  · rw [hattribution] at hat
    exact exists_snoc (r.attributed h d t hat)
  · rw [hattribution] at hat
    exact r.kept h d t g hat hlive

/-- The record does not depend on what is being closed. -/
theorem Recorded.closing {closing : Finset String} (r : Recorded es now st) :
    Recorded es now { st with closing := closing } :=
  ⟨r.live, r.number, r.opened, r.ended, r.ticket, r.attributed, r.kept, r.dead⟩

/-! ### One call -/

theorem Recorded.mint {d : String} {session : SessionRef} (r : Recorded es now st)
    (hopens : ∀ d', e.opens d' = if d = d' then some (st.next + 1, session) else none)
    (hends : ∀ d', e.ends d' = none) (hattributes : ∀ h, e.attributes h = none)
    (fresh : ∀ a ∈ es, a.opens d = none) :
    Recorded (es ++ [e]) now { st with
      next := st.next + 1
      live := st.live.put d (st.next + 1, session)
      invalidated := st.invalidated.remove d
      deadTickets := st.deadTickets.retain fun _ a => a.dataset != d } := by
  have hattribution : ∀ h, attribution h (es ++ [e]) = attribution h es := by
    intro h
    rw [attribution_snoc, hattributes, Option.none_or]
  have hnot : ¬ ∃ m ∈ es, m.opens d ≠ none := fun ⟨m, hm, hne⟩ => hne (fresh m hm)
  refine ⟨fun d' g s hget => ?_, ?_, ?_, fun d' => ?_, fun h a hget => ?_, fun h d' t hat => ?_,
    fun h d' t g hat hlive => ?_, fun h a hget => ?_⟩
  · by_cases hself : d' = d
    · subst hself
      rw [Table.get_put_self] at hget
      cases hget
      refine ⟨⟨e, mem_snoc, by rw [hopens, if_pos rfl]⟩, Table.get_remove_self,
        forall_snoc (fun a ha => ?_) (hends d')⟩
      cases hcase : a.ends d' with
      | none => rfl
      | some report =>
        exact absurd (r.opened a ha d' (by rw [hcase]; exact Option.some_ne_none _)) hnot
    · rw [Table.get_put_of_ne hself] at hget
      obtain ⟨hm, hinvalidated, hnone⟩ := r.live d' g s hget
      exact ⟨exists_snoc hm, (Table.get_remove_of_ne hself).trans hinvalidated,
        forall_snoc hnone (hends d')⟩
  · refine forall_snoc (fun a ha d' g s ho => Nat.le_succ_of_le (r.number a ha d' g s ho))
      fun d' g s ho => ?_
    rw [hopens] at ho
    split_ifs at ho
    cases ho
    exact Nat.le_refl _
  · refine forall_snoc (fun a ha d' hne => exists_snoc (r.opened a ha d' hne)) fun d' hne => ?_
    exact absurd (hends d') hne
  · rw [List.countP_append, List.countP_singleton, hends]
    exact r.ended d'
  · rw [hattribution]
    exact r.ticket h a hget
  · rw [hattribution] at hat
    exact exists_snoc (r.attributed h d' t hat)
  · rw [hattribution] at hat
    by_cases hself : d' = d
    · rw [hself] at hat
      exact absurd (r.attributed h d t hat) hnot
    · refine r.kept h d' t g hat ?_
      rw [GenerationState.liveNumber, Table.get_put_of_ne hself] at hlive
      exact hlive
  · exact exists_snoc (r.dead h a (Table.get_retain_eq_some.1 hget).1)

theorem Recorded.attribute {h d : String} {g t : Nat} (r : Recorded es now st)
    (hopens : ∀ d', e.opens d' = none) (hends : ∀ d', e.ends d' = none)
    (hattributes : ∀ h', e.attributes h' = if h = h' then some (d, t) else none)
    (hlive : st.liveNumber d = some g) :
    Recorded (es ++ [e]) now { st with tickets := st.tickets.put h ⟨d, g, t⟩ } := by
  have hself : attribution h (es ++ [e]) = some (d, t) := by
    rw [attribution_snoc, hattributes, if_pos rfl]
    rfl
  have hother : ∀ h', h' ≠ h → attribution h' (es ++ [e]) = attribution h' es := by
    intro h' hne
    rw [attribution_snoc, hattributes, if_neg (Ne.symm hne), Option.none_or]
  refine ⟨fun d' g s hget => ?_, ?_, ?_, fun d' => ?_, fun h' a hget => ?_, fun h' d' t' hat => ?_,
    fun h' d' t' g' hat hlive' => ?_, fun h' a hget => exists_snoc (r.dead h' a hget)⟩
  · obtain ⟨hm, hinvalidated, hnone⟩ := r.live d' g s hget
    exact ⟨exists_snoc hm, hinvalidated, forall_snoc hnone (hends d')⟩
  · refine forall_snoc r.number fun d' g s ho => ?_
    rw [hopens] at ho
    cases ho
  · refine forall_snoc (fun a ha d' hne => exists_snoc (r.opened a ha d' hne)) fun d' hne => ?_
    exact absurd (hends d') hne
  · rw [List.countP_append, List.countP_singleton, hends]
    exact r.ended d'
  · by_cases hne : h' = h
    · subst hne
      rw [Table.get_put_self] at hget
      cases hget
      exact hself
    · rw [Table.get_put_of_ne hne] at hget
      rw [hother h' hne]
      exact r.ticket h' a hget
  · by_cases hne : h' = h
    · subst hne
      rw [hself] at hat
      cases hat
      obtain ⟨⟨g', s⟩, hget, -⟩ := Option.map_eq_some_iff.1 hlive
      obtain ⟨⟨m, hm, ho⟩, -⟩ := r.live d g' s hget
      exact exists_snoc ⟨m, hm, by rw [ho]; exact Option.some_ne_none _⟩
    · rw [hother h' hne] at hat
      exact exists_snoc (r.attributed h' d' t' hat)
  · by_cases hne : h' = h
    · subst hne
      rw [hself] at hat
      cases hat
      have hg : st.liveNumber d = some g' := hlive'
      rw [hlive] at hg
      cases hg
      exact .inl Table.get_put_self
    · rw [hother h' hne] at hat
      refine (r.kept h' d' t' g' hat hlive').imp_left fun hget => ?_
      exact (Table.get_put_of_ne hne).trans hget

theorem Recorded.invalidate {d : String} {report : EndReport} {t : Nat} (r : Recorded es now st)
    (hopens : ∀ d', e.opens d' = none)
    (hends : ∀ d', e.ends d' = if d = d' then some report else none)
    (hattributes : ∀ h, e.attributes h = none) (hlive : st.live.get d ≠ none) :
    Recorded (es ++ [e]) now { st with
      live := st.live.remove d
      invalidated := st.invalidated.put d report.reason
      deadTickets := st.deadTickets.putAll report.tickets ⟨d, report.reason, t⟩ } := by
  have hattribution : ∀ h, attribution h (es ++ [e]) = attribution h es := by
    intro h
    rw [attribution_snoc, hattributes, Option.none_or]
  obtain ⟨⟨g, s⟩, hget⟩ := Option.ne_none_iff_exists'.1 hlive
  obtain ⟨⟨m, hm, ho⟩, -, hnone⟩ := r.live d g s hget
  refine ⟨fun d' g s hget => ?_, ?_, ?_, fun d' => ?_, fun h a hget => ?_, fun h d' t hat => ?_,
    fun h d' t g hat hlive => ?_, fun h a hget => ?_⟩
  · by_cases hself : d' = d
    · subst hself
      rw [Table.get_remove_self] at hget
      cases hget
    · rw [Table.get_remove_of_ne hself] at hget
      obtain ⟨hm, hinvalidated, hnone⟩ := r.live d' g s hget
      refine ⟨exists_snoc hm, (Table.get_put_of_ne hself).trans hinvalidated,
        forall_snoc hnone ?_⟩
      rw [hends, if_neg (Ne.symm hself)]
  · refine forall_snoc r.number fun d' g s ho => ?_
    rw [hopens] at ho
    cases ho
  · refine forall_snoc (fun a ha d' hne => exists_snoc (r.opened a ha d' hne)) fun d' hne => ?_
    rw [hends] at hne
    split_ifs at hne with hself
    · exact exists_snoc ⟨m, hm, by rw [← hself, ho]; exact Option.some_ne_none _⟩
    · exact absurd rfl hne
  · rw [List.countP_append, List.countP_singleton, hends]
    by_cases hself : d = d'
    · subst hself
      have hzero : es.countP (fun e => (e.ends d).isSome) = 0 := by
        refine List.countP_eq_zero.2 fun a ha => ?_
        rw [hnone a ha]
        exact Bool.false_ne_true
      rw [hzero, if_pos rfl]
      exact Nat.le_refl 1
    · rw [if_neg hself]
      exact r.ended d'
  · rw [hattribution]
    exact r.ticket h a hget
  · rw [hattribution] at hat
    exact exists_snoc (r.attributed h d' t hat)
  · rw [hattribution] at hat
    by_cases hself : d' = d
    · subst hself
      rw [GenerationState.liveNumber, Table.get_remove_self] at hlive
      cases hlive
    · rw [GenerationState.liveNumber, Table.get_remove_of_ne hself] at hlive
      exact r.kept h d' t g hat hlive
  · rw [Table.get_putAll] at hget
    split_ifs at hget with hmem
    · cases hget
      exact ⟨e, mem_snoc, report, by rw [hends, if_pos rfl], rfl, hmem⟩
    · exact exists_snoc (r.dead h a hget)

theorem Recorded.forget {d : String} (r : Recorded es now st) :
    Recorded es now (forgetDataset st d) := by
  refine ⟨fun d' g s hget => ?_, r.number, r.opened, r.ended, fun h a hget => ?_, r.attributed,
    fun h d' t g hat hlive => ?_, fun h a hget => ?_⟩
  · by_cases hself : d' = d
    · subst hself
      rw [forgetDataset, Table.get_remove_self] at hget
      cases hget
    · rw [forgetDataset, Table.get_remove_of_ne hself] at hget
      obtain ⟨hm, hinvalidated, hnone⟩ := r.live d' g s hget
      exact ⟨hm, (Table.get_remove_of_ne hself).trans hinvalidated, hnone⟩
  · exact r.ticket h a (Table.get_retain_eq_some.1 hget).1
  · by_cases hself : d' = d
    · subst hself
      rw [GenerationState.liveNumber, forgetDataset, Table.get_remove_self] at hlive
      cases hlive
    · rw [GenerationState.liveNumber, forgetDataset, Table.get_remove_of_ne hself] at hlive
      refine (r.kept h d' t g hat hlive).imp_left fun hget => ?_
      exact Table.get_retain_of_pos hget (bne_iff_ne.2 hself)
  · exact r.dead h a (Table.get_retain_eq_some.1 hget).1

/-- What the end of a live generation reports. -/
def endReport (st : GenerationState) (d : String) (reason : SessionEndReason) (g : Nat)
    (session : SessionRef) : EndReport :=
  ⟨session, (st.invalidated.get d).getD reason,
    (st.tickets.select fun _ a => a.dataset == d && a.generation == g).map Prod.fst⟩

theorem invalidate_perform {d : String} {g : Nat} {session : SessionRef} {reason : SessionEndReason}
    {clock : Clock Reading} (hget : st.live.get d = some (g, session)) :
    Event.perform ⟨st, .invalidate d reason, clock⟩ =
      (.ended (some (endReport st d reason g session)), GenerationRegistry.prune { st with
        live := st.live.remove d
        invalidated := st.invalidated.put d (endReport st d reason g session).reason
        deadTickets := st.deadTickets.putAll (endReport st d reason g session).tickets
          ⟨d, (endReport st d reason g session).reason, clock.reads .stamp⟩ } clock) := by
  simp only [Event.perform, GenerationRegistry.invalidate, hget]
  rfl

/-- The end of a generation that is not. -/
theorem invalidate_perform_none {d : String} {reason : SessionEndReason} {clock : Clock Reading}
    (hget : st.live.get d = none) : Event.perform ⟨st, .invalidate d reason, clock⟩ =
      (.ended none, GenerationRegistry.prune st clock) := by
  simp only [Event.perform, GenerationRegistry.invalidate, hget]
  rfl

/-- A ticket attributed to a generation that is live, of a dataset that is not being closed. -/
theorem attribute_perform {h d : String} {g : Nat} {clock : Clock Reading} (hclosing : d ∉ st.closing)
    (hlive : st.liveNumber d = some g) : Event.perform ⟨st, .attributeTicket h d, clock⟩ =
      (.attributed true, { GenerationRegistry.prune st clock with
        tickets := (GenerationRegistry.prune st clock).tickets.put h
          ⟨d, g, clock.reads .stamp⟩ }) := by
  simp only [Event.perform, attributeTicket]
  rw [if_neg (show d ∉ (GenerationRegistry.prune st clock).closing from hclosing), liveNumber_prune,
    hlive]
  rfl

theorem attribute_perform_refused {h d : String} {clock : Clock Reading}
    (hnot : d ∈ st.closing ∨ st.liveNumber d = none) :
    Event.perform ⟨st, .attributeTicket h d, clock⟩ =
      (.attributed false, GenerationRegistry.prune st clock) := by
  simp only [Event.perform, attributeTicket]
  by_cases hclosing : d ∈ (GenerationRegistry.prune st clock).closing
  · rw [if_pos hclosing]
    rfl
  · rw [if_neg hclosing, liveNumber_prune, hnot.resolve_left hclosing]
    rfl

/-- **One call keeps the record.** -/
theorem Recorded.step (r : Recorded es e.clock.begun e.before)
    (fresh : ∀ d session, e.call = .mintForOpen d session → ∀ a ∈ es, a.opens d = none) :
    Recorded (es ++ [e]) e.clock.ended e.after := by
  obtain ⟨st, call, clock⟩ := e
  have hpruned : Recorded es clock.ended (GenerationRegistry.prune st clock) :=
    r.prune clock.begun_le_ended
  have hmono : Recorded es clock.ended st := r.mono clock.begun_le_ended
  cases call with
  | mintForOpen d session =>
    exact hpruned.mint (fun _ => rfl) (fun _ => rfl) (fun _ => rfl) (fresh d session rfl)
  | liveGeneration d =>
    have hafter : Event.after ⟨st, .liveGeneration d, clock⟩ = GenerationRegistry.prune st clock := by
      simp only [Event.after, Event.perform, liveGeneration, Prod.map]
      split
      · rfl
      · split_ifs
        · rfl
        · split
          · rfl
          · rfl
    rw [hafter]
    exact hpruned.silent ⟨fun _ => rfl, fun _ => rfl, fun _ => rfl⟩
  | attributeTicket h d =>
    by_cases hnot : d ∈ st.closing ∨ st.liveNumber d = none
    · have hperform := @attribute_perform_refused st h d clock hnot
      rw [Event.after, hperform]
      refine hpruned.silent ⟨fun _ => rfl, fun _ => rfl, fun _ => ?_⟩
      simp only [Event.attributes, Event.answer, hperform]
    · obtain ⟨hclosing, hlive⟩ := not_or.1 hnot
      obtain ⟨g, hlive⟩ := Option.ne_none_iff_exists'.1 hlive
      have hperform := @attribute_perform st h d g clock hclosing hlive
      rw [Event.after, hperform]
      refine hpruned.attribute (fun _ => rfl) (fun _ => rfl) (fun h' => ?_) hlive
      simp only [Event.attributes, Event.answer, hperform]
  | ticketLiveness h =>
    have hafter : Event.after ⟨st, .ticketLiveness h, clock⟩ = GenerationRegistry.prune st clock := by
      simp only [Event.after, Event.perform, ticketLiveness, Prod.map]
      split
      · rfl
      · split
        · rfl
        · rfl
    rw [hafter]
    exact hpruned.silent ⟨fun _ => rfl, fun _ => rfl, fun _ => rfl⟩
  | endedReason d => exact hpruned.silent ⟨fun _ => rfl, fun _ => rfl, fun _ => rfl⟩
  | beginClose d => exact hmono.closing.silent ⟨fun _ => rfl, fun _ => rfl, fun _ => rfl⟩
  | forgetDataset d => exact hmono.forget.silent ⟨fun _ => rfl, fun _ => rfl, fun _ => rfl⟩
  | invalidate d reason =>
    cases hget : st.live.get d with
    | none =>
      have hperform := @invalidate_perform_none st d reason clock hget
      rw [Event.after, hperform]
      refine hpruned.silent ⟨fun _ => rfl, fun d' => ?_, fun _ => rfl⟩
      simp only [Event.ends, Event.answer, hperform, ite_self]
    | some live =>
      obtain ⟨g, session⟩ := live
      have hperform := @invalidate_perform st d g session reason clock hget
      rw [Event.after, hperform]
      refine Recorded.prune ?_ (Nat.le_refl _)
      refine hmono.invalidate (fun _ => rfl) (fun d' => ?_) (fun _ => rfl) ?_
      · simp only [Event.ends, Event.answer, hperform]
      · rw [hget]
        exact Option.some_ne_none _

end

theorem Run.recorded {es : List Event} {st : GenerationState} (run : Run es st) :
    ∀ now, (∀ e ∈ es, e.clock.ended ≤ now) → Recorded es now st := by
  induction run with
  | start => exact fun _ _ => recorded_empty
  | next run call clock later fresh ih =>
    intro now hnow
    have hended := hnow _ mem_snoc
    exact (Recorded.step (ih _ later) fresh).mono hended

end SpatialIde.Kernel.Skp.GenerationRegistry
