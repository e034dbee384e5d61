import SpatialIde.Kernel.Skp.GenerationRegistry.History

/-! # The generation registry is consistent

What each answer says of the calls before it (`Explained`), and what is left of a dataset that was
forgotten (`Forgotten`).
-/

namespace SpatialIde.Kernel.Skp.GenerationRegistry

open Lib

/-! ### Answers -/

/-- A generation of the ticket was ended for this reason. -/
def EndedFor (pre : List Event) (handle : String) (reason : SessionEndReason) : Prop :=
  ∃ m ∈ pre, ∃ d report, m.ends d = some report ∧ report.reason = reason ∧ handle ∈ report.tickets

/-- **What an answer says of the calls before it.** -/
def Explained (pre : List Event) (e : Event) : Prop :=
  match e.call, e.answer with
  | .invalidate d reason, .ended (some report) =>
    report.reason = reason ∧ (∃ m ∈ pre, ∃ g, m.opens d = some (g, report.session)) ∧
      ∀ h, (h ∈ report.tickets → ∃ t, attribution h pre = some (d, t)) ∧
        ∀ t, attribution h pre = some (d, t) → e.clock.ended ≤ t + MAX_AGE → h ∈ report.tickets
  | .ticketLiveness h, .liveness .live =>
    ∃ d t, attribution h pre = some (d, t) ∧ e.before.live.get d ≠ none
  | .ticketLiveness h, .liveness .endedBySourceChange => EndedFor pre h .observedChange
  | .ticketLiveness h, .liveness .endedByCoverageLoss => EndedFor pre h .coverageLost
  | _, _ => True

section

variable {pre : List Event} {st : GenerationState} {clock : Clock Reading}

theorem explained_invalidate {d : String} {reason : SessionEndReason}
    (r : Recorded pre clock.begun st) : Explained pre ⟨st, .invalidate d reason, clock⟩ := by
  cases hget : st.live.get d with
  | none =>
    have hperform := @invalidate_perform_none st d reason clock hget
    simp only [Explained, Event.answer, hperform]
  | some live =>
    obtain ⟨g, session⟩ := live
    have hperform := @invalidate_perform st d g session reason clock hget
    obtain ⟨⟨m, hm, hopens⟩, hinvalidated, -⟩ := r.live d g session hget
    have hlive : st.liveNumber d = some g := by rw [GenerationState.liveNumber, hget]; rfl
    simp only [Explained, Event.answer, hperform]
    refine ⟨?_, ⟨m, hm, g, hopens⟩, fun h => ⟨fun hmem => ?_, fun t hat hage => ?_⟩⟩
    · rw [endReport, hinvalidated]
      rfl
    · obtain ⟨⟨h', a⟩, hselect, rfl⟩ := List.mem_map.1 hmem
      obtain ⟨hticket, hours⟩ := Table.mem_select.1 hselect
      rw [Bool.and_eq_true, beq_iff_eq] at hours
      have hat := r.ticket h' a hticket
      rw [hours.1] at hat
      exact ⟨a.attributedAt, hat⟩
    · rcases r.kept h d t g hat hlive with hticket | hlate
      · refine List.mem_map.2 ⟨(h, ⟨d, g, t⟩), Table.mem_select.2 ⟨hticket, ?_⟩, rfl⟩
        rw [Bool.and_eq_true, beq_iff_eq, beq_iff_eq]
        exact ⟨rfl, rfl⟩
      · have hbegun := clock.begun_le_ended
        omega

theorem explained_ticketLiveness {h : String} (r : Recorded pre clock.begun st) :
    Explained pre ⟨st, .ticketLiveness h, clock⟩ := by
  cases hdead : (prune st clock).deadTickets.get h with
  | some dead =>
    have hanswer : Event.answer ⟨st, .ticketLiveness h, clock⟩ = .liveness (livenessOf dead.reason) := by
      simp only [Event.answer, Event.perform, ticketLiveness, hdead, Prod.map]
    obtain ⟨m, hm, report, hends, hreason, hmem⟩ := r.dead h dead (Table.get_retain_eq_some.1 hdead).1
    simp only [Explained, hanswer]
    cases hcase : dead.reason with
    | observedChange => exact ⟨m, hm, dead.dataset, report, hends, hreason.trans hcase, hmem⟩
    | coverageLost => exact ⟨m, hm, dead.dataset, report, hends, hreason.trans hcase, hmem⟩
  | none =>
    cases hticket : (prune st clock).tickets.get h with
    | none =>
      have hanswer : Event.answer ⟨st, .ticketLiveness h, clock⟩ = .liveness .unknown := by
        simp only [Event.answer, Event.perform, ticketLiveness, hdead, hticket, Prod.map]
      simp only [Explained, hanswer]
    | some a =>
      have hanswer : Event.answer ⟨st, .ticketLiveness h, clock⟩ = .liveness
          (if st.liveNumber a.dataset = some a.generation then .live else .unknown) := by
        simp only [Event.answer, Event.perform, ticketLiveness, hdead, hticket, Prod.map]
        rfl
      by_cases hlive : st.liveNumber a.dataset = some a.generation
      · rw [if_pos hlive] at hanswer
        simp only [Explained, hanswer]
        refine ⟨a.dataset, a.attributedAt, r.ticket h a (Table.get_retain_eq_some.1 hticket).1, ?_⟩
        intro hnone
        rw [GenerationState.liveNumber, hnone] at hlive
        cases hlive
      · rw [if_neg hlive] at hanswer
        simp only [Explained, hanswer]

theorem explained {e : Event} (r : Recorded pre e.clock.begun e.before) : Explained pre e := by
  obtain ⟨st, call, clock⟩ := e
  cases call with
  | invalidate d reason => exact explained_invalidate r
  | ticketLiveness h => exact explained_ticketLiveness r
  | mintForOpen d session => simp only [Explained]
  | liveGeneration d => simp only [Explained]
  | attributeTicket h d => simp only [Explained]
  | endedReason d => simp only [Explained]
  | beginClose d => simp only [Explained]
  | forgetDataset d => simp only [Explained]

end

/-! ### Numbers -/

/-- The number of the generation that the call minted. -/
def Event.minted (e : Event) : Option Nat :=
  match e.answer with
  | .minted g => some g
  | _ => none

theorem exists_opens {e : Event} {g : Nat} (h : e.minted = some g) :
    ∃ d s, e.opens d = some (g, s) := by
  obtain ⟨st, call, clock⟩ := e
  cases call with
  | mintForOpen d s =>
    cases h
    exact ⟨d, s, if_pos rfl⟩
  | _ => cases h

theorem minted_eq {st : GenerationState} {call : Call} {clock : Clock Reading} {g : Nat}
    (h : Event.minted ⟨st, call, clock⟩ = some g) : g = st.next + 1 := by
  cases call with
  | mintForOpen d s =>
    cases h
    rfl
  | _ => cases h

/-- The numbers of the generations grow. -/
theorem Run.pairwise_minted {es : List Event} {st : GenerationState} (run : Run es st) :
    (es.filterMap Event.minted).Pairwise (· < ·) := by
  induction run with
  | start => exact List.Pairwise.nil
  | @next es st run call clock later fresh ih =>
    rw [List.filterMap_append, List.pairwise_append]
    have hrecorded := run.recorded _ later
    refine ⟨ih, ?_, fun g hg g' hg' => ?_⟩
    · cases hm : Event.minted ⟨st, call, clock⟩ with
      | none => rw [List.filterMap_cons_none hm]; exact List.Pairwise.nil
      | some g => rw [List.filterMap_cons_some hm]; exact List.pairwise_singleton _ _
    · obtain ⟨e, he, hminted⟩ := List.mem_filterMap.1 hg
      obtain ⟨d, s, hopens⟩ := exists_opens hminted
      have hle := hrecorded.number e he d g s hopens
      obtain ⟨e', he', hminted'⟩ := List.mem_filterMap.1 hg'
      rw [List.mem_singleton.1 he'] at hminted'
      have heq := minted_eq hminted'
      omega

/-! ### Forgotten datasets -/

/-- **Nothing mentions the dataset.** -/
structure Forgotten (st : GenerationState) (d : String) : Prop where
  live : st.live.get d = none
  invalidated : st.invalidated.get d = none
  closing : d ∉ st.closing
  tickets : ∀ h a, st.tickets.get h = some a → a.dataset ≠ d
  deadTickets : ∀ h a, st.deadTickets.get h = some a → a.dataset ≠ d

/-- The call opens the dataset, or begins to close it. -/
def Call.Revives (d : String) (call : Call) : Prop :=
  (∃ session, call = .mintForOpen d session) ∨ call = .beginClose d

section

variable {st : GenerationState} {clock : Clock Reading} {d : String}

theorem forgotten_forgetDataset : Forgotten (forgetDataset st d) d where
  live := Table.get_remove_self
  invalidated := Table.get_remove_self
  closing := Finset.notMem_erase d st.closing
  tickets _ _ hget := bne_iff_ne.1 (Table.get_retain_eq_some.1 hget).2
  deadTickets _ _ hget := bne_iff_ne.1 (Table.get_retain_eq_some.1 hget).2

theorem Forgotten.prune (f : Forgotten st d) : Forgotten (prune st clock) d where
  live := f.live
  invalidated := f.invalidated
  closing := f.closing
  tickets h a hget := f.tickets h a (Table.get_retain_eq_some.1 hget).1
  deadTickets h a hget := f.deadTickets h a (Table.get_retain_eq_some.1 hget).1

theorem get_remove_eq_none {α : Type} {t : Table String α} {k k' : String} (h : t.get k = none) :
    (t.remove k').get k = none := by
  by_cases hself : k = k'
  · rw [hself]
    exact Table.get_remove_self
  · rw [Table.get_remove_of_ne hself]
    exact h

/-- **One call** that neither opens the dataset nor begins to close it leaves it forgotten. -/
theorem Forgotten.step {e : Event} (f : Forgotten e.before d) (hnot : ¬ e.call.Revives d) :
    Forgotten e.after d := by
  obtain ⟨st, call, clock⟩ := e
  have hpruned : Forgotten (GenerationRegistry.prune st clock) d := Forgotten.prune f
  cases call with
  | mintForOpen d' session =>
    have hne : d ≠ d' := fun heq => hnot (.inl ⟨session, by rw [heq]⟩)
    exact ⟨(Table.get_put_of_ne hne).trans hpruned.live, get_remove_eq_none hpruned.invalidated,
      hpruned.closing, hpruned.tickets,
      fun h a hget => hpruned.deadTickets h a (Table.get_retain_eq_some.1 hget).1⟩
  | liveGeneration d' =>
    simp only [Event.after, Event.perform, liveGeneration, Prod.map]
    split
    · exact hpruned
    · split_ifs
      · exact hpruned
      · split
        · exact hpruned
        · exact hpruned
  | attributeTicket h d' =>
    by_cases hrefused : d' ∈ st.closing ∨ st.liveNumber d' = none
    · rw [Event.after, attribute_perform_refused hrefused]
      exact hpruned
    · obtain ⟨hclosing, hlive⟩ := not_or.1 hrefused
      have hne : d' ≠ d := by
        intro heq
        rw [heq, GenerationState.liveNumber, f.live] at hlive
        exact hlive rfl
      obtain ⟨g, hlive⟩ := Option.ne_none_iff_exists'.1 hlive
      rw [Event.after, attribute_perform hclosing hlive]
      refine ⟨hpruned.live, hpruned.invalidated, hpruned.closing, fun h' a hget => ?_,
        hpruned.deadTickets⟩
      by_cases hself : h' = h
      · rw [hself, Table.get_put_self] at hget
        cases hget
        exact hne
      · rw [Table.get_put_of_ne hself] at hget
        exact hpruned.tickets h' a hget
  | ticketLiveness h =>
    simp only [Event.after, Event.perform, ticketLiveness, Prod.map]
    split
    · exact hpruned
    · split
      · exact hpruned
      · exact hpruned
  | endedReason d' => exact hpruned
  | beginClose d' =>
    have hne : d ≠ d' := fun heq => hnot (.inr (by rw [heq]))
    refine ⟨f.live, f.invalidated, fun hmem => ?_, f.tickets, f.deadTickets⟩
    rcases Finset.mem_insert.1 hmem with heq | hmem
    · exact hne heq
    · exact f.closing hmem
  | forgetDataset d' =>
    exact ⟨get_remove_eq_none f.live, get_remove_eq_none f.invalidated,
      fun hmem => f.closing (Finset.mem_of_mem_erase hmem),
      fun h a hget => f.tickets h a (Table.get_retain_eq_some.1 hget).1,
      fun h a hget => f.deadTickets h a (Table.get_retain_eq_some.1 hget).1⟩
  | invalidate d' reason =>
    cases hget : st.live.get d' with
    | none =>
      rw [Event.after, invalidate_perform_none hget]
      exact hpruned
    | some live =>
      obtain ⟨g, session⟩ := live
      have hne : d ≠ d' := by
        intro heq
        have hnone : st.live.get d = none := f.live
        rw [heq, hget] at hnone
        cases hnone
      rw [Event.after, invalidate_perform hget]
      refine Forgotten.prune ⟨get_remove_eq_none f.live,
        (Table.get_put_of_ne hne).trans f.invalidated, f.closing, f.tickets, fun h a hdead => ?_⟩
      rw [Table.get_putAll] at hdead
      split_ifs at hdead with hmem
      · cases hdead
        exact Ne.symm hne
      · exact f.deadTickets h a hdead

end

theorem Run.forgotten {es pre post : List Event} {st : GenerationState} {e : Event} {d : String}
    (run : Run es st) (hes : es = pre ++ e :: post) (hcall : e.call = .forgetDataset d)
    (hpost : ∀ a ∈ post, ¬ a.call.Revives d) : Forgotten st d := by
  induction run generalizing post with
  | start =>
    have hlength := congrArg List.length hes
    simp at hlength
  | @next es st run call clock later fresh ih =>
    rcases snoc_eq_append_cons hes with ⟨-, rfl, -⟩ | ⟨post', rfl, hes'⟩
    · dsimp only at hcall
      subst hcall
      exact forgotten_forgetDataset
    · exact Forgotten.step (ih hes' fun a ha => hpost a (List.mem_append_left _ ha))
        (hpost _ mem_snoc)

theorem Run.exists_now {es : List Event} {st : GenerationState} (run : Run es st) :
    ∃ now, ∀ e ∈ es, e.clock.ended ≤ now := by
  cases run with
  | start => exact ⟨0, fun _ he => absurd he List.not_mem_nil⟩
  | next run call clock later fresh =>
    exact ⟨clock.ended, forall_snoc (fun e he => le_trans (later e he) clock.begun_le_ended)
      (Nat.le_refl _)⟩

/-- **The generation registry is consistent.**  No dataset is both live and marked ended; the numbers
of the generations grow; a generation ends at most once; every answer is explained by the calls
before it; and what is forgotten stays so until it is opened again, or begins to close again. -/
theorem Run.consistent {es : List Event} {st : GenerationState} (run : Run es st) :
    (∀ d, st.live.get d = none ∨ st.invalidated.get d = none) ∧
      (es.filterMap Event.minted).Pairwise (· < ·) ∧
      (∀ d, es.countP (fun e => (e.ends d).isSome) ≤ 1) ∧
      (∀ pre e post, es = pre ++ e :: post → Explained pre e) ∧
      ∀ pre e post d, es = pre ++ e :: post → e.call = .forgetDataset d →
        (∀ a ∈ post, ¬ a.call.Revives d) → Forgotten st d := by
  obtain ⟨now, hnow⟩ := run.exists_now
  have hrecorded := run.recorded now hnow
  refine ⟨fun d => ?_, run.pairwise_minted, hrecorded.ended, fun pre e post hes => ?_,
    fun pre e post d hes hcall hpost => run.forgotten hes hcall hpost⟩
  · cases hget : st.live.get d with
    | none => exact .inl rfl
    | some live => exact .inr (hrecorded.live d live.1 live.2 hget).2.1
  · obtain ⟨hpre, hlater⟩ := run.split hes
    exact explained (hpre.recorded _ hlater)

def opening : Event := ⟨.empty, .mintForOpen "ds_1" "sr_1", .still 0⟩

def attributing : Event := ⟨opening.after, .attributeTicket "sh_1" "ds_1", .still 1⟩

def ending : Event := ⟨attributing.after, .invalidate "ds_1" .coverageLost, .still 2⟩

example : ending.ends "ds_1" = some ⟨"sr_1", .coverageLost, ["sh_1"]⟩ := by decide

theorem run_ending : Run [opening, attributing, ending] ending.after := by
  have hopen : Run [opening] opening.after :=
    .next .start opening.call opening.clock (fun _ he => absurd he List.not_mem_nil)
      fun _ _ _ _ he => absurd he List.not_mem_nil
  have hattribute : Run [opening, attributing] attributing.after := by
    refine .next hopen attributing.call attributing.clock (fun e he => ?_) fun d s hcall => ?_
    · rw [List.mem_singleton.1 he]
      decide
    · cases hcall
  refine .next hattribute ending.call ending.clock (fun e he => ?_) fun d s hcall => ?_
  · simp only [List.mem_cons, List.not_mem_nil, or_false] at he
    rcases he with rfl | rfl
    · decide
    · decide
  · cases hcall

theorem consistent_ending : Explained [opening, attributing] ending :=
  (Run.consistent run_ending).2.2.2.1 [opening, attributing] ending [] rfl

def forgetting : Event := ⟨.empty, .forgetDataset "ds_1", .still 0⟩

def closingAgain : Event := ⟨forgetting.after, .beginClose "ds_1", .still 0⟩

/-- A close that begins after another one has forgotten the dataset mentions it again. -/
theorem closing_after_forget : ∃ es st, Run es st ∧ (∃ pre e post, es = pre ++ e :: post ∧
      e.call = .forgetDataset "ds_1" ∧ ∀ a ∈ post, ∀ s, a.call ≠ .mintForOpen "ds_1" s) ∧
    ¬ Forgotten st "ds_1" := by
  have hforget : Run [forgetting] forgetting.after :=
    .next .start forgetting.call forgetting.clock (fun _ he => absurd he List.not_mem_nil)
      fun _ _ _ _ he => absurd he List.not_mem_nil
  have hclose : Run [forgetting, closingAgain] closingAgain.after := by
    refine .next hforget closingAgain.call closingAgain.clock (fun e he => ?_) fun d s hcall => ?_
    · rw [List.mem_singleton.1 he]
      decide
    · cases hcall
  refine ⟨_, _, hclose, ⟨[], forgetting, [closingAgain], rfl, rfl, fun a ha s => ?_⟩,
    fun f => f.closing ?_⟩
  · rw [List.mem_singleton.1 ha]
    exact fun h => by cases h
  · exact Finset.mem_insert_self "ds_1" _

end SpatialIde.Kernel.Skp.GenerationRegistry
