import SpatialIde.Kernel.Skp.StreamRegistry

/-! # What one call does to one ticket

`Run` is a history of calls on one registry.  `Move` lists everything that a call can do to the
entry of one handle, and `Event.move` says that it does no more.
-/

namespace SpatialIde.Kernel.Skp

open Lib

inductive Call (σ χ : Type) where
  | sweepExpired
  | mint (dataset : String) (built : PendingBuilt σ χ) (handle : String)
  | redeem (handle : String)
  | cancel (handle : String)
  | cancelAllForDataset (dataset : String)

inductive Answer (σ χ : Type) where
  | swept
  | minted (result : Except SkpError String)
  | redeemed (result : Except String (σ × χ))
  | cancelled (outcome : CancelOutcome)
  | cancelledAll (n : Nat)

def Turn.map {σ χ α β : Type} (f : α → β) (turn : Turn σ χ α) : Turn σ χ β :=
  ⟨f turn.answer, turn.tickets, turn.swept, turn.retired, turn.invoked⟩

/-- One call, as it was made. -/
structure Event (σ χ : Type) where
  before : StreamRegistry σ χ
  call : Call σ χ
  clock : Clock Reading

variable {σ χ : Type}

namespace Event

def turn (e : Event σ χ) : Turn σ χ (Answer σ χ) :=
  match e.call with
  | .sweepExpired => (StreamRegistry.sweepExpired e.before e.clock).map fun _ => .swept
  | .mint dataset built handle => (StreamRegistry.mint e.before e.clock dataset built handle).map .minted
  | .redeem handle => (StreamRegistry.redeem e.before e.clock handle).map .redeemed
  | .cancel handle => (StreamRegistry.cancel e.before e.clock handle).map .cancelled
  | .cancelAllForDataset dataset =>
    (StreamRegistry.cancelAllForDataset e.before e.clock dataset).map .cancelledAll

def after (e : Event σ χ) : StreamRegistry σ χ := e.turn.tickets

/-- The registry as the call finds it, swept. -/
def found (e : Event σ χ) : StreamRegistry σ χ := StreamRegistry.kept e.before e.clock

/-- The ticket that the call minted, and what it was minted for. -/
def minted (e : Event σ χ) : Option (String × PendingBuilt σ χ) :=
  match e.call, e.turn.answer with
  | .mint _ built _, .minted (.ok handle) => some (handle, built)
  | _, _ => none

/-- The ticket that the call redeemed, and the source it handed out. -/
def handed (e : Event σ χ) : Option (String × σ) :=
  match e.call, e.turn.answer with
  | .redeem handle, .redeemed (.ok (source, _)) => some (handle, source)
  | _, _ => none

def mints (h : String) (e : Event σ χ) : Bool := (e.minted.map Prod.fst) == some h

def redeems (h : String) (e : Event σ χ) : Bool := (e.handed.map Prod.fst) == some h

/-- The call cancels the ticket: it answers `Requested` for it, or counts it. -/
def counts (h : String) (e : Event σ χ) : Bool :=
  match e.call, e.turn.answer with
  | .cancel handle, .cancelled .requested => handle == h
  | .cancelAllForDataset dataset, _ =>
    (e.found.get h).elim false (StreamRegistry.reachedBy dataset)
  | _, _ => false

/-- The call invokes the `SourceCancel` of the ticket. -/
def invokes (h : String) (e : Event σ χ) : Bool := e.turn.invoked.any fun i => i.1 == h

/-- The call is a cancellation, and reaches the ticket while it is pending. -/
def reachesPending (h : String) (e : Event σ χ) : Bool :=
  match e.before.get h, e.call with
  | some (.pending ..), .cancel handle => handle == h
  | some (.pending _ d _), .cancelAllForDataset dataset => dataset == d
  | _, _ => false

end Event

/-- **A history of one registry**, from its creation: calls one after the other, on a clock that
never runs backwards, every mint under a handle that no ticket had before. -/
inductive Run : List (Event σ χ) → StreamRegistry σ χ → Prop
  | start : Run [] ∅
  | next {es : List (Event σ χ)} {tickets : StreamRegistry σ χ} (run : Run es tickets)
      (call : Call σ χ) (clock : Clock Reading)
      (later : ∀ e ∈ es, e.clock.ended ≤ clock.begun)
      (fresh : ∀ h, Event.mints h ⟨tickets, call, clock⟩ → ∀ e ∈ es, e.mints h = false) :
      Run (es ++ [⟨tickets, call, clock⟩]) (Event.after ⟨tickets, call, clock⟩)

/-! ### One call and one ticket -/

/-- What the call is to the ticket `h`. -/
structure Event.Marks (h : String) (e : Event σ χ) (mints redeems counts invokes : Bool) : Prop where
  mints : e.mints h = mints
  redeems : e.redeems h = redeems
  counts : e.counts h = counts
  invokes : e.invokes h = invokes

/-- **One call and one ticket**: the entry before, the entry after, and what the call was to it. -/
inductive Event.Move (h : String) (e : Event σ χ) : Prop
  | keep (same : e.after.get h = e.before.get h) (marks : e.Marks h false false false false)
      (missed : e.reachesPending h = false)
  | sweep (s : TicketState σ χ) (stale : s.expired (e.clock.reads (.sweep h)) = true)
      (had : e.before.get h = some s) (gone : e.after.get h = none)
      (marks : e.Marks h false false false false)
  | mint (dataset : String) (built : PendingBuilt σ χ)
      (has : e.after.get h = some (.pending built dataset (e.clock.reads (.stamp h))))
      (own : e.minted = some (h, built)) (marks : e.Marks h true false false false)
      (missed : e.reachesPending h = false)
  | redeem (dataset : String) (built : PendingBuilt σ χ) (mintedAt : Nat)
      (had : e.before.get h = some (.pending built dataset mintedAt))
      (live : e.clock.reads (.sweep h) - mintedAt ≤ TICKET_TTL)
      (has : e.after.get h = some (.redeemed dataset built.cancel false (e.clock.reads (.stamp h))))
      (marks : e.Marks h false true false false) (missed : e.reachesPending h = false)
  | retire (dataset : String) (built : PendingBuilt σ χ) (mintedAt : Nat)
      (had : e.before.get h = some (.pending built dataset mintedAt))
      (has : e.after.get h = some (.cancelledBeforeRedeem (e.clock.reads (.stamp h))))
      (marks : e.Marks h false false true false)
  | invoke (dataset : String) (cancel : χ) (redeemedAt : Nat)
      (had : e.before.get h = some (.redeemed dataset cancel false redeemedAt))
      (has : e.after.get h = some (.redeemed dataset cancel true redeemedAt))
      (own : ∀ c, (h, c) ∈ e.turn.invoked → c = cancel) (marks : e.Marks h false false true true)
      (missed : e.reachesPending h = false)

namespace Event

/-- The sweep leaves an entry as it is, or removes one that is stale. -/
theorem found_cases (e : Event σ χ) (h : String) :
    (e.found.get h = e.before.get h ∧
      ∀ s, e.before.get h = some s → s.expired (e.clock.reads (.sweep h)) = false) ∨
    ∃ s, e.before.get h = some s ∧ s.expired (e.clock.reads (.sweep h)) = true ∧
      e.found.get h = none := by
  have hfound : e.found.get h =
      (e.before.get h).filter fun s => !s.expired (e.clock.reads (.sweep h)) := Table.get_retain
  cases hbefore : e.before.get h with
  | none =>
    rw [hbefore] at hfound
    exact .inl ⟨hfound, fun s hs => by cases hs⟩
  | some s =>
    rw [hbefore, Option.filter_some] at hfound
    by_cases hstale : s.expired (e.clock.reads (.sweep h)) = true
    · rw [hstale] at hfound
      exact .inr ⟨s, rfl, hstale, hfound⟩
    · have hfresh := Bool.eq_false_iff.2 hstale
      rw [hfresh] at hfound
      refine .inl ⟨hfound, fun s' hs' => ?_⟩
      cases hs'
      exact hfresh

/-- What the sweep has left was there, and is not stale. -/
theorem before_of_found {e : Event σ χ} {h : String} {s : TicketState σ χ}
    (hfound : e.found.get h = some s) :
    e.before.get h = some s ∧ s.expired (e.clock.reads (.sweep h)) = false := by
  rcases e.found_cases h with ⟨hsame, hfresh⟩ | ⟨_, _, _, hnone⟩
  · rw [hsame] at hfound
    exact ⟨hfound, hfresh s hfound⟩
  · rw [hnone] at hfound
    cases hfound

/-- A call that does nothing to the entry but sweep it. -/
theorem move_idle {e : Event σ χ} {h : String} (has : e.after.get h = e.found.get h)
    (marks : e.Marks h false false false false)
    (missed : e.found.get h = e.before.get h → e.reachesPending h = false) : e.Move h := by
  rcases e.found_cases h with ⟨hsame, _⟩ | ⟨s, hbefore, hstale, hnone⟩
  · exact .keep (has.trans hsame) marks (missed hsame)
  · exact .sweep s hstale hbefore (has.trans hnone) marks

variable {before : StreamRegistry σ χ} {clock : Clock Reading} {h handle dataset : String}
variable {built : PendingBuilt σ χ}

theorem move_sweepExpired : (⟨before, .sweepExpired, clock⟩ : Event σ χ).Move h := by
  refine move_idle rfl ⟨rfl, rfl, rfl, rfl⟩ fun _ => ?_
  unfold reachesPending
  split
  · rename_i hcall
    cases hcall
  · rename_i hcall
    cases hcall
  · rfl

theorem missed_of_call {e : Event σ χ} (hcancel : ∀ handle, e.call = .cancel handle → handle ≠ h)
    (hall : ∀ d, e.call ≠ .cancelAllForDataset d) : e.reachesPending h = false := by
  unfold reachesPending
  split
  · rename_i handle _ hcall
    exact beq_eq_false_iff_ne.2 (hcancel handle hcall)
  · rename_i dataset _ hcall
    exact absurd hcall (hall dataset)
  · rfl

theorem mint_refused
    (hfull : StreamRegistry.pendingFor (StreamRegistry.kept before clock) dataset ≥ MAX_PENDING_TICKETS) :
    (⟨before, .mint dataset built handle, clock⟩ : Event σ χ).turn =
      ⟨.minted (.error (.tooManyPendingStreams MAX_PENDING_TICKETS)),
        StreamRegistry.kept before clock, StreamRegistry.swept before clock, [], []⟩ := by
  simp only [turn, StreamRegistry.mint, if_pos hfull, Turn.map]

theorem mint_accepted
    (hroom : ¬ StreamRegistry.pendingFor (StreamRegistry.kept before clock) dataset ≥ MAX_PENDING_TICKETS) :
    (⟨before, .mint dataset built handle, clock⟩ : Event σ χ).turn =
      ⟨.minted (.ok handle),
        (StreamRegistry.kept before clock).put handle
          (.pending built dataset (clock.reads (.stamp handle))),
        StreamRegistry.swept before clock, [], []⟩ := by
  simp only [turn, StreamRegistry.mint, if_neg hroom, Turn.map]

theorem move_mint : (⟨before, .mint dataset built handle, clock⟩ : Event σ χ).Move h := by
  have hmissed : (⟨before, .mint dataset built handle, clock⟩ : Event σ χ).reachesPending h = false :=
    missed_of_call (fun _ hc => by cases hc) fun _ hc => by cases hc
  by_cases hfull : StreamRegistry.pendingFor (StreamRegistry.kept before clock) dataset ≥ MAX_PENDING_TICKETS
  · have hturn := @mint_refused _ _ before clock handle dataset built hfull
    refine move_idle (by rw [after, hturn]; rfl) ⟨?_, rfl, rfl, ?_⟩ fun _ => hmissed
    · simp only [mints, minted, hturn, Option.map_none]
      rfl
    · rw [invokes, hturn]
      rfl
  · have hturn := @mint_accepted _ _ before clock handle dataset built hfull
    have hmints : (⟨before, .mint dataset built handle, clock⟩ : Event σ χ).mints h = (handle == h) := by
      simp only [mints, minted, hturn, Option.map_some]
      exact Option.some_beq_some
    have hinvokes : (⟨before, .mint dataset built handle, clock⟩ : Event σ χ).invokes h = false := by
      rw [invokes, hturn]
      rfl
    by_cases hself : handle = h
    · subst hself
      refine .mint dataset built ?_ ?_ ⟨by rw [hmints, beq_self_eq_true], rfl, rfl, hinvokes⟩ hmissed
      · rw [after, hturn]
        exact Table.get_put_self
      · simp only [minted, hturn]
    · refine move_idle ?_ ⟨by rw [hmints]; exact beq_eq_false_iff_ne.2 hself, rfl, rfl, hinvokes⟩
        fun _ => hmissed
      rw [after, hturn]
      exact Table.get_put_of_ne (Ne.symm hself)

/-- A redemption of a ticket that is not pending. -/
theorem redeem_refused (hnot : ∀ built d t,
      (StreamRegistry.kept before clock).get handle ≠ some (.pending built d t)) :
    ∃ message, (⟨before, .redeem handle, clock⟩ : Event σ χ).turn =
      ⟨.redeemed (.error message), StreamRegistry.kept before clock,
        StreamRegistry.swept before clock, [], []⟩ := by
  simp only [turn, StreamRegistry.redeem]
  split
  · exact ⟨_, rfl⟩
  · exact ⟨_, rfl⟩
  · exact ⟨_, rfl⟩
  · rename_i hpending
    exact absurd hpending (hnot _ _ _)

theorem redeem_accepted {mintedAt : Nat}
    (hget : (StreamRegistry.kept before clock).get handle = some (.pending built dataset mintedAt)) :
    (⟨before, .redeem handle, clock⟩ : Event σ χ).turn =
      ⟨.redeemed (.ok (built.source, built.cancel)),
        ((StreamRegistry.kept before clock).remove handle).put handle
          (.redeemed dataset built.cancel false (clock.reads (.stamp handle))),
        StreamRegistry.swept before clock, [], []⟩ := by
  simp only [turn, StreamRegistry.redeem, hget, Turn.map]

theorem move_redeem : (⟨before, .redeem handle, clock⟩ : Event σ χ).Move h := by
  have hmissed : (⟨before, .redeem handle, clock⟩ : Event σ χ).reachesPending h = false :=
    missed_of_call (fun _ hc => by cases hc) fun _ hc => by cases hc
  by_cases hpending : ∃ built d t,
      (StreamRegistry.kept before clock).get handle = some (.pending built d t)
  · obtain ⟨built, dataset, mintedAt, hget⟩ := hpending
    have hturn := redeem_accepted hget
    have hredeems : (⟨before, .redeem handle, clock⟩ : Event σ χ).redeems h = (handle == h) := by
      simp only [redeems, handed, hturn, Option.map_some]
      exact Option.some_beq_some
    have hinvokes : (⟨before, .redeem handle, clock⟩ : Event σ χ).invokes h = false := by
      rw [invokes, hturn]
      rfl
    by_cases hself : handle = h
    · subst hself
      obtain ⟨hbefore, hfresh⟩ :=
        before_of_found (e := ⟨before, .redeem handle, clock⟩) hget
      refine .redeem dataset built mintedAt hbefore ?_ ?_
        ⟨rfl, by rw [hredeems, beq_self_eq_true], rfl, hinvokes⟩ hmissed
      · simpa [TicketState.expired] using hfresh
      · rw [after, hturn]
        exact Table.get_put_self
    · refine move_idle ?_
        ⟨rfl, by rw [hredeems]; exact beq_eq_false_iff_ne.2 hself, rfl, hinvokes⟩ fun _ => hmissed
      rw [after, hturn]
      exact (Table.get_put_of_ne (Ne.symm hself)).trans (Table.get_remove_of_ne (Ne.symm hself))
  · obtain ⟨message, hturn⟩ := @redeem_refused _ _ before clock handle
      fun built d t hget => hpending ⟨built, d, t, hget⟩
    refine move_idle (by rw [after, hturn]; rfl) ⟨rfl, ?_, rfl, ?_⟩ fun _ => hmissed
    · simp only [redeems, handed, hturn, Option.map_none]
      rfl
    · rw [invokes, hturn]
      rfl

/-- A cancellation that finds nothing to cancel. -/
theorem cancel_idle (hnot : ∀ built d t,
      (StreamRegistry.kept before clock).get handle ≠ some (.pending built d t))
    (hcancelled : ∀ d c t, (StreamRegistry.kept before clock).get handle ≠ some (.redeemed d c false t)) :
    ∃ outcome, outcome ≠ .requested ∧ (⟨before, .cancel handle, clock⟩ : Event σ χ).turn =
      ⟨.cancelled outcome, StreamRegistry.kept before clock,
        StreamRegistry.swept before clock, [], []⟩ := by
  simp only [turn, StreamRegistry.cancel]
  split
  · exact ⟨.unknown, by decide, rfl⟩
  · exact ⟨.alreadyTerminal, by decide, rfl⟩
  · rename_i hpending
    exact absurd hpending (hnot _ _ _)
  · rename_i d c cancelled t hredeemed
    cases cancelled with
    | true => exact ⟨.alreadyTerminal, by decide, rfl⟩
    | false => exact absurd hredeemed (hcancelled _ _ _)

theorem cancel_pending {mintedAt : Nat}
    (hget : (StreamRegistry.kept before clock).get handle = some (.pending built dataset mintedAt)) :
    (⟨before, .cancel handle, clock⟩ : Event σ χ).turn =
      ⟨.cancelled .requested,
        (StreamRegistry.kept before clock).put handle
          (.cancelledBeforeRedeem (clock.reads (.stamp handle))),
        StreamRegistry.swept before clock, [(handle, .pending built dataset mintedAt)], []⟩ := by
  simp only [turn, StreamRegistry.cancel, hget, Turn.map]

theorem cancel_running {c : χ} {redeemedAt : Nat}
    (hget : (StreamRegistry.kept before clock).get handle = some (.redeemed dataset c false redeemedAt)) :
    (⟨before, .cancel handle, clock⟩ : Event σ χ).turn =
      ⟨.cancelled .requested,
        (StreamRegistry.kept before clock).put handle (.redeemed dataset c true redeemedAt),
        StreamRegistry.swept before clock, [], [(handle, c)]⟩ := by
  simp only [turn, StreamRegistry.cancel, hget, Turn.map, Bool.false_eq_true, if_false]

theorem move_cancel : (⟨before, .cancel handle, clock⟩ : Event σ χ).Move h := by
  have hother : handle ≠ h →
      (⟨before, .cancel handle, clock⟩ : Event σ χ).reachesPending h = false := fun hne =>
    missed_of_call (fun _ hc => by cases hc; exact hne) fun _ hc => by cases hc
  have hcounts : ∀ {outcome tickets swept retired invoked},
      (⟨before, .cancel handle, clock⟩ : Event σ χ).turn =
        ⟨.cancelled outcome, tickets, swept, retired, invoked⟩ →
      (⟨before, .cancel handle, clock⟩ : Event σ χ).counts h = (outcome == .requested && handle == h) := by
    intro outcome _ _ _ _ hturn
    simp only [counts, hturn]
    cases outcome
    all_goals rfl
  by_cases hpending : ∃ built d t,
      (StreamRegistry.kept before clock).get handle = some (.pending built d t)
  · obtain ⟨built, dataset, mintedAt, hget⟩ := hpending
    have hturn := cancel_pending hget
    have hinvokes : (⟨before, .cancel handle, clock⟩ : Event σ χ).invokes h = false := by
      rw [invokes, hturn]
      rfl
    by_cases hself : handle = h
    · subst hself
      obtain ⟨hbefore, -⟩ := before_of_found (e := ⟨before, .cancel handle, clock⟩) hget
      refine .retire dataset built mintedAt hbefore ?_
        ⟨rfl, rfl, by simp [hcounts hturn], hinvokes⟩
      rw [after, hturn]
      exact Table.get_put_self
    · refine move_idle ?_ ⟨rfl, rfl, ?_, hinvokes⟩ fun _ => hother hself
      · rw [after, hturn]
        exact Table.get_put_of_ne (Ne.symm hself)
      · rw [hcounts hturn, beq_eq_false_iff_ne.2 hself, Bool.and_false]
  by_cases hrunning : ∃ d c t,
      (StreamRegistry.kept before clock).get handle = some (.redeemed d c false t)
  · obtain ⟨dataset, c, redeemedAt, hget⟩ := hrunning
    have hturn := cancel_running hget
    have hinvokes : (⟨before, .cancel handle, clock⟩ : Event σ χ).invokes h = (handle == h) := by
      rw [invokes, hturn, List.any_cons, List.any_nil, Bool.or_false]
    by_cases hself : handle = h
    · subst hself
      obtain ⟨hbefore, -⟩ := before_of_found (e := ⟨before, .cancel handle, clock⟩) hget
      refine .invoke dataset c redeemedAt hbefore ?_ ?_
        ⟨rfl, rfl, by simp [hcounts hturn], by rw [hinvokes, beq_self_eq_true]⟩ ?_
      · rw [after, hturn]
        exact Table.get_put_self
      · intro c' hc'
        rw [hturn] at hc'
        exact (Prod.mk.inj (List.mem_singleton.1 hc')).2
      · simp only [reachesPending, hbefore]
    · refine move_idle ?_ ⟨rfl, rfl, ?_, ?_⟩ fun _ => hother hself
      · rw [after, hturn]
        exact Table.get_put_of_ne (Ne.symm hself)
      · rw [hcounts hturn, beq_eq_false_iff_ne.2 hself, Bool.and_false]
      · rw [hinvokes, beq_eq_false_iff_ne.2 hself]
  · obtain ⟨outcome, hne, hturn⟩ := cancel_idle
      (fun built d t hget => hpending ⟨built, d, t, hget⟩)
      (fun d c t hget => hrunning ⟨d, c, t, hget⟩)
    refine move_idle (by rw [after, hturn]; rfl) ⟨rfl, rfl, ?_, by rw [invokes, hturn]; rfl⟩
      fun hsame => ?_
    · rw [hcounts hturn, beq_eq_false_iff_ne.2 hne, Bool.false_and]
    · unfold reachesPending
      split
      · rename_i built d t _ hbefore hcall
        cases hcall
        refine beq_eq_false_iff_ne.2 fun hself => hpending ⟨built, d, t, ?_⟩
        subst hself
        exact hsame.trans hbefore
      · rename_i hcall
        cases hcall
      · rfl

theorem cancelAll_get : (⟨before, .cancelAllForDataset dataset, clock⟩ : Event σ χ).after.get h =
    ((StreamRegistry.kept before clock).get h).map fun s =>
      if StreamRegistry.reachedBy dataset s then s.cancelled (clock.reads (.stamp h)) else s :=
  Table.get_mapValues

theorem cancelAll_invoked {c : χ} :
    (h, c) ∈ (⟨before, .cancelAllForDataset dataset, clock⟩ : Event σ χ).turn.invoked ↔
      ∃ s, (StreamRegistry.kept before clock).get h = some s ∧
        StreamRegistry.reachedBy dataset s = true ∧ s.sourceCancel = some c := by
  simp only [turn, StreamRegistry.cancelAllForDataset, Turn.map, List.mem_filterMap, Prod.exists,
    Table.mem_select, Option.map_eq_some_iff, Prod.mk.injEq]
  constructor
  · rintro ⟨handle, s, ⟨hget, hreached⟩, c', hcancel, rfl, rfl⟩
    exact ⟨s, hget, hreached, hcancel⟩
  · rintro ⟨s, hget, hreached, hcancel⟩
    exact ⟨h, s, ⟨hget, hreached⟩, c, hcancel, rfl, rfl⟩

theorem cancelAll_invokes : (⟨before, .cancelAllForDataset dataset, clock⟩ : Event σ χ).invokes h =
    ((StreamRegistry.kept before clock).get h).elim false (TicketState.isRunningOf dataset) := by
  have hinvokes : (⟨before, .cancelAllForDataset dataset, clock⟩ : Event σ χ).invokes h = true ↔
      ∃ c, (h, c) ∈ (⟨before, .cancelAllForDataset dataset, clock⟩ : Event σ χ).turn.invoked := by
    simp only [invokes, List.any_eq_true, Prod.exists, beq_iff_eq]
    constructor
    · rintro ⟨_, c, hc, rfl⟩
      exact ⟨c, hc⟩
    · exact fun ⟨c, hc⟩ => ⟨h, c, hc, rfl⟩
  rw [Bool.eq_iff_iff, hinvokes]
  constructor
  · rintro ⟨c, hc⟩
    obtain ⟨s, hget, hreached, hcancel⟩ := cancelAll_invoked.1 hc
    rw [hget]
    cases s with
    | redeemed d c' cancelled t =>
      simpa [StreamRegistry.reachedBy, TicketState.isPendingOf] using hreached
    | pending built d t => cases hcancel
    | cancelledBeforeRedeem t => cases hcancel
  · intro hrunning
    cases hget : (StreamRegistry.kept before clock).get h with
    | none => rw [hget] at hrunning; cases hrunning
    | some s =>
      rw [hget, Option.elim_some] at hrunning
      cases s with
      | redeemed d c cancelled t =>
        refine ⟨c, cancelAll_invoked.2 ⟨_, hget, ?_, rfl⟩⟩
        simp only [StreamRegistry.reachedBy, hrunning, Bool.or_true]
      | pending built d t => cases hrunning
      | cancelledBeforeRedeem t => cases hrunning

theorem cancelAll_counts : (⟨before, .cancelAllForDataset dataset, clock⟩ : Event σ χ).counts h =
    ((StreamRegistry.kept before clock).get h).elim false (StreamRegistry.reachedBy dataset) :=
  rfl

/-- A cancellation of a dataset that passes the entry by. -/
theorem cancelAll_idle
    (hnot : ∀ s, (StreamRegistry.kept before clock).get h = some s →
      StreamRegistry.reachedBy dataset s = false) :
    (⟨before, .cancelAllForDataset dataset, clock⟩ : Event σ χ).Move h := by
  have hfound : (⟨before, .cancelAllForDataset dataset, clock⟩ : Event σ χ).found =
      StreamRegistry.kept before clock := rfl
  refine move_idle ?_ ⟨rfl, rfl, ?_, ?_⟩ fun hsame => ?_
  · rw [cancelAll_get, hfound]
    cases hget : (StreamRegistry.kept before clock).get h with
    | none => rfl
    | some s => rw [Option.map_some, hnot s hget, if_neg Bool.false_ne_true]
  · rw [cancelAll_counts]
    cases hget : (StreamRegistry.kept before clock).get h with
    | none => rfl
    | some s => exact hnot s hget
  · rw [cancelAll_invokes]
    cases hget : (StreamRegistry.kept before clock).get h with
    | none => rfl
    | some s => exact (Bool.or_eq_false_iff.1 (hnot s hget)).2
  · unfold reachesPending
    split
    · rename_i hcall
      cases hcall
    · rename_i built d t dataset' hbefore hcall
      cases hcall
      have hreached := hnot _ (hsame.trans hbefore)
      rw [StreamRegistry.reachedBy, TicketState.isPendingOf, Bool.or_eq_false_iff] at hreached
      rw [beq_eq_false_iff_ne] at hreached ⊢
      exact Ne.symm hreached.1
    · rfl

theorem move_cancelAll : (⟨before, .cancelAllForDataset dataset, clock⟩ : Event σ χ).Move h := by
  by_cases hreached : ∃ s, (StreamRegistry.kept before clock).get h = some s ∧
      StreamRegistry.reachedBy dataset s = true
  · obtain ⟨s, hget, hs⟩ := hreached
    obtain ⟨hbefore, -⟩ :=
      before_of_found (e := ⟨before, .cancelAllForDataset dataset, clock⟩) hget
    have hafter : (⟨before, .cancelAllForDataset dataset, clock⟩ : Event σ χ).after.get h =
        some (s.cancelled (clock.reads (.stamp h))) := by
      rw [cancelAll_get, hget, Option.map_some, if_pos hs]
    have hcounts : (⟨before, .cancelAllForDataset dataset, clock⟩ : Event σ χ).counts h = true := by
      rw [cancelAll_counts, hget]
      exact hs
    have hinvokes : (⟨before, .cancelAllForDataset dataset, clock⟩ : Event σ χ).invokes h =
        s.isRunningOf dataset := by
      rw [cancelAll_invokes, hget]
      rfl
    cases s with
    | pending built d t => exact .retire d built t hbefore hafter ⟨rfl, rfl, hcounts, hinvokes⟩
    | redeemed d c cancelled t =>
      have hrunning : (d == dataset && !cancelled) = true := by
        simpa [StreamRegistry.reachedBy, TicketState.isPendingOf, TicketState.isRunningOf] using hs
      cases cancelled with
      | true => simp at hrunning
      | false =>
        refine .invoke d c t hbefore hafter ?_ ⟨rfl, rfl, hcounts, hinvokes.trans hrunning⟩ ?_
        · intro c' hc'
          obtain ⟨s, hs', -, hcancel⟩ := cancelAll_invoked.1 hc'
          rw [hget] at hs'
          cases hs'
          exact (Option.some.inj hcancel).symm
        · simp only [reachesPending, hbefore]
    | cancelledBeforeRedeem t => cases hs
  · refine cancelAll_idle fun s hget => Bool.eq_false_iff.2 fun hs => hreached ⟨s, hget, hs⟩

theorem move (e : Event σ χ) (h : String) : e.Move h := by
  obtain ⟨before, call, clock⟩ := e
  cases call with
  | sweepExpired => exact move_sweepExpired
  | mint dataset built handle => exact move_mint
  | redeem handle => exact move_redeem
  | cancel handle => exact move_cancel
  | cancelAllForDataset dataset => exact move_cancelAll

end Event

end SpatialIde.Kernel.Skp
