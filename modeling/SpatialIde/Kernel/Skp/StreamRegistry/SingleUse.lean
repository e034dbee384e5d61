import Mathlib.Algebra.Order.Group.Multiset
import Mathlib.Tactic.Abel
import SpatialIde.Kernel.Skp.StreamRegistry.Moves
import SpatialIde.Lib.Runs

/-! # A ticket is used once

`Ledger` is what the entry of one handle says of the whole history behind it; `Ledger.step` is one
call, by the cases of `Event.Move`, and `Run.ledger` is a history.

`Run.conserves` follows the sources: each is with its pending entry, with its redeemer, or dropped.
-/

namespace SpatialIde.Kernel.Skp

open Lib

variable {σ χ : Type}

/-! ### One handle -/

/-- How often the calls redeem, cancel and invoke the ticket. -/
structure Tally (h : String) (es : List (Event σ χ)) (redeems counts invokes : Nat) : Prop where
  redeems : es.countP (Event.redeems h) = redeems
  counts : es.countP (Event.counts h) = counts
  invokes : es.countP (Event.invokes h) = invokes

/-- No redemption of the ticket began later than its time to live allows. -/
def InTime (h : String) (es : List (Event σ χ)) : Prop :=
  ∀ m ∈ es, ∀ e ∈ es, m.mints h = true → e.redeems h = true →
    e.clock.begun ≤ m.clock.reads (.stamp h) + TICKET_TTL

/-- **What an entry says of the history behind it.** -/
inductive Ledger (h : String) (es : List (Event σ χ)) : Option (TicketState σ χ) → Prop
  | unminted (never : ∀ e ∈ es, e.mints h = false) (tally : Tally h es 0 0 0)
      (missed : ∀ e ∈ es, e.reachesPending h = false) : Ledger h es none
  | pending (built : PendingBuilt σ χ) (dataset : String) (mintedAt : Nat)
      (own : ∃ m ∈ es, m.minted = some (h, built))
      (stamp : ∀ m ∈ es, m.mints h = true → m.clock.reads (.stamp h) = mintedAt)
      (tally : Tally h es 0 0 0) (missed : ∀ e ∈ es, e.reachesPending h = false) :
      Ledger h es (some (.pending built dataset mintedAt))
  | redeemed (dataset : String) (cancel : χ) (cancelled : Bool) (redeemedAt : Nat)
      (own : ∃ m ∈ es, ∃ source, m.minted = some (h, ⟨source, cancel⟩)) (inTime : InTime h es)
      (tally : Tally h es 1 cancelled.toNat cancelled.toNat)
      (missed : ∀ e ∈ es, e.reachesPending h = false) :
      Ledger h es (some (.redeemed dataset cancel cancelled redeemedAt))
  | cancelled (cancelledAt : Nat) (was : ∃ m ∈ es, m.mints h = true) (tally : Tally h es 0 1 0) :
      Ledger h es (some (.cancelledBeforeRedeem cancelledAt))
  | gone (redeems counts invokes : Nat) (was : ∃ m ∈ es, m.mints h = true)
      (tally : Tally h es redeems counts invokes) (once : redeems ≤ 1) (cancelledOnce : counts ≤ 1)
      (invokedOnce : invokes ≤ 1) (inTime : InTime h es)
      (missed : redeems ≠ 0 → ∀ e ∈ es, e.reachesPending h = false) : Ledger h es none

section

variable {h : String} {es : List (Event σ χ)} {e : Event σ χ}

theorem Tally.snoc {r c i : Nat} {mints redeems counts invokes : Bool} (t : Tally h es r c i)
    (m : e.Marks h mints redeems counts invokes) :
    Tally h (es ++ [e]) (r + redeems.toNat) (c + counts.toNat) (i + invokes.toNat) := by
  have hone : ∀ p : Event σ χ → Bool, [e].countP p = (p e).toNat := by
    intro p
    cases hp : p e with
    | false => rw [List.countP_singleton, hp]; rfl
    | true => rw [List.countP_singleton, hp]; rfl
  refine ⟨?_, ?_, ?_⟩
  · rw [List.countP_append, t.redeems, hone, m.redeems]
  · rw [List.countP_append, t.counts, hone, m.counts]
  · rw [List.countP_append, t.invokes, hone, m.invokes]

theorem Tally.not_redeems {c i : Nat} (t : Tally h es 0 c i) : ∀ e ∈ es, e.redeems h = false := by
  intro e he
  exact Bool.eq_false_iff.2 (List.countP_eq_zero.1 t.redeems e he)

theorem Tally.inTime {c i : Nat} (t : Tally h es 0 c i) : InTime h es := by
  intro m _ e he _ hredeems
  rw [t.not_redeems e he] at hredeems
  cases hredeems

/-- A call that neither mints nor redeems the ticket changes nothing about its times. -/
theorem InTime.snoc (hin : InTime h es) (hmints : e.mints h = false) (hredeems : e.redeems h = false) :
    InTime h (es ++ [e]) := by
  intro m hm a ha hmm har
  rcases List.mem_append.1 hm with hm | hm
  · rcases List.mem_append.1 ha with ha | ha
    · exact hin m hm a ha hmm har
    · rw [List.mem_singleton.1 ha, hredeems] at har
      cases har
  · rw [List.mem_singleton.1 hm, hmints] at hmm
    cases hmm

theorem mints_of_minted {built : PendingBuilt σ χ} (hm : e.minted = some (h, built)) :
    e.mints h = true := by
  rw [Event.mints, hm]
  exact beq_self_eq_true _

/-- An entry is behind a mint. -/
theorem Ledger.was {s : TicketState σ χ} (hl : Ledger h es (some s)) : ∃ m ∈ es, m.mints h = true := by
  cases hl with
  | pending built dataset mintedAt own stamp tally missed =>
    obtain ⟨m, hm, hown⟩ := own
    exact ⟨m, hm, mints_of_minted hown⟩
  | redeemed dataset cancel cancelled redeemedAt own inTime tally missed =>
    obtain ⟨m, hm, source, hown⟩ := own
    exact ⟨m, hm, mints_of_minted hown⟩
  | cancelled cancelledAt was tally => exact was

/-- A call that leaves the ticket alone. -/
theorem Ledger.keep {entry : Option (TicketState σ χ)} (hl : Ledger h es entry)
    (marks : e.Marks h false false false false) (hmissed : e.reachesPending h = false) :
    Ledger h (es ++ [e]) entry := by
  cases hl with
  | unminted never tally missed =>
    exact .unminted (forall_snoc never marks.mints) (tally.snoc marks) (forall_snoc missed hmissed)
  | pending built dataset mintedAt own stamp tally missed =>
    refine .pending built dataset mintedAt (exists_snoc own) (forall_snoc stamp fun hm => ?_)
      (tally.snoc marks) (forall_snoc missed hmissed)
    rw [marks.mints] at hm
    cases hm
  | redeemed dataset cancel cancelled redeemedAt own inTime tally missed =>
    exact .redeemed dataset cancel cancelled redeemedAt (exists_snoc own)
      (inTime.snoc marks.mints marks.redeems) (tally.snoc marks) (forall_snoc missed hmissed)
  | cancelled cancelledAt was tally =>
    exact .cancelled cancelledAt (exists_snoc was) (tally.snoc marks)
  | gone redeems counts invokes was tally once cancelledOnce invokedOnce inTime missed =>
    exact .gone redeems counts invokes (exists_snoc was) (tally.snoc marks) once cancelledOnce
      invokedOnce (inTime.snoc marks.mints marks.redeems)
      fun hr => forall_snoc (missed hr) hmissed

theorem Ledger.sweep {s : TicketState σ χ} (hl : Ledger h es (some s))
    (had : e.before.get h = some s) (marks : e.Marks h false false false false) :
    Ledger h (es ++ [e]) none := by
  have was : ∃ m ∈ es ++ [e], m.mints h = true := exists_snoc hl.was
  cases hl with
  | pending built dataset mintedAt own stamp tally missed =>
    exact .gone 0 0 0 was (tally.snoc marks) (by decide) (by decide) (by decide)
      (tally.inTime.snoc marks.mints marks.redeems) fun hr => absurd rfl hr
  | redeemed dataset cancel cancelled redeemedAt own inTime tally missed =>
    refine .gone 1 cancelled.toNat cancelled.toNat was (tally.snoc marks) (by decide)
      (Bool.toNat_le _) (Bool.toNat_le _) (inTime.snoc marks.mints marks.redeems)
      fun _ => forall_snoc missed ?_
    simp only [Event.reachesPending, had]
  | cancelled cancelledAt _ tally =>
    exact .gone 0 1 0 was (tally.snoc marks) (by decide) (by decide) (by decide)
      (tally.inTime.snoc marks.mints marks.redeems) fun hr => absurd rfl hr

theorem Ledger.mint {entry : Option (TicketState σ χ)} (hl : Ledger h es entry) {dataset : String}
    {built : PendingBuilt σ χ} (fresh : ∀ a ∈ es, a.mints h = false)
    (own : e.minted = some (h, built)) (marks : e.Marks h true false false false)
    (hmissed : e.reachesPending h = false) :
    Ledger h (es ++ [e]) (some (.pending built dataset (e.clock.reads (.stamp h)))) := by
  have hnot : ¬ ∃ m ∈ es, m.mints h = true := fun ⟨m, hm, hmints⟩ =>
    absurd hmints (Bool.eq_false_iff.1 (fresh m hm))
  cases hl with
  | unminted never tally missed =>
    refine .pending built dataset _ ⟨e, List.mem_append_right _ List.mem_cons_self, own⟩
      (forall_snoc (fun m hm hmints => ?_) fun _ => rfl) (tally.snoc marks)
      (forall_snoc missed hmissed)
    exact absurd ⟨m, hm, hmints⟩ hnot
  | pending built' dataset' mintedAt own' stamp tally missed =>
    obtain ⟨m, hm, hown⟩ := own'
    exact absurd ⟨m, hm, mints_of_minted hown⟩ hnot
  | redeemed dataset' cancel cancelled redeemedAt own' inTime tally missed =>
    obtain ⟨m, hm, source, hown⟩ := own'
    exact absurd ⟨m, hm, mints_of_minted hown⟩ hnot
  | cancelled cancelledAt was tally => exact absurd was hnot
  | gone redeems counts invokes was tally once cancelledOnce invokedOnce inTime missed =>
    exact absurd was hnot

theorem Ledger.redeem {dataset : String} {built : PendingBuilt σ χ} {mintedAt : Nat}
    (hl : Ledger h es (some (.pending built dataset mintedAt)))
    (live : e.clock.reads (.sweep h) - mintedAt ≤ TICKET_TTL)
    (marks : e.Marks h false true false false) (hmissed : e.reachesPending h = false) :
    Ledger h (es ++ [e]) (some (.redeemed dataset built.cancel false (e.clock.reads (.stamp h)))) := by
  cases hl with
  | pending _ _ _ own stamp tally missed =>
    obtain ⟨m, hm, hown⟩ := own
    refine .redeemed dataset built.cancel false _
      ⟨m, List.mem_append_left _ hm, built.source, hown⟩ ?_ (tally.snoc marks)
      (forall_snoc missed hmissed)
    intro m' hm' a ha hmints hredeems
    rcases List.mem_append.1 hm' with hm' | hm'
    · rcases List.mem_append.1 ha with ha | ha
      · exact tally.inTime m' hm' a ha hmints hredeems
      · have hstamp := stamp m' hm' hmints
        have hbegun := e.clock.begun_le (.sweep h)
        rw [List.mem_singleton.1 ha]
        omega
    · rw [List.mem_singleton.1 hm', marks.mints] at hmints
      cases hmints

/-- **One call keeps the ledger.** -/
theorem Ledger.step (hl : Ledger h es (e.before.get h))
    (fresh : e.mints h = true → ∀ a ∈ es, a.mints h = false) :
    Ledger h (es ++ [e]) (e.after.get h) := by
  cases e.move h with
  | keep same marks missed =>
    rw [same]
    exact hl.keep marks missed
  | sweep s stale had gone marks =>
    rw [had] at hl
    rw [gone]
    exact hl.sweep had marks
  | mint dataset built has own marks missed =>
    rw [has]
    exact hl.mint (fresh marks.mints) own marks missed
  | redeem dataset built mintedAt had live has marks missed =>
    rw [had] at hl
    rw [has]
    exact hl.redeem live marks missed
  | retire dataset built mintedAt had has marks =>
    rw [had] at hl
    rw [has]
    have was : ∃ m ∈ es ++ [e], m.mints h = true := exists_snoc hl.was
    cases hl with
    | pending _ _ _ own stamp tally missed => exact .cancelled _ was (tally.snoc marks)
  | invoke dataset cancel redeemedAt had has own marks missed =>
    rw [had] at hl
    rw [has]
    cases hl with
    | redeemed _ _ _ _ own inTime tally missed' =>
      exact .redeemed dataset cancel true redeemedAt (exists_snoc own)
        (inTime.snoc marks.mints marks.redeems) (tally.snoc marks) (forall_snoc missed' missed)

end

theorem Run.ledger {es : List (Event σ χ)} {tickets : StreamRegistry σ χ} (run : Run es tickets)
    (h : String) : Ledger h es (tickets.get h) := by
  induction run with
  | start =>
    rw [Table.get_empty]
    exact .unminted (fun _ he => absurd he List.not_mem_nil) ⟨rfl, rfl, rfl⟩
      fun _ he => absurd he List.not_mem_nil
  | next run call clock later fresh ih => exact Ledger.step ih (fresh h)

/-! ### The ceiling -/

namespace StreamRegistry

variable {tickets : StreamRegistry σ χ} {clock : Clock Reading} {dataset d : String}

theorem pendingFor_kept_le : pendingFor (kept tickets clock) d ≤ pendingFor tickets d :=
  Table.count_retain_le

theorem pendingFor_put_le {handle : String} {s : TicketState σ χ} (h : s.isPendingOf d = false) :
    pendingFor (tickets.put handle s) d ≤ pendingFor tickets d :=
  Table.count_put_le_of_neg h

theorem pendingFor_mint_le {built : PendingBuilt σ χ} {handle : String}
    (h : pendingFor tickets d ≤ MAX_PENDING_TICKETS) :
    pendingFor (mint tickets clock dataset built handle).tickets d ≤ MAX_PENDING_TICKETS := by
  have hkept := @pendingFor_kept_le _ _ tickets clock d
  simp only [mint]
  split_ifs with hfull
  · exact le_trans hkept h
  · by_cases hd : dataset = d
    · subst hd
      refine le_trans Table.count_put_le ?_
      have hlt := Nat.lt_of_not_ge hfull
      rw [pendingFor] at hlt
      split
      · exact hlt
      · exact Nat.le_of_lt hlt
    · exact le_trans (pendingFor_put_le (beq_eq_false_iff_ne.2 hd)) (le_trans hkept h)

theorem pendingFor_redeem_le {handle : String} :
    pendingFor (redeem tickets clock handle).tickets d ≤ pendingFor tickets d := by
  simp only [redeem]
  split
  · exact pendingFor_kept_le
  · exact pendingFor_kept_le
  · exact pendingFor_kept_le
  · exact le_trans (pendingFor_put_le rfl) (le_trans Table.count_remove_le pendingFor_kept_le)

theorem pendingFor_cancel_le {handle : String} :
    pendingFor (cancel tickets clock handle).tickets d ≤ pendingFor tickets d := by
  simp only [cancel]
  split
  · exact pendingFor_kept_le
  · exact pendingFor_kept_le
  · exact le_trans (pendingFor_put_le rfl) pendingFor_kept_le
  · split_ifs
    · exact pendingFor_kept_le
    · exact le_trans (pendingFor_put_le rfl) pendingFor_kept_le

theorem pendingFor_cancelAll_le :
    pendingFor (cancelAllForDataset tickets clock dataset).tickets d ≤ pendingFor tickets d := by
  refine le_trans ?_ (@pendingFor_kept_le _ _ tickets clock d)
  simp only [cancelAllForDataset, pendingFor]
  rw [Table.count_mapValues]
  refine Table.count_mono fun h s hs => ?_
  split_ifs at hs
  · cases s with
    | pending built d' t => cases hs
    | redeemed d' c cancelled t => cases hs
    | cancelledBeforeRedeem t => cases hs
  · exact hs

end StreamRegistry

theorem Event.pendingFor_after_le {e : Event σ χ} {d : String}
    (h : StreamRegistry.pendingFor e.before d ≤ MAX_PENDING_TICKETS) :
    StreamRegistry.pendingFor e.after d ≤ MAX_PENDING_TICKETS := by
  obtain ⟨before, call, clock⟩ := e
  cases call with
  | sweepExpired => exact le_trans StreamRegistry.pendingFor_kept_le h
  | mint dataset built handle => exact StreamRegistry.pendingFor_mint_le h
  | redeem handle => exact le_trans StreamRegistry.pendingFor_redeem_le h
  | cancel handle => exact le_trans StreamRegistry.pendingFor_cancel_le h
  | cancelAllForDataset dataset => exact le_trans StreamRegistry.pendingFor_cancelAll_le h

theorem Run.pendingFor_le {es : List (Event σ χ)} {tickets : StreamRegistry σ χ}
    (run : Run es tickets) (d : String) :
    StreamRegistry.pendingFor tickets d ≤ MAX_PENDING_TICKETS := by
  induction run with
  | start => exact Nat.zero_le _
  | next run call clock later fresh ih => exact Event.pendingFor_after_le ih

/-! ### The sources -/

/-- The source that an entry owns, with its ticket. -/
def owned (e : String × TicketState σ χ) : Option (String × σ) := e.2.source.map fun s => (e.1, s)

namespace StreamRegistry

/-- The sources of the pending entries. -/
def pendingSources (tickets : StreamRegistry σ χ) : List (String × σ) :=
  tickets.items.filterMap owned

end StreamRegistry

namespace Event

def mintedSource (e : Event σ χ) : Option (String × σ) := e.minted.map fun m => (m.1, m.2.source)

/-- The sources that the call drops, once it has released the lock. -/
def droppedSources (e : Event σ χ) : List (String × σ) :=
  (e.turn.swept ++ e.turn.retired).filterMap owned

end Event

section

variable {before : StreamRegistry σ χ} {clock : Clock Reading}

open StreamRegistry
open scoped List

theorem sweep_conserves : List.Perm (pendingSources before)
    (pendingSources (kept before clock) ++ (swept before clock).filterMap owned) := by
  have hsplit : List.Perm before.items (swept before clock ++ (kept before clock).items) := by
    rw [kept, Table.items_retain]
    exact Table.select_perm.symm
  rw [pendingSources, pendingSources, ← List.filterMap_append]
  exact (hsplit.trans List.perm_append_comm).filterMap _

/-- An entry replaced by one that owns nothing gives its source away. -/
theorem put_conserves {tickets : StreamRegistry σ χ} {h : String} {s s' : TicketState σ χ}
    (hget : tickets.get h = some s) (hs' : s'.source = none) :
    List.Perm (pendingSources tickets)
      (pendingSources (tickets.put h s') ++ (owned (h, s)).toList) := by
  have hperm := (Table.items_perm_remove hget).filterMap owned
  have hput : pendingSources (tickets.put h s') = (tickets.remove h).items.filterMap owned := by
    rw [pendingSources, Table.items_put, List.filterMap_cons, owned, hs']
    rfl
  rw [hput, pendingSources]
  refine hperm.trans ?_
  rw [List.filterMap_cons]
  cases hown : owned (h, s) with
  | none => rw [Option.toList_none, List.append_nil]
  | some source => exact (List.perm_append_singleton _ _).symm

theorem cancelAll_conserves {dataset : String} (items : List (String × TicketState σ χ))
    (stamp : String → Nat) :
    List.Perm (items.filterMap owned)
      ((items.map fun e => (e.1, if reachedBy dataset e.2 then e.2.cancelled (stamp e.1) else e.2)).filterMap
          owned ++
        (((items.filter fun e => reachedBy dataset e.2).filter fun e => e.2.isPendingOf dataset).filterMap
          owned)) := by
  induction items with
  | nil => exact List.Perm.nil
  | cons e items ih =>
    obtain ⟨h, s⟩ := e
    cases s with
    | pending built d t =>
      have hreached : reachedBy dataset (.pending built d t : TicketState σ χ) = (d == dataset) :=
        Bool.or_false _
      by_cases hd : (d == dataset) = true
      · simp only [List.map_cons, List.filterMap_cons, List.filter_cons, hreached, hd, if_true,
          TicketState.isPendingOf, TicketState.cancelled, owned, TicketState.source, Option.map_some,
          Option.map_none]
        exact (ih.cons _).trans List.perm_middle.symm
      · simp only [List.map_cons, List.filterMap_cons, List.filter_cons, hreached, hd, if_false,
          owned, TicketState.source, Option.map_some, List.cons_append, Bool.false_eq_true]
        exact ih.cons _
    | redeemed d c cancelled t =>
      simp only [List.map_cons, List.filterMap_cons, List.filter_cons, owned, TicketState.source,
        Option.map_none]
      split_ifs
      · simpa [TicketState.isPendingOf, TicketState.cancelled, TicketState.source, owned] using ih
      · simpa [owned, TicketState.source] using ih
    | cancelledBeforeRedeem t =>
      have hreached : reachedBy dataset (.cancelledBeforeRedeem t : TicketState σ χ) = false := rfl
      simp only [List.map_cons, List.filterMap_cons, List.filter_cons, hreached, owned,
        TicketState.source, Option.map_none, Bool.false_eq_true, if_false]
      exact ih

/-- What a call moves of the sources that the sweep has left. -/
theorem conserves_of_turn {e : Event σ χ} {retired : List (String × TicketState σ χ)}
    (hswept : e.turn.swept = swept e.before e.clock) (hretired : e.turn.retired = retired)
    (h : List.Perm (pendingSources e.found ++ e.mintedSource.toList)
      (pendingSources e.after ++ e.handed.toList ++ retired.filterMap owned)) :
    List.Perm (pendingSources e.before ++ e.mintedSource.toList)
      (pendingSources e.after ++ e.handed.toList ++ e.droppedSources) := by
  have hdropped : e.droppedSources =
      (swept e.before e.clock).filterMap owned ++ retired.filterMap owned := by
    rw [Event.droppedSources, hswept, hretired, List.filterMap_append]
  have hsweep : List.Perm (pendingSources e.before)
      ((swept e.before e.clock).filterMap owned ++ pendingSources e.found) :=
    sweep_conserves.trans List.perm_append_comm
  rw [hdropped]
  calc pendingSources e.before ++ e.mintedSource.toList
    _ ~ (swept e.before e.clock).filterMap owned ++
        (pendingSources e.found ++ e.mintedSource.toList) := by
      rw [← List.append_assoc]
      exact hsweep.append_right _
    _ ~ (swept e.before e.clock).filterMap owned ++
        (pendingSources e.after ++ e.handed.toList ++ retired.filterMap owned) := h.append_left _
    _ ~ pendingSources e.after ++ e.handed.toList ++
        ((swept e.before e.clock).filterMap owned ++ retired.filterMap owned) := by
      have hswap : (swept e.before e.clock).filterMap owned ++
          (pendingSources e.after ++ e.handed.toList) ~
            pendingSources e.after ++ e.handed.toList ++ (swept e.before e.clock).filterMap owned :=
        List.perm_append_comm
      simpa only [List.append_assoc] using hswap.append_right (retired.filterMap owned)

theorem conserves_idle {e : Event σ χ} (hswept : e.turn.swept = swept e.before e.clock)
    (hretired : e.turn.retired = []) (hafter : e.after = e.found) (hminted : e.minted = none)
    (hhanded : e.handed = none) :
    List.Perm (pendingSources e.before ++ e.mintedSource.toList)
      (pendingSources e.after ++ e.handed.toList ++ e.droppedSources) := by
  refine conserves_of_turn hswept hretired ?_
  rw [Event.mintedSource, hminted, hafter, hhanded, Option.map_none, Option.toList_none,
    List.filterMap_nil, List.append_nil, List.append_nil]

end

/-- **One call conserves the sources.** -/
theorem Event.conserves {e : Event σ χ} (fresh : ∀ h, e.mints h = true → e.before.get h = none) :
    List.Perm (StreamRegistry.pendingSources e.before ++ e.mintedSource.toList)
      (StreamRegistry.pendingSources e.after ++ e.handed.toList ++ e.droppedSources) := by
  obtain ⟨before, call, clock⟩ := e
  cases call with
  | sweepExpired => exact conserves_idle rfl rfl rfl rfl rfl
  | mint dataset built handle =>
    by_cases hfull : StreamRegistry.pendingFor (StreamRegistry.kept before clock) dataset ≥
        MAX_PENDING_TICKETS
    · have hturn := @Event.mint_refused _ _ before clock handle dataset built hfull
      exact conserves_idle (by rw [hturn]) (by rw [hturn]) (by rw [Event.after, hturn]; rfl)
        (by simp only [Event.minted, hturn]) rfl
    · have hturn := @Event.mint_accepted _ _ before clock handle dataset built hfull
      have hminted : (⟨before, .mint dataset built handle, clock⟩ : Event σ χ).minted =
          some (handle, built) := by
        simp only [Event.minted, hturn]
      have hnone : (StreamRegistry.kept before clock).get handle = none := by
        rw [StreamRegistry.kept, Table.get_retain, fresh handle (mints_of_minted hminted)]
        rfl
      refine conserves_of_turn (by rw [hturn]) (by rw [hturn]) ?_
      rw [Event.mintedSource, hminted, Event.after, hturn]
      show List.Perm (StreamRegistry.pendingSources (StreamRegistry.kept before clock) ++
        [(handle, built.source)]) _
      rw [StreamRegistry.pendingSources, StreamRegistry.pendingSources, Table.items_put,
        Table.remove_of_get_none hnone, List.filterMap_cons]
      show List.Perm _ ((handle, built.source) ::
        (StreamRegistry.kept before clock).items.filterMap owned ++ [] ++ [])
      rw [List.append_nil, List.append_nil]
      exact List.perm_append_singleton _ _
  | redeem handle =>
    by_cases hpending : ∃ built d t,
        (StreamRegistry.kept before clock).get handle = some (.pending built d t)
    · obtain ⟨built, d, t, hget⟩ := hpending
      have hturn := Event.redeem_accepted hget
      have hhanded : (⟨before, .redeem handle, clock⟩ : Event σ χ).handed =
          some (handle, built.source) := by
        simp only [Event.handed, hturn]
      refine conserves_of_turn (by rw [hturn]) (by rw [hturn]) ?_
      rw [hhanded, Event.after, hturn]
      show List.Perm (StreamRegistry.pendingSources (StreamRegistry.kept before clock) ++ []) _
      rw [Table.put_remove, List.append_nil, List.filterMap_nil, List.append_nil]
      exact put_conserves hget rfl
    · obtain ⟨message, hturn⟩ := @Event.redeem_refused _ _ before clock handle
        fun built d t hget => hpending ⟨built, d, t, hget⟩
      exact conserves_idle (by rw [hturn]) (by rw [hturn]) (by rw [Event.after, hturn]; rfl) rfl
        (by simp only [Event.handed, hturn])
  | cancel handle =>
    by_cases hpending : ∃ built d t,
        (StreamRegistry.kept before clock).get handle = some (.pending built d t)
    · obtain ⟨built, d, t, hget⟩ := hpending
      have hturn := Event.cancel_pending hget
      refine conserves_of_turn (by rw [hturn]) (by rw [hturn]) ?_
      rw [Event.after, hturn]
      show List.Perm (StreamRegistry.pendingSources (StreamRegistry.kept before clock) ++ [])
        (_ ++ [] ++ _)
      rw [List.append_nil, List.append_nil]
      exact put_conserves hget rfl
    by_cases hrunning : ∃ d c t,
        (StreamRegistry.kept before clock).get handle = some (.redeemed d c false t)
    · obtain ⟨d, c, t, hget⟩ := hrunning
      have hturn := Event.cancel_running hget
      refine conserves_of_turn (by rw [hturn]) (by rw [hturn]) ?_
      rw [Event.after, hturn]
      exact (put_conserves hget rfl).append_right _
    · obtain ⟨outcome, -, hturn⟩ := Event.cancel_idle
        (fun built d t hget => hpending ⟨built, d, t, hget⟩)
        (fun d c t hget => hrunning ⟨d, c, t, hget⟩)
      exact conserves_idle (by rw [hturn]) (by rw [hturn]) (by rw [Event.after, hturn]; rfl) rfl rfl
  | cancelAllForDataset dataset =>
    refine conserves_of_turn rfl rfl ?_
    show List.Perm (StreamRegistry.pendingSources (StreamRegistry.kept before clock) ++ [])
      (StreamRegistry.pendingSources ((StreamRegistry.kept before clock).mapValues _) ++ [] ++ _)
    rw [List.append_nil, List.append_nil, StreamRegistry.pendingSources, StreamRegistry.pendingSources,
      Table.items_mapValues]
    exact cancelAll_conserves _ fun h => clock.reads (.stamp h)

/-- Where no ticket had the handle, the registry has none. -/
theorem Run.get_eq_none {es : List (Event σ χ)} {tickets : StreamRegistry σ χ} (run : Run es tickets)
    {h : String} (fresh : ∀ e ∈ es, e.mints h = false) : tickets.get h = none := by
  cases hget : tickets.get h with
  | none => rfl
  | some s =>
    have hl := run.ledger h
    rw [hget] at hl
    obtain ⟨m, hm, hmints⟩ := hl.was
    rw [fresh m hm] at hmints
    cases hmints

theorem regroup {α : Type} {p m p' a d h x : Multiset α} (hstep : p + m = p' + a + d) :
    p + h + x + m = p' + (h + a) + (x + d) := by
  have hm : p + h + x + m = p + m + h + x := by abel
  rw [hm, hstep]
  abel

theorem Run.conserves {es : List (Event σ χ)} {tickets : StreamRegistry σ χ} (run : Run es tickets) :
    List.Perm (es.filterMap Event.mintedSource)
      (StreamRegistry.pendingSources tickets ++ es.filterMap Event.handed ++
        es.flatMap Event.droppedSources) := by
  induction run with
  | start => exact List.Perm.nil
  | @next es tickets run call clock later fresh ih =>
    have hstep := Event.conserves (e := ⟨tickets, call, clock⟩) fun h hm =>
      run.get_eq_none (fresh h hm)
    have hone : ∀ f : Event σ χ → Option (String × σ),
        [(⟨tickets, call, clock⟩ : Event σ χ)].filterMap f = (f ⟨tickets, call, clock⟩).toList := by
      intro f
      cases hf : f ⟨tickets, call, clock⟩ with
      | none => rw [List.filterMap_cons_none hf]; rfl
      | some p => rw [List.filterMap_cons_some hf]; rfl
    rw [List.filterMap_append, List.filterMap_append, List.flatMap_append, hone, hone,
      List.flatMap_singleton]
    rw [← Multiset.coe_eq_coe] at ih hstep ⊢
    simp only [← Multiset.coe_add] at ih hstep ⊢
    rw [ih]
    exact regroup hstep

/-- No handle is minted twice. -/
theorem Run.nodup_minted {es : List (Event σ χ)} {tickets : StreamRegistry σ χ}
    (run : Run es tickets) : ((es.filterMap Event.mintedSource).map Prod.fst).Nodup := by
  induction run with
  | start => exact List.nodup_nil
  | @next es tickets run call clock later fresh ih =>
    rw [List.filterMap_append, List.map_append]
    refine List.nodup_append'.2 ⟨ih, ?_, ?_⟩
    · rw [List.filterMap_cons]
      cases Event.mintedSource (⟨tickets, call, clock⟩ : Event σ χ) with
      | none => exact List.nodup_nil
      | some m => exact List.nodup_singleton _
    · intro h hold hnew
      obtain ⟨p, hp, rfl⟩ := List.mem_map.1 hnew
      obtain ⟨e, he, hpe⟩ := List.mem_filterMap.1 hp
      obtain ⟨m, hm, hmp⟩ := Option.map_eq_some_iff.1 hpe
      obtain ⟨q, hq, hqp⟩ := List.mem_map.1 hold
      obtain ⟨a, ha, hqa⟩ := List.mem_filterMap.1 hq
      obtain ⟨n, hn, hnq⟩ := Option.map_eq_some_iff.1 hqa
      have hmints : Event.mints p.1 (⟨tickets, call, clock⟩ : Event σ χ) = true := by
        rw [← List.mem_singleton.1 he, ← hmp]
        exact mints_of_minted hm
      have hminted : a.mints p.1 = true := by
        rw [← hqp, ← hnq]
        exact mints_of_minted hn
      rw [fresh p.1 hmints a ha] at hminted
      cases hminted

/-! ### The history of one ticket -/

theorem Event.counts_eq_invokes {e : Event σ χ} {h d : String} {c : χ} {cancelled : Bool} {t : Nat}
    (hbefore : e.before.get h = some (.redeemed d c cancelled t)) : e.counts h = e.invokes h := by
  cases e.move h with
  | keep same marks missed => rw [marks.counts, marks.invokes]
  | sweep s stale had gone marks => rw [marks.counts, marks.invokes]
  | mint dataset built has own marks missed => rw [marks.counts, marks.invokes]
  | redeem dataset built mintedAt had live has marks missed => rw [marks.counts, marks.invokes]
  | retire dataset built mintedAt had has marks => rw [had] at hbefore; cases hbefore
  | invoke dataset cancel redeemedAt had has own marks missed => rw [marks.counts, marks.invokes]

theorem Event.not_invoked {e : Event σ χ} {h : String} {c : χ} (hnot : e.invokes h = false) :
    (h, c) ∉ e.turn.invoked := by
  intro hc
  have hinvokes : e.invokes h = true := List.any_eq_true.2 ⟨(h, c), hc, beq_self_eq_true h⟩
  rw [hnot] at hinvokes
  cases hinvokes

/-- What a call invokes for a ticket is what the ticket was minted with. -/
theorem Run.own {es : List (Event σ χ)} {tickets : StreamRegistry σ χ} (run : Run es tickets)
    {h : String} : ∀ e ∈ es, ∀ c, (h, c) ∈ e.turn.invoked →
      ∃ m ∈ es, ∃ source, m.minted = some (h, ⟨source, c⟩) := by
  induction run with
  | start => exact fun _ he => absurd he List.not_mem_nil
  | @next es tickets run call clock later fresh ih =>
    intro e he c hc
    rcases List.mem_append.1 he with he | he
    · exact exists_snoc (ih e he c hc)
    have hl := run.ledger h
    rw [List.mem_singleton.1 he] at hc
    cases Event.move (⟨tickets, call, clock⟩ : Event σ χ) h with
    | keep same marks missed => exact absurd hc (Event.not_invoked marks.invokes)
    | sweep s stale had gone marks => exact absurd hc (Event.not_invoked marks.invokes)
    | mint dataset built has own marks missed => exact absurd hc (Event.not_invoked marks.invokes)
    | redeem dataset built mintedAt had live has marks missed =>
      exact absurd hc (Event.not_invoked marks.invokes)
    | retire dataset built mintedAt had has marks => exact absurd hc (Event.not_invoked marks.invokes)
    | invoke dataset cancel redeemedAt had has own marks missed =>
      rw [show tickets.get h = _ from had] at hl
      rw [own c hc]
      cases hl with
      | redeemed _ _ _ _ own inTime tally missed => exact exists_snoc own

/-- **What a history shows of one ticket.** -/
structure SingleUse (h : String) (es : List (Event σ χ)) : Prop where
  redeemedOnce : es.countP (Event.redeems h) ≤ 1
  inTime : InTime h es
  /-- Once cancelled while pending, never redeemed. -/
  notCancelled : ∀ c ∈ es, c.reachesPending h = true → ∀ e ∈ es, e.redeems h = false
  cancelledOnce : es.countP (Event.counts h) ≤ 1
  invokedOnce : es.countP (Event.invokes h) ≤ 1
  /-- A redeemed ticket is cancelled by the call that invokes its `SourceCancel`. -/
  cancelledByInvoke : ∀ e ∈ es, ∀ d c cancelled t,
    e.before.get h = some (.redeemed d c cancelled t) → e.counts h = e.invokes h
  own : ∀ e ∈ es, ∀ c, (h, c) ∈ e.turn.invoked → ∃ m ∈ es, ∃ source, m.minted = some (h, ⟨source, c⟩)

theorem Run.singleUse {es : List (Event σ χ)} {tickets : StreamRegistry σ χ} (run : Run es tickets)
    (h : String) : SingleUse h es := by
  have hby : ∀ e ∈ es, ∀ d c cancelled t,
      e.before.get h = some (.redeemed d c cancelled t) → e.counts h = e.invokes h :=
    fun e _ d c cancelled t hbefore => e.counts_eq_invokes hbefore
  have hmissed : ∀ {r c i : Nat}, Tally h es r c i → (r ≠ 0 → ∀ e ∈ es, e.reachesPending h = false) →
      ∀ c ∈ es, c.reachesPending h = true → ∀ e ∈ es, e.redeems h = false := by
    intro r c i tally missed a ha hreaches
    cases r with
    | zero => exact tally.not_redeems
    | succ r =>
      rw [missed (Nat.succ_ne_zero r) a ha] at hreaches
      cases hreaches
  have hl := run.ledger h
  generalize tickets.get h = entry at hl
  cases hl with
  | unminted never tally missed =>
    exact ⟨by rw [tally.redeems]; decide, tally.inTime, hmissed tally fun _ => missed,
      by rw [tally.counts]; decide, by rw [tally.invokes]; decide, hby, run.own⟩
  | pending built dataset mintedAt own stamp tally missed =>
    exact ⟨by rw [tally.redeems]; decide, tally.inTime, hmissed tally fun _ => missed,
      by rw [tally.counts]; decide, by rw [tally.invokes]; decide, hby, run.own⟩
  | redeemed dataset cancel cancelled redeemedAt own inTime tally missed =>
    exact ⟨by rw [tally.redeems], inTime, hmissed tally fun _ => missed,
      by rw [tally.counts]; exact Bool.toNat_le _, by rw [tally.invokes]; exact Bool.toNat_le _, hby,
      run.own⟩
  | cancelled cancelledAt was tally =>
    exact ⟨by rw [tally.redeems]; decide, tally.inTime, hmissed tally fun hr => absurd rfl hr,
      by rw [tally.counts], by rw [tally.invokes]; decide, hby, run.own⟩
  | gone redeems counts invokes was tally once cancelledOnce invokedOnce inTime missed =>
    exact ⟨by rw [tally.redeems]; exact once, inTime, hmissed tally missed,
      by rw [tally.counts]; exact cancelledOnce, by rw [tally.invokes]; exact invokedOnce, hby,
      run.own⟩

/-- `cancel_all_for_dataset` answers how many tickets it cancels. -/
theorem Event.cancelledAll_eq {e : Event σ χ} {dataset : String}
    (hcall : e.call = .cancelAllForDataset dataset) :
    e.turn.answer = .cancelledAll (e.found.count fun h _ => e.counts h) := by
  obtain ⟨before, call, clock⟩ := e
  cases hcall
  show Answer.cancelledAll _ = Answer.cancelledAll _
  congr 1
  show (Table.select (StreamRegistry.kept before clock) _).length = _
  rw [← Table.count_eq]
  refine Table.count_congr fun h s hget => ?_
  show _ = ((StreamRegistry.kept before clock).get h).elim false _
  rw [hget]
  rfl

/-- **Stream tickets are single use.**  In every history of calls, each ticket is redeemed at most
once, in time, and not once it is cancelled; its cancellation is answered once, and invoked once;
each source is in one place; and no dataset has more pending tickets than the ceiling. -/
theorem Run.single_use {es : List (Event σ χ)} {tickets : StreamRegistry σ χ} (run : Run es tickets) :
    (∀ h, SingleUse h es) ∧
      (∀ e ∈ es, ∀ dataset, e.call = .cancelAllForDataset dataset →
        e.turn.answer = .cancelledAll (e.found.count fun h _ => e.counts h)) ∧
      (((es.filterMap Event.mintedSource).map Prod.fst).Nodup ∧
        List.Perm (es.filterMap Event.mintedSource)
          (StreamRegistry.pendingSources tickets ++ es.filterMap Event.handed ++
            es.flatMap Event.droppedSources)) ∧
      ∀ dataset, StreamRegistry.pendingFor tickets dataset ≤ MAX_PENDING_TICKETS :=
  ⟨run.singleUse, fun e _ _ hcall => e.cancelledAll_eq hcall, ⟨run.nodup_minted, run.conserves⟩,
    run.pendingFor_le⟩

/-- A ticket is minted. -/
def minting : Event Nat Nat := ⟨∅, .mint "ds_1" ⟨7, 8⟩ "sh_1", .still 0⟩

/-- It is redeemed. -/
def redeeming : Event Nat Nat := ⟨minting.after, .redeem "sh_1", .still 5⟩

example : redeeming.handed = some ("sh_1", 7) := rfl

theorem run_redeeming : Run [minting, redeeming] redeeming.after := by
  have hmint : Run [minting] minting.after :=
    .next .start minting.call minting.clock (fun _ he => absurd he List.not_mem_nil)
      fun _ _ _ he => absurd he List.not_mem_nil
  refine .next hmint redeeming.call redeeming.clock (fun e he => ?_) fun h hmints => ?_
  · rw [List.mem_singleton.1 he]
    decide
  · cases hmints

theorem single_use_redeeming : SingleUse "sh_1" [minting, redeeming] ∧
    StreamRegistry.pendingFor redeeming.after "ds_1" ≤ MAX_PENDING_TICKETS :=
  ⟨(Run.single_use run_redeeming).1 "sh_1", (Run.single_use run_redeeming).2.2.2 "ds_1"⟩

end SpatialIde.Kernel.Skp
