import Mathlib.Algebra.GroupWithZero.Nat
import SpatialIde.Kernel.Skp.Error
import SpatialIde.Lib.Clock
import SpatialIde.Lib.Table

/-! # The registry of stream tickets

A ticket is pending from its mint, until it is redeemed once, or cancelled before that.  Every
call holds the lock from its beginning to its end and sweeps the registry first, so the calls of
any number of callers are one sequence.

`Turn` is what one call does: its answer, the registry it leaves, and what it moves out of the
registry.  The handle of a mint comes from the random source of the operating system, and is an
argument here.
-/

namespace SpatialIde.Kernel.Skp

open Lib

/-- 30 s. -/
def TICKET_TTL : Nat := 30 * 10 ^ 9

def MAX_PENDING_TICKETS : Nat := 8

/-- 300 s. -/
def TERMINAL_ENTRY_MAX_AGE : Nat := 300 * 10 ^ 9

inductive CancelOutcome where
  | requested
  | unknown
  | alreadyTerminal
  deriving DecidableEq, Repr

/-- A source, and how to cancel it. -/
structure PendingBuilt (σ χ : Type) where
  source : σ
  cancel : χ

inductive TicketState (σ χ : Type) where
  | pending (built : PendingBuilt σ χ) (dataset : String) (mintedAt : Nat)
  | redeemed (dataset : String) (cancel : χ) (cancelled : Bool) (redeemedAt : Nat)
  | cancelledBeforeRedeem (cancelledAt : Nat)

/-- Where a call reads the clock: at each entry it sweeps, and at each entry it writes. -/
inductive Reading where
  | sweep (handle : String)
  | stamp (handle : String)

namespace TicketState

variable {σ χ : Type}

/-- Older than an entry of its kind may be. -/
def expired (now : Nat) : TicketState σ χ → Bool
  | pending _ _ mintedAt => decide (now - mintedAt > TICKET_TTL)
  | redeemed _ _ _ redeemedAt => decide (now - redeemedAt > TERMINAL_ENTRY_MAX_AGE)
  | cancelledBeforeRedeem cancelledAt => decide (now - cancelledAt > TERMINAL_ENTRY_MAX_AGE)

def isPendingOf (dataset : String) : TicketState σ χ → Bool
  | pending _ d _ => d == dataset
  | _ => false

/-- Redeemed, and not yet cancelled. -/
def isRunningOf (dataset : String) : TicketState σ χ → Bool
  | redeemed d _ cancelled _ => d == dataset && !cancelled
  | _ => false

/-- After a cancellation at `now`. -/
def cancelled (now : Nat) : TicketState σ χ → TicketState σ χ
  | pending .. => cancelledBeforeRedeem now
  | redeemed dataset cancel _ redeemedAt => redeemed dataset cancel true redeemedAt
  | cancelledBeforeRedeem cancelledAt => cancelledBeforeRedeem cancelledAt

/-- What a cancellation of a redeemed ticket invokes. -/
def sourceCancel : TicketState σ χ → Option χ
  | redeemed _ cancel _ _ => some cancel
  | _ => none

/-- The source an entry owns. -/
def source : TicketState σ χ → Option σ
  | pending built _ _ => some built.source
  | _ => none

end TicketState

abbrev StreamRegistry (σ χ : Type) := Table String (TicketState σ χ)

/-- What one call does. -/
structure Turn (σ χ α : Type) where
  answer : α
  tickets : StreamRegistry σ χ
  /-- Swept entries, dropped once the lock is released. -/
  swept : List (String × TicketState σ χ)
  /-- Pending entries that a cancellation replaced, dropped likewise. -/
  retired : List (String × TicketState σ χ)
  /-- The calls of `SourceCancel::cancel`, each with the ticket it is for. -/
  invoked : List (String × χ)

namespace StreamRegistry

variable {σ χ : Type}

/-- `sweep_locked`: what is left. -/
def kept (tickets : StreamRegistry σ χ) (clock : Clock Reading) : StreamRegistry σ χ :=
  tickets.retain fun h s => !s.expired (clock.reads (.sweep h))

/-- `sweep_locked`: the entries it removes. -/
def swept (tickets : StreamRegistry σ χ) (clock : Clock Reading) : List (String × TicketState σ χ) :=
  tickets.select fun h s => s.expired (clock.reads (.sweep h))

def pendingFor (tickets : StreamRegistry σ χ) (dataset : String) : Nat :=
  tickets.count fun _ s => s.isPendingOf dataset

def sweepExpired (tickets : StreamRegistry σ χ) (clock : Clock Reading) : Turn σ χ Unit :=
  ⟨(), kept tickets clock, swept tickets clock, [], []⟩

def mint (tickets : StreamRegistry σ χ) (clock : Clock Reading) (dataset : String)
    (built : PendingBuilt σ χ) (handle : String) : Turn σ χ (Except SkpError String) :=
  let rest := kept tickets clock
  if pendingFor rest dataset ≥ MAX_PENDING_TICKETS then
    ⟨.error (.tooManyPendingStreams MAX_PENDING_TICKETS), rest, swept tickets clock, [], []⟩
  else
    ⟨.ok handle, rest.put handle (.pending built dataset (clock.reads (.stamp handle))),
      swept tickets clock, [], []⟩

def redeem (tickets : StreamRegistry σ χ) (clock : Clock Reading) (handle : String) :
    Turn σ χ (Except String (σ × χ)) :=
  let rest := kept tickets clock
  match rest.get handle with
  | none => ⟨.error ("ticket `" ++ handle ++ "` is unknown: never minted, already redeemed and " ++
      "gone, or expired after 30s"), rest, swept tickets clock, [], []⟩
  | some (.cancelledBeforeRedeem _) =>
    ⟨.error ("ticket `" ++ handle ++ "` was cancelled before it was redeemed"), rest,
      swept tickets clock, [], []⟩
  | some (.redeemed ..) =>
    ⟨.error ("ticket `" ++ handle ++ "` was already redeemed; a ticket is single-use"), rest,
      swept tickets clock, [], []⟩
  | some (.pending built dataset _) =>
    ⟨.ok (built.source, built.cancel),
      (rest.remove handle).put handle
        (.redeemed dataset built.cancel false (clock.reads (.stamp handle))),
      swept tickets clock, [], []⟩

def cancel (tickets : StreamRegistry σ χ) (clock : Clock Reading) (handle : String) :
    Turn σ χ CancelOutcome :=
  let rest := kept tickets clock
  match rest.get handle with
  | none => ⟨.unknown, rest, swept tickets clock, [], []⟩
  | some (.cancelledBeforeRedeem _) => ⟨.alreadyTerminal, rest, swept tickets clock, [], []⟩
  | some (.pending built dataset mintedAt) =>
    ⟨.requested, rest.put handle (.cancelledBeforeRedeem (clock.reads (.stamp handle))),
      swept tickets clock, [(handle, .pending built dataset mintedAt)], []⟩
  | some (.redeemed dataset cancel cancelled redeemedAt) =>
    if cancelled then ⟨.alreadyTerminal, rest, swept tickets clock, [], []⟩
    else
      ⟨.requested, rest.put handle (.redeemed dataset cancel true redeemedAt),
        swept tickets clock, [], [(handle, cancel)]⟩

/-- The entries of a dataset that `cancel_all_for_dataset` counts. -/
def reachedBy (dataset : String) (s : TicketState σ χ) : Bool :=
  s.isPendingOf dataset || s.isRunningOf dataset

def cancelAllForDataset (tickets : StreamRegistry σ χ) (clock : Clock Reading) (dataset : String) :
    Turn σ χ Nat :=
  let rest := kept tickets clock
  let reached := rest.select fun _ s => reachedBy dataset s
  ⟨reached.length,
    rest.mapValues fun h s =>
      if reachedBy dataset s then s.cancelled (clock.reads (.stamp h)) else s,
    swept tickets clock,
    reached.filter fun e => e.2.isPendingOf dataset,
    reached.filterMap fun e => e.2.sourceCancel.map fun c => (e.1, c)⟩

end StreamRegistry

end SpatialIde.Kernel.Skp
