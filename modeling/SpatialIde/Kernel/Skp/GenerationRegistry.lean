import Mathlib.Data.Finset.Basic
import SpatialIde.Kernel.Skp.StreamRegistry

/-! # The registry of dataset-session generations

A generation is live from the open of its dataset until it is invalidated or its dataset is
forgotten.  The registry says for a ticket whether its generation is live, and for what reason it
has ended.  Every call holds the lock from its beginning to its end.
-/

namespace SpatialIde.Kernel.Skp

open Lib

inductive SessionEndReason where
  | observedChange
  | coverageLost
  deriving DecidableEq, Repr

inductive NotLive where
  | ended (reason : SessionEndReason)
  | notOpen
  deriving DecidableEq, Repr

inductive TicketLiveness where
  | live
  | endedBySourceChange
  | endedByCoverageLoss
  /-- No record of the ticket. -/
  | unknown
  deriving DecidableEq, Repr

/-- The reference of an open session, which its client holds. -/
abbrev SessionRef := String

/-- The transition that `invalidate` reports. -/
structure EndReport where
  session : SessionRef
  reason : SessionEndReason
  tickets : List String
  deriving DecidableEq, Repr

/-- A ticket as it is attributed. -/
structure Attribution where
  dataset : String
  generation : Nat
  attributedAt : Nat
  deriving DecidableEq, Repr

/-- A ticket whose generation has ended. -/
structure DeadTicket where
  dataset : String
  reason : SessionEndReason
  endedAt : Nat
  deriving DecidableEq, Repr

structure GenerationState where
  live : Table String (Nat × SessionRef)
  tickets : Table String Attribution
  /-- The datasets whose generation was ended. -/
  invalidated : Table String SessionEndReason
  deadTickets : Table String DeadTicket
  /-- The datasets in the middle of a close. -/
  closing : Finset String
  next : Nat

namespace GenerationState

def empty : GenerationState := ⟨∅, ∅, ∅, ∅, ∅, 0⟩

/-- The number of the live generation. -/
def liveNumber (st : GenerationState) (dataset : String) : Option Nat :=
  (st.live.get dataset).map Prod.fst

end GenerationState

namespace GenerationRegistry

/-- Where a call reads the clock: at each record of a ticket it prunes, and when it writes. -/
inductive Reading where
  | ticket (handle : String)
  | dead (handle : String)
  | stamp

/-- The retention window. -/
def MAX_AGE : Nat := TICKET_TTL + TERMINAL_ENTRY_MAX_AGE

/-- `prune_locked`. -/
def prune (st : GenerationState) (clock : Clock Reading) : GenerationState :=
  { st with
    tickets := st.tickets.retain fun h a =>
      decide (clock.reads (.ticket h) - a.attributedAt ≤ MAX_AGE) &&
        st.liveNumber a.dataset == some a.generation
    deadTickets := st.deadTickets.retain fun h a =>
      decide (clock.reads (.dead h) - a.endedAt ≤ MAX_AGE) }

def mintForOpen (st : GenerationState) (clock : Clock Reading) (dataset : String)
    (session : SessionRef) : Nat × GenerationState :=
  let st := prune st clock
  let g := st.next + 1
  (g, { st with
    next := g
    live := st.live.put dataset (g, session)
    invalidated := st.invalidated.remove dataset
    deadTickets := st.deadTickets.retain fun _ a => a.dataset != dataset })

def liveGeneration (st : GenerationState) (clock : Clock Reading) (dataset : String) :
    Except NotLive Nat × GenerationState :=
  let st := prune st clock
  match st.invalidated.get dataset with
  | some reason => (.error (.ended reason), st)
  | none =>
    if dataset ∈ st.closing then (.error .notOpen, st)
    else
      match st.liveNumber dataset with
      | some g => (.ok g, st)
      | none => (.error .notOpen, st)

def attributeTicket (st : GenerationState) (clock : Clock Reading) (handle dataset : String) :
    Bool × GenerationState :=
  let st := prune st clock
  if dataset ∈ st.closing then (false, st)
  else
    match st.liveNumber dataset with
    | none => (false, st)
    | some g =>
      (true, { st with tickets := st.tickets.put handle ⟨dataset, g, clock.reads .stamp⟩ })

/-- What a dead ticket is refused for. -/
def livenessOf : SessionEndReason → TicketLiveness
  | .observedChange => .endedBySourceChange
  | .coverageLost => .endedByCoverageLoss

def ticketLiveness (st : GenerationState) (clock : Clock Reading) (handle : String) :
    TicketLiveness × GenerationState :=
  let st := prune st clock
  match st.deadTickets.get handle with
  | some dead => (livenessOf dead.reason, st)
  | none =>
    match st.tickets.get handle with
    | some a => (if st.liveNumber a.dataset = some a.generation then .live else .unknown, st)
    | none => (.unknown, st)

def endedReason (st : GenerationState) (clock : Clock Reading) (dataset : String) :
    Option SessionEndReason × GenerationState :=
  ((prune st clock).invalidated.get dataset, prune st clock)

def beginClose (st : GenerationState) (dataset : String) : GenerationState :=
  { st with closing := insert dataset st.closing }

def invalidate (st : GenerationState) (clock : Clock Reading) (dataset : String)
    (reason : SessionEndReason) : Option EndReport × GenerationState :=
  match st.live.get dataset with
  | none => (none, prune st clock)
  | some (g, session) =>
    -- the first mark stands
    let recorded := (st.invalidated.get dataset).getD reason
    let ended := (st.tickets.select fun _ a => a.dataset == dataset && a.generation == g).map Prod.fst
    let st := { st with
      live := st.live.remove dataset
      invalidated := st.invalidated.put dataset recorded
      deadTickets := st.deadTickets.putAll ended ⟨dataset, recorded, clock.reads .stamp⟩ }
    (some ⟨session, recorded, ended⟩, prune st clock)

def forgetDataset (st : GenerationState) (dataset : String) : GenerationState :=
  { st with
    live := st.live.remove dataset
    invalidated := st.invalidated.remove dataset
    closing := st.closing.erase dataset
    tickets := st.tickets.retain fun _ a => a.dataset != dataset
    deadTickets := st.deadTickets.retain fun _ a => a.dataset != dataset }

end GenerationRegistry

end SpatialIde.Kernel.Skp
