import Mathlib.Data.List.Basic

/-! # The connection pool of a dataset

Callers take leases of three classes over one pool of physical connections.  A lease moves its
connection out of the pool, and each of the pool's critical sections is one step.  A caller between
two of them is a holder: creating a connection, holding a lease, or giving its connection back.
-/

namespace SpatialIde.Engine

def MAX_STREAM_CONNECTIONS : Nat := 4

def MAX_MAINTENANCE_CONNECTIONS : Nat := 1

def MAX_ADMISSION_CONNECTIONS : Nat := 4

def MAX_PHYSICAL_CONNECTIONS : Nat :=
  MAX_STREAM_CONNECTIONS + MAX_MAINTENANCE_CONNECTIONS + MAX_ADMISSION_CONNECTIONS

inductive LeaseClass where
  | stream
  | maintenance
  | admission
  deriving DecidableEq, Repr

namespace LeaseClass

def asStr : LeaseClass → String
  | stream => "stream"
  | maintenance => "maintenance"
  | admission => "admission"

def capacity : LeaseClass → Nat
  | stream => MAX_STREAM_CONNECTIONS
  | maintenance => MAX_MAINTENANCE_CONNECTIONS
  | admission => MAX_ADMISSION_CONNECTIONS

end LeaseClass

structure PoolConfig where
  maxIdle : Nat
  deriving DecidableEq, Repr

namespace PoolConfig

def reuse : PoolConfig := ⟨MAX_PHYSICAL_CONNECTIONS⟩

def freshPerQuery : PoolConfig := ⟨0⟩

end PoolConfig

/-- A physical connection: its id, and the leases issued over it so far. -/
structure Physical where
  id : Nat
  leases : Nat
  deriving DecidableEq, Repr

/-- `idle` is a stack, its top first. -/
structure PoolState where
  idle : List Physical
  live : Nat
  activeStream : Nat
  activeMaintenance : Nat
  activeAdmission : Nat
  deriving DecidableEq, Repr

namespace PoolState

def new : PoolState := ⟨[], 0, 0, 0, 0⟩

def active (st : PoolState) : LeaseClass → Nat
  | .stream => st.activeStream
  | .maintenance => st.activeMaintenance
  | .admission => st.activeAdmission

/-- A change through `active_mut`. -/
def modifyActive (st : PoolState) (f : Nat → Nat) : LeaseClass → PoolState
  | .stream => { st with activeStream := f st.activeStream }
  | .maintenance => { st with activeMaintenance := f st.activeMaintenance }
  | .admission => { st with activeAdmission := f st.activeAdmission }

end PoolState

/-- Where a caller is between two critical sections. -/
inductive Phase where
  /-- The slot is reserved, the connection is being configured. -/
  | creating (id : Nat)
  /-- A live lease. -/
  | held (p : Physical)
  /-- `release_healthy` has verified the connection and taken it from the lease. -/
  | returning (p : Physical)
  /-- The lease is dropped. -/
  | discarding (p : Physical)
  deriving DecidableEq, Repr

structure Holder where
  cls : LeaseClass
  phase : Phase
  deriving DecidableEq, Repr

def Holder.physicalId (h : Holder) : Nat :=
  match h.phase with
  | .creating id => id
  | .held p => p.id
  | .returning p => p.id
  | .discarding p => p.id

structure ConnectionsExhausted where
  cls : String
  capacity : Nat
  deriving DecidableEq, Repr

/-- The pool, its callers, and what has happened so far: the ids handed out to new connections, and
each successful verification by the connection and its lease. -/
structure ConnectionPool where
  config : PoolConfig
  state : PoolState
  nextPhysicalId : Nat
  holders : List Holder
  created : List Nat
  verified : List Physical
  deriving DecidableEq, Repr

/-- How the verification of a connection ends. -/
inductive Verification where
  | ok
  | failed
  | unwound
  deriving DecidableEq, Repr

namespace ConnectionPool

def new (config : PoolConfig) : ConnectionPool := ⟨config, .new, 1, [], [], []⟩

/-- The critical section of `acquire`. -/
def acquire (pool : ConnectionPool) (cls : LeaseClass) :
    Except ConnectionsExhausted ConnectionPool :=
  let st := pool.state
  if cls.capacity ≤ st.active cls then .error ⟨cls.asStr, cls.capacity⟩
  else
    match st.idle with
    | p :: idle =>
      .ok { pool with
        state := { st with idle := idle }.modifyActive (· + 1) cls
        holders := ⟨cls, .held { p with leases := p.leases + 1 }⟩ :: pool.holders }
    | [] =>
      if MAX_PHYSICAL_CONNECTIONS ≤ st.live then .error ⟨"physical", MAX_PHYSICAL_CONNECTIONS⟩
      else
        .ok { pool with
          state := { st with live := st.live + 1 }.modifyActive (· + 1) cls
          nextPhysicalId := pool.nextPhysicalId + 1
          holders := ⟨cls, .creating pool.nextPhysicalId⟩ :: pool.holders
          created := pool.created ++ [pool.nextPhysicalId] }

/-- A caller goes on in another phase. -/
def advance (pool : ConnectionPool) (h : Holder) (phase : Phase) : ConnectionPool :=
  { pool with holders := ⟨h.cls, phase⟩ :: pool.holders.erase h }

/-- A critical section that frees a slot and the connection in it. -/
def free (pool : ConnectionPool) (h : Holder) : ConnectionPool :=
  let st := pool.state.modifyActive (· - 1) h.cls
  { pool with
    state := { st with live := st.live - 1 }
    holders := pool.holders.erase h }

/-- `return_healthy`. -/
def returnHealthy (pool : ConnectionPool) (h : Holder) (p : Physical) : ConnectionPool :=
  let st := pool.state.modifyActive (· - 1) h.cls
  { pool with
    state :=
      if st.idle.length < pool.config.maxIdle then { st with idle := p :: st.idle }
      else { st with live := st.live - 1 }
    holders := pool.holders.erase h }

/-- `configure_new` is over, and with it `acquire`. -/
def configured (pool : ConnectionPool) (h : Holder) (ok : Bool) : Option ConnectionPool :=
  match h.phase with
  | .creating id => some (if ok then pool.advance h (.held ⟨id, 1⟩) else pool.free h)
  | _ => none

/-- The verification in `release_healthy` is over; where it did not succeed, the lease still has its
connection and is dropped. -/
def verify (pool : ConnectionPool) (h : Holder) (v : Verification) : Option ConnectionPool :=
  match h.phase with
  | .held p =>
    some (match v with
      | .ok => { (pool.advance h (.returning p)) with verified := pool.verified ++ [p] }
      | .failed => pool.advance h (.discarding p)
      | .unwound => pool.advance h (.discarding p))
  | _ => none

def dropLease (pool : ConnectionPool) (h : Holder) : Option ConnectionPool :=
  match h.phase with
  | .held p => some (pool.advance h (.discarding p))
  | _ => none

/-- The critical section a connection is given back in. -/
def giveBack (pool : ConnectionPool) (h : Holder) : Option ConnectionPool :=
  match h.phase with
  | .returning p => some (pool.returnHealthy h p)
  | .discarding _ => some (pool.free h)
  | _ => none

inductive Event where
  | acquire (cls : LeaseClass)
  | configured (h : Holder) (ok : Bool)
  | verify (h : Holder) (v : Verification)
  | dropLease (h : Holder)
  | giveBack (h : Holder)
  deriving DecidableEq, Repr

/-- One step; a refused `acquire` changes nothing. -/
def step (pool : ConnectionPool) : Event → Option ConnectionPool
  | .acquire cls =>
    match pool.acquire cls with
    | .ok pool' => some pool'
    | .error _ => some pool
  | .configured h ok => if h ∈ pool.holders then pool.configured h ok else none
  | .verify h v => if h ∈ pool.holders then pool.verify h v else none
  | .dropLease h => if h ∈ pool.holders then pool.dropLease h else none
  | .giveBack h => if h ∈ pool.holders then pool.giveBack h else none

end ConnectionPool

end SpatialIde.Engine
