import SpatialIde.Engine.Pool
import SpatialIde.Lib.Runs

/-! # The counts of the connection pool

After every step the pool's counts are those of the connections it has and of the callers it serves,
so a class is refused only at its own capacity.
-/

namespace SpatialIde.Engine

open Lib

namespace PoolState

theorem active_modifyActive (st : PoolState) (f : Nat → Nat) (c c' : LeaseClass) :
    (st.modifyActive f c).active c' = if c' = c then f (st.active c) else st.active c' := by
  cases c <;> cases c' <;> rfl

@[simp] theorem idle_modifyActive (st : PoolState) (f : Nat → Nat) (c : LeaseClass) :
    (st.modifyActive f c).idle = st.idle := by
  cases c <;> rfl

@[simp] theorem live_modifyActive (st : PoolState) (f : Nat → Nat) (c : LeaseClass) :
    (st.modifyActive f c).live = st.live := by
  cases c <;> rfl

end PoolState

namespace ConnectionPool

/-- The callers a class serves. -/
def serving (holders : List Holder) (c : LeaseClass) : Nat := holders.countP fun h => h.cls = c

/-- The connections the pool has, idle or with a caller. -/
def physicalIds (pool : ConnectionPool) : List Nat :=
  pool.state.idle.map Physical.id ++ pool.holders.map Holder.physicalId

/-- The counts are those of what there is. -/
structure Accounted (pool : ConnectionPool) : Prop where
  live : pool.state.live = pool.state.idle.length + pool.holders.length
  physical : pool.state.live ≤ MAX_PHYSICAL_CONNECTIONS
  active : ∀ c, pool.state.active c = serving pool.holders c
  capacity : ∀ c, pool.state.active c ≤ c.capacity
  idle : pool.state.idle.length ≤ pool.config.maxIdle
  /-- No connection is in two places. -/
  exclusive : pool.physicalIds.Nodup
  known : ∀ i ∈ pool.physicalIds, i ∈ pool.created
  /-- No id is handed out twice. -/
  created : pool.created.Nodup
  below : ∀ i ∈ pool.created, i < pool.nextPhysicalId
  /-- An idle connection was verified at the end of its last lease. -/
  verified : ∀ p ∈ pool.state.idle, p ∈ pool.verified
  returning : ∀ h ∈ pool.holders, ∀ p, h.phase = .returning p → p ∈ pool.verified

variable {pool pool' : ConnectionPool} {h : Holder} {c : LeaseClass}

theorem accounted_new (config : PoolConfig) : Accounted (.new config) where
  live := rfl
  physical := Nat.zero_le _
  active c := by cases c <;> rfl
  capacity c := by cases c <;> exact Nat.zero_le _
  idle := Nat.zero_le _
  exclusive := List.nodup_nil
  known := nofun
  created := List.nodup_nil
  below := nofun
  verified := nofun
  returning := nofun

/-! ### Counting callers -/

theorem serving_cons (h : Holder) (holders : List Holder) (c : LeaseClass) :
    serving (h :: holders) c = if c = h.cls then serving holders c + 1 else serving holders c := by
  rw [serving, serving, List.countP_cons]
  by_cases hc : c = h.cls
  · rw [if_pos hc, if_pos (by simp [hc])]
  · rw [if_neg hc, if_neg (by simpa using fun h => hc h.symm)]
    rfl

/-- The callers but one. -/
theorem serving_erase {holders : List Holder} (hh : h ∈ holders) (c : LeaseClass) :
    serving holders c =
      if c = h.cls then serving (holders.erase h) c + 1 else serving (holders.erase h) c := by
  rw [← serving_cons]
  exact (List.perm_cons_erase hh).countP_eq _

/-- Every caller is of one class. -/
theorem length_eq_serving (holders : List Holder) :
    holders.length =
      serving holders .stream + serving holders .maintenance + serving holders .admission := by
  induction holders with
  | nil => rfl
  | cons h holders ih =>
    rw [List.length_cons, serving_cons, serving_cons, serving_cons]
    cases h.cls <;> simp <;> omega

/-- The pool's connections, seen from one caller. -/
theorem perm_physicalIds (hh : h ∈ pool.holders) : pool.physicalIds.Perm
    (h.physicalId :: (pool.state.idle.map Physical.id ++
      (pool.holders.erase h).map Holder.physicalId)) := by
  have hperm := (List.perm_cons_erase hh).map Holder.physicalId
  rw [List.map_cons] at hperm
  exact (hperm.append_left _).trans List.perm_middle

/-! ### The critical sections -/

theorem Accounted.lt_physical (h : Accounted pool) (hidle : pool.state.idle = [])
    (hc : pool.state.active c < c.capacity) : pool.state.live < MAX_PHYSICAL_CONNECTIONS := by
  have hlive := h.live
  have hlen := length_eq_serving pool.holders
  have hstream := h.capacity .stream
  have hmaintenance := h.capacity .maintenance
  have hadmission := h.capacity .admission
  rw [hidle, List.length_nil] at hlive
  rw [h.active] at hstream hmaintenance hadmission hc
  -- One class is below its capacity, and the capacities add up to the ceiling.
  unfold MAX_PHYSICAL_CONNECTIONS
  cases c <;> simp only [LeaseClass.capacity] at hstream hmaintenance hadmission hc <;> omega

/-- An idle connection goes to a caller. -/
def reuse (pool : ConnectionPool) (cls : LeaseClass) (p : Physical) (idle : List Physical) :
    ConnectionPool :=
  { pool with
    state := { pool.state with idle := idle }.modifyActive (· + 1) cls
    holders := ⟨cls, .held { p with leases := p.leases + 1 }⟩ :: pool.holders }

/-- A caller gets the place of a connection it is to make. -/
def create (pool : ConnectionPool) (cls : LeaseClass) : ConnectionPool :=
  { pool with
    state := { pool.state with live := pool.state.live + 1 }.modifyActive (· + 1) cls
    nextPhysicalId := pool.nextPhysicalId + 1
    holders := ⟨cls, .creating pool.nextPhysicalId⟩ :: pool.holders
    created := pool.created ++ [pool.nextPhysicalId] }

theorem acquire_eq_ok (hok : pool.acquire c = .ok pool') : pool.state.active c < c.capacity ∧
    ((∃ p idle, pool.state.idle = p :: idle ∧ pool' = pool.reuse c p idle) ∨
      pool.state.idle = [] ∧ pool' = pool.create c) := by
  unfold ConnectionPool.acquire at hok
  dsimp only at hok
  by_cases hfull : c.capacity ≤ pool.state.active c
  · rw [if_pos hfull] at hok
    cases hok
  rw [if_neg hfull] at hok
  refine ⟨Nat.not_le.1 hfull, ?_⟩
  cases hidle : pool.state.idle with
  | cons p idle =>
    rw [hidle] at hok
    cases hok
    exact .inl ⟨p, idle, rfl, rfl⟩
  | nil =>
    rw [hidle] at hok
    dsimp only at hok
    split_ifs at hok
    cases hok
    refine .inr ⟨rfl, ?_⟩
    rw [ConnectionPool.create]
    dsimp only
    rw [hidle]

/-- One more caller of a class. -/
theorem Accounted.active_cons (h : Accounted pool) {k : Holder} (hk : k.cls = c) (c' : LeaseClass) :
    (if c' = c then pool.state.active c + 1 else pool.state.active c') =
      serving (k :: pool.holders) c' := by
  rw [serving_cons, hk]
  split_ifs with hc
  · rw [hc, h.active]
  · rw [h.active]

theorem Accounted.capacity_cons (h : Accounted pool) (hfull : pool.state.active c < c.capacity)
    (c' : LeaseClass) :
    (if c' = c then pool.state.active c + 1 else pool.state.active c') ≤ c'.capacity := by
  split_ifs with hc
  · rw [hc]
    exact hfull
  · exact h.capacity c'

/-- A caller that has just come returns nothing. -/
theorem Accounted.returning_cons (h : Accounted pool) {k : Holder}
    (hnew : ∀ q, k.phase ≠ .returning q) :
    ∀ k' ∈ k :: pool.holders, ∀ q, k'.phase = .returning q → q ∈ pool.verified := by
  intro k' hk' q hq
  rcases List.mem_cons.1 hk' with rfl | hk'
  · exact absurd hq (hnew q)
  · exact h.returning k' hk' q hq

theorem Accounted.reuse (h : Accounted pool) (hfull : pool.state.active c < c.capacity)
    {p : Physical} {idle : List Physical} (hidle : pool.state.idle = p :: idle) :
    Accounted (pool.reuse c p idle) := by
  have hlive := h.live
  have hbound := h.idle
  rw [hidle, List.length_cons] at hlive hbound
  have hperm : (idle.map Physical.id ++ p.id :: pool.holders.map Holder.physicalId).Perm
      pool.physicalIds := by
    rw [physicalIds, hidle]
    exact List.perm_middle
  unfold ConnectionPool.reuse
  refine ⟨?_, ?_, ?_, ?_, ?_, ?_, ?_, h.created, h.below, ?_, h.returning_cons nofun⟩
  · rw [PoolState.live_modifyActive, PoolState.idle_modifyActive, List.length_cons]
    dsimp only
    omega
  · rw [PoolState.live_modifyActive]
    exact h.physical
  · intro c'
    rw [PoolState.active_modifyActive]
    exact h.active_cons (c := c) rfl c'
  · intro c'
    rw [PoolState.active_modifyActive]
    exact h.capacity_cons hfull c'
  · rw [PoolState.idle_modifyActive]
    exact Nat.le_of_succ_le hbound
  · rw [physicalIds, PoolState.idle_modifyActive]
    exact hperm.nodup_iff.2 h.exclusive
  · intro i hi
    rw [physicalIds, PoolState.idle_modifyActive] at hi
    exact h.known i (hperm.subset hi)
  · intro q hq
    rw [PoolState.idle_modifyActive] at hq
    refine h.verified q ?_
    rw [hidle]
    exact List.mem_cons_of_mem p hq

theorem Accounted.create (h : Accounted pool) (hfull : pool.state.active c < c.capacity)
    (hidle : pool.state.idle = []) : Accounted (pool.create c) := by
  have hlive := h.live
  rw [hidle, List.length_nil] at hlive
  have hfresh : pool.nextPhysicalId ∉ pool.created :=
    fun hin => Nat.lt_irrefl _ (h.below _ hin)
  have hids : pool.physicalIds = pool.holders.map Holder.physicalId := by
    rw [physicalIds, hidle]
    rfl
  unfold ConnectionPool.create
  refine ⟨?_, ?_, ?_, ?_, ?_, ?_, ?_, ?_, ?_, ?_, h.returning_cons nofun⟩
  · rw [PoolState.live_modifyActive, PoolState.idle_modifyActive, hidle, List.length_cons,
      List.length_nil]
    dsimp only
    omega
  · rw [PoolState.live_modifyActive]
    exact h.lt_physical hidle hfull
  · intro c'
    rw [PoolState.active_modifyActive]
    exact h.active_cons (c := c) rfl c'
  · intro c'
    rw [PoolState.active_modifyActive]
    exact h.capacity_cons hfull c'
  · rw [PoolState.idle_modifyActive]
    exact h.idle
  · rw [physicalIds, PoolState.idle_modifyActive]
    dsimp only
    rw [hidle, List.map_nil, List.nil_append, List.map_cons, List.nodup_cons, ← hids]
    exact ⟨fun hin => hfresh (h.known _ hin), h.exclusive⟩
  · intro i hi
    rw [physicalIds, PoolState.idle_modifyActive] at hi
    dsimp only at hi
    rw [hidle, List.map_nil, List.nil_append, List.map_cons, List.mem_cons, ← hids] at hi
    rcases hi with hi | hi
    · rw [hi]
      exact List.mem_append_right _ List.mem_cons_self
    · exact List.mem_append_left _ (h.known i hi)
  · have hdisjoint : pool.created.Disjoint [pool.nextPhysicalId] :=
      List.disjoint_singleton.2 hfresh
    exact List.Nodup.append h.created (List.nodup_singleton _) hdisjoint
  · intro i hi
    rcases List.mem_append.1 hi with hi | hi
    · exact Nat.lt_succ_of_lt (h.below i hi)
    · rw [List.mem_singleton.1 hi]
      exact Nat.lt_succ_self _
  · intro q hq
    rw [PoolState.idle_modifyActive] at hq
    exact h.verified q hq

theorem Accounted.acquire (h : Accounted pool) (hok : pool.acquire c = .ok pool') :
    Accounted pool' := by
  obtain ⟨hfull, ⟨p, idle, hidle, rfl⟩ | ⟨hidle, rfl⟩⟩ := acquire_eq_ok hok
  · exact h.reuse hfull hidle
  · exact h.create hfull hidle

/-- A caller that goes on keeps its connection and its slot. -/
theorem Accounted.advance (hp : Accounted pool) (hh : h ∈ pool.holders) {phase : Phase}
    (hid : Holder.physicalId ⟨h.cls, phase⟩ = h.physicalId)
    (hreturning : ∀ p, phase = .returning p → p ∈ pool.verified) :
    Accounted (pool.advance h phase) := by
  have hperm := perm_physicalIds hh
  have hids : (pool.advance h phase).physicalIds.Perm pool.physicalIds := by
    refine List.Perm.trans ?_ hperm.symm
    rw [← hid]
    exact List.perm_middle
  refine ⟨?_, hp.physical, ?_, hp.capacity, hp.idle, hids.nodup_iff.2 hp.exclusive,
    fun i hi => hp.known i (hids.subset hi), hp.created, hp.below, hp.verified, ?_⟩
  · have hlive := hp.live
    have hpos := List.length_pos_of_mem hh
    show pool.state.live = pool.state.idle.length + (pool.holders.erase h).length.succ
    rw [List.length_erase_of_mem hh]
    omega
  · intro c'
    show pool.state.active c' = serving (⟨h.cls, phase⟩ :: pool.holders.erase h) c'
    rw [hp.active, serving_erase hh, serving_cons]
  · intro k hk q hq
    rcases List.mem_cons.1 hk with hk | hk
    · rw [hk] at hq
      exact hreturning q hq
    · exact hp.returning k (List.mem_of_mem_erase hk) q hq

/-- The counts after a caller has left its class. -/
theorem Accounted.leave (hp : Accounted pool) (hh : h ∈ pool.holders) (c : LeaseClass) :
    (pool.state.modifyActive (· - 1) h.cls).active c = serving (pool.holders.erase h) c ∧
      (pool.state.modifyActive (· - 1) h.cls).active c ≤ c.capacity := by
  have hactive := hp.active c
  have hcapacity := hp.capacity c
  rw [serving_erase hh] at hactive
  rw [PoolState.active_modifyActive]
  split_ifs at hactive ⊢ with hc
  · rw [← hc]
    omega
  · omega

theorem Accounted.free (hp : Accounted pool) (hh : h ∈ pool.holders) :
    Accounted (pool.free h) := by
  have hlive := hp.live
  have hphysical := hp.physical
  have hpos := List.length_pos_of_mem hh
  have hperm := perm_physicalIds hh
  have hnodup := List.nodup_cons.1 (hperm.nodup_iff.1 hp.exclusive)
  refine ⟨?_, ?_, fun c => ?_, fun c => ?_, ?_, ?_, ?_, hp.created, hp.below, ?_, ?_⟩
  · show (pool.state.modifyActive (· - 1) h.cls).live - 1 =
      (pool.state.modifyActive (· - 1) h.cls).idle.length + (pool.holders.erase h).length
    rw [PoolState.live_modifyActive, PoolState.idle_modifyActive, List.length_erase_of_mem hh]
    omega
  · show (pool.state.modifyActive (· - 1) h.cls).live - 1 ≤ _
    rw [PoolState.live_modifyActive]
    omega
  · exact (hp.leave hh c).1
  · exact (hp.leave hh c).2
  · show (pool.state.modifyActive (· - 1) h.cls).idle.length ≤ _
    rw [PoolState.idle_modifyActive]
    exact hp.idle
  · show ((pool.state.modifyActive (· - 1) h.cls).idle.map Physical.id ++ _).Nodup
    rw [PoolState.idle_modifyActive]
    exact hnodup.2
  · intro i hi
    change i ∈ (pool.state.modifyActive (· - 1) h.cls).idle.map Physical.id ++ _ at hi
    rw [PoolState.idle_modifyActive] at hi
    exact hp.known i (hperm.symm.subset (List.mem_cons_of_mem _ hi))
  · intro p hin
    change p ∈ (pool.state.modifyActive (· - 1) h.cls).idle at hin
    rw [PoolState.idle_modifyActive] at hin
    exact hp.verified p hin
  · intro k hk
    exact hp.returning k (List.mem_of_mem_erase hk)

theorem Accounted.returnHealthy (hp : Accounted pool) (hh : h ∈ pool.holders) {p : Physical}
    (hphase : h.phase = .returning p) : Accounted (pool.returnHealthy h p) := by
  unfold ConnectionPool.returnHealthy
  dsimp only
  rw [PoolState.idle_modifyActive]
  split_ifs with hroom
  · have hlive := hp.live
    have hpos := List.length_pos_of_mem hh
    have hperm := perm_physicalIds hh
    have hid : h.physicalId = p.id := by rw [Holder.physicalId, hphase]
    rw [hid] at hperm
    refine ⟨?_, ?_, fun c => ?_, fun c => ?_, ?_, ?_, ?_, hp.created, hp.below, ?_, ?_⟩
    · show (pool.state.modifyActive (· - 1) h.cls).live =
        (p :: pool.state.idle).length + (pool.holders.erase h).length
      rw [PoolState.live_modifyActive, List.length_cons, List.length_erase_of_mem hh]
      omega
    · show (pool.state.modifyActive (· - 1) h.cls).live ≤ _
      rw [PoolState.live_modifyActive]
      exact hp.physical
    · have hleave := (hp.leave hh c).1
      cases c <;> exact hleave
    · have hleave := (hp.leave hh c).2
      cases c <;> exact hleave
    · exact hroom
    · exact hperm.nodup_iff.1 hp.exclusive
    · exact fun i hi => hp.known i (hperm.symm.subset hi)
    · intro q hq
      rcases List.mem_cons.1 hq with hq | hq
      · rw [hq]
        exact hp.returning h hh p hphase
      · exact hp.verified q hq
    · exact fun k hk => hp.returning k (List.mem_of_mem_erase hk)
  · have hfree := hp.free hh
    unfold ConnectionPool.free at hfree
    dsimp only at hfree
    rw [PoolState.idle_modifyActive] at hfree
    exact hfree

/-- A slot is given back: one connection and one lease of the class less, and nothing else. -/
def Restores (pool : ConnectionPool) (h : Holder) (pool' : ConnectionPool) : Prop :=
  pool'.state.live + 1 = pool.state.live ∧
    (∀ c, pool'.state.active c + (if c = h.cls then 1 else 0) = pool.state.active c) ∧
      pool'.state.idle = pool.state.idle ∧ pool'.holders = pool.holders.erase h

theorem Accounted.restores (hp : Accounted pool) (hh : h ∈ pool.holders) :
    Restores pool h (pool.free h) := by
  have hlive := hp.live
  have hpos := List.length_pos_of_mem hh
  refine ⟨?_, ?_, PoolState.idle_modifyActive _ _ _, rfl⟩
  · show (pool.state.modifyActive (· - 1) h.cls).live - 1 + 1 = _
    rw [PoolState.live_modifyActive]
    omega
  · intro c
    have hleave := (hp.leave hh c).1
    have hactive := hp.active c
    rw [serving_erase hh] at hactive
    change (pool.free h).state.active c = _ at hleave
    rw [hleave, hactive]
    split_ifs <;> rfl

/-! ### Steps -/

/-- One step. -/
theorem Accounted.step (hp : Accounted pool) {e : Event} (hok : pool.step e = some pool') :
    Accounted pool' := by
  unfold ConnectionPool.step at hok
  cases e with
  | acquire c =>
    dsimp only at hok
    cases hacquire : pool.acquire c with
    | ok pool'' =>
      rw [hacquire] at hok
      cases hok
      exact hp.acquire hacquire
    | error e =>
      rw [hacquire] at hok
      cases hok
      exact hp
  | configured h ok =>
    dsimp only at hok
    split_ifs at hok with hh
    unfold ConnectionPool.configured at hok
    cases hphase : h.phase with
    | creating id =>
      rw [hphase] at hok
      cases ok with
      | true =>
        cases hok
        refine hp.advance hh ?_ nofun
        rw [Holder.physicalId, Holder.physicalId, hphase]
      | false =>
        cases hok
        exact hp.free hh
    | _ =>
      rw [hphase] at hok
      cases hok
  | verify h v =>
    dsimp only at hok
    split_ifs at hok with hh
    unfold ConnectionPool.verify at hok
    cases hphase : h.phase with
    | held p =>
      have hid : ∀ phase, (phase = .returning p ∨ phase = .discarding p) →
          Holder.physicalId ⟨h.cls, phase⟩ = h.physicalId := by
        intro phase hp'
        rw [Holder.physicalId, Holder.physicalId, hphase]
        rcases hp' with hp' | hp' <;> rw [hp']
      rw [hphase] at hok
      cases v with
      | ok =>
        cases hok
        -- The verification is on record when the connection is taken from its lease.
        have hrecorded : Accounted { pool with verified := pool.verified ++ [p] } :=
          { hp with
            verified := fun q hq => List.mem_append_left _ (hp.verified q hq)
            returning := fun k hk q hq => List.mem_append_left _ (hp.returning k hk q hq) }
        refine hrecorded.advance hh (hid _ (Or.inl rfl)) ?_
        intro q hq
        cases hq
        exact List.mem_append_right _ List.mem_cons_self
      | failed =>
        cases hok
        exact hp.advance hh (hid _ (Or.inr rfl)) nofun
      | unwound =>
        cases hok
        exact hp.advance hh (hid _ (Or.inr rfl)) nofun
    | _ =>
      rw [hphase] at hok
      cases hok
  | dropLease h =>
    dsimp only at hok
    split_ifs at hok with hh
    unfold ConnectionPool.dropLease at hok
    cases hphase : h.phase with
    | held p =>
      rw [hphase] at hok
      cases hok
      refine hp.advance hh ?_ nofun
      rw [Holder.physicalId, Holder.physicalId, hphase]
    | _ =>
      rw [hphase] at hok
      cases hok
  | giveBack h =>
    dsimp only at hok
    split_ifs at hok with hh
    unfold ConnectionPool.giveBack at hok
    cases hphase : h.phase with
    | returning p =>
      rw [hphase] at hok
      cases hok
      exact hp.returnHealthy hh hphase
    | discarding p =>
      rw [hphase] at hok
      cases hok
      exact hp.free hh
    | _ =>
      rw [hphase] at hok
      cases hok

/-- A class is refused only at its own capacity, and nothing else is. -/
theorem Accounted.acquire_eq_error (hp : Accounted pool) (c : LeaseClass)
    (e : ConnectionsExhausted) :
    pool.acquire c = .error e ↔
      pool.state.active c = c.capacity ∧ e = ⟨c.asStr, c.capacity⟩ := by
  have hcapacity := hp.capacity c
  unfold ConnectionPool.acquire
  dsimp only
  by_cases hfull : c.capacity ≤ pool.state.active c
  · rw [if_pos hfull, Except.error.injEq]
    constructor
    · intro heq
      exact ⟨by omega, heq.symm⟩
    · intro heq
      exact heq.2.symm
  · rw [if_neg hfull]
    constructor
    · intro heq
      cases hidle : pool.state.idle with
      | cons p idle =>
        rw [hidle] at heq
        cases heq
      | nil =>
        rw [hidle] at heq
        dsimp only at heq
        rw [if_neg (Nat.not_le.2 (hp.lt_physical hidle (Nat.not_le.1 hfull)))] at heq
        cases heq
    · intro heq
      omega

/-- After any steps of any callers the counts are those of what there is, no connection is in two
leases, none is idle without a verification, a class is refused exactly at its own capacity, and a
creation or a verification that failed gives back what it took. -/
theorem run_accounted (config : PoolConfig) {es : List Event}
    (h : runFrom step (.new config) es = some pool) :
    Accounted pool ∧
      (∀ c e, pool.acquire c = .error e ↔
        pool.state.active c = c.capacity ∧ e = ⟨c.asStr, c.capacity⟩) ∧
      (∀ h pool', pool.step (.configured h false) = some pool' → Restores pool h pool') ∧
      ∀ h p pool', h.phase = .discarding p → pool.step (.giveBack h) = some pool' →
        Restores pool h pool' := by
  have hp : Accounted pool :=
    runFrom_keeps_all (accounted_new config) (fun _ _ _ ht hstep => ht.step hstep) h
  refine ⟨hp, hp.acquire_eq_error, ?_, ?_⟩
  · intro h pool' hstep
    unfold ConnectionPool.step at hstep
    dsimp only at hstep
    split_ifs at hstep with hh
    unfold ConnectionPool.configured at hstep
    cases hphase : h.phase with
    | creating id =>
      rw [hphase] at hstep
      cases hstep
      exact hp.restores hh
    | _ =>
      rw [hphase] at hstep
      cases hstep
  · intro h p pool' hphase hstep
    unfold ConnectionPool.step at hstep
    dsimp only at hstep
    split_ifs at hstep with hh
    unfold ConnectionPool.giveBack at hstep
    rw [hphase] at hstep
    cases hstep
    exact hp.restores hh

/-- A stream lease that is verified and kept. -/
theorem run_accounted_reuse : ∃ pool, runFrom step (.new .reuse) [.acquire .stream,
    .configured ⟨.stream, .creating 1⟩ true, .verify ⟨.stream, .held ⟨1, 1⟩⟩ .ok,
    .giveBack ⟨.stream, .returning ⟨1, 1⟩⟩, .acquire .admission] = some pool ∧
    Accounted pool ∧ pool.state.live = 1 := by
  obtain ⟨pool, hpool, hlive⟩ : ∃ pool, runFrom step (.new .reuse) [.acquire .stream,
      .configured ⟨.stream, .creating 1⟩ true, .verify ⟨.stream, .held ⟨1, 1⟩⟩ .ok,
      .giveBack ⟨.stream, .returning ⟨1, 1⟩⟩, .acquire .admission] = some pool ∧
      pool.state.live = 1 := ⟨_, rfl, rfl⟩
  exact ⟨pool, hpool, (run_accounted .reuse hpool).1, hlive⟩

end ConnectionPool

end SpatialIde.Engine
