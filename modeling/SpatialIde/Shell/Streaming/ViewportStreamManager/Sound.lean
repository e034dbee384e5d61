import SpatialIde.Shell.Streaming.ViewportStreamManager

/-! # What the manager's fields know of its calls

The fields, the awaits and the running streams agree about the calls made so far.  Every method of
the manager keeps this, where the canvas is cleared only while no stream is current.
-/

namespace SpatialIde.Shell.Streaming.ViewportStreamManager

open Canvas (Bbox Filter)

/-! ### What the calls come to -/

/-- A record of the calls so far. -/
structure Ledger where
  minted : List String
  cancelled : List String
  started : List String
  forwarded : List String
  superseded : List String
  terminals : List (String × Terminal)
  ended : List String
  queries : Nat
  /-- The sequence numbers a stream was forwarded with. -/
  batchSeqs : String → List Nat
  /-- The batches on the canvas, each with its stream. -/
  canvas : List (String × Nat)
  /-- Whenever a batch was forwarded, every other stream with a batch had been superseded. -/
  orderly : Prop

namespace Ledger

def new : Ledger where
  minted := []
  cancelled := []
  started := []
  forwarded := []
  superseded := []
  terminals := []
  ended := []
  queries := 0
  batchSeqs _ := []
  canvas := []
  orderly := True

def note (l : Ledger) : Effect → Ledger
  | .viewportQuery .. => { l with queries := l.queries + 1 }
  | .minted h => { l with minted := l.minted ++ [h] }
  | .skpCancel h => { l with cancelled := l.cancelled ++ [h] }
  | .startStream _ h => { l with started := l.started ++ [h] }
  | .onBatch h n _ _ =>
    { l with
      forwarded := l.forwarded ++ [h]
      batchSeqs := fun k => if k = h then l.batchSeqs k ++ [n] else l.batchSeqs k
      canvas := l.canvas ++ [(h, n)]
      orderly := l.orderly ∧ ∀ k ∈ l.forwarded, k ≠ h → k ∈ l.superseded }
  | .onSuperseded h =>
    { l with superseded := l.superseded ++ [h], canvas := l.canvas.filter fun b => b.1 ≠ h }
  | .onTerminal h t => { l with terminals := l.terminals ++ [(h, t)] }
  | .onSessionEnded d => { l with ended := l.ended ++ [d] }
  | _ => l

end Ledger

def ledger (calls : List Effect) : Ledger := calls.foldl Ledger.note .new

@[simp] theorem ledger_snoc (calls : List Effect) (e : Effect) :
    ledger (calls ++ [e]) = (ledger calls).note e := by
  rw [ledger, List.foldl_append]
  rfl

theorem mem_minted {calls : List Effect} {h : String} :
    h ∈ (ledger calls).minted ↔ .minted h ∈ calls := by
  induction calls using List.reverseRecOn with
  | nil => exact ⟨nofun, nofun⟩
  | append_singleton calls e ih =>
    rw [ledger_snoc, List.mem_append, List.mem_singleton, ← ih]
    cases e <;> simp [Ledger.note, eq_comm]

theorem mem_cancelled {calls : List Effect} {h : String} :
    h ∈ (ledger calls).cancelled ↔ .skpCancel h ∈ calls := by
  induction calls using List.reverseRecOn with
  | nil => exact ⟨nofun, nofun⟩
  | append_singleton calls e ih =>
    rw [ledger_snoc, List.mem_append, List.mem_singleton, ← ih]
    cases e <;> simp [Ledger.note, eq_comm]

/-! ### The invariant -/

namespace Await

def generation? : Await → Option Nat
  | cancelPrevious request => request.map Request.myGeneration
  | supersedeCurrent request => some request.myGeneration
  | viewportQuery request => some request.myGeneration
  | dataPlaneAttach request _ => some request.myGeneration
  | _ => none

def attaching? : Await → Option String
  | dataPlaneAttach _ stream => some stream
  | _ => none

end Await

namespace State

def generations (s : State) : List Nat := s.awaiting.filterMap Await.generation?

def attaching (s : State) : List String := s.awaiting.filterMap Await.attaching?

theorem mem_attaching {s : State} {request : Request} {stream : String}
    (h : .dataPlaneAttach request stream ∈ s.awaiting) : stream ∈ s.attaching :=
  List.mem_filterMap.2 ⟨_, h, rfl⟩

end State

/-- The fields, the awaits and the streams agree about the calls made so far; `mid` is the ticket
whose attach has just answered. -/
structure Coherent (mid : Option String) (s : State) (l : Ledger) : Prop where
  started_minted : ∀ h ∈ l.started, h ∈ l.minted
  started_nodup : l.started.Nodup
  forwarded_started : ∀ h ∈ l.forwarded, h ∈ l.started
  superseded_minted : ∀ h ∈ l.superseded, h ∈ l.minted
  superseded_nodup : l.superseded.Nodup
  orderly : l.orderly
  ended : l.ended.length = if s.sessionEnded then 1 else 0
  ticket : ∀ h ∈ l.minted, h ∈ s.attaching ∨ mid = some h ∨ h ∈ l.started ∨ h ∈ l.cancelled
  -- The awaits.
  generations_nodup : s.generations.Nodup
  generations_le : ∀ g ∈ s.generations, g ≤ s.generation
  generations_lt : s.stopped = true → ∀ g ∈ s.generations, g < s.generation
  minting : ∀ r, .supersedeCurrent r ∈ s.awaiting ∨ .viewportQuery r ∈ s.awaiting →
    r.myGeneration = s.generation →
      s.currentStreamHandle = none ∧ s.residentStreamHandle = none
  attaching_nodup : s.attaching.Nodup
  attaching : ∀ h ∈ s.attaching, h ∈ l.minted ∧ h ∉ l.started ∧
    (h ∈ l.cancelled → h ∈ s.selfCancelledHandles)
  latest : ∀ r h, .dataPlaneAttach r h ∈ s.awaiting → r.myGeneration = s.generation →
    s.sessionEnded = false → s.currentStreamHandle = some h ∨ h ∈ l.cancelled
  attached : ∀ r h, .dataPlaneAttach r h ∈ s.awaiting → s.currentStreamHandle = some h →
    r.myGeneration = s.generation
  retracted : ∀ h o, .cancelAttached h o ∈ s.awaiting → h ∈ l.minted ∧ h ∉ l.started ∧
    h ∉ s.attaching ∧ h ∈ l.cancelled
  -- The streams.
  streams_nodup : (s.streams.map Sink.streamHandleAtStart).Nodup
  streams : ∀ sink ∈ s.streams, sink.streamHandleAtStart ∈ l.started ∧
    (sink.streamHandleAtStart ∈ l.cancelled →
      sink.streamHandleAtStart ∈ s.selfCancelledHandles)
  selfCancelled : ∀ h ∈ s.selfCancelledHandles, h ∈ l.cancelled
  -- The handles.
  current : ∀ h, s.currentStreamHandle = some h → h ∈ l.minted ∧ h ∉ l.cancelled ∧
    s.residentStreamHandle = some h
  closed : s.sessionEnded = true ∨ s.stopped = true → s.currentStreamHandle = none
  resident : ∀ h, s.residentStreamHandle = some h → h ∈ l.minted ∧ h ∉ l.superseded
  shown : ∀ h ∈ l.forwarded, h ∈ l.superseded ∨ s.residentStreamHandle = some h
  canvas : ∀ b ∈ l.canvas, b.1 ∈ l.forwarded ∧ s.residentStreamHandle = some b.1
  batchSeqs : ∀ h, l.batchSeqs h = List.range (l.batchSeqs h).length
  unforwarded : ∀ h, h ∉ l.forwarded → l.batchSeqs h = []
  nextBatchSeq : ∀ h, s.currentStreamHandle = some h →
    (l.batchSeqs h).length = s.nextBatchSeq

/-- The invariant of a state, with the ledger its calls make. -/
def Sound (mid : Option String) (s : State) : Prop := Coherent mid s (ledger s.calls)

section

variable {mid : Option String} {s : State} {h : String}

theorem sound_new (dataset : String) (columns : Option (List String)) :
    Sound none (.new dataset columns) where
  started_minted := nofun
  started_nodup := List.nodup_nil
  forwarded_started := nofun
  superseded_minted := nofun
  superseded_nodup := List.nodup_nil
  orderly := trivial
  ended := rfl
  ticket := nofun
  generations_nodup := List.nodup_nil
  generations_le := nofun
  generations_lt := nofun
  minting := fun _ hr => by rcases hr with hr | hr <;> cases hr
  attaching_nodup := List.nodup_nil
  attaching := nofun
  latest := nofun
  attached := nofun
  retracted := nofun
  streams_nodup := List.nodup_nil
  streams := nofun
  selfCancelled := nofun
  current := nofun
  closed := fun _ => rfl
  resident := nofun
  shown := nofun
  canvas := nofun
  batchSeqs := fun _ => rfl
  unforwarded := fun _ _ => rfl
  nextBatchSeq := nofun

/-! ### Awaits -/

/-- An await that is over is one of those there were; the ticket of an attach is then in the
middle. -/
theorem Sound.erase (hs : Sound none s) (a : Await) (hmid : a.attaching? = none ∨ a.attaching? = mid) :
    Sound mid { s with awaiting := s.awaiting.erase a } :=
  have hsub : (s.awaiting.erase a).Sublist s.awaiting := List.erase_sublist
  { hs with
    ticket := by
      intro h hh
      rcases hs.ticket h hh with hattach | hnone | hdone
      · obtain ⟨b, hb, hbh⟩ := List.mem_filterMap.1 hattach
        by_cases hab : b = a
        · rw [hab] at hbh
          rcases hmid with hmid | hmid
          · rw [hmid] at hbh
            cases hbh
          · exact Or.inr (Or.inl (hmid.symm.trans hbh))
        · exact Or.inl (List.mem_filterMap.2 ⟨b, (List.mem_erase_of_ne hab).2 hb, hbh⟩)
      · cases hnone
      · exact Or.inr (Or.inr hdone)
    generations_nodup := hs.generations_nodup.sublist (hsub.filterMap _)
    generations_le := fun g hg => hs.generations_le g ((hsub.filterMap _).subset hg)
    generations_lt := fun ht g hg => hs.generations_lt ht g ((hsub.filterMap _).subset hg)
    minting := fun r hr => hs.minting r (hr.imp (fun h => hsub.subset h) (fun h => hsub.subset h))
    attaching_nodup := hs.attaching_nodup.sublist (hsub.filterMap _)
    attaching := fun h hh => hs.attaching h ((hsub.filterMap _).subset hh)
    latest := fun r h hh => hs.latest r h (hsub.subset hh)
    attached := fun r h hh => hs.attached r h (hsub.subset hh)
    retracted := by
      intro h o hh
      obtain ⟨hminted, hstarted, hattach, hcancelled⟩ := hs.retracted h o (hsub.subset hh)
      exact ⟨hminted, hstarted, fun hin => hattach ((hsub.filterMap _).subset hin), hcancelled⟩ }

/-- The ticket in the middle is accounted for. -/
theorem Sound.settle (hs : Sound (some h) s)
    (hh : h ∈ s.attaching ∨ h ∈ (ledger s.calls).started ∨ h ∈ (ledger s.calls).cancelled) :
    Sound none s :=
  { hs with
    ticket := by
      intro k hk
      rcases hs.ticket k hk with hattach | hmid | hdone
      · exact Or.inl hattach
      · cases hmid
        exact hh.imp_right Or.inr
      · exact Or.inr (Or.inr hdone) }

/-- A call the invariant does not speak of. -/
theorem Sound.tell (hs : Sound mid s) {e : Effect}
    (he : ∀ l : Ledger, ∃ q ts, l.note e = { l with queries := q, terminals := ts }) :
    Sound mid (s.tell e) := by
  obtain ⟨q, ts, heq⟩ := he (ledger s.calls)
  unfold Sound State.tell
  rw [ledger_snoc, heq]
  exact { hs with }

@[simp] theorem generations_await (s : State) (a : Await) :
    (s.await a).generations = s.generations ++ a.generation?.toList := by
  rw [State.generations, State.await, List.filterMap_append]
  cases h : a.generation? with
  | none => rw [List.filterMap_cons_none h]; rfl
  | some g => rw [List.filterMap_cons_some h]; rfl

@[simp] theorem attaching_await (s : State) (a : Await) :
    (s.await a).attaching = s.attaching ++ a.attaching?.toList := by
  rw [State.attaching, State.await, List.filterMap_append]
  cases h : a.attaching? with
  | none => rw [List.filterMap_cons_none h]; rfl
  | some g => rw [List.filterMap_cons_some h]; rfl

/-- A generation an await may carry: of no other await, and not a newer one than the manager's. -/
structure State.Claims (s : State) (g : Nat) : Prop where
  fresh : g ∉ s.generations
  le : g ≤ s.generation
  lt : s.stopped = true → g < s.generation

theorem nodup_snoc_toList {α : Type} {xs : List α} {a? : Option α} (hxs : xs.Nodup)
    (ha : ∀ a, a? = some a → a ∉ xs) : (xs ++ a?.toList).Nodup := by
  cases a? with
  | none => simpa using hxs
  | some a =>
    have hdisjoint : xs.Disjoint [a] := List.disjoint_singleton.2 (ha a rfl)
    exact List.Nodup.append hxs (List.nodup_singleton a) hdisjoint

theorem mem_snoc_toList {α : Type} {xs : List α} {a? : Option α} {b : α} :
    b ∈ xs ++ a?.toList ↔ b ∈ xs ∨ a? = some b := by
  rw [List.mem_append, Option.mem_toList]

/-- An await is added. -/
theorem Sound.await (hs : Sound mid s) (a : Await)
    (hgeneration : ∀ g, a.generation? = some g → s.Claims g)
    (hminting : ∀ r, a = .supersedeCurrent r ∨ a = .viewportQuery r →
      r.myGeneration = s.generation →
        s.currentStreamHandle = none ∧ s.residentStreamHandle = none)
    (hattaching : ∀ r h, a = .dataPlaneAttach r h → h ∈ (ledger s.calls).minted ∧
      h ∉ (ledger s.calls).started ∧ h ∉ (ledger s.calls).cancelled ∧ h ∉ s.attaching ∧
      (∀ o, .cancelAttached h o ∉ s.awaiting) ∧
      s.currentStreamHandle = some h ∧ r.myGeneration = s.generation)
    (hretracted : ∀ h o, a = .cancelAttached h o → h ∈ (ledger s.calls).minted ∧
      h ∉ (ledger s.calls).started ∧ h ∉ s.attaching ∧ h ∈ (ledger s.calls).cancelled) :
    Sound mid (s.await a) := by
  have hmem : ∀ b, b ∈ (s.await a).awaiting → b ∈ s.awaiting ∨ a = b := by
    intro b hb
    rcases List.mem_append.1 hb with hb | hb
    · exact Or.inl hb
    · exact Or.inr (List.mem_singleton.1 hb).symm
  have hone : ∀ h, a.attaching? = some h → ∃ r, a = .dataPlaneAttach r h := by
    intro h hh
    cases a <;> cases hh
    exact ⟨_, rfl⟩
  exact
    { hs with
      ticket := by
        intro h hh
        rw [attaching_await, mem_snoc_toList]
        rcases hs.ticket h hh with hin | hrest
        · exact Or.inl (Or.inl hin)
        · exact Or.inr hrest
      generations_nodup := by
        rw [generations_await]
        exact nodup_snoc_toList hs.generations_nodup fun g hg => (hgeneration g hg).fresh
      generations_le := by
        intro g hg
        rw [generations_await, mem_snoc_toList] at hg
        exact hg.elim (hs.generations_le g) fun hg => (hgeneration g hg).le
      generations_lt := by
        intro hstopped g hg
        rw [generations_await, mem_snoc_toList] at hg
        exact hg.elim (hs.generations_lt hstopped g) fun hg => (hgeneration g hg).lt hstopped
      minting := by
        intro r hr
        rcases hr with hr | hr
        · exact (hmem _ hr).elim (fun hin => hs.minting r (Or.inl hin))
            fun heq => hminting r (Or.inl heq)
        · exact (hmem _ hr).elim (fun hin => hs.minting r (Or.inr hin))
            fun heq => hminting r (Or.inr heq)
      attaching_nodup := by
        rw [attaching_await]
        refine nodup_snoc_toList hs.attaching_nodup ?_
        intro h hh
        obtain ⟨r, hr⟩ := hone h hh
        exact (hattaching r h hr).2.2.2.1
      attaching := by
        intro h hh
        rw [attaching_await, mem_snoc_toList] at hh
        rcases hh with hh | hh
        · exact hs.attaching h hh
        · obtain ⟨r, hr⟩ := hone h hh
          obtain ⟨hminted, hstarted, hcancelled, _⟩ := hattaching r h hr
          exact ⟨hminted, hstarted, fun hin => absurd hin hcancelled⟩
      latest := by
        intro r h hh
        rcases hmem _ hh with hin | heq
        · exact hs.latest r h hin
        · exact fun _ _ => Or.inl (hattaching r h heq).2.2.2.2.2.1
      attached := by
        intro r h hh
        rcases hmem _ hh with hin | heq
        · exact hs.attached r h hin
        · exact fun _ => (hattaching r h heq).2.2.2.2.2.2
      retracted := by
        intro h o hh
        rw [attaching_await, mem_snoc_toList, not_or]
        rcases hmem _ hh with hin | heq
        · obtain ⟨hminted, hstarted, hattach, hcancelled⟩ := hs.retracted h o hin
          refine ⟨hminted, hstarted, ⟨hattach, ?_⟩, hcancelled⟩
          intro ha
          obtain ⟨r, hr⟩ := hone h ha
          exact (hattaching r h hr).2.2.2.2.1 o hin
        · obtain ⟨hminted, hstarted, hattach, hcancelled⟩ := hretracted h o heq
          refine ⟨hminted, hstarted, ⟨hattach, ?_⟩, hcancelled⟩
          rw [heq]
          nofun }

/-! ### What the manager does between two awaits -/

theorem drop_eq_some {c : Option String} {k : String} :
    (if c = some h then none else c) = some k ↔ c = some k ∧ k ≠ h := by
  split_ifs with hc
  · constructor
    · nofun
    · intro hk
      exact absurd (Option.some.inj (hc.symm.trans hk.1)) (Ne.symm hk.2)
  · refine ⟨fun hk => ⟨hk, ?_⟩, fun hk => hk.1⟩
    intro heq
    exact hc (heq ▸ hk)

theorem drop_eq_none {c : Option String} (hc : c = none) :
    (if c = some h then none else c) = none := by
  rw [hc, if_neg nofun]

/-- A stream that does not attach is no longer current. -/
theorem Sound.dropCurrent (hs : Sound mid s) (hh : h ∉ s.attaching) :
    Sound mid (s.dropCurrent h) :=
  { hs with
    minting := fun r hr hg => ⟨drop_eq_none (hs.minting r hr hg).1, (hs.minting r hr hg).2⟩
    latest := by
      intro r k hk hg hended
      refine (hs.latest r k hk hg hended).imp_left ?_
      intro hc
      refine drop_eq_some.2 ⟨hc, ?_⟩
      intro heq
      exact hh (heq ▸ State.mem_attaching hk)
    attached := fun r k hk hc => hs.attached r k hk (drop_eq_some.1 hc).1
    current := fun k hk => hs.current k (drop_eq_some.1 hk).1
    closed := fun hclosed => drop_eq_none (hs.closed hclosed)
    nextBatchSeq := fun k hk => hs.nextBatchSeq k (drop_eq_some.1 hk).1 }

/-- A stream of which nothing was forwarded, and that is not current, is no longer resident. -/
theorem Sound.dropResident (hs : Sound mid s) (hh : h ∉ (ledger s.calls).forwarded)
    (hcurrent : s.currentStreamHandle ≠ some h) : Sound mid (s.dropResident h) :=
  { hs with
    minting := fun r hr hg => ⟨(hs.minting r hr hg).1, drop_eq_none (hs.minting r hr hg).2⟩
    current := by
      intro k hk
      obtain ⟨hminted, hcancelled, hresident⟩ := hs.current k hk
      refine ⟨hminted, hcancelled, drop_eq_some.2 ⟨hresident, ?_⟩⟩
      intro heq
      exact hcurrent (heq ▸ hk)
    resident := fun k hk => hs.resident k (drop_eq_some.1 hk).1
    shown := by
      intro k hk
      refine (hs.shown k hk).imp_right fun hr => drop_eq_some.2 ⟨hr, ?_⟩
      intro heq
      exact hh (heq ▸ hk)
    canvas := by
      intro b hb
      obtain ⟨hforwarded, hresident⟩ := hs.canvas b hb
      refine ⟨hforwarded, drop_eq_some.2 ⟨hresident, ?_⟩⟩
      intro heq
      exact hh (heq ▸ hforwarded) }

/-- Any stream may be cancelled. -/
theorem Sound.cancelStream (hs : Sound mid s) (h : String) : Sound mid (s.cancelStream h) := by
  have hin : ∀ k, k ∈ (ledger s.calls).cancelled ++ [h] ↔
      k ∈ (ledger s.calls).cancelled ∨ k = h := by
    intro k
    rw [List.mem_append, List.mem_singleton]
  have hself : ∀ k, (k ∈ (ledger s.calls).cancelled → k ∈ s.selfCancelledHandles) →
      k ∈ (ledger s.calls).cancelled ++ [h] → k ∈ insert h s.selfCancelledHandles := by
    intro k hk hcancelled
    rw [Finset.mem_insert]
    exact ((hin k).1 hcancelled).symm.imp_right hk
  unfold Sound State.cancelStream State.tell
  rw [ledger_snoc]
  exact
    { hs with
      ticket := fun k hk => (hs.ticket k hk).imp_right
        (Or.imp_right (Or.imp_right (List.mem_append_left _)))
      minting := fun r hr hg => ⟨drop_eq_none (hs.minting r hr hg).1, (hs.minting r hr hg).2⟩
      attaching := fun k hk => ⟨(hs.attaching k hk).1, (hs.attaching k hk).2.1,
        hself k (hs.attaching k hk).2.2⟩
      latest := by
        intro r k hk hg hended
        by_cases heq : k = h
        · exact Or.inr ((hin k).2 (Or.inr heq))
        · exact (hs.latest r k hk hg hended).imp (fun hc => drop_eq_some.2 ⟨hc, heq⟩)
            (List.mem_append_left _)
      attached := fun r k hk hc => hs.attached r k hk (drop_eq_some.1 hc).1
      retracted := fun k o hk => ⟨(hs.retracted k o hk).1, (hs.retracted k o hk).2.1,
        (hs.retracted k o hk).2.2.1, List.mem_append_left _ (hs.retracted k o hk).2.2.2⟩
      streams := fun sink hsink => ⟨(hs.streams sink hsink).1,
        hself _ (hs.streams sink hsink).2⟩
      selfCancelled := by
        intro k hk
        rw [Finset.mem_insert] at hk
        exact (hin k).2 (hk.symm.imp_left (hs.selfCancelled k))
      current := by
        intro k hk
        obtain ⟨hk, hne⟩ := drop_eq_some.1 hk
        obtain ⟨hminted, hcancelled, hresident⟩ := hs.current k hk
        exact ⟨hminted, fun hc => ((hin k).1 hc).elim hcancelled hne, hresident⟩
      closed := fun hclosed => drop_eq_none (hs.closed hclosed)
      nextBatchSeq := fun k hk => hs.nextBatchSeq k (drop_eq_some.1 hk).1 }

/-- The canvas is cleared while no stream is current. -/
theorem Sound.clearResidency (hs : Sound mid s) (hcurrent : s.currentStreamHandle = none) :
    Sound mid s.clearResidency := by
  unfold State.clearResidency
  cases hr : s.residentStreamHandle with
  | none => exact hs
  | some resident =>
    have hresident := hs.resident resident hr
    unfold Sound State.tell
    rw [ledger_snoc]
    exact
      { hs with
        superseded_minted := by
          intro k hk
          rcases List.mem_append.1 hk with hk | hk
          · exact hs.superseded_minted k hk
          · exact (List.mem_singleton.1 hk).symm ▸ hresident.1
        superseded_nodup := by
          have hdisjoint : (ledger s.calls).superseded.Disjoint [resident] :=
            List.disjoint_singleton.2 hresident.2
          exact List.Nodup.append hs.superseded_nodup (List.nodup_singleton resident) hdisjoint
        minting := fun r hr hg => ⟨(hs.minting r hr hg).1, rfl⟩
        current := by
          intro k hk
          rw [show s.currentStreamHandle = some k from hk] at hcurrent
          cases hcurrent
        resident := nofun
        shown := by
          intro k hk
          refine Or.inl (List.mem_append.2 ((hs.shown k hk).imp_right ?_))
          intro hk
          rw [hr] at hk
          cases hk
          exact List.mem_cons_self
        canvas := by
          intro b hb
          obtain ⟨hb, hne⟩ := List.mem_filter.1 hb
          have hbr := (hs.canvas b hb).2
          rw [hr] at hbr
          cases hbr
          exact absurd rfl (of_decide_eq_true hne) }

theorem currentStreamHandle_clearResidency (s : State) :
    s.clearResidency.currentStreamHandle = s.currentStreamHandle := by
  unfold State.clearResidency
  cases s.residentStreamHandle <;> rfl

theorem residentStreamHandle_clearResidency (s : State) :
    s.clearResidency.residentStreamHandle = none := by
  unfold State.clearResidency
  cases hr : s.residentStreamHandle with
  | none => exact hr
  | some resident => rfl

/-- The session ends once: nobody is current, and the canvas is cleared. -/
theorem Sound.endSession (hs : Sound mid s) (detail : String) :
    Sound mid (s.endSession detail) := by
  unfold State.endSession
  cases hended : s.sessionEnded with
  | true => exact hs
  | false =>
    have hlatched : Sound mid ({ s with sessionEnded := true, currentStreamHandle := none }.tell
        (.onSessionEnded detail)) := by
      unfold Sound State.tell
      rw [ledger_snoc]
      have hnone : (ledger s.calls).ended = [] := by
        have hlen := hs.ended
        rw [hended] at hlen
        exact List.length_eq_zero_iff.1 hlen
      exact
        { hs with
          ended := by
            show ((ledger s.calls).ended ++ [detail]).length = 1
            rw [hnone]
            rfl
          minting := fun r hr hg => ⟨rfl, (hs.minting r hr hg).2⟩
          latest := nofun
          attached := nofun
          current := nofun
          closed := fun _ => rfl
          nextBatchSeq := nofun }
    -- The canvas is cleared before the owner is told; the ledger does not tell the two orders apart.
    have hcleared := hlatched.clearResidency rfl
    unfold Sound State.clearResidency State.tell at hcleared
    unfold Sound State.clearResidency State.tell
    cases hr : s.residentStreamHandle with
    | none =>
      rw [hr] at hcleared
      dsimp only at hcleared ⊢
      rw [if_neg Bool.false_ne_true, ledger_snoc]
      rw [ledger_snoc] at hcleared
      exact { hcleared with }
    | some resident =>
      rw [hr] at hcleared
      dsimp only at hcleared ⊢
      rw [if_neg Bool.false_ne_true, ledger_snoc, ledger_snoc]
      rw [ledger_snoc, ledger_snoc] at hcleared
      exact { hcleared with }

/-- A newer generation, once nobody is current. -/
theorem Sound.advance (hs : Sound mid s) (hcurrent : s.currentStreamHandle = none) (t : Int) :
    Sound mid { s with lastIssuedAtMs := t, generation := s.generation + 1 } :=
  have hold : ∀ a ∈ s.awaiting, ∀ g, a.generation? = some g → g ≠ s.generation + 1 := by
    intro a ha g hg
    have hle := hs.generations_le g (List.mem_filterMap.2 ⟨a, ha, hg⟩)
    omega
  { hs with
    generations_le := fun g hg => Nat.le_succ_of_le (hs.generations_le g hg)
    generations_lt := fun _ g hg => Nat.lt_succ_of_le (hs.generations_le g hg)
    minting := by
      intro r hr hg
      exfalso
      rcases hr with hr | hr
      · exact hold _ hr _ rfl hg
      · exact hold _ hr _ rfl hg
    latest := fun r h hh hg => absurd hg (hold _ hh _ rfl)
    attached := by
      intro r h hh hc
      rw [show s.currentStreamHandle = some h from hc] at hcurrent
      cases hcurrent }

/-- The manager is stopped, once nobody is current and every request is of an older generation. -/
theorem Sound.halt (hs : Sound mid s) (hcurrent : s.currentStreamHandle = none) (t : Int) :
    Sound mid { s with stopped := true, lastIssuedAtMs := t, generation := s.generation + 1 } :=
  { hs.advance hcurrent t with
    generations_lt := fun _ g hg => Nat.lt_succ_of_le (hs.generations_le g hg)
    closed := fun _ => hcurrent }

/-- A ticket nobody has heard of, received when it is too late: it is cancelled at once. -/
theorem Sound.mintLate (hs : Sound mid s) (hminted : h ∉ (ledger s.calls).minted) :
    Sound mid ((s.tell (.minted h)).tell (.skpCancel h)) := by
  have hne : ∀ k ∈ (ledger s.calls).minted, k ≠ h := by
    intro k hk heq
    exact hminted (heq ▸ hk)
  have hcancelled : ∀ k ∈ (ledger s.calls).minted, k ∈ (ledger s.calls).cancelled ++ [h] →
      k ∈ (ledger s.calls).cancelled := by
    intro k hk hin
    rcases List.mem_append.1 hin with hin | hin
    · exact hin
    · exact absurd (List.mem_singleton.1 hin) (hne k hk)
  unfold Sound State.tell
  rw [ledger_snoc, ledger_snoc]
  exact
    { hs with
      started_minted := fun k hk => List.mem_append_left _ (hs.started_minted k hk)
      superseded_minted := fun k hk => List.mem_append_left _ (hs.superseded_minted k hk)
      ticket := by
        intro k hk
        rcases List.mem_append.1 hk with hk | hk
        · exact (hs.ticket k hk).imp_right
            (Or.imp_right (Or.imp_right (List.mem_append_left _)))
        · exact Or.inr (Or.inr (Or.inr (List.mem_append_right _ hk)))
      attaching := by
        intro k hk
        obtain ⟨hm, hst, hself⟩ := hs.attaching k hk
        exact ⟨List.mem_append_left _ hm, hst, fun hin => hself (hcancelled k hm hin)⟩
      latest := fun r k hk hg hended =>
        (hs.latest r k hk hg hended).imp_right (List.mem_append_left _)
      retracted := by
        intro k o hk
        obtain ⟨hm, hst, hattach, hin⟩ := hs.retracted k o hk
        exact ⟨List.mem_append_left _ hm, hst, hattach, List.mem_append_left _ hin⟩
      streams := by
        intro sink hsink
        obtain ⟨hst, hself⟩ := hs.streams sink hsink
        exact ⟨hst, fun hin => hself (hcancelled _ (hs.started_minted _ hst) hin)⟩
      selfCancelled := fun k hk => List.mem_append_left _ (hs.selfCancelled k hk)
      current := by
        intro k hk
        obtain ⟨hm, hnot, hresident⟩ := hs.current k hk
        exact ⟨List.mem_append_left _ hm, fun hin => hnot (hcancelled k hm hin), hresident⟩
      resident := fun k hk => ⟨List.mem_append_left _ (hs.resident k hk).1, (hs.resident k hk).2⟩ }

/-- A ticket nobody has heard of becomes current, on the way to its attach. -/
theorem Sound.enter (hs : Sound none s) {request : Request}
    (hminted : h ∉ (ledger s.calls).minted) (hcancelled : h ∉ (ledger s.calls).cancelled)
    (hended : s.sessionEnded = false) (hgeneration : request.myGeneration = s.generation)
    (hclaims : s.Claims request.myGeneration)
    (hresident : s.residentStreamHandle = none) (t : LiveTicketSet) :
    Sound (some h) ({ (s.tell (.minted h)) with
      currentStreamHandle := some h
      residentStreamHandle := some h
      nextBatchSeq := 0
      liveTickets := t }.tell .dataPlaneAttach) := by
  have hlive : s.stopped = false := by
    cases hstopped : s.stopped with
    | false => rfl
    | true => exact absurd (hclaims.lt hstopped) (by omega)
  have hnone : ∀ k ∈ (ledger s.calls).forwarded, k ∈ (ledger s.calls).superseded := by
    intro k hk
    refine (hs.shown k hk).resolve_right ?_
    rw [hresident]
    nofun
  have hforwarded : h ∉ (ledger s.calls).forwarded := by
    intro hk
    exact hminted (hs.started_minted h (hs.forwarded_started h hk))
  have hgen : ∀ a ∈ s.awaiting, ∀ g, a.generation? = some g → g ≠ s.generation := by
    intro a ha g hg heq
    exact hclaims.fresh (hgeneration ▸ heq ▸ List.mem_filterMap.2 ⟨a, ha, hg⟩)
  have hattaching : h ∉ s.attaching := fun hk => hminted (hs.attaching h hk).1
  have hin : ∀ k ∈ (ledger s.calls).minted, k ∈ (ledger s.calls).minted ++ [h] :=
    fun k hk => List.mem_append_left _ hk
  unfold Sound State.tell
  rw [ledger_snoc, ledger_snoc]
  exact
    { hs with
      started_minted := fun k hk => hin k (hs.started_minted k hk)
      superseded_minted := fun k hk => hin k (hs.superseded_minted k hk)
      ticket := by
        intro k hk
        rcases List.mem_append.1 hk with hk | hk
        · rcases hs.ticket k hk with hattach | hmid | hdone
          · exact Or.inl hattach
          · cases hmid
          · exact Or.inr (Or.inr hdone)
        · exact Or.inr (Or.inl (congrArg some (List.mem_singleton.1 hk).symm))
      minting := by
        intro r hr hg
        rcases hr with hr | hr
        · exact absurd hg (hgen _ hr _ rfl)
        · exact absurd hg (hgen _ hr _ rfl)
      attaching := fun k hk => ⟨hin k (hs.attaching k hk).1, (hs.attaching k hk).2⟩
      latest := fun r k hk hg => absurd hg (hgen _ hk _ rfl)
      attached := by
        intro r k hk hc
        cases hc
        exact absurd (State.mem_attaching (s := s) hk) hattaching
      retracted := fun k o hk => ⟨hin k (hs.retracted k o hk).1, (hs.retracted k o hk).2⟩
      current := by
        intro k hk
        cases hk
        exact ⟨List.mem_append_right _ List.mem_cons_self, hcancelled, rfl⟩
      closed := by
        intro hclosed
        rcases hclosed with hclosed | hclosed
        · exact absurd (hended.symm.trans hclosed) Bool.false_ne_true
        · exact absurd (hlive.symm.trans hclosed) Bool.false_ne_true
      resident := by
        intro k hk
        cases hk
        exact ⟨List.mem_append_right _ List.mem_cons_self,
          fun hsuper => hminted (hs.superseded_minted h hsuper)⟩
      shown := fun k hk => Or.inl (hnone k hk)
      canvas := by
        intro b hb
        have hr := (hs.canvas b hb).2
        rw [hresident] at hr
        cases hr
      nextBatchSeq := by
        intro k hk
        cases hk
        exact congrArg List.length (hs.unforwarded h hforwarded) }

/-- A ticket nobody has heard of becomes current, and attaches. -/
theorem Sound.mint (hs : Sound none s) {request : Request}
    (hminted : h ∉ (ledger s.calls).minted) (hcancelled : h ∉ (ledger s.calls).cancelled)
    (hended : s.sessionEnded = false) (hgeneration : request.myGeneration = s.generation)
    (hclaims : s.Claims request.myGeneration)
    (hresident : s.residentStreamHandle = none) (t : LiveTicketSet) :
    Sound none (({ (s.tell (.minted h)) with
      currentStreamHandle := some h
      residentStreamHandle := some h
      nextBatchSeq := 0
      liveTickets := t }.tell .dataPlaneAttach).await (.dataPlaneAttach request h)) := by
  have hattaching : h ∉ s.attaching := fun hk => hminted (hs.attaching h hk).1
  have henter := hs.enter hminted hcancelled hended hgeneration hclaims hresident t
  have hawait := henter.await (.dataPlaneAttach request h)
    (by
      intro g hg
      cases hg
      exact ⟨hclaims.fresh, hclaims.le, hclaims.lt⟩)
    (by
      intro r hr
      rcases hr with hr | hr <;> cases hr)
    (by
      intro r k hk
      cases hk
      have hm : h ∈ (ledger (s.calls ++ [.minted h] ++ [.dataPlaneAttach])).minted := by
        rw [ledger_snoc, ledger_snoc]
        exact List.mem_append_right _ List.mem_cons_self
      refine ⟨hm, ?_, ?_, hattaching, fun o ho => hminted (hs.retracted h o ho).1, rfl, hgeneration⟩
      · show h ∉ (ledger (s.calls ++ [.minted h] ++ [.dataPlaneAttach])).started
        rw [ledger_snoc, ledger_snoc]
        exact fun hk => hminted (hs.started_minted h hk)
      · show h ∉ (ledger (s.calls ++ [.minted h] ++ [.dataPlaneAttach])).cancelled
        rw [ledger_snoc, ledger_snoc]
        exact hcancelled)
    (by
      intro k o hk
      cases hk)
  refine hawait.settle (Or.inl ?_)
  rw [attaching_await]
  exact List.mem_append_right _ List.mem_cons_self

/-- A ticket that attached too late is cancelled. -/
theorem Sound.retract (hs : Sound (some h) s) (hminted : h ∈ (ledger s.calls).minted)
    (hstarted : h ∉ (ledger s.calls).started) (hattaching : h ∉ s.attaching)
    (hcurrent : s.currentStreamHandle ≠ some h) (outcome : RequestOutcome) :
    Sound none ((s.tell (.skpCancel h)).await (.cancelAttached h outcome)) := by
  have hcancelled : ∀ k, k ≠ h → k ∈ (ledger s.calls).cancelled ++ [h] →
      k ∈ (ledger s.calls).cancelled := by
    intro k hk hin
    exact (List.mem_append.1 hin).resolve_right fun hin => hk (List.mem_singleton.1 hin)
  have htold : Sound (some h) (s.tell (.skpCancel h)) := by
    unfold Sound State.tell
    rw [ledger_snoc]
    exact
      { hs with
        ticket := fun k hk => (hs.ticket k hk).imp_right
          (Or.imp_right (Or.imp_right (List.mem_append_left _)))
        attaching := by
          intro k hk
          obtain ⟨hm, hst, hself⟩ := hs.attaching k hk
          exact ⟨hm, hst, fun hin => hself (hcancelled k (fun heq => hattaching (heq ▸ hk)) hin)⟩
        latest := fun r k hk hg hended =>
          (hs.latest r k hk hg hended).imp_right (List.mem_append_left _)
        retracted := by
          intro k o hk
          obtain ⟨hm, hst, hattach, hin⟩ := hs.retracted k o hk
          exact ⟨hm, hst, hattach, List.mem_append_left _ hin⟩
        streams := by
          intro sink hsink
          obtain ⟨hst, hself⟩ := hs.streams sink hsink
          exact ⟨hst, fun hin => hself (hcancelled _ (fun heq => hstarted (heq ▸ hst)) hin)⟩
        selfCancelled := fun k hk => List.mem_append_left _ (hs.selfCancelled k hk)
        current := by
          intro k hk
          obtain ⟨hm, hnot, hresident⟩ := hs.current k hk
          exact ⟨hm, fun hin => hnot (hcancelled k (fun heq => hcurrent (heq ▸ hk)) hin),
            hresident⟩ }
  have hin : h ∈ (ledger (s.calls ++ [.skpCancel h])).cancelled := by
    rw [ledger_snoc]
    exact List.mem_append_right _ List.mem_cons_self
  have hfacts : h ∈ (ledger (s.calls ++ [.skpCancel h])).minted ∧
      h ∉ (ledger (s.calls ++ [.skpCancel h])).started := by
    rw [ledger_snoc]
    exact ⟨hminted, hstarted⟩
  have hsettled : Sound none (s.tell (.skpCancel h)) := htold.settle (Or.inr (Or.inr hin))
  refine hsettled.await _ nofun ?_ nofun ?_
  · intro r hr
    rcases hr with hr | hr <;> cases hr
  · intro k o hk
    cases hk
    exact ⟨hfacts.1, hfacts.2, hattaching, hin⟩

/-- A ticket that attached in time is started. -/
theorem Sound.start (hs : Sound (some h) s) (hminted : h ∈ (ledger s.calls).minted)
    (hstarted : h ∉ (ledger s.calls).started) (hattaching : h ∉ s.attaching)
    (hself : h ∈ (ledger s.calls).cancelled → h ∈ s.selfCancelledHandles)
    (hretracted : ∀ o, .cancelAttached h o ∉ s.awaiting) (attach : DataPlaneAttach)
    (filter : Option Filter) :
    Sound none ({ s with streams := s.streams ++ [Sink.mk h filter] }.tell
      (.startStream attach h)) := by
  have hne : ∀ k, k ∉ (ledger s.calls).started → k ≠ h →
      k ∉ (ledger s.calls).started ++ [h] := by
    intro k hk hkh hin
    rcases List.mem_append.1 hin with hin | hin
    · exact hk hin
    · exact hkh (List.mem_singleton.1 hin)
  have htold : Sound (some h) ({ s with streams := s.streams ++ [Sink.mk h filter] }.tell
      (.startStream attach h)) := by
    unfold Sound State.tell
    rw [ledger_snoc]
    exact
      { hs with
        started_minted := by
          intro k hk
          rcases List.mem_append.1 hk with hk | hk
          · exact hs.started_minted k hk
          · exact (List.mem_singleton.1 hk).symm ▸ hminted
        started_nodup := by
          have hdisjoint : (ledger s.calls).started.Disjoint [h] :=
            List.disjoint_singleton.2 hstarted
          exact List.Nodup.append hs.started_nodup (List.nodup_singleton h) hdisjoint
        forwarded_started := fun k hk => List.mem_append_left _ (hs.forwarded_started k hk)
        ticket := fun k hk => (hs.ticket k hk).imp_right
          (Or.imp_right (Or.imp_left (List.mem_append_left _)))
        attaching := by
          intro k hk
          obtain ⟨hm, hst, hs'⟩ := hs.attaching k hk
          exact ⟨hm, hne k hst (fun heq => hattaching (heq ▸ hk)), hs'⟩
        retracted := by
          intro k o hk
          obtain ⟨hm, hst, hattach, hin⟩ := hs.retracted k o hk
          exact ⟨hm, hne k hst (fun heq => hretracted o (heq ▸ hk)), hattach, hin⟩
        streams_nodup := by
          rw [List.map_append]
          have hdisjoint : (s.streams.map Sink.streamHandleAtStart).Disjoint [h] := by
            rw [List.disjoint_singleton]
            intro hin
            obtain ⟨sink, hsink, heq⟩ := List.mem_map.1 hin
            exact hstarted (heq ▸ (hs.streams sink hsink).1)
          exact List.Nodup.append hs.streams_nodup (List.nodup_singleton h) hdisjoint
        streams := by
          intro sink hsink
          rcases List.mem_append.1 hsink with hsink | hsink
          · exact ⟨List.mem_append_left _ (hs.streams sink hsink).1, (hs.streams sink hsink).2⟩
          · rw [List.mem_singleton.1 hsink]
            exact ⟨List.mem_append_right _ List.mem_cons_self, hself⟩ }
  refine htold.settle (Or.inr (Or.inl ?_))
  unfold State.tell
  rw [ledger_snoc]
  exact List.mem_append_right _ List.mem_cons_self

/-! ### The sink of a stream -/

/-- A batch of the current stream is forwarded. -/
theorem Sound.forward (hs : Sound mid s) (hstarted : h ∈ (ledger s.calls).started)
    (hcurrent : s.currentStreamHandle = some h) (payload : List UInt8) (filter : Option Filter) :
    Sound mid ({ s with nextBatchSeq := s.nextBatchSeq + 1 }.tell
      (.onBatch h s.nextBatchSeq payload filter)) := by
  have hresident := (hs.current h hcurrent).2.2
  have hone : ∀ k, s.currentStreamHandle = some k → k = h := by
    intro k hk
    exact Option.some.inj (hk.symm.trans hcurrent)
  unfold Sound State.tell
  rw [ledger_snoc]
  exact
    { hs with
      forwarded_started := by
        intro k hk
        rcases List.mem_append.1 hk with hk | hk
        · exact hs.forwarded_started k hk
        · exact (List.mem_singleton.1 hk).symm ▸ hstarted
      orderly := by
        refine ⟨hs.orderly, ?_⟩
        intro k hk hne
        refine (hs.shown k hk).resolve_right ?_
        rw [hresident]
        intro heq
        exact hne (Option.some.inj heq).symm
      shown := by
        intro k hk
        rcases List.mem_append.1 hk with hk | hk
        · exact hs.shown k hk
        · exact Or.inr ((List.mem_singleton.1 hk).symm ▸ hresident)
      canvas := by
        intro b hb
        rcases List.mem_append.1 hb with hb | hb
        · exact ⟨List.mem_append_left _ (hs.canvas b hb).1, (hs.canvas b hb).2⟩
        · rw [List.mem_singleton.1 hb]
          exact ⟨List.mem_append_right _ List.mem_cons_self, hresident⟩
      batchSeqs := by
        intro k
        show (if k = h then _ else _) = List.range (if k = h then _ else _ : List Nat).length
        split_ifs with hk
        · rw [List.length_append, List.length_singleton, List.range_succ, ← hs.batchSeqs k, hk,
            hs.nextBatchSeq h hcurrent]
        · exact hs.batchSeqs k
      unforwarded := by
        intro k hk
        change k ∉ (ledger s.calls).forwarded ++ [h] at hk
        rw [List.mem_append, List.mem_singleton, not_or] at hk
        show (if k = h then _ else _) = _
        rw [if_neg hk.2]
        exact hs.unforwarded k hk.1
      nextBatchSeq := by
        intro k hk
        show (if k = h then _ else _ : List Nat).length = _
        rw [if_pos (hone k hk), List.length_append, List.length_singleton,
          hs.nextBatchSeq k hk] }

/-- A stream that is over is one of those there were. -/
theorem Sound.eraseStream (hs : Sound mid s) (sink : Sink) :
    Sound mid { s with streams := s.streams.erase sink } :=
  { hs with
    streams_nodup := hs.streams_nodup.sublist (List.erase_sublist.map _)
    streams := fun sink' hsink => hs.streams sink' (List.erase_sublist.subset hsink) }

/-- A stream that is over and was cancelled is forgotten. -/
theorem Sound.forget (hs : Sound mid s) (hattaching : h ∉ s.attaching)
    (hstreams : h ∉ s.streams.map Sink.streamHandleAtStart) :
    Sound mid { s with selfCancelledHandles := s.selfCancelledHandles.erase h } :=
  { hs with
    attaching := by
      intro k hk
      obtain ⟨hm, hst, hself⟩ := hs.attaching k hk
      exact ⟨hm, hst, fun hin =>
        Finset.mem_erase.2 ⟨fun heq => hattaching (heq ▸ hk), hself hin⟩⟩
    streams := by
      intro sink hsink
      obtain ⟨hst, hself⟩ := hs.streams sink hsink
      refine ⟨hst, fun hin => Finset.mem_erase.2 ⟨?_, hself hin⟩⟩
      intro heq
      exact hstreams (heq ▸ List.mem_map_of_mem hsink)
    selfCancelled := fun k hk => hs.selfCancelled k (Finset.mem_of_mem_erase hk) }

/-! ### The methods -/

theorem State.Claims.clearResidency {g : Nat} (hclaims : s.Claims g) :
    s.clearResidency.Claims g := by
  unfold State.clearResidency
  cases s.residentStreamHandle with
  | none => exact hclaims
  | some resident => exact ⟨hclaims.fresh, hclaims.le, hclaims.lt⟩

theorem Sound.finishSupersede (hs : Sound mid s) (hcurrent : s.currentStreamHandle = none)
    {request : Option Request} (hclaims : ∀ r, request = some r → s.Claims r.myGeneration) :
    Sound mid (s.finishSupersede request) := by
  cases request with
  | none => exact hs.clearResidency hcurrent
  | some r =>
    refine (hs.clearResidency hcurrent).await _ ?_ ?_ nofun nofun
    · intro g hg
      cases hg
      exact (hclaims r rfl).clearResidency
    · intro _ _ _
      rw [currentStreamHandle_clearResidency]
      exact ⟨hcurrent, residentStreamHandle_clearResidency s⟩

theorem supersedeCurrent_none {request : Option Request} (hc : s.currentStreamHandle = none) :
    s.supersedeCurrent request = s.finishSupersede request := by
  rw [State.supersedeCurrent, hc]

theorem supersedeCurrent_some {request : Option Request}
    (hc : s.currentStreamHandle = some h) :
    s.supersedeCurrent request = (s.cancelStream h).await (.cancelPrevious request) := by
  rw [State.supersedeCurrent, hc]

/-- A stream is superseded for what comes after it, and the generation goes on. -/
theorem Sound.supersedeCurrent (hs : Sound none s) (t : Int) (stopped : Bool)
    {request : Option Request}
    (hadvance : ∀ s', Sound none s' → s'.currentStreamHandle = none →
      s'.stopped = s.stopped → s'.generation = s.generation →
        Sound none { s' with
          stopped := stopped
          lastIssuedAtMs := t
          generation := s.generation + 1 })
    (hrequest : ∀ r, request = some r → stopped = false ∧ r.myGeneration = s.generation + 1) :
    Sound none ({ s with
      stopped := stopped
      lastIssuedAtMs := t
      generation := s.generation + 1 }.supersedeCurrent request) := by
  have hclaims : ∀ r, request = some r → ∀ s' : State, s'.awaiting = s.awaiting →
      s'.generation = s.generation + 1 → s'.stopped = stopped → s'.Claims r.myGeneration := by
    intro r hr s' hawaiting hgeneration hstopped
    obtain ⟨hlive, hmine⟩ := hrequest r hr
    refine ⟨?_, by omega, ?_⟩
    · intro hin
      rw [State.generations, hawaiting] at hin
      have hle := hs.generations_le _ hin
      omega
    · intro hstop
      rw [hstopped, hlive] at hstop
      cases hstop
  rcases Option.eq_none_or_eq_some s.currentStreamHandle with hc | ⟨previous, hc⟩
  · rw [supersedeCurrent_none]
    · exact (hadvance s hs hc rfl rfl).finishSupersede hc fun r hr => hclaims r hr _ rfl rfl rfl
    · exact hc
  · have hnone : (s.cancelStream previous).currentStreamHandle = none := if_pos hc
    rw [supersedeCurrent_some]
    · refine (hadvance _ (hs.cancelStream previous) hnone rfl rfl).await
        (.cancelPrevious request) ?_ ?_ nofun nofun
      · intro g hg
        obtain ⟨r, hr, hrg⟩ := Option.map_eq_some_iff.1 hg
        rw [← hrg]
        exact hclaims r hr _ rfl rfl rfl
      · intro r hr
        rcases hr with hr | hr <;> cases hr
    · exact hc

theorem Sound.requestViewport (hs : Sound none s) (bbox : Option Bbox) (bboxCrs : Option String)
    (nowMs : Int) (filter : Option Filter) :
    Sound none (s.requestViewport bbox bboxCrs nowMs filter) := by
  unfold State.requestViewport
  split_ifs with hended hstopped hthrottled
  · exact hs.tell fun _ => ⟨_, _, rfl⟩
  · exact hs.tell fun _ => ⟨_, _, rfl⟩
  · exact hs.tell fun _ => ⟨_, _, rfl⟩
  · refine hs.supersedeCurrent nowMs s.stopped ?_ ?_
    · intro s' hs' hcurrent hstop hgeneration
      rw [← hstop, ← hgeneration]
      exact hs'.advance hcurrent nowMs
    · intro r hr
      cases hr
      exact ⟨Bool.eq_false_of_not_eq_true hstopped, rfl⟩

theorem Sound.stop (hs : Sound none s) : Sound none s.stop := by
  refine hs.supersedeCurrent s.lastIssuedAtMs true ?_ nofun
  intro s' hs' hcurrent _ hgeneration
  rw [← hgeneration]
  exact hs'.halt hcurrent s.lastIssuedAtMs

theorem Sound.onTerminal (hs : Sound none s) {sink : Sink} (hsink : sink ∈ s.streams)
    (terminal : Terminal) :
    Sound none ({ s with streams := s.streams.erase sink }.onTerminal sink terminal) := by
  obtain ⟨hstarted, _⟩ := hs.streams sink hsink
  have hattaching : sink.streamHandleAtStart ∉ s.attaching :=
    fun hin => (hs.attaching _ hin).2.1 hstarted
  have hgone : sink.streamHandleAtStart ∉ (s.streams.erase sink).map Sink.streamHandleAtStart := by
    have hperm := (List.perm_cons_erase hsink).map Sink.streamHandleAtStart
    exact (List.nodup_cons.1 (hperm.nodup_iff.1 hs.streams_nodup)).1
  -- Up to the last test, the stream is over and the session may have ended.
  have hover : ∀ t, Sound none { { s with streams := s.streams.erase sink }.dropCurrent
      sink.streamHandleAtStart with liveTickets := t } := by
    intro t
    have hdropped := (hs.eraseStream sink).dropCurrent (h := sink.streamHandleAtStart) hattaching
    exact { hdropped with }
  have hend : ∀ (s' : State) d, (s'.attaching = s.attaching ∧ s'.streams = s.streams.erase sink) →
      (s'.endSession d).attaching = s.attaching ∧
        (s'.endSession d).streams = s.streams.erase sink := by
    intro s' d hs'
    unfold State.endSession State.clearResidency
    split_ifs
    · exact hs'
    · cases s'.residentStreamHandle <;> exact hs'
  have hreport : ∀ s', Sound none s' → s'.attaching = s.attaching →
      s'.streams = s.streams.erase sink → Sound none (s'.reportTerminal sink terminal) := by
    intro s' hs' hattach hstreams
    unfold State.reportTerminal
    split_ifs
    · exact hs'.forget (hattach ▸ hattaching) (hstreams ▸ hgone)
    · exact hs'.tell fun _ => ⟨_, _, rfl⟩
  unfold State.onTerminal
  dsimp only
  cases isSessionEndedTerminal terminal with
  | true =>
    rw [if_pos rfl]
    refine hreport _ ((hover _).endSession _) ?_ ?_
    · refine (hend _ _ ?_).1
      exact ⟨rfl, rfl⟩
    · refine (hend _ _ ?_).2
      exact ⟨rfl, rfl⟩
  | false =>
    rw [if_neg Bool.false_ne_true]
    exact hreport _ (hover _) rfl rfl

/-! ### Answers -/

theorem not_mem_filterMap_erase {α β : Type} [DecidableEq α] {f : α → Option β} {xs : List α}
    {a : α} {b : β} (hxs : (xs.filterMap f).Nodup) (ha : a ∈ xs) (hb : f a = some b) :
    b ∉ (xs.erase a).filterMap f := by
  have hperm := (List.perm_cons_erase ha).filterMap f
  rw [List.filterMap_cons_some hb] at hperm
  exact (List.nodup_cons.1 (hperm.nodup_iff.1 hxs)).1

/-- The generation of an await that is over is claimed by nobody else. -/
theorem Sound.claims_erase (hs : Sound mid s) {a : Await} (ha : a ∈ s.awaiting) {g : Nat}
    (hg : a.generation? = some g) : State.Claims { s with awaiting := s.awaiting.erase a } g where
  fresh := not_mem_filterMap_erase hs.generations_nodup ha hg
  le := hs.generations_le g (List.mem_filterMap.2 ⟨a, ha, hg⟩)
  lt := fun hstopped => hs.generations_lt hstopped g (List.mem_filterMap.2 ⟨a, ha, hg⟩)

theorem Sound.afterMint (hs : Sound none s) {request : Request} {stream : String}
    (hminted : stream ∉ (ledger s.calls).minted) (hcancelled : stream ∉ (ledger s.calls).cancelled)
    (hclaims : s.Claims request.myGeneration)
    (hresident : request.myGeneration = s.generation → s.residentStreamHandle = none) :
    Sound none (s.afterMint request stream) := by
  have hlate : ∀ o, Sound none (((s.tell (.minted stream)).tell (.skpCancel stream)).await
      (.cancelMinted stream o)) := by
    intro o
    refine (hs.mintLate hminted).await _ nofun ?_ nofun nofun
    intro r hr
    rcases hr with hr | hr <;> cases hr
  unfold State.afterMint
  dsimp only
  split_ifs with hended hgeneration
  · exact hlate _
  · exact hlate _
  · have hmine := not_not.1 hgeneration
    exact hs.mint hminted hcancelled (Bool.eq_false_of_not_eq_true hended) hmine hclaims
      (hresident hmine) _

theorem Sound.afterCancelAttached (hs : Sound none s) {stream : String}
    (hattaching : stream ∉ s.attaching) (hstarted : stream ∉ (ledger s.calls).started)
    (outcome : RequestOutcome) : Sound none (s.afterCancelAttached stream outcome) := by
  have hgone : ∀ s', Sound none s' → s'.attaching = s.attaching → s'.calls = s.calls →
      Sound none (((s'.dropCurrent stream).dropResident stream).tell (.returned outcome)) := by
    intro s' hs' hattach hcalls
    have hdropped := hs'.dropCurrent (h := stream) (hattach ▸ hattaching)
    refine (hdropped.dropResident (h := stream) ?_ ?_).tell fun _ => ⟨_, _, rfl⟩
    · intro hin
      exact hstarted (hcalls ▸ hs'.forwarded_started stream hin)
    · exact fun hc => (drop_eq_some.1 hc).2 rfl
  unfold State.afterCancelAttached
  dsimp only
  split_ifs
  · exact hgone _ { hs with } rfl rfl
  · exact hgone s hs rfl rfl

end

end SpatialIde.Shell.Streaming.ViewportStreamManager
