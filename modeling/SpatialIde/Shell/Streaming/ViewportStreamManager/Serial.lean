import SpatialIde.Lib.Runs
import SpatialIde.Shell.Streaming.ViewportStreamManager.Sound

/-! # Only the latest request

Whatever order its steps come in, a stream is current only if it is of the latest request that was
given a ticket, and what the manager forwards is of the last stream it started.
-/

namespace SpatialIde.Shell.Streaming.ViewportStreamManager

open Canvas (Bbox Filter)

/-! ### The invariant -/

/-- The request that goes on with the answer. -/
def Await.request? : Await → Option Request
  | cancelPrevious request => request
  | supersedeCurrent request => some request
  | viewportQuery request => some request
  | dataPlaneAttach request _ => some request
  | _ => none

theorem generation?_eq (a : Await) : a.generation? = a.request?.map Request.myGeneration := by
  cases a <;> rfl

/-- `shown` is the last stream that was started. -/
structure Serial (shown : Option Sink) (s : State) : Prop where
  generations_nodup : s.generations.Nodup
  generations_le : ∀ g ∈ s.generations, g ≤ s.generation
  /-- While the latest request is under way no stream but its own is current. -/
  alone : ∀ a ∈ s.awaiting, a.generation? = some s.generation → ∀ h,
    s.currentStreamHandle = some h → a.attaching? = some h
  current : ∀ h, s.currentStreamHandle = some h → .minted h ∈ s.calls
  attaching_nodup : s.attaching.Nodup
  attaching : ∀ h ∈ s.attaching, .minted h ∈ s.calls ∧
    ∀ sink ∈ s.streams, sink.streamHandleAtStart ≠ h
  streams : ∀ sink ∈ s.streams, .minted sink.streamHandleAtStart ∈ s.calls
  showing : ∀ sink ∈ s.streams, s.currentStreamHandle = some sink.streamHandleAtStart →
    shown = some sink
  /-- A ticket that came too late is of no use. -/
  late : ∀ h o, .cancelMinted h o ∈ s.awaiting ∨ .cancelAttached h o ∈ s.awaiting →
    o = .superseded ∨ o = .sessionEnded

section

variable {shown : Option Sink} {s s' : State} {a : Await} {h : String}

theorem serial_new (dataset : String) (columns : Option (List String)) :
    Serial none (.new dataset columns) where
  generations_nodup := List.nodup_nil
  generations_le := nofun
  alone := nofun
  current := nofun
  attaching_nodup := List.nodup_nil
  attaching := nofun
  streams := nofun
  showing := nofun
  late := fun _ _ hin => by rcases hin with hin | hin <;> cases hin

/-! ### What the manager does between two awaits -/

/-- A batch is handed on. -/
def Effect.isBatch : Effect → Bool
  | .onBatch .. => true
  | _ => false

/-- More calls, and no batch among them. -/
def MoreCalls (calls calls' : List Effect) : Prop :=
  ∃ told, calls' = calls ++ told ∧ ∀ e ∈ told, e.isBatch = false

theorem moreCalls_refl (calls : List Effect) : MoreCalls calls calls :=
  ⟨[], (List.append_nil _).symm, nofun⟩

theorem moreCalls_snoc (calls : List Effect) {e : Effect} (he : e.isBatch = false) :
    MoreCalls calls (calls ++ [e]) :=
  ⟨[e], rfl, fun _ hk => List.mem_singleton.1 hk ▸ he⟩

theorem MoreCalls.trans {c c' c'' : List Effect} (h : MoreCalls c c') (h' : MoreCalls c' c'') :
    MoreCalls c c'' := by
  obtain ⟨told, rfl, htold⟩ := h
  obtain ⟨told', rfl, htold'⟩ := h'
  refine ⟨told ++ told', List.append_assoc _ _ _, fun e he => ?_⟩
  rcases List.mem_append.1 he with he | he
  · exact htold e he
  · exact htold' e he

theorem MoreCalls.subset {c c' : List Effect} (h : MoreCalls c c') : c ⊆ c' := by
  obtain ⟨told, rfl, -⟩ := h
  exact List.subset_append_left _ _

/-- Awaits and streams end, nobody is current any longer, and calls are made. -/
structure Recedes (s s' : State) : Prop where
  awaiting : s'.awaiting.Sublist s.awaiting
  generation : s'.generation = s.generation
  current : ∀ h, s'.currentStreamHandle = some h → s.currentStreamHandle = some h
  streams : s'.streams.Sublist s.streams
  calls : MoreCalls s.calls s'.calls

theorem recedes_refl (s : State) : Recedes s s :=
  ⟨.refl _, rfl, fun _ hh => hh, .refl _, moreCalls_refl _⟩

theorem Recedes.trans {s'' : State} (hs : Recedes s s') (hs' : Recedes s' s'') : Recedes s s'' where
  awaiting := hs'.awaiting.trans hs.awaiting
  generation := hs'.generation.trans hs.generation
  current := fun h hh => hs.current h (hs'.current h hh)
  streams := hs'.streams.trans hs.streams
  calls := hs.calls.trans hs'.calls

theorem recedes_tell (s : State) {e : Effect} (he : e.isBatch = false) : Recedes s (s.tell e) :=
  { recedes_refl s with calls := moreCalls_snoc _ he }

theorem recedes_erase (s : State) (a : Await) :
    Recedes s { s with awaiting := s.awaiting.erase a } :=
  { recedes_refl s with awaiting := List.erase_sublist }

theorem recedes_dropCurrent (s : State) (h : String) : Recedes s (s.dropCurrent h) :=
  { recedes_refl s with current := fun _ hk => (drop_eq_some.1 hk).1 }

theorem recedes_clearResidency (s : State) : Recedes s s.clearResidency := by
  unfold State.clearResidency
  cases s.residentStreamHandle with
  | none => exact recedes_refl s
  | some resident => exact { recedes_tell s (e := .onSuperseded resident) rfl with }

theorem recedes_cancelStream (s : State) (h : String) : Recedes s (s.cancelStream h) :=
  { recedes_dropCurrent s h with calls := moreCalls_snoc _ rfl }

theorem recedes_endSession (s : State) (detail : String) : Recedes s (s.endSession detail) := by
  unfold State.endSession
  split_ifs
  · exact recedes_refl s
  · have hclear := recedes_clearResidency { s with
      sessionEnded := true
      liveTickets := s.liveTickets.invalidate }
    have hcalls := hclear.calls
    refine ⟨hclear.awaiting, hclear.generation, nofun, hclear.streams, ?_⟩
    exact hcalls.trans (moreCalls_snoc _ rfl)

theorem recedes_afterCancelAttached (s : State) (h : String) (outcome : RequestOutcome) :
    Recedes s (s.afterCancelAttached h outcome) := by
  unfold State.afterCancelAttached
  dsimp only
  have hdrop := recedes_dropCurrent s h
  split_ifs
  · exact { hdrop with calls := moreCalls_snoc _ rfl }
  · exact { hdrop with calls := moreCalls_snoc _ rfl }

theorem recedes_onTerminal (s : State) (sink : Sink) (terminal : Terminal) :
    Recedes s (s.onTerminal sink terminal) := by
  have hreport : ∀ t : State, Recedes s t → Recedes s (t.reportTerminal sink terminal) := by
    intro t ht
    unfold State.reportTerminal
    split_ifs
    · exact { ht with }
    · exact ht.trans (recedes_tell t rfl)
  have hretired : Recedes s { s.dropCurrent sink.streamHandleAtStart with
      liveTickets := s.liveTickets.retire sink.streamHandleAtStart } :=
    { recedes_dropCurrent s sink.streamHandleAtStart with }
  unfold State.onTerminal
  dsimp only
  split_ifs
  · exact hreport _ (hretired.trans (recedes_endSession _ _))
  · exact hreport _ hretired

theorem Serial.recede (hs : Serial shown s) (hr : Recedes s s') : Serial shown s' where
  generations_nodup := hs.generations_nodup.sublist (hr.awaiting.filterMap _)
  generations_le := by
    intro g hg
    rw [hr.generation]
    exact hs.generations_le g ((hr.awaiting.filterMap _).subset hg)
  alone := by
    intro a ha hg h hh
    rw [hr.generation] at hg
    exact hs.alone a (hr.awaiting.subset ha) hg h (hr.current h hh)
  current := fun h hh => hr.calls.subset (hs.current h (hr.current h hh))
  attaching_nodup := hs.attaching_nodup.sublist (hr.awaiting.filterMap _)
  attaching := by
    intro h hh
    obtain ⟨hminted, hne⟩ := hs.attaching h ((hr.awaiting.filterMap _).subset hh)
    exact ⟨hr.calls.subset hminted, fun sink hsink => hne sink (hr.streams.subset hsink)⟩
  streams := fun sink hsink => hr.calls.subset (hs.streams sink (hr.streams.subset hsink))
  showing := fun sink hsink hh =>
    hs.showing sink (hr.streams.subset hsink) (hr.current _ hh)
  late := fun h o hin =>
    hs.late h o (hin.imp (fun ha => hr.awaiting.subset ha) fun ha => hr.awaiting.subset ha)

/-- A newer generation: no request under way is the latest. -/
theorem Serial.advance (hs : Serial shown s) (t : Int) (stopped : Bool) :
    Serial shown { s with
      stopped := stopped
      lastIssuedAtMs := t
      generation := s.generation + 1 } :=
  { hs with
    generations_le := fun g hg => Nat.le_succ_of_le (hs.generations_le g hg)
    alone := by
      intro a ha hg
      have hle := hs.generations_le _ (List.mem_filterMap.2 ⟨a, ha, hg⟩)
      exact absurd hle (Nat.not_succ_le_self _) }

/-- An await of a request that no other await is of. -/
theorem Serial.await (hs : Serial shown s) (a : Await)
    (hfresh : ∀ g, a.generation? = some g → g ∉ s.generations ∧ g ≤ s.generation)
    (halone : a.generation? = some s.generation → ∀ h, s.currentStreamHandle = some h →
      a.attaching? = some h)
    (hattaching : ∀ h, a.attaching? = some h → h ∉ s.attaching ∧ .minted h ∈ s.calls ∧
      ∀ sink ∈ s.streams, sink.streamHandleAtStart ≠ h)
    (hlate : ∀ h o, a = .cancelMinted h o ∨ a = .cancelAttached h o →
      o = .superseded ∨ o = .sessionEnded) : Serial shown (s.await a) :=
  { hs with
    generations_nodup := by
      rw [generations_await]
      exact nodup_snoc_toList hs.generations_nodup fun g hg => (hfresh g hg).1
    generations_le := by
      intro g hg
      rw [generations_await, mem_snoc_toList] at hg
      rcases hg with hg | hg
      · exact hs.generations_le g hg
      · exact (hfresh g hg).2
    alone := Lib.forall_snoc hs.alone halone
    attaching_nodup := by
      rw [attaching_await]
      exact nodup_snoc_toList hs.attaching_nodup fun h hh => (hattaching h hh).1
    attaching := by
      intro h hh
      rw [attaching_await, mem_snoc_toList] at hh
      rcases hh with hh | hh
      · exact hs.attaching h hh
      · exact (hattaching h hh).2
    late := by
      intro h o hin
      have hcases : (.cancelMinted h o ∈ s.awaiting ∨ .cancelAttached h o ∈ s.awaiting) ∨
          (a = .cancelMinted h o ∨ a = .cancelAttached h o) := by
        rcases hin with hin | hin
        · rcases List.mem_append.1 hin with hin | hin
          · exact .inl (.inl hin)
          · exact .inr (.inl (List.mem_singleton.1 hin).symm)
        · rcases List.mem_append.1 hin with hin | hin
          · exact .inl (.inr hin)
          · exact .inr (.inr (List.mem_singleton.1 hin).symm)
      exact hcases.elim (hs.late h o) (hlate h o) }

/-- An await that belongs to no request, and attaches nothing. -/
theorem Serial.awaitCancel (hs : Serial shown s) (a : Await) (hrequest : a.request? = none)
    (hattaching : a.attaching? = none)
    (hlate : ∀ h o, a = .cancelMinted h o ∨ a = .cancelAttached h o →
      o = .superseded ∨ o = .sessionEnded) : Serial shown (s.await a) := by
  have hgeneration : a.generation? = none := by rw [generation?_eq, hrequest]; rfl
  apply hs.await a
  · intro g hg
    rw [hgeneration] at hg
    cases hg
  · intro hg
    rw [hgeneration] at hg
    cases hg
  · intro h hh
    rw [hattaching] at hh
    cases hh
  · exact hlate

/-- The next await of the request that has just gone on; nobody is current. -/
theorem Serial.awaitNext (hs : Serial shown s) (a : Await) {request : Request}
    (hrequest : a.request? = some request) (hattaching : a.attaching? = none)
    (hfresh : request.myGeneration ∉ s.generations) (hle : request.myGeneration ≤ s.generation)
    (hcurrent : request.myGeneration = s.generation → s.currentStreamHandle = none) :
    Serial shown (s.await a) := by
  have hgeneration : a.generation? = some request.myGeneration := by
    rw [generation?_eq, hrequest]
    rfl
  apply hs.await a
  · intro g hg
    rw [hgeneration] at hg
    cases hg
    exact ⟨hfresh, hle⟩
  · intro hg h hh
    rw [hgeneration] at hg
    rw [hcurrent (Option.some.inj hg)] at hh
    cases hh
  · intro h hh
    rw [hattaching] at hh
    cases hh
  · rintro h o (rfl | rfl) <;> cases hrequest

/-- A ticket of the latest request becomes current. -/
theorem Serial.mint (hs : Serial shown s) {request : Request} (hnew : .minted h ∉ s.calls)
    (hgeneration : request.myGeneration = s.generation)
    (hfresh : request.myGeneration ∉ s.generations) (t : LiveTicketSet) :
    Serial shown (({ (s.tell (.minted h)) with
      currentStreamHandle := some h
      residentStreamHandle := some h
      nextBatchSeq := 0
      liveTickets := t }.tell .dataPlaneAttach).await (.dataPlaneAttach request h)) := by
  have hminted : .minted h ∈ s.calls ++ [.minted h] ++ [.dataPlaneAttach] :=
    List.mem_append_left _ Lib.mem_snoc
  have hgrow : ∀ e ∈ s.calls, e ∈ s.calls ++ [.minted h] ++ [.dataPlaneAttach] :=
    fun e he => List.mem_append_left _ (List.mem_append_left _ he)
  have hcurrent : Serial shown ({ (s.tell (.minted h)) with
      currentStreamHandle := some h
      residentStreamHandle := some h
      nextBatchSeq := 0
      liveTickets := t }.tell .dataPlaneAttach) :=
    { hs with
      alone := by
        intro a ha hg
        exact absurd (List.mem_filterMap.2 ⟨a, ha, hg⟩) (hgeneration ▸ hfresh)
      current := by
        intro k hk
        cases hk
        exact hminted
      attaching := fun k hk => ⟨hgrow _ (hs.attaching k hk).1, (hs.attaching k hk).2⟩
      streams := fun sink hsink => hgrow _ (hs.streams sink hsink)
      showing := by
        intro sink hsink hh
        cases hh
        exact absurd (hs.streams sink hsink) hnew }
  apply hcurrent.await
  · intro g hg
    cases hg
    exact ⟨hfresh, hgeneration.le⟩
  · intro _ k hk
    exact hk
  · intro k hk
    cases hk
    refine ⟨fun hin => hnew (hs.attaching h hin).1, hminted, fun sink hsink heq => ?_⟩
    exact hnew (heq ▸ hs.streams sink hsink)
  · rintro k o (hk | hk) <;> cases hk

/-- The stream of the latest request is started. -/
theorem Serial.start (hs : Serial shown s) (hminted : .minted h ∈ s.calls)
    (hattaching : h ∉ s.attaching) (hnew : ∀ sink ∈ s.streams, sink.streamHandleAtStart ≠ h)
    (hcurrent : ∀ k, s.currentStreamHandle = some k → k = h) (filter : Option Filter) :
    Serial (some ⟨h, filter⟩) { s with streams := s.streams ++ [⟨h, filter⟩] } :=
  { hs with
    attaching := by
      intro k hk
      obtain ⟨hm, hne⟩ := hs.attaching k hk
      refine ⟨hm, Lib.forall_snoc hne ?_⟩
      exact fun (heq : h = k) => hattaching (heq ▸ hk)
    streams := Lib.forall_snoc hs.streams hminted
    showing := by
      apply Lib.forall_snoc
      · intro sink hsink hh
        exact absurd (hcurrent _ hh) (hnew sink hsink)
      · exact fun _ => rfl }

/-! ### The methods -/

/-- A request whose generation no await is of. -/
structure Unawaited (s : State) (request : Request) : Prop where
  fresh : request.myGeneration ∉ s.generations
  le : request.myGeneration ≤ s.generation

theorem Unawaited.recede {request : Request} (hu : Unawaited s request) (hr : Recedes s s') :
    Unawaited s' request where
  fresh := fun hin => hu.fresh ((hr.awaiting.filterMap _).subset hin)
  le := by
    rw [hr.generation]
    exact hu.le

/-- The request of an await that is over. -/
theorem Serial.unawaited (hs : Serial shown s) (ha : a ∈ s.awaiting) {request : Request}
    (hrequest : a.request? = some request) :
    Unawaited { s with awaiting := s.awaiting.erase a } request := by
  have hgeneration : a.generation? = some request.myGeneration := by
    rw [generation?_eq, hrequest]
    rfl
  refine ⟨not_mem_filterMap_erase hs.generations_nodup ha hgeneration, ?_⟩
  exact hs.generations_le _ (List.mem_filterMap.2 ⟨a, ha, hgeneration⟩)

/-- Nobody is current while the latest request has no ticket. -/
theorem Serial.current_eq_none (hs : Serial shown s) (ha : a ∈ s.awaiting) {request : Request}
    (hrequest : a.request? = some request) (hattaching : a.attaching? = none)
    (hgeneration : request.myGeneration = s.generation) : s.currentStreamHandle = none := by
  cases hc : s.currentStreamHandle with
  | none => rfl
  | some h =>
    have hmine : a.generation? = some s.generation := by
      rw [generation?_eq, hrequest, ← hgeneration]
      rfl
    have hattach := hs.alone a ha hmine h hc
    rw [hattaching] at hattach
    cases hattach

theorem Serial.finishSupersede (hs : Serial shown s) {request : Option Request}
    (hrequest : ∀ r, request = some r → Unawaited s r ∧
      (r.myGeneration = s.generation → s.currentStreamHandle = none)) :
    Serial shown (s.finishSupersede request) := by
  have hr := recedes_clearResidency s
  cases request with
  | none => exact hs.recede hr
  | some request =>
    obtain ⟨hu, hcurrent⟩ := hrequest request rfl
    have hu' := hu.recede hr
    apply (hs.recede hr).awaitNext _ rfl rfl hu'.fresh hu'.le
    intro hg
    rw [currentStreamHandle_clearResidency]
    exact hcurrent (hg.trans hr.generation)

theorem Serial.supersedeCurrent (hs : Serial shown s) {request : Option Request}
    (hrequest : ∀ r, request = some r → Unawaited s r) :
    Serial shown (s.supersedeCurrent request) := by
  rcases Option.eq_none_or_eq_some s.currentStreamHandle with hc | ⟨previous, hc⟩
  · rw [supersedeCurrent_none hc]
    exact hs.finishSupersede fun r hr => ⟨hrequest r hr, fun _ => hc⟩
  · rw [supersedeCurrent_some hc]
    have hr := recedes_cancelStream s previous
    have hnone : (s.cancelStream previous).currentStreamHandle = none := if_pos hc
    cases request with
    | none =>
      apply (hs.recede hr).awaitCancel _ rfl rfl
      rintro h o (hk | hk) <;> cases hk
    | some request =>
      have hu := (hrequest request rfl).recede hr
      exact (hs.recede hr).awaitNext _ rfl rfl hu.fresh hu.le fun _ => hnone

/-- What a call of `requestViewport` does at once: it returns without a stream, or it is the latest
request from now on. -/
inductive Requested (s : State) (filter : Option Filter) : State → Prop where
  | returned (outcome : RequestOutcome) (houtcome : ∀ h, outcome ≠ .issued h) :
      Requested s filter (s.tell (.returned outcome))
  | awaits (s' : State) (request : Request) (next : Await)
      (hrequest : request.myGeneration = s.generation + 1 ∧ request.filter = filter)
      (hnext : next.request? = some request)
      (hawaiting : s'.awaiting = s.awaiting ++ [next])
      (hgeneration : s'.generation = s.generation + 1)
      (hstreams : s'.streams = s.streams)
      (hcalls : MoreCalls s.calls s'.calls) : Requested s filter s'

theorem requested (s : State) (bbox : Option Bbox) (bboxCrs : Option String) (nowMs : Int)
    (filter : Option Filter) :
    Requested s filter (s.requestViewport bbox bboxCrs nowMs filter) := by
  unfold State.requestViewport
  split_ifs
  · exact .returned _ nofun
  · exact .returned _ nofun
  · exact .returned _ nofun
  · have hclear : ∀ t : State, t.clearResidency.awaiting = t.awaiting ∧
        t.clearResidency.streams = t.streams := by
      intro t
      unfold State.clearResidency
      cases t.residentStreamHandle <;> exact ⟨rfl, rfl⟩
    rcases Option.eq_none_or_eq_some s.currentStreamHandle with hc | ⟨previous, hc⟩
    · rw [supersedeCurrent_none (by exact hc)]
      have hr := recedes_clearResidency
        { s with lastIssuedAtMs := nowMs, generation := s.generation + 1 }
      obtain ⟨hawaiting, hstreams⟩ := hclear
        { s with lastIssuedAtMs := nowMs, generation := s.generation + 1 }
      refine .awaits _ ⟨s.generation + 1, bbox, bboxCrs, filter⟩ (.supersedeCurrent _) ⟨rfl, rfl⟩
        rfl ?_ hr.generation hstreams hr.calls
      exact congrArg (· ++ _) hawaiting
    · rw [supersedeCurrent_some (by exact hc)]
      exact .awaits _ ⟨s.generation + 1, bbox, bboxCrs, filter⟩ (.cancelPrevious (some _))
        ⟨rfl, rfl⟩ rfl rfl rfl rfl (moreCalls_snoc _ rfl)

theorem Serial.requestViewport (hs : Serial shown s) (bbox : Option Bbox) (bboxCrs : Option String)
    (nowMs : Int) (filter : Option Filter) :
    Serial shown (s.requestViewport bbox bboxCrs nowMs filter) := by
  unfold State.requestViewport
  split_ifs
  · exact hs.recede (recedes_tell s rfl)
  · exact hs.recede (recedes_tell s rfl)
  · exact hs.recede (recedes_tell s rfl)
  · apply (hs.advance nowMs s.stopped).supersedeCurrent
    intro r hr
    cases hr
    refine ⟨fun hin => ?_, Nat.le_refl _⟩
    have hle := hs.generations_le _ hin
    exact absurd hle (Nat.not_succ_le_self _)

theorem Serial.stop (hs : Serial shown s) : Serial shown s.stop :=
  (hs.advance s.lastIssuedAtMs true).supersedeCurrent nofun

/-! ### Answers -/

/-- Where an answer leads: the request goes on to its next await, it is over, or its stream is
started. -/
structure Goes (s : State) (a : Await) (s' : State) (next : Option Await) (told : List Effect) :
    Prop where
  mem : a ∈ s.awaiting
  awaiting : s'.awaiting = s.awaiting.erase a ++ next.toList
  generation : s'.generation = s.generation
  calls : s'.calls = s.calls ++ told
  quiet : ∀ e ∈ told, e.isBatch = false
  request : ∀ b, next = some b → b.request? = none ∨ b.request? = a.request?
  started : (s'.streams = s.streams ∧
      ∀ h, next = none → told.getLast? ≠ some (.returned (.issued h))) ∨
    ∃ request h attach, a = .dataPlaneAttach request h ∧ request.myGeneration = s.generation ∧
      s'.streams = s.streams ++ [⟨h, request.filter⟩] ∧ next = none ∧
      told = [.startStream attach h, .returned (.issued h)]

/-- The request is over, and its last word is not a stream. -/
theorem goes_over {e : Effect} (ha : a ∈ s.awaiting) (he : e.isBatch = false)
    (hissued : ∀ h, e ≠ .returned (.issued h)) :
    Goes s a ({ s with awaiting := s.awaiting.erase a }.tell e) none [e] where
  mem := ha
  awaiting := (List.append_nil _).symm
  generation := rfl
  calls := rfl
  quiet := fun _ hk => List.mem_singleton.1 hk ▸ he
  request := nofun
  started := .inl ⟨rfl, fun h _ heq => hissued h (Option.some.inj heq)⟩

/-- A ticket came too late, and is cancelled. -/
theorem goes_cancelled {h : String} {b : Await} (ha : a ∈ s.awaiting) (hb : b.request? = none)
    {told : List Effect} (htold : ∀ e ∈ told, e.isBatch = false) :
    Goes s a (({ s with
      awaiting := s.awaiting.erase a
      calls := s.calls ++ told }.tell (.skpCancel h)).await b) (some b) (told ++ [.skpCancel h]) where
  mem := ha
  awaiting := rfl
  generation := rfl
  calls := List.append_assoc _ _ _
  quiet := Lib.forall_snoc htold rfl
  request := by
    intro c hc
    cases hc
    exact .inl hb
  started := .inl ⟨rfl, nofun⟩

/-- A method goes on with an answer. -/
theorem goes_finishSupersede (ha : a ∈ s.awaiting) :
    ∃ next told, Goes s a
      ({ s with awaiting := s.awaiting.erase a }.finishSupersede a.request?) next told := by
  have hclear : ∀ t : State, t.clearResidency.awaiting = t.awaiting ∧
      t.clearResidency.streams = t.streams ∧ t.clearResidency.generation = t.generation ∧
      t.clearResidency.calls = t.calls ++ t.residentStreamHandle.toList.map .onSuperseded := by
    intro t
    unfold State.clearResidency
    cases t.residentStreamHandle with
    | none => exact ⟨rfl, rfl, rfl, (List.append_nil _).symm⟩
    | some resident => exact ⟨rfl, rfl, rfl, rfl⟩
  obtain ⟨hawaiting, hstreams, hgeneration, hcalls⟩ :=
    hclear { s with awaiting := s.awaiting.erase a }
  have hquiet : ∀ e ∈ s.residentStreamHandle.toList.map Effect.onSuperseded,
      e.isBatch = false ∧ ∀ h, e ≠ .returned (.issued h) := by
    intro e he
    obtain ⟨h, -, rfl⟩ := List.mem_map.1 he
    exact ⟨rfl, nofun⟩
  cases hrequest : a.request? with
  | none =>
    refine ⟨none, _, ha, ?_, hgeneration, hcalls, fun e he => (hquiet e he).1, nofun,
      .inl ⟨hstreams, ?_⟩⟩
    · rw [Option.toList_none, List.append_nil]
      exact hawaiting
    · intro h _ hlast
      exact (hquiet _ (List.mem_of_getLast? hlast)).2 h rfl
  | some request =>
    refine ⟨some (.supersedeCurrent request), _, ha, congrArg (· ++ _) hawaiting, hgeneration,
      hcalls, fun e he => (hquiet e he).1, ?_, .inl ⟨hstreams, nofun⟩⟩
    intro b hb
    cases hb
    exact .inr hrequest.symm

/-- The request goes on to another await, and says so with one call. -/
theorem goes_on {e : Effect} {b : Await} (ha : a ∈ s.awaiting) (he : e.isBatch = false)
    (hb : b.request? = a.request?) :
    Goes s a (({ s with awaiting := s.awaiting.erase a }.tell e).await b) (some b) [e] where
  mem := ha
  awaiting := rfl
  generation := rfl
  calls := rfl
  quiet := fun _ hk => List.mem_singleton.1 hk ▸ he
  request := by
    intro c hc
    cases hc
    exact .inr hb
  started := .inl ⟨rfl, nofun⟩

theorem goes_afterMint {request : Request} (ha : .viewportQuery request ∈ s.awaiting) (h : String) :
    ∃ next told, Goes s (.viewportQuery request)
      ({ s with awaiting := s.awaiting.erase (.viewportQuery request) }.afterMint request h)
      next told := by
  have hquiet : ∀ e ∈ [Effect.minted h], e.isBatch = false := by
    intro e he
    rw [List.mem_singleton.1 he]
    rfl
  unfold State.afterMint
  dsimp only
  split_ifs
  · exact ⟨_, _, goes_cancelled ha rfl hquiet⟩
  · exact ⟨_, _, goes_cancelled ha rfl hquiet⟩
  · refine ⟨some (.dataPlaneAttach request h), [.minted h, .dataPlaneAttach], ha, rfl, rfl,
      List.append_assoc _ _ _, ?_, ?_, .inl ⟨rfl, nofun⟩⟩
    · exact @Lib.forall_snoc _ [Effect.minted h] _ _ hquiet rfl
    · intro b hb
      cases hb
      exact .inr rfl

theorem goes_afterAttach {request : Request} {h : String}
    (ha : .dataPlaneAttach request h ∈ s.awaiting) (attach : DataPlaneAttach) :
    ∃ next told, Goes s (.dataPlaneAttach request h)
      ({ s with awaiting := s.awaiting.erase (.dataPlaneAttach request h) }.afterAttach
        request h attach) next told := by
  have hcancelled : ∀ outcome, ∃ next told, Goes s (.dataPlaneAttach request h)
      (({ s with awaiting := s.awaiting.erase (.dataPlaneAttach request h) }.tell
        (.skpCancel h)).await (.cancelAttached h outcome)) next told :=
    fun outcome => ⟨some (.cancelAttached h outcome), [.skpCancel h], ha, rfl, rfl, rfl,
      fun _ hk => List.mem_singleton.1 hk ▸ rfl,
      fun _ hb => .inl (Option.some.inj hb ▸ rfl), .inl ⟨rfl, nofun⟩⟩
  unfold State.afterAttach
  split_ifs with hended hgeneration
  · exact hcancelled _
  · exact hcancelled _
  · refine ⟨none, [.startStream attach h, .returned (.issued h)], ha, (List.append_nil _).symm, rfl,
      List.append_assoc _ _ _, ?_, nofun,
      .inr ⟨request, h, attach, rfl, not_not.1 hgeneration, rfl, rfl, rfl⟩⟩
    intro e he
    rcases List.mem_pair.1 he with rfl | rfl <;> rfl

theorem Serial.goes (hs : Serial shown s) {answer : Answer}
    (h : step s (.answer a answer) = some s') : ∃ next told, Goes s a s' next told := by
  unfold ViewportStreamManager.step at h
  dsimp only at h
  split_ifs at h with ha
  cases a with
  | cancelPrevious request =>
    cases answer with
    | done =>
      cases h
      exact goes_finishSupersede ha
    | _ => cases h
  | supersedeCurrent request =>
    cases answer with
    | done =>
      cases h
      unfold State.afterSupersede
      split_ifs
      · exact ⟨_, _, goes_over ha rfl nofun⟩
      · exact ⟨_, _, goes_on ha rfl rfl⟩
    | _ => cases h
  | viewportQuery request =>
    cases answer with
    | minted stream =>
      unfold State.resume at h
      dsimp only at h
      split_ifs at h
      cases h
      exact goes_afterMint ha stream
    | rejected =>
      cases h
      exact ⟨_, _, goes_over ha rfl nofun⟩
    | _ => cases h
  | dataPlaneAttach request stream =>
    cases answer with
    | attached attach =>
      cases h
      exact goes_afterAttach ha attach
    | rejected =>
      cases h
      exact ⟨_, _, goes_over ha rfl nofun⟩
    | _ => cases h
  | cancelMinted stream outcome =>
    cases answer with
    | done =>
      cases h
      refine ⟨_, _, goes_over ha rfl ?_⟩
      rcases hs.late stream outcome (.inl ha) with rfl | rfl <;> nofun
    | _ => cases h
  | cancelAttached stream outcome =>
    cases answer with
    | done =>
      cases h
      have hlate : ∀ k, outcome ≠ .issued k := by
        rcases hs.late stream outcome (.inr ha) with rfl | rfl <;> nofun
      have hlast : ∀ k, none = (none : Option Await) →
          [Effect.returned outcome].getLast? ≠ some (.returned (.issued k)) := by
        intro k _ heq
        exact hlate k (Effect.returned.inj (Option.some.inj heq))
      have hquiet : ∀ e ∈ [Effect.returned outcome], e.isBatch = false :=
        fun _ he => List.mem_singleton.1 he ▸ rfl
      unfold State.afterCancelAttached
      dsimp only
      split_ifs
      · exact ⟨none, _, ha, (List.append_nil _).symm, rfl, rfl, hquiet, nofun, .inl ⟨rfl, hlast⟩⟩
      · exact ⟨none, _, ha, (List.append_nil _).symm, rfl, rfl, hquiet, nofun, .inl ⟨rfl, hlast⟩⟩
    | _ => cases h

/-! ### Steps -/

theorem Serial.afterMint (hs : Serial shown s) {request : Request} (hu : Unawaited s request)
    (hnew : .minted h ∉ s.calls) : Serial shown (s.afterMint request h) := by
  have hlate : ∀ o, o = .superseded ∨ o = .sessionEnded →
      Serial shown (((s.tell (.minted h)).tell (.skpCancel h)).await (.cancelMinted h o)) := by
    intro o ho
    have hr := (recedes_tell s (e := .minted h) rfl).trans
      (recedes_tell _ (e := .skpCancel h) rfl)
    apply (hs.recede hr).awaitCancel _ rfl rfl
    rintro k o' (hk | hk)
    · cases hk
      exact ho
    · cases hk
  unfold State.afterMint
  dsimp only
  split_ifs with hended hgeneration
  · exact hlate _ (.inr rfl)
  · exact hlate _ (.inl rfl)
  · exact hs.mint hnew (not_not.1 hgeneration) hu.fresh _

/-- The ticket whose attach has answered is started and is the last one shown, or it is
cancelled. -/
theorem Serial.afterAttach (hs : Serial shown s) {request : Request}
    (ha : .dataPlaneAttach request h ∈ s.awaiting) (attach : DataPlaneAttach)
    (heq : { s with awaiting := s.awaiting.erase (.dataPlaneAttach request h) }.afterAttach
      request h attach = s') :
    (s'.streams = s.streams ∧ Serial shown s') ∨
      (s'.streams = s.streams ++ [⟨h, request.filter⟩] ∧
        Serial (some ⟨h, request.filter⟩) s') := by
  have herase := hs.recede (recedes_erase s (.dataPlaneAttach request h))
  have hcancelled : ∀ o, o = .superseded ∨ o = .sessionEnded →
      Serial shown (({ s with awaiting := s.awaiting.erase (.dataPlaneAttach request h) }.tell
        (.skpCancel h)).await (.cancelAttached h o)) := by
    intro o ho
    apply (herase.recede (recedes_tell _ (e := .skpCancel h) rfl)).awaitCancel _ rfl rfl
    rintro k o' (hk | hk)
    · cases hk
    · cases hk
      exact ho
  rw [← heq]
  unfold State.afterAttach
  split_ifs with hended hgeneration
  · exact .inl ⟨rfl, hcancelled _ (.inr rfl)⟩
  · exact .inl ⟨rfl, hcancelled _ (.inl rfl)⟩
  · have hattaching := hs.attaching h (State.mem_attaching ha)
    have hcurrent : ∀ k, s.currentStreamHandle = some k → k = h := by
      intro k hk
      have hmine : (Await.dataPlaneAttach request h).generation? = some s.generation :=
        congrArg some (not_not.1 hgeneration)
      exact (Option.some.inj (hs.alone _ ha hmine k hk)).symm
    have hstarted := herase.start hattaching.1
      (not_mem_filterMap_erase hs.attaching_nodup ha rfl) hattaching.2 hcurrent request.filter
    have htold := hstarted.recede (recedes_tell _ (e := .startStream attach h) rfl)
    exact .inr ⟨rfl, htold.recede (recedes_tell _ rfl)⟩

theorem Serial.resume (hs : Serial shown s) {answer : Answer} (ha : a ∈ s.awaiting)
    (h : { s with awaiting := s.awaiting.erase a }.resume a answer = some s') :
    ((∀ request k, a = .dataPlaneAttach request k → s'.streams = s.streams) ∧ Serial shown s') ∨
      ∃ request k, a = .dataPlaneAttach request k ∧
        s'.streams = s.streams ++ [⟨k, request.filter⟩] ∧
        Serial (some ⟨k, request.filter⟩) s' := by
  have herase := hs.recede (recedes_erase s a)
  cases a with
  | cancelPrevious request =>
    cases answer with
    | done =>
      cases h
      refine .inl ⟨nofun, herase.finishSupersede fun r hr => ?_⟩
      exact ⟨hs.unawaited ha hr, hs.current_eq_none ha hr rfl⟩
    | _ => cases h
  | supersedeCurrent request =>
    cases answer with
    | done =>
      cases h
      refine .inl ⟨nofun, ?_⟩
      unfold State.afterSupersede
      split_ifs
      · exact herase.recede (recedes_tell _ rfl)
      · have hu := hs.unawaited ha rfl
        have htold := herase.recede (recedes_tell _ (e := .viewportQuery s.dataset request.bbox
          request.bboxCrs request.filter s.columns) rfl)
        exact htold.awaitNext _ rfl rfl hu.fresh hu.le (hs.current_eq_none ha rfl rfl)
    | _ => cases h
  | viewportQuery request =>
    cases answer with
    | minted stream =>
      unfold State.resume at h
      dsimp only at h
      split_ifs at h with hnew
      cases h
      rw [not_or] at hnew
      exact .inl ⟨nofun, herase.afterMint (hs.unawaited ha rfl) hnew.1⟩
    | rejected =>
      cases h
      exact .inl ⟨nofun, herase.recede (recedes_tell _ rfl)⟩
    | _ => cases h
  | dataPlaneAttach request stream =>
    cases answer with
    | attached attach =>
      cases h
      rcases hs.afterAttach ha attach rfl with ⟨hstreams, hs'⟩ | ⟨hstreams, hs'⟩
      · exact .inl ⟨fun _ _ _ => hstreams, hs'⟩
      · exact .inr ⟨request, stream, rfl, hstreams, hs'⟩
    | rejected =>
      cases h
      exact .inl ⟨fun _ _ _ => rfl, herase.recede (recedes_tell _ rfl)⟩
    | _ => cases h
  | cancelMinted stream outcome =>
    cases answer with
    | done =>
      cases h
      exact .inl ⟨nofun, herase.recede (recedes_tell _ rfl)⟩
    | _ => cases h
  | cancelAttached stream outcome =>
    cases answer with
    | done =>
      cases h
      exact .inl ⟨nofun, herase.recede (recedes_afterCancelAttached _ stream outcome)⟩
    | _ => cases h

/-- The last stream shown, after an answer. -/
theorem Serial.answer (hs : Serial shown s) {answer : Answer} {next : Option Await}
    {told : List Effect} (h : step s (.answer a answer) = some s') (hgoes : Goes s a s' next told) :
    (s'.streams = s.streams ∧ Serial shown s') ∨
      ∃ sink, s'.streams = s.streams ++ [sink] ∧ Serial (some sink) s' := by
  unfold ViewportStreamManager.step at h
  dsimp only at h
  split_ifs at h with ha
  rcases hs.resume ha h with ⟨hsame, hs'⟩ | ⟨request, k, -, hstreams, hs'⟩
  · rcases hgoes.started with ⟨hstreams, -⟩ | ⟨request, k, -, heq, -⟩
    · exact .inl ⟨hstreams, hs'⟩
    · exact .inl ⟨hsame request k heq, hs'⟩
  · exact .inr ⟨_, hstreams, hs'⟩

/-! ### Everything else -/

/-- A step that is neither a request nor an answer starts nothing, and hands on a batch only of the
last stream shown. -/
structure Carries (shown : Option Sink) (s s' : State) : Prop where
  serial : Serial shown s'
  awaiting : ∀ a ∈ s'.awaiting, a ∈ s.awaiting ∨ a.request? = none
  kept : s.awaiting ⊆ s'.awaiting
  generation : s.generation ≤ s'.generation
  streams : s'.streams.length ≤ s.streams.length
  calls : MoreCalls s.calls s'.calls ∨ ∃ sink n payload, shown = some sink ∧
    s'.calls = s.calls ++ [.onBatch sink.streamHandleAtStart n payload sink.filter]

theorem Serial.carries (hs : Serial shown s) (hr : Recedes s s')
    (hawaiting : s'.awaiting = s.awaiting) : Carries shown s s' where
  serial := hs.recede hr
  awaiting := fun _ ha => .inl (hawaiting ▸ ha)
  kept := hawaiting ▸ List.Subset.refl _
  generation := hr.generation.ge
  streams := hr.streams.length_le
  calls := .inl hr.calls

theorem awaiting_clearResidency (s : State) : s.clearResidency.awaiting = s.awaiting := by
  unfold State.clearResidency
  cases s.residentStreamHandle <;> rfl

theorem awaiting_endSession (s : State) (detail : String) :
    (s.endSession detail).awaiting = s.awaiting := by
  unfold State.endSession
  split_ifs
  · rfl
  · exact awaiting_clearResidency _

theorem awaiting_onTerminal (s : State) (sink : Sink) (terminal : Terminal) :
    (s.onTerminal sink terminal).awaiting = s.awaiting := by
  have hreport : ∀ t : State, (t.reportTerminal sink terminal).awaiting = t.awaiting := by
    intro t
    unfold State.reportTerminal
    split_ifs <;> rfl
  unfold State.onTerminal
  dsimp only
  rw [hreport]
  split_ifs
  · exact awaiting_endSession _ _
  · rfl

theorem Serial.carries_stop (hs : Serial shown s) : Carries shown s s.stop := by
  unfold State.stop
  rcases Option.eq_none_or_eq_some s.currentStreamHandle with hc | ⟨previous, hc⟩
  · have hstop := hs.stop
    unfold State.stop at hstop
    rw [supersedeCurrent_none (by exact hc)] at hstop ⊢
    have hr := recedes_clearResidency { s with stopped := true, generation := s.generation + 1 }
    have hawaiting := awaiting_clearResidency
      { s with stopped := true, generation := s.generation + 1 }
    exact {
      serial := hstop
      awaiting := fun a ha => .inl (hr.awaiting.subset ha)
      kept := fun _ ha => hawaiting.symm ▸ ha
      generation := Nat.le_trans (Nat.le_succ _) hr.generation.ge
      streams := hr.streams.length_le
      calls := .inl hr.calls }
  · have hstop := hs.stop
    unfold State.stop at hstop
    rw [supersedeCurrent_some (by exact hc)] at hstop ⊢
    exact {
      serial := hstop
      awaiting := by
        intro a ha
        rcases List.mem_append.1 ha with ha | ha
        · exact .inl ha
        · rw [List.mem_singleton.1 ha]
          exact .inr rfl
      kept := List.subset_append_left _ _
      generation := Nat.le_succ _
      streams := Nat.le_refl _
      calls := .inl (moreCalls_snoc _ rfl) }

theorem Serial.carries_onBatch (hs : Serial shown s) {sink : Sink} (hsink : sink ∈ s.streams)
    (payload : List UInt8) : Carries shown s (s.onBatch sink payload) := by
  unfold State.onBatch
  split_ifs with hlive hcurrent
  · exact hs.carries (recedes_refl s) rfl
  · exact hs.carries (recedes_refl s) rfl
  · have hgrow : s.calls ⊆ s.calls ++
        [.onBatch sink.streamHandleAtStart s.nextBatchSeq payload sink.filter] :=
      List.subset_append_left _ _
    exact {
      serial := { hs with
        current := fun h hh => hgrow (hs.current h hh)
        attaching := fun h hh => ⟨hgrow (hs.attaching h hh).1, (hs.attaching h hh).2⟩
        streams := fun k hk => hgrow (hs.streams k hk) }
      awaiting := fun a ha => .inl ha
      kept := List.Subset.refl _
      generation := Nat.le_refl _
      streams := Nat.le_refl _
      calls := .inr ⟨sink, s.nextBatchSeq, payload, hs.showing sink hsink (not_not.1 hcurrent), rfl⟩ }

theorem Serial.carries_step (hs : Serial shown s) {e : Event} (h : step s e = some s')
    (hrequest : ∀ bbox bboxCrs nowMs filter, e ≠ .requestViewport bbox bboxCrs nowMs filter)
    (hanswer : ∀ a answer, e ≠ .answer a answer) : Carries shown s s' := by
  cases e with
  | requestViewport bbox bboxCrs nowMs filter => exact absurd rfl (hrequest _ _ _ _)
  | answer a answer => exact absurd rfl (hanswer a answer)
  | cancelStream streamHandle =>
    cases h
    exact hs.carries (recedes_cancelStream s streamHandle) rfl
  | notifySessionEnded detail =>
    cases h
    exact hs.carries (recedes_endSession s detail) (awaiting_endSession s detail)
  | stop =>
    cases h
    exact hs.carries_stop
  | opened sink =>
    unfold ViewportStreamManager.step at h
    dsimp only at h
    split_ifs at h
    cases h
    unfold State.onOpen
    split_ifs
    · exact hs.carries (recedes_refl s) rfl
    · exact hs.carries (recedes_tell s rfl) rfl
  | batch sink payload =>
    unfold ViewportStreamManager.step at h
    dsimp only at h
    split_ifs at h with hsink
    cases h
    exact hs.carries_onBatch hsink payload
  | terminal sink terminal =>
    unfold ViewportStreamManager.step at h
    dsimp only at h
    split_ifs at h with hsink
    cases h
    have herase : Recedes s { s with streams := s.streams.erase sink } :=
      { recedes_refl s with streams := List.erase_sublist }
    exact hs.carries (herase.trans (recedes_onTerminal _ sink terminal))
      (awaiting_onTerminal _ sink terminal)

end

end SpatialIde.Shell.Streaming.ViewportStreamManager
