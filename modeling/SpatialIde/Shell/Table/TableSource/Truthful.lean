import SpatialIde.Shell.Table.TableSource.Sound

/-! # What the table shows

The rows held come from the stream of the latest start, and the phase says how that one went, in
every run where no start is overtaken while the cancel of its ticket is on its way.
-/

namespace SpatialIde.Shell.Table.TableSource

open Canvas Streaming Lib

/-! ### The statement -/

namespace Entry

/-- The owner has ended or disposed of the source. -/
def Ends : Entry → Prop
  | ended => True
  | disposed => True
  | _ => False

/-- Something is asked of the kernel or the data plane, or a row is added. -/
def Issues : Entry → Prop
  | viewportQuery .. => True
  | dataPlaneAttach .. => True
  | startStream .. => True
  | added .. => True
  | _ => False

end Entry

/-- The snapshot shows rows of the stream of the latest start and how that one went. -/
structure Truthful (d : Decoder) (s : State) : Prop where
  idle : (ledger s.log).latest = none → s.snapshot.blocks = [] ∧ s.snapshot.filter = none
  rows : ∀ mine filter, (ledger s.log).latest = some (mine, filter) →
    s.snapshot.filter = filter ∧ (s.snapshot.blocks = [] ∨
      ∃ stream, (mine, stream) ∈ (ledger s.log).minted ∧
        FromStream d s.opts stream filter ((ledger s.log).sentOn stream) s.snapshot.blocks)
  /-- A start has one stream, and a stream one start. -/
  starts_nodup : ((ledger s.log).minted.map Prod.fst).Nodup
  streams_nodup : ((ledger s.log).minted.map Prod.snd).Nodup
  count : s.snapshot.count = (rowsOf d.ipc s.snapshot.blocks).length
  ids : s.snapshot.ids = ((rowsOf d.ipc s.snapshot.blocks).map Prod.fst).toFinset
  rowAt : ∀ index row, (rowsOf d.ipc s.snapshot.blocks)[index]? = some row →
    s.snapshot.rowAt d.ipc index = row.2.map fun values => (some row.1, values)
  bytes : (s.snapshot.blocks.map Block.bytes).sum ≤ TABLE_MAX_ATTRIBUTE_BYTES
  completed : s.snapshot.phase = .completed → ∃ mine filter stream terminal,
    (ledger s.log).latest = some (mine, filter) ∧ (mine, stream) ∈ (ledger s.log).minted ∧
    (stream, terminal) ∈ (ledger s.log).terminals ∧ terminal.kind = .completed ∧
    FromStream d s.opts stream filter ((ledger s.log).sentOn stream) s.snapshot.blocks ∧
    s.snapshot.blocks.length = ((ledger s.log).sentOn stream).length
  refused : s.snapshot.phase = .refused → ∃ mine filter refusal,
    (ledger s.log).latest = some (mine, filter) ∧ s.snapshot.refusal = some refusal ∧
    (ledger s.log).Failed mine refusal
  tickets : ∀ mine stream, (mine, stream) ∈ (ledger s.log).minted →
    s.handle = some stream ∨ stream ∈ (ledger s.log).cancelled ∨
      stream ∈ (ledger s.log).terminals.map Prod.fst
  silent : s.log.Pairwise fun e f => e.Ends → ¬f.Issues

variable {d : Decoder} {s : State}

/-! ### After the end -/

/-- Once its owner is done with it the source has no handle and no start of it is current. -/
structure Quiet (s : State) : Prop where
  silent : s.log.Pairwise fun e f => e.Ends → ¬f.Issues
  told : (∃ e ∈ s.log, e.Ends) → s.disposed ∨ s.ended
  still : s.disposed ∨ s.ended → s.handle = none ∧ ∀ a ∈ s.awaiting, a.mine ≠ s.run

theorem quiet_new (opts : TableSourceOptions) : Quiet (.new opts) where
  silent := .nil
  told := nofun
  still := nofun

/-- The two facts about the log. -/
def Hushed (s : State) : Prop :=
  (s.log.Pairwise fun e f => e.Ends → ¬f.Issues) ∧
    ((∃ e ∈ s.log, e.Ends) → s.disposed ∨ s.ended)

/-- An entry of the log: what ends the source is marked, and what it asks comes before. -/
theorem Hushed.tell (h : Hushed s) {e : Entry} (hends : e.Ends → s.disposed ∨ s.ended)
    (hissues : e.Issues → ¬∃ a ∈ s.log, a.Ends) : Hushed (s.tell e) := by
  refine ⟨List.pairwise_append.2 ⟨h.1, List.pairwise_singleton _ _, ?_⟩, ?_⟩
  · intro a ha b hb hover hissue
    rw [List.mem_singleton.1 hb] at hissue
    exact hissues hissue ⟨a, ha, hover⟩
  · intro ⟨a, ha, hover⟩
    rcases List.mem_append.1 ha with ha | ha
    · exact h.2 ⟨a, ha, hover⟩
    · rw [List.mem_singleton.1 ha] at hover
      exact hends hover

theorem Hushed.cancelHeld (h : Hushed s) (handle : Option String) :
    Hushed (s.cancelHeld handle) := by
  cases handle with
  | none => exact h
  | some handle =>
    have hsame : Hushed { s with selfCancelled := insert handle s.selfCancelled } := h
    exact hsame.tell False.elim False.elim

namespace Quiet

theorem hushed (h : Quiet s) : Hushed s := ⟨h.silent, h.told⟩

theorem tell (h : Quiet s) {e : Entry} (hends : ¬e.Ends)
    (hissues : e.Issues → ¬(s.disposed ∨ s.ended)) : Quiet (s.tell e) := by
  have hushed := h.hushed.tell (fun he => absurd he hends) fun hi hover => hissues hi (h.told hover)
  exact ⟨hushed.1, hushed.2, h.still⟩

/-- No start is current once the count of the runs has gone up and no handle is held. -/
theorem of_stale (h : Hushed s) (hhandle : s.handle = none) (hlt : ∀ a ∈ s.awaiting, a.mine < s.run) :
    Quiet s :=
  ⟨h.1, h.2, fun _ => ⟨hhandle, fun a ha => Nat.ne_of_lt (hlt a ha)⟩⟩

/-- While its owner is not done with it nothing else is asked of the source. -/
theorem of_busy (h : Hushed s) (hbusy : ¬(s.disposed ∨ s.ended)) : Quiet s :=
  ⟨h.1, h.2, fun hdone => absurd hdone hbusy⟩

theorem start (h : Quiet s) (filter : Option Filter) : Quiet (s.start filter) := by
  rw [State.start]
  split
  · exact h
  · next hbusy =>
    have hushed : Hushed ((({ s with run := s.run + 1, handle := none }.tell
        (.started (s.run + 1) filter)).reset filter).setPhase .loading) :=
      Hushed.tell (s := { s with run := s.run + 1, handle := none }) h.hushed False.elim False.elim
    refine of_busy (hushed.cancelHeld s.handle) ?_
    cases s.handle <;> exact hbusy

theorem cancel (h : Hushed s) (hle : ∀ a ∈ s.awaiting, a.mine ≤ s.run) : Quiet s.cancel := by
  have hushed := Hushed.cancelHeld (s := { s with run := s.run + 1, handle := none }) h s.handle
  have hquiet : Quiet ({ s with run := s.run + 1, handle := none }.cancelHeld s.handle) := by
    refine of_stale hushed ?_ ?_
    · cases s.handle <;> rfl
    · intro a ha
      have hmem : a ∈ s.awaiting := by
        cases hhandle : s.handle <;> rw [hhandle] at ha <;> exact ha
      have hrun : ({ s with run := s.run + 1, handle := none }.cancelHeld s.handle).run =
          s.run + 1 := by
        cases s.handle <;> rfl
      rw [hrun]
      exact Nat.lt_succ_of_le (hle a hmem)
  rw [State.cancel]
  split
  · exact { hquiet with }
  · exact hquiet

theorem dispose (h : Quiet s) (hle : ∀ a ∈ s.awaiting, a.mine ≤ s.run) : Quiet s.dispose := by
  have hmark : Hushed { s with disposed := true } := ⟨h.silent, fun _ => .inl rfl⟩
  exact cancel (hmark.tell (fun _ => .inl rfl) False.elim) hle

theorem endSource (h : Quiet s) (hle : ∀ a ∈ s.awaiting, a.mine ≤ s.run) : Quiet s.endSource := by
  rw [State.endSource]
  split
  · exact h
  · have hmark : Hushed { s with ended := true, run := s.run + 1, handle := none } :=
      ⟨h.silent, fun _ => .inr rfl⟩
    have hushed := (hmark.tell (e := .ended) (fun _ => .inr rfl) False.elim).cancelHeld s.handle
    have hlt : ∀ a ∈ s.awaiting, a.mine < s.run + 1 := fun a ha => Nat.lt_succ_of_le (hle a ha)
    cases hhandle : s.handle with
    | none =>
      rw [hhandle] at hushed
      exact { of_stale hushed rfl hlt with }
    | some handle =>
      rw [hhandle] at hushed
      exact { of_stale hushed rfl hlt with }

theorem refuse (h : Quiet s) (err : CallError) : Quiet (s.refuse err) := by
  have hrefused : Quiet ({ s with refusal := some err.refusal }.setPhase .refused) := { h with }
  cases err with
  | skp error =>
    rw [State.refuse]
    split
    · exact hrefused.tell id False.elim
    · exact hrefused
  | other message => exact hrefused

/-- An answer to a start that waited. -/
theorem resume (h : Quiet s) {await : Await} {answer : Answer}
    (hstale : s.disposed ∨ s.ended → await.mine ≠ s.run) {s' : State}
    (hs' : s.resume await answer = some s') : Quiet s' := by
  have hbusy : await.mine = s.run → ¬(s.disposed ∨ s.ended) := fun hmine hdone => hstale hdone hmine
  cases await with
  | cancelPrevious mine filter =>
    cases answer with
    | done =>
      cases hs'
      rw [State.afterCancelPrevious]
      split
      · exact h
      · next hmine =>
        have hlive := hbusy (not_not.1 hmine)
        exact of_busy (h.tell id fun _ => hlive).hushed hlive
    | _ => cases hs'
  | viewportQuery mine filter =>
    cases answer with
    | minted stream =>
      rw [State.resume] at hs'
      split at hs'
      · cases hs'
      · cases hs'
        have htold : Quiet (s.tell (.minted mine stream)) := h.tell id False.elim
        rw [State.afterQuery]
        split
        · have hsame : Quiet { s.tell (.minted mine stream) with
            selfCancelled := insert stream s.selfCancelled } := { htold with }
          exact hsame.tell id False.elim
        · next hmine =>
          have hlive := hbusy (not_not.1 hmine)
          have hhandle : Quiet { s.tell (.minted mine stream) with handle := some stream } :=
            of_busy htold.hushed hlive
          exact of_busy (hhandle.tell id fun _ => hlive).hushed hlive
    | rejected err =>
      cases hs'
      have htold : Quiet (s.tell (.queryRejected mine err)) := h.tell id False.elim
      rw [State.afterQueryRejected]
      split
      · exact htold.refuse err
      · exact htold
    | _ => cases hs'
  | dataPlaneAttach mine filter stream =>
    cases answer with
    | attached attach =>
      cases hs'
      rw [State.afterAttach]
      split
      · exact h
      · next hmine =>
        have hlive := hbusy (not_not.1 hmine)
        have hstreams : Quiet { s with streams := s.streams ++ [Sink.mk stream filter 0] } :=
          { h with }
        exact hstreams.tell id fun _ => hlive
    | rejected err =>
      cases hs'
      have htold : Quiet (s.tell (.attachRejected mine err)) := h.tell id False.elim
      rw [State.afterAttachRejected]
      split
      · next hmine =>
        have hlive := hbusy hmine
        have hhandle : Hushed { s.tell (.attachRejected mine err) with
          handle := none, selfCancelled := insert stream s.selfCancelled } := htold.hushed
        exact of_busy (hhandle.tell False.elim False.elim) hlive
      · exact htold
    | _ => cases hs'
  | cancelUnattached mine err =>
    cases answer with
    | done =>
      cases hs'
      exact h.refuse err
    | _ => cases hs'

theorem terminal (h : Quiet s) (hle : ∀ a ∈ s.awaiting, a.mine ≤ s.run) (sink : Sink)
    (t : Terminal) : Quiet (s.onTerminal sink t) := by
  have hstreams : Quiet { s with streams := s.streams.erase sink } := { h with }
  have htold : Quiet ({ s with streams := s.streams.erase sink }.tell (.terminal sink.stream t)) :=
    hstreams.tell id False.elim
  rw [State.onTerminal, State.terminal]
  split
  · exact { htold with }
  · split
    · exact htold
    · have hdropped : Quiet { ({ s with streams := s.streams.erase sink }.tell
          (.terminal sink.stream t)) with handle := none } :=
        ⟨htold.silent, htold.told, fun hdone => ⟨rfl, (htold.still hdone).2⟩⟩
      rw [State.conclude]
      split
      · exact (hdropped.endSource hle).tell id False.elim
      · split
        · exact { hdropped with }
        · exact { hdropped with }

theorem onBatch (h : Quiet s) (hle : ∀ a ∈ s.awaiting, a.mine ≤ s.run) (sink : Sink)
    (payload : List UInt8) : Quiet (s.onBatch d sink payload) := by
  have htold : Quiet (s.tell (.sent sink.stream payload)) := h.tell id False.elim
  rw [State.onBatch]
  split
  · exact htold
  · next hheld =>
    have hlive : ¬(s.disposed ∨ s.ended) := by
      intro hdone
      refine absurd ((h.still hdone).1.symm.trans ?_) (Option.some_ne_none sink.stream).symm
      exact not_not.1 hheld
    split
    · exact htold.terminal hle sink _
    · next block hdecode =>
      rw [State.add]
      split
      · have hdropped : Hushed
            { s.tell (.sent sink.stream payload) with
              streams := s.streams.erase sink ++ [{ sink with seq := sink.seq + 1 }]
              handle := none
              selfCancelled := insert sink.stream s.selfCancelled } := htold.hushed
        exact { of_busy (hdropped.tell (e := .skpCancel sink.stream) False.elim False.elim) hlive with }
      · have hadded : Hushed (State.emit
            { s.tell (.sent sink.stream payload) with
              streams := s.streams.erase sink ++ [{ sink with seq := sink.seq + 1 }]
              starts := s.starts ++ [s.count]
              blocks := s.blocks ++ [block]
              idSet := s.idSet ∪ block.ids.toFinset
              count := s.count + block.ids.length
              held := s.held + block.bytes }) := htold.hushed
        exact of_busy (hadded.tell False.elim fun _ hover => hlive (htold.told hover)) hlive

end Quiet

/-! ### Runs -/

theorem good_step (h : Good d s) {e : Event} (he : NotOvertaken s e) {s' : State}
    (hs' : step d s e = some s') : Good d s' := by
  cases e with
  | start filter =>
    cases hs'
    exact h.start filter
  | cancel =>
    cases hs'
    exact h.cancel
  | endSource =>
    cases hs'
    exact h.endSource
  | dispose =>
    cases hs'
    exact h.dispose
  | answer await answer =>
    rw [step] at hs'
    split at hs'
    · next hawait =>
      have herase : Good d { s with awaiting := s.awaiting.erase await } := Sound.erase h await
      refine herase.resume (Sound.waits h await hawait) ?_ he hs'
      intro a ha heq
      have hsame := List.inj_on_of_nodup_map (Sound.once h) (List.mem_of_mem_erase ha) hawait heq
      exact (Sound.once h).of_map.not_mem_erase (hsame ▸ ha)
    · cases hs'
  | batch sink payload =>
    rw [step] at hs'
    split at hs'
    · next hsink =>
      cases hs'
      exact h.onBatch hsink payload
    · cases hs'
  | terminal sink t =>
    rw [step] at hs'
    split at hs'
    · next hsink =>
      cases hs'
      exact Good.terminal h hsink (.inl rfl) t fun _ => rfl
    · cases hs'

theorem quiet_step (h : Quiet s) (hle : ∀ a ∈ s.awaiting, a.mine ≤ s.run) {e : Event} {s' : State}
    (hs' : step d s e = some s') : Quiet s' := by
  cases e with
  | start filter =>
    cases hs'
    exact h.start filter
  | cancel =>
    cases hs'
    exact Quiet.cancel h.hushed hle
  | endSource =>
    cases hs'
    exact h.endSource hle
  | dispose =>
    cases hs'
    exact h.dispose hle
  | answer await answer =>
    rw [step] at hs'
    split at hs'
    · next hawait =>
      have herase : Quiet { s with awaiting := s.awaiting.erase await } :=
        ⟨h.silent, h.told, fun hdone =>
          ⟨(h.still hdone).1, fun a ha => (h.still hdone).2 a (List.mem_of_mem_erase ha)⟩⟩
      exact herase.resume (fun hdone => (h.still hdone).2 await hawait) hs'
    · cases hs'
  | batch sink payload =>
    rw [step] at hs'
    split at hs'
    · cases hs'
      exact h.onBatch hle sink payload
    · cases hs'
  | terminal sink t =>
    rw [step] at hs'
    split at hs'
    · cases hs'
      exact h.terminal hle sink t
    · cases hs'

/-- What the fields know of the log, seen on the snapshot. -/
theorem Good.truthful (h : Good d s) (hquiet : Quiet s) : Truthful d s := by
  have hrows : Rows s.snapshot.blocks s.snapshot.starts s.snapshot.ids s.snapshot.count s.held := by
    rw [Sound.shown h]
    exact Sound.rows h
  exact {
    idle := by
      intro hlatest
      rw [Sound.shown h]
      refine ⟨?_, ?_⟩
      · rcases Sound.source h with hnil | ⟨mine, filter, stream, hsome, -⟩
        · exact hnil
        · rw [hlatest] at hsome
          cases hsome
      · exact (Sound.filter h).trans (by rw [hlatest]; rfl)
    rows := by
      intro mine filter hlatest
      rw [Sound.shown h]
      refine ⟨(Sound.filter h).trans (by rw [hlatest]; rfl), ?_⟩
      rcases Sound.source h with hnil | ⟨m, f, stream, hsome, hminted, hfrom⟩
      · exact .inl hnil
      · rw [hlatest] at hsome
        cases hsome
        exact .inr ⟨stream, hminted, hfrom⟩
    starts_nodup := Sound.starts_nodup h
    streams_nodup := Sound.streams_nodup h
    count := by rw [length_rowsOf, hrows.count_eq]
    ids := by rw [hrows.idSet_eq, map_fst_rowsOf]
    rowAt := fun index row hrow => hrows.rowAt_eq d.ipc hrow
    bytes := hrows.held_eq ▸ hrows.within
    completed := by
      rw [Sound.shown h]
      exact Sound.completed h
    refused := by
      rw [Sound.shown h]
      exact Sound.refused h
    tickets := fun mine stream hminted => Sound.tickets h (mine, stream) hminted
    silent := hquiet.silent }

/-- In a run where no start is made between the rejection of the attach of the latest one and the
answer to the cancel of its ticket, the snapshot shows the latest start and says truly how it
went. -/
theorem run_reads (d : Decoder) (opts : TableSourceOptions) {es : List Event}
    (hes : Meets (step d) NotOvertaken (.new opts) es) {s : State}
    (hs : runFrom (step d) (.new opts) es = some s) : Truthful d s := by
  have hgood : Good d s ∧ Quiet s := by
    refine runFrom_keeps (I := fun s => Good d s ∧ Quiet s) ⟨.new d opts, quiet_new opts⟩ ?_
      hes hs
    intro t e t' ⟨hgood, hquiet⟩ he ht'
    exact ⟨good_step hgood he ht', quiet_step hquiet (fun a ha => Sound.mine_le hgood ha) ht'⟩
  exact hgood.1.truthful hgood.2

/-- A package that reads nothing. -/
def unreadable : Decoder where
  ipc := { tableFromIPC := fun _ => .error "not a table", tableToIPC := fun _ => [] }
  message _ := "not a table"

def townsOptions : TableSourceOptions := ⟨"towns", "geometry", ENCODING_POINT, none⟩

def large : Filter := ⟨"area > 10", "cql2"⟩

/-- A start without a filter that cannot attach; the cancel of its ticket is on its way. -/
def unattached : List Event :=
  [.start none, .answer (.cancelPrevious 1 none) .done,
    .answer (.viewportQuery 1 none) (.minted "a"),
    .answer (.dataPlaneAttach 1 none "a") (.rejected (.other "no data plane"))]

/-- One town, which the package reads off every batch. -/
def towns : Table where
  metadata := [("frame", EXPECTED_FRAME), ("geometry_encoding", ENCODING_POINT),
    ("attribute_columns", "[]")]
  columns := [⟨"id", .int [some 7]⟩,
    ⟨"geometry", .nested [some (.list [.number ⟨1⟩, .number ⟨2⟩])]⟩]
  numRows := 1
  filled := by decide

def readable : Decoder where
  ipc := { tableFromIPC := fun _ => .ok towns, tableToIPC := fun _ => [] }
  message _ := ""

/-- The cancel is answered, and the next start attaches. -/
def reattached : List Event :=
  unattached ++
    [.answer (.cancelUnattached 1 (.other "no data plane")) .done, .start (some large),
      .answer (.cancelPrevious 2 (some large)) .done,
      .answer (.viewportQuery 2 (some large)) (.minted "b"),
      .answer (.dataPlaneAttach 2 (some large) "b") (.attached ⟨"ws", "v", "tok"⟩)]

/-- The stream brings a batch and runs to its end. -/
def unhurried : List Event :=
  reattached ++ [.batch ⟨"b", some large, 0⟩ [1], .terminal ⟨"b", some large, 1⟩ ⟨.completed, ""⟩]

theorem run_reads_completed : ∃ s, runFrom (step readable) (.new townsOptions) unhurried =
    some s ∧ s.snapshot.phase = .completed ∧ s.snapshot.count = 1 ∧ Truthful readable s := by
  refine ⟨_, rfl, rfl, rfl, @run_reads readable townsOptions unhurried ?_ _ rfl⟩
  refine .cons trivial rfl ?_
  refine .cons trivial rfl ?_
  refine .cons trivial rfl ?_
  refine .cons trivial rfl ?_
  refine .cons ⟨none, rfl⟩ rfl ?_
  refine .cons trivial rfl ?_
  refine .cons trivial rfl ?_
  refine .cons trivial rfl ?_
  refine .cons trivial rfl ?_
  refine .cons trivial rfl ?_
  exact .cons trivial rfl meets_nil

/-- The next start comes before the cancel is answered: it is refused for the one before. -/
theorem run_overtaken : ∃ s, runFrom (step unreadable) (.new townsOptions) (unattached ++
    [.start (some large), .answer (.cancelPrevious 2 (some large)) .done,
      .answer (.cancelUnattached 1 (.other "no data plane")) .done]) = some s ∧
    ¬Truthful unreadable s := by
  refine ⟨_, rfl, fun h => ?_⟩
  obtain ⟨mine, filter, refusal, hlatest, -, hfailed⟩ := h.refused rfl
  cases hlatest
  rcases hfailed with ⟨err, hmem, -⟩ | ⟨stream, terminal, hminted, -⟩
  · rcases List.mem_singleton.1 hmem with ⟨⟩
  · rcases List.mem_singleton.1 hminted with ⟨⟩

end SpatialIde.Shell.Table.TableSource
