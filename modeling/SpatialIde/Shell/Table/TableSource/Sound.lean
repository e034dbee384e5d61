import SpatialIde.Lib.Runs
import SpatialIde.Shell.Table.TableSource.Rows

/-! # What the table's fields know of its log

The fields, the awaits and the running streams agree about what has happened so far.  Every method
of the source keeps this, as long as no start is overtaken while the cancel of its ticket is on its
way.
-/

namespace SpatialIde.Shell.Table

open Canvas Streaming Lib

namespace TableSource

/-! ### What the log comes to -/

/-- A record of the log so far. -/
structure Ledger where
  starts : List (Nat × Option Filter)
  minted : List (Nat × String)
  cancelled : List String
  sent : List (String × List UInt8)
  terminals : List (String × Terminal)
  /-- The rejected calls, by the start they were made for. -/
  failures : List (Nat × CallError)

namespace Ledger

def new : Ledger := ⟨[], [], [], [], [], []⟩

def note (l : Ledger) : Entry → Ledger
  | .started mine filter => { l with starts := l.starts ++ [(mine, filter)] }
  | .minted mine stream => { l with minted := l.minted ++ [(mine, stream)] }
  | .skpCancel stream => { l with cancelled := l.cancelled ++ [stream] }
  | .sent stream payload => { l with sent := l.sent ++ [(stream, payload)] }
  | .terminal stream terminal => { l with terminals := l.terminals ++ [(stream, terminal)] }
  | .queryRejected mine err => { l with failures := l.failures ++ [(mine, err)] }
  | .attachRejected mine err => { l with failures := l.failures ++ [(mine, err)] }
  | _ => l

def latest (l : Ledger) : Option (Nat × Option Filter) := l.starts.getLast?

/-- The batches a stream sent, in the order they came. -/
def sentOn (l : Ledger) (stream : String) : List (List UInt8) :=
  (l.sent.filter fun p => p.1 = stream).map Prod.snd

theorem sentOn_note_sent (l : Ledger) (stream : String) (payload : List UInt8) :
    (l.note (.sent stream payload)).sentOn stream = l.sentOn stream ++ [payload] := by
  simp [sentOn, note]

theorem sentOn_note_sent_of_ne {l : Ledger} {stream other : String} {payload : List UInt8}
    (h : stream ≠ other) : (l.note (.sent stream payload)).sentOn other = l.sentOn other := by
  simp [sentOn, note, h]

theorem sentOn_eq_nil {l : Ledger} {stream : String} (h : stream ∉ l.sent.map Prod.fst) :
    l.sentOn stream = [] := by
  rw [sentOn, List.map_eq_nil_iff, List.filter_eq_nil_iff]
  intro p hp hstream
  exact h (List.mem_map.2 ⟨p, hp, of_decide_eq_true hstream⟩)

/-- Why a start failed, as the table says it. -/
def Failed (l : Ledger) (mine : Nat) (refusal : FormattedRefusal) : Prop :=
  (∃ err, (mine, err) ∈ l.failures ∧ refusal = err.refusal) ∨
    ∃ stream terminal, (mine, stream) ∈ l.minted ∧ (stream, terminal) ∈ l.terminals ∧
      terminal.kind ≠ .completed ∧ refusal = formatTerminalRefusal terminal.detail

end Ledger

def ledger (log : List Entry) : Ledger := log.foldl Ledger.note .new

@[simp] theorem ledger_snoc (log : List Entry) (e : Entry) :
    ledger (log ++ [e]) = (ledger log).note e := by
  rw [ledger, List.foldl_append]
  rfl

theorem ledger_tell (s : State) (e : Entry) : ledger (s.tell e).log = (ledger s.log).note e :=
  ledger_snoc s.log e

theorem mem_minted {log : List Entry} {p : Nat × String} :
    p ∈ (ledger log).minted ↔ .minted p.1 p.2 ∈ log := by
  induction log using List.reverseRecOn with
  | nil => exact ⟨nofun, nofun⟩
  | append_singleton log e ih =>
    rw [ledger_snoc, List.mem_append, List.mem_singleton, ← ih]
    cases e <;> simp [Ledger.note, Prod.ext_iff]

/-- The blocks are those of the first batches the stream sent, in the order they came. -/
def FromStream (d : Decoder) (opts : TableSourceOptions) (stream : String) (filter : Option Filter)
    (sent : List (List UInt8)) (blocks : List Block) : Prop :=
  ∀ i block, blocks[i]? = some block → ∃ payload, sent[i]? = some payload ∧
    decodeBlock d opts stream filter i payload = .ok block

theorem fromStream_nil {d : Decoder} {opts : TableSourceOptions} {stream : String}
    {filter : Option Filter} {sent : List (List UInt8)} :
    FromStream d opts stream filter sent [] := nofun

theorem FromStream.more {d : Decoder} {opts : TableSourceOptions} {stream : String}
    {filter : Option Filter} {sent more : List (List UInt8)} {blocks : List Block}
    (h : FromStream d opts stream filter sent blocks) :
    FromStream d opts stream filter (sent ++ more) blocks := by
  intro i block hblock
  obtain ⟨payload, hsent, hdecode⟩ := h i block hblock
  obtain ⟨hi, -⟩ := List.getElem?_eq_some_iff.1 hsent
  exact ⟨payload, by rw [List.getElem?_append_left hi, hsent], hdecode⟩

/-! ### The invariant -/

def Await.mine : Await → Nat
  | cancelPrevious mine _ => mine
  | viewportQuery mine _ => mine
  | dataPlaneAttach mine _ _ => mine
  | cancelUnattached mine _ => mine

/-- The start has not come to a ticket, and nothing is held for it. -/
def Unminted (l : Ledger) (run : Nat) (handle : Option String) (blocks : List Block) (mine : Nat)
    (filter : Option Filter) : Prop :=
  (mine, filter) ∈ l.starts ∧ mine ∉ l.minted.map Prod.fst ∧
    (mine = run → handle = none ∧ blocks = [])

/-- What is so as long as a start waits. -/
def Waits (l : Ledger) (run : Nat) (handle : Option String) (blocks : List Block)
    (streams : List Sink) : Await → Prop
  | .cancelPrevious mine filter => Unminted l run handle blocks mine filter
  | .viewportQuery mine filter => Unminted l run handle blocks mine filter
  | .dataPlaneAttach mine filter stream =>
    (mine, filter) ∈ l.starts ∧ (mine, stream) ∈ l.minted ∧ stream ∉ l.sent.map Prod.fst ∧
      stream ∉ l.terminals.map Prod.fst ∧ stream ∉ streams.map Sink.stream ∧
      (mine = run → handle = some stream ∧ blocks = [])
  | .cancelUnattached mine err => (∃ filter, (mine, filter) ∈ l.starts) ∧ (mine, err) ∈ l.failures

/-- What is so of the handle held; `due` batches of its stream have not been added yet. -/
structure Held (d : Decoder) (opts : TableSourceOptions) (l : Ledger) (due run : Nat)
    (selfCancelled : Finset String) (blocks : List Block) (stream : String) : Prop where
  minted : (run, stream) ∈ l.minted
  calm : stream ∉ selfCancelled
  running : stream ∉ l.terminals.map Prod.fst
  whole : ∃ filter, (run, filter) ∈ l.starts ∧
    FromStream d opts stream filter (l.sentOn stream) blocks
  length_eq : blocks.length + due = (l.sentOn stream).length

/-- What is so of a stream that runs. -/
structure Runs (l : Ledger) (handle : Option String) (blocks : List Block) (sink : Sink) :
    Prop where
  source : ∃ mine, (mine, sink.filter) ∈ l.starts ∧ (mine, sink.stream) ∈ l.minted
  running : sink.stream ∉ l.terminals.map Prod.fst
  seq : handle = some sink.stream → sink.seq = blocks.length

/-- The fields, the awaits and the streams agree about what has happened so far. -/
structure Sound (d : Decoder) (l : Ledger) (due : Nat) (s : State) : Prop where
  shown : s.snapshot = s.shown
  rows : Rows s.blocks s.starts s.idSet s.count s.held
  numbered : ∀ p ∈ l.starts, p.1 ≤ s.run
  current : ∀ p ∈ l.starts, p.1 = s.run → l.latest = some p
  filter : s.filter = l.latest.elim none Prod.snd
  source : s.blocks = [] ∨ ∃ mine filter stream, l.latest = some (mine, filter) ∧
    (mine, stream) ∈ l.minted ∧ FromStream d s.opts stream filter (l.sentOn stream) s.blocks
  waits : ∀ a ∈ s.awaiting, Waits l s.run s.handle s.blocks s.streams a
  once : (s.awaiting.map Await.mine).Nodup
  minted_le : ∀ p ∈ l.minted, p.1 ≤ s.run
  starts_nodup : (l.minted.map Prod.fst).Nodup
  streams_nodup : (l.minted.map Prod.snd).Nodup
  sent_named : ∀ h ∈ l.sent.map Prod.fst, h ∈ l.minted.map Prod.snd
  terminals_named : ∀ h ∈ l.terminals.map Prod.fst, h ∈ l.minted.map Prod.snd
  cancelled_named : ∀ h ∈ s.selfCancelled, h ∈ l.minted.map Prod.snd
  runs : ∀ sink ∈ s.streams, Runs l s.handle s.blocks sink
  sinks_nodup : (s.streams.map Sink.stream).Nodup
  held : ∀ stream, s.handle = some stream →
    Held d s.opts l due s.run s.selfCancelled s.blocks stream
  completed : s.phase = .completed → ∃ mine filter stream terminal,
    l.latest = some (mine, filter) ∧ (mine, stream) ∈ l.minted ∧
    (stream, terminal) ∈ l.terminals ∧ terminal.kind = .completed ∧
    FromStream d s.opts stream filter (l.sentOn stream) s.blocks ∧
    s.blocks.length = (l.sentOn stream).length
  refused : s.phase = .refused → ∃ mine filter refusal, l.latest = some (mine, filter) ∧
    s.refusal = some refusal ∧ l.Failed mine refusal
  tickets : ∀ p ∈ l.minted, s.handle = some p.2 ∨ p.2 ∈ l.cancelled ∨
    p.2 ∈ l.terminals.map Prod.fst

theorem sound_new (d : Decoder) (opts : TableSourceOptions) : Sound d .new 0 (.new opts) where
  shown := rfl
  rows := rows_nil
  numbered := nofun
  current := nofun
  filter := rfl
  source := .inl rfl
  waits := nofun
  once := List.nodup_nil
  minted_le := nofun
  starts_nodup := List.nodup_nil
  streams_nodup := List.nodup_nil
  sent_named := nofun
  terminals_named := nofun
  cancelled_named := nofun
  runs := nofun
  sinks_nodup := List.nodup_nil
  held := nofun
  completed := nofun
  refused := nofun
  tickets := nofun

variable {d : Decoder} {l : Ledger} {due : Nat} {s : State}

/-! ### What follows from it -/

theorem minted_inj {m m' : Nat} {stream : String} (h : (l.minted.map Prod.snd).Nodup)
    (hm : (m, stream) ∈ l.minted) (hm' : (m', stream) ∈ l.minted) : m = m' :=
  congrArg Prod.fst (List.inj_on_of_nodup_map h hm hm' rfl)

theorem stream_unique {m : Nat} {stream stream' : String} (h : (l.minted.map Prod.fst).Nodup)
    (hm : (m, stream) ∈ l.minted) (hm' : (m, stream') ∈ l.minted) : stream = stream' :=
  congrArg Prod.snd (List.inj_on_of_nodup_map h hm hm' rfl)

theorem mem_minted_snd {m : Nat} {stream : String} (h : (m, stream) ∈ l.minted) :
    stream ∈ l.minted.map Prod.snd := List.mem_map.2 ⟨_, h, rfl⟩

namespace Sound

/-- A start that waits has been made. -/
theorem mine_le (h : Sound d l due s) {a : Await} (ha : a ∈ s.awaiting) : a.mine ≤ s.run := by
  have hw := h.waits a ha
  cases a with
  | cancelPrevious mine filter => exact h.numbered _ hw.1
  | viewportQuery mine filter => exact h.numbered _ hw.1
  | dataPlaneAttach mine filter stream => exact h.numbered _ hw.1
  | cancelUnattached mine err =>
    obtain ⟨⟨filter, hstart⟩, -⟩ := hw
    exact h.numbered _ hstart

/-- The handle held is of the latest start, and so is the stream it was started with. -/
theorem latest_of_held (h : Sound d l due s) {stream : String} (hhandle : s.handle = some stream) :
    ∃ filter, l.latest = some (s.run, filter) ∧
      FromStream d s.opts stream filter (l.sentOn stream) s.blocks := by
  obtain ⟨filter, hstart, hfrom⟩ := (h.held stream hhandle).whole
  exact ⟨filter, h.current _ hstart rfl, hfrom⟩

/-- While a stream runs for the handle held, no start waits for its ticket or to attach. -/
theorem waits_of_runs (h : Sound d l due s) {sink : Sink} (hsink : sink ∈ s.streams)
    (hhandle : s.handle = some sink.stream) (handle : Option String) (blocks : List Block) :
    ∀ a ∈ s.awaiting, Waits l s.run handle blocks s.streams a := by
  intro a ha
  have hw := h.waits a ha
  cases a with
  | cancelPrevious mine filter =>
    refine ⟨hw.1, hw.2.1, fun hmine => ?_⟩
    rw [hhandle] at hw
    cases (hw.2.2 hmine).1
  | viewportQuery mine filter =>
    refine ⟨hw.1, hw.2.1, fun hmine => ?_⟩
    rw [hhandle] at hw
    cases (hw.2.2 hmine).1
  | dataPlaneAttach mine filter stream =>
    obtain ⟨hstart, hminted, hsent, hterminal, hstream, hheld⟩ := hw
    refine ⟨hstart, hminted, hsent, hterminal, hstream, fun hmine => ?_⟩
    have hsame := (hheld hmine).1
    rw [hhandle, Option.some.injEq] at hsame
    exact absurd (List.mem_map.2 ⟨sink, hsink, hsame⟩) hstream
  | cancelUnattached mine err => exact hw

end Sound

/-- A start that is not the current one waits through anything the others do. -/
theorem Waits.past {run run' : Nat} {handle handle' : Option String} {blocks blocks' : List Block}
    {streams : List Sink} {a : Await} (h : Waits l run handle blocks streams a)
    (hne : a.mine ≠ run') : Waits l run' handle' blocks' streams a := by
  cases a with
  | cancelPrevious mine filter => exact ⟨h.1, h.2.1, fun hmine => absurd hmine hne⟩
  | viewportQuery mine filter => exact ⟨h.1, h.2.1, fun hmine => absurd hmine hne⟩
  | dataPlaneAttach mine filter stream =>
    exact ⟨h.1, h.2.1, h.2.2.1, h.2.2.2.1, h.2.2.2.2.1, fun hmine => absurd hmine hne⟩
  | cancelUnattached mine err => exact h

theorem not_mem_minted_of_handedOut {stream : String} (h : ¬s.handedOut stream = true) :
    stream ∉ (ledger s.log).minted.map Prod.snd := by
  intro hmem
  obtain ⟨⟨mine, name⟩, hp, rfl⟩ := List.mem_map.1 hmem
  refine h (List.any_eq_true.2 ⟨.minted mine name, mem_minted.1 hp, ?_⟩)
  exact decide_eq_true rfl

/-! ### Moves of the fields -/

namespace Sound

/-- The log itself is not looked at, nor are the marks of an owner that is done. -/
theorem mark (h : Sound d l due s) (log : List Entry) (disposed ended : Bool) :
    Sound d l due { s with log := log, disposed := disposed, ended := ended } := { h with }

theorem unheld (h : Sound d l due s) (hhandle : s.handle = none) (due' : Nat) :
    Sound d l due' s where
  __ := h
  held := by
    intro stream hstream
    rw [hhandle] at hstream
    cases hstream

theorem erase (h : Sound d l due s) (a : Await) :
    Sound d l due { s with awaiting := s.awaiting.erase a } where
  __ := h
  waits b hb := h.waits b (List.mem_of_mem_erase hb)
  once := h.once.sublist (List.erase_sublist.map _)

theorem await (h : Sound d l due s) {a : Await}
    (ha : Waits l s.run s.handle s.blocks s.streams a)
    (hnew : a.mine ∉ s.awaiting.map Await.mine) : Sound d l due (s.await a) where
  __ := h
  waits := forall_snoc h.waits ha
  once := nodup_map_snoc h.once hnew

theorem setPhase (h : Sound d l due s) {phase : TablePhase} (hcompleted : phase ≠ .completed)
    (hrefused : phase ≠ .refused) : Sound d l due (s.setPhase phase) where
  __ := h
  shown := rfl
  completed hphase := absurd hphase hcompleted
  refused hphase := absurd hphase hrefused

/-- The source lets go of its handle and cancels it, and no start is current any more. -/
theorem letGo (h : Sound d (ledger s.log) due s) :
    Sound d (ledger ({ s with run := s.run + 1, handle := none }.cancelHeld s.handle).log) 0
      ({ s with run := s.run + 1, handle := none }.cancelHeld s.handle) := by
  have hwaits : ∀ (handle : Option String), ∀ a ∈ s.awaiting,
      Waits (ledger s.log) (s.run + 1) handle s.blocks s.streams a := by
    intro handle a ha
    have hle := h.mine_le ha
    exact (h.waits a ha).past (by omega)
  have hstale : ∀ p ∈ (ledger s.log).starts, p.1 = s.run + 1 → (ledger s.log).latest = some p := by
    intro p hp hrun
    have hle := h.numbered p hp
    omega
  rcases hhandle : s.handle with _ | stream
  · exact {
      h with
      numbered := fun p hp => Nat.le_succ_of_le (h.numbered p hp)
      current := hstale
      waits := hwaits none
      minted_le := fun p hp => Nat.le_succ_of_le (h.minted_le p hp)
      runs := fun sink hsink => { h.runs sink hsink with seq := nofun }
      held := nofun
      tickets := fun p hp => (h.tickets p hp).imp_left (by rw [hhandle]; exact id) }
  · have hheld := h.held stream hhandle
    rw [State.cancelHeld, State.cancelHandle, State.tell, ledger_snoc]
    exact {
      h with
      numbered := fun p hp => Nat.le_succ_of_le (h.numbered p hp)
      current := hstale
      waits := hwaits none
      minted_le := fun p hp => Nat.le_succ_of_le (h.minted_le p hp)
      cancelled_named := fun k hk => by
        rcases Finset.mem_insert.1 hk with rfl | hk
        · exact mem_minted_snd hheld.minted
        · exact h.cancelled_named k hk
      runs := fun sink hsink => { h.runs sink hsink with seq := nofun }
      held := nofun
      tickets := fun p hp => by
        rcases h.tickets p hp with hp | hp | hp
        · rw [hhandle, Option.some.injEq] at hp
          exact .inr (.inl (hp ▸ mem_snoc))
        · exact .inr (.inl (List.mem_append_left _ hp))
        · exact .inr (.inr hp) }

/-- The rows are cleared, once no handle is held. -/
theorem clear (h : Sound d l due s) (hhandle : s.handle = none) :
    Sound d l due ((s.reset s.filter).setPhase .ended) where
  __ := h
  shown := rfl
  rows := rows_nil
  source := .inl rfl
  waits := by
    intro a ha
    have hw := h.waits a ha
    cases a with
    | cancelPrevious mine filter =>
      exact ⟨hw.1, hw.2.1, fun hmine => ⟨(hw.2.2 hmine).1, rfl⟩⟩
    | viewportQuery mine filter =>
      exact ⟨hw.1, hw.2.1, fun hmine => ⟨(hw.2.2 hmine).1, rfl⟩⟩
    | dataPlaneAttach mine filter stream =>
      exact ⟨hw.1, hw.2.1, hw.2.2.1, hw.2.2.2.1, hw.2.2.2.2.1,
        fun hmine => ⟨(hw.2.2.2.2.2 hmine).1, rfl⟩⟩
    | cancelUnattached mine err => exact hw
  runs sink hsink :=
    { h.runs sink hsink with
      seq := fun hheld => by
        rw [show s.handle = some sink.stream from hheld] at hhandle
        cases hhandle }
  held := by
    intro stream hstream
    rw [show s.handle = some stream from hstream] at hhandle
    cases hhandle
  completed := by
    intro hphase
    cases hphase
  refused := by
    intro hphase
    cases hphase

/-- A start: the rows are cleared and it is the latest one. -/
theorem begin (h : Sound d l due s) (hhandle : s.handle = none) (hrun : ∀ p ∈ l.starts, p.1 < s.run)
    (hminted : ∀ p ∈ l.minted, p.1 < s.run) (hawait : ∀ a ∈ s.awaiting, a.mine < s.run)
    (filter : Option Filter) :
    Sound d (l.note (.started s.run filter)) due
      (((s.reset filter).setPhase .loading).await (.cancelPrevious s.run filter)) where
  __ := h
  shown := rfl
  rows := rows_nil
  numbered := forall_snoc (fun p hp => Nat.le_of_lt (hrun p hp)) (Nat.le_refl _)
  current := by
    intro p hp hnow
    rcases List.mem_append.1 hp with hp | hp
    · exact absurd hnow (Nat.ne_of_lt (hrun p hp))
    · rw [List.mem_singleton.1 hp]
      exact List.getLast?_concat
  filter := by
    rw [Ledger.latest, Ledger.note, List.getLast?_concat]
    rfl
  source := .inl rfl
  waits := by
    refine forall_snoc (fun a ha => ?_) ?_
    · have hw : Waits l s.run s.handle [] s.streams a :=
        (h.waits a ha).past (Nat.ne_of_lt (hawait a ha))
      cases a with
      | cancelPrevious mine filter => exact ⟨List.mem_append_left _ hw.1, hw.2⟩
      | viewportQuery mine filter => exact ⟨List.mem_append_left _ hw.1, hw.2⟩
      | dataPlaneAttach mine filter stream => exact ⟨List.mem_append_left _ hw.1, hw.2⟩
      | cancelUnattached mine err =>
        obtain ⟨⟨filter, hstart⟩, hfailed⟩ := hw
        exact ⟨⟨filter, List.mem_append_left _ hstart⟩, hfailed⟩
    · refine ⟨mem_snoc, ?_, fun _ => ⟨hhandle, rfl⟩⟩
      intro hmem
      obtain ⟨p, hp, heq⟩ := List.mem_map.1 hmem
      exact absurd heq (Nat.ne_of_lt (hminted p hp))
  once := by
    refine nodup_map_snoc h.once fun hmem => ?_
    obtain ⟨a, ha, heq⟩ := List.mem_map.1 hmem
    exact absurd heq (Nat.ne_of_lt (hawait a ha))
  runs sink hsink := by
    obtain ⟨⟨mine, hstart, hminted⟩, hrunning, -⟩ := h.runs sink hsink
    refine ⟨⟨mine, List.mem_append_left _ hstart, hminted⟩, hrunning, fun hheld => ?_⟩
    rw [show s.handle = some sink.stream from hheld] at hhandle
    cases hhandle
  held := by
    intro stream hstream
    rw [show s.handle = some stream from hstream] at hhandle
    cases hhandle
  completed := by
    intro hphase
    cases hphase
  refused := by
    intro hphase
    cases hphase

/-! ### Moves of a start -/

/-- The awaits of the other starts, once a ticket has been minted for one of them. -/
theorem waits_minted (h : Sound d l due s) {mine : Nat} {stream : String}
    (hothers : ∀ a ∈ s.awaiting, a.mine ≠ mine) :
    ∀ a ∈ s.awaiting, Waits (l.note (.minted mine stream)) s.run s.handle s.blocks s.streams a := by
  intro a ha
  have hw := h.waits a ha
  have hne := hothers a ha
  cases a with
  | cancelPrevious other filter => exact ⟨hw.1, not_mem_map_snoc hw.2.1 hne, hw.2.2⟩
  | viewportQuery other filter => exact ⟨hw.1, not_mem_map_snoc hw.2.1 hne, hw.2.2⟩
  | dataPlaneAttach other filter name => exact ⟨hw.1, List.mem_append_left _ hw.2.1, hw.2.2⟩
  | cancelUnattached other err => exact hw

/-- A ticket that comes too late is cancelled. -/
theorem mintLate (h : Sound d l due s) {mine : Nat} {stream : String} (hmine : mine ≤ s.run)
    (hothers : ∀ a ∈ s.awaiting, a.mine ≠ mine) (hunminted : mine ∉ l.minted.map Prod.fst)
    (hfresh : stream ∉ l.minted.map Prod.snd) :
    Sound d ((l.note (.minted mine stream)).note (.skpCancel stream)) due
      { s with selfCancelled := insert stream s.selfCancelled } where
  __ := h
  source := by
    obtain hnil | ⟨m, filter, name, hlatest, hminted, hfrom⟩ := h.source
    · exact .inl hnil
    · exact .inr ⟨m, filter, name, hlatest, List.mem_append_left _ hminted, hfrom⟩
  waits := h.waits_minted hothers
  minted_le := forall_snoc h.minted_le hmine
  starts_nodup := nodup_map_snoc h.starts_nodup hunminted
  streams_nodup := nodup_map_snoc h.streams_nodup hfresh
  sent_named k hk := mem_map_snoc (h.sent_named k hk)
  terminals_named k hk := mem_map_snoc (h.terminals_named k hk)
  cancelled_named k hk := by
    rcases Finset.mem_insert.1 hk with rfl | hk
    · exact List.mem_map.2 ⟨_, mem_snoc, rfl⟩
    · exact mem_map_snoc (h.cancelled_named k hk)
  runs sink hsink := by
    obtain ⟨⟨m, hstart, hminted⟩, hrunning, hseq⟩ := h.runs sink hsink
    exact ⟨⟨m, hstart, List.mem_append_left _ hminted⟩, hrunning, hseq⟩
  held k hk := by
    obtain ⟨hminted, hcalm, hrunning, hwhole, hlength⟩ := h.held k hk
    refine ⟨List.mem_append_left _ hminted, ?_, hrunning, hwhole, hlength⟩
    intro hmem
    rcases Finset.mem_insert.1 hmem with rfl | hmem
    · exact hfresh (mem_minted_snd hminted)
    · exact hcalm hmem
  completed hphase := by
    obtain ⟨m, filter, name, terminal, hlatest, hminted, hrest⟩ := h.completed hphase
    exact ⟨m, filter, name, terminal, hlatest, List.mem_append_left _ hminted, hrest⟩
  refused hphase := by
    obtain ⟨m, filter, refusal, hlatest, hrefusal, hfailed⟩ := h.refused hphase
    refine ⟨m, filter, refusal, hlatest, hrefusal, hfailed.imp_right ?_⟩
    intro ⟨name, terminal, hminted, hrest⟩
    exact ⟨name, terminal, List.mem_append_left _ hminted, hrest⟩
  tickets := by
    refine forall_snoc (fun p hp => ?_) (.inr (.inl mem_snoc))
    rcases h.tickets p hp with hp | hp | hp
    · exact .inl hp
    · exact .inr (.inl (List.mem_append_left _ hp))
    · exact .inr (.inr hp)

/-- The ticket of the latest start becomes the handle held. -/
theorem mint (h : Sound d l due s) {mine : Nat} {filter : Option Filter} {stream : String}
    (hmine : mine = s.run) (hothers : ∀ a ∈ s.awaiting, a.mine ≠ mine)
    (hwaits : Unminted l s.run s.handle s.blocks mine filter)
    (hfresh : stream ∉ l.minted.map Prod.snd) :
    Sound d (l.note (.minted mine stream)) 0
      ({ s with handle := some stream }.await (.dataPlaneAttach mine filter stream)) := by
  obtain ⟨hstart, hunminted, hidle⟩ := hwaits
  obtain ⟨hhandle, hblocks⟩ := hidle hmine
  have hsent : stream ∉ l.sent.map Prod.fst := fun hmem => hfresh (h.sent_named _ hmem)
  have hterminal : stream ∉ l.terminals.map Prod.fst := fun hmem => hfresh (h.terminals_named _ hmem)
  have hstream : stream ∉ s.streams.map Sink.stream := by
    intro hmem
    obtain ⟨sink, hsink, heq⟩ := List.mem_map.1 hmem
    obtain ⟨⟨m, -, hminted⟩, -, -⟩ := h.runs sink hsink
    exact hfresh (heq ▸ mem_minted_snd hminted)
  exact {
    h with
    source := .inl hblocks
    waits := by
      refine forall_snoc (fun a ha => ?_) ?_
      · exact (h.waits_minted hothers a ha).past (fun heq => hothers a ha (heq.trans hmine.symm))
      · exact ⟨hstart, mem_snoc, hsent, hterminal, hstream, fun _ => ⟨rfl, hblocks⟩⟩
    once := by
      refine nodup_map_snoc h.once fun hmem => ?_
      obtain ⟨a, ha, heq⟩ := List.mem_map.1 hmem
      exact hothers a ha heq
    minted_le := forall_snoc h.minted_le (Nat.le_of_eq hmine)
    starts_nodup := nodup_map_snoc h.starts_nodup hunminted
    streams_nodup := nodup_map_snoc h.streams_nodup hfresh
    sent_named := fun k hk => mem_map_snoc (h.sent_named k hk)
    terminals_named := fun k hk => mem_map_snoc (h.terminals_named k hk)
    cancelled_named := fun k hk => mem_map_snoc (h.cancelled_named k hk)
    runs := by
      intro sink hsink
      obtain ⟨⟨m, hsource, hminted⟩, hrunning, -⟩ := h.runs sink hsink
      refine ⟨⟨m, hsource, List.mem_append_left _ hminted⟩, hrunning, fun hheld => ?_⟩
      exact absurd (List.mem_map.2 ⟨sink, hsink, (Option.some.inj hheld).symm⟩) hstream
    held := by
      intro k hk
      cases hk
      refine ⟨hmine ▸ mem_snoc, fun hmem => hfresh (h.cancelled_named _ hmem), hterminal, ?_, ?_⟩
      · refine ⟨filter, hmine ▸ hstart, ?_⟩
        rw [show s.blocks = [] from hblocks]
        exact fromStream_nil
      · rw [show s.blocks = [] from hblocks]
        exact (congrArg List.length (Ledger.sentOn_eq_nil hsent)).symm
    completed := by
      intro hphase
      obtain ⟨m, f, name, terminal, hlatest, hminted, hrest⟩ := h.completed hphase
      exact ⟨m, f, name, terminal, hlatest, List.mem_append_left _ hminted, hrest⟩
    refused := by
      intro hphase
      obtain ⟨m, f, refusal, hlatest, hrefusal, hfailed⟩ := h.refused hphase
      refine ⟨m, f, refusal, hlatest, hrefusal, hfailed.imp_right ?_⟩
      intro ⟨name, terminal, hminted, hrest⟩
      exact ⟨name, terminal, List.mem_append_left _ hminted, hrest⟩
    tickets := by
      refine forall_snoc (fun p hp => ?_) (.inl rfl)
      rcases h.tickets p hp with hheld | hp
      · rw [hhandle] at hheld
        cases hheld
      · exact .inr hp }

/-- A rejected call is on record. -/
theorem fail (h : Sound d l due s) (mine : Nat) (err : CallError) :
    Sound d { l with failures := l.failures ++ [(mine, err)] } due s where
  __ := h
  waits a ha := by
    have hw := h.waits a ha
    cases a with
    | cancelPrevious other filter => exact hw
    | viewportQuery other filter => exact hw
    | dataPlaneAttach other filter stream => exact hw
    | cancelUnattached other error => exact ⟨hw.1, List.mem_append_left _ hw.2⟩
  runs sink hsink := { h.runs sink hsink with }
  held stream hstream := { h.held stream hstream with }
  refused hphase := by
    obtain ⟨m, f, refusal, hlatest, hrefusal, hfailed⟩ := h.refused hphase
    refine ⟨m, f, refusal, hlatest, hrefusal, hfailed.imp_left ?_⟩
    intro ⟨error, hmem, heq⟩
    exact ⟨error, List.mem_append_left _ hmem, heq⟩

/-- The latest start is refused for a failure of its own. -/
theorem refuse (h : Sound d l due s) {mine : Nat} {filter : Option Filter}
    {refusal : FormattedRefusal} (hlatest : l.latest = some (mine, filter))
    (hfailed : l.Failed mine refusal) :
    Sound d l due ({ s with refusal := some refusal }.setPhase .refused) where
  __ := h
  shown := rfl
  completed := by
    intro hphase
    cases hphase
  refused _ := ⟨mine, filter, refusal, hlatest, rfl, hfailed⟩

/-- The latest start is complete. -/
theorem complete (h : Sound d l due s) {mine : Nat} {filter : Option Filter} {stream : String}
    {t : Terminal} (hlatest : l.latest = some (mine, filter)) (hminted : (mine, stream) ∈ l.minted)
    (hterminal : (stream, t) ∈ l.terminals) (hkind : t.kind = .completed)
    (hfrom : FromStream d s.opts stream filter (l.sentOn stream) s.blocks)
    (hlength : s.blocks.length = (l.sentOn stream).length) :
    Sound d l due (s.setPhase .completed) where
  __ := h
  shown := rfl
  completed _ := ⟨mine, filter, stream, t, hlatest, hminted, hterminal, hkind, hfrom, hlength⟩
  refused := by
    intro hphase
    cases hphase

/-- The handle is let go of for good, while nothing of the latest start waits. -/
theorem drop (h : Sound d l due s) {stream : String} (hhandle : s.handle = some stream)
    (hwaits : ∀ a ∈ s.awaiting, Waits l s.run none s.blocks s.streams a) :
    Sound d (l.note (.skpCancel stream)) 0
      { s with handle := none, selfCancelled := insert stream s.selfCancelled } where
  __ := h
  waits := hwaits
  cancelled_named k hk := by
    rcases Finset.mem_insert.1 hk with rfl | hk
    · exact mem_minted_snd (h.held k hhandle).minted
    · exact h.cancelled_named k hk
  runs sink hsink := { h.runs sink hsink with seq := nofun }
  held := nofun
  tickets p hp := by
    rcases h.tickets p hp with hp | hp | hp
    · rw [hhandle, Option.some.injEq] at hp
      exact .inr (.inl (hp ▸ mem_snoc))
    · exact .inr (.inl (List.mem_append_left _ hp))
    · exact .inr (.inr hp)

/-- The stream of the handle held is started. -/
theorem started (h : Sound d l due s) {mine : Nat} {filter : Option Filter} {stream : String}
    (hmine : mine = s.run) (hothers : ∀ a ∈ s.awaiting, a.mine ≠ mine)
    (hwaits : Waits l s.run s.handle s.blocks s.streams (.dataPlaneAttach mine filter stream)) :
    Sound d l due { s with streams := s.streams ++ [Sink.mk stream filter 0] } := by
  obtain ⟨hstart, hminted, hsent, hterminal, hstream, hheld⟩ := hwaits
  obtain ⟨hhandle, hblocks⟩ := hheld hmine
  exact {
    h with
    waits := by
      intro a ha
      have hw := h.waits a ha
      have hne := hothers a ha
      cases a with
      | cancelPrevious other filter => exact hw
      | viewportQuery other filter => exact hw
      | dataPlaneAttach other filter' name =>
        refine ⟨hw.1, hw.2.1, hw.2.2.1, hw.2.2.2.1, not_mem_map_snoc hw.2.2.2.2.1 ?_, hw.2.2.2.2.2⟩
        rintro rfl
        exact hne (minted_inj h.streams_nodup hw.2.1 hminted)
      | cancelUnattached other err => exact hw
    runs := forall_snoc h.runs ⟨⟨mine, hstart, hminted⟩, hterminal, fun _ => by rw [hblocks]; rfl⟩
    sinks_nodup := nodup_map_snoc h.sinks_nodup hstream }

/-! ### Moves of a stream -/

/-- The other streams that run are others. -/
theorem stream_ne_of_mem_erase (h : Sound d l due s) {sink : Sink} (hsink : sink ∈ s.streams) :
    ∀ other ∈ s.streams.erase sink, other.stream ≠ sink.stream := by
  intro other hother heq
  have hsame := List.inj_on_of_nodup_map h.sinks_nodup (List.mem_of_mem_erase hother) hsink heq
  exact h.sinks_nodup.of_map.not_mem_erase (hsame ▸ hother)

/-- The awaits while a stream that runs reports something. -/
theorem waits_reported {sink : Sink} (hsink : sink ∈ s.streams) {e : Entry}
    (he : (∃ payload, e = .sent sink.stream payload) ∨ ∃ t, e = .terminal sink.stream t)
    {handle : Option String} {blocks : List Block} {streams : List Sink}
    (hsub : streams.map Sink.stream ⊆ s.streams.map Sink.stream)
    (hwaits : ∀ a ∈ s.awaiting, Waits l s.run handle blocks s.streams a) :
    ∀ a ∈ s.awaiting, Waits (l.note e) s.run handle blocks streams a := by
  intro a ha
  have hw := hwaits a ha
  cases a with
  | cancelPrevious mine filter => rcases he with ⟨payload, rfl⟩ | ⟨t, rfl⟩ <;> exact hw
  | viewportQuery mine filter => rcases he with ⟨payload, rfl⟩ | ⟨t, rfl⟩ <;> exact hw
  | cancelUnattached mine err => rcases he with ⟨payload, rfl⟩ | ⟨t, rfl⟩ <;> exact hw
  | dataPlaneAttach mine filter stream =>
    obtain ⟨hstart, hminted, hsent, hterminal, hstream, hheld⟩ := hw
    have hne : stream ≠ sink.stream := by
      rintro rfl
      exact hstream (List.mem_map.2 ⟨sink, hsink, rfl⟩)
    have hout : stream ∉ streams.map Sink.stream := fun hmem => hstream (hsub hmem)
    rcases he with ⟨payload, rfl⟩ | ⟨t, rfl⟩
    · exact ⟨hstart, hminted, not_mem_map_snoc hsent hne, hterminal, hout, hheld⟩
    · exact ⟨hstart, hminted, hsent, not_mem_map_snoc hterminal hne, hout, hheld⟩

/-- A batch arrives; it is due to the table where its stream is the one held. -/
theorem sent (h : Sound d l 0 s) {sink : Sink} (hsink : sink ∈ s.streams) (payload : List UInt8) :
    Sound d (l.note (.sent sink.stream payload)) (if s.handle = some sink.stream then 1 else 0)
      s := by
  obtain ⟨⟨m, -, hminted⟩, hrunning, -⟩ := h.runs sink hsink
  -- A stream whose terminal is on record sends nothing more.
  have hother : ∀ name : String, name ∈ l.terminals.map Prod.fst → sink.stream ≠ name := by
    rintro name hname rfl
    exact hrunning hname
  have hmore : ∀ name : String, ∃ more,
      (l.note (.sent sink.stream payload)).sentOn name = l.sentOn name ++ more := by
    intro name
    by_cases hname : sink.stream = name
    · exact ⟨[payload], hname ▸ l.sentOn_note_sent sink.stream payload⟩
    · exact ⟨[], by rw [Ledger.sentOn_note_sent_of_ne hname, List.append_nil]⟩
  exact {
    h with
    source := by
      obtain hnil | ⟨mine, filter, name, hlatest, hsource, hfrom⟩ := h.source
      · exact .inl hnil
      · obtain ⟨more, heq⟩ := hmore name
        exact .inr ⟨mine, filter, name, hlatest, hsource, heq ▸ hfrom.more⟩
    waits := waits_reported hsink (.inl ⟨payload, rfl⟩) (fun _ hx => hx) h.waits
    sent_named := by
      intro k hk
      change k ∈ (l.sent ++ [(sink.stream, payload)]).map Prod.fst at hk
      rw [List.map_append, List.mem_append] at hk
      rcases hk with hk | hk
      · exact h.sent_named k hk
      · rw [List.mem_singleton.1 hk]
        exact mem_minted_snd hminted
    runs := fun sink' hsink' => { h.runs sink' hsink' with }
    held := by
      intro k hk
      obtain ⟨hheld, hcalm, hquiet, ⟨filter, hstart, hfrom⟩, hlength⟩ := h.held k hk
      obtain ⟨more, heq⟩ := hmore k
      refine ⟨hheld, hcalm, hquiet, ⟨filter, hstart, heq ▸ hfrom.more⟩, ?_⟩
      by_cases hname : sink.stream = k
      · rw [if_pos (hname ▸ hk), ← hname, Ledger.sentOn_note_sent, List.length_append, hname,
          ← hlength]
        rfl
      · rw [if_neg (fun hsame => hname (Option.some.inj (hsame.symm.trans hk))),
          Ledger.sentOn_note_sent_of_ne hname, ← hlength]
    completed := by
      intro hphase
      obtain ⟨mine, filter, name, terminal, hlatest, hsource, hterminal, hkind, hfrom, hlength⟩ :=
        h.completed hphase
      have hne := hother name (List.mem_map.2 ⟨_, hterminal, rfl⟩)
      refine ⟨mine, filter, name, terminal, hlatest, hsource, hterminal, hkind, ?_, ?_⟩
      · rw [Ledger.sentOn_note_sent_of_ne hne]
        exact hfrom
      · rw [Ledger.sentOn_note_sent_of_ne hne]
        exact hlength }

/-- A stream is over, and let go of where it is the one held. -/
theorem close (h : Sound d l due s) {sink : Sink} (hsink : sink ∈ s.streams) (t : Terminal)
    {handle : Option String} {selfCancelled : Finset String}
    (hhandle : handle = if s.handle = some sink.stream then none else s.handle)
    (hself : selfCancelled ⊆ s.selfCancelled) :
    Sound d (l.note (.terminal sink.stream t)) due
      { s with
        streams := s.streams.erase sink, handle := handle, selfCancelled := selfCancelled } := by
  obtain ⟨⟨m, -, hminted⟩, -, -⟩ := h.runs sink hsink
  have hnodup : ((s.streams.erase sink).map Sink.stream).Sublist (s.streams.map Sink.stream) :=
    List.erase_sublist.map _
  have hne := h.stream_ne_of_mem_erase hsink
  have hkeep : ∀ k, handle = some k → s.handle = some k ∧ k ≠ sink.stream := by
    intro k hk
    rw [hhandle] at hk
    split at hk
    · cases hk
    · next hother =>
      refine ⟨hk, ?_⟩
      rintro rfl
      exact hother hk
  have hwaits : ∀ a ∈ s.awaiting, Waits l s.run handle s.blocks s.streams a := by
    rw [hhandle]
    split
    · next hheld => exact h.waits_of_runs hsink hheld none s.blocks
    · exact h.waits
  exact {
    h with
    waits := waits_reported hsink (.inr ⟨t, rfl⟩) hnodup.subset hwaits
    terminals_named := by
      intro k hk
      change k ∈ (l.terminals ++ [(sink.stream, t)]).map Prod.fst at hk
      rw [List.map_append, List.mem_append] at hk
      rcases hk with hk | hk
      · exact h.terminals_named k hk
      · rw [List.mem_singleton.1 hk]
        exact mem_minted_snd hminted
    cancelled_named := fun k hk => h.cancelled_named k (hself hk)
    runs := by
      intro sink' hsink'
      obtain ⟨hsource, hrunning, hseq⟩ := h.runs sink' (List.mem_of_mem_erase hsink')
      exact ⟨hsource, not_mem_map_snoc hrunning (hne sink' hsink'),
        fun hheld => hseq (hkeep _ hheld).1⟩
    sinks_nodup := h.sinks_nodup.sublist hnodup
    held := by
      intro k hk
      obtain ⟨hheld, hother⟩ := hkeep k hk
      obtain ⟨hsource, hcalm, hrunning, hwhole, hlength⟩ := h.held k hheld
      exact ⟨hsource, fun hmem => hcalm (hself hmem), not_mem_map_snoc hrunning hother, hwhole,
        hlength⟩
    completed := by
      intro hphase
      obtain ⟨mine, filter, name, terminal, hlatest, hsource, hterminal, hrest⟩ := h.completed hphase
      exact ⟨mine, filter, name, terminal, hlatest, hsource, List.mem_append_left _ hterminal, hrest⟩
    refused := by
      intro hphase
      obtain ⟨mine, filter, refusal, hlatest, hrefusal, hfailed⟩ := h.refused hphase
      refine ⟨mine, filter, refusal, hlatest, hrefusal, hfailed.imp_right ?_⟩
      intro ⟨name, terminal, hsource, hterminal, hrest⟩
      exact ⟨name, terminal, hsource, List.mem_append_left _ hterminal, hrest⟩
    tickets := by
      intro p hp
      rcases h.tickets p hp with hheld | hdone | hover
      · by_cases hsame : p.2 = sink.stream
        · exact .inr (.inr (List.mem_map.2 ⟨_, mem_snoc, hsame.symm⟩))
        · refine .inl ?_
          rw [hhandle, if_neg (fun hother => hsame (Option.some.inj (hheld.symm.trans hother)))]
          exact hheld
      · exact .inr (.inl hdone)
      · exact .inr (.inr (mem_map_snoc hover)) }

/-- The awaits do not look at the number of a stream's next batch. -/
theorem waits_renumbered {sink : Sink} (hsink : sink ∈ s.streams) {handle : Option String}
    {blocks : List Block} (seq : Nat)
    (hwaits : ∀ a ∈ s.awaiting, Waits l s.run handle blocks s.streams a) :
    ∀ a ∈ s.awaiting, Waits l s.run handle blocks
      (s.streams.erase sink ++ [{ sink with seq := seq }]) a := by
  intro a ha
  have hw := hwaits a ha
  cases a with
  | cancelPrevious mine filter => exact hw
  | viewportQuery mine filter => exact hw
  | cancelUnattached mine err => exact hw
  | dataPlaneAttach mine filter stream =>
    obtain ⟨hstart, hminted, hsent, hterminal, hstream, hheld⟩ := hw
    refine ⟨hstart, hminted, hsent, hterminal, ?_, hheld⟩
    refine not_mem_map_snoc (fun hmem => ?_) ?_
    · exact hstream ((List.erase_sublist.map _).subset hmem)
    · rintro rfl
      exact hstream (List.mem_map.2 ⟨sink, hsink, rfl⟩)

theorem sinks_renumbered (h : Sound d l due s) {sink : Sink} (hsink : sink ∈ s.streams)
    (seq : Nat) :
    ((s.streams.erase sink ++ [{ sink with seq := seq }]).map Sink.stream).Nodup := by
  refine nodup_map_snoc (h.sinks_nodup.sublist (List.erase_sublist.map _)) fun hmem => ?_
  obtain ⟨other, hother, heq⟩ := List.mem_map.1 hmem
  exact h.stream_ne_of_mem_erase hsink other hother heq

/-- A batch of a stream that is not held is counted and nothing else. -/
theorem renumber (h : Sound d l due s) {sink : Sink} (hsink : sink ∈ s.streams)
    (hother : s.handle ≠ some sink.stream) (seq : Nat) :
    Sound d l due { s with streams := s.streams.erase sink ++ [{ sink with seq := seq }] } where
  __ := h
  waits := waits_renumbered hsink seq h.waits
  runs := by
    obtain ⟨hsource, hrunning, -⟩ := h.runs sink hsink
    refine forall_snoc (fun other hmem => h.runs other (List.mem_of_mem_erase hmem)) ?_
    exact ⟨hsource, hrunning, fun hheld => absurd hheld hother⟩
  sinks_nodup := h.sinks_renumbered hsink seq

/-- The rows of the batch that is due are added. -/
theorem add (h : Sound d l 1 s) {sink : Sink} (hsink : sink ∈ s.streams)
    (hhandle : s.handle = some sink.stream) {payload : List UInt8} {block : Block}
    (hlast : (l.sentOn sink.stream)[s.blocks.length]? = some payload)
    (hdecode : decodeBlock d s.opts sink.stream sink.filter sink.seq payload = .ok block)
    (hwithin : s.held + block.bytes ≤ TABLE_MAX_ATTRIBUTE_BYTES) :
    Sound d l 0
      { s with
        starts := s.starts ++ [s.count]
        blocks := s.blocks ++ [block]
        idSet := s.idSet ∪ block.ids.toFinset
        count := s.count + block.ids.length
        held := s.held + block.bytes
        streams := s.streams.erase sink ++ [{ sink with seq := sink.seq + 1 }] }.emit := by
  obtain ⟨hminted, hcalm, hrunning, -, hlength⟩ := h.held _ hhandle
  obtain ⟨filter, hlatest, hfrom⟩ := h.latest_of_held hhandle
  obtain ⟨⟨m, hstart, hsource⟩, -, hseq⟩ := h.runs sink hsink
  have hm : m = s.run := minted_inj h.streams_nodup hsource hminted
  have hfilter : sink.filter = filter := by
    have hsame := h.current _ hstart hm
    rw [hlatest, Option.some.injEq, Prod.mk.injEq] at hsame
    exact hsame.2.symm
  have hnext : (s.blocks ++ [block]).length = (l.sentOn sink.stream).length := by
    rw [List.length_append, List.length_singleton, hlength]
  have hpushed : FromStream d s.opts sink.stream filter (l.sentOn sink.stream)
      (s.blocks ++ [block]) := by
    intro i found hfound
    rcases Nat.lt_trichotomy i s.blocks.length with hi | rfl | hi
    · rw [List.getElem?_append_left hi] at hfound
      exact hfrom i found hfound
    · rw [List.getElem?_concat_length] at hfound
      cases hfound
      exact ⟨payload, hlast, by rw [← hfilter, ← hseq hhandle]; exact hdecode⟩
    · rw [List.getElem?_eq_none (by simp; omega)] at hfound
      cases hfound
  have hothers := h.stream_ne_of_mem_erase hsink
  exact {
    h with
    shown := rfl
    rows := h.rows.push hwithin
    source := .inr ⟨s.run, filter, sink.stream, hlatest, hminted, hpushed⟩
    waits :=
      waits_renumbered hsink (sink.seq + 1) (h.waits_of_runs hsink hhandle s.handle (s.blocks ++ [block]))
    runs := by
      refine forall_snoc (fun other hother => ?_) ?_
      · have hother' := h.runs other (List.mem_of_mem_erase hother)
        refine { hother' with seq := fun hheld => ?_ }
        rw [show s.handle = some other.stream from hheld, Option.some.injEq] at hhandle
        exact absurd hhandle (hothers other hother)
      · refine ⟨⟨m, hstart, hsource⟩, hrunning, fun _ => ?_⟩
        change sink.seq + 1 = (s.blocks ++ [block]).length
        rw [hseq hhandle, List.length_append, List.length_singleton]
    sinks_nodup := h.sinks_renumbered hsink (sink.seq + 1)
    held := by
      intro k hk
      rw [show s.handle = some k from hk, Option.some.injEq] at hhandle
      subst hhandle
      exact ⟨hminted, hcalm, hrunning, ⟨filter, hfilter ▸ hm ▸ hstart, hpushed⟩, hnext⟩
    completed := by
      intro hphase
      obtain ⟨mine, f, name, terminal, hlatest', hminted', hterminal, -⟩ := h.completed hphase
      rw [hlatest, Option.some.injEq, Prod.mk.injEq] at hlatest'
      have hsame := stream_unique h.starts_nodup hminted (hlatest'.1 ▸ hminted')
      exact absurd (List.mem_map.2 ⟨_, hterminal, hsame.symm⟩) hrunning }

end Sound

/-! ### The calls of its owner -/

/-- The fields, the awaits and the streams agree with the log. -/
def Good (d : Decoder) (s : State) : Prop := Sound d (ledger s.log) 0 s

/-- No start is made between the rejection of the attach of the latest one and the answer to the
cancel of its ticket. -/
def NotOvertaken (s : State) : Event → Prop
  | .answer (.cancelUnattached mine _) _ =>
    ∃ filter, (ledger s.log).latest = some (mine, filter)
  | _ => True

namespace Good

theorem new (d : Decoder) (opts : TableSourceOptions) : Good d (.new opts) := sound_new d opts

theorem told (h : Sound d l 0 s) (hl : ledger s.log = l) {e : Entry} (he : l.note e = l) :
    Good d (s.tell e) := by
  have hmark := h.mark (s.log ++ [e]) s.disposed s.ended
  rw [← he, ← hl, ← ledger_snoc] at hmark
  exact hmark

theorem tell (h : Good d s) {e : Entry} (he : (ledger s.log).note e = ledger s.log) :
    Good d (s.tell e) := told h rfl he

theorem start (h : Good d s) (filter : Option Filter) : Good d (s.start filter) := by
  rw [State.start]
  split
  · exact h
  · have hletGo := Sound.letGo h
    have hrun : ∀ p ∈ (ledger s.log).starts, p.1 < s.run + 1 :=
      fun p hp => Nat.lt_succ_of_le (h.numbered p hp)
    have hminted : ∀ p ∈ (ledger s.log).minted, p.1 < s.run + 1 :=
      fun p hp => Nat.lt_succ_of_le (h.minted_le p hp)
    have hawait : ∀ a ∈ s.awaiting, a.mine < s.run + 1 :=
      fun a ha => Nat.lt_succ_of_le (h.mine_le ha)
    rcases hhandle : s.handle with _ | previous
    · rw [hhandle] at hletGo
      have hbegin := hletGo.begin rfl hrun hminted hawait filter
      have hmark := hbegin.mark (s.log ++ [.started (s.run + 1) filter]) s.disposed s.ended
      rw [← ledger_snoc] at hmark
      exact hmark
    · rw [hhandle, State.cancelHeld, State.cancelHandle, State.tell, ledger_snoc] at hletGo
      have hbegin := hletGo.begin rfl hrun hminted hawait filter
      have hmark := hbegin.mark (s.log ++ [.started (s.run + 1) filter] ++ [.skpCancel previous])
        s.disposed s.ended
      change Sound d (ledger (s.log ++ [.started (s.run + 1) filter] ++ [.skpCancel previous])) 0 _
      rw [ledger_snoc, ledger_snoc]
      exact hmark

theorem cancel (h : Good d s) : Good d s.cancel := by
  have hletGo : Good d ({ s with run := s.run + 1, handle := none }.cancelHeld s.handle) :=
    Sound.letGo h
  rw [State.cancel]
  split
  · exact Sound.setPhase hletGo nofun nofun
  · exact hletGo

theorem mark (h : Good d s) (disposed ended : Bool) :
    Good d { s with disposed := disposed, ended := ended } := Sound.mark h s.log disposed ended

theorem dispose (h : Good d s) : Good d s.dispose :=
  Good.cancel (Good.tell (h.mark true s.ended) rfl)

theorem endSource (h : Good d s) : Good d s.endSource := by
  rw [State.endSource]
  split
  · exact h
  · have hmark : Good d ({ s with ended := true }.tell .ended) :=
      Good.tell (h.mark s.disposed true) rfl
    have hletGo := Sound.letGo hmark
    change Sound d _ 0 (State.cancelHeld _ s.handle) at hletGo
    rcases hhandle : s.handle with _ | handle
    · rw [hhandle] at hletGo
      exact hletGo.clear rfl
    · rw [hhandle] at hletGo
      exact hletGo.clear rfl

/-! ### A start goes on -/

/-- A refusal of the latest start, for a failure of its own. -/
theorem refuse (h : Good d s) {mine : Nat} {filter : Option Filter} {err : CallError}
    (hlatest : (ledger s.log).latest = some (mine, filter))
    (hfailed : (mine, err) ∈ (ledger s.log).failures) : Good d (s.refuse err) := by
  have hrefused : Good d ({ s with refusal := some err.refusal }.setPhase .refused) :=
    Sound.refuse h hlatest (.inl ⟨err, hfailed, rfl⟩)
  cases err with
  | skp error =>
    rw [State.refuse]
    split
    · exact hrefused.tell rfl
    · exact hrefused
  | other message => exact hrefused

theorem rejected (h : Good d s) {mine : Nat} {err : CallError} {e : Entry}
    (he : e = .queryRejected mine err ∨ e = .attachRejected mine err) : Good d (s.tell e) := by
  have hfail := (Sound.fail h mine err).mark (s.log ++ [e]) s.disposed s.ended
  rw [Good, ledger_tell]
  rcases he with rfl | rfl <;> exact hfail

theorem afterCancelPrevious (h : Good d s) {mine : Nat} {filter : Option Filter}
    (hwaits : Unminted (ledger s.log) s.run s.handle s.blocks mine filter)
    (hothers : mine ∉ s.awaiting.map Await.mine) : Good d (s.afterCancelPrevious mine filter) := by
  rw [State.afterCancelPrevious]
  split
  · exact h
  · refine Sound.await (Good.tell h rfl) ?_ hothers
    rw [ledger_tell]
    exact hwaits

theorem afterQuery (h : Good d s) {mine : Nat} {filter : Option Filter} {stream : String}
    (hwaits : Unminted (ledger s.log) s.run s.handle s.blocks mine filter)
    (hothers : ∀ a ∈ s.awaiting, a.mine ≠ mine)
    (hfresh : stream ∉ (ledger s.log).minted.map Prod.snd) :
    Good d (s.afterQuery mine filter stream) := by
  rw [State.afterQuery]
  split
  · have hlate := Sound.mintLate h (h.numbered _ hwaits.1) hothers hwaits.2.1 hfresh
    have hmark := hlate.mark (s.log ++ [.minted mine stream] ++ [.skpCancel stream]) s.disposed
      s.ended
    rw [← ledger_snoc, ← ledger_snoc] at hmark
    exact hmark
  · next hmine =>
    have hmint := Sound.mint h (not_not.1 hmine) hothers hwaits hfresh
    have hmark := hmint.mark (s.log ++ [.minted mine stream] ++ [.dataPlaneAttach mine]) s.disposed
      s.ended
    rw [show (ledger s.log).note (.minted mine stream) =
      ((ledger s.log).note (.minted mine stream)).note (.dataPlaneAttach mine) from rfl,
      ← ledger_snoc, ← ledger_snoc] at hmark
    exact hmark

theorem afterQueryRejected (h : Good d s) {mine : Nat} {filter : Option Filter} {err : CallError}
    (hstart : (mine, filter) ∈ (ledger s.log).starts) :
    Good d (s.afterQueryRejected mine err) := by
  have htold : Good d (s.tell (.queryRejected mine err)) := h.rejected (.inl rfl)
  rw [State.afterQueryRejected]
  split
  · next hmine =>
    have hlatest : (ledger (s.tell (.queryRejected mine err)).log).latest = some (mine, filter) := by
      rw [ledger_tell]
      exact h.current _ hstart hmine
    refine htold.refuse hlatest ?_
    rw [ledger_tell]
    exact mem_snoc
  · exact htold

theorem afterAttach (h : Good d s) {mine : Nat} {filter : Option Filter} {stream : String}
    (hwaits : Waits (ledger s.log) s.run s.handle s.blocks s.streams
      (.dataPlaneAttach mine filter stream))
    (hothers : ∀ a ∈ s.awaiting, a.mine ≠ mine) (attach : DataPlaneAttach) :
    Good d (s.afterAttach mine filter stream attach) := by
  rw [State.afterAttach]
  split
  · exact h
  · next hmine =>
    have hstarted : Good d { s with streams := s.streams ++ [Sink.mk stream filter 0] } :=
      Sound.started h (not_not.1 hmine) hothers hwaits
    exact hstarted.tell rfl

theorem afterAttachRejected (h : Good d s) {mine : Nat} {filter : Option Filter} {stream : String}
    (hwaits : Waits (ledger s.log) s.run s.handle s.blocks s.streams
      (.dataPlaneAttach mine filter stream))
    (hothers : ∀ a ∈ s.awaiting, a.mine ≠ mine) (err : CallError) :
    Good d (s.afterAttachRejected mine stream err) := by
  obtain ⟨hstart, -, -, -, -, hheld⟩ := hwaits
  have htold : Good d (s.tell (.attachRejected mine err)) := h.rejected (.inr rfl)
  rw [State.afterAttachRejected]
  split
  · next hmine =>
    have hdrop := Sound.drop htold (hheld hmine).1 fun a ha =>
      (Sound.waits htold a ha).past (fun hsame => hothers a ha (hsame.trans hmine.symm))
    have hmark := hdrop.mark (s.log ++ [.attachRejected mine err] ++ [.skpCancel stream])
      s.disposed s.ended
    rw [← ledger_snoc] at hmark
    refine Sound.await hmark ?_ ?_
    · rw [ledger_snoc, ledger_tell]
      exact ⟨⟨filter, hstart⟩, mem_snoc⟩
    · intro hmem
      obtain ⟨a, ha, heq⟩ := List.mem_map.1 hmem
      exact hothers a ha heq
  · exact htold

theorem resume (h : Good d s) {await : Await} {answer : Answer}
    (hwaits : Waits (ledger s.log) s.run s.handle s.blocks s.streams await)
    (hothers : ∀ a ∈ s.awaiting, a.mine ≠ await.mine)
    (hfirst : NotOvertaken s (.answer await answer)) {s' : State}
    (hs' : s.resume await answer = some s') : Good d s' := by
  have hnew : await.mine ∉ s.awaiting.map Await.mine := by
    intro hmem
    obtain ⟨a, ha, heq⟩ := List.mem_map.1 hmem
    exact hothers a ha heq
  cases await with
  | cancelPrevious mine filter =>
    cases answer with
    | done =>
      cases hs'
      exact h.afterCancelPrevious hwaits hnew
    | _ => cases hs'
  | viewportQuery mine filter =>
    cases answer with
    | minted stream =>
      rw [State.resume] at hs'
      split at hs'
      · cases hs'
      · next hout =>
        cases hs'
        exact h.afterQuery hwaits hothers (not_mem_minted_of_handedOut hout)
    | rejected err =>
      cases hs'
      exact h.afterQueryRejected hwaits.1
    | _ => cases hs'
  | dataPlaneAttach mine filter stream =>
    cases answer with
    | attached attach =>
      cases hs'
      exact h.afterAttach hwaits hothers attach
    | rejected err =>
      cases hs'
      exact h.afterAttachRejected hwaits hothers err
    | _ => cases hs'
  | cancelUnattached mine err =>
    cases answer with
    | done =>
      cases hs'
      obtain ⟨filter, hlatest⟩ := hfirst
      exact h.refuse hlatest hwaits.2
    | _ => cases hs'

/-! ### The sink of a stream -/

/-- The one terminal of a stream comes. -/
theorem terminal (h : Sound d (ledger s.log) due s) {sink : Sink} (hsink : sink ∈ s.streams)
    (hdue : due = 0 ∨ s.handle = some sink.stream) (t : Terminal)
    (hwhole : t.kind = .completed → due = 0) : Good d (s.onTerminal sink t) := by
  rw [State.onTerminal, State.terminal]
  split
  · next hself =>
    have hcalm : s.handle ≠ some sink.stream := fun hheld => (h.held _ hheld).calm hself
    have hclose := h.close hsink t (if_neg hcalm).symm (Finset.erase_subset sink.stream _)
    have hmark := hclose.mark (s.log ++ [.terminal sink.stream t]) s.disposed s.ended
    rw [← ledger_snoc, hdue.resolve_right hcalm] at hmark
    exact hmark
  · split
    · next hother =>
      have hclose := h.close hsink t (if_neg hother).symm (Finset.Subset.refl _)
      have hmark := hclose.mark (s.log ++ [.terminal sink.stream t]) s.disposed s.ended
      rw [← ledger_snoc, hdue.resolve_right hother] at hmark
      exact hmark
    · next hother =>
      have hheld : s.handle = some sink.stream := not_not.1 hother
      have hclose := h.close hsink t (if_pos hheld).symm (Finset.Subset.refl _)
      have hmark := (hclose.unheld rfl 0).mark (s.log ++ [.terminal sink.stream t]) s.disposed
        s.ended
      obtain ⟨filter, hlatest, hfrom⟩ := h.latest_of_held hheld
      obtain ⟨hminted, -, -, -, hlength⟩ := h.held _ hheld
      rw [State.conclude]
      split
      · have hgood : Good d
            { s with
              streams := s.streams.erase sink
              handle := none
              log := s.log ++ [.terminal sink.stream t] } := by
          rw [Good, ledger_snoc]
          exact hmark
        exact hgood.endSource.tell rfl
      · split
        · next hkind =>
          rw [hwhole hkind, Nat.add_zero] at hlength
          have hcomplete := hmark.complete hlatest hminted mem_snoc hkind hfrom hlength
          rw [← ledger_snoc] at hcomplete
          exact hcomplete
        · next hkind =>
          have hrefuse := hmark.refuse hlatest
            (.inr ⟨sink.stream, t, hminted, mem_snoc, hkind, rfl⟩)
          rw [← ledger_snoc] at hrefuse
          exact hrefuse

theorem onBatch (h : Good d s) {sink : Sink} (hsink : sink ∈ s.streams) (payload : List UInt8) :
    Good d (s.onBatch d sink payload) := by
  have htold : Sound d (ledger (s.tell (.sent sink.stream payload)).log)
      (if s.handle = some sink.stream then 1 else 0) (s.tell (.sent sink.stream payload)) := by
    rw [ledger_tell]
    exact (Sound.sent h hsink payload).mark _ _ _
  rw [State.onBatch]
  split
  · next hother =>
    change s.handle ≠ some sink.stream at hother
    rw [if_neg hother] at htold
    exact htold
  · next hother =>
    have hheld : s.handle = some sink.stream := not_not.1 hother
    rw [if_pos hheld] at htold
    split
    · next e hdecode =>
      refine Good.terminal htold hsink (.inr hheld) _ ?_
      intro hkind
      cases hkind
    · next block hdecode =>
      rw [State.add]
      split
      · have hdrop := htold.drop hheld (htold.waits_of_runs hsink hheld none s.blocks)
        have hagain := (hdrop.renumber hsink nofun (sink.seq + 1)).mark
          (s.log ++ [.sent sink.stream payload] ++ [.skpCancel sink.stream]) s.disposed s.ended
        rw [← ledger_snoc] at hagain
        exact hagain.setPhase nofun nofun
      · next hwithin =>
        have hlast : ((ledger (s.tell (.sent sink.stream payload)).log).sentOn
            sink.stream)[s.blocks.length]? = some payload := by
          have hlength := (Sound.held h _ hheld).length_eq
          rw [Nat.add_zero] at hlength
          rw [ledger_tell, Ledger.sentOn_note_sent, hlength,
            List.getElem?_concat_length]
        have hadd := htold.add hsink hheld hlast hdecode (Nat.le_of_not_lt hwithin)
        exact Good.told hadd rfl rfl

end Good

end TableSource

end SpatialIde.Shell.Table
