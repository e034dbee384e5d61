import SpatialIde.Kernel.SessionHistory.Keys
import SpatialIde.Kernel.SessionHistory.Prefix
import SpatialIde.Kernel.SessionHistory.Writer
import SpatialIde.Renderer.Canonical.Faithful

/-! # What the writer acknowledges, the reader recovers

The reader is where the writer is after every line (`Holds`): the same bytes, the same last step, and
what is left of a failed write behind the last line.
-/

namespace SpatialIde.Kernel.SessionHistory

open Lib Lib.Json SpatialIde.Renderer SpatialIde.Kernel.Skp

/-! ### Canonical lines -/

/-- What the writer spells has no key twice. -/
theorem repeats_value {j : Renderer.Json} (h : j.Admissible) : repeats j.value = false := by
  induction h with
  | null => rfl
  | bool => rfl
  | int => rfl
  | uint => rfl
  | double => rfl
  | str => rfl
  | arr _ ih =>
    rw [Json.value, repeats, Json.values_eq]
    refine repeatsItems_eq_false fun v hv => ?_
    obtain ⟨w, hw, rfl⟩ := List.mem_map.1 hv
    exact ih w hw
  | obj hkeys _ ih =>
    rw [Json.value, repeats, Json.memberValues_eq]
    refine repeatsMembers_eq_false ?_ fun m hm => ?_
    · rw [List.nil_append, List.map_map]
      exact hkeys
    · obtain ⟨m', hm', rfl⟩ := List.mem_map.1 hm
      exact ih m' hm'

/-- What the reader's library does with a text of the grammar. -/
structure Faithful (r : Reader) : Prop where
  decodes : Decodes r
  denotes : ∀ {text : String} {tree v : Value}, parse text = some tree → r.fromStr text = .ok v →
    Denotes tree v

variable {r : Reader} {lowerExp : F64 → String}

/-- A canonical line, as the reader sees it. -/
structure CanonicalLine (r : Reader) (j : Renderer.Json) (line : String) : Prop where
  no_break : LF ∉ Text.bytes line
  no_nul : 0 ∉ Text.bytes line
  parses : parse line = some j.value
  distinct : hasDuplicateKey r line = false

theorem canonicalLine (hfaithful : Faithful r) {j : Renderer.Json} {line : String}
    (h : canonical lowerExp j = .ok line) : CanonicalLine r j line := by
  have htext : toCanonicalString j = .ok line := by
    rw [canonical] at h
    split at h
    · next text htext =>
      cases h
      exact htext
    · cases h
  obtain ⟨hadmissible, hplain, hparse, -⟩ := toCanonicalString_faithful htext
  have hcontrol : ∀ b ∈ Text.bytes line, b.toNat < 0x20 → False := by
    intro b hb hlow
    obtain ⟨c, hc, heq⟩ := Text.mem_of_mem_bytes hb (by omega)
    have := hplain c hc
    omega
  refine ⟨fun hb => hcontrol _ hb (by decide), fun hb => hcontrol _ hb (by decide), hparse, ?_⟩
  rw [hasDuplicateKey_eq hfaithful.decodes hparse, repeats_value hadmissible]

/-! ### Accepted lines -/

theorem readerAccepts_step {line : String} (h : readerAccepts r line false = .ok ()) :
    ∃ v, r.fromStr line = .ok v ∧ checkStep r (member v "step") ACTIONS = .ok () := by
  rw [readerAccepts] at h
  dsimp only at h
  split at h
  · cases h
  · next v hv =>
    split at h
    · next hfound => exact ⟨v, hv, hfound⟩
    · cases h

theorem readerAccepts_header {line : String} (h : readerAccepts r line true = .ok ()) :
    ∃ v datasets, r.fromStr line = .ok v ∧ checkHeader r v = .ok datasets := by
  rw [readerAccepts] at h
  dsimp only at h
  split at h
  · cases h
  · next v hv =>
    split at h
    · next hfound =>
      cases hcheck : checkHeader r v with
      | ok datasets => exact ⟨v, datasets, hv, hcheck⟩
      | error e =>
        rw [if_pos rfl, hcheck] at hfound
        cases hfound
    · cases h

theorem readerAccepts_of_checkStep {line : String} {v : Value} (hv : r.fromStr line = .ok v)
    (hcheck : checkStep r (member v "step") ACTIONS = .ok ()) :
    readerAccepts r line false = .ok () := by
  simp only [readerAccepts, hv, Bool.false_eq_true, if_false, hcheck]

theorem readerAccepts_of_checkHeader {line : String} {v : Value} (hv : r.fromStr line = .ok v)
    (hcheck : ((checkHeader r v).map fun _ => ()) = .ok ()) :
    readerAccepts r line true = .ok () := by
  simp only [readerAccepts, hv, if_true, hcheck]

theorem getStr_of_get {w : Value} {key s : String} (h : w.get key = some (.string s)) :
    w.getStr key = some s := by
  rw [Value.getStr, h]
  rfl

theorem Denotes.getStr {members : List (String × Value)} {w : Value} {key s : String}
    (h : Denotes (.object members) w) (hs : members.reverse.lookup key = some (.string s)) :
    w.getStr key = some s := by
  obtain ⟨v, hget, hv⟩ := h.get hs
  cases hv
  exact getStr_of_get hget

theorem Denotes.getStr_null {members : List (String × Value)} {w : Value} {key : String}
    (h : Denotes (.object members) w) (hs : members.reverse.lookup key = some .null) :
    w.getStr key = none := by
  obtain ⟨v, hget, hv⟩ := h.get hs
  cases hv
  rw [Value.getStr, hget]
  rfl

/-- **A line of the writer is a line of the reader**: where the reader stands at the parent the line
names, it keeps the line and stands at its step. -/
theorem readLine_step (hfaithful : Faithful r) {rec : Record} {parts : StepParts} {line : String}
    (h : stepLineOf r lowerExp rec parts = .ok line) (hsize : line.utf8ByteSize ≤ MAX_STEP_LINE_BYTES)
    {chain : Chain} {header : Option Header} (hactions : chain.actions = ACTIONS)
    (hparent : chain.parent = rec.lastStep) :
    readLine r (Text.bytes line ++ [LF]) false chain header =
      .ok (line, ⟨ACTIONS, chain.seen ++ [parts.id], some parts.id, some parts.id⟩, header) := by
  obtain ⟨line', hline, h⟩ := bind_eq_ok.1 h
  obtain ⟨_, haccepts, h⟩ := bind_eq_ok.1 h
  cases h
  have hcanonical := canonicalLine hfaithful hline
  obtain ⟨v, hv, hcheck⟩ := readerAccepts_step haccepts
  have hdenotes := hfaithful.denotes hcanonical.parses hv
  obtain ⟨step, rfl, hstep⟩ := hdenotes.singleton
  have htext : lineText (Text.bytes line ++ [LF]) false = .ok line :=
    lineText_eq_ok.2 ⟨rfl, hsize, hcanonical.no_nul⟩
  have hvalue : lineValue r line = .ok (.object [("step", step)]) := by
    rw [lineValue, hv]
    dsimp only
    rw [hcanonical.distinct]
    rfl
  have hmember : member (.object [("step", step)]) "step" = step := rfl
  rw [hmember] at hcheck
  have hid : step.getStr "id" = some parts.id := Denotes.getStr hstep rfl
  have hsays : step.getStr "parent" = chain.parent := by
    rw [hparent]
    cases hlast : rec.lastStep with
    | none =>
      rw [hlast] at hstep
      exact Denotes.getStr_null hstep rfl
    | some p =>
      rw [hlast] at hstep
      exact Denotes.getStr hstep rfl
  have hread : readStep r step chain =
      .ok ⟨ACTIONS, chain.seen ++ [parts.id], some parts.id, some parts.id⟩ := by
    refine bind_eq_ok.2 ⟨(), by rw [hactions]; exact hcheck, ?_⟩
    rw [if_neg (not_not.2 hsays), hid, hactions]
    rfl
  refine bind_eq_ok.2 ⟨line, htext, bind_eq_ok.2 ⟨_, hvalue, ?_⟩⟩
  rw [if_neg (by decide), if_pos (show onlyKey (.object [("step", step)]) = some "step" from rfl)]
  exact bind_eq_ok.2 ⟨_, hread, rfl⟩

/-- The header of the writer is a header of the reader. -/
theorem readLine_headerLine (hfaithful : Faithful r) {entry : Renderer.Json} {line : String}
    (hline : canonical lowerExp (headerObject entry) = .ok line)
    (haccepts : readerAccepts r line true = .ok ())
    (hsize : line.utf8ByteSize ≤ MAX_HEADER_LINE_BYTES) :
    ∃ v datasets, r.fromStr line = .ok v ∧ checkHeader r v = .ok datasets ∧
      readLine r (Text.bytes line ++ [LF]) true Chain.default none =
        .ok (line, ⟨ACTIONS, [], none, none⟩, some ⟨ACTIONS, datasets⟩) := by
  have hcanonical := canonicalLine hfaithful hline
  obtain ⟨v, datasets, hv, hcheck⟩ := readerAccepts_header haccepts
  have hdenotes := hfaithful.denotes hcanonical.parses hv
  have htext : lineText (Text.bytes line ++ [LF]) true = .ok line :=
    lineText_eq_ok.2 ⟨rfl, hsize, hcanonical.no_nul⟩
  have hvalue : lineValue r line = .ok v := by
    rw [lineValue, hv]
    dsimp only
    rw [hcanonical.distinct]
    rfl
  have hactions : (member v "actions").asU64 = some (UInt64.ofNat ACTIONS) := by
    obtain ⟨w, hget, hw⟩ := @Denotes.get _ _
      (.number (.posInt (UInt64.ofNat ACTIONS))) "actions" hdenotes rfl
    cases hw
    rw [member, hget]
    rfl
  refine ⟨v, datasets, hv, hcheck, ?_⟩
  refine bind_eq_ok.2 ⟨line, htext, bind_eq_ok.2 ⟨v, hvalue, ?_⟩⟩
  rw [if_pos rfl]
  refine bind_eq_ok.2 ⟨datasets, hcheck, ?_⟩
  rw [hactions]
  rfl

/-! ### The file -/

/-- What a write left that failed. -/
def leftOf : Option (String × Nat) → List UInt8
  | none => []
  | some (line, kept) => (Text.bytes line ++ [LF]).take kept

/-- The reader goes over the lines and stands at `st`. -/
def ReadsTo (r : Reader) (lines : List String) (st : Reading) : Prop :=
  ∀ rest, longest (stepLine r) LF Reading.start (ended lines ++ rest) =
    ⟨lines.map (fun t => Text.bytes t ++ [LF]) ++ (longest (stepLine r) LF st rest).lines,
      (longest (stepLine r) LF st rest).state, (longest (stepLine r) LF st rest).failure⟩

theorem readsTo_nil : ReadsTo r [] Reading.start := fun _ => rfl

theorem ReadsTo.concat {lines : List String} {line : String} {st st' : Reading}
    (h : ReadsTo r lines st) (hbreak : LF ∉ Text.bytes line)
    (hstep : stepLine r st (Text.bytes line ++ [LF]) = .ok st') : ReadsTo r (lines ++ [line]) st' := by
  intro rest
  rw [ended_append, ended_cons, ended_nil, List.append_assoc, h, List.append_assoc, List.cons_append,
    List.nil_append, longest_line hbreak hstep, List.map_append, List.append_assoc]
  rfl

/-- Where the reader and the writer stand, before a line that may have failed. -/
structure Holds (r : Reader) (header : Header) (headerLine : String) (s : Session) (st : Reading) :
    Prop where
  file : s.record.history.file = ended (headerLine :: s.acknowledged) ++ leftOf s.failed
  stopped : s.record.history.stopped = s.failed.isSome
  reads : ReadsTo r (headerLine :: s.acknowledged) st
  count : st.n = s.acknowledged.length + 1
  total : st.total = s.record.history.bytes
  actions : st.chain.actions = ACTIONS
  parent : st.chain.parent = s.record.lastStep
  header_eq : st.header = some header
  lines_eq : st.lines = headerLine :: s.acknowledged
  /-- The line that failed would have been kept. -/
  failed : ∀ line kept, s.failed = some (line, kept) → LF ∉ Text.bytes line ∧
    ∃ st', stepLine r st (Text.bytes line ++ [LF]) = .ok st' ∧ st'.header = some header ∧
      st'.lines = st.lines ++ [line]

/-- What `append` does with a line. -/
theorem append_cases (h : History) (line : String) (header : Bool) (written : Written) :
    (∃ e, h.append line header written = (h, .error e)) ∨
    (h.stopped = false ∧ line.utf8ByteSize ≤ lineCeiling header ∧
      h.bytes + line.utf8ByteSize + 1 ≤ MAX_SESSION_HISTORY_BYTES ∧
      ((written = .done ∧ h.append line header written =
        ({ h with bytes := h.bytes + line.utf8ByteSize + 1,
                  file := h.file ++ (Text.bytes line ++ [LF]) }, .ok ())) ∨
      ∃ kept detail, written = .failed kept detail ∧ h.append line header written =
        ({ h with stopped := true, file := h.file ++ (Text.bytes line ++ [LF]).take kept },
          .error (.sessionHistoryUnwritable detail)))) := by
  rw [History.append]
  dsimp only
  by_cases hstopped : h.stopped = true
  · rw [if_pos hstopped]
    exact .inl ⟨_, rfl⟩
  rw [if_neg hstopped]
  by_cases hsize : line.utf8ByteSize ≤ lineCeiling header
  · by_cases hbytes : h.bytes + line.utf8ByteSize + 1 ≤ MAX_SESSION_HISTORY_BYTES
    · refine .inr ⟨by simpa using hstopped, hsize, hbytes, ?_⟩
      rw [if_neg (by omega), if_neg (by omega), if_neg (by omega)]
      cases written with
      | done => exact .inl ⟨rfl, rfl⟩
      | failed kept detail => exact .inr ⟨kept, detail, rfl, rfl⟩
    · rw [if_neg (by omega), if_neg (by omega), if_pos (by omega)]
      exact .inl ⟨_, rfl⟩
  · left
    by_cases hheader : header = true
    · rw [if_pos ⟨by omega, hheader⟩]
      exact ⟨_, rfl⟩
    · rw [if_neg fun h => hheader h.2, if_pos (by omega)]
      exact ⟨_, rfl⟩

theorem attempt_eq_ok {rec : Record} {call : Call} {parts : StepParts} {line : String}
    (h : attempt r lowerExp rec call = .ok (parts, line)) :
    stepLineOf r lowerExp rec parts = .ok line := by
  obtain ⟨parts', -, h⟩ := bind_eq_ok.1 h
  obtain ⟨line', hline, h⟩ := bind_eq_ok.1 h
  cases h
  exact hline

theorem stepLineOf_canonical {rec : Record} {parts : StepParts} {line : String}
    (h : stepLineOf r lowerExp rec parts = .ok line) : ∃ j, canonical lowerExp j = .ok line := by
  obtain ⟨line', hline, h⟩ := bind_eq_ok.1 h
  obtain ⟨_, -, h⟩ := bind_eq_ok.1 h
  cases h
  exact ⟨_, hline⟩

/-- What a call does: nothing, or it appends its line, or its write fails. -/
theorem Session.step_cases (r : Reader) (lowerExp : F64 → String) (s : Session) (call : Call) :
    s.step r lowerExp call = s ∨
    ∃ parts line, stepLineOf r lowerExp s.record parts = .ok line ∧
      s.record.history.stopped = false ∧ line.utf8ByteSize ≤ MAX_STEP_LINE_BYTES ∧
      s.record.history.bytes + line.utf8ByteSize + 1 ≤ MAX_SESSION_HISTORY_BYTES ∧
      (s.step r lowerExp call =
        ⟨⟨s.record.uri, ⟨s.record.history.bytes + line.utf8ByteSize + 1, s.record.history.stopped,
            s.record.history.file ++ (Text.bytes line ++ [LF])⟩, some parts.id⟩,
          s.acknowledged ++ [line], s.failed⟩ ∨
      ∃ kept, s.step r lowerExp call =
        ⟨⟨s.record.uri, ⟨s.record.history.bytes, true,
            s.record.history.file ++ (Text.bytes line ++ [LF]).take kept⟩, s.record.lastStep⟩,
          s.acknowledged, some (line, kept)⟩) := by
  rw [Session.step, recordStep]
  cases hattempt : attempt r lowerExp s.record call with
  | error e => exact .inl rfl
  | ok attempted =>
    obtain ⟨parts, line⟩ := attempted
    have hline := attempt_eq_ok hattempt
    dsimp only
    rcases append_cases s.record.history line false call.written with ⟨e, happend⟩ |
      ⟨hstopped, hsize, hbytes, ⟨hwritten, happend⟩ | ⟨kept, detail, hwritten, happend⟩⟩
    · left
      rw [happend]
      dsimp only
      cases call.written with
      | done => rfl
      | failed kept detail =>
        dsimp only
        rw [Bool.and_not_self]
        rfl
    · right
      rw [happend]
      exact ⟨parts, line, hline, hstopped, hsize, hbytes, .inl rfl⟩
    · right
      rw [happend, hwritten]
      dsimp only
      rw [hstopped]
      exact ⟨parts, line, hline, rfl, hsize, hbytes, .inr ⟨kept, rfl⟩⟩

section

variable {header : Header} {headerLine : String} {s : Session} {st : Reading}

/-- The reader keeps the line that the writer is about to write. -/
theorem Holds.stepLine (hfaithful : Faithful r) (h : Holds r header headerLine s st)
    {parts : StepParts} {line : String}
    (hline : stepLineOf r lowerExp s.record parts = .ok line)
    (hsize : line.utf8ByteSize ≤ MAX_STEP_LINE_BYTES)
    (hbytes : s.record.history.bytes + line.utf8ByteSize + 1 ≤ MAX_SESSION_HISTORY_BYTES) :
    SessionHistory.stepLine r st (Text.bytes line ++ [LF]) =
      .ok ⟨st.n + 1, st.total + (Text.bytes line ++ [LF]).length,
        ⟨ACTIONS, st.chain.seen ++ [parts.id], some parts.id, some parts.id⟩, some header,
        st.lines ++ [line]⟩ := by
  refine stepLine_of_readLine ?_ ?_
  · rw [h.total, List.length_append, Text.length_bytes, List.length_singleton]
    omega
  · rw [h.count, h.header_eq]
    exact readLine_step hfaithful hline hsize h.actions h.parent

/-- **One call** keeps the reader and the writer together. -/
theorem Holds.step (lowerExp : F64 → String) (hfaithful : Faithful r)
    (h : Holds r header headerLine s st) (call : Call) :
    ∃ st', Holds r header headerLine (s.step r lowerExp call) st' := by
  rcases s.step_cases r lowerExp call with hsame |
    ⟨parts, line, hline, hstopped, hsize, hbytes, hstep⟩
  · rw [hsame]
    exact ⟨st, h⟩
  · have hread := h.stepLine hfaithful hline hsize hbytes
    have hnone : s.failed = none := by
      rw [← Option.not_isSome_iff_eq_none, ← h.stopped, hstopped]
      decide
    obtain ⟨j, hj⟩ := stepLineOf_canonical hline
    have hbreak := (canonicalLine hfaithful hj).no_break
    rcases hstep with hstep | ⟨kept, hstep⟩
    · -- The line was acknowledged.
      rw [hstep]
      refine ⟨_, ?_, h.stopped, h.reads.concat hbreak hread, ?_, ?_, rfl, rfl, rfl, ?_, ?_⟩
      · dsimp only
        rw [h.file, hnone, leftOf, List.append_nil, List.append_nil, ← List.cons_append,
          ended_append, ended_cons line, ended_nil]
      · dsimp only
        rw [h.count, List.length_append, List.length_singleton]
      · dsimp only
        rw [h.total, List.length_append, Text.length_bytes, List.length_singleton, Nat.add_assoc]
      · dsimp only
        rw [h.lines_eq, List.cons_append]
      · intro line' kept' hfailed
        rw [hnone] at hfailed
        cases hfailed
    · -- Its write failed.
      rw [hstep]
      refine ⟨st, ?_, rfl, h.reads, h.count, h.total, h.actions, h.parent, h.header_eq, h.lines_eq, ?_⟩
      · dsimp only
        rw [h.file, hnone, leftOf, List.append_nil, leftOf]
      · intro line' kept' hfailed
        cases hfailed
        exact ⟨hbreak, _, hread, rfl, rfl⟩

/-- **A run** keeps them together. -/
theorem Holds.run (lowerExp : F64 → String) (hfaithful : Faithful r) (calls : List Call)
    (h : Holds r header headerLine s st) :
    ∃ st', Holds r header headerLine (s.run r lowerExp calls) st' := by
  induction calls generalizing s st with
  | nil => exact ⟨st, h⟩
  | cons call calls ih =>
    obtain ⟨st', h'⟩ := h.step lowerExp hfaithful call
    exact ih h'

end

/-- A new record holds its header. -/
theorem holds_create (hfaithful : Faithful r) {reference : DatasetRef} {files : Except SkpError Unit}
    {written : Written} {rec : Record}
    (h : create r lowerExp reference files written = .ok rec) :
    ∃ headerLine v datasets st, canonical lowerExp (headerObject reference.toJson) = .ok headerLine ∧
      r.fromStr headerLine = .ok v ∧ checkHeader r v = .ok datasets ∧
        Holds r ⟨ACTIONS, datasets⟩ headerLine ⟨rec, [], none⟩ st := by
  obtain ⟨headerLine, hline, h⟩ := bind_eq_ok.1 h
  obtain ⟨_, haccepts, h⟩ := bind_eq_ok.1 h
  obtain ⟨_, -, h⟩ := bind_eq_ok.1 h
  have hcanonical := canonicalLine hfaithful hline
  rcases append_cases History.new headerLine true written with ⟨e, happend⟩ |
    ⟨-, hsize, hbytes, ⟨-, happend⟩ | ⟨kept, detail, -, happend⟩⟩
  · rw [happend] at h
    cases h
  · rw [happend] at h
    cases h
    obtain ⟨v, datasets, hv, hcheck, hread⟩ := readLine_headerLine hfaithful hline haccepts hsize
    have htotal : Reading.start.total + (Text.bytes headerLine ++ [LF]).length ≤
        MAX_SESSION_HISTORY_BYTES := by
      rw [List.length_append, Text.length_bytes, List.length_singleton]
      exact hbytes
    have hreads := readsTo_nil.concat hcanonical.no_break (stepLine_of_readLine htotal hread)
    refine ⟨headerLine, v, datasets, _, hline, hv, hcheck, ?_, rfl, hreads, rfl, ?_, rfl, rfl, rfl,
      rfl, ?_⟩
    · show History.new.file ++ _ = _
      rw [leftOf, ended_cons, ended_nil, List.append_nil]
      rfl
    · show 0 + _ = 0 + _ + 1
      rw [List.length_append, Text.length_bytes, List.length_singleton, Nat.add_assoc]
    · intro line kept hfailed
      cases hfailed
  · rw [happend] at h
    cases h

/-! ### What is recovered -/

/-- The line whose write failed, if it reached the file whole. -/
def wholeOf : Option (String × Nat) → List String
  | none => []
  | some (line, kept) => if line.utf8ByteSize < kept then [line] else []

/-- A part of a line is in the file, without its LF. -/
def Torn : Option (String × Nat) → Prop
  | none => False
  | some (line, kept) => 0 < kept ∧ kept ≤ line.utf8ByteSize

theorem wholeOf_of_torn {failed : Option (String × Nat)} (h : Torn failed) : wholeOf failed = [] := by
  cases failed with
  | none => rfl
  | some last =>
    obtain ⟨line, kept⟩ := last
    rw [wholeOf, if_neg (Nat.not_lt.2 h.2)]

/-- What the reader finds where the writer stands. -/
theorem Holds.recovers {header : Header} {headerLine : String} {s : Session} {st : Reading}
    (h : Holds r header headerLine s st) :
    (recoverBytes r s.record.history.file).header = some header ∧
    (recoverBytes r s.record.history.file).lines =
      headerLine :: s.acknowledged ++ wholeOf s.failed ∧
    (¬Torn s.failed → (recoverBytes r s.record.history.file).failure = none) ∧
    (Torn s.failed → ∃ f, (recoverBytes r s.record.history.file).failure = some f ∧
      f.line = s.acknowledged.length + 2) := by
  rw [recoverBytes_eq, h.file, h.reads]
  have hcount : st.n ≠ 0 := by
    rw [h.count]
    omega
  cases hfailed : s.failed with
  | none =>
    rw [leftOf, longest_nil]
    refine ⟨h.header_eq, ?_, fun _ => ?_, fun htorn => htorn.elim⟩
    · show st.lines = _
      rw [h.lines_eq, wholeOf, List.append_nil]
    · exact failure_conclude_none hcount
  | some failed =>
    obtain ⟨line, kept⟩ := failed
    obtain ⟨hbreak, st', hstep, hheader, hlines⟩ := h.failed line kept hfailed
    have hlength : (Text.bytes line).length = line.utf8ByteSize := Text.length_bytes line
    rw [leftOf]
    rcases Nat.lt_or_ge line.utf8ByteSize kept with hwhole | hpart
    · -- The line is there whole.
      rw [List.take_of_length_le (by simp; omega), longest_line hbreak hstep, longest_nil]
      have hn : st'.n ≠ 0 := by
        obtain ⟨_, _, _, -, -, rfl⟩ := stepLine_eq_ok hstep
        exact Nat.succ_ne_zero _
      refine ⟨hheader, ?_, fun _ => ?_, fun htorn => ?_⟩
      · rw [wholeOf, if_pos hwhole]
        exact hlines.trans (by rw [h.lines_eq])
      · exact failure_conclude_none hn
      · have := htorn.2
        omega
    · rw [List.take_append_of_le_length (by omega), wholeOf, if_neg (by omega), List.append_nil]
      rcases Nat.eq_zero_or_pos kept with rfl | hpos
      · -- Nothing of it is there.
        rw [List.take_zero, longest_nil]
        exact ⟨h.header_eq, h.lines_eq, fun _ => failure_conclude_none hcount,
          fun htorn => absurd htorn.1 (by omega)⟩
      · -- It is torn.
        have hne : (Text.bytes line).take kept ≠ [] := by
          intro hnil
          have := congrArg List.length hnil
          rw [List.length_take, List.length_nil] at this
          omega
        have htorn : LF ∉ (Text.bytes line).take kept := fun hmem =>
          hbreak (List.mem_of_mem_take hmem)
        obtain ⟨f, hf⟩ := refusesTorn (r := r) st _ htorn
        rw [longest_torn hne htorn hf]
        refine ⟨h.header_eq, h.lines_eq, fun hnot => absurd ⟨hpos, hpart⟩ hnot, fun _ => ⟨f, ?_, ?_⟩⟩
        · exact failure_conclude_some
        · rw [stepLine_eq_error hf, h.count]

/-- **What the writer acknowledges, the reader recovers**, after every run of one record: the header,
the acknowledged lines in order, and the line whose write failed where it reached the file whole.
The reader fails at a torn line only. -/
theorem recoverBytes_written (hfaithful : Faithful r) {reference : DatasetRef}
    {files : Except SkpError Unit} {written : Written} {rec : Record}
    (hcreate : create r lowerExp reference files written = .ok rec) (calls : List Call) :
    ∃ s headerLine v datasets, s = Session.run r lowerExp ⟨rec, [], none⟩ calls ∧
      canonical lowerExp (headerObject reference.toJson) = .ok headerLine ∧
      r.fromStr headerLine = .ok v ∧ checkHeader r v = .ok datasets ∧
      (recoverBytes r s.record.history.file).header = some ⟨ACTIONS, datasets⟩ ∧
      (recoverBytes r s.record.history.file).lines =
        headerLine :: s.acknowledged ++ wholeOf s.failed ∧
      (¬Torn s.failed → (recoverBytes r s.record.history.file).failure = none) ∧
      (Torn s.failed → ∃ f, (recoverBytes r s.record.history.file).failure = some f ∧
        f.line = s.acknowledged.length + 2) := by
  obtain ⟨headerLine, v, datasets, st, hline, hv, hcheck, hholds⟩ := holds_create hfaithful hcreate
  obtain ⟨st', hholds'⟩ := hholds.run lowerExp hfaithful calls
  exact ⟨_, headerLine, v, datasets, rfl, hline, hv, hcheck, hholds'.recovers⟩

/-! ### A reader over the grammar -/

theorem denotes_self (v : Value) : repeats v = false → Denotes v v := by
  induction v using Value.ind with
  | null => exact fun _ => .null
  | bool b => exact fun _ => .bool b
  | number n =>
    intro _
    cases n with
    | posInt n => exact .posInt n
    | negInt n => exact .negInt n
    | float x => exact .float x x
  | string s => exact fun _ => .string s
  | array items ih =>
    intro h
    exact .array (List.forall₂_same.2 fun v hv => ih v hv (of_repeatsItems h v hv))
  | object members ih =>
    intro h
    obtain ⟨hnodup, hmembers⟩ := of_repeatsMembers h List.nodup_nil
    exact Denotes.of_nodup hnodup fun m hm => ih m hm (hmembers m hm)

/-- The grammar as the reader's library, for texts that repeat no key. -/
def grammar : Reader where
  fromStr text := match parse text with
    | some v => if repeats v then .error "" else .ok v
    | none => .error ""
  stringFromStr text := match parse text with
    | some (.string s) => .ok s
    | _ => .error ""
  display _ := ""
  debug _ := ""

theorem faithful_grammar : Faithful grammar where
  decodes := by
    intro text key h
    show (match parse text with | some (.string s) => _ | _ => _) = _
    rw [h]
  denotes := by
    intro text tree v htree h
    replace h : (match parse text with
      | some v => if repeats v then .error "" else .ok v | none => .error "") = Except.ok v := h
    rw [htree] at h
    dsimp only at h
    split_ifs at h with hrepeats
    cases h
    exact denotes_self _ (by simpa using hrepeats)

/-- A canonical text is read as its tree. -/
theorem fromStr_grammar {j : Renderer.Json} {line : String} (h : toCanonicalString j = .ok line) :
    grammar.fromStr line = .ok j.value := by
  obtain ⟨hadmissible, -, hparse, -⟩ := toCanonicalString_faithful h
  show (match parse line with | some v => if repeats v then .error "" else .ok v | none => .error "")
    = Except.ok j.value
  rw [hparse]
  exact if_neg (by rw [repeats_value hadmissible]; decide)

/-- A text of the writer, and a bound on its bytes. -/
theorem exists_text {j : Renderer.Json} {n : Nat}
    (h : ((writeValue "$" j).toOption.map fun t => decide (t.length ≤ n)) = some true) :
    ∃ line, toCanonicalString j = .ok line ∧ line.utf8ByteSize ≤ 4 * n := by
  rw [toCanonicalString]
  cases hj : writeValue "$" j with
  | error e =>
    rw [hj] at h
    cases h
  | ok t =>
    rw [hj] at h
    have hlen : t.length ≤ n := of_decide_eq_true (Option.some.inj h)
    refine ⟨String.ofList t, rfl, Nat.le_trans (Text.utf8ByteSize_le _) ?_⟩
    rw [String.length_ofList]
    omega

/-- A linked file without claims. -/
def linkedFile : DatasetRef where
  uri := "spatial://dataset/ref/0123456789abcdef0123456789abcdef"
  locators := [.machineRecorded]
  observed := ⟨10, none, 4, none⟩
  admission := ⟨none, none⟩

theorem create_of_append {r : Reader} {lowerExp : F64 → String} {reference : DatasetRef}
    {line : String} {history : History}
    (hcanonical : canonical lowerExp (headerObject reference.toJson) = .ok line)
    (haccepts : readerAccepts r line true = .ok ())
    (happend : History.new.append line true .done = (history, .ok ())) :
    create r lowerExp reference (.ok ()) .done = .ok ⟨reference.uri, history, none⟩ := by
  rw [create, hcanonical]
  show (readerAccepts r line true >>= fun _ => _) = _
  rw [haccepts, happend]
  rfl

theorem create_linkedFile : ∃ headerLine, headerLine.utf8ByteSize ≤ 8000 ∧
    create grammar (fun _ => "") linkedFile (.ok ()) .done = .ok ⟨linkedFile.uri,
      ⟨headerLine.utf8ByteSize + 1, false, Text.bytes headerLine ++ [LF]⟩, none⟩ := by
  obtain ⟨headerLine, hline, hsize⟩ := exists_text (j := headerObject linkedFile.toJson) (n := 2000)
    (by decide +kernel)
  have hcanonical : canonical (fun _ => "") (headerObject linkedFile.toJson) = .ok headerLine := by
    rw [canonical, hline]
  have hcheck : ((checkHeader grammar (headerObject linkedFile.toJson).value).map fun _ => ()) =
      .ok () := by
    decide +kernel
  have haccepts := readerAccepts_of_checkHeader (fromStr_grammar hline) hcheck
  have happend : History.new.append headerLine true .done =
      (⟨headerLine.utf8ByteSize + 1, false, Text.bytes headerLine ++ [LF]⟩, .ok ()) := by
    have h₁ : lineCeiling true = 1048576 := rfl
    have h₂ : MAX_SESSION_HISTORY_BYTES = 33554432 := rfl
    have h₃ : History.new.bytes = 0 := rfl
    rw [History.append]
    dsimp only
    rw [if_neg (by decide), if_neg (by omega), if_neg (by omega), if_neg (by omega)]
    simp [History.new]
  exact ⟨headerLine, hsize, create_of_append hcanonical haccepts happend⟩

/-- A step of a session on `linkedFile`. -/
def sample : StepParts where
  id := "step_0123456789abcdef0123456789abcdef"
  written := "2026-01-02T03:04:05Z"
  kind := "data"
  intent := .obj [("action", .str "filter.apply"), ("params", .obj [("filter", .null)])]
  dependencies := .obj [
    ("fields", .arr []),
    ("crs", .obj [
      ("identifier", .str "EPSG:4326"),
      ("provenance", .str "crs:declared"),
      ("definition", stateJson ("none-admitted", "no definition"))]),
    ("geometry_types", .arr [])]
  observed := linkedFile.observed

/-- The line of the step behind `parent`. -/
def sampleObject (parent : Option String) : Renderer.Json :=
  .obj [("step", stepObject sample.id parent sample.written sample.kind sample.intent
    sample.dependencies (.obj [("dataset", .str linkedFile.uri),
      ("identity", .obj [("observed", observedJson sample.observed)])]))]

theorem stepLineOf_sample {rec : Record} (huri : rec.uri = linkedFile.uri)
    (hparent : rec.lastStep = none ∨ rec.lastStep = some sample.id) :
    ∃ line, stepLineOf grammar (fun _ => "") rec sample = .ok line ∧ line.utf8ByteSize ≤ 8000 ∧
      Renderer.toCanonicalString (sampleObject rec.lastStep) = .ok line := by
  obtain ⟨line, hline, hsize⟩ : ∃ line, Renderer.toCanonicalString (sampleObject rec.lastStep) =
      .ok line ∧ line.utf8ByteSize ≤ 4 * 2000 := by
    rcases hparent with hparent | hparent <;> rw [hparent] <;> exact exists_text (by decide +kernel)
  have hcheck : checkStep grammar (member (sampleObject rec.lastStep).value "step") ACTIONS =
      .ok () := by
    rcases hparent with hparent | hparent <;> rw [hparent] <;> decide +kernel
  have haccepts := readerAccepts_of_checkStep (fromStr_grammar hline) hcheck
  have hcanonical : canonical (fun _ => "") (sampleObject rec.lastStep) = .ok line := by
    rw [canonical, hline]
  refine ⟨line, bind_eq_ok.2 ⟨line, ?_, bind_eq_ok.2 ⟨(), haccepts, rfl⟩⟩, hsize, hline⟩
  show canonical _ (.obj [("step", stepObject _ _ _ _ _ _ (.obj [("dataset", .str rec.uri), _]))]) = _
  rw [huri]
  exact hcanonical

/-- The call that brings it to the file. -/
def sampleCall : Call := ⟨.ok sample, .done⟩

/-- The step is acknowledged wherever there is room for it. -/
theorem step_sampleCall {s s' : Session} (hstep : s.step grammar (fun _ => "") sampleCall = s')
    (huri : s.record.uri = linkedFile.uri)
    (hparent : s.record.lastStep = none ∨ s.record.lastStep = some sample.id)
    (hstopped : s.record.history.stopped = false) (hbytes : s.record.history.bytes ≤ 10000000) :
    ∃ line, Renderer.toCanonicalString (sampleObject s.record.lastStep) = .ok line ∧
      s'.acknowledged = s.acknowledged ++ [line] ∧ s'.failed = s.failed ∧
      s'.record.uri = linkedFile.uri ∧ s'.record.lastStep = some sample.id ∧
      s'.record.history.stopped = false ∧
      s'.record.history.bytes ≤ s.record.history.bytes + 8001 := by
  obtain ⟨line, hline, hsize, htext⟩ := stepLineOf_sample huri hparent
  have hattempt : attempt grammar (fun _ => "") s.record sampleCall = .ok (sample, line) :=
    bind_eq_ok.2 ⟨sample, rfl, bind_eq_ok.2 ⟨line, hline, rfl⟩⟩
  have h₁ : lineCeiling false = 262144 := rfl
  have h₂ : MAX_SESSION_HISTORY_BYTES = 33554432 := rfl
  have happend : s.record.history.append line false .done =
      ({ s.record.history with
          bytes := s.record.history.bytes + line.utf8ByteSize + 1,
          file := s.record.history.file ++ (Text.bytes line ++ [LF]) }, .ok ()) := by
    rw [History.append]
    dsimp only
    rw [if_neg (by rw [hstopped]; decide), if_neg (by omega), if_neg (by omega), if_neg (by omega)]
  have hrecord : recordStep grammar (fun _ => "") s.record sampleCall =
      (⟨s.record.uri, ⟨s.record.history.bytes + line.utf8ByteSize + 1, s.record.history.stopped,
        s.record.history.file ++ (Text.bytes line ++ [LF])⟩, some sample.id⟩, .ok ()) := by
    rw [recordStep, hattempt]
    dsimp only
    rw [show sampleCall.written = .done from rfl, happend]
  rw [Session.step, hrecord, hattempt] at hstep
  subst hstep
  exact ⟨line, htext, rfl, rfl, huri, rfl, hstopped, by
    show s.record.history.bytes + line.utf8ByteSize + 1 ≤ _
    omega⟩

/-- A call whose write fails after the first byte of its line. -/
def failingCall : Call := ⟨.ok sample, .failed 1 "no space left on device"⟩

theorem step_failingCall {s s' : Session} (hstep : s.step grammar (fun _ => "") failingCall = s')
    (huri : s.record.uri = linkedFile.uri)
    (hparent : s.record.lastStep = none ∨ s.record.lastStep = some sample.id)
    (hstopped : s.record.history.stopped = false) (hbytes : s.record.history.bytes ≤ 10000000) :
    s'.acknowledged = s.acknowledged ∧ Torn s'.failed := by
  obtain ⟨line, hline, hsize, htext⟩ := stepLineOf_sample huri hparent
  have hpos : 1 ≤ line.utf8ByteSize := by
    refine Nat.one_le_iff_ne_zero.2 fun hzero => ?_
    obtain rfl := String.utf8ByteSize_eq_zero_iff.1 hzero
    cases (toCanonicalString_faithful htext).2.2.1
  have hattempt : attempt grammar (fun _ => "") s.record failingCall = .ok (sample, line) :=
    bind_eq_ok.2 ⟨sample, rfl, bind_eq_ok.2 ⟨line, hline, rfl⟩⟩
  have h₁ : lineCeiling false = 262144 := rfl
  have h₂ : MAX_SESSION_HISTORY_BYTES = 33554432 := rfl
  have happend : s.record.history.append line false failingCall.written =
      ({ s.record.history with
          stopped := true,
          file := s.record.history.file ++ (Text.bytes line ++ [LF]).take 1 },
        .error (.sessionHistoryUnwritable "no space left on device")) := by
    rw [History.append]
    dsimp only
    rw [if_neg (by rw [hstopped]; decide), if_neg (by omega), if_neg (by omega), if_neg (by omega)]
    rfl
  have hrecord : recordStep grammar (fun _ => "") s.record failingCall =
      (⟨s.record.uri, ⟨s.record.history.bytes, true,
        s.record.history.file ++ (Text.bytes line ++ [LF]).take 1⟩, s.record.lastStep⟩,
        .error (.sessionHistoryUnwritable "no space left on device")) := by
    rw [recordStep, hattempt]
    dsimp only
    rw [happend]
  rw [Session.step, hrecord, hattempt] at hstep
  dsimp only [failingCall] at hstep
  rw [hstopped, if_pos (by decide)] at hstep
  subst hstep
  exact ⟨rfl, Nat.one_pos, hpos⟩

/-- Two steps are acknowledged, and one byte of a third line is in the file. -/
theorem recoverBytes_written_linkedFile : ∃ rec s headerLine l₁ l₂,
    create grammar (fun _ => "") linkedFile (.ok ()) .done = .ok rec ∧
    s = Session.run grammar (fun _ => "") ⟨rec, [], none⟩ [sampleCall, sampleCall, failingCall] ∧
    s.acknowledged = [l₁, l₂] ∧
    (recoverBytes grammar s.record.history.file).lines = [headerLine, l₁, l₂] ∧
    ∃ f, (recoverBytes grammar s.record.history.file).failure = some f ∧ f.line = 4 := by
  obtain ⟨headerLine, hsize, hcreate⟩ := create_linkedFile
  -- The record is named, so that no session is computed.
  generalize hrec : Record.mk linkedFile.uri _ none = rec at hcreate
  obtain ⟨s, headerLine', v, datasets, hs, -, -, -, -, hlines, -, hfailure⟩ :=
    recoverBytes_written faithful_grammar hcreate [sampleCall, sampleCall, failingCall]
  obtain ⟨s₁, hs₁⟩ : ∃ s₁, (Session.mk rec [] none).step grammar (fun _ => "") sampleCall = s₁ :=
    ⟨_, rfl⟩
  obtain ⟨s₂, hs₂⟩ : ∃ s₂, s₁.step grammar (fun _ => "") sampleCall = s₂ := ⟨_, rfl⟩
  have hs₃ : s₂.step grammar (fun _ => "") failingCall = s := by
    rw [hs, Session.run, List.foldl_cons, List.foldl_cons, List.foldl_cons, List.foldl_nil, hs₁, hs₂]
  have hb₀ : rec.history.bytes = headerLine.utf8ByteSize + 1 := hrec ▸ rfl
  obtain ⟨l₁, -, ha₁, -, hu₁, hp₁, ht₁, hb₁⟩ :=
    step_sampleCall hs₁ (hrec ▸ rfl) (.inl (hrec ▸ rfl)) (hrec ▸ rfl) (hb₀.trans_le (by omega))
  obtain ⟨l₂, -, ha₂, -, hu₂, hp₂, ht₂, hb₂⟩ :=
    step_sampleCall hs₂ hu₁ (.inr hp₁) ht₁ (by dsimp only at hb₁; omega)
  obtain ⟨ha₃, htorn⟩ := step_failingCall hs₃ hu₂ (.inr hp₂) ht₂ (by dsimp only at hb₁; omega)
  have hacknowledged : s.acknowledged = [l₁, l₂] := by
    rw [ha₃, ha₂, ha₁]
    rfl
  rw [wholeOf_of_torn htorn, hacknowledged] at hlines
  obtain ⟨f, hf, hline⟩ := hfailure htorn
  rw [hacknowledged] at hline
  exact ⟨rec, s, headerLine', l₁, l₂, hcreate, hs, hacknowledged, hlines, f, hf, hline⟩

end SpatialIde.Kernel.SessionHistory
