import SpatialIde.Kernel.SessionHistory.Reader

/-! # Recovery is stable under cuts

The reader is a machine on lines (`stepLine`) that keeps the longest valid prefix.  A history cut
short gives the lines that end inside the cut, and the kept lines alone give themselves.
-/

namespace SpatialIde.Kernel.SessionHistory

open Lib Lib.Json

/-- The bytes of lines, each with its LF. -/
def ended (lines : List String) : List UInt8 := endLines LF (lines.map Text.bytes)

@[simp] theorem ended_nil : ended [] = [] := rfl

@[simp] theorem ended_cons (line : String) (lines : List String) :
    ended (line :: lines) = Text.bytes line ++ LF :: ended lines := by
  simp [ended]

@[simp] theorem ended_append (lines lines' : List String) :
    ended (lines ++ lines') = ended lines ++ ended lines' := by
  simp [ended]

/-- What a line must be, and its bytes. -/
theorem lineText_eq_ok {raw : List UInt8} {first : Bool} {text : String} :
    lineText raw first = .ok text ↔ raw = Text.bytes text ++ [LF] ∧
      text.utf8ByteSize ≤ lineCeiling first ∧ 0 ∉ Text.bytes text := by
  constructor
  · intro h
    rw [lineText] at h
    by_cases hlast : raw.getLast? = some LF
    · obtain ⟨body, rfl⟩ := List.getLast?_eq_some_iff.1 hlast
      rw [if_neg (not_not.2 hlast), List.dropLast_concat] at h
      dsimp only at h
      split at h
      · cases h
      · next hceiling =>
        split at h
        · cases h
        · next hnul =>
          split at h
          · cases h
          · next text' htext =>
            cases h
            have hbytes := Text.bytes_of_fromUtf8 htext
            rw [← hbytes] at hceiling hnul
            exact ⟨by rw [hbytes], Nat.le_of_not_lt hceiling, hnul⟩
    · rw [if_pos hlast] at h
      cases h
  · rintro ⟨rfl, hceiling, hnul⟩
    rw [lineText, if_neg (by simp), List.dropLast_concat]
    dsimp only
    rw [if_neg (by rw [Text.length_bytes]; omega), if_neg hnul, Text.fromUtf8_bytes]

theorem readLine_text {r : Reader} {raw : List UInt8} {first : Bool} {chain chain' : Chain}
    {header header' : Option Header} {text : String}
    (h : readLine r raw first chain header = .ok (text, chain', header')) :
    lineText raw first = .ok text := by
  obtain ⟨text', htext, h⟩ := bind_eq_ok.1 h
  obtain ⟨v, hv, h⟩ := bind_eq_ok.1 h
  split_ifs at h
  · obtain ⟨datasets, -, h⟩ := bind_eq_ok.1 h
    cases h
    exact htext
  · obtain ⟨chain'', -, h⟩ := bind_eq_ok.1 h
    cases h
    exact htext
  · obtain ⟨chain'', -, h⟩ := bind_eq_ok.1 h
    cases h
    exact htext
  · cases h

/-! ### The machine -/

/-- What the loop carries. -/
structure Reading where
  n : Nat
  total : Nat
  chain : Chain
  header : Option Header
  lines : List String

def Reading.start : Reading := ⟨0, 0, Chain.default, none, []⟩

section

variable (r : Reader)

/-- The loop's body. -/
def stepLine (st : Reading) (raw : List UInt8) : Except Failure Reading :=
  let total := st.total + raw.length
  let line := if total > MAX_SESSION_HISTORY_BYTES then
      malformed "$" ("the history passes " ++ toString MAX_SESSION_HISTORY_BYTES ++ " bytes")
    else readLine r raw (st.n == 0) st.chain st.header
  match line with
  | .ok (text, chain, header) => .ok ⟨st.n + 1, total, chain, header, st.lines ++ [text]⟩
  | .error e => .error ⟨st.n + 1, r.debug e⟩

/-- What is returned once the loop has ended. -/
def conclude (kept : Kept UInt8 Reading Failure) : Recovered :=
  ⟨kept.state.header, kept.state.lines,
    if kept.failure = none ∧ kept.state.n = 0 then some ⟨1, "the file holds no header line"⟩
    else kept.failure⟩

theorem failure_conclude_some {lines : List (List UInt8)} {st : Reading} {f : Failure} :
    (conclude ⟨lines, st, some f⟩).failure = some f := by
  simp [conclude]

theorem failure_conclude_none {lines : List (List UInt8)} {st : Reading} (h : st.n ≠ 0) :
    (conclude ⟨lines, st, none⟩).failure = none := by
  simp [conclude, h]

theorem recoverLines_eq (st : Reading) (raws : List (List UInt8)) :
    recoverLines r st.n st.total st.chain ⟨st.header, st.lines, none⟩ raws =
      conclude (readPieces (stepLine r) st raws) := by
  induction raws generalizing st with
  | nil =>
    rw [recoverLines, readPieces, conclude]
    split_ifs <;> simp_all
  | cons raw raws ih =>
    rw [recoverLines, readPieces]
    simp only [stepLine]
    cases hline : (if st.total + raw.length > MAX_SESSION_HISTORY_BYTES then
        malformed "$" ("the history passes " ++ toString MAX_SESSION_HISTORY_BYTES ++ " bytes")
      else readLine r raw (st.n == 0) st.chain st.header) with
    | ok read =>
      obtain ⟨text, chain, header⟩ := read
      exact ih ⟨st.n + 1, st.total + raw.length, chain, header, st.lines ++ [text]⟩
    | error e =>
      simp [conclude]

theorem recoverBytes_eq (bytes : List UInt8) :
    recoverBytes r bytes = conclude (longest (stepLine r) LF Reading.start bytes) :=
  recoverLines_eq r Reading.start (splitInclusive LF bytes)

variable {r}

theorem stepLine_eq_ok {st st' : Reading} {raw : List UInt8} (h : stepLine r st raw = .ok st') :
    ∃ text chain header, readLine r raw (st.n == 0) st.chain st.header = .ok (text, chain, header) ∧
      st.total + raw.length ≤ MAX_SESSION_HISTORY_BYTES ∧
      st' = ⟨st.n + 1, st.total + raw.length, chain, header, st.lines ++ [text]⟩ := by
  simp only [stepLine] at h
  split at h
  · next text chain header hline =>
    split_ifs at hline with htotal
    · cases hline
    · cases h
      exact ⟨text, chain, header, hline, Nat.le_of_not_lt htotal, rfl⟩
  · cases h

theorem stepLine_of_readLine {st : Reading} {raw : List UInt8} {text : String} {chain : Chain}
    {header : Option Header} (htotal : st.total + raw.length ≤ MAX_SESSION_HISTORY_BYTES)
    (h : readLine r raw (st.n == 0) st.chain st.header = .ok (text, chain, header)) :
    stepLine r st raw =
      .ok ⟨st.n + 1, st.total + raw.length, chain, header, st.lines ++ [text]⟩ := by
  rw [stepLine, if_neg (Nat.not_lt.2 htotal), h]

theorem stepLine_eq_error {st : Reading} {raw : List UInt8} {f : Failure}
    (h : stepLine r st raw = .error f) : f.line = st.n + 1 := by
  simp only [stepLine] at h
  split at h
  · cases h
  · cases h
    rfl

/-- A line without its LF is torn. -/
theorem refusesTorn : RefusesTorn (stepLine r) LF := by
  intro st raw hraw
  cases h : stepLine r st raw with
  | error f => exact ⟨f, rfl⟩
  | ok st' =>
    obtain ⟨text, chain, header, hline, -, -⟩ := stepLine_eq_ok h
    rw [(lineText_eq_ok.1 (readLine_text hline)).1] at hraw
    exact absurd (List.mem_append_right _ List.mem_cons_self) hraw

/-- The texts kept are the kept lines, byte for byte. -/
theorem longest_lines (st : Reading) (s : List UInt8) :
    ∃ texts, (longest (stepLine r) LF st s).state.lines = st.lines ++ texts ∧
      (longest (stepLine r) LF st s).state.n = st.n + texts.length ∧
      (longest (stepLine r) LF st s).lines = texts.map fun t => Text.bytes t ++ [LF] := by
  induction s using lines_induction LF generalizing st with
  | nil => exact ⟨[], by simp [longest_nil]⟩
  | torn l hne h =>
    obtain ⟨f, hf⟩ := refusesTorn (r := r) st l h
    exact ⟨[], by simp [longest_torn hne h hf]⟩
  | line l s h ih =>
    cases hstep : stepLine r st (l ++ [LF]) with
    | error f => exact ⟨[], by simp [longest_line_error h hstep]⟩
    | ok st' =>
      obtain ⟨text, chain, header, hline, -, rfl⟩ := stepLine_eq_ok hstep
      obtain ⟨texts, hlines, hn, hkept⟩ := ih
        ⟨st.n + 1, st.total + (l ++ [LF]).length, chain, header, st.lines ++ [text]⟩
      refine ⟨text :: texts, ?_, ?_, ?_⟩ <;> rw [longest_line h hstep]
      · simp only [hlines, List.append_assoc, List.singleton_append]
      · simp only [hn, List.length_cons]
        omega
      · rw [List.map_cons, ← (lineText_eq_ok.1 (readLine_text hline)).1]
        exact congrArg _ hkept

end

/-! ### What is recovered -/

theorem ended_eq_flatten (lines : List String) :
    ended lines = (lines.map fun t => Text.bytes t ++ [LF]).flatten := by
  rw [ended, endLines, List.map_map]
  rfl

/-- What the machine keeps of a file is what the reader recovers. -/
theorem longest_start (r : Reader) (bytes : List UInt8) :
    (longest (stepLine r) LF Reading.start bytes).lines =
        (recoverBytes r bytes).lines.map (fun t => Text.bytes t ++ [LF]) ∧
      (longest (stepLine r) LF Reading.start bytes).state.n = (recoverBytes r bytes).lines.length := by
  obtain ⟨texts, hlines, hn, hkept⟩ := longest_lines (r := r) Reading.start bytes
  have htexts : (recoverBytes r bytes).lines = texts := by
    rw [recoverBytes_eq]
    exact hlines
  rw [htexts, hkept, hn]
  exact ⟨rfl, Nat.zero_add _⟩

theorem flatten_kept (r : Reader) (bytes : List UInt8) :
    (longest (stepLine r) LF Reading.start bytes).lines.flatten =
      ended (recoverBytes r bytes).lines := by
  rw [(longest_start r bytes).1, ended_eq_flatten]

/-- A file of which no line is kept gives no header, and fails at its first line. -/
theorem recoverBytes_of_lines_nil {r : Reader} {bytes : List UInt8}
    (h : (recoverBytes r bytes).lines = []) :
    (recoverBytes r bytes).header = none ∧ ∃ f, (recoverBytes r bytes).failure = some f ∧ f.line = 1 := by
  rcases lines_cases LF bytes with rfl | ⟨hne, hmem⟩ | ⟨l, s, hmem, rfl⟩
  · exact ⟨rfl, _, rfl, rfl⟩
  · obtain ⟨f, hf⟩ := refusesTorn (r := r) Reading.start bytes hmem
    rw [recoverBytes_eq, longest_torn hne hmem hf]
    exact ⟨rfl, f, failure_conclude_some, stepLine_eq_error hf⟩
  · cases hstep : stepLine r Reading.start (l ++ [LF]) with
    | error f =>
      rw [recoverBytes_eq, longest_line_error hmem hstep]
      exact ⟨rfl, f, failure_conclude_some, stepLine_eq_error hstep⟩
    | ok st' =>
      have hkept := (longest_start r (l ++ LF :: s)).1
      rw [h, longest_line hmem hstep] at hkept
      cases hkept

/-- **Recovery is stable under cuts.**  The kept lines are where the file starts; a file cut short
gives the lines that end inside the cut; nothing behind the first failing line matters; and the kept
lines, if there are any, give themselves. -/
theorem recoverBytes_prefix (r : Reader) (b : List UInt8) :
    ended (recoverBytes r b).lines <+: b ∧
    (∀ cut, (recoverBytes r (b.take cut)).lines <+: (recoverBytes r b).lines ∧
      ∀ i, i < (recoverBytes r (b.take cut)).lines.length ↔ i < (recoverBytes r b).lines.length ∧
        (ended ((recoverBytes r b).lines.take (i + 1))).length ≤ cut) ∧
    (∀ bad rest, LF ∉ bad → b = ended (recoverBytes r b).lines ++ bad ++ LF :: rest →
      (recoverBytes r b).failure ≠ none → ∀ rest',
        recoverBytes r (ended (recoverBytes r b).lines ++ bad ++ LF :: rest') = recoverBytes r b) ∧
    ((recoverBytes r b).lines ≠ [] → recoverBytes r (ended (recoverBytes r b).lines) =
      ⟨(recoverBytes r b).header, (recoverBytes r b).lines, none⟩) ∧
    ((recoverBytes r b).lines = [] → (recoverBytes r b).header = none ∧
      ∃ f, (recoverBytes r b).failure = some f ∧ f.line = 1) := by
  refine ⟨?_, fun cut => ?_, fun bad rest hbad hb hfail rest' => ?_, fun hne => ?_,
    recoverBytes_of_lines_nil⟩
  · rw [← flatten_kept]
    exact flatten_lines_prefix _ _ _
  · obtain ⟨hpre, hiff⟩ := lines_take (refusesTorn (r := r)) Reading.start b cut
    rw [(longest_start r b).1, (longest_start r (b.take cut)).1] at hpre
    refine ⟨(List.prefix_map_iff_of_injective ?_).1 hpre, fun i => ?_⟩
    · intro t t' h
      exact Text.bytes_inj.1 (List.append_cancel_right h)
    · have := hiff i
      rw [(longest_start r b).1, (longest_start r (b.take cut)).1, List.length_map, List.length_map,
        ← List.map_take, ← ended_eq_flatten] at this
      exact this
  · cases hmachine : (longest (stepLine r) LF Reading.start b).failure with
    | none =>
      have hall := flatten_lines_eq Reading.start b hmachine
      rw [flatten_kept] at hall
      have := congrArg List.length (hall.trans hb)
      simp only [List.length_append, List.length_cons] at this
      omega
    | some f =>
      have hsame := longest_of_failure hbad (by rw [flatten_kept]; exact hb) hmachine rest'
      rw [flatten_kept] at hsame
      rw [recoverBytes_eq, hsame, ← recoverBytes_eq]
  · have hagain := longest_flatten_lines (refusesTorn (r := r)) Reading.start b
    rw [flatten_kept] at hagain
    have hn : (longest (stepLine r) LF Reading.start b).state.n ≠ 0 := by
      rw [(longest_start r b).2]
      exact fun hlen => hne (List.length_eq_zero_iff.1 hlen)
    rw [recoverBytes_eq r (ended _), hagain, conclude, if_neg (fun h => hn h.2), recoverBytes_eq]
    rfl

/-- A reader of no file. -/
def blind : Reader := ⟨fun _ => .error "", fun _ => .error "", fun _ => "", fun _ => ""⟩

/-- Nothing kept, read again, is an empty file, and an empty file has no header line. -/
theorem recoverBytes_prefix_none_kept :
    ¬∀ b, recoverBytes blind (ended (recoverBytes blind b).lines) =
      ⟨(recoverBytes blind b).header, (recoverBytes blind b).lines, none⟩ := by
  intro h
  have := congrArg Recovered.failure (h [])
  cases this

end SpatialIde.Kernel.SessionHistory
