import SpatialIde.Engine.Stream.System

/-! # A stream ends clean only on a whole, unchanged read

The clean end has no message of its own: the consumer finds the channel gone.
`stream_terminal` says what it stands for, and what an error stands for, in every
state that is reached by any order of moves, as long as the verification of the
returned connection does not unwind.  `unwound_ends_clean` is a run in which it
does: the thread is gone before the post-check, and the consumer is told that the
stream is over.
-/

namespace SpatialIde.Engine.Stream

open Lib Wkb

variable {K : Kernels} {plan : Plan} {source : Source} {opened : SourceDescriptor}

/-! ### What is left of a run -/

/-- A thread that has not unwound can come to its end. -/
theorem Sound.exists_end {s : System} (h : Sound K plan source opened s) :
    ∃ rest r, (producerThread K plan source opened).Runs (s.trace ++ rest) r ∧
      ⟨.verify, .unwound⟩ ∉ rest := by
  cases hthread : s.thread with
  | none =>
    obtain ⟨r, hr⟩ := h.gone hthread
    exact ⟨[], r, by rwa [List.append_nil], List.not_mem_nil⟩
  | some p =>
    refine ⟨(p.eval quietly).1, (p.eval quietly).2, ?_, fun hmem => ?_⟩
    · exact (h.running p hthread).runs (Prog.runs_eval quietly p)
    · have hanswer := Prog.answer_eval quietly p _ hmem
      cases hanswer

theorem error_notMem_map {items : List Item} {e : EngineError} :
    (.error e : Message) ∉ items.map .ok := by
  intro h
  obtain ⟨item, -, hitem⟩ := List.mem_map.1 h
  cases hitem

/-- **Where an error has been sent the thread has concluded with it.** -/
theorem Sound.concluded_error {s : System} (h : Sound K plan source opened s)
    (hver : ⟨.verify, .unwound⟩ ∉ s.trace) {e : EngineError} (he : .error e ∈ messages s.trace) :
    ∃ body outcome now, Concluded K plan source opened s.trace body outcome now true ∧
      terminal outcome (postCheck opened now).1 = some e := by
  obtain ⟨rest, r, hruns, hrest⟩ := h.exists_end
  have hnone : ⟨.verify, .unwound⟩ ∉ s.trace ++ rest := by
    intro hmem
    rcases List.mem_append.1 hmem with hmem | hmem
    · exact hver hmem
    · exact hrest hmem
  obtain ⟨body, outcome, now, there, hcon⟩ := concluded_of_runs hruns hnone
  have hmessages := hcon.messages_eq
  obtain ⟨v, hwhole⟩ := hcon.whole
  have hmem : .error e ∈ messages (terminalEvents outcome (postCheck opened now).1 there) := by
    have hall : .error e ∈ messages (s.trace ++ rest) := by
      rw [messages_append]
      exact List.mem_append_left _ he
    rw [hmessages] at hall
    rcases List.mem_append.1 hall with hall | hall
    · exact absurd hall error_notMem_map
    · exact hall
  unfold terminalEvents at hmem hwhole
  cases hterminal : terminal outcome (postCheck opened now).1 with
  | none => rw [hterminal] at hmem; cases hmem
  | some e' =>
    rw [hterminal] at hmem hwhole
    cases there with
    | false => cases hmem
    | true =>
      cases List.mem_singleton.1 hmem
      -- The error is the last thing the thread asks, so nothing is left of it.
      have hnil : rest = [] := by
        rcases List.eq_nil_or_concat rest with hnil | ⟨front, last, rfl⟩
        · exact hnil
        · exfalso
          rw [List.concat_eq_append, ← List.append_assoc] at hwhole
          have hfront := congrArg messages (List.append_inj' hwhole rfl).1
          rw [messages_append, messages_before hcon.produced] at hfront
          exact error_notMem_map (hfront ▸ List.mem_append_left _ he)
      subst hnil
      rw [List.append_nil] at hcon
      exact ⟨body, outcome, now, hcon, hterminal⟩

/-! ### What the consumer is told -/

/-- **A whole, unchanged read**: the result was drained, every row of it was delivered in a batch,
and the source, read again afterwards, differs in no component. -/
structure WholeRead (K : Kernels) (plan : Plan) (source : Source) (opened : SourceDescriptor)
    (s : System) : Prop where
  drained : source.ending = .drained
  delivered : ∃ bs : List (Batcher.Batch Row), s.stream.out = bs.map (itemOf plan) ∧
    (bs.map Batcher.Batch.items).flatten = source.chunks.flatMap (rowsOf K plan)
  unchanged : ∃ body rest now, s.trace = body ++ rest ∧
    (produce K plan source).Runs body (.ok ()) ∧ ⟨.reread, .ok now⟩ ∈ rest ∧
    opened.componentsDifferingFrom now = []

/-- **What an error stands for**: the consumer could not write a batch, `produce` failed with it, or
`produce` succeeded and the source had changed. -/
inductive Blamed (K : Kernels) (plan : Plan) (source : Source) (opened : SourceDescriptor)
    (s : System) (e : EngineError) : Prop
  | own (unwritten : s.unwritten = some e)
  | produced (body rest : List (Event Ask.Answer)) (whole : s.trace = body ++ rest)
      (failed : (produce K plan source).Runs body (.error e))
  | changed (body rest : List (Event Ask.Answer)) (now : Except String SourceDescriptor)
      (detail : String) (whole : s.trace = body ++ rest)
      (succeeded : (produce K plan source).Runs body (.ok ())) (reread : ⟨.reread, now⟩ ∈ rest)
      (found : changedDetail (postCheck opened now).1 = some detail)
      (isChange : e = .sourceChanged detail)

theorem Concluded.rest {s : System} {body : List (Event Ask.Answer)}
    {outcome : Except EngineError Unit} {now : Except String SourceDescriptor} {there : Bool}
    (h : Concluded K plan source opened s.trace body outcome now there) :
    ∃ rest, s.trace = body ++ rest ∧ ⟨.reread, now⟩ ∈ rest := by
  obtain ⟨v, hwhole⟩ := h.whole
  refine ⟨leaseEvents outcome v ++ checkEvents opened now ++
    terminalEvents outcome (postCheck opened now).1 there, ?_, ?_⟩
  · rw [hwhole, List.append_assoc, List.append_assoc, List.append_assoc]
  · simp [checkEvents]

/-- The terminal of a thread that concluded with an error. -/
theorem Concluded.blamed {s : System} {body : List (Event Ask.Answer)}
    {outcome : Except EngineError Unit} {now : Except String SourceDescriptor} {there : Bool}
    (h : Concluded K plan source opened s.trace body outcome now there) {e : EngineError}
    (he : terminal outcome (postCheck opened now).1 = some e) :
    Blamed K plan source opened s e := by
  obtain ⟨rest, hwhole, hreread⟩ := h.rest
  cases outcome with
  | error e' =>
    cases he
    exact .produced body rest hwhole h.produced
  | ok u =>
    cases hpost : (postCheck opened now).1 with
    | ok u =>
      rw [hpost] at he
      cases he
    | error e' =>
      rw [hpost] at he
      cases he
      obtain ⟨detail, hdetail, hfound⟩ := postCheck_eq_error hpost
      exact .changed body rest now detail hwhole h.produced hreread hfound hdetail

/-- **Where the channel was found empty and gone, the read was whole.** -/
theorem Sound.wholeRead {s : System} (h : Sound K plan source opened s)
    (hver : ⟨.verify, .unwound⟩ ∉ s.trace) (items : s.received = s.stream.out.map .ok)
    (gone : s.thread = none) (all : s.received = messages s.trace)
    (accepted : ∀ m, ⟨.send m, false⟩ ∉ s.trace) :
    WholeRead K plan source opened s ∧ ∃ now, ⟨.reread, now⟩ ∈ s.trace ∧
      s.stats = ⟨(postCheck opened now).2, changedDetail (postCheck opened now).1⟩ := by
  obtain ⟨r, hruns⟩ := h.gone gone
  obtain ⟨body, outcome, now, there, hcon⟩ := concluded_of_runs hruns hver
  obtain ⟨rest, hwhole, hreread⟩ := hcon.rest
  have hmessages := hcon.messages_eq
  rw [← all, items] at hmessages
  -- No terminal was sent: none was refused, and every message was a batch.
  have hterminal : terminal outcome (postCheck opened now).1 = none := by
    cases hterminal : terminal outcome (postCheck opened now).1 with
    | none => rfl
    | some e =>
      exfalso
      obtain ⟨v, hlast⟩ := hcon.whole
      unfold terminalEvents at hmessages hlast
      rw [hterminal] at hmessages hlast
      cases there with
      | true =>
        have hmem : (.error e : Message) ∈ s.stream.out.map .ok := by
          rw [hmessages]
          exact List.mem_append_right _ List.mem_cons_self
        exact error_notMem_map hmem
      | false =>
        refine accepted (.error e) ?_
        rw [hlast]
        exact List.mem_append_right _ List.mem_cons_self
  unfold terminalEvents at hmessages
  rw [hterminal] at hmessages
  cases outcome with
  | error e => cases hterminal
  | ok u =>
    cases hpost : (postCheck opened now).1 with
    | error e =>
      rw [hpost] at hterminal
      cases hterminal
    | ok u =>
      obtain ⟨d, rfl, hsame⟩ := postCheck_eq_ok hpost
      obtain ⟨hdrained, bs, hflat, -, -, -, hsends⟩ := produce_whole hcon.produced
      have hout : s.stream.out = sends body := by
        have hmap : s.stream.out.map (Except.ok : Item → Message) = (sends body).map .ok := by
          rw [hmessages]
          exact List.append_nil _
        exact List.map_injective_iff.2 (fun _ _ h => Except.ok.inj h) hmap
      refine ⟨⟨hdrained, ⟨bs, hout.trans hsends, hflat⟩, body, rest, d, hwhole, hcon.produced,
        hreread, hsame⟩, .ok d, hcon.mem_reread, ?_⟩
      rw [h.stats, hcon.stats_eq]

/-- Two places in one list: they are the same, or each is beside the other. -/
theorem places {α : Type} {c c' : α} {post post' : List α} : ∀ {pre pre' : List α},
    pre ++ c :: post = pre' ++ c' :: post' →
    (pre = pre' ∧ c = c' ∧ post = post') ∨ c ∈ pre' ∨ (c' ∈ pre ∧ c ∈ post') := by
  intro pre
  induction pre with
  | nil =>
    intro pre' h
    cases pre' with
    | nil =>
      obtain ⟨hc, hpost⟩ := List.cons.inj h
      exact .inl ⟨rfl, hc, hpost⟩
    | cons d pre' =>
      obtain ⟨hc, -⟩ := List.cons.inj h
      exact .inr (.inl (hc ▸ List.mem_cons_self))
  | cons d pre ih =>
    intro pre' h
    cases pre' with
    | nil =>
      obtain ⟨hc, hpost⟩ := List.cons.inj h
      exact .inr (.inr ⟨hc ▸ List.mem_cons_self, hpost ▸ by simp⟩)
    | cons d' pre' =>
      obtain ⟨hd, hrest⟩ := List.cons.inj h
      rcases ih hrest with ⟨hpre, hc, hpost⟩ | hmem | ⟨hmem, hmem'⟩
      · exact .inl ⟨by rw [hd, hpre], hc, hpost⟩
      · exact .inr (.inl (List.mem_cons_of_mem _ hmem))
      · exact .inr (.inr ⟨List.mem_cons_of_mem _ hmem, hmem'⟩)

theorem Call.error?_of_isEnd {c : Call} (h : c.isEnd = true) : c.error? = none := by
  unfold Call.isEnd at h
  split at h
  · rfl
  · rfl
  · cases h

/-- **An engine stream ends clean only on a whole, unchanged read.**  In every state reached by a
thread whose verification does not unwind, its consumer, cancellations, changes of the file and a
drop, in any order: the clean end stands for a whole, unchanged read; an error comes once, with
batches only in front of it and nothing but the end behind it, and stands for what it should; and
when the consumer is told either, the post-check has been recorded. -/
theorem stream_terminal {s : System} (h : Reachable K plan source opened s)
    (hver : ⟨.verify, .unwound⟩ ∉ s.trace) :
    (∀ pre c post, s.calls = pre ++ c :: post → c.isEnd = true → (∀ d ∈ pre, d.error? = none) →
      WholeRead K plan source opened s) ∧
    (∀ pre c post e, s.calls = pre ++ c :: post → c.error? = some e →
      (∀ d ∈ pre, d.Quiet) ∧ (∀ d ∈ post, d.isEnd = true) ∧ Blamed K plan source opened s e) ∧
    (∀ c ∈ s.calls, ¬c.Quiet → s.unwritten = none → ∃ now, ⟨.reread, now⟩ ∈ s.trace ∧
      s.stats = ⟨(postCheck opened now).2, changedDetail (postCheck opened now).1⟩) := by
  have hs := h.sound
  -- Where an error ended the stream, it is the only one.
  have herror : ∀ {pre post : List Call} {call : Call} {e : EngineError},
      s.calls = pre ++ call :: post → (∀ c ∈ pre, c.Quiet) → call.error? = some e →
      (∀ c ∈ post, c.isEnd = true) → Blamed K plan source opened s e →
      (∀ pre c post, s.calls = pre ++ c :: post → c.isEnd = true → (∀ d ∈ pre, d.error? = none) →
        WholeRead K plan source opened s) ∧
      ∀ pre c post e, s.calls = pre ++ c :: post → c.error? = some e →
        (∀ d ∈ pre, d.Quiet) ∧ (∀ d ∈ post, d.isEnd = true) ∧ Blamed K plan source opened s e := by
    intro pre post call e hcalls hquiet hcall hends hblamed
    refine ⟨?_, ?_⟩
    · intro pre' c post' hcalls' hend hclean
      rcases places (hcalls'.symm.trans hcalls) with ⟨-, rfl, -⟩ | hmem | ⟨hmem, -⟩
      · rw [Call.error?_of_isEnd hend] at hcall
        cases hcall
      · rw [(hquiet c hmem).2] at hend
        cases hend
      · rw [hclean call hmem] at hcall
        cases hcall
    · intro pre' c post' e' hcalls' herr
      rcases places (hcalls'.symm.trans hcalls) with ⟨rfl, rfl, rfl⟩ | hmem | ⟨-, hmem⟩
      · rw [hcall] at herr
        cases herr
        exact ⟨hquiet, hends, hblamed⟩
      · rw [(hquiet c hmem).1] at herr
        cases herr
      · rw [Call.error?_of_isEnd (hends c hmem)] at herr
        cases herr
  cases hs.stage with
  | reading finished quiet items written =>
    refine ⟨?_, ?_, fun c hc hnot => absurd (quiet c hc) hnot⟩
    · intro pre c post hcalls hend
      rw [(quiet c (by rw [hcalls]; simp)).2] at hend
      cases hend
    · intro pre c post e hcalls herr
      rw [(quiet c (by rw [hcalls]; simp)).1] at herr
      cases herr
  | unwritten e pre post call finished calls quiet error ends unwritten =>
    obtain ⟨hclean, herr⟩ := herror calls quiet error ends (.own unwritten)
    refine ⟨hclean, herr, fun _ _ _ hnone => ?_⟩
    rw [unwritten] at hnone
    cases hnone
  | failed e pre post call finished calls quiet error ends items written =>
    have hmem : .error e ∈ messages s.trace := by
      refine hs.received.subset ?_
      rw [items]
      simp
    obtain ⟨body, outcome, now, hcon, hterminal⟩ := hs.concluded_error hver hmem
    obtain ⟨hclean, herr⟩ := herror calls quiet error ends (hcon.blamed hterminal)
    refine ⟨hclean, herr, fun _ _ _ _ => ⟨now, hcon.mem_reread, ?_⟩⟩
    rw [hs.stats, hcon.stats_eq]
  | ended pre post finished calls quiet ends items gone all accepted written =>
    obtain ⟨hwhole, hstats⟩ := hs.wholeRead hver items gone all accepted
    refine ⟨fun _ _ _ _ _ _ => hwhole, ?_, fun _ _ _ _ => hstats⟩
    intro pre' c post' e hcalls herr
    have hc : c ∈ pre ++ post := by
      rw [← calls, hcalls]
      simp
    rcases List.mem_append.1 hc with hc | hc
    · rw [(quiet c hc).1] at herr
      cases herr
    · rw [Call.error?_of_isEnd (ends c hc)] at herr
      cases herr

/-! ### Two runs -/

theorem Reachable.answer {s : System} (h : Reachable K plan source opened s) {q : Ask}
    {k : q.Answer → Thread Unit} {a : q.Answer} (running : s.thread = some (.ask q k))
    (fits : s.Answers q a) : Reachable K plan source opened (s.answered ⟨q, a⟩ (k a)) :=
  h.step (.answer running fits)

/-- A call of `next_into` that finds the channel gone. -/
theorem Reachable.ended {s : System} (h : Reachable K plan source opened s)
    (there : s.dropped = false) (consumes : s.Consumes .disconnected []) :
    Reachable K plan source opened (s.called .disconnected [] (.ok 0)
      (.next (s.stream.nextInto none (.ok 0)).1) (s.stream.nextInto none (.ok 0)).2) :=
  h.step (.nextInto there consumes)

/-- A call of `next_into` that takes the first message. -/
theorem Reachable.takes {s : System} (h : Reachable K plan source opened s)
    (there : s.dropped = false) (goes : s.stream.finished = false) {m : Message}
    {rest : List Message} (first : s.queue = m :: rest) (ipc : Except EngineError Nat) :
    Reachable K plan source opened (s.called (.message m) rest ipc
      (.next (s.stream.nextInto (some m) ipc).1) (s.stream.nextInto (some m) ipc).2) := by
  have consumes : s.Consumes (timed (some m)) rest := by
    rw [System.Consumes, if_neg (by rw [goes]; decide)]
    exact .message first
  exact h.step (.nextInto there consumes)

/-- A call of `next_into_timeout` that finds nothing yet. -/
theorem Reachable.waits {s : System} (h : Reachable K plan source opened s)
    (there : s.dropped = false) (consumes : s.Consumes .timeout []) :
    Reachable K plan source opened (s.called .timeout [] (.ok 0)
      (.poll (s.stream.nextIntoTimeout .timeout (.ok 0)).1)
      (s.stream.nextIntoTimeout .timeout (.ok 0)).2) :=
  h.step (.nextIntoTimeout there consumes)

theorem notMem_of_questions {tr : List (Event Ask.Answer)} {qs : List Ask} {q : Ask}
    (h : tr.map Sigma.fst = qs) (hq : q ∉ qs) (a : q.Answer) : ⟨q, a⟩ ∉ tr := by
  intro hmem
  exact hq (h ▸ List.mem_map_of_mem hmem)

/-- A descriptor of a file of a given size. -/
def sized (byteSize : UInt64) : SourceDescriptor := ⟨byteSize, none, 8, none, 16⟩

/-- A result of one row. -/
def oneRow : Source := ⟨[pointChunk [pointRow 1]], .drained⟩

/-- The row, read whole from a file that stays as it is. -/
theorem stream_terminal_row : ∃ s info, Reachable .logical pointPlan oneRow (sized 100) s ∧
    s.calls = [.poll .wouldBlock, .next (some (.ok info)), .next none] ∧
    WholeRead .logical pointPlan oneRow (sized 100) s := by
  have h₀ : Reachable .logical pointPlan oneRow (sized 100) _ := .start false (.ok (sized 100))
  have h₁ := h₀.answer (q := .isCancelled) (a := false) rfl rfl
  have h₂ := h₁.answer (q := .prepare) (a := .ok ()) rfl trivial
  have h₃ := h₂.answer (q := .isCancelled) (a := false) rfl rfl
  have h₄ := h₃.answer (q := .execute) (a := .ok ()) rfl trivial
  have hwait := h₄.waits rfl (.timeout rfl (fun h => by cases h) : System.Receives _ _ _)
  have h₅ := hwait.answer (q := .isCancelled) (a := false) rfl rfl
  have h₆ := h₅.answer (q := .isCancelled) (a := false) rfl rfl
  have h₇ := h₆.answer (q := .isCancelled) (a := false) rfl rfl
  have h₈ := h₇.answer (q := .isCancelled) (a := false) rfl rfl
  have h₉ := h₈.answer (q := .flush _ _ _ _) (a := ()) rfl trivial
  have h₁₀ := h₉.answer (q := .isCancelled) (a := false) rfl rfl
  have h₁₁ := h₁₀.answer (q := .send _) (a := true) rfl ⟨rfl, Nat.succ_pos _⟩
  have htaken := h₁₁.takes rfl rfl rfl (.ok 40)
  have h₁₂ := htaken.answer (q := .verify) (a := .verified) rfl trivial
  have h₁₃ := h₁₂.answer (q := .reread) (a := .ok (sized 100)) rfl rfl
  have h₁₄ := h₁₃.answer (q := .recordPostCheckBytes 16) (a := ()) rfl trivial
  have hclosed := h₁₄.step (.close rfl (.ret ()))
  have hend := hclosed.ended rfl (.disconnected rfl rfl : System.Receives _ _ _)
  refine ⟨_, _, hend, rfl, ?_⟩
  refine (stream_terminal hend ?_).1 [.poll .wouldBlock, .next (some (.ok _))] (.next none) [] rfl
    rfl ?_
  · intro hmem
    have hverified : (⟨.verify, .unwound⟩ : Event Ask.Answer) ∈ [⟨.verify, .verified⟩] := by
      have hasked := List.mem_filter_of_mem hmem (p := fun e => e.1 matches .verify) rfl
      exact hasked
    cases hverified with
    | tail _ hnil => cases hnil
  · intro d hd
    rcases List.mem_cons.1 hd with rfl | hd
    · rfl
    · cases List.mem_singleton.1 hd
      rfl
/-- **A verification that unwinds ends a stream clean**: the file has changed, nobody has looked, and
the consumer is told that the stream is over. -/
theorem unwound_ends_clean : ∃ s, Reachable .logical pointPlan ⟨[], .drained⟩ (sized 100) s ∧
    s.calls = [.next none] ∧ (∀ now, ⟨.reread, now⟩ ∉ s.trace) ∧ s.file = .ok (sized 99) ∧
    (sized 100).componentsDifferingFrom (sized 99) = ["size"] := by
  have h₀ : Reachable .logical pointPlan ⟨[], .drained⟩ (sized 100) _ :=
    .start false (.ok (sized 100))
  have h₁ := h₀.answer (q := .isCancelled) (a := false) rfl rfl
  have h₂ := h₁.answer (q := .prepare) (a := .ok ()) rfl trivial
  have h₃ := h₂.answer (q := .isCancelled) (a := false) rfl rfl
  have h₄ := h₃.answer (q := .execute) (a := .ok ()) rfl trivial
  have h₅ := h₄.answer (q := .isCancelled) (a := false) rfl rfl
  have hchange := h₅.step (.change _ (.ok (sized 99)))
  have h₆ := hchange.answer (q := .isCancelled) (a := false) rfl rfl
  have h₇ := h₆.answer (q := .verify) (a := .unwound) rfl trivial
  have hclosed := h₇.step (.close (p := .throw ⟨⟩) rfl (.throw _))
  have hend := hclosed.ended rfl (.disconnected rfl rfl : System.Receives _ _ _)
  refine ⟨_, hend, rfl, ?_, rfl, by decide⟩
  have hasked : ∀ qs : List Ask, qs = [.isCancelled, .prepare, .isCancelled, .execute, .isCancelled,
      .isCancelled, .verify] → .reread ∉ qs := by
    intro qs hqs
    simp [hqs]
  exact notMem_of_questions rfl (hasked _ rfl)

end SpatialIde.Engine.Stream
