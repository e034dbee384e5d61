import SpatialIde.Engine.Stream.Conserve

/-! # The producer thread

What the thread of a stream does around `produce`: the lease is decided, the source
is read again, what that found is recorded, and only then a terminal leaves the
thread.  A clean end has no message; it is the channel going away, as it does when
the thread unwinds.

`Concluded` is how a run ends that does not unwind (`concluded_of_runs`).
-/

namespace SpatialIde.Engine.Stream

open Lib Wkb

/-- The thread unwinds, and its end of the channel with it. -/
structure Unwound where
  deriving DecidableEq, Repr

abbrev Thread := Prog Ask.Answer Unwound

/-- The lease's fate: a completed query returns its connection, verified first; any error discards
it.  The panic of a verification is caught by nobody. -/
def decideLease (outcome : Except EngineError Unit) : Thread Unit :=
  match outcome with
  | .ok () => do
    let verification : Verification ← Prog.query (A := Ask.Answer) Ask.verify
    match verification with
    | .verified => pure ()
    | .failed => pure ()
    | .unwound => .throw ⟨⟩
  | .error _ => pure ()

/-- What the post-check makes of the source as it is now, and the footer bytes it read. -/
def postCheck (opened : SourceDescriptor) (now : Except String SourceDescriptor) :
    Except EngineError Unit × UInt64 :=
  match now with
  | .ok now => (opened.refuseIfChanged now, now.footerBytesRead)
  | .error e =>
    (.error (.sourceChanged ("\x7bthe source could not be re-read: " ++ e ++ "\x7d")), 0)

/-- `post_check_source`. -/
def postCheckSource (opened : SourceDescriptor) : Thread (Except EngineError Unit × UInt64) := do
  let now : Except String SourceDescriptor ← Prog.query (A := Ask.Answer) Ask.reread
  return postCheck opened now

/-- The change a post-check found, if it found one. -/
def changedDetail : Except EngineError Unit → Option String
  | .error (.sourceChanged detail) => some detail
  | _ => none

/-- The error a stream ends in: its own, or what the post-check found. -/
def terminal (outcome post : Except EngineError Unit) : Option EngineError :=
  match outcome with
  | .ok () =>
    match post with
    | .ok () => none
    | .error e => some e
  | .error e => some e

def recordChange (post : Except EngineError Unit) : Thread Unit :=
  match changedDetail post with
  | some detail => Prog.query (A := Ask.Answer) (Ask.recordSourceChanged detail)
  | none => pure ()

/-- Best-effort: with the consumer gone there is nobody to tell. -/
def sendTerminal (outcome post : Except EngineError Unit) : Thread Unit :=
  match terminal outcome post with
  | some e => do
    let _ ← Prog.query (A := Ask.Answer) (Ask.send (.error e))
    pure ()
  | none => pure ()

/-- The closure of the thread `engine-geoparquet-stream`. -/
def producerThread (K : Kernels) (plan : Plan) (source : Source) (opened : SourceDescriptor) :
    Thread Unit := do
  let outcome ← (produce K plan source).outcome
  decideLease outcome
  let post ← postCheckSource opened
  Prog.query (A := Ask.Answer) (Ask.recordPostCheckBytes post.2)
  recordChange post.1
  sendTerminal outcome post.1

/-! ### What the thread sends -/

/-- What `produce` asks: it sends batches only, and none of it is the thread's own. -/
def Ask.Producing : Ask → Prop
  | .isCancelled | .prepare | .execute | .budgetElapsed | .flush .. | .send (.ok _) => True
  | _ => False

variable {K : Kernels} {plan : Plan}

theorem asks_stopIfCancelled : Prog.Asks Ask.Producing stopIfCancelled :=
  (Prog.Asks.query trivial).bind fun cancelled => by cases cancelled <;> exact trivial

theorem asks_classify {α : Type} (phase message : String) :
    Prog.Asks Ask.Producing (classify phase message : Producer α) :=
  (Prog.Asks.query trivial).bind fun cancelled => by cases cancelled <;> exact trivial

theorem asks_flush (p : Pending) (batchIndex targetBytes : Nat) (cutBy : BatchCut) :
    Prog.Asks Ask.Producing (flush K plan p batchIndex targetBytes cutBy) := by
  refine (Prog.Asks.query trivial).bind fun _ => (Prog.Asks.lift _).bind fun item => ?_
  refine asks_stopIfCancelled.bind fun _ => (Prog.Asks.query trivial).bind fun there => ?_
  cases there <;> exact trivial

theorem asks_rowStep (cols : ChunkColumns) (row : Nat) (id : UInt64) (st : LoopState) :
    Prog.Asks Ask.Producing (rowStep K plan cols row id st) := by
  have hcut : ∀ incoming target (st : LoopState),
      Prog.Asks Ask.Producing (cutBefore K plan cols row incoming target st) := by
    intro incoming target st
    unfold cutBefore
    split_ifs
    · exact (asks_flush _ _ _ _).bind fun _ => .pure _
    · exact .pure _
  have happend : ∀ wkb (st : LoopState),
      Prog.Asks Ask.Producing (appendRow cols row id wkb st) := by
    intro wkb st
    unfold appendRow
    split <;> exact trivial
  have hbudget : ∀ emitted k, Prog.Asks Ask.Producing (strideBudget plan emitted k) := by
    intro emitted k
    unfold strideBudget
    split_ifs
    · exact (Prog.Asks.query trivial).bind fun _ => .pure _
    · exact .pure _
    · exact .pure _
  have hafter : ∀ target reached (st : LoopState),
      Prog.Asks Ask.Producing (cutAfter K plan cols row target reached st) := by
    intro target reached st
    unfold cutAfter
    split
    · exact (asks_flush _ _ _ _).bind fun _ => .pure _
    · exact .pure _
  refine asks_stopIfCancelled.bind fun _ => (Prog.Asks.lift _).bind fun wkb => ?_
  refine (hcut _ _ _).bind fun st => (happend _ st).bind fun st => ?_
  exact (hbudget _ _).bind fun budget => hafter _ _ _

theorem asks_rowLoop (cols : ChunkColumns) : ∀ (ids : List UInt64) (row : Nat) (st : LoopState),
    Prog.Asks Ask.Producing (rowLoop K plan cols row ids st) := by
  intro ids
  induction ids with
  | nil => intro row st; exact .pure st
  | cons id ids ih => intro row st; exact (asks_rowStep cols row id st).bind fun st => ih _ st

theorem asks_chunkStep (firstRowAt : Bool) (chunk : RecordBatch) (st : LoopState) :
    Prog.Asks Ask.Producing (chunkStep K plan firstRowAt chunk st) := by
  have hbudget : ∀ st : LoopState,
      Prog.Asks Ask.Producing (boundaryBudget K plan firstRowAt st) := by
    intro st
    unfold boundaryBudget
    by_cases hb : budgeted plan = true ∧ st.emitted = 0 ∧ st.pending.ids ≠ []
    · rw [if_pos hb]
      cases firstRowAt with
      | true =>
        refine (Prog.Asks.query trivial).bind fun expired => ?_
        cases expired with
        | true => exact (asks_flush _ _ _ _).bind fun _ => .pure _
        | false => exact .pure _
      | false => exact .pure _
    · rw [if_neg hb]
      exact .pure _
  exact (Prog.Asks.lift _).bind fun cols => (asks_rowLoop cols _ _ _).bind fun st => hbudget _

theorem asks_chunkLoop (ending : Ending) : ∀ (chunks : List RecordBatch) (firstRowAt : Bool)
    (st : LoopState), Prog.Asks Ask.Producing (chunkLoop K plan ending firstRowAt chunks st) := by
  intro chunks
  induction chunks with
  | nil =>
    intro firstRowAt st
    refine asks_stopIfCancelled.bind fun _ => ?_
    cases ending with
    | drained => exact .pure _
    | panicked payload => exact asks_classify _ _
  | cons chunk chunks ih =>
    intro firstRowAt st
    exact asks_stopIfCancelled.bind fun _ => (asks_chunkStep _ _ _).bind fun st => ih _ st

/-- **`produce` asks for nothing that is the thread's own**, and sends no error. -/
theorem asks_produce (source : Source) : Prog.Asks Ask.Producing (produce K plan source) := by
  refine asks_stopIfCancelled.bind fun _ => (Prog.Asks.query trivial).bind fun prepared => ?_
  cases prepared with
  | error e => exact asks_classify _ _
  | ok u =>
    refine Prog.Asks.bind ?_ fun _ => (asks_chunkLoop _ _ _ _).bind fun st => ?_
    · refine asks_stopIfCancelled.bind fun _ => (Prog.Asks.query trivial).bind fun result => ?_
      cases result with
      | error e => exact asks_classify _ _
      | ok u => exact asks_stopIfCancelled
    · split_ifs
      · exact (asks_flush _ _ _ _).bind fun _ => .pure _
      · exact .pure _

/-- The messages the channel has accepted in a run, in order. -/
def messages (tr : List (Event Ask.Answer)) : List (Except EngineError Item) :=
  tr.filterMap fun
    | ⟨.send m, true⟩ => some m
    | _ => none

@[simp] theorem messages_append (t₁ t₂ : List (Event Ask.Answer)) :
    messages (t₁ ++ t₂) = messages t₁ ++ messages t₂ := List.filterMap_append

theorem messages_producing {tr : List (Event Ask.Answer)} (h : ∀ e ∈ tr, e.1.Producing) :
    messages tr = (sends tr).map .ok := by
  induction tr with
  | nil => rfl
  | cons e tr ih =>
    have htail := ih fun e he => h e (List.mem_cons_of_mem _ he)
    have hhead := h e List.mem_cons_self
    obtain ⟨q, a⟩ := e
    cases q with
    | send m =>
      cases m with
      | error e => exact hhead.elim
      | ok item =>
        cases a with
        | true => exact congrArg (Except.ok item :: ·) htail
        | false => exact htail
    | _ => exact htail

/-- What the post-check left behind for the host. -/
structure PostCheckStats where
  postCheckBytesRead : UInt64
  sourceChangedDetail : Option String
  deriving DecidableEq, Repr

namespace PostCheckStats

def record (s : PostCheckStats) : Event Ask.Answer → PostCheckStats
  | ⟨.recordPostCheckBytes bytes, _⟩ => { s with postCheckBytesRead := bytes }
  | ⟨.recordSourceChanged detail, _⟩ => { s with sourceChangedDetail := some detail }
  | _ => s

theorem foldl_producing (s : PostCheckStats) {tr : List (Event Ask.Answer)}
    (h : ∀ e ∈ tr, e.1.Producing) : tr.foldl record s = s := by
  induction tr with
  | nil => rfl
  | cons e tr ih =>
    have hhead := h e List.mem_cons_self
    have hsame : s.record e = s := by
      obtain ⟨q, a⟩ := e
      cases q
      case recordPostCheckBytes bytes => exact hhead.elim
      case recordSourceChanged detail => exact hhead.elim
      all_goals rfl
    rw [List.foldl_cons, hsame]
    exact ih fun e he => h e (List.mem_cons_of_mem _ he)

end PostCheckStats

/-! ### How a run ends -/

variable (K plan)

def leaseEvents (outcome : Except EngineError Unit) (v : Verification) :
    List (Event Ask.Answer) :=
  match outcome with
  | .ok () => [⟨.verify, v⟩]
  | .error _ => []

def checkEvents (opened : SourceDescriptor) (now : Except String SourceDescriptor) :
    List (Event Ask.Answer) :=
  [⟨.reread, now⟩, ⟨.recordPostCheckBytes (postCheck opened now).2, ()⟩] ++
    match changedDetail (postCheck opened now).1 with
    | some detail => [⟨.recordSourceChanged detail, ()⟩]
    | none => []

def terminalEvents (outcome post : Except EngineError Unit) (there : Bool) :
    List (Event Ask.Answer) :=
  match terminal outcome post with
  | some e => [⟨.send (.error e), there⟩]
  | none => []

/-- **A run of the thread that did not unwind**: what `produce` did, the lease, the post-check and
its record, and last the terminal. -/
structure Concluded (source : Source) (opened : SourceDescriptor) (tr body : List (Event Ask.Answer))
    (outcome : Except EngineError Unit) (now : Except String SourceDescriptor) (there : Bool) :
    Prop where
  produced : (produce K plan source).Runs body outcome
  whole : ∃ v, tr = body ++ leaseEvents outcome v ++ checkEvents opened now ++
    terminalEvents outcome (postCheck opened now).1 there

variable {K plan}

theorem runs_decideLease {outcome : Except EngineError Unit} {tr : List (Event Ask.Answer)}
    {r : Except Unwound Unit} (h : (decideLease outcome).Runs tr r)
    (hver : ⟨.verify, .unwound⟩ ∉ tr) : r = .ok () ∧ ∃ v, tr = leaseEvents outcome v := by
  cases outcome with
  | error e =>
    obtain ⟨rfl, rfl⟩ := Prog.runs_pure.1 h
    exact ⟨rfl, .verified, rfl⟩
  | ok u =>
    obtain ⟨v, t, rfl, hv⟩ := Prog.runs_query_bind.1 h
    cases v with
    | unwound => exact absurd List.mem_cons_self hver
    | verified =>
      obtain ⟨rfl, rfl⟩ := Prog.runs_pure.1 hv
      exact ⟨rfl, _, rfl⟩
    | failed =>
      obtain ⟨rfl, rfl⟩ := Prog.runs_pure.1 hv
      exact ⟨rfl, _, rfl⟩

theorem runs_recordChange {post : Except EngineError Unit} {tr : List (Event Ask.Answer)}
    {r : Except Unwound Unit} (h : (recordChange post).Runs tr r) :
    r = .ok () ∧ tr = match changedDetail post with
      | some detail => [⟨.recordSourceChanged detail, ()⟩]
      | none => [] := by
  unfold recordChange at h
  cases hdetail : changedDetail post with
  | none =>
    rw [hdetail] at h
    obtain ⟨rfl, rfl⟩ := Prog.runs_pure.1 h
    exact ⟨rfl, rfl⟩
  | some detail =>
    rw [hdetail] at h
    obtain ⟨a, t, rfl, hpure⟩ := Prog.runs_ask.1 h
    obtain ⟨rfl, rfl⟩ := Prog.runs_ret.1 hpure
    exact ⟨rfl, rfl⟩

theorem runs_sendTerminal {outcome post : Except EngineError Unit} {tr : List (Event Ask.Answer)}
    {r : Except Unwound Unit} (h : (sendTerminal outcome post).Runs tr r) :
    ∃ there, tr = terminalEvents outcome post there := by
  unfold sendTerminal at h
  unfold terminalEvents
  cases hterminal : terminal outcome post with
  | none =>
    rw [hterminal] at h
    exact ⟨true, (Prog.runs_pure.1 h).1⟩
  | some e =>
    rw [hterminal] at h
    obtain ⟨there, t, rfl, hpure⟩ := Prog.runs_query_bind.1 h
    obtain ⟨rfl, -⟩ := Prog.runs_pure.1 hpure
    exact ⟨there, rfl⟩

/-- **Every run of the thread that does not unwind concludes.** -/
theorem concluded_of_runs {source : Source} {opened : SourceDescriptor}
    {tr : List (Event Ask.Answer)} {r : Except Unwound Unit}
    (h : (producerThread K plan source opened).Runs tr r)
    (hver : ⟨.verify, .unwound⟩ ∉ tr) :
    ∃ body outcome now there, Concluded K plan source opened tr body outcome now there := by
  rcases Prog.runs_bind.1 h with ⟨e, rfl, hfail⟩ | ⟨outcome, body, t₁, rfl, hbody, hrest⟩
  · obtain ⟨_, he, -⟩ := Prog.runs_outcome.1 hfail
    cases he
  obtain ⟨_, he, hproduced⟩ := Prog.runs_outcome.1 hbody
  cases he
  rcases Prog.runs_bind.1 hrest with ⟨e, rfl, hfail⟩ | ⟨_, t₂, t₃, rfl, hlease, hcheck⟩
  · obtain ⟨he, -⟩ := runs_decideLease hfail fun hmem => hver (by simp [hmem])
    cases he
  obtain ⟨-, v, rfl⟩ := runs_decideLease hlease fun hmem => hver (by simp [hmem])
  obtain ⟨now, t₄, rfl, hbytes⟩ := Prog.runs_query_bind.1 hcheck
  obtain ⟨_, t₅, rfl, hrecord⟩ := Prog.runs_query_bind.1 hbytes
  rcases Prog.runs_bind.1 hrecord with ⟨e, rfl, hfail⟩ | ⟨_, t₆, t₇, rfl, hchange, hterminal⟩
  · obtain ⟨he, -⟩ := runs_recordChange hfail
    cases he
  obtain ⟨-, rfl⟩ := runs_recordChange hchange
  obtain ⟨there, rfl⟩ := runs_sendTerminal hterminal
  refine ⟨body, outcome, now, there, hproduced, v, ?_⟩
  unfold checkEvents
  simp only [List.append_assoc, List.cons_append, List.nil_append]

/-- In front of the terminal only batches are sent. -/
theorem messages_before {source : Source} {opened : SourceDescriptor}
    {body : List (Event Ask.Answer)} {outcome : Except EngineError Unit}
    (h : (produce K plan source).Runs body outcome) {v : Verification}
    {now : Except String SourceDescriptor} :
    messages (body ++ leaseEvents outcome v ++ checkEvents opened now) =
      (sends body).map .ok := by
  have hlease : messages (leaseEvents outcome v) = [] := by
    cases outcome <;> rfl
  have hcheck : messages (checkEvents opened now) = [] := by
    unfold checkEvents
    cases changedDetail (postCheck opened now).1 <;> rfl
  rw [messages_append, messages_append, messages_producing ((asks_produce source).runs h), hlease,
    hcheck, List.append_nil, List.append_nil]

namespace Concluded

variable {source : Source} {opened : SourceDescriptor} {tr body : List (Event Ask.Answer)}
  {outcome : Except EngineError Unit} {now : Except String SourceDescriptor} {there : Bool}

/-- The batches `produce` sent, then the terminal. -/
theorem messages_eq (h : Concluded K plan source opened tr body outcome now there) :
    messages tr = (sends body).map .ok ++
      messages (terminalEvents outcome (postCheck opened now).1 there) := by
  obtain ⟨v, rfl⟩ := h.whole
  rw [messages_append, messages_before h.produced]

theorem mem_reread (h : Concluded K plan source opened tr body outcome now there) :
    ⟨.reread, now⟩ ∈ tr := by
  obtain ⟨v, rfl⟩ := h.whole
  simp [checkEvents]

/-- What the host finds recorded. -/
theorem stats_eq (h : Concluded K plan source opened tr body outcome now there) :
    tr.foldl PostCheckStats.record ⟨0, none⟩ =
      ⟨(postCheck opened now).2, changedDetail (postCheck opened now).1⟩ := by
  obtain ⟨v, rfl⟩ := h.whole
  have hbody := PostCheckStats.foldl_producing ⟨0, none⟩ ((asks_produce source).runs h.produced)
  have hlease : ∀ s : PostCheckStats, (leaseEvents outcome v).foldl PostCheckStats.record s = s := by
    intro s
    cases outcome <;> rfl
  have hterminal : ∀ s : PostCheckStats, (terminalEvents outcome (postCheck opened now).1
      there).foldl PostCheckStats.record s = s := by
    intro s
    unfold terminalEvents
    cases terminal outcome (postCheck opened now).1 <;> rfl
  rw [List.foldl_append, List.foldl_append, List.foldl_append, hbody, hlease, hterminal]
  unfold checkEvents
  cases changedDetail (postCheck opened now).1 <;> rfl

end Concluded

/-- The post-check finds no change only where it read the source and nothing differs. -/
theorem postCheck_eq_ok {opened : SourceDescriptor} {now : Except String SourceDescriptor}
    (h : (postCheck opened now).1 = .ok ()) :
    ∃ d, now = .ok d ∧ opened.componentsDifferingFrom d = [] := by
  cases now with
  | error e => cases h
  | ok d =>
    refine ⟨d, rfl, ?_⟩
    have hrefuse : opened.refuseIfChanged d = .ok () := h
    unfold SourceDescriptor.refuseIfChanged at hrefuse
    by_contra hdiffers
    rw [if_neg hdiffers] at hrefuse
    cases hrefuse

/-- What it finds otherwise is a change. -/
theorem postCheck_eq_error {opened : SourceDescriptor} {now : Except String SourceDescriptor}
    {e : EngineError} (h : (postCheck opened now).1 = .error e) :
    ∃ detail, e = .sourceChanged detail ∧ changedDetail (postCheck opened now).1 = some detail := by
  rw [h]
  cases now with
  | error text =>
    cases h
    exact ⟨_, rfl, rfl⟩
  | ok d =>
    have hrefuse : opened.refuseIfChanged d = .error e := h
    unfold SourceDescriptor.refuseIfChanged at hrefuse
    dsimp only at hrefuse
    split_ifs at hrefuse
    cases hrefuse
    exact ⟨_, rfl, rfl⟩

end SpatialIde.Engine.Stream
