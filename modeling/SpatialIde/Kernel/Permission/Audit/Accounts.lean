import SpatialIde.Kernel.Permission.Audit.Reader
import SpatialIde.Lib.Json.Text

/-! # Every line of the audit log is accounted for, but an intent written twice

An intent stays pending until an outcome of its attempt comes.  A second intent of the attempt that
comes before it takes the place of the first in the map, and the first line is in no sentence.  Every
other line is in exactly one.
-/

namespace SpatialIde.Kernel.Permission.Audit

open Lib Lib.Json

/-- The lines a sentence is about. -/
def Sentence.lines : Sentence → List Nat
  | corrupt lineNo _ => [lineNo]
  | pair intent outcome => [intent.lineNo, outcome.lineNo]
  | orphanIntent intent => [intent.lineNo]
  | orphanOutcome _ outcome => [outcome.lineNo]

/-- The sentence says what its lines read as, and a pair is of one attempt. -/
def Sentence.Tells (rs : List Reading) : Sentence → Prop
  | corrupt lineNo what => (.corrupt what, lineNo) ∈ rs.zipIdx 1
  | pair intent outcome => ∃ attempt, (.intent attempt intent.record, intent.lineNo) ∈ rs.zipIdx 1 ∧
      (.outcome attempt outcome.record, outcome.lineNo) ∈ rs.zipIdx 1
  | orphanIntent intent => ∃ attempt, (.intent attempt intent.record, intent.lineNo) ∈ rs.zipIdx 1
  | orphanOutcome attempt outcome => (.outcome attempt outcome.record, outcome.lineNo) ∈ rs.zipIdx 1

/-- Every line that is not blank is in exactly one sentence, as what it is. -/
structure Accounts (rs : List Reading) (out : List Sentence) : Prop where
  once : ∀ r n, (r, n) ∈ rs.zipIdx 1 → r ≠ .blank → (out.flatMap Sentence.lines).count n = 1
  tells : ∀ s ∈ out, s.Tells rs

/-- An intent of the attempt, and no outcome of it since. -/
def Waits (rs : List Reading) (attempt : String) : Prop :=
  ∃ before intent after, rs = before ++ .intent attempt intent :: after ∧
    ∀ outcome, .outcome attempt outcome ∉ after

/-- Two intents of one attempt with no outcome of it between them. -/
def Overwrites (rs : List Reading) : Prop :=
  ∃ attempt first second before between after,
    rs = before ++ .intent attempt first :: (between ++ .intent attempt second :: after) ∧
      ∀ outcome, .outcome attempt outcome ∉ between

/-! ### One line more -/

section Snoc

variable {rs : List Reading} {r : Reading} {attempt : String}

theorem waits_nil : ¬Waits [] attempt := by
  rintro ⟨before, intent, after, h, -⟩
  simp at h

theorem waits_snoc :
    Waits (rs ++ [r]) attempt ↔ (∃ intent, r = .intent attempt intent) ∨
      (Waits rs attempt ∧ ∀ outcome, r ≠ .outcome attempt outcome) := by
  constructor
  · rintro ⟨before, intent, after, h, hafter⟩
    rcases List.eq_nil_or_concat' after with rfl | ⟨after', r', rfl⟩
    · exact .inl ⟨intent, (List.concat_inj.1 (by simpa using h)).2⟩
    · rw [← List.cons_append, ← List.append_assoc] at h
      obtain ⟨hrs, hr⟩ := List.append_inj' h rfl
      cases hr
      refine .inr ⟨⟨before, intent, after', hrs, fun o ho => ?_⟩, fun o ho => ?_⟩
      · exact hafter o (List.mem_append_left _ ho)
      · exact hafter o (ho ▸ List.mem_append_right _ List.mem_cons_self)
  · rintro (⟨intent, rfl⟩ | ⟨⟨before, intent, after, rfl, hafter⟩, hr⟩)
    · exact ⟨rs, intent, [], rfl, fun _ => List.not_mem_nil⟩
    · refine ⟨before, intent, after ++ [r], by simp, fun o ho => ?_⟩
      rcases List.mem_append.1 ho with ho | ho
      · exact hafter o ho
      · exact hr o (List.mem_singleton.1 ho).symm

theorem overwrites_nil : ¬Overwrites [] := by
  rintro ⟨_, _, _, before, between, after, h, -⟩
  simp at h

theorem overwrites_snoc :
    Overwrites (rs ++ [r]) ↔
      Overwrites rs ∨ ∃ attempt intent, r = .intent attempt intent ∧ Waits rs attempt := by
  constructor
  · rintro ⟨attempt, first, second, before, between, after, h, hbetween⟩
    rcases List.eq_nil_or_concat' after with rfl | ⟨after', r', rfl⟩
    · have h' : rs ++ [r] = (before ++ .intent attempt first :: between) ++
          [.intent attempt second] := by simpa using h
      obtain ⟨hrs, hr⟩ := List.append_inj' h' rfl
      cases hr
      exact .inr ⟨attempt, second, rfl, before, first, between, hrs, hbetween⟩
    · have h' : rs ++ [r] = (before ++ .intent attempt first ::
          (between ++ .intent attempt second :: after')) ++ [r'] := by simpa using h
      exact .inl ⟨attempt, first, second, before, between, after', (List.append_inj' h' rfl).1,
        hbetween⟩
  · rintro (⟨attempt, first, second, before, between, after, rfl, hbetween⟩ |
      ⟨attempt, intent, rfl, before, first, after, rfl, hafter⟩)
    · exact ⟨attempt, first, second, before, between, after ++ [r], by simp, hbetween⟩
    · exact ⟨attempt, first, intent, before, after, [], by simp, hafter⟩

theorem zipIdx_snoc (rs : List Reading) (r : Reading) :
    (rs ++ [r]).zipIdx 1 = rs.zipIdx 1 ++ [(r, rs.length + 1)] := by
  rw [List.zipIdx_append, Nat.add_comm 1]
  rfl

theorem mem_zipIdx_snoc {p : Reading × Nat} (h : p ∈ rs.zipIdx 1) : p ∈ (rs ++ [r]).zipIdx 1 := by
  rw [zipIdx_snoc]
  exact List.mem_append_left _ h

theorem last_mem_zipIdx (rs : List Reading) (r : Reading) :
    (r, rs.length + 1) ∈ (rs ++ [r]).zipIdx 1 := by
  rw [zipIdx_snoc]
  exact List.mem_append_right _ List.mem_cons_self

theorem Sentence.Tells.snoc {s : Sentence} (h : s.Tells rs) : s.Tells (rs ++ [r]) := by
  cases s with
  | corrupt lineNo what => exact mem_zipIdx_snoc h
  | pair intent outcome =>
    obtain ⟨attempt, hi, ho⟩ := h
    exact ⟨attempt, mem_zipIdx_snoc hi, mem_zipIdx_snoc ho⟩
  | orphanIntent intent =>
    obtain ⟨attempt, hi⟩ := h
    exact ⟨attempt, mem_zipIdx_snoc hi⟩
  | orphanOutcome attempt outcome => exact mem_zipIdx_snoc h

end Snoc

/-- The numbers of the lines that are not blank. -/
def written (rs : List Reading) : List Nat :=
  ((rs.zipIdx 1).filter fun p => p.1 ≠ .blank).map Prod.snd

theorem written_snoc (rs : List Reading) (r : Reading) :
    written (rs ++ [r]) = written rs ++ if r = .blank then [] else [rs.length + 1] := by
  rw [written, zipIdx_snoc, List.filter_append, List.map_append]
  congr 1
  split_ifs with h
  · rw [List.filter_cons_of_neg (by simpa using h)]
    rfl
  · rw [List.filter_cons_of_pos (by simpa using h)]
    rfl

/-- No line number stands twice in `written`. -/
theorem written_nodup (rs : List Reading) : (written rs).Nodup := by
  refine List.Nodup.sublist (List.filter_sublist.map _) ?_
  rw [show (rs.zipIdx 1).map Prod.snd = List.range' 1 rs.length from List.zipIdx_map_snd 1 rs]
  exact List.nodup_range'

/-! ### The loop -/

/-- What the loop knows after the lines read: the attempts that wait are pending, and every line is
in one sentence, pending or lost. -/
structure Kept (rs : List Reading) (st : State) (lost : List Nat) : Prop where
  pending : ∀ attempt, attempt ∈ st.pending.keys ↔ Waits rs attempt
  order : ∀ attempt ∈ st.pending.keys, attempt ∈ st.order
  lines : (st.out.flatMap Sentence.lines ++ st.pending.entries.map (·.2.lineNo) ++ lost).Perm
    (written rs)
  lost : lost = [] ↔ ¬Overwrites rs
  tells : ∀ s ∈ st.out, s.Tells rs
  intents : ∀ attempt intent, st.pending.get attempt = some intent →
    (.intent attempt intent.record, intent.lineNo) ∈ rs.zipIdx 1

theorem kept_new : Kept [] State.new [] where
  pending _ := ⟨fun h => absurd h List.not_mem_nil, fun h => absurd h waits_nil⟩
  order _ h := absurd h List.not_mem_nil
  lines := List.Perm.refl _
  lost := ⟨fun _ => overwrites_nil, fun _ => rfl⟩
  tells _ h := absurd h List.not_mem_nil
  intents _ _ h := absurd h (by simp [State.new])

section Take

variable {rs : List Reading} {st : State} {lost : List Nat}

theorem Kept.blank (h : Kept rs st lost) : Kept (rs ++ [.blank]) st lost where
  pending attempt := by rw [h.pending, waits_snoc]; simp
  order := h.order
  lines := by rw [written_snoc, if_pos rfl, List.append_nil]; exact h.lines
  lost := by rw [h.lost, overwrites_snoc]; simp
  tells s hs := (h.tells s hs).snoc
  intents attempt intent hget := mem_zipIdx_snoc (h.intents attempt intent hget)

/-- A sentence for the new line alone. -/
theorem Kept.push {r : Reading} {s : Sentence} (h : Kept rs st lost) (hr : r ≠ .blank)
    (hlines : s.lines = [rs.length + 1]) (htells : s.Tells (rs ++ [r]))
    (hwaits : ∀ attempt, Waits (rs ++ [r]) attempt ↔ Waits rs attempt)
    (hintent : ∀ attempt intent, r ≠ .intent attempt intent) :
    Kept (rs ++ [r]) (st.push s) lost where
  pending attempt := by rw [hwaits]; exact h.pending attempt
  order := h.order
  lines := by
    rw [written_snoc, if_neg hr]
    refine List.perm_iff_count.2 fun n => ?_
    have hcount := List.perm_iff_count.1 h.lines n
    simp only [State.push, List.flatMap_append, List.flatMap_cons, List.flatMap_nil, hlines,
      List.append_nil, List.count_append] at hcount ⊢
    omega
  lost := by
    rw [h.lost, overwrites_snoc]
    refine not_congr ⟨.inl, fun hor => ?_⟩
    rcases hor with hover | ⟨attempt, intent, hr, _⟩
    · exact hover
    · exact absurd hr (hintent attempt intent)
  tells s' hs' := by
    rcases List.mem_append.1 hs' with hs' | hs'
    · exact (h.tells s' hs').snoc
    · rw [List.mem_singleton.1 hs']
      exact htells
  intents attempt intent hget := mem_zipIdx_snoc (h.intents attempt intent hget)

/-- An intent takes the place of one that waits for an outcome of the same attempt. -/
theorem Kept.intent (h : Kept rs st lost) (attempt : String) (intent : Intent) :
    ∃ lost', Kept (rs ++ [.intent attempt intent])
      (st.take (.intent attempt intent, rs.length + 1)) lost' := by
  have hwaits : ∀ a, a ∈ (st.pending.set attempt ⟨rs.length + 1, intent⟩).keys ↔
      Waits (rs ++ [Reading.intent attempt intent]) a := by
    intro a
    rw [waits_snoc, OrderedMap.mem_keys, ← h.pending]
    by_cases ha : a = attempt
    · subst ha
      exact ⟨fun _ => .inl ⟨intent, rfl⟩, fun _ => ⟨_, OrderedMap.get_set_self _ _ _⟩⟩
    · rw [OrderedMap.get_set_of_ne _ _ ha, ← OrderedMap.mem_keys]
      simp [Ne.symm ha]
  have horder : ∀ a ∈ (st.pending.set attempt ⟨rs.length + 1, intent⟩).keys,
      a ∈ if attempt ∈ st.pending.keys then st.order else st.order ++ [attempt] := by
    intro a ha
    obtain ⟨x, hx⟩ := OrderedMap.mem_keys.1 ha
    by_cases heq : a = attempt
    · subst heq
      split_ifs with hin
      · exact h.order a hin
      · simp
    · rw [OrderedMap.get_set_of_ne _ _ heq] at hx
      have hin := h.order a (OrderedMap.mem_keys.2 ⟨x, hx⟩)
      split_ifs
      · exact hin
      · exact List.mem_append_left _ hin
  have hintents : ∀ a x, (st.pending.set attempt ⟨rs.length + 1, intent⟩).get a = some x →
      (Reading.intent a x.record, x.lineNo) ∈ (rs ++ [Reading.intent attempt intent]).zipIdx 1 := by
    intro a x hx
    rw [OrderedMap.get_set] at hx
    split_ifs at hx with heq
    · cases hx
      rw [heq]
      exact last_mem_zipIdx rs _
    · exact mem_zipIdx_snoc (h.intents a x hx)
  have hset := (OrderedMap.entries_set_perm st.pending attempt
    ⟨rs.length + 1, intent⟩).map (fun e => e.2.lineNo)
  have hlines := List.perm_iff_count.1 h.lines
  cases hget : st.pending.get attempt with
  | none =>
    refine ⟨lost, hwaits, horder, ?_, ?_, fun s hs => (h.tells s hs).snoc, hintents⟩
    · rw [written_snoc, if_neg nofun]
      refine List.perm_iff_count.2 fun n => ?_
      have hcount := List.perm_iff_count.1 hset n
      have hold := hlines n
      rw [OrderedMap.delete_of_get_eq_none hget] at hcount
      simp only [State.take, List.map_cons, List.count_append, List.count_cons,
        List.count_nil] at hcount hold ⊢
      omega
    · have hnot : ¬Waits rs attempt := by
        rw [← h.pending]
        exact OrderedMap.get_eq_none.1 hget
      rw [h.lost, overwrites_snoc]
      refine not_congr ⟨.inl, fun hor => ?_⟩
      rcases hor with hover | ⟨a, i, hr, hwait⟩
      · exact hover
      · cases hr
        exact absurd hwait hnot
  | some x =>
    refine ⟨x.lineNo :: lost, hwaits, horder, ?_, ?_, fun s hs => (h.tells s hs).snoc, hintents⟩
    · rw [written_snoc, if_neg nofun]
      refine List.perm_iff_count.2 fun n => ?_
      have hcount := List.perm_iff_count.1 hset n
      have hgone := List.perm_iff_count.1 ((OrderedMap.entries_perm hget).map
        (fun e => e.2.lineNo)) n
      have hold := hlines n
      simp only [State.take, List.map_cons, List.count_append, List.count_cons,
        List.count_nil] at hcount hgone hold ⊢
      omega
    · have hwait : Waits rs attempt := by
        rw [← h.pending]
        exact OrderedMap.mem_keys.2 ⟨x, hget⟩
      rw [overwrites_snoc]
      exact ⟨nofun, fun hno => absurd (.inr ⟨attempt, intent, rfl, hwait⟩) hno⟩

theorem Kept.outcome (h : Kept rs st lost) (attempt : String) (outcome : Outcome) :
    Kept (rs ++ [.outcome attempt outcome])
      (st.take (.outcome attempt outcome, rs.length + 1)) lost := by
  cases hget : st.pending.get attempt with
  | none =>
    have hnot : ¬Waits rs attempt := by
      rw [← h.pending]
      exact OrderedMap.get_eq_none.1 hget
    simp only [State.take, hget]
    refine h.push nofun rfl (last_mem_zipIdx rs _) (fun a => ?_) nofun
    rw [waits_snoc]
    by_cases ha : a = attempt
    · subst ha
      simp [hnot]
    · simp [Ne.symm ha]
  | some x =>
    simp only [State.take, hget]
    refine ⟨fun a => ?_, fun a ha => ?_, ?_, ?_, fun s hs => ?_, fun a y hy => ?_⟩
    · rw [waits_snoc, ← h.pending, State.push, OrderedMap.mem_keys]
      by_cases ha : a = attempt
      · subst ha
        simp
      · rw [OrderedMap.get_delete_of_ne _ ha, ← OrderedMap.mem_keys]
        simp [Ne.symm ha]
    · obtain ⟨y, hy⟩ := OrderedMap.mem_keys.1 ha
      rw [State.push, OrderedMap.get_delete] at hy
      split_ifs at hy
      exact h.order a (OrderedMap.mem_keys.2 ⟨y, hy⟩)
    · rw [written_snoc, if_neg nofun]
      refine List.perm_iff_count.2 fun n => ?_
      have hgone := List.perm_iff_count.1 ((OrderedMap.entries_perm hget).map
        (fun e => e.2.lineNo)) n
      have hold := List.perm_iff_count.1 h.lines n
      simp only [State.push, Sentence.lines, List.flatMap_append, List.flatMap_cons,
        List.flatMap_nil, List.map_cons, List.append_nil, List.count_append, List.count_cons,
        List.count_nil] at hgone hold ⊢
      omega
    · rw [h.lost, overwrites_snoc]
      simp
    · rcases List.mem_append.1 hs with hs | hs
      · exact (h.tells s hs).snoc
      · rw [List.mem_singleton.1 hs]
        exact ⟨attempt, mem_zipIdx_snoc (h.intents attempt x hget), last_mem_zipIdx rs _⟩
    · rw [State.push, OrderedMap.get_delete] at hy
      split_ifs at hy
      exact mem_zipIdx_snoc (h.intents a y hy)

/-- One line keeps it; only an intent can lose a line. -/
theorem Kept.take (h : Kept rs st lost) (r : Reading) :
    ∃ lost', Kept (rs ++ [r]) (st.take (r, rs.length + 1)) lost' := by
  cases r with
  | blank => exact ⟨lost, h.blank⟩
  | corrupt what =>
    refine ⟨lost, h.push nofun rfl (last_mem_zipIdx rs _) (fun a => ?_) nofun⟩
    rw [waits_snoc]
    simp
  | intent attempt intent => exact h.intent attempt intent
  | outcome attempt outcome => exact ⟨lost, h.outcome attempt outcome⟩

end Take

theorem kept_scan (rs : List Reading) : ∃ lost, Kept rs (scan rs) lost := by
  induction rs using List.reverseRecOn with
  | nil => exact ⟨[], kept_new⟩
  | append_singleton rs r ih =>
    obtain ⟨lost, h⟩ := ih
    have htake := h.take r
    rw [scan, zipIdx_snoc, List.foldl_append]
    exact htake

/-! ### The pass over the pending attempts -/

/-- What the second pass keeps: a line is in a sentence, pending or lost. -/
structure Closes (rs : List Reading) (st : State) (lost : List Nat) : Prop where
  lines : (st.out.flatMap Sentence.lines ++ st.pending.entries.map (·.2.lineNo) ++ lost).Perm
    (written rs)
  tells : ∀ s ∈ st.out, s.Tells rs
  intents : ∀ attempt intent, st.pending.get attempt = some intent →
    (.intent attempt intent.record, intent.lineNo) ∈ rs.zipIdx 1

theorem Closes.orphan {rs : List Reading} {st : State} {lost : List Nat} (h : Closes rs st lost)
    (attempt : String) : Closes rs (st.orphan attempt) lost := by
  rw [State.orphan]
  cases hget : st.pending.get attempt with
  | none => exact h
  | some x =>
    refine ⟨?_, fun s hs => ?_, fun a y hy => ?_⟩
    · refine List.perm_iff_count.2 fun n => ?_
      have hgone := List.perm_iff_count.1 ((OrderedMap.entries_perm hget).map
        (fun e => e.2.lineNo)) n
      have hold := List.perm_iff_count.1 h.lines n
      simp only [State.push, Sentence.lines, List.flatMap_append, List.flatMap_cons,
        List.flatMap_nil, List.map_cons, List.append_nil, List.count_append, List.count_cons,
        List.count_nil] at hgone hold ⊢
      omega
    · rcases List.mem_append.1 hs with hs | hs
      · exact h.tells s hs
      · rw [List.mem_singleton.1 hs]
        exact ⟨attempt, h.intents attempt x hget⟩
    · have hy : (st.pending.delete attempt).get a = some y := hy
      rw [OrderedMap.get_delete] at hy
      split_ifs at hy
      exact h.intents a y hy

theorem closes_orphans {rs : List Reading} {lost : List Nat} (order : List String) :
    ∀ {st : State}, Closes rs st lost → Closes rs (order.foldl State.orphan st) lost := by
  induction order with
  | nil => exact id
  | cons attempt order ih => exact fun h => ih (h.orphan attempt)

/-- After the pass no attempt of `order` is pending, and none became so. -/
theorem get_orphans (order : List String) : ∀ (st : State) (attempt : String),
    (order.foldl State.orphan st).pending.get attempt =
      if attempt ∈ order then none else st.pending.get attempt := by
  induction order with
  | nil => exact fun _ _ => rfl
  | cons a order ih =>
    intro st attempt
    have hstep : (st.orphan a).pending.get attempt =
        if attempt = a then none else st.pending.get attempt := by
      rw [State.orphan]
      cases hget : st.pending.get a with
      | none =>
        split_ifs with heq
        · rw [heq, hget]
        · rfl
      | some x => exact OrderedMap.get_delete st.pending a attempt
    rw [List.foldl_cons, ih, hstep]
    by_cases heq : attempt = a <;> by_cases hin : attempt ∈ order <;> simp [heq, hin]

/-- The sentences are about every line that is not blank, once each, but the lost ones. -/
theorem sentences_perm (rs : List Reading) :
    ∃ lost, (lost = [] ↔ ¬Overwrites rs) ∧ (∀ s ∈ sentences rs, s.Tells rs) ∧
      ((sentences rs).flatMap Sentence.lines ++ lost).Perm (written rs) := by
  obtain ⟨lost, h⟩ := kept_scan rs
  have hclose := closes_orphans (scan rs).order ⟨h.lines, h.tells, h.intents⟩
  refine ⟨lost, h.lost, hclose.tells, ?_⟩
  have hempty : ((scan rs).order.foldl State.orphan (scan rs)).pending.entries = [] := by
    refine List.eq_nil_iff_forall_not_mem.2 fun e he => ?_
    have hget := OrderedMap.mem_entries.1 (show (e.1, e.2) ∈ _ from he)
    rw [get_orphans] at hget
    split_ifs at hget with hin
    exact hin (h.order e.1 (OrderedMap.mem_keys.2 ⟨e.2, hget⟩))
  have hlines := hclose.lines
  rwa [hempty, List.map_nil, List.append_nil] at hlines

theorem mem_written {rs : List Reading} {r : Reading} {n : Nat} (h : (r, n) ∈ rs.zipIdx 1)
    (hr : r ≠ .blank) : n ∈ written rs :=
  List.mem_map.2 ⟨(r, n), List.mem_filter.2 ⟨h, decide_eq_true hr⟩, rfl⟩

/-- The sentences account for every line just when no intent is overwritten. -/
theorem accounts_sentences (rs : List Reading) :
    Accounts rs (sentences rs) ↔ ¬Overwrites rs := by
  obtain ⟨lost, hlost, htells, hperm⟩ := sentences_perm rs
  rw [← hlost]
  constructor
  · intro h
    by_contra hne
    obtain ⟨n, lost', rfl⟩ := List.exists_cons_of_ne_nil hne
    have hmem : n ∈ written rs := hperm.subset (by simp)
    obtain ⟨p, hp, rfl⟩ := List.mem_map.1 hmem
    have hfilter := List.mem_filter.1 hp
    have honce := h.once p.1 p.2 hfilter.1 (of_decide_eq_true hfilter.2)
    have hcount := List.perm_iff_count.1 hperm p.2
    rw [List.count_append, honce, List.count_eq_one_of_mem (written_nodup rs) hmem,
      List.count_cons_self] at hcount
    omega
  · rintro rfl
    refine ⟨fun r n hn hr => ?_, htells⟩
    rw [List.append_nil] at hperm
    rw [List.perm_iff_count.1 hperm, List.count_eq_one_of_mem (written_nodup rs) (mem_written hn hr)]

/-- For every content of the file, the output accounts for every line just when the file is text and
no intent comes again before an outcome of its attempt. -/
theorem accounts_readLog (fromStr : String → Except String Value) (bytes : List UInt8) :
    (∃ rs, readLog fromStr bytes = some rs ∧ Accounts rs (sentences rs)) ↔
      ∃ rs, readLog fromStr bytes = some rs ∧ ¬Overwrites rs := by
  constructor
  · rintro ⟨rs, hrs, h⟩
    exact ⟨rs, hrs, (accounts_sentences rs).1 h⟩
  · rintro ⟨rs, hrs, h⟩
    exact ⟨rs, hrs, (accounts_sentences rs).2 h⟩

/-- A `serde_json` that reads the grammar. -/
def parseJson (text : String) : Except String Value :=
  match parse text with
  | some v => .ok v
  | none => .error "expected value at line 1 column 1"

/-- An intent record of the attempt `a1`. -/
def intentLine (destination : String) : String :=
  "\x7b\"schema\":\"spatial-audit/1\",\"attempt\":\"a1\",\"phase\":\"intent\"," ++
    "\"at\":\"2026-08-17T08:44:08Z\",\"destination\":\"" ++ destination ++ "\"\x7d\n"

/-- The intent of `a1` for `x` is in no sentence: the one for `y` took its place. -/
theorem not_accounts_two_intents :
    ¬∃ rs, readLog parseJson (Text.bytes (intentLine "x" ++ intentLine "y")) = some rs ∧
      Accounts rs (sentences rs) := by
  rintro ⟨rs, hrs, h⟩
  have hread : readings parseJson (intentLine "x" ++ intentLine "y") =
      [.intent "a1" ⟨"2026-08-17T08:44:08Z", "x"⟩, .intent "a1" ⟨"2026-08-17T08:44:08Z", "y"⟩] := by
    decide +kernel
  rw [readLog, Text.fromUtf8_bytes, Option.map_some, Option.some.injEq, hread] at hrs
  subst hrs
  exact (accounts_sentences _).1 h ⟨"a1", _, _, [], [], [], rfl, fun _ => List.not_mem_nil⟩

end SpatialIde.Kernel.Permission.Audit
