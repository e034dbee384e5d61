import Mathlib.Data.List.Basic

/-! # Lines

A sequence cut behind every separator, `slice::split_inclusive`.  The last piece may lack its
separator; `endLines` puts one behind each of a list of pieces.  `List.splitOn` cuts the separators
out.

A reader takes one piece after the other until one fails (`readPieces`).  Where a piece without its
separator always fails, what is read of a sequence cut short is the lines that end inside the cut
(`lines_take`).
-/

namespace Lib

variable {α : Type}

def splitInclusive [DecidableEq α] (sep : α) : List α → List (List α)
  | [] => []
  | a :: s =>
    if a = sep then [a] :: splitInclusive sep s
    else
      match splitInclusive sep s with
      | [] => [[a]]
      | piece :: pieces => (a :: piece) :: pieces

/-- The pieces, each with its separator. -/
def endLines (sep : α) (pieces : List (List α)) : List α := (pieces.map (· ++ [sep])).flatten

variable {sep : α}

@[simp] theorem endLines_cons (l : List α) (pieces : List (List α)) :
    endLines sep (l :: pieces) = l ++ sep :: endLines sep pieces := by
  simp [endLines]

@[simp] theorem endLines_append (ls ls' : List (List α)) :
    endLines sep (ls ++ ls') = endLines sep ls ++ endLines sep ls' := by
  simp [endLines]

section

variable [DecidableEq α]

theorem splitInclusive_cons (a : α) (s : List α) :
    splitInclusive sep (a :: s) =
      if a = sep then [a] :: splitInclusive sep s
      else
        match splitInclusive sep s with
        | [] => [[a]]
        | piece :: pieces => (a :: piece) :: pieces := rfl

theorem splitInclusive_line {l : List α} (h : sep ∉ l) (s : List α) :
    splitInclusive sep (l ++ sep :: s) = (l ++ [sep]) :: splitInclusive sep s := by
  induction l with
  | nil => rw [List.nil_append, splitInclusive_cons, if_pos rfl, List.nil_append]
  | cons a l ih =>
    have ha : a ≠ sep := fun he => h (he ▸ List.mem_cons_self)
    rw [List.cons_append, splitInclusive_cons, if_neg ha, ih fun hl => h (List.mem_cons_of_mem _ hl)]
    rfl

/-- What has no separator is one piece. -/
theorem splitInclusive_torn {l : List α} (hne : l ≠ []) (h : sep ∉ l) :
    splitInclusive sep l = [l] := by
  induction l with
  | nil => exact absurd rfl hne
  | cons a l ih =>
    have ha : a ≠ sep := fun he => h (he ▸ List.mem_cons_self)
    rw [splitInclusive_cons, if_neg ha]
    cases l with
    | nil => rfl
    | cons b l => rw [ih (by simp) fun hl => h (List.mem_cons_of_mem _ hl)]

theorem flatten_splitInclusive (s : List α) : (splitInclusive sep s).flatten = s := by
  induction s with
  | nil => rfl
  | cons a s ih =>
    rw [splitInclusive_cons]
    split_ifs with ha
    · rw [List.flatten_cons, ih, List.singleton_append]
    · split
      · next hnil =>
        rw [hnil] at ih
        rw [← ih]
        rfl
      · next piece pieces hcons =>
        rw [hcons, List.flatten_cons] at ih
        rw [List.flatten_cons, List.cons_append, ih]

end

/-- A sequence is empty, or has no separator, or starts with a line. -/
theorem lines_cases (sep : α) (s : List α) :
    s = [] ∨ (s ≠ [] ∧ sep ∉ s) ∨ ∃ l s', sep ∉ l ∧ s = l ++ sep :: s' := by
  classical
  induction s with
  | nil => exact .inl rfl
  | cons a s ih =>
    right
    by_cases ha : a = sep
    · exact .inr ⟨[], s, List.not_mem_nil, by rw [ha, List.nil_append]⟩
    · rcases ih with rfl | ⟨-, hs⟩ | ⟨l, s', hl, rfl⟩
      · exact .inl ⟨by simp, by simpa using Ne.symm ha⟩
      · exact .inl ⟨by simp, by simpa using ⟨Ne.symm ha, hs⟩⟩
      · exact .inr ⟨a :: l, s', by simpa using ⟨Ne.symm ha, hl⟩, rfl⟩

/-- Where the first separator stands. -/
theorem append_cons_inj {l l' s s' : List α} (h : sep ∉ l) (h' : sep ∉ l')
    (heq : l ++ sep :: s = l' ++ sep :: s') : l = l' ∧ s = s' := by
  induction l generalizing l' with
  | nil =>
    cases l' with
    | nil => exact ⟨rfl, (List.cons.inj heq).2⟩
    | cons a l' => exact absurd ((List.cons.inj heq).1 ▸ List.mem_cons_self) h'
  | cons a l ih =>
    cases l' with
    | nil => exact absurd ((List.cons.inj heq).1 ▸ List.mem_cons_self) h
    | cons a' l' =>
      obtain ⟨rfl, htail⟩ := List.cons.inj heq
      obtain ⟨rfl, rfl⟩ := ih (fun hl => h (List.mem_cons_of_mem _ hl))
        (fun hl => h' (List.mem_cons_of_mem _ hl)) htail
      exact ⟨rfl, rfl⟩

/-- Induction on the lines of a sequence. -/
@[elab_as_elim]
theorem lines_induction (sep : α) {P : List α → Prop} (nil : P [])
    (torn : ∀ l, l ≠ [] → sep ∉ l → P l)
    (line : ∀ l s, sep ∉ l → P s → P (l ++ sep :: s)) (s : List α) : P s := by
  induction hn : s.length using Nat.strongRecOn generalizing s with
  | ind n ih =>
    rcases lines_cases sep s with rfl | ⟨hne, hs⟩ | ⟨l, s', hl, rfl⟩
    · exact nil
    · exact torn s hne hs
    · refine line l s' hl (ih s'.length ?_ s' rfl)
      rw [← hn, List.length_append, List.length_cons]
      omega

/-- Where a sequence is cut: inside its first line, or behind it. -/
theorem take_line (sep : α) (l s : List α) (cut : Nat) :
    (cut ≤ l.length ∧ (l ++ sep :: s).take cut = l.take cut) ∨
      ∃ rest, cut = l.length + 1 + rest ∧ (l ++ sep :: s).take cut = l ++ sep :: s.take rest := by
  rcases Nat.lt_or_ge l.length cut with hlt | hle
  · right
    refine ⟨cut - (l.length + 1), by omega, ?_⟩
    rw [List.take_append, List.take_of_length_le (by omega),
      show cut - l.length = (cut - (l.length + 1)) + 1 by omega, List.take_succ_cons]
  · left
    exact ⟨hle, List.take_append_of_le_length hle⟩

/-! ### Pieces between separators -/

section

variable [DecidableEq α]

theorem splitOn_piece {l : List α} (h : sep ∉ l) (s : List α) :
    (l ++ sep :: s).splitOn sep = l :: s.splitOn sep := by
  rw [List.splitOn_append_cons_self, List.splitOn_eq_singleton h, List.singleton_append]

theorem not_mem_of_mem_splitOn {s l : List α} (h : l ∈ s.splitOn sep) : sep ∉ l := by
  induction s using lines_induction sep with
  | nil =>
    rw [List.splitOn_nil, List.mem_singleton] at h
    rw [h]
    exact List.not_mem_nil
  | torn s _ hs =>
    rw [List.splitOn_eq_singleton hs, List.mem_singleton] at h
    rw [h]
    exact hs
  | line t s ht ih =>
    rw [splitOn_piece ht] at h
    rcases List.mem_cons.1 h with rfl | h
    · exact ht
    · exact ih h

theorem mem_of_mem_splitOn {s l : List α} (h : l ∈ s.splitOn sep) : ∀ a ∈ l, a ∈ s := by
  induction s using lines_induction sep with
  | nil =>
    rw [List.splitOn_nil, List.mem_singleton] at h
    rw [h]
    exact fun a ha => ha
  | torn s _ hs =>
    rw [List.splitOn_eq_singleton hs, List.mem_singleton] at h
    rw [h]
    exact fun a ha => ha
  | line t s ht ih =>
    rw [splitOn_piece ht] at h
    rcases List.mem_cons.1 h with rfl | h
    · exact fun a ha => List.mem_append_left _ ha
    · exact fun a ha => List.mem_append_right _ (List.mem_cons_of_mem _ (ih h a ha))

/-- A sequence starts with pieces, each behind a separator, and ends or goes on with another. -/
theorem prefix_splitOn {pieces : List (List α)} (h : ∀ l ∈ pieces, sep ∉ l) (s : List α) :
    (sep :: s = pieces.flatMap (sep :: ·) ∨ pieces.flatMap (sep :: ·) ++ [sep] <+: sep :: s) ↔
      pieces <+: s.splitOn sep := by
  induction pieces generalizing s with
  | nil => exact iff_of_true (.inr ⟨s, rfl⟩) List.nil_prefix
  | cons l pieces ih =>
    obtain ⟨hl, hpieces⟩ := List.forall_mem_cons.1 h
    rw [List.flatMap_cons, List.cons_append, List.cons_append, List.cons.injEq, List.cons_prefix_cons]
    simp only [true_and]
    rcases Decidable.em (sep ∈ s) with hmem | hmem
    · -- The first piece ends at a separator.
      obtain ⟨t, rest, ht, rfl⟩ : ∃ t rest, sep ∉ t ∧ s = t ++ sep :: rest := by
        rcases lines_cases sep s with rfl | ⟨-, hs⟩ | hline
        · exact absurd hmem List.not_mem_nil
        · exact absurd hmem hs
        · exact hline
      rw [splitOn_piece ht, List.cons_prefix_cons, ← ih hpieces]
      constructor
      · intro hs
        cases pieces with
        | nil =>
          rcases hs with hs | ⟨tail, hs⟩
          · rw [List.flatMap_nil, List.append_nil] at hs
            exact absurd (hs ▸ List.mem_append_right t List.mem_cons_self) hl
          · rw [List.flatMap_nil, List.append_nil, List.append_assoc, List.singleton_append] at hs
            exact ⟨(append_cons_inj hl ht hs).1, .inr ⟨rest, rfl⟩⟩
        | cons l' pieces =>
          rw [List.flatMap_cons, List.cons_append, List.cons_append]
          rw [List.flatMap_cons, List.cons_append] at hs
          rcases hs with hs | ⟨tail, hs⟩
          · obtain ⟨rfl, hrest⟩ := append_cons_inj ht hl hs
            exact ⟨rfl, .inl (congrArg _ hrest)⟩
          · rw [List.append_assoc, List.append_assoc, List.cons_append] at hs
            obtain ⟨rfl, hrest⟩ := append_cons_inj hl ht hs
            refine ⟨rfl, .inr ⟨tail, ?_⟩⟩
            rw [← hrest, List.cons_append, List.append_assoc]
      · rintro ⟨rfl, hs | ⟨tail, hs⟩⟩
        · exact .inl (congrArg _ hs)
        · exact .inr ⟨tail, by rw [← hs, List.append_assoc, List.append_assoc, List.append_assoc]⟩
    · rw [List.splitOn_eq_singleton hmem, List.cons_prefix_cons, List.prefix_nil]
      constructor
      · rintro (rfl | ⟨tail, rfl⟩)
        · cases pieces with
          | nil => exact ⟨(List.append_nil l).symm, rfl⟩
          | cons l' pieces =>
            exact absurd (List.mem_append_right l List.mem_cons_self) hmem
        · exact absurd (by simp) hmem
      · rintro ⟨rfl, rfl⟩
        exact .inl (List.append_nil l).symm

end
/-! ### The longest valid prefix -/

/-- The pieces that were read, the state behind them, and the failure of the next. -/
structure Kept (α σ ε : Type) where
  lines : List (List α)
  state : σ
  failure : Option ε

section

variable {σ ε : Type} (step : σ → List α → Except ε σ)

def readPieces : σ → List (List α) → Kept α σ ε
  | st, [] => ⟨[], st, none⟩
  | st, piece :: pieces =>
    match step st piece with
    | .error e => ⟨[], st, some e⟩
    | .ok st' =>
      let kept := readPieces st' pieces
      ⟨piece :: kept.lines, kept.state, kept.failure⟩

theorem readPieces_nil (st : σ) : readPieces step st [] = ⟨[], st, none⟩ := rfl

theorem readPieces_cons (st : σ) (piece : List α) (pieces : List (List α)) :
    readPieces step st (piece :: pieces) =
      match step st piece with
      | .error e => ⟨[], st, some e⟩
      | .ok st' =>
        ⟨piece :: (readPieces step st' pieces).lines, (readPieces step st' pieces).state,
          (readPieces step st' pieces).failure⟩ := rfl

variable [DecidableEq α]

/-- The lines of a sequence up to the first that fails. -/
def longest (sep : α) (st : σ) (s : List α) : Kept α σ ε := readPieces step st (splitInclusive sep s)

/-- A piece without its separator fails. -/
def RefusesTorn (sep : α) : Prop := ∀ st piece, sep ∉ piece → ∃ e, step st piece = .error e

variable {step}

theorem longest_nil (st : σ) : longest step sep st [] = ⟨[], st, none⟩ := rfl

theorem longest_torn {st : σ} {l : List α} {e : ε} (hne : l ≠ []) (h : sep ∉ l)
    (hstep : step st l = .error e) : longest step sep st l = ⟨[], st, some e⟩ := by
  rw [longest, splitInclusive_torn hne h, readPieces_cons, hstep]

theorem longest_line_error {st : σ} {l : List α} {e : ε} (h : sep ∉ l)
    (hstep : step st (l ++ [sep]) = .error e) (s : List α) :
    longest step sep st (l ++ sep :: s) = ⟨[], st, some e⟩ := by
  rw [longest, splitInclusive_line h, readPieces_cons, hstep]

theorem longest_line {st st' : σ} {l : List α} (h : sep ∉ l) (hstep : step st (l ++ [sep]) = .ok st')
    (s : List α) : longest step sep st (l ++ sep :: s) =
      ⟨(l ++ [sep]) :: (longest step sep st' s).lines, (longest step sep st' s).state,
        (longest step sep st' s).failure⟩ := by
  rw [longest, splitInclusive_line h, readPieces_cons, hstep]
  rfl

/-- What every piece preserves holds where the reading ends. -/
theorem longest_state {P : σ → Prop} (hstep : ∀ {st st' piece}, P st → step st piece = .ok st' → P st')
    {st : σ} (h : P st) (s : List α) : P (longest step sep st s).state := by
  rw [longest]
  induction splitInclusive sep s generalizing st with
  | nil => exact h
  | cons piece pieces ih =>
    rw [readPieces_cons]
    split
    · exact h
    · next st' hst => exact ih (hstep h hst)

/-- Without a separator nothing is kept. -/
theorem lines_of_not_mem (htorn : RefusesTorn step sep) {l : List α} (h : sep ∉ l) (st : σ) :
    (longest step sep st l).lines = [] := by
  cases l with
  | nil => rfl
  | cons a l =>
    obtain ⟨e, he⟩ := htorn st _ h
    rw [longest_torn (by simp) h he]

/-- The kept lines are where the sequence starts. -/
theorem flatten_lines_prefix (step : σ → List α → Except ε σ) (st : σ) (s : List α) :
    (longest step sep st s).lines.flatten <+: s := by
  induction s using lines_induction sep generalizing st with
  | nil => exact List.nil_prefix
  | torn l hne h =>
    rw [longest, splitInclusive_torn hne h, readPieces_cons]
    split
    · exact List.nil_prefix
    · exact ⟨[], by simp [readPieces_nil]⟩
  | line l s h ih =>
    cases hstep : step st (l ++ [sep]) with
    | error e =>
      rw [longest_line_error h hstep]
      exact List.nil_prefix
    | ok st' =>
      rw [longest_line h hstep, List.flatten_cons, List.append_assoc, List.singleton_append]
      exact (List.prefix_append_right_inj l).2 (List.cons_prefix_cons.2 ⟨rfl, ih st'⟩)

/-- Where no line failed, all of it was read. -/
theorem flatten_lines_eq (st : σ) (s : List α) (h : (longest step sep st s).failure = none) :
    (longest step sep st s).lines.flatten = s := by
  suffices hpieces : ∀ (pieces : List (List α)) (st : σ),
      (readPieces step st pieces).failure = none → (readPieces step st pieces).lines = pieces by
    rw [longest, hpieces _ st h, flatten_splitInclusive]
  intro pieces
  induction pieces with
  | nil => intro st _; rfl
  | cons piece pieces ih =>
    intro st hnone
    rw [readPieces_cons] at hnone ⊢
    cases hstep : step st piece with
    | error e =>
      rw [hstep] at hnone
      cases hnone
    | ok st' =>
      rw [hstep] at hnone
      exact congrArg _ (ih st' hnone)

/-- **A sequence cut short**: a line is kept where it is kept of the whole sequence and ends inside
the cut. -/
theorem lines_take (htorn : RefusesTorn step sep) (st : σ) (s : List α) (cut : Nat) :
    (longest step sep st (s.take cut)).lines <+: (longest step sep st s).lines ∧
      ∀ i, i < (longest step sep st (s.take cut)).lines.length ↔
        i < (longest step sep st s).lines.length ∧
          (((longest step sep st s).lines.take (i + 1)).flatten).length ≤ cut := by
  have hnone : ∀ {l : List α} (st : σ) (n : Nat), sep ∉ l →
      (longest step sep st (l.take n)).lines = [] :=
    fun st n h => lines_of_not_mem htorn (fun hmem => h (List.mem_of_mem_take hmem)) st
  induction s using lines_induction sep generalizing st cut with
  | nil =>
    rw [List.take_nil]
    exact ⟨List.prefix_rfl, by simp [longest_nil]⟩
  | torn l hne h =>
    rw [hnone st cut h, lines_of_not_mem htorn h st]
    exact ⟨List.prefix_rfl, by simp⟩
  | line l s h ih =>
    rcases take_line sep l s cut with ⟨hcut, htake⟩ | ⟨rest, rfl, htake⟩
    · -- Inside the first line: nothing is kept, and the first line ends behind the cut.
      rw [htake, hnone st cut h]
      refine ⟨List.nil_prefix, fun i => ?_⟩
      cases hstep : step st (l ++ [sep]) with
      | error e => simp [longest_line_error h hstep]
      | ok st' =>
        rw [longest_line h hstep]
        simp only [List.length_nil, Nat.not_lt_zero, List.take_succ_cons, List.flatten_cons,
          List.length_append, List.length_cons, false_iff, not_and]
        omega
    · rw [htake]
      cases hstep : step st (l ++ [sep]) with
      | error e =>
        rw [longest_line_error h hstep, longest_line_error h hstep]
        exact ⟨List.prefix_rfl, by simp⟩
      | ok st' =>
        rw [longest_line h hstep, longest_line h hstep]
        obtain ⟨hpre, hiff⟩ := ih st' rest
        refine ⟨List.cons_prefix_cons.2 ⟨rfl, hpre⟩, fun i => ?_⟩
        cases i with
        | zero => simp
        | succ i =>
          have := hiff i
          simp only [List.length_cons, Nat.succ_lt_succ_iff, List.take_succ_cons,
            List.flatten_cons, List.length_append, List.length_nil] at this ⊢
          rw [this]
          omega

/-- Reading the kept lines again keeps them all, with the same state behind them. -/
theorem longest_flatten_lines (htorn : RefusesTorn step sep) (st : σ) (s : List α) :
    longest step sep st (longest step sep st s).lines.flatten =
      ⟨(longest step sep st s).lines, (longest step sep st s).state, none⟩ := by
  induction s using lines_induction sep generalizing st with
  | nil => rfl
  | torn l hne h =>
    obtain ⟨e, he⟩ := htorn st l h
    rw [longest_torn hne h he]
    rfl
  | line l s h ih =>
    cases hstep : step st (l ++ [sep]) with
    | error e =>
      rw [longest_line_error h hstep]
      rfl
    | ok st' =>
      rw [longest_line h hstep, List.flatten_cons, List.append_assoc, List.singleton_append,
        longest_line h hstep, ih st']

/-- **Nothing behind the first failing line matters.** -/
theorem longest_of_failure {e : ε} {st : σ} {s bad rest : List α} (hbad : sep ∉ bad)
    (hs : s = (longest step sep st s).lines.flatten ++ bad ++ sep :: rest)
    (hfail : (longest step sep st s).failure = some e) (rest' : List α) :
    longest step sep st ((longest step sep st s).lines.flatten ++ bad ++ sep :: rest') =
      longest step sep st s := by
  induction s using lines_induction sep generalizing st with
  | nil =>
    rw [longest_nil] at hfail
    cases hfail
  | torn l hne h =>
    exact absurd (hs ▸ List.mem_append_right _ List.mem_cons_self) h
  | line l s h ih =>
    cases hstep : step st (l ++ [sep]) with
    | error e =>
      rw [longest_line_error h hstep] at hs ⊢
      rw [List.flatten_nil, List.nil_append] at hs ⊢
      obtain ⟨rfl, -⟩ := append_cons_inj h hbad hs
      rw [longest_line_error h hstep]
    | ok st' =>
      rw [longest_line h hstep] at hs hfail ⊢
      simp only [List.flatten_cons, List.append_assoc, List.cons_append, List.nil_append,
        List.append_cancel_left_eq, List.cons.injEq, true_and] at hs ⊢
      rw [longest_line h hstep]
      have := @ih st' (by rw [List.append_assoc]; exact hs) hfail
      rw [List.append_assoc] at this
      rw [this]

end

end Lib
