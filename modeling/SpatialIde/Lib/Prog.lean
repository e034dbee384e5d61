import Mathlib.Data.List.Forall2

/-! # Programs that ask their environment

A `Prog` computes, fails, or asks a question and goes on with the answer.  What
the environment answers is not part of the program: a run is the list of the
questions asked with the answers given, and `Runs p tr r` says that `p` has the
run `tr` with the outcome `r`.  A statement about every run is a statement about
every environment.

* `runs_bind`: the runs of a sequence;
* `Reaches`: what is left of a program after some answers, for programs that run
  beside others;
* `AtMost`: a bound on the questions of one kind;
* `replay`: whether a list of answers is a run, by computation;
* `eval`: the run of one answering strategy (`runs_eval`).
-/

namespace Lib

/-- A program whose question `q` is answered in `A q`. -/
inductive Prog {Q : Type} (A : Q → Type) (ε α : Type) : Type
  | ret (a : α)
  | throw (e : ε)
  | ask (q : Q) (k : A q → Prog A ε α)

/-- A question with its answer. -/
abbrev Event {Q : Type} (A : Q → Type) := Σ q, A q

variable {Q : Type} {A : Q → Type} {ε ε' α β : Type}

namespace Prog

def bind : Prog A ε α → (α → Prog A ε β) → Prog A ε β
  | ret a, f => f a
  | throw e, _ => throw e
  | ask q k, f => ask q fun a => bind (k a) f

instance : Monad (Prog A ε) where
  pure := ret
  bind := bind

/-- Ask one question. -/
def query (q : Q) : Prog A ε (A q) := ask q ret

/-- The value of a fallible step. -/
def lift : Except ε α → Prog A ε α
  | .ok a => ret a
  | .error e => throw e

/-- Run to the end and go on with the outcome, whatever it is. -/
def outcome : Prog A ε α → Prog A ε' (Except ε α)
  | ret a => ret (.ok a)
  | throw e => ret (.error e)
  | ask q k => ask q fun a => outcome (k a)

/-- `p` has the run `tr` with the outcome `r`. -/
inductive Runs : Prog A ε α → List (Event A) → Except ε α → Prop
  | ret (a : α) : Runs (ret a) [] (.ok a)
  | throw (e : ε) : Runs (throw e) [] (.error e)
  | ask {q : Q} {k : A q → Prog A ε α} {a : A q} {tr : List (Event A)} {r : Except ε α}
      (rest : Runs (k a) tr r) : Runs (ask q k) (⟨q, a⟩ :: tr) r

/-- After the answers `tr`, what is left of `p` is `p'`. -/
inductive Reaches : Prog A ε α → List (Event A) → Prog A ε α → Prop
  | refl (p : Prog A ε α) : Reaches p [] p
  | ask {q : Q} {k : A q → Prog A ε α} {a : A q} {tr : List (Event A)} {p : Prog A ε α}
      (rest : Reaches (k a) tr p) : Reaches (ask q k) (⟨q, a⟩ :: tr) p

@[simp] theorem runs_ret {a : α} {tr : List (Event A)} {r : Except ε α} :
    Runs (ret a) tr r ↔ tr = [] ∧ r = .ok a := by
  constructor
  · intro h
    cases h
    exact ⟨rfl, rfl⟩
  · rintro ⟨rfl, rfl⟩
    exact .ret a

@[simp] theorem runs_pure {a : α} {tr : List (Event A)} {r : Except ε α} :
    Runs (pure a : Prog A ε α) tr r ↔ tr = [] ∧ r = .ok a := runs_ret

@[simp] theorem runs_throw {e : ε} {tr : List (Event A)} {r : Except ε α} :
    Runs (throw e) tr r ↔ tr = [] ∧ r = .error e := by
  constructor
  · intro h
    cases h
    exact ⟨rfl, rfl⟩
  · rintro ⟨rfl, rfl⟩
    exact .throw e

theorem runs_ask {q : Q} {k : A q → Prog A ε α} {tr : List (Event A)} {r : Except ε α} :
    Runs (ask q k) tr r ↔ ∃ a tr', tr = ⟨q, a⟩ :: tr' ∧ Runs (k a) tr' r := by
  constructor
  · intro h
    cases h with
    | ask rest => exact ⟨_, _, rfl, rest⟩
  · rintro ⟨a, tr', rfl, rest⟩
    exact .ask rest

/-- **The runs of a sequence**: the first part fails, or it ends and the second part goes on. -/
theorem runs_bind {p : Prog A ε α} {f : α → Prog A ε β} {tr : List (Event A)} {r : Except ε β} :
    Runs (p >>= f) tr r ↔ (∃ e, r = .error e ∧ Runs p tr (.error e)) ∨
      ∃ a t₁ t₂, tr = t₁ ++ t₂ ∧ Runs p t₁ (.ok a) ∧ Runs (f a) t₂ r := by
  change Runs (bind p f) tr r ↔ _
  induction p generalizing tr with
  | ret a =>
    simp only [bind, runs_ret, reduceCtorEq, and_false, exists_false, Except.ok.injEq, false_or]
    constructor
    · intro h
      exact ⟨a, [], tr, rfl, ⟨rfl, rfl⟩, h⟩
    · rintro ⟨_, _, t₂, rfl, ⟨rfl, rfl⟩, h⟩
      exact h
  | throw e =>
    simp only [bind, runs_throw, Except.error.injEq, reduceCtorEq, and_false, false_and,
      exists_false, or_false]
    constructor
    · rintro ⟨rfl, rfl⟩
      exact ⟨e, rfl, rfl, rfl⟩
    · rintro ⟨_, rfl, rfl, rfl⟩
      exact ⟨rfl, rfl⟩
  | ask q k ih =>
    simp only [bind, runs_ask, ih]
    constructor
    · rintro ⟨a, tr', rfl, ⟨e, rfl, h⟩ | ⟨b, t₁, t₂, rfl, h₁, h₂⟩⟩
      · exact .inl ⟨e, rfl, a, tr', rfl, h⟩
      · exact .inr ⟨b, ⟨q, a⟩ :: t₁, t₂, rfl, ⟨a, t₁, rfl, h₁⟩, h₂⟩
    · rintro (⟨e, rfl, a, tr', rfl, h⟩ | ⟨b, t₁, t₂, rfl, ⟨a, t₁', rfl, h₁⟩, h₂⟩)
      · exact ⟨a, tr', rfl, .inl ⟨e, rfl, h⟩⟩
      · exact ⟨a, t₁' ++ t₂, rfl, .inr ⟨b, t₁', t₂, rfl, h₁, h₂⟩⟩

/-- A sequence that ends well. -/
theorem runs_bind_ok {p : Prog A ε α} {f : α → Prog A ε β} {tr : List (Event A)} {b : β} :
    Runs (p >>= f) tr (.ok b) ↔ ∃ a t₁ t₂, tr = t₁ ++ t₂ ∧ Runs p t₁ (.ok a) ∧
      Runs (f a) t₂ (.ok b) := by
  rw [runs_bind]
  constructor
  · rintro (⟨e, he, -⟩ | h)
    · cases he
    · exact h
  · exact .inr

theorem runs_query_bind {q : Q} {f : A q → Prog A ε β} {tr : List (Event A)} {r : Except ε β} :
    Runs (query q >>= f) tr r ↔ ∃ a tr', tr = ⟨q, a⟩ :: tr' ∧ Runs (f a) tr' r :=
  runs_ask

theorem runs_outcome {p : Prog A ε α} {tr : List (Event A)} {r : Except ε' (Except ε α)} :
    Runs (outcome p) tr r ↔ ∃ r', r = .ok r' ∧ Runs p tr r' := by
  induction p generalizing tr with
  | ret a =>
    simp only [outcome, runs_ret]
    constructor
    · rintro ⟨rfl, rfl⟩
      exact ⟨_, rfl, rfl, rfl⟩
    · rintro ⟨_, rfl, rfl, rfl⟩
      exact ⟨rfl, rfl⟩
  | throw e =>
    simp only [outcome, runs_ret, runs_throw]
    constructor
    · rintro ⟨rfl, rfl⟩
      exact ⟨_, rfl, rfl, rfl⟩
    · rintro ⟨_, rfl, rfl, rfl⟩
      exact ⟨rfl, rfl⟩
  | ask q k ih =>
    simp only [outcome, runs_ask, ih]
    constructor
    · rintro ⟨a, tr', rfl, r', rfl, h⟩
      exact ⟨r', rfl, a, tr', rfl, h⟩
    · rintro ⟨r', rfl, a, tr', rfl, h⟩
      exact ⟨a, tr', rfl, r', rfl, h⟩

section

variable {γ : Type} {f : β → γ → Prog A ε β} {I : List γ → β → Prop}

theorem runs_foldlM_from
    (step : ∀ {done x b tr b'}, I done b → Runs (f b x) tr (.ok b') → I (done ++ [x]) b') :
    ∀ {xs done : List γ} {b b' : β} {tr : List (Event A)}, I done b →
      Runs (xs.foldlM f b) tr (.ok b') → I (done ++ xs) b' := by
  intro xs
  induction xs with
  | nil =>
    intro done b b' tr h hrun
    obtain ⟨-, hb⟩ := runs_pure.1 hrun
    cases hb
    rwa [List.append_nil]
  | cons x xs ih =>
    intro done b b' tr h hrun
    rw [List.foldlM_cons] at hrun
    obtain ⟨b₁, t₁, t₂, -, hfirst, hrest⟩ := runs_bind_ok.1 hrun
    rw [List.append_cons]
    exact ih (step h hfirst) hrest

/-- **A loop over a list**: what every round preserves holds where the loop ends well. -/
theorem runs_foldlM
    (step : ∀ {done x b tr b'}, I done b → Runs (f b x) tr (.ok b') → I (done ++ [x]) b')
    {xs : List γ} {b b' : β} {tr : List (Event A)} (h : I [] b)
    (hrun : Runs (xs.foldlM f b) tr (.ok b')) : I xs b' :=
  runs_foldlM_from step h hrun

end

/-! ### Programs under way -/

theorem Reaches.trans {p p' p'' : Prog A ε α} {t₁ t₂ : List (Event A)} (h₁ : Reaches p t₁ p')
    (h₂ : Reaches p' t₂ p'') : Reaches p (t₁ ++ t₂) p'' := by
  induction h₁ with
  | refl => exact h₂
  | ask _ ih => exact .ask (ih h₂)

/-- One answer more. -/
theorem Reaches.step {p : Prog A ε α} {q : Q} {k : A q → Prog A ε α} {tr : List (Event A)}
    (h : Reaches p tr (Prog.ask q k)) (a : A q) : Reaches p (tr ++ [⟨q, a⟩]) (k a) :=
  h.trans (.ask (.refl _))

/-- A program that has reached its end has run. -/
theorem Reaches.runs {p p' : Prog A ε α} {t₁ t₂ : List (Event A)} {r : Except ε α}
    (h₁ : Reaches p t₁ p') (h₂ : Runs p' t₂ r) : Runs p (t₁ ++ t₂) r := by
  induction h₁ with
  | refl => exact h₂
  | ask _ ih => exact .ask (ih h₂)

/-! ### What a program may ask -/

/-- Every question of the program is one of `P`. -/
def Asks (P : Q → Prop) : Prog A ε α → Prop
  | ret _ => True
  | throw _ => True
  | ask q k => P q ∧ ∀ a, Asks P (k a)

namespace Asks

variable {P : Q → Prop}

theorem pure (a : α) : Asks P (Pure.pure a : Prog A ε α) := trivial

theorem query {q : Q} (h : P q) : Asks P (Prog.query q : Prog A ε (A q)) := ⟨h, fun _ => trivial⟩

theorem lift (x : Except ε α) : Asks P (Prog.lift x : Prog A ε α) := by
  cases x <;> exact trivial

theorem bind {p : Prog A ε α} {f : α → Prog A ε β} (hp : Asks P p) (hf : ∀ a, Asks P (f a)) :
    Asks P (p >>= f) := by
  change Asks P (Prog.bind p f)
  induction p with
  | ret a => exact hf a
  | throw e => trivial
  | ask q k ih => exact ⟨hp.1, fun a => ih a (hp.2 a)⟩

/-- The questions of a run are those of the program. -/
theorem runs {p : Prog A ε α} (h : Asks P p) {tr : List (Event A)} {r : Except ε α}
    (hrun : Runs p tr r) : ∀ e ∈ tr, P e.1 := by
  induction hrun with
  | ret a => intro e he; cases he
  | throw err => intro e he; cases he
  | ask rest ih =>
    intro e he
    rcases List.mem_cons.1 he with rfl | he
    · exact h.1
    · exact ih (h.2 _) e he

end Asks

/-- At most `n` questions of a run are of the kind `P`. -/
def AtMost (P : Q → Bool) : Nat → Prog A ε α → Prop
  | _, ret _ => True
  | _, throw _ => True
  | 0, ask q k => P q = false ∧ ∀ a, AtMost P 0 (k a)
  | n + 1, ask q k => if P q then ∀ a, AtMost P n (k a) else ∀ a, AtMost P (n + 1) (k a)

namespace AtMost

variable {P : Q → Bool}

theorem succ_ask (n : Nat) (q : Q) (k : A q → Prog A ε α) : AtMost P (n + 1) (ask q k) =
    if P q then ∀ a, AtMost P n (k a) else ∀ a, AtMost P (n + 1) (k a) := rfl

theorem of_asks {p : Prog A ε α} (h : Asks (fun q => P q = false) p) (n : Nat) : AtMost P n p := by
  induction p with
  | ret a => cases n <;> trivial
  | throw e => cases n <;> trivial
  | ask q k ih =>
    cases n with
    | zero => exact ⟨h.1, fun a => ih a (h.2 a)⟩
    | succ n =>
      rw [succ_ask, if_neg (by simp [h.1])]
      exact fun a => ih a (h.2 a)

/-- A question of the other kinds in front. -/
theorem ask_other {q : Q} {k : A q → Prog A ε α} {n : Nat} (hq : P q = false)
    (h : ∀ a, AtMost P n (k a)) : AtMost P n (ask q k) := by
  cases n with
  | zero => exact ⟨hq, h⟩
  | succ n =>
    rw [succ_ask, if_neg (by simp [hq])]
    exact h

/-- A part that asks nothing of the kind, and what follows it. -/
theorem bind {p : Prog A ε α} {f : α → Prog A ε β} {n : Nat}
    (hp : Asks (fun q => P q = false) p) (hf : ∀ a, AtMost P n (f a)) : AtMost P n (p >>= f) := by
  change AtMost P n (Prog.bind p f)
  induction p with
  | ret a => exact hf a
  | throw e => cases n <;> trivial
  | ask q k ih => exact ask_other hp.1 fun a => ih a (hp.2 a)

theorem ask_one {q : Q} {k : A q → Prog A ε α} (h : ∀ a, Asks (fun q => P q = false) (k a)) :
    AtMost P 1 (ask q k) := by
  rw [succ_ask]
  split_ifs
  · exact fun a => of_asks (h a) 0
  · exact fun a => of_asks (h a) 1

theorem runs {p : Prog A ε α} {n : Nat} (h : AtMost P n p) {tr : List (Event A)}
    {r : Except ε α} (hrun : Runs p tr r) : tr.countP (fun e => P e.1) ≤ n := by
  induction hrun generalizing n with
  | ret a => exact Nat.zero_le n
  | throw e => exact Nat.zero_le n
  | @ask q k a tr r rest ih =>
    by_cases hq : P q = true
    · rw [List.countP_cons_of_pos (p := fun e : Event A => P e.1) hq]
      cases n with
      | zero => exact absurd hq (by simp [h.1])
      | succ n =>
        rw [succ_ask, if_pos hq] at h
        exact Nat.succ_le_succ (ih (h a))
    · rw [List.countP_cons_of_neg (p := fun e : Event A => P e.1) hq]
      cases n with
      | zero => exact ih (h.2 a)
      | succ n =>
        rw [succ_ask, if_neg hq] at h
        exact ih (h a)

end AtMost

/-! ### Transcripts -/

/-- The outcome of the run with these answers, where the questions are the program's. -/
def replay [DecidableEq Q] : Prog A ε α → List (Event A) → Option (Except ε α)
  | ret a, [] => some (.ok a)
  | throw e, [] => some (.error e)
  | ask q k, ⟨q', a⟩ :: tr => if h : q' = q then replay (k (h ▸ a)) tr else none
  | _, _ => none

theorem runs_of_replay [DecidableEq Q] {p : Prog A ε α} {tr : List (Event A)} {r : Except ε α}
    (h : p.replay tr = some r) : Runs p tr r := by
  induction p generalizing tr with
  | ret a =>
    cases tr with
    | nil =>
      cases h
      exact .ret a
    | cons e tr => cases h
  | throw e =>
    cases tr with
    | nil =>
      cases h
      exact .throw e
    | cons e tr => cases h
  | ask q k ih =>
    cases tr with
    | nil => cases h
    | cons e tr =>
      obtain ⟨q', a⟩ := e
      rw [replay] at h
      split_ifs at h with hq
      subst hq
      exact .ask (ih _ h)

/-! ### Answering strategies -/

/-- The run in which every question has a fixed answer. -/
def eval (ans : (q : Q) → A q) : Prog A ε α → List (Event A) × Except ε α
  | ret a => ([], .ok a)
  | throw e => ([], .error e)
  | ask q k => (⟨q, ans q⟩ :: (eval ans (k (ans q))).1, (eval ans (k (ans q))).2)

theorem runs_eval (ans : (q : Q) → A q) : ∀ p : Prog A ε α,
    Runs p (eval ans p).1 (eval ans p).2 := by
  intro p
  induction p with
  | ret a => exact .ret a
  | throw e => exact .throw e
  | ask q k ih => exact .ask (ih (ans q))

/-- The answers in a strategy's run are the strategy's. -/
theorem answer_eval (ans : (q : Q) → A q) : ∀ (p : Prog A ε α), ∀ e ∈ (eval ans p).1,
    e.2 = ans e.1 := by
  intro p
  induction p with
  | ret a => intro e he; cases he
  | throw err => intro e he; cases he
  | ask q k ih =>
    intro e he
    rcases List.mem_cons.1 he with rfl | he
    · rfl
    · exact ih _ e he

end Prog

end Lib

/-! ## Trails

A trail is what a process puts out, in order, and how it ends.  A program of
`Prog` is watched through the events it takes part in: some of them show as
output, some can interrupt it.  `Follows W p T R` says that every run of `p`
shows a trail of `T` and ends as that trail does, or is interrupted and shows the
beginning of one.

The rules `Follows.pure`, `Follows.bind`, `Follows.poll` and `Follows.mono` build
a simulation piece by piece; `Follows.calm` reads off a run that nothing
interrupted.
-/

namespace Lib

/-- Output in order, and how it ended. -/
structure Trail (ω ε α : Type) where
  out : List ω
  outcome : Except ε α

namespace Trail

variable {ω ε α β : Type}

def bind (t : Trail ω ε α) (f : α → Trail ω ε β) : Trail ω ε β :=
  match t.outcome with
  | .ok a => ⟨t.out ++ (f a).out, (f a).outcome⟩
  | .error e => ⟨t.out, .error e⟩

instance : Monad (Trail ω ε) where
  pure a := ⟨[], .ok a⟩
  bind := bind

def tell (w : ω) : Trail ω ε Unit := ⟨[w], .ok ()⟩

def stop (e : ε) : Trail ω ε α := ⟨[], .error e⟩

/-- Stop for a reason, if there is one. -/
def refuse : Option ε → Trail ω ε Unit
  | none => pure ()
  | some e => stop e

@[simp] theorem ok_bind (out : List ω) (a : α) (f : α → Trail ω ε β) :
    ((⟨out, .ok a⟩ : Trail ω ε α) >>= f) = ⟨out ++ (f a).out, (f a).outcome⟩ := rfl

@[simp] theorem error_bind (out : List ω) (e : ε) (f : α → Trail ω ε β) :
    ((⟨out, .error e⟩ : Trail ω ε α) >>= f) = ⟨out, .error e⟩ := rfl

theorem map_id (t : Trail ω ε α) : id <$> t = t := by
  obtain ⟨out, e | a⟩ := t
  · rfl
  · show (⟨out ++ [], .ok a⟩ : Trail ω ε α) = _
    rw [List.append_nil]

theorem assoc {γ : Type} (t : Trail ω ε α) (f : α → Trail ω ε β) (g : β → Trail ω ε γ) :
    t >>= f >>= g = t >>= fun a => f a >>= g := by
  obtain ⟨out, e | a⟩ := t
  · rfl
  · rw [ok_bind, ok_bind]
    rcases hf : f a with ⟨out', e | b⟩
    · rfl
    · rw [ok_bind, ok_bind, List.append_assoc]

theorem outcome_bind_error {t : Trail ω ε α} {e : ε} (h : t.outcome = .error e)
    (f : α → Trail ω ε β) : (t >>= f).outcome = .error e := by
  obtain ⟨out, oc⟩ := t
  cases h
  rfl

theorem out_prefix_bind (t : Trail ω ε α) (f : α → Trail ω ε β) : t.out <+: (t >>= f).out := by
  obtain ⟨out, e | a⟩ := t
  · exact List.prefix_refl _
  · exact List.prefix_append _ _

instance : LawfulMonad (Trail ω ε) := .mk' _ map_id (fun _ _ => rfl) assoc

end Trail

/-! ### Watching a program -/

/-- How a program is watched. -/
structure Watch {Q : Type} (A : Q → Type) (ν ω ε ε' : Type) where
  /-- What is seen of an event, if anything. -/
  view : Event A → Option ν
  /-- What is seen shows an output. -/
  shows : ν → ω → Prop
  /-- A failure of the program stands for a failure of the trail. -/
  stands : ε → ε' → Prop
  /-- The event interrupts nothing. -/
  calm : Event A → Prop
  /-- How an interrupted program fails. -/
  interrupted : ε

namespace Watch

variable {Q : Type} {A : Q → Type} {ν ω ε ε' α β σ τ : Type} (W : Watch A ν ω ε ε')

/-- A run shows an output. -/
def Sees (tr : List (Event A)) (out : List ω) : Prop :=
  List.Forall₂ W.shows (tr.filterMap W.view) out

/-- An outcome of the program and an outcome of the trail. -/
inductive Ends (R : α → σ → Prop) : Except ε α → Except ε' σ → Prop
  | ok {a : α} {s : σ} (h : R a s) : Ends R (.ok a) (.ok s)
  | error {e : ε} {e' : ε'} (h : W.stands e e') : Ends R (.error e) (.error e')

/-- A run shows a trail whole, or it was interrupted and shows the beginning of it. -/
inductive Matches (R : α → σ → Prop) (tr : List (Event A)) (r : Except ε α)
    (t : Trail ω ε' σ) : Prop
  | whole (sees : W.Sees tr t.out) (ends : W.Ends R r t.outcome)
  | short (out : List ω) (sees : W.Sees tr out) (isPrefix : out <+: t.out)
      (failed : r = .error W.interrupted) (cause : ∃ e ∈ tr, ¬W.calm e)

/-- Every run of the program shows one of the trails. -/
def Follows (p : Prog A ε α) (T : Trail ω ε' σ → Prop) (R : α → σ → Prop) : Prop :=
  ∀ tr r, p.Runs tr r → ∃ t, T t ∧ W.Matches R tr r t

/-- The trails of a sequence. -/
def seq (T : Trail ω ε' σ → Prop) (U : σ → Trail ω ε' τ → Prop) (t : Trail ω ε' τ) : Prop :=
  ∃ t₁ u, T t₁ ∧ (∀ s, U s (u s)) ∧ t = t₁ >>= u

/-- After one trail, one of a family of trails. -/
theorem seq_eq {ι : Type} {P : ι → Prop} {t₁ : Trail ω ε' σ} {k : ι → σ → Trail ω ε' τ}
    {t : Trail ω ε' τ} (hP : ∃ i, P i)
    (h : seq (· = t₁) (fun s t' => ∃ i, P i ∧ t' = k i s) t) : ∃ i, P i ∧ t = t₁ >>= k i := by
  obtain ⟨⟨out, e | s⟩, u, rfl, hu, rfl⟩ := h
  · obtain ⟨i, hi⟩ := hP
    exact ⟨i, hi, rfl⟩
  · obtain ⟨i, hi, hus⟩ := hu s
    exact ⟨i, hi, by rw [Trail.ok_bind, Trail.ok_bind, hus]⟩

variable {W}

theorem Sees.append {tr tr' : List (Event A)} {out out' : List ω} (h : W.Sees tr out)
    (h' : W.Sees tr' out') : W.Sees (tr ++ tr') (out ++ out') := by
  rw [Sees, List.filterMap_append]
  exact List.rel_append h h'

theorem Sees.nil : W.Sees [] [] := List.Forall₂.nil

/-- An event that is not seen. -/
theorem Sees.cons_hidden {e : Event A} {tr : List (Event A)} {out : List ω}
    (he : W.view e = none) (h : W.Sees tr out) : W.Sees (e :: tr) out := by
  rw [Sees, List.filterMap_cons_none he]
  exact h

/-- An event that shows one output. -/
theorem Sees.cons_seen {e : Event A} {tr : List (Event A)} {v : ν} {w : ω} {out : List ω}
    (he : W.view e = some v) (hw : W.shows v w) (h : W.Sees tr out) :
    W.Sees (e :: tr) (w :: out) := by
  rw [Sees, List.filterMap_cons_some he]
  exact .cons hw h

theorem Ends.mono {R R' : α → σ → Prop} (hR : ∀ a s, R a s → R' a s) {r : Except ε α}
    {r' : Except ε' σ} (h : W.Ends R r r') : W.Ends R' r r' := by
  cases h with
  | ok h => exact .ok (hR _ _ h)
  | error h => exact .error h

namespace Follows

theorem mono {p : Prog A ε α} {T T' : Trail ω ε' σ → Prop} {R R' : α → σ → Prop}
    (h : W.Follows p T R) (hT : ∀ t, T t → T' t) (hR : ∀ a s, R a s → R' a s) :
    W.Follows p T' R' := by
  intro tr r hrun
  obtain ⟨t, ht, hmatch⟩ := h tr r hrun
  refine ⟨t, hT t ht, ?_⟩
  cases hmatch with
  | whole sees ends => exact .whole sees (ends.mono hR)
  | short out sees isPrefix failed cause => exact .short out sees isPrefix failed cause

theorem pure {R : α → σ → Prop} {a : α} {s : σ} (h : R a s) :
    W.Follows (Pure.pure a : Prog A ε α) (· = Pure.pure s) R := by
  intro tr r hrun
  obtain ⟨rfl, rfl⟩ := Prog.runs_pure.1 hrun
  exact ⟨_, rfl, .whole .nil (.ok h)⟩

/-- A failure. -/
theorem throw {R : α → σ → Prop} {e : ε} {e' : ε'} (h : W.stands e e') :
    W.Follows (.throw e : Prog A ε α) (· = Trail.stop e') R := by
  intro tr r hrun
  obtain ⟨rfl, rfl⟩ := Prog.runs_throw.1 hrun
  exact ⟨_, rfl, .whole .nil (.error h)⟩

/-- **A sequence follows the sequence of what its parts follow.** -/
theorem bind {p : Prog A ε α} {f : α → Prog A ε β} {T : Trail ω ε' σ → Prop}
    {U : σ → Trail ω ε' τ → Prop} {R : α → σ → Prop} {S : β → τ → Prop}
    (hp : W.Follows p T R) (hf : ∀ a s, R a s → W.Follows (f a) (U s) S)
    (hU : ∀ s, ∃ t, U s t) : W.Follows (p >>= f) (seq T U) S := by
  choose u₀ hu₀ using hU
  intro tr r hrun
  rcases Prog.runs_bind.1 hrun with ⟨e, rfl, hfail⟩ | ⟨a, t₁, t₂, rfl, hfirst, hrest⟩
  · obtain ⟨t, ht, hmatch⟩ := hp _ _ hfail
    refine ⟨t >>= u₀, ⟨t, u₀, ht, hu₀, rfl⟩, ?_⟩
    obtain ⟨out, oc⟩ := t
    cases hmatch with
    | whole sees ends =>
      cases ends with
      | error h => exact .whole sees (.error h)
    | short out' sees isPrefix failed cause =>
      cases failed
      refine .short out' sees ?_ rfl cause
      cases oc with
      | error e => exact isPrefix
      | ok s => exact isPrefix.trans (List.prefix_append _ _)
  · obtain ⟨⟨out, oc⟩, ht, hmatch⟩ := hp _ _ hfirst
    cases hmatch with
    | short out' sees isPrefix failed cause => cases failed
    | whole sees ends =>
      obtain ⟨h⟩ := ends
      rename_i s
      obtain ⟨t', ht', hmatch'⟩ := hf a s h _ _ hrest
      classical
      refine ⟨⟨out ++ t'.out, t'.outcome⟩, ⟨⟨out, .ok s⟩, Function.update u₀ s t', ht, ?_, ?_⟩, ?_⟩
      · intro s'
        by_cases hs : s' = s
        · subst hs
          rw [Function.update_self]
          exact ht'
        · rw [Function.update_of_ne hs]
          exact hu₀ s'
      · rw [Trail.ok_bind, Function.update_self]
      · cases hmatch' with
        | whole sees' ends' => exact .whole (sees.append sees') ends'
        | short out' sees' isPrefix failed cause =>
          obtain ⟨e, he, hcalm⟩ := cause
          exact .short (out ++ out') (sees.append sees') ((List.prefix_append_right_inj _).2 isPrefix)
            failed ⟨e, List.mem_append_right _ he, hcalm⟩

/-- A sequence of parts that follow one trail each. -/
theorem bind_eq {p : Prog A ε α} {f : α → Prog A ε β} {t : Trail ω ε' σ} {u : σ → Trail ω ε' τ}
    {R : α → σ → Prop} {S : β → τ → Prop} (hp : W.Follows p (· = t) R)
    (hf : ∀ a s, R a s → W.Follows (f a) (· = u s) S) :
    W.Follows (p >>= f) (· = t >>= u) S := by
  refine (hp.bind hf fun s => ⟨u s, rfl⟩).mono ?_ fun _ _ h => h
  rintro _ ⟨t₁, u₁, rfl, hu, rfl⟩
  rw [funext hu]

/-- A step that cannot fail. -/
theorem lift_ok {a : α} {f : α → Prog A ε β} {T : Trail ω ε' σ → Prop} {R : β → σ → Prop}
    (h : W.Follows (f a) T R) : W.Follows (Prog.lift (.ok a) >>= f) T R := h

/-- A step that fails. -/
theorem lift_error {e : ε} {e' : ε'} {f : α → Prog A ε β} {R : β → σ → Prop}
    (h : W.stands e e') : W.Follows (Prog.lift (.error e) >>= f) (· = Trail.stop e') R :=
  throw h

/-- A question that shows one output, or interrupts. -/
theorem emit {q : Q} {f : A q → Prog A ε α} {w : ω} {t : Trail ω ε' σ} {R : α → σ → Prop}
    (h : ∀ a, (f a = .throw W.interrupted ∧ W.view ⟨q, a⟩ = none ∧ ¬W.calm ⟨q, a⟩) ∨
      ∃ v, W.view ⟨q, a⟩ = some v ∧ W.shows v w ∧ W.Follows (f a) (· = t) R) :
    W.Follows (Prog.query q >>= f) (· = Trail.tell w >>= fun _ => t) R := by
  intro tr r hrun
  refine ⟨_, rfl, ?_⟩
  obtain ⟨a, tr', rfl, hrest⟩ := Prog.runs_query_bind.1 hrun
  rcases h a with ⟨hfail, hview, hcalm⟩ | ⟨v, hview, hw, hfollow⟩
  · rw [hfail] at hrest
    obtain ⟨rfl, rfl⟩ := Prog.runs_throw.1 hrest
    exact .short [] (Sees.nil.cons_hidden hview) List.nil_prefix rfl ⟨_, List.mem_cons_self, hcalm⟩
  · obtain ⟨t', rfl, hmatch⟩ := hfollow _ _ hrest
    cases hmatch with
    | whole sees ends => exact .whole (sees.cons_seen hview hw) ends
    | short out sees isPrefix failed cause =>
      obtain ⟨e, he, hcalm⟩ := cause
      exact .short (w :: out) (sees.cons_seen hview hw) ((List.prefix_cons_inj w).2 isPrefix) failed
        ⟨e, List.mem_cons_of_mem _ he, hcalm⟩

/-- A question that is not seen and whose answer can only interrupt. -/
theorem poll {q : Q} {f : A q → Prog A ε α} {T : Trail ω ε' σ → Prop} {R : α → σ → Prop}
    (hT : ∃ t, T t) (hview : ∀ a, W.view ⟨q, a⟩ = none)
    (h : ∀ a, (f a = .throw W.interrupted ∧ ¬W.calm ⟨q, a⟩) ∨ W.Follows (f a) T R) :
    W.Follows (Prog.query q >>= f) T R := by
  intro tr r hrun
  obtain ⟨a, tr', rfl, hrest⟩ := Prog.runs_query_bind.1 hrun
  rcases h a with ⟨hfail, hcalm⟩ | hfollow
  · rw [hfail] at hrest
    obtain ⟨rfl, rfl⟩ := Prog.runs_throw.1 hrest
    obtain ⟨t, ht⟩ := hT
    exact ⟨t, ht, .short [] (Sees.nil.cons_hidden (hview a)) (List.nil_prefix) rfl
      ⟨_, List.mem_cons_self, hcalm⟩⟩
  · obtain ⟨t, ht, hmatch⟩ := hfollow _ _ hrest
    refine ⟨t, ht, ?_⟩
    cases hmatch with
    | whole sees ends => exact .whole (sees.cons_hidden (hview a)) ends
    | short out sees isPrefix failed cause =>
      obtain ⟨e, he, hcalm⟩ := cause
      exact .short out (sees.cons_hidden (hview a)) isPrefix failed
        ⟨e, List.mem_cons_of_mem _ he, hcalm⟩

/-- **A run that nothing interrupted shows its trail whole.** -/
theorem calm {p : Prog A ε α} {T : Trail ω ε' σ → Prop} {R : α → σ → Prop}
    (h : W.Follows p T R) {tr : List (Event A)} {r : Except ε α} (hrun : p.Runs tr r)
    (hcalm : ∀ e ∈ tr, W.calm e) :
    ∃ t, T t ∧ W.Sees tr t.out ∧ W.Ends R r t.outcome := by
  obtain ⟨t, ht, hmatch⟩ := h tr r hrun
  cases hmatch with
  | whole sees ends => exact ⟨t, ht, sees, ends⟩
  | short out sees isPrefix failed cause =>
    obtain ⟨e, he, hnot⟩ := cause
    exact absurd (hcalm e he) hnot

/-- A run that ends well shows its trail whole. -/
theorem ok {p : Prog A ε α} {T : Trail ω ε' σ → Prop} {R : α → σ → Prop}
    (h : W.Follows p T R) {tr : List (Event A)} {a : α} (hrun : p.Runs tr (.ok a)) :
    ∃ out s, T ⟨out, .ok s⟩ ∧ W.Sees tr out ∧ R a s := by
  obtain ⟨⟨out, oc⟩, ht, hmatch⟩ := h tr _ hrun
  cases hmatch with
  | whole sees ends =>
    cases ends with
    | ok h => exact ⟨out, _, ht, sees, h⟩
  | short out sees isPrefix failed cause => cases failed

/-- Every run shows at least the beginning of a trail. -/
theorem sees_beginning {p : Prog A ε α} {T : Trail ω ε' σ → Prop} {R : α → σ → Prop}
    (h : W.Follows p T R) {tr : List (Event A)} {r : Except ε α} (hrun : p.Runs tr r) :
    ∃ t out, T t ∧ out <+: t.out ∧ W.Sees tr out := by
  obtain ⟨t, ht, hmatch⟩ := h tr r hrun
  cases hmatch with
  | whole sees ends => exact ⟨t, t.out, ht, List.prefix_refl _, sees⟩
  | short out sees isPrefix failed cause => exact ⟨t, out, ht, isPrefix, sees⟩

end Follows

end Watch

end Lib
