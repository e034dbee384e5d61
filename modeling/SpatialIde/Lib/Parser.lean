import Mathlib.Data.List.Basic

/-! # Parsers over a cursor, and what they read

A `Parser` walks a `Cursor` over a fixed input, carries a mode that later reads
depend on (a byte order, a dialect) and writes into an output `σ` as it goes; an
error keeps the state it stopped in.

`Reads p G` says exactly when `p` succeeds: `G m s w a m' s'` is the grammar of
the words `w` that take mode `m` and output `s` to `m'` and `s'` with the result
`a`, and `p` succeeds precisely on the inputs that go on with such a word, moving
the cursor past it.  Both directions travel together, so a parser assembled by
`bind`, refusals, `zoom` and counted loops is sound and complete at once.

* `Reads.bind`, `Reads.refuseIf`, `Reads.zoom`: the composition rules;
* `Reads.forRange`: a counted loop reads that many items (`Many`);
* `Many.flatMap`: what a run of independent items amounts to;
* `ReadsAll`: the same for a parser that must reach the end of its input;
* `FailsWith`, `Leaves`, `FailsLeaving`: which errors it can stop with, and what
  it has written by then.
-/

namespace Lib

/-- A position in an input, and the mode the next read is made in. -/
structure Cursor (τ μ : Type) where
  input : List τ
  pos : Nat
  mode : μ
  deriving DecidableEq, Repr

namespace Cursor

variable {τ μ : Type}

/-- The cursor lies inside its input. -/
def InBounds (c : Cursor τ μ) : Prop := c.pos ≤ c.input.length

/-- What the cursor has not passed yet. -/
def rest (c : Cursor τ μ) : List τ := c.input.drop c.pos

/-- `c` becomes `c'` by moving past the word `w`. -/
def Passes (c : Cursor τ μ) (w : List τ) (c' : Cursor τ μ) : Prop :=
  w <+: c.rest ∧ c'.input = c.input ∧ c'.pos = c.pos + w.length

theorem Passes.inBounds {c c' : Cursor τ μ} {w : List τ} (hc : c.InBounds)
    (h : c.Passes w c') : c'.InBounds := by
  obtain ⟨hw, hi, hp⟩ := h
  have hlen := hw.length_le
  simp only [rest, List.length_drop] at hlen
  simp only [InBounds, hi, hp] at hc ⊢
  omega

theorem Passes.rest_eq {c c' : Cursor τ μ} {w : List τ} (h : c.Passes w c') :
    c.rest = w ++ c'.rest := by
  obtain ⟨⟨t, ht⟩, hi, hp⟩ := h
  rw [← ht, rest, hi, hp, ← List.drop_drop]
  change _ = w ++ List.drop w.length c.rest
  rw [← ht, List.drop_left]

theorem passes_nil {c c' : Cursor τ μ} : c.Passes [] c' ↔ c'.input = c.input ∧ c'.pos = c.pos := by
  simp [Passes]

/-- Passing two words in turn is passing their concatenation. -/
theorem passes_append {c c' : Cursor τ μ} {v w : List τ} {m : μ} :
    c.Passes (v ++ w) c' ↔ c.Passes v ⟨c.input, c.pos + v.length, m⟩ ∧
      Passes ⟨c.input, c.pos + v.length, m⟩ w c' := by
  have hdrop : c.input.drop (c.pos + v.length) = (c.input.drop c.pos).drop v.length := by
    rw [List.drop_drop]
  simp only [Passes, rest, hdrop, List.length_append, Nat.add_assoc]
  constructor
  · rintro ⟨⟨t, ht⟩, hi, hp⟩
    have ht' : c.input.drop c.pos = v ++ (w ++ t) := by rw [← ht, List.append_assoc]
    refine ⟨⟨⟨w ++ t, ht'.symm⟩, trivial, trivial⟩, ⟨t, ?_⟩, hi, hp⟩
    rw [ht', List.drop_left]
  · rintro ⟨⟨⟨t, ht⟩, _, _⟩, ⟨u, hu⟩, hi, hp⟩
    refine ⟨⟨u, ?_⟩, hi, hp⟩
    rw [← ht, List.drop_left] at hu
    rw [List.append_assoc, hu, ht]

end Cursor

/-- A parser: it reads at a cursor, writes into an output, and may fail. -/
abbrev Parser (τ μ σ ε α : Type) := EStateM ε (Cursor τ μ × σ) α

/-- The words a parser reads: mode and output before, word, result, mode and output after. -/
abbrev Grammar (τ μ σ α : Type) := μ → σ → List τ → α → μ → σ → Prop

variable {τ μ σ ρ ε α β χ : Type}

/-- Stop with an error. -/
def fail (e : ε) : Parser τ μ σ ε α := fun st => .error e st

/-- Stop with an error under a condition. -/
def refuseIf (b : Prop) [Decidable b] (e : ε) : Parser τ μ σ ε Unit :=
  if b then fail e else pure ()

/-- The cursor as it stands. -/
def cursor : Parser τ μ σ ε (Cursor τ μ) := fun st => .ok st.1 st

/-- The mode reads are made in. -/
def mode : Parser τ μ σ ε μ := fun st => .ok st.1.mode st

/-- Make the reads that follow in another mode. -/
def setMode (m : μ) : Parser τ μ σ ε Unit := fun st => .ok () (⟨st.1.input, st.1.pos, m⟩, st.2)

/-- **`p` reads exactly the words of `G`.** -/
def Reads (p : Parser τ μ σ ε α) (G : Grammar τ μ σ α) : Prop :=
  ∀ (c : Cursor τ μ) (s : σ) (a : α) (c' : Cursor τ μ) (s' : σ), c.InBounds →
    (p.run (c, s) = .ok a (c', s') ↔ ∃ w, c.Passes w c' ∧ G c.mode s w a c'.mode s')

theorem bind_run_eq_ok {δ : Type} {p : EStateM ε δ α} {f : α → EStateM ε δ β}
    {st st'' : δ} {b : β} : (p >>= f).run st = .ok b st'' ↔
      ∃ a st', p.run st = .ok a st' ∧ (f a).run st' = .ok b st'' := by
  change EStateM.bind p f st = _ ↔ _
  unfold EStateM.bind EStateM.run
  cases p st with
  | ok a st' => simp
  | error e st' => simp

namespace Reads

theorem congr {p : Parser τ μ σ ε α} {G H : Grammar τ μ σ α} (hp : Reads p G)
    (h : ∀ m s w a m' s', G m s w a m' s' ↔ H m s w a m' s') : Reads p H := by
  intro c s a c' s' hc
  rw [hp c s a c' s' hc]
  simp only [h]

/-- A parser that consumes nothing and only decides its result, the next mode and the output. -/
theorem still {p : Parser τ μ σ ε α} (ans : μ → σ → α) (next : μ → σ → μ) (write : μ → σ → σ)
    (hp : ∀ (c : Cursor τ μ) (s : σ), p.run (c, s) =
      .ok (ans c.mode s) (⟨c.input, c.pos, next c.mode s⟩, write c.mode s)) :
    Reads p (fun m s w a m' s' => w = [] ∧ a = ans m s ∧ m' = next m s ∧ s' = write m s) := by
  intro c s a c' s' _
  rw [hp]
  obtain ⟨i', p', m'⟩ := c'
  constructor
  · intro h
    cases h
    exact ⟨[], Cursor.passes_nil.2 ⟨rfl, rfl⟩, rfl, rfl, rfl, rfl⟩
  · rintro ⟨w, hw, rfl, rfl, hm, rfl⟩
    obtain ⟨hi, hp⟩ := Cursor.passes_nil.1 hw
    simp only at hi hp hm
    rw [hi, hp, hm]

theorem pure (a : α) : Reads (Pure.pure a : Parser τ μ σ ε α)
    (fun m s w a' m' s' => w = [] ∧ a' = a ∧ m' = m ∧ s' = s) :=
  still (fun _ _ => a) (fun m _ => m) (fun _ s => s) (fun _ _ => rfl)

theorem mode : Reads (Lib.mode : Parser τ μ σ ε μ)
    (fun m s w a m' s' => w = [] ∧ a = m ∧ m' = m ∧ s' = s) :=
  still (fun m _ => m) (fun m _ => m) (fun _ s => s) (fun _ _ => rfl)

theorem setMode (n : μ) : Reads (Lib.setMode n : Parser τ μ σ ε Unit)
    (fun _ s w a m' s' => w = [] ∧ a = () ∧ m' = n ∧ s' = s) :=
  still (fun _ _ => ()) (fun _ _ => n) (fun _ s => s) (fun _ _ => rfl)

theorem fail (e : ε) : Reads (Lib.fail e : Parser τ μ σ ε α) (fun _ _ _ _ _ _ => False) := by
  intro c s a c' s' _
  change EStateM.Result.error e (c, s) = _ ↔ _
  simp

/-- **Two parsers in turn read a word of the first followed by a word of the second.** -/
theorem bind {p : Parser τ μ σ ε α} {f : α → Parser τ μ σ ε β} {G : Grammar τ μ σ α}
    {H : α → Grammar τ μ σ β} (hp : Reads p G) (hf : ∀ a, Reads (f a) (H a)) :
    Reads (p >>= f) (fun m s w b m'' s'' =>
      ∃ a m' s' w₁ w₂, G m s w₁ a m' s' ∧ H a m' s' w₂ b m'' s'' ∧ w = w₁ ++ w₂) := by
  intro c s b c'' s'' hc
  rw [bind_run_eq_ok]
  constructor
  · rintro ⟨a, ⟨c', s'⟩, h₁, h₂⟩
    obtain ⟨w₁, hw₁, g₁⟩ := (hp c s a c' s' hc).1 h₁
    obtain ⟨w₂, hw₂, g₂⟩ := (hf a c' s' b c'' s'' (hw₁.inBounds hc)).1 h₂
    refine ⟨w₁ ++ w₂, ?_, a, c'.mode, s', w₁, w₂, g₁, g₂, rfl⟩
    have hmid : (⟨c.input, c.pos + w₁.length, c'.mode⟩ : Cursor τ μ) = c' := by
      obtain ⟨_, hi, hpos⟩ := hw₁
      rw [← hi, ← hpos]
    exact Cursor.passes_append.2 (by rw [hmid]; exact ⟨hw₁, hw₂⟩)
  · rintro ⟨w, hw, a, m', s', w₁, w₂, g₁, g₂, rfl⟩
    obtain ⟨hw₁, hw₂⟩ := (Cursor.passes_append (m := m')).1 hw
    have hin := hw₁.inBounds hc
    exact ⟨a, _, (hp c s a _ s' hc).2 ⟨w₁, hw₁, g₁⟩, (hf a _ s' b c'' s'' hin).2 ⟨w₂, hw₂, g₂⟩⟩

/-- A refusal lets through the words it does not apply to. -/
theorem refuseIf (b : Prop) [Decidable b] (e : ε) :
    Reads (Lib.refuseIf b e : Parser τ μ σ ε Unit)
      (fun m s w _ m' s' => w = [] ∧ ¬b ∧ m' = m ∧ s' = s) := by
  by_cases hb : b
  · rw [Lib.refuseIf, if_pos hb]
    exact (fail e).congr (by simp [hb])
  · rw [Lib.refuseIf, if_neg hb]
    exact (pure ()).congr (by simp [hb])

/-- A choice made before reading. -/
theorem ite {b : Prop} [Decidable b] {p q : Parser τ μ σ ε α} {G H : Grammar τ μ σ α}
    (hp : Reads p G) (hq : Reads q H) :
    Reads (if b then p else q)
      (fun m s w a m' s' => (b ∧ G m s w a m' s') ∨ (¬b ∧ H m s w a m' s')) := by
  by_cases hb : b
  · rw [if_pos hb]
    exact hp.congr (by simp [hb])
  · rw [if_neg hb]
    exact hq.congr (by simp [hb])

end Reads

/-- Write into the output. -/
def modifyOut (f : σ → σ) : Parser τ μ σ ε Unit := modify (fun st => (st.1, f st.2))

/-- Read the output written so far. -/
def getOut : Parser τ μ σ ε σ := fun st => .ok st.2 st

/-- Run a parser on a part of the output. -/
def zoom (look : σ → ρ) (put : ρ → σ → σ) (p : Parser τ μ ρ ε α) : Parser τ μ σ ε α := fun st =>
  match p.run (st.1, look st.2) with
  | .ok a (c', r') => .ok a (c', put r' st.2)
  | .error e (c', r') => .error e (c', put r' st.2)

/-- Run the body once for each of `n` indices from `i` on. -/
def forRange (body : Nat → Parser τ μ σ ε Unit) : Nat → Nat → Parser τ μ σ ε Unit
  | _, 0 => pure ()
  | i, n + 1 => do body i; forRange body (i + 1) n

/-- A word that is a run of items, each read where the one before it ended. -/
inductive Many (H : μ → σ → List τ → χ → μ → σ → Prop) :
    μ → σ → List τ → List χ → μ → σ → Prop
  | nil (m : μ) (s : σ) : Many H m s [] [] m s
  | cons {m m' m'' : μ} {s s' s'' : σ} {w w' : List τ} {x : χ} {xs : List χ}
      (head : H m s w x m' s') (tail : Many H m' s' w' xs m'' s'') :
      Many H m s (w ++ w') (x :: xs) m'' s''

namespace Many

variable {H : μ → σ → List τ → χ → μ → σ → Prop}

@[simp] theorem nil_iff {m m' : μ} {s s' : σ} {w : List τ} :
    Many H m s w [] m' s' ↔ w = [] ∧ m' = m ∧ s' = s := by
  constructor
  · intro h
    cases h
    exact ⟨rfl, rfl, rfl⟩
  · rintro ⟨rfl, rfl, rfl⟩
    exact .nil _ _

theorem cons_iff {m m'' : μ} {s s'' : σ} {w : List τ} {x : χ} {xs : List χ} :
    Many H m s w (x :: xs) m'' s'' ↔
      ∃ m' s' w₁ w₂, H m s w₁ x m' s' ∧ Many H m' s' w₂ xs m'' s'' ∧ w = w₁ ++ w₂ := by
  constructor
  · intro h
    cases h with
    | cons head tail => exact ⟨_, _, _, _, head, tail, rfl⟩
  · rintro ⟨m', s', w₁, w₂, head, tail, rfl⟩
    exact .cons head tail

/-- **Independent items**: when an item's word depends on the mode it is read in and on itself, and
its effects are a mode and a write of its own, a run of items is their words laid end to end. -/
theorem flatMap {ok : χ → Prop} (enc : μ → χ → List τ) (next : μ → χ → μ) {push : σ → χ → σ}
    (hH : ∀ m s w x m' s', H m s w x m' s' ↔
      ok x ∧ w = enc m x ∧ m' = next m x ∧ s' = push s x)
    (henc : ∀ m x, enc (next m x) = enc m) :
    ∀ (xs : List χ) (m m' : μ) (s s' : σ) (w : List τ), Many H m s w xs m' s' ↔
      (∀ x ∈ xs, ok x) ∧ w = xs.flatMap (enc m) ∧ m' = xs.foldl next m ∧
        s' = xs.foldl push s := by
  intro xs
  induction xs with
  | nil => intro m m' s s' w; simp
  | cons x xs ih =>
    intro m m' s s' w
    rw [cons_iff]
    simp only [hH, ih, List.forall_mem_cons, List.flatMap_cons, List.foldl_cons]
    constructor
    · rintro ⟨_, _, _, _, ⟨hx, rfl, rfl, rfl⟩, ⟨hxs, rfl, rfl, rfl⟩, rfl⟩
      exact ⟨⟨hx, hxs⟩, by rw [henc], rfl, rfl⟩
    · rintro ⟨⟨hx, hxs⟩, rfl, rfl, rfl⟩
      exact ⟨_, _, _, _, ⟨hx, rfl, rfl, rfl⟩, ⟨hxs, rfl, rfl, rfl⟩, by rw [henc]⟩

end Many

namespace Reads

theorem modifyOut (f : σ → σ) : Reads (Lib.modifyOut f : Parser τ μ σ ε Unit)
    (fun m s w a m' s' => w = [] ∧ a = () ∧ m' = m ∧ s' = f s) :=
  still (fun _ _ => ()) (fun m _ => m) (fun _ s => f s) (fun _ _ => rfl)

theorem getOut : Reads (Lib.getOut : Parser τ μ σ ε σ)
    (fun m s w a m' s' => w = [] ∧ a = s ∧ m' = m ∧ s' = s) :=
  still (fun _ s => s) (fun m _ => m) (fun _ s => s) (fun _ _ => rfl)

theorem zoom {look : σ → ρ} {put : ρ → σ → σ} {p : Parser τ μ ρ ε α} {G : Grammar τ μ ρ α}
    (hp : Reads p G) : Reads (Lib.zoom look put p)
      (fun m s w a m' s' => ∃ r', G m (look s) w a m' r' ∧ s' = put r' s) := by
  intro c s a c' s' hc
  have hrun : (Lib.zoom look put p).run (c, s) = .ok a (c', s') ↔
      ∃ r', p.run (c, look s) = .ok a (c', r') ∧ s' = put r' s := by
    change Lib.zoom look put p (c, s) = _ ↔ _
    simp only [Lib.zoom]
    cases p.run (c, look s) with
    | ok a₁ st =>
      obtain ⟨c₁, r₁⟩ := st
      simp only [EStateM.Result.ok.injEq, Prod.mk.injEq]
      constructor
      · rintro ⟨rfl, rfl, rfl⟩
        exact ⟨r₁, ⟨rfl, rfl, rfl⟩, rfl⟩
      · rintro ⟨r', ⟨rfl, rfl, rfl⟩, rfl⟩
        exact ⟨rfl, rfl, rfl⟩
    | error e st => simp
  rw [hrun]
  constructor
  · rintro ⟨r', h, rfl⟩
    obtain ⟨w, hw, g⟩ := (hp c (look s) a c' r' hc).1 h
    exact ⟨w, hw, r', g, rfl⟩
  · rintro ⟨w, hw, r', g, rfl⟩
    exact ⟨r', (hp c (look s) a c' r' hc).2 ⟨w, hw, g⟩, rfl⟩

/-- **A counted loop reads exactly that many items.** -/
theorem forRange {body : Nat → Parser τ μ σ ε Unit} {H : μ → σ → List τ → χ → μ → σ → Prop}
    (hbody : ∀ i, Reads (body i) (fun m s w _ m' s' => ∃ x, H m s w x m' s')) :
    ∀ n i, Reads (Lib.forRange body i n)
      (fun m s w _ m' s' => ∃ xs : List χ, xs.length = n ∧ Many H m s w xs m' s') := by
  intro n
  induction n with
  | zero =>
    intro i
    refine (Reads.pure ()).congr ?_
    intro m s w a m' s'
    simp only [List.length_eq_zero_iff, exists_eq_left, Many.nil_iff, true_and]
  | succ n ih =>
    intro i
    refine ((hbody i).bind (fun _ => ih (i + 1))).congr ?_
    intro m s w a m'' s''
    constructor
    · rintro ⟨_, m', s', w₁, w₂, ⟨x, hx⟩, ⟨xs, hlen, hxs⟩, rfl⟩
      exact ⟨x :: xs, by rw [List.length_cons, hlen], .cons hx hxs⟩
    · rintro ⟨xs, hlen, hxs⟩
      cases hxs with
      | nil => simp at hlen
      | cons head tail =>
        exact ⟨(), _, _, _, _, ⟨_, head⟩, ⟨_, by simpa using hlen, tail⟩, rfl⟩

/-- A counted loop over items that are written in the mode they are met in. -/
theorem forRange_items {body : Nat → Parser τ μ σ ε Unit} {ok : χ → Prop} {enc : μ → χ → List τ}
    {push : σ → χ → σ} (hbody : ∀ i, Reads (body i) (fun m s w _ m' s' =>
      ∃ x, ok x ∧ w = enc m x ∧ m' = m ∧ s' = push s x)) (n i : Nat) :
    Reads (Lib.forRange body i n) (fun m s w _ m' s' => ∃ xs : List χ, xs.length = n ∧
      (∀ x ∈ xs, ok x) ∧ w = xs.flatMap (enc m) ∧ m' = m ∧ s' = xs.foldl push s) := by
  have hmode : ∀ (xs : List χ) (m : μ), xs.foldl (fun m _ => m) m = m := by
    intro xs
    induction xs with
    | nil => intro m; rfl
    | cons x xs ih => intro m; exact ih m
  refine (forRange hbody n i).congr ?_
  intro m s w a m' s'
  simp only [Many.flatMap enc (fun m _ => m) (fun _ _ _ _ _ _ => Iff.rfl) (fun _ _ => rfl),
    hmode]

/-- A counted loop over items that carry a mode of their own. -/
theorem forRange_modal {body : Nat → Parser τ μ σ ε Unit} {ok : χ → Prop} {enc : χ → List τ}
    {own : χ → μ} {push : σ → χ → σ} (hbody : ∀ i, Reads (body i) (fun _ s w _ m' s' =>
      ∃ x, ok x ∧ w = enc x ∧ m' = own x ∧ s' = push s x)) (n i : Nat) :
    Reads (Lib.forRange body i n) (fun m s w _ m' s' => ∃ xs : List χ, xs.length = n ∧
      (∀ x ∈ xs, ok x) ∧ w = xs.flatMap enc ∧ m' = xs.foldl (fun _ x => own x) m ∧
        s' = xs.foldl push s) := by
  refine (forRange hbody n i).congr ?_
  intro m s w a m' s'
  simp only [Many.flatMap (fun _ x => enc x) (fun _ x => own x)
    (fun _ _ _ _ _ _ => Iff.rfl) (fun _ _ => rfl)]

end Reads

/-- **`p` reads exactly the inputs of `G`**: it succeeds when all that is left of the input is one
word of `G`, and then it stops at the end. -/
def ReadsAll (p : Parser τ μ σ ε α) (G : Grammar τ μ σ α) : Prop :=
  ∀ (c : Cursor τ μ) (s : σ) (a : α) (c' : Cursor τ μ) (s' : σ), c.InBounds →
    (p.run (c, s) = .ok a (c', s') ↔
      G c.mode s c.rest a c'.mode s' ∧ c'.input = c.input ∧ c'.pos = c.input.length)

/-- Stop with an error unless the input has been read to its end. -/
def expectEnd (e : Cursor τ μ → ε) : Parser τ μ σ ε Unit := do
  let c ← cursor
  refuseIf (c.pos ≠ c.input.length) (e c)

namespace ReadsAll

theorem expectEnd (e : Cursor τ μ → ε) : ReadsAll (Lib.expectEnd e : Parser τ μ σ ε Unit)
    (fun m s w _ m' s' => w = [] ∧ m' = m ∧ s' = s) := by
  intro c s a c' s' hc
  have hrun : (Lib.expectEnd e : Parser τ μ σ ε Unit).run (c, s) =
      (Lib.refuseIf (c.pos ≠ c.input.length) (e c) : Parser τ μ σ ε Unit).run (c, s) := rfl
  have hrest : c.rest = [] ↔ c.pos = c.input.length := by
    rw [Cursor.rest, List.drop_eq_nil_iff]
    exact ⟨fun h => Nat.le_antisymm hc h, fun h => Nat.le_of_eq h.symm⟩
  rw [hrun, Reads.refuseIf _ _ c s a c' s' hc]
  simp only [hrest]
  constructor
  · rintro ⟨w, hw, rfl, hend, hm, rfl⟩
    obtain ⟨hi, hp⟩ := Cursor.passes_nil.1 hw
    have hend' := not_not.1 hend
    exact ⟨⟨hend', hm, rfl⟩, hi, hp.trans hend'⟩
  · rintro ⟨⟨hend, hm, rfl⟩, hi, hp⟩
    exact ⟨[], Cursor.passes_nil.2 ⟨hi, hp.trans hend.symm⟩, rfl, not_not.2 hend, hm, rfl⟩

/-- A parser that goes on to the end after another one. -/
theorem bind {p : Parser τ μ σ ε α} {f : α → Parser τ μ σ ε β} {G : Grammar τ μ σ α}
    {H : α → Grammar τ μ σ β} (hp : Reads p G) (hf : ∀ a, ReadsAll (f a) (H a)) :
    ReadsAll (p >>= f) (fun m s w b m'' s'' =>
      ∃ a m' s' w₁ w₂, G m s w₁ a m' s' ∧ H a m' s' w₂ b m'' s'' ∧ w = w₁ ++ w₂) := by
  intro c s b c'' s'' hc
  rw [bind_run_eq_ok]
  constructor
  · rintro ⟨a, ⟨c', s'⟩, h₁, h₂⟩
    obtain ⟨w₁, hw₁, g₁⟩ := (hp c s a c' s' hc).1 h₁
    obtain ⟨g₂, hi, hpos⟩ := (hf a c' s' b c'' s'' (hw₁.inBounds hc)).1 h₂
    rw [hw₁.2.1] at hi hpos
    exact ⟨⟨a, c'.mode, s', w₁, c'.rest, g₁, g₂, hw₁.rest_eq⟩, hi, hpos⟩
  · rintro ⟨⟨a, m', s', w₁, w₂, g₁, g₂, hrest⟩, hi, hpos⟩
    have hw₁ : c.Passes w₁ ⟨c.input, c.pos + w₁.length, m'⟩ :=
      ⟨⟨w₂, hrest.symm⟩, rfl, rfl⟩
    have hw₂ : (⟨c.input, c.pos + w₁.length, m'⟩ : Cursor τ μ).rest = w₂ := by
      have h := hw₁.rest_eq
      rw [hrest] at h
      exact (List.append_cancel_left h).symm
    exact ⟨a, _, (hp c s a _ s' hc).2 ⟨w₁, hw₁, g₁⟩,
      (hf a _ s' b c'' s'' (hw₁.inBounds hc)).2 ⟨by rw [hw₂]; exact g₂, hi, hpos⟩⟩

/-- What follows the end of the input reads the empty word. -/
theorem bind_atEnd {p : Parser τ μ σ ε α} {f : α → Parser τ μ σ ε β} {G : Grammar τ μ σ α}
    {H : α → Grammar τ μ σ β} (hp : ReadsAll p G) (hf : ∀ a, Reads (f a) (H a)) :
    ReadsAll (p >>= f) (fun m s w b m'' s'' =>
      ∃ a m' s', G m s w a m' s' ∧ H a m' s' [] b m'' s'') := by
  intro c s b c'' s'' hc
  rw [bind_run_eq_ok]
  constructor
  · rintro ⟨a, ⟨c', s'⟩, h₁, h₂⟩
    obtain ⟨g₁, hi, hpos⟩ := (hp c s a c' s' hc).1 h₁
    have hc' : c'.InBounds := by simp only [Cursor.InBounds, hi, hpos, Nat.le_refl]
    obtain ⟨w, ⟨hw, hi', hpos'⟩, g₂⟩ := (hf a c' s' b c'' s'' hc').1 h₂
    have hw' : w = [] := by
      have hlen := hw.length_le
      rw [Cursor.rest, List.length_drop, hi, hpos] at hlen
      exact List.length_eq_zero_iff.1 (by omega)
    subst hw'
    exact ⟨⟨a, c'.mode, s', g₁, g₂⟩, hi'.trans hi, hpos'.trans hpos⟩
  · rintro ⟨⟨a, m', s', g₁, g₂⟩, hi, hpos⟩
    refine ⟨a, (⟨c.input, c.input.length, m'⟩, s'), (hp c s a _ s' hc).2 ⟨g₁, rfl, rfl⟩, ?_⟩
    exact (hf a _ s' b c'' s'' (Nat.le_refl _)).2 ⟨[], Cursor.passes_nil.2 ⟨hi, hpos⟩, g₂⟩

end ReadsAll

/-! ### How a parser fails -/

/-- **Every failure of `p` is one of `E`.** -/
def FailsWith (E : ε → Prop) (p : Parser τ μ σ ε α) : Prop :=
  ∀ st e st', p.run st = .error e st' → E e

namespace FailsWith

variable {E : ε → Prop}

/-- A parser that cannot fail. -/
theorem never {p : Parser τ μ σ ε α} (h : ∀ st, ∃ a st', p.run st = .ok a st') :
    FailsWith E p := by
  intro st e st' hrun
  obtain ⟨a, st'', hok⟩ := h st
  rw [hok] at hrun
  cases hrun

theorem pure (a : α) : FailsWith E (Pure.pure a : Parser τ μ σ ε α) := never fun _ => ⟨_, _, rfl⟩

theorem mode : FailsWith E (Lib.mode : Parser τ μ σ ε μ) := never fun _ => ⟨_, _, rfl⟩

theorem setMode (m : μ) : FailsWith E (Lib.setMode m : Parser τ μ σ ε Unit) :=
  never fun _ => ⟨_, _, rfl⟩

theorem modifyOut (f : σ → σ) : FailsWith E (Lib.modifyOut f : Parser τ μ σ ε Unit) :=
  never fun _ => ⟨_, _, rfl⟩

theorem getOut : FailsWith E (Lib.getOut : Parser τ μ σ ε σ) := never fun _ => ⟨_, _, rfl⟩

theorem cursor : FailsWith E (Lib.cursor : Parser τ μ σ ε (Cursor τ μ)) :=
  never fun _ => ⟨_, _, rfl⟩

theorem fail {e : ε} (h : E e) : FailsWith E (Lib.fail e : Parser τ μ σ ε α) := by
  intro st e' st' hrun
  cases hrun
  exact h

theorem refuseIf {b : Prop} [Decidable b] {e : ε} (h : E e) :
    FailsWith E (Lib.refuseIf b e : Parser τ μ σ ε Unit) := by
  unfold Lib.refuseIf
  by_cases hb : b
  · rw [if_pos hb]
    exact fail h
  · rw [if_neg hb]
    exact pure ()

theorem ite {b : Prop} [Decidable b] {p q : Parser τ μ σ ε α} (hp : FailsWith E p)
    (hq : FailsWith E q) : FailsWith E (if b then p else q) := by
  by_cases hb : b
  · rw [if_pos hb]
    exact hp
  · rw [if_neg hb]
    exact hq

theorem bind {p : Parser τ μ σ ε α} {f : α → Parser τ μ σ ε β} (hp : FailsWith E p)
    (hf : ∀ a, FailsWith E (f a)) : FailsWith E (p >>= f) := by
  intro st e st' hrun
  change EStateM.bind p f st = _ at hrun
  unfold EStateM.bind at hrun
  cases hfirst : p st with
  | ok a st₁ =>
    rw [hfirst] at hrun
    exact hf a st₁ e st' hrun
  | error e₁ st₁ =>
    rw [hfirst] at hrun
    cases hrun
    exact hp st e st' hfirst

theorem zoom {look : σ → ρ} {put : ρ → σ → σ} {p : Parser τ μ ρ ε α} (hp : FailsWith E p) :
    FailsWith E (Lib.zoom look put p) := by
  intro st e st' hrun
  change Lib.zoom look put p st = _ at hrun
  unfold Lib.zoom at hrun
  cases hpart : p.run (st.1, look st.2) with
  | ok a st₁ =>
    rw [hpart] at hrun
    cases hrun
  | error e₁ st₁ =>
    rw [hpart] at hrun
    cases hrun
    exact hp _ e st₁ hpart

theorem forRange {body : Nat → Parser τ μ σ ε Unit} (h : ∀ i, FailsWith E (body i)) :
    ∀ n i, FailsWith E (Lib.forRange body i n) := by
  intro n
  induction n with
  | zero => intro i; exact pure ()
  | succ n ih => intro i; exact (h i).bind fun _ => ih (i + 1)

theorem expectEnd {e : Cursor τ μ → ε} (h : ∀ c, E (e c)) :
    FailsWith E (Lib.expectEnd e : Parser τ μ σ ε Unit) :=
  cursor.bind fun c => refuseIf (h c)

end FailsWith

/-! ### What a parser leaves behind -/

/-- The state a run stops in, whether it succeeds or fails. -/
def stopped {δ : Type} : EStateM.Result ε δ α → δ
  | .ok _ st => st
  | .error _ st => st

/-- **However `p` ends, the outputs before and after stand in `R`.** -/
def Leaves (R : σ → σ → Prop) (p : Parser τ μ σ ε α) : Prop :=
  ∀ st, R st.2 (stopped (p.run st)).2

namespace Leaves

variable {R : σ → σ → Prop}

/-- A parser that does not write. -/
theorem same (hrefl : ∀ s, R s s) {p : Parser τ μ σ ε α}
    (h : ∀ st, (stopped (p.run st)).2 = st.2) : Leaves R p := by
  intro st
  rw [h st]
  exact hrefl _

theorem modifyOut {f : σ → σ} (h : ∀ s, R s (f s)) :
    Leaves R (Lib.modifyOut f : Parser τ μ σ ε Unit) := fun st => h st.2

theorem refuseIf (hrefl : ∀ s, R s s) (b : Prop) [Decidable b] (e : ε) :
    Leaves R (Lib.refuseIf b e : Parser τ μ σ ε Unit) := by
  refine same hrefl fun st => ?_
  unfold Lib.refuseIf
  by_cases hb : b
  · rw [if_pos hb]
    rfl
  · rw [if_neg hb]
    rfl

theorem ite {b : Prop} [Decidable b] {p q : Parser τ μ σ ε α} (hp : Leaves R p)
    (hq : Leaves R q) : Leaves R (if b then p else q) := by
  by_cases hb : b
  · rw [if_pos hb]
    exact hp
  · rw [if_neg hb]
    exact hq

theorem bind (htrans : ∀ s s' s'', R s s' → R s' s'' → R s s'') {p : Parser τ μ σ ε α}
    {f : α → Parser τ μ σ ε β} (hp : Leaves R p) (hf : ∀ a, Leaves R (f a)) :
    Leaves R (p >>= f) := by
  intro st
  have hfirst := hp st
  change R st.2 (stopped (EStateM.bind p f st)).2
  unfold EStateM.bind
  cases hrun : p st with
  | ok a st' =>
    have hst' : stopped (p.run st) = st' := by rw [EStateM.run, hrun]; rfl
    rw [hst'] at hfirst
    exact htrans _ _ _ hfirst (hf a st')
  | error e st' =>
    have hst' : stopped (p.run st) = st' := by rw [EStateM.run, hrun]; rfl
    rw [hst'] at hfirst
    exact hfirst

/-- A parser on a part of the output, where what the part does carries over to the whole. -/
theorem zoom {Q : ρ → ρ → Prop} {look : σ → ρ} {put : ρ → σ → σ} {p : Parser τ μ ρ ε α}
    (hput : ∀ s r, Q (look s) r → R s (put r s)) (hp : Leaves Q p) :
    Leaves R (Lib.zoom look put p) := by
  intro st
  have hpart := hp (st.1, look st.2)
  change R st.2 (stopped (Lib.zoom look put p st)).2
  unfold Lib.zoom
  cases hrun : p.run (st.1, look st.2) with
  | ok a st' =>
    rw [hrun] at hpart
    exact hput st.2 st'.2 hpart
  | error e st' =>
    rw [hrun] at hpart
    exact hput st.2 st'.2 hpart

/-- A loop whose every turn stands in `R`. -/
theorem forRange (hrefl : ∀ s, R s s) (htrans : ∀ s s' s'', R s s' → R s' s'' → R s s'')
    {body : Nat → Parser τ μ σ ε Unit} (h : ∀ i, Leaves R (body i)) :
    ∀ n i, Leaves R (Lib.forRange body i n) := by
  intro n
  induction n with
  | zero => intro i st; exact hrefl _
  | succ n ih => intro i; exact bind htrans (h i) fun _ => ih (i + 1)

theorem expectEnd (hrefl : ∀ s, R s s) (e : Cursor τ μ → ε) :
    Leaves R (Lib.expectEnd e : Parser τ μ σ ε Unit) := by
  refine same hrefl fun st => ?_
  change (stopped ((Lib.refuseIf (st.1.pos ≠ st.1.input.length) (e st.1) :
    Parser τ μ σ ε Unit).run st)).2 = st.2
  unfold Lib.refuseIf
  by_cases hend : st.1.pos ≠ st.1.input.length
  · rw [if_pos hend]
    rfl
  · rw [if_neg hend]
    rfl

end Leaves

/-- **When `p` fails, the outputs before and after stand in `R`.** -/
def FailsLeaving (R : σ → σ → Prop) (p : Parser τ μ σ ε α) : Prop :=
  ∀ st e st', p.run st = .error e st' → R st.2 st'.2

namespace FailsLeaving

variable {R : σ → σ → Prop}

/-- A write cannot fail. -/
theorem modifyOut (f : σ → σ) : FailsLeaving R (Lib.modifyOut f : Parser τ μ σ ε Unit) := by
  intro st e st' hrun
  cases hrun

theorem bind (htrans : ∀ s s' s'', R s s' → R s' s'' → R s s'') {p : Parser τ μ σ ε α}
    {f : α → Parser τ μ σ ε β} (hp : Leaves R p) (hf : ∀ a, FailsLeaving R (f a)) :
    FailsLeaving R (p >>= f) := by
  intro st e st' hrun
  have hleft := hp st
  change EStateM.bind p f st = _ at hrun
  unfold EStateM.bind at hrun
  unfold EStateM.run at hleft
  cases hfirst : p st with
  | ok a st₁ =>
    rw [hfirst] at hrun hleft
    exact htrans _ _ _ hleft (hf a st₁ e st' hrun)
  | error e₁ st₁ =>
    rw [hfirst] at hrun hleft
    cases hrun
    exact hleft

end FailsLeaving

end Lib
