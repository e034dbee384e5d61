import Mathlib.Algebra.GroupWithZero.Nat
import Mathlib.Algebra.BigOperators.Group.List.Basic

/-! # Cutting a sequence of items into batches

A batcher takes items one at a time and cuts what it has accumulated when a size
target or an item ceiling is reached; it may also be told to cut early.  The
target may grow with the batch index, and an item is weighed by a bound before it
is accepted and by its exact weight afterwards.

* `conserve`: the batches cut so far and the items still open are the items
  taken, in order, whatever the targets and the early cuts, and batches are
  numbered in the order they are cut;
* `load_le_target`: a batch of two or more items stays under its target.
-/

namespace Lib.Batcher

/-- What an item weighs and how much a batch may hold. -/
structure Config (α : Type) where
  /-- What an item is assumed to weigh before it is accepted. -/
  bound : α → Nat
  weight : α → Nat
  target : Nat → Nat
  maxItems : Nat

/-- What ended a batch. -/
inductive Cause where
  | size
  | ceiling
  | early
  | end_
  deriving DecidableEq, Repr

structure Batch (α : Type) where
  items : List α
  index : Nat
  target : Nat
  cause : Cause
  deriving DecidableEq, Repr

/-- The items accumulated since the last cut, and how many cuts there were. -/
structure Open (α : Type) where
  items : List α
  emitted : Nat
  deriving DecidableEq, Repr

def Open.start {α : Type} : Open α := ⟨[], 0⟩

variable {α : Type}

def Config.load (cfg : Config α) (xs : List α) : Nat := (xs.map cfg.weight).sum

@[simp] theorem Config.load_append (cfg : Config α) (xs ys : List α) :
    cfg.load (xs ++ ys) = cfg.load xs + cfg.load ys := by
  rw [load, load, load, List.map_append, List.sum_append]

@[simp] theorem Config.load_singleton (cfg : Config α) (x : α) : cfg.load [x] = cfg.weight x := by
  simp [load]

/-- Which trigger, if any, ends a batch after an item: size before ceiling before an early cut. -/
def cause? (load items target maxItems : Nat) (early : Bool) : Option Cause :=
  if target ≤ load then some .size
  else if maxItems ≤ items then some .ceiling
  else if early then some .early
  else none

/-- Cut what is open, for a cause and under a target. -/
def cut (s : Open α) (target : Nat) (cause : Cause) : List (Batch α) × Open α :=
  ([⟨s.items, s.emitted, target, cause⟩], ⟨[], s.emitted + 1⟩)

section

variable (cfg : Config α)

/-- Cut before an item that might not fit. -/
def before (s : Open α) (x : α) : List (Batch α) × Open α :=
  if s.items ≠ [] ∧ cfg.target s.emitted < cfg.load s.items + cfg.bound x then
    cut s (cfg.target s.emitted) .size
  else ([], s)

/-- Accept an item, and cut after it when a trigger says so. -/
def after (target : Nat) (early : Bool) (s : Open α) (x : α) : List (Batch α) × Open α :=
  let s' : Open α := ⟨s.items ++ [x], s.emitted⟩
  match cause? (cfg.load s'.items) s'.items.length target cfg.maxItems early with
  | some c => cut s' target c
  | none => ([], s')

/-- One item.  The target is the one in force before the item, also after a cut in front of it. -/
def push (early : Bool) (s : Open α) (x : α) : List (Batch α) × Open α :=
  let (o₁, s₁) := before cfg s x
  let (o₂, s₂) := after cfg (cfg.target s.emitted) early s₁ x
  (o₁ ++ o₂, s₂)

/-- A point at which the first batch may be cut early. -/
def boundary (early : Bool) (s : Open α) : List (Batch α) × Open α :=
  if early = true ∧ s.emitted = 0 ∧ s.items ≠ [] then cut s (cfg.target s.emitted) .early
  else ([], s)

/-- The last batch. -/
def finish (s : Open α) : List (Batch α) × Open α :=
  if s.items ≠ [] then cut s (cfg.target s.emitted) .end_ else ([], s)

end

/-- What a batcher is given. -/
inductive Op (α : Type) where
  | push (x : α) (early : Bool)
  | boundary (early : Bool)
  | finish

/-- The items of a sequence of operations. -/
def itemsOf : List (Op α) → List α
  | [] => []
  | .push x _ :: ops => x :: itemsOf ops
  | _ :: ops => itemsOf ops

@[simp] theorem itemsOf_append (ops ops' : List (Op α)) :
    itemsOf (ops ++ ops') = itemsOf ops ++ itemsOf ops' := by
  induction ops with
  | nil => rfl
  | cons op ops ih => cases op <;> simp [itemsOf, ih]

/-- The operation that takes an item. -/
theorem exists_push {x : α} {back : List α} : ∀ (ops : List (Op α)) (front : List α),
    itemsOf ops = front ++ x :: back →
    ∃ ops₁ early ops₂, ops = ops₁ ++ .push x early :: ops₂ ∧ itemsOf ops₁ = front := by
  intro ops
  induction ops with
  | nil => intro front h; cases front <;> cases h
  | cons op ops ih =>
    intro front h
    cases op with
    | push y early =>
      cases front with
      | nil =>
        obtain ⟨rfl, -⟩ := List.cons.inj h
        exact ⟨[], early, ops, rfl, rfl⟩
      | cons z front =>
        obtain ⟨rfl, hrest⟩ := List.cons.inj h
        obtain ⟨ops₁, early', ops₂, rfl, rfl⟩ := ih front hrest
        exact ⟨.push y early :: ops₁, early', ops₂, rfl, rfl⟩
    | boundary early =>
      obtain ⟨ops₁, early', ops₂, rfl, rfl⟩ := ih front h
      exact ⟨.boundary early :: ops₁, early', ops₂, rfl, rfl⟩
    | finish =>
      obtain ⟨ops₁, early', ops₂, rfl, rfl⟩ := ih front h
      exact ⟨.finish :: ops₁, early', ops₂, rfl, rfl⟩

section

variable (cfg : Config α)

def step (s : Open α) : Op α → List (Batch α) × Open α
  | .push x early => push cfg early s x
  | .boundary early => boundary cfg early s
  | .finish => finish cfg s

def run (s : Open α) : List (Op α) → List (Batch α) × Open α
  | [] => ([], s)
  | op :: ops =>
    let (o, s') := step cfg s op
    let (os, s'') := run s' ops
    (o ++ os, s'')

theorem run_cons (s : Open α) (op : Op α) (ops : List (Op α)) :
    run cfg s (op :: ops) = ((step cfg s op).1 ++ (run cfg (step cfg s op).2 ops).1,
      (run cfg (step cfg s op).2 ops).2) := rfl

/-! ### What one operation does -/

/-- **One operation**: it cuts batches that are not empty, numbered from the count on, and no item
is lost, moved or repeated. -/
structure Conserves (s : Open α) (xs : List α) (o : List (Batch α)) (s' : Open α) : Prop where
  items : (o.map Batch.items).flatten ++ s'.items = s.items ++ xs
  ne_nil : ∀ b ∈ o, b.items ≠ []
  index : o.map Batch.index = List.range' s.emitted o.length
  emitted : s'.emitted = s.emitted + o.length

namespace Conserves

theorem refl (s : Open α) : Conserves s [] [] s := ⟨by simp, by simp, rfl, rfl⟩

theorem trans {s s' s'' : Open α} {xs ys : List α} {o o' : List (Batch α)}
    (h : Conserves s xs o s') (h' : Conserves s' ys o' s'') :
    Conserves s (xs ++ ys) (o ++ o') s'' := by
  refine ⟨?_, ?_, ?_, ?_⟩
  · rw [List.map_append, List.flatten_append, List.append_assoc, h'.items, ← List.append_assoc,
      h.items, List.append_assoc]
  · intro b hb
    rcases List.mem_append.1 hb with hb | hb
    · exact h.ne_nil b hb
    · exact h'.ne_nil b hb
  · rw [List.map_append, h.index, h'.index, h.emitted, List.length_append, List.range'_append_1]
  · rw [h'.emitted, h.emitted, List.length_append, Nat.add_assoc]

/-- An item taken without a cut. -/
theorem take (s : Open α) (x : α) : Conserves s [x] [] ⟨s.items ++ [x], s.emitted⟩ :=
  ⟨by simp, by simp, rfl, rfl⟩

theorem cut {s : Open α} (hs : s.items ≠ []) (target : Nat) (cause : Cause) :
    Conserves s [] (cut s target cause).1 (cut s target cause).2 :=
  ⟨by simp [Batcher.cut], by simpa [Batcher.cut] using hs, rfl, rfl⟩

end Conserves

theorem before_conserves (s : Open α) (x : α) :
    Conserves s [] (before cfg s x).1 (before cfg s x).2 := by
  by_cases h : s.items ≠ [] ∧ cfg.target s.emitted < cfg.load s.items + cfg.bound x
  · rw [before, if_pos h]
    exact .cut h.1 _ _
  · rw [before, if_neg h]
    exact .refl s

theorem after_conserves (target : Nat) (early : Bool) (s : Open α) (x : α) :
    Conserves s [x] (after cfg target early s x).1 (after cfg target early s x).2 := by
  simp only [after]
  cases cause? (cfg.load (s.items ++ [x])) (s.items ++ [x]).length target cfg.maxItems early with
  | none => exact .take s x
  | some c => exact (Conserves.take s x).trans (.cut (by simp) target c)

theorem push_conserves (early : Bool) (s : Open α) (x : α) :
    Conserves s [x] (push cfg early s x).1 (push cfg early s x).2 :=
  (before_conserves cfg s x).trans (after_conserves cfg _ early _ x)

theorem boundary_conserves (early : Bool) (s : Open α) :
    Conserves s [] (boundary cfg early s).1 (boundary cfg early s).2 := by
  by_cases h : early = true ∧ s.emitted = 0 ∧ s.items ≠ []
  · rw [boundary, if_pos h]
    exact .cut h.2.2 _ _
  · rw [boundary, if_neg h]
    exact .refl s

theorem finish_conserves (s : Open α) :
    Conserves s [] (finish cfg s).1 (finish cfg s).2 := by
  by_cases h : s.items ≠ []
  · rw [finish, if_pos h]
    exact .cut h _ _
  · rw [finish, if_neg h]
    exact .refl s

theorem finish_items (s : Open α) : (finish cfg s).2.items = [] := by
  by_cases h : s.items = []
  · rw [finish, if_neg (not_not.2 h), h]
  · rw [finish, if_pos h, cut]

/-- Nothing is open where a run ends with `finish`. -/
theorem run_finish_items (ops : List (Op α)) (s : Open α) :
    (run cfg s (ops ++ [.finish])).2.items = [] := by
  induction ops generalizing s with
  | nil => exact finish_items cfg s
  | cons op ops ih => exact ih (step cfg s op).2

/-- **Every run conserves its items.** -/
theorem conserve : ∀ (ops : List (Op α)) (s : Open α),
    Conserves s (itemsOf ops) (run cfg s ops).1 (run cfg s ops).2 := by
  intro ops
  induction ops with
  | nil => intro s; exact .refl s
  | cons op ops ih =>
    intro s
    rw [run_cons]
    cases op with
    | push x early => exact (push_conserves cfg early s x).trans (ih _)
    | boundary early => exact (boundary_conserves cfg early s).trans (ih _)
    | finish => exact (finish_conserves cfg s).trans (ih _)

/-! ### Targets -/

/-- What is open while two or more items are open: it is under the target in force. -/
def Within (s : Open α) : Prop := 2 ≤ s.items.length → cfg.load s.items ≤ cfg.target s.emitted

/-- A batch of two or more items is under the target of its index. -/
def Bounded (b : Batch α) : Prop := 2 ≤ b.items.length →
  cfg.load b.items ≤ cfg.target b.index ∧ b.target = cfg.target b.index

theorem cut_bounded {s : Open α} (hs : Within cfg s) (cause : Cause) :
    (∀ b ∈ (cut s (cfg.target s.emitted) cause).1, Bounded cfg b) ∧
      Within cfg (cut s (cfg.target s.emitted) cause).2 := by
  refine ⟨?_, ?_⟩
  · intro b hb
    rw [List.mem_singleton.1 hb]
    exact fun h => ⟨hs h, rfl⟩
  · intro h
    simp [cut] at h

/-- **An item never carries a batch that holds others past its target.** -/
theorem push_bounded (hw : ∀ x, cfg.weight x ≤ cfg.bound x) {s : Open α} (hs : Within cfg s)
    (early : Bool) (x : α) :
    (∀ b ∈ (push cfg early s x).1, Bounded cfg b) ∧ Within cfg (push cfg early s x).2 := by
  -- After a cut in front of the item the old target stays in force, but the item is then alone.
  have hafter : ∀ s₁ : Open α, (s₁.items = [] ∨ (s₁ = s ∧
      cfg.load s.items + cfg.bound x ≤ cfg.target s.emitted)) →
      (∀ b ∈ (after cfg (cfg.target s.emitted) early s₁ x).1, Bounded cfg b) ∧
        Within cfg (after cfg (cfg.target s.emitted) early s₁ x).2 := by
    intro s₁ hs₁
    have hopen : 2 ≤ (s₁.items ++ [x]).length →
        cfg.load (s₁.items ++ [x]) ≤ cfg.target s₁.emitted ∧
          cfg.target s.emitted = cfg.target s₁.emitted := by
      intro hlen
      rcases hs₁ with hnil | ⟨rfl, hfit⟩
      · simp [hnil] at hlen
      · have := hw x
        rw [Config.load_append, Config.load_singleton]
        exact ⟨by omega, rfl⟩
    simp only [after]
    cases cause? (cfg.load (s₁.items ++ [x])) (s₁.items ++ [x]).length (cfg.target s.emitted)
        cfg.maxItems early with
    | none => exact ⟨by simp, fun h => (hopen h).1⟩
    | some c =>
      refine ⟨?_, fun h => by simp [cut] at h⟩
      intro b hb
      rw [List.mem_singleton.1 hb]
      exact hopen
  simp only [push]
  by_cases h : s.items ≠ [] ∧ cfg.target s.emitted < cfg.load s.items + cfg.bound x
  · obtain ⟨hcut, -⟩ := cut_bounded cfg hs .size
    obtain ⟨hb, hwithin⟩ := hafter ⟨[], s.emitted + 1⟩ (.inl rfl)
    rw [before, if_pos h]
    refine ⟨?_, hwithin⟩
    intro b hmem
    rcases List.mem_append.1 hmem with hmem | hmem
    · exact hcut b hmem
    · exact hb b hmem
  · rw [before, if_neg h]
    by_cases hnil : s.items = []
    · exact hafter s (.inl hnil)
    · exact hafter s (.inr ⟨rfl, by
        by_contra hlt
        exact h ⟨hnil, by omega⟩⟩)

theorem step_bounded (hw : ∀ x, cfg.weight x ≤ cfg.bound x) {s : Open α} (hs : Within cfg s)
    (op : Op α) : (∀ b ∈ (step cfg s op).1, Bounded cfg b) ∧ Within cfg (step cfg s op).2 := by
  cases op with
  | push x early => exact push_bounded cfg hw hs early x
  | boundary early =>
    simp only [step, boundary]
    by_cases h : early = true ∧ s.emitted = 0 ∧ s.items ≠ []
    · rw [if_pos h]
      exact cut_bounded cfg hs .early
    · rw [if_neg h]
      exact ⟨by simp, hs⟩
  | finish =>
    simp only [step, finish]
    by_cases h : s.items ≠ []
    · rw [if_pos h]
      exact cut_bounded cfg hs .end_
    · rw [if_neg h]
      exact ⟨by simp, hs⟩

/-- **Every batch of two or more items is under its target**, whatever the early cuts. -/
theorem load_le_target (hw : ∀ x, cfg.weight x ≤ cfg.bound x) : ∀ (ops : List (Op α))
    (s : Open α), Within cfg s →
    (∀ b ∈ (run cfg s ops).1, Bounded cfg b) ∧ Within cfg (run cfg s ops).2 := by
  intro ops
  induction ops with
  | nil => intro s hs; exact ⟨by simp [run], hs⟩
  | cons op ops ih =>
    intro s hs
    obtain ⟨hstep, hs'⟩ := step_bounded cfg hw hs op
    obtain ⟨hrest, hs''⟩ := ih _ hs'
    rw [run_cons]
    refine ⟨?_, hs''⟩
    intro b hb
    rcases List.mem_append.1 hb with hb | hb
    · exact hstep b hb
    · exact hrest b hb

end

end Lib.Batcher
