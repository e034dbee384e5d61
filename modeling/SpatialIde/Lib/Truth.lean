import Mathlib.Data.Option.Basic

/-! # Three-valued logic

A condition of SQL is true, false or unknown, and a row is selected where it is true.
A comparison with a null is unknown.

* `and_true`, `or_true`: when a conjunction and a disjunction are true;
* `all_true`, `any_true`: the same for lists of conditions;
* `compare_true`: a comparison is true of two values, never of a null.
-/

namespace Lib

/-- `none` is unknown. -/
abbrev Truth := Option Bool

namespace Truth

/-- False as soon as one side is. -/
def and : Truth → Truth → Truth
  | some false, _ => some false
  | _, some false => some false
  | some true, some true => some true
  | _, _ => none

/-- True as soon as one side is. -/
def or : Truth → Truth → Truth
  | some true, _ => some true
  | _, some true => some true
  | some false, some false => some false
  | _, _ => none

def all (cs : List Truth) : Truth := cs.foldr and (some true)

def any (cs : List Truth) : Truth := cs.foldr or (some false)

/-- A comparison of two values, either of which can be null. -/
def compare {α β : Type} (test : α → β → Bool) : Option α → Option β → Truth
  | some a, some b => some (test a b)
  | _, _ => none

@[simp] theorem and_true {p q : Truth} : and p q = some true ↔ p = some true ∧ q = some true := by
  rcases p with _ | _ | _ <;> rcases q with _ | _ | _ <;> simp [and]

@[simp] theorem or_true {p q : Truth} : or p q = some true ↔ p = some true ∨ q = some true := by
  rcases p with _ | _ | _ <;> rcases q with _ | _ | _ <;> simp [or]

theorem all_true {cs : List Truth} : all cs = some true ↔ ∀ c ∈ cs, c = some true := by
  induction cs with
  | nil => simp [all]
  | cons c cs ih =>
    have hcons : all (c :: cs) = and c (all cs) := rfl
    rw [hcons, and_true, ih, List.forall_mem_cons]

theorem any_true {cs : List Truth} : any cs = some true ↔ ∃ c ∈ cs, c = some true := by
  induction cs with
  | nil => simp [any]
  | cons c cs ih =>
    have hcons : any (c :: cs) = or c (any cs) := rfl
    rw [hcons, or_true, ih]
    simp [eq_comm]

theorem compare_true {α β : Type} {test : α → β → Bool} {a : Option α} {b : Option β} :
    compare test a b = some true ↔ ∃ x y, a = some x ∧ b = some y ∧ test x y = true := by
  cases a <;> cases b <;> simp [compare]

end Truth

end Lib
