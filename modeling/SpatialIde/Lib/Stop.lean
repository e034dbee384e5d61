import SpatialIde.Lib.Except

/-! # Steps that stop

A step is refused with an error, or it panics.  Both are errors of `Except`, so that its rules hold of
panics too; where a panic is caught, the errors are mapped, step by step or all at once
(`mapError_bind`, `mapError_mapM`, `mapError_foldlM`).
-/

namespace Lib

variable {ε ε' α β : Type}

/-- Why a step stops. -/
inductive Stop (ε : Type) where
  | panic
  | refused (e : ε)
  deriving DecidableEq, Repr

namespace Stop

def map (f : ε → ε') : Stop ε → Stop ε'
  | panic => panic
  | refused e => refused (f e)

/-- A panic is caught, and an error put in its place. -/
def caught (e : ε) : Stop ε → Stop ε
  | panic => refused e
  | refused e' => refused e'

theorem map_eq_panic {f : ε → ε'} {e : Stop ε} : e.map f = panic ↔ e = panic := by
  cases e <;> simp [map]

end Stop

theorem mapError_eq_ok {f : ε → ε'} {x : Except ε α} {a : α} : x.mapError f = .ok a ↔ x = .ok a := by
  cases x <;> simp [Except.mapError]

theorem map_eq_error {f : α → β} {x : Except ε α} {e : ε} : x.map f = .error e ↔ x = .error e := by
  cases x <;> simp [Except.map]

theorem mapError_bind (f : ε → ε') (x : Except ε α) (g : α → Except ε β) :
    (x >>= g).mapError f = x.mapError f >>= fun a => (g a).mapError f := by
  cases x <;> rfl

theorem mapError_map (f : ε → ε') (g : α → β) (x : Except ε α) :
    (x.map g).mapError f = (x.mapError f).map g := by
  cases x <;> rfl

theorem mapError_mapM (f : ε → ε') (g : α → Except ε β) (xs : List α) :
    (xs.mapM g).mapError f = xs.mapM fun x => (g x).mapError f := by
  induction xs with
  | nil => rfl
  | cons x xs ih =>
    rw [List.mapM_cons, List.mapM_cons, ← ih]
    cases g x with
    | error e => rfl
    | ok y => cases xs.mapM g <;> rfl

theorem mapError_foldlM (f : ε → ε') (g : β → α → Except ε β) (xs : List α) :
    ∀ b, (xs.foldlM g b).mapError f = xs.foldlM (fun b x => (g b x).mapError f) b := by
  induction xs with
  | nil => exact fun b => rfl
  | cons x xs ih =>
    intro b
    rw [List.foldlM_cons, List.foldlM_cons, mapError_bind]
    exact bind_congr ih

/-! ### What does not panic -/

/-- A step that does not panic. -/
def raised (x : Except ε α) : Except (Stop ε) α := x.mapError Stop.refused

theorem raised_eq_ok {x : Except ε α} {a : α} : raised x = .ok a ↔ x = .ok a := mapError_eq_ok

theorem raised_ne_panic (x : Except ε α) : raised x ≠ .error .panic := by
  intro h
  cases x <;> cases h

theorem raised_caught (e : ε) (x : Except ε α) : (raised x).mapError (Stop.caught e) = raised x := by
  cases x <;> rfl

theorem caught_ne_panic (e : ε) (x : Except (Stop ε) α) :
    x.mapError (Stop.caught e) ≠ .error .panic := by
  intro h
  obtain (_ | e') | a := x <;> cases h

theorem caught_eq_self {e : ε} {x : Except (Stop ε) α} (h : x ≠ .error .panic) :
    x.mapError (Stop.caught e) = x := by
  obtain (_ | e') | a := x
  · exact absurd rfl h
  · rfl
  · rfl

end Lib
