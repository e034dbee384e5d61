import Mathlib.Data.List.Basic

/-! # Clocks

What a call reads of a clock that never runs backwards, in nanoseconds: `ι` are the places at which
it reads.
-/

namespace Lib

/-- The readings of one call, all of them between its beginning and its end. -/
structure Clock (ι : Type) where
  begun : Nat
  ended : Nat
  reads : ι → Nat
  begun_le_ended : begun ≤ ended
  begun_le : ∀ i, begun ≤ reads i
  le_ended : ∀ i, reads i ≤ ended

namespace Clock

variable {ι : Type}

/-- All readings are the same. -/
def still (t : Nat) : Clock ι := ⟨t, t, fun _ => t, Nat.le_refl t, fun _ => Nat.le_refl t,
  fun _ => Nat.le_refl t⟩

end Clock

end Lib
