import SpatialIde.Lib.Binary64

/-! # Least and greatest of a list of doubles

`f64::min` and `f64::max` pass over a NaN.  Both are `leastBy` a measure, the key and its negative, so
that what a fold of one of them finds is said once (`LeastOf`).
-/

namespace Lib.F64

/-- The one of less measure, of equal ones the first; a NaN only where both are. -/
def leastBy (f : F64 → Int) (x y : F64) : F64 :=
  if x.isNaN then y else if y.isNaN then x else if f y < f x then y else x

/-- `f64::min`, which may return either of two zeros. -/
def min : F64 → F64 → F64 := leastBy key

/-- `f64::max`. -/
def max : F64 → F64 → F64 := leastBy fun x => -x.key

def isInfinite (x : F64) : Bool := decide (x.magnitude = infMagnitude)

/-- A measure that tells as much of the size as the key does. -/
def Measures (f : F64 → Int) : Prop := ∀ x, (f x).natAbs = x.key.natAbs

theorem measures_key : Measures key := fun _ => rfl

theorem measures_neg_key : Measures fun x => -x.key := fun _ => Int.natAbs_neg _

theorem natAbs_key (x : F64) : x.key.natAbs = x.magnitude := by
  rw [key]
  split_ifs
  · rw [Int.natAbs_neg, Int.natAbs_natCast]
  · rw [Int.natAbs_natCast]

section

variable {f : F64 → Int}

theorem Measures.isNaN (hf : Measures f) (x : F64) :
    x.isNaN = false ↔ (f x).natAbs ≤ infMagnitude := by
  rw [hf, natAbs_key, F64.isNaN, decide_eq_false_iff_not, Nat.not_lt]

theorem Measures.isFinite (hf : Measures f) (x : F64) :
    x.isFinite = true ↔ (f x).natAbs < infMagnitude := by
  rw [hf, natAbs_key, F64.isFinite, decide_eq_true_iff]

theorem Measures.isInfinite (hf : Measures f) (x : F64) :
    x.isInfinite = true ↔ (f x).natAbs = infMagnitude := by
  rw [hf, natAbs_key, F64.isInfinite, decide_eq_true_iff]

theorem isFinite_of_isInfinite {x : F64} (hnan : x.isNaN = false) (hinf : x.isInfinite = false) :
    x.isFinite = true := by
  rw [measures_key.isFinite]
  rw [measures_key.isNaN] at hnan
  rw [Bool.eq_false_iff, ne_eq, measures_key.isInfinite] at hinf
  omega

theorem leastBy_cases (f : F64 → Int) (x y : F64) : leastBy f x y = x ∨ leastBy f x y = y := by
  rw [leastBy]
  split_ifs <;> simp

theorem leastBy_of_not_nan {x y : F64} (hx : x.isNaN = false) :
    (leastBy f x y).isNaN = false ∧ f (leastBy f x y) ≤ f x ∧
      (y.isNaN = false → f (leastBy f x y) ≤ f y) := by
  rw [leastBy, if_neg (by simp [hx])]
  split_ifs with hy hlt
  · exact ⟨hx, Int.le_refl _, fun h => absurd h (by simp [hy])⟩
  · exact ⟨by simpa using hy, Int.le_of_lt hlt, fun _ => Int.le_refl _⟩
  · exact ⟨hx, Int.le_refl _, fun _ => by omega⟩

/-- What a fold finds: a value it met, or where it began, and none that is not a NaN measures less. -/
theorem foldl_leastBy (xs : List F64) : ∀ {s : F64}, s.isNaN = false →
    (xs.foldl (leastBy f) s).isNaN = false ∧ f (xs.foldl (leastBy f) s) ≤ f s ∧
      (∀ x ∈ xs, x.isNaN = false → f (xs.foldl (leastBy f) s) ≤ f x) ∧
      (xs.foldl (leastBy f) s = s ∨ xs.foldl (leastBy f) s ∈ xs) := by
  induction xs with
  | nil => exact fun hs => ⟨hs, Int.le_refl _, nofun, .inl rfl⟩
  | cons x xs ih =>
    intro s hs
    obtain ⟨hnan, hle, hlex⟩ := @leastBy_of_not_nan f s x hs
    obtain ⟨hres, hres_le, hall, hmem⟩ := ih hnan
    refine ⟨hres, Int.le_trans hres_le hle, fun y hy hynan => ?_, ?_⟩
    · rcases List.mem_cons.1 hy with rfl | hy
      · exact Int.le_trans hres_le (hlex hynan)
      · exact hall y hy hynan
    · rcases hmem with hmem | hmem
      · rcases leastBy_cases f s x with hcase | hcase
        · exact .inl (hmem.trans hcase)
        · exact .inr (List.mem_cons.2 (.inl (hmem.trans hcase)))
      · exact .inr (List.mem_cons_of_mem _ hmem)

/-- The finite one of least measure, NaNs passed over. -/
structure LeastOf (f : F64 → Int) (xs : List F64) (m : F64) : Prop where
  mem : m ∈ xs
  finite : m.isFinite = true
  le : ∀ x ∈ xs, x.isNaN = false → f m ≤ f x

/-- A fold from the infinity that measures most finds a finite value just where no value measures
infinitely little and some value is finite. -/
theorem leastOf_foldl (hf : Measures f) {s : F64} (hs : f s = infMagnitude) {xs : List F64}
    (h : (xs.foldl (leastBy f) s).isFinite = true) : LeastOf f xs (xs.foldl (leastBy f) s) := by
  have hnan : s.isNaN = false := by
    rw [hf.isNaN, hs]
    exact Nat.le_refl _
  obtain ⟨-, -, hall, hmem⟩ := foldl_leastBy xs hnan
  refine ⟨?_, h, hall⟩
  rcases hmem with hmem | hmem
  · rw [hmem, hf.isFinite, hs] at h
    exact absurd h (Nat.lt_irrefl _)
  · exact hmem

theorem isFinite_foldl (hf : Measures f) {s : F64} (hs : f s = infMagnitude) {xs : List F64}
    (hsome : ∃ x ∈ xs, x.isNaN = false) (hinf : ∀ x ∈ xs, x.isInfinite = false) :
    (xs.foldl (leastBy f) s).isFinite = true := by
  have hnan : s.isNaN = false := by
    rw [hf.isNaN, hs]
    exact Nat.le_refl _
  obtain ⟨hres, -, hall, hmem⟩ := foldl_leastBy xs hnan
  obtain ⟨x, hx, hxnan⟩ := hsome
  have hxfin := isFinite_of_isInfinite hxnan (hinf x hx)
  have hle := hall x hx hxnan
  refine isFinite_of_isInfinite hres ?_
  rcases hmem with hmem | hmem
  · rw [hmem, hs] at hle
    rw [hf.isFinite] at hxfin
    omega
  · exact hinf _ hmem

/-- The least of two runs is the less of the two. -/
theorem LeastOf.append {xs ys : List F64} {m n : F64} (hm : LeastOf f xs m) (hn : LeastOf f ys n) :
    LeastOf f (xs ++ ys) (leastBy f m n) := by
  have hmnan := isNaN_eq_false_of_isFinite hm.finite
  have hnnan := isNaN_eq_false_of_isFinite hn.finite
  obtain ⟨-, hlem, hlen⟩ := @leastBy_of_not_nan f m n hmnan
  refine ⟨?_, ?_, fun x hx hxnan => ?_⟩
  · rcases leastBy_cases f m n with h | h <;> rw [h]
    · exact List.mem_append_left _ hm.mem
    · exact List.mem_append_right _ hn.mem
  · rcases leastBy_cases f m n with h | h <;> rw [h]
    · exact hm.finite
    · exact hn.finite
  · rcases List.mem_append.1 hx with hx | hx
    · exact Int.le_trans hlem (hm.le x hx hxnan)
    · exact Int.le_trans (hlen hnnan) (hn.le x hx hxnan)

end

/-! ### The value found -/

/-- The same value for a measure, or both NaN. -/
def Alike (f : F64 → Int) (x y : F64) : Prop :=
  x.isNaN = true ∧ y.isNaN = true ∨ x.isNaN = false ∧ y.isNaN = false ∧ f x = f y

/-- The value of a least one, NaNs passed over as long as there is a number. -/
def Extreme (f : F64 → Int) (xs : List F64) (m : F64) : Prop :=
  (∃ x ∈ xs, Alike f x m) ∧ ∀ x ∈ xs, x.isNaN = false → m.isNaN = false ∧ f m ≤ f x

/-- Some values go at least as low as others. -/
def Reaches (f : F64 → Int) (xs ys : List F64) : Prop :=
  ∀ y ∈ ys, y.isNaN = false → ∃ x ∈ xs, x.isNaN = false ∧ f x ≤ f y

theorem Alike.refl (f : F64 → Int) (x : F64) : Alike f x x := by
  cases h : x.isNaN with
  | true => exact .inl ⟨h, h⟩
  | false => exact .inr ⟨h, h, rfl⟩

theorem extreme_singleton (f : F64 → Int) (x : F64) : Extreme f [x] x := by
  refine ⟨⟨x, List.mem_singleton_self x, Alike.refl f x⟩, fun y hy hnan => ?_⟩
  obtain rfl := List.mem_singleton.1 hy
  exact ⟨hnan, Int.le_refl _⟩

/-- One more value is compared with the least so far. -/
theorem Extreme.snoc {f : F64 → Int} {xs : List F64} {m : F64} (h : Extreme f xs m) (y : F64) :
    Extreme f (xs ++ [y]) (leastBy f m y) := by
  obtain ⟨⟨x, hx, halike⟩, hle⟩ := h
  cases hm : m.isNaN with
  | true =>
    have hleast : leastBy f m y = y := by rw [leastBy, if_pos hm]
    rw [hleast]
    refine ⟨⟨y, by simp, Alike.refl f y⟩, fun z hz hnan => ?_⟩
    obtain hz | hz := List.mem_append.1 hz
    · rw [(hle z hz hnan).1] at hm
      cases hm
    · obtain rfl := List.mem_singleton.1 hz
      exact ⟨hnan, Int.le_refl _⟩
  | false =>
    obtain ⟨hnan, hlem, hley⟩ := @leastBy_of_not_nan f m y hm
    refine ⟨?_, fun z hz hz' => ⟨hnan, ?_⟩⟩
    · obtain hcase | hcase := leastBy_cases f m y <;> rw [hcase]
      · exact ⟨x, by simp [hx], halike⟩
      · exact ⟨y, by simp, Alike.refl f y⟩
    · obtain hz | hz := List.mem_append.1 hz
      · exact Int.le_trans hlem (hle z hz hz').2
      · obtain rfl := List.mem_singleton.1 hz
        exact hley hz'

theorem Extreme.foldl {f : F64 → Int} (ys : List F64) : ∀ {xs : List F64} {m : F64},
    Extreme f xs m → Extreme f (xs ++ ys) (ys.foldl (leastBy f) m) := by
  induction ys with
  | nil =>
    intro xs m h
    rw [List.append_nil]
    exact h
  | cons y ys ih =>
    intro xs m h
    have hstep := ih (h.snoc y)
    rw [List.append_assoc] at hstep
    exact hstep

/-- The least value of some values is that of others where neither go lower. -/
theorem Extreme.iff_reaches {f : F64 → Int} {xs ys : List F64} {m : F64} (h : Extreme f xs m) :
    Extreme f ys m ↔ ys ≠ [] ∧ Reaches f ys xs ∧ Reaches f xs ys := by
  have hreach : ∀ {us vs : List F64}, Extreme f us m → Extreme f vs m → Reaches f us vs := by
    rintro us vs ⟨⟨u, hu, halike⟩, -⟩ ⟨-, hle⟩ v hv hnan
    obtain ⟨hm, hmv⟩ := hle v hv hnan
    obtain ⟨-, hm'⟩ | ⟨hu', -, heq⟩ := halike
    · rw [hm] at hm'
      cases hm'
    · exact ⟨u, hu, hu', by omega⟩
  constructor
  · intro h'
    refine ⟨?_, hreach h' h, hreach h h'⟩
    rintro rfl
    obtain ⟨⟨y, hy, -⟩, -⟩ := h'
    cases hy
  · rintro ⟨hne, hys, hxs⟩
    obtain ⟨⟨x, hx, halike⟩, hle⟩ := h
    have hlow : ∀ y ∈ ys, y.isNaN = false → m.isNaN = false ∧ f m ≤ f y := by
      intro y hy hnan
      obtain ⟨x', hx', hx'nan, hxy⟩ := hxs y hy hnan
      obtain ⟨hm, hmx⟩ := hle x' hx' hx'nan
      exact ⟨hm, Int.le_trans hmx hxy⟩
    refine ⟨?_, hlow⟩
    obtain ⟨-, hm⟩ | ⟨hxnan, hm, heq⟩ := halike
    · obtain ⟨y, hy⟩ := List.exists_mem_of_ne_nil ys hne
      refine ⟨y, hy, .inl ⟨?_, hm⟩⟩
      by_contra hnan
      rw [(hlow y hy (by simpa using hnan)).1] at hm
      cases hm
    · obtain ⟨y, hy, hnan, hyx⟩ := hys x hx hxnan
      exact ⟨y, hy, .inr ⟨hnan, hm, by have := (hlow y hy hnan).2; omega⟩⟩

end Lib.F64
