import Mathlib.Algebra.Order.Field.Basic
import Mathlib.Tactic.Linarith
import SpatialIde.Lib.Reads

/-! # Around a cycle

The entries of a list, each with the one before it and the first with the last.  A Boolean of the
entries changes an even number of times on the way around (`even_changes`).
-/

namespace Lib.Cyclic

variable {α β : Type}

/-- Each entry with the one before it, which is `prev` for the first. -/
def after (prev : α) : List α → List (α × α)
  | [] => []
  | a :: as => (a, prev) :: after a as

/-- Each entry with the one before it, which is the last for the first. -/
def steps (as : List α) : List (α × α) :=
  match as.getLast? with
  | none => []
  | some last => after last as

theorem mem_after {prev : α} {as : List α} {s : α × α} (h : s ∈ after prev as) :
    s.1 ∈ as ∧ (s.2 = prev ∨ s.2 ∈ as) := by
  induction as generalizing prev with
  | nil => cases h
  | cons a as ih =>
    rw [after, List.mem_cons] at h
    rcases h with rfl | h
    · exact ⟨List.mem_cons_self, .inl rfl⟩
    · obtain ⟨h₁, h₂⟩ := ih h
      refine ⟨List.mem_cons_of_mem _ h₁, .inr ?_⟩
      rcases h₂ with h₂ | h₂
      · exact h₂ ▸ List.mem_cons_self
      · exact List.mem_cons_of_mem _ h₂

theorem mem_steps {as : List α} {s : α × α} (h : s ∈ steps as) : s.1 ∈ as ∧ s.2 ∈ as := by
  rw [steps] at h
  split at h
  · cases h
  · next last hlast =>
    obtain ⟨h₁, h₂⟩ := mem_after h
    refine ⟨h₁, ?_⟩
    rcases h₂ with h₂ | h₂
    · exact h₂ ▸ List.mem_of_getLast? hlast
    · exact h₂

theorem after_map (f : α → β) (prev : α) (as : List α) :
    after (f prev) (as.map f) = (after prev as).map (Prod.map f f) := by
  induction as generalizing prev with
  | nil => rfl
  | cons a as ih => rw [List.map_cons, after, after, List.map_cons, ih]; rfl

theorem steps_map (f : α → β) (as : List α) : steps (as.map f) = (steps as).map (Prod.map f f) := by
  rw [steps, steps, List.getLast?_map]
  cases as.getLast? with
  | none => rfl
  | some last => exact after_map f last as

/-! ### Reading -/

variable {read : Int → Option α} {as : List α} {lo hi : Int}

/-- A place read with the one before it. -/
def pair (read : Int → Option α) (i j : Int) : Option (α × α) := do
  let a ← read i
  let b ← read j
  return (a, b)

theorem after_of_reads {prev : α} (hprev : read (lo - 1) = some prev)
    (h : (range lo hi).mapM read = some as) :
    (range lo hi).mapM (fun i => pair read i (i - 1)) = some (after prev as) := by
  induction as generalizing lo prev with
  | nil =>
    have hnil : range lo hi = [] := List.length_eq_zero_iff.1 (length_of_mapM h).symm
    rw [hnil]
    rfl
  | cons a as ih =>
    have hlt : lo < hi := by
      have hlen := length_of_mapM h
      rw [length_range, List.length_cons] at hlen
      omega
    rw [range_cons hlt, mapM_eq_some_iff, List.forall₂_cons] at h
    rw [range_cons hlt, mapM_eq_some_iff, after, List.forall₂_cons]
    refine ⟨by rw [pair, h.1, hprev]; rfl, ?_⟩
    have hprev : read (lo + 1 - 1) = some a := by rw [Int.add_sub_cancel]; exact h.1
    exact mapM_eq_some_iff.1 (ih hprev (mapM_eq_some_iff.2 h.2))

theorem steps_of_reads (h : (range lo hi).mapM read = some as) :
    (range lo hi).mapM (fun i => pair read i (if i = lo then hi - 1 else i - 1)) =
      some (steps as) := by
  cases as with
  | nil =>
    have hnil : range lo hi = [] := List.length_eq_zero_iff.1 (length_of_mapM h).symm
    rw [hnil]
    rfl
  | cons a as =>
    have hlen := length_of_mapM h
    rw [length_range, List.length_cons] at hlen
    have hlt : lo < hi := by omega
    obtain ⟨last, hlast⟩ : ∃ last, (a :: as).getLast? = some last :=
      ⟨_, List.getLast?_eq_getLast_of_ne_nil (List.cons_ne_nil _ _)⟩
    have hread : read (hi - 1) = some last := by
      have hget := getElem?_of_mapM h (getElem?_range (n := as.length) (by omega))
      rw [show lo + (as.length : Int) = hi - 1 by omega] at hget
      rw [← hget, ← hlast, List.getLast?_eq_getElem?]
      rfl
    rw [range_cons hlt, mapM_eq_some_iff, List.forall₂_cons] at h
    rw [range_cons hlt, mapM_eq_some_iff, steps, hlast]
    show List.Forall₂ _ _ ((a, last) :: after a as)
    rw [List.forall₂_cons]
    refine ⟨by rw [if_pos rfl, pair, h.1, hread]; rfl, ?_⟩
    have hfirst : read (lo + 1 - 1) = some a := by rw [Int.add_sub_cancel]; exact h.1
    have hrest := after_of_reads hfirst (mapM_eq_some_iff.2 h.2)
    rw [← mapM_eq_some_iff, ← hrest]
    refine mapM_congr_left fun i hi => ?_
    rw [mem_range] at hi
    rw [if_neg (by omega)]

/-- **The steps around a cycle are what a loop reads whose second index follows the first by one,
and starts at the last place.** -/
theorem mapM_pair (read : Int → Option α) (lo hi : Int) :
    (range lo hi).mapM (fun i => pair read i (if i = lo then hi - 1 else i - 1)) =
      ((range lo hi).mapM read).map steps := by
  cases h : (range lo hi).mapM read with
  | some as => exact steps_of_reads h
  | none =>
    refine Option.eq_none_iff_forall_ne_some.2 fun ps hps => ?_
    -- A pair that is read has its first entry.
    have heach : ∀ i ∈ range lo hi, ∃ a, read i = some a := by
      intro i hi
      obtain ⟨p, -, hp⟩ := exists_mem_of_mapM hps hi
      obtain ⟨a, ha, -⟩ := Option.bind_eq_some_iff.1 hp
      exact ⟨a, ha⟩
    obtain ⟨as, has⟩ := exists_mapM heach
    rw [h] at has
    cases has

/-! ### Changes -/

variable (b : α → Bool)

theorem odd_changes (prev : α) (as : List α) :
    Odd ((after prev as).countP fun s => b s.1 != b s.2) ↔
      b ((prev :: as).getLast (List.cons_ne_nil _ _)) ≠ b prev := by
  induction as generalizing prev with
  | nil => simp [after]
  | cons a as ih =>
    rw [after, List.countP_cons, List.getLast_cons (List.cons_ne_nil _ _)]
    have ha := ih a
    by_cases h : b a = b prev
    · rw [if_neg (by simp [h]), Nat.add_zero, ha, h]
    · rw [if_pos (by simp [h]), Nat.odd_add_one, ha]
      -- Of three Booleans two are equal.
      cases hlast : b ((a :: as).getLast (List.cons_ne_nil _ _)) <;> cases h₁ : b a <;>
        cases h₂ : b prev <;> simp_all

/-- **A Boolean changes an even number of times around a cycle.** -/
theorem even_changes (as : List α) : Even ((steps as).countP fun s => b s.1 != b s.2) := by
  rw [steps]
  split
  · exact ⟨0, rfl⟩
  · next last hlast =>
    obtain ⟨rest, rfl⟩ := List.getLast?_eq_some_iff.1 hlast
    rw [← Nat.not_odd_iff_even, odd_changes]
    simp

end Lib.Cyclic

/-! ## The even-odd rule

A point is inside some rings where the ray to its right crosses an odd number of their edges.  An
edge holds its lower end and not its upper one, so that a vertex on the ray counts once where the
ring passes it and twice or not at all where the ring turns.  No point is inside that lies to one
side of all the vertices.
-/

namespace Lib.EvenOdd

variable {K : Type} [LinearOrder K]

/-- Whether an edge holds a point of this height. -/
def Straddles (y : K) (a b : K × K) : Prop := a.2 ≤ y ∧ y < b.2 ∨ b.2 ≤ y ∧ y < a.2

instance (y : K) (a b : K × K) : Decidable (Straddles y a b) :=
  inferInstanceAs (Decidable (_ ∨ _))

/-- An edge holds the height at which exactly one of its ends is above. -/
theorem straddles_iff {y : K} {a b : K × K} :
    Straddles y a b ↔ (decide (y < a.2) != decide (y < b.2)) = true := by
  rw [Straddles, bne_iff_ne]
  by_cases ha : y < a.2
  · by_cases hb : y < b.2
    · simp [ha, hb, not_le.2 ha, not_le.2 hb]
    · simp [ha, hb, not_lt.1 hb]
  · by_cases hb : y < b.2
    · simp [ha, hb, not_lt.1 ha]
    · simp [ha, hb]

variable [Field K]

/-- Where an edge has this height. -/
def abscissa (y : K) (a b : K × K) : K := a.1 + (y - a.2) / (b.2 - a.2) * (b.1 - a.1)

def Crosses (x y : K) (edge : (K × K) × (K × K)) : Prop :=
  Straddles y edge.1 edge.2 ∧ x < abscissa y edge.1 edge.2

instance (x y : K) (edge : (K × K) × (K × K)) : Decidable (Crosses x y edge) :=
  inferInstanceAs (Decidable (_ ∧ _))

/-- The even-odd interior of all the rings together. -/
def Contains (rings : List (List (K × K))) (x y : K) : Prop :=
  Odd ((rings.flatMap Cyclic.steps).countP fun edge => Crosses x y edge)

instance (rings : List (List (K × K))) (x y : K) : Decidable (Contains rings x y) :=
  inferInstanceAs (Decidable (Odd _))

/-! ### Edges -/

variable [IsStrictOrderedRing K]

/-- Of the height of a point on an edge, the part below it. -/
theorem fraction_mem {y : K} {a b : K × K} (h : Straddles y a b) :
    0 ≤ (y - a.2) / (b.2 - a.2) ∧ (y - a.2) / (b.2 - a.2) ≤ 1 := by
  rcases h with ⟨ha, hb⟩ | ⟨hb, ha⟩
  · have hpos : 0 < b.2 - a.2 := by linarith
    exact ⟨div_nonneg (by linarith) (by linarith), (div_le_one hpos).2 (by linarith)⟩
  · have hneg : b.2 - a.2 < 0 := by linarith
    exact ⟨div_nonneg_of_nonpos (by linarith) (by linarith),
      (div_le_one_of_neg hneg).2 (by linarith)⟩

theorem lt_abscissa {x y : K} {a b : K × K} (h : Straddles y a b) (ha : x < a.1) (hb : x < b.1) :
    x < abscissa y a b := by
  obtain ⟨h₀, h₁⟩ := fraction_mem h
  rw [abscissa]
  generalize (y - a.2) / (b.2 - a.2) = t at h₀ h₁ ⊢
  nlinarith [mul_nonneg h₀ (sub_nonneg.2 hb.le), mul_nonneg (sub_nonneg.2 h₁) (sub_nonneg.2 ha.le)]

theorem abscissa_lt {x y : K} {a b : K × K} (h : Straddles y a b) (ha : a.1 < x) (hb : b.1 < x) :
    abscissa y a b < x := by
  obtain ⟨h₀, h₁⟩ := fraction_mem h
  rw [abscissa]
  generalize (y - a.2) / (b.2 - a.2) = t at h₀ h₁ ⊢
  nlinarith [mul_nonneg h₀ (sub_nonneg.2 hb.le), mul_nonneg (sub_nonneg.2 h₁) (sub_nonneg.2 ha.le)]

/-! ### Points to one side -/

variable {rings : List (List (K × K))} {x y : K}

omit [IsStrictOrderedRing K] in
theorem not_contains_of_even
    (h : ∀ vs ∈ rings, Even ((Cyclic.steps vs).countP fun edge => Crosses x y edge)) :
    ¬ Contains rings x y := by
  rw [Contains, Nat.not_odd_iff_even]
  induction rings with
  | nil => exact ⟨0, rfl⟩
  | cons vs rings ih =>
    rw [List.flatMap_cons, List.countP_append]
    exact (h vs List.mem_cons_self).add (ih fun vs' hvs' => h vs' (List.mem_cons_of_mem _ hvs'))

omit [IsStrictOrderedRing K] in
theorem not_contains_of_not_crosses
    (h : ∀ vs ∈ rings, ∀ edge ∈ Cyclic.steps vs, ¬ Crosses x y edge) : ¬ Contains rings x y := by
  refine not_contains_of_even fun vs hvs => ?_
  rw [List.countP_eq_zero.2 fun edge hedge => by simpa using h vs hvs edge hedge]
  exact ⟨0, rfl⟩

/-- The ray crosses every edge that holds its height, and those are even in number. -/
theorem not_contains_of_left (h : ∀ vs ∈ rings, ∀ v ∈ vs, x < v.1) : ¬ Contains rings x y := by
  refine not_contains_of_even fun vs hvs => ?_
  have hcount : ((Cyclic.steps vs).countP fun edge => Crosses x y edge) =
      (Cyclic.steps vs).countP fun edge => decide (y < edge.1.2) != decide (y < edge.2.2) := by
    refine List.countP_congr fun edge hedge => ?_
    obtain ⟨h₁, h₂⟩ := Cyclic.mem_steps hedge
    rw [decide_eq_true_eq, ← straddles_iff]
    exact ⟨And.left, fun hs => ⟨hs, lt_abscissa hs (h vs hvs _ h₁) (h vs hvs _ h₂)⟩⟩
  rw [hcount]
  exact Cyclic.even_changes (fun v : K × K => decide (y < v.2)) vs

theorem not_contains_of_right (h : ∀ vs ∈ rings, ∀ v ∈ vs, v.1 < x) : ¬ Contains rings x y := by
  refine not_contains_of_not_crosses fun vs hvs edge hedge hcrosses => ?_
  obtain ⟨h₁, h₂⟩ := Cyclic.mem_steps hedge
  exact lt_asymm hcrosses.2 (abscissa_lt hcrosses.1 (h vs hvs _ h₁) (h vs hvs _ h₂))

omit [IsStrictOrderedRing K] in
theorem not_contains_of_below (h : ∀ vs ∈ rings, ∀ v ∈ vs, y < v.2) : ¬ Contains rings x y := by
  refine not_contains_of_not_crosses fun vs hvs edge hedge hcrosses => ?_
  obtain ⟨h₁, h₂⟩ := Cyclic.mem_steps hedge
  rcases hcrosses.1 with ⟨hle, -⟩ | ⟨hle, -⟩
  · exact not_lt.2 hle (h vs hvs _ h₁)
  · exact not_lt.2 hle (h vs hvs _ h₂)

omit [IsStrictOrderedRing K] in
theorem not_contains_of_above (h : ∀ vs ∈ rings, ∀ v ∈ vs, v.2 < y) : ¬ Contains rings x y := by
  refine not_contains_of_not_crosses fun vs hvs edge hedge hcrosses => ?_
  obtain ⟨h₁, h₂⟩ := Cyclic.mem_steps hedge
  rcases hcrosses.1 with ⟨-, hlt⟩ | ⟨-, hlt⟩
  · exact lt_asymm hlt (h vs hvs _ h₂)
  · exact lt_asymm hlt (h vs hvs _ h₁)

/-! ### Counting by turns -/

/-- A Boolean that is turned at each step that crosses. -/
theorem foldl_turns {σ : Type} (crosses : σ → Bool) (steps : List σ) (b : Bool) :
    steps.foldl (fun b s => if crosses s then !b else b) b =
      (b != decide (Odd (steps.countP crosses))) := by
  induction steps generalizing b with
  | nil => simp
  | cons s steps ih =>
    rw [List.foldl_cons, ih, List.countP_cons]
    by_cases h : crosses s = true
    · by_cases hodd : Odd (steps.countP crosses) <;> simp [h, hodd, Nat.odd_add_one]
    · simp [h]

end Lib.EvenOdd
