import Mathlib.Algebra.GroupWithZero.Nat
import Mathlib.Data.List.Chain

/-! # Offset buffers

A nested list laid out flat is its leaves in one run plus, for each level, the
running totals at which its items end.  `slices` reads the items back, and
`slices_append` says what appending items to a well-formed buffer does: the old
items are still there and the new ones follow.
-/

namespace Lib

variable {α : Type}

/-- The running totals of `ns`, counted from `base`. -/
def ends (base : Nat) : List Nat → List Nat
  | [] => []
  | n :: ns => (base + n) :: ends (base + n) ns

/-- The items the offsets cut the run into. -/
def slices : List Nat → List α → List (List α)
  | a :: b :: os, xs => (xs.drop a).take (b - a) :: slices (b :: os) xs
  | _, _ => []

/-- `os` cuts a run of length `n`: it starts at `0`, never decreases, and ends at `n`. -/
structure IsOffsets (os : List Nat) (n : Nat) : Prop where
  head : os.head? = some 0
  mono : os.Pairwise (· ≤ ·)
  last : os.getLast? = some n

@[simp] theorem ends_nil (base : Nat) : ends base [] = [] := rfl

theorem ends_cons (base n : Nat) (ns : List Nat) :
    ends base (n :: ns) = (base + n) :: ends (base + n) ns := rfl

@[simp] theorem length_ends : ∀ (ns : List Nat) (base : Nat), (ends base ns).length = ns.length := by
  intro ns
  induction ns with
  | nil => intro base; rfl
  | cons n ns ih => intro base; rw [ends_cons, List.length_cons, ih, List.length_cons]

theorem le_of_mem_ends : ∀ (ns : List Nat) (base m : Nat), m ∈ ends base ns →
    base ≤ m ∧ m ≤ base + ns.sum := by
  intro ns
  induction ns with
  | nil => intro base m h; simp at h
  | cons n ns ih =>
    intro base m h
    rw [ends_cons, List.mem_cons] at h
    rw [List.sum_cons]
    rcases h with rfl | h
    · omega
    · have := ih (base + n) m h
      omega

theorem pairwise_ends : ∀ (ns : List Nat) (base : Nat), (ends base ns).Pairwise (· ≤ ·) := by
  intro ns
  induction ns with
  | nil => intro base; exact .nil
  | cons n ns ih =>
    intro base
    exact .cons (fun m hm => (le_of_mem_ends ns (base + n) m hm).1) (ih _)

theorem getLast?_ends : ∀ (ns : List Nat) (base : Nat),
    (base :: ends base ns).getLast? = some (base + ns.sum) := by
  intro ns
  induction ns with
  | nil => intro base; rfl
  | cons n ns ih =>
    intro base
    rw [ends_cons, List.getLast?_cons_cons, ih, List.sum_cons, Nat.add_assoc]

theorem ends_append : ∀ (ns ms : List Nat) (base : Nat),
    ends base (ns ++ ms) = ends base ns ++ ends (base + ns.sum) ms := by
  intro ns ms
  induction ns with
  | nil => intro base; rfl
  | cons n ns ih =>
    intro base
    rw [List.cons_append, ends_cons, ih, ends_cons, List.sum_cons, List.cons_append, Nat.add_assoc]

/-- The offset buffer of items of the given sizes. -/
def cuts (sizes : List Nat) : List Nat := 0 :: ends 0 sizes

@[simp] theorem length_cuts (sizes : List Nat) : (cuts sizes).length = sizes.length + 1 := by
  rw [cuts, List.length_cons, length_ends]

theorem cuts_append (ns ms : List Nat) : cuts (ns ++ ms) = cuts ns ++ ends ns.sum ms := by
  rw [cuts, ends_append, Nat.zero_add]
  rfl

/-- Neighbours in an ordered list are in order. -/
theorem pairwise_zip_tail {R : α → α → Prop} : ∀ {xs : List α}, xs.Pairwise R →
    ∀ w ∈ xs.zip xs.tail, R w.1 w.2 := by
  intro xs
  induction xs with
  | nil => intro _ w hw; simp at hw
  | cons x xs ih =>
    intro h w hw
    cases xs with
    | nil => simp at hw
    | cons y ys =>
      rw [List.tail_cons, List.zip_cons_cons, List.mem_cons] at hw
      rcases hw with rfl | hw
      · exact List.rel_of_pairwise_cons h List.mem_cons_self
      · exact ih h.of_cons w hw

namespace IsOffsets

theorem start : IsOffsets [0] 0 := ⟨rfl, List.pairwise_singleton _ _, rfl⟩

theorem ne_nil {os : List Nat} {n : Nat} (h : IsOffsets os n) : os ≠ [] := by
  rintro rfl
  cases h.head

theorem le {os : List Nat} {n m : Nat} (h : IsOffsets os n) (hm : m ∈ os) : m ≤ n := by
  obtain ⟨init, hinit⟩ := List.getLast?_eq_some_iff.1 h.last
  have hmono := h.mono
  rw [hinit] at hm hmono
  rcases List.mem_append.1 hm with hm | hm
  · exact (List.pairwise_append.1 hmono).2.2 m hm n (List.mem_singleton.2 rfl)
  · rw [List.mem_singleton.1 hm]

/-- **Appending the ends of new items** keeps an offset buffer well formed. -/
theorem append {os : List Nat} {n : Nat} (h : IsOffsets os n) (ns : List Nat) :
    IsOffsets (os ++ ends n ns) (n + ns.sum) := by
  obtain ⟨init, hinit⟩ := List.getLast?_eq_some_iff.1 h.last
  refine ⟨?_, ?_, ?_⟩
  · rw [List.head?_append, h.head]
    rfl
  · refine List.pairwise_append.2 ⟨h.mono, pairwise_ends ns n, ?_⟩
    intro a ha b hb
    exact Nat.le_trans (h.le ha) (le_of_mem_ends ns n b hb).1
  · rw [hinit, List.append_assoc, List.singleton_append, List.getLast?_append_of_ne_nil]
    · exact getLast?_ends ns n
    · simp

theorem cuts (sizes : List Nat) : IsOffsets (Lib.cuts sizes) sizes.sum := by
  have h := start.append sizes
  rwa [Nat.zero_add] at h

end IsOffsets

theorem slices_cons_cons (a b : Nat) (os : List Nat) (xs : List α) :
    slices (a :: b :: os) xs = (xs.drop a).take (b - a) :: slices (b :: os) xs := rfl

theorem length_slices : ∀ (os : List Nat) (xs : List α), (slices os xs).length = os.length - 1 := by
  intro os xs
  induction os with
  | nil => rfl
  | cons a os ih =>
    cases os with
    | nil => rfl
    | cons b os => rw [slices_cons_cons, List.length_cons, ih]; simp

/-- Offsets that stay inside a run do not see what is appended to it. -/
theorem slices_append_right : ∀ (os : List Nat) (xs ys : List α), (∀ o ∈ os, o ≤ xs.length) →
    slices os (xs ++ ys) = slices os xs := by
  intro os xs ys
  induction os with
  | nil => intro _; rfl
  | cons a os ih =>
    intro h
    cases os with
    | nil => rfl
    | cons b os =>
      have ha : a ≤ xs.length := h a (by simp)
      have hb : b ≤ xs.length := h b (by simp)
      rw [slices_cons_cons, slices_cons_cons, ih (fun o ho => h o (List.mem_cons_of_mem a ho)),
        List.drop_append_of_le_length ha, List.take_append_of_le_length]
      rw [List.length_drop]
      omega

theorem slices_append_left : ∀ (init : List Nat) (n : Nat) (os : List Nat) (xs : List α),
    slices (init ++ n :: os) xs = slices (init ++ [n]) xs ++ slices (n :: os) xs := by
  intro init n os xs
  induction init with
  | nil => rfl
  | cons a init ih =>
    cases init with
    | nil => rfl
    | cons b init =>
      simp only [List.cons_append, slices_cons_cons] at ih ⊢
      rw [ih]

theorem slices_ends : ∀ (yss : List (List α)) (xs : List α),
    slices (xs.length :: ends xs.length (yss.map List.length)) (xs ++ yss.flatten) = yss := by
  intro yss
  induction yss with
  | nil => intro xs; rfl
  | cons ys yss ih =>
    intro xs
    have hnext := ih (xs ++ ys)
    rw [List.length_append, List.append_assoc] at hnext
    rw [List.map_cons, ends_cons, slices_cons_cons, List.flatten_cons, hnext, List.drop_left,
      Nat.add_sub_cancel_left, List.take_left]

/-- **Appending items**: the offsets and the run both grow, the old items stay what they were and
the new ones follow them. -/
theorem slices_append {os : List Nat} {xs : List α} (h : IsOffsets os xs.length)
    (yss : List (List α)) :
    slices (os ++ ends xs.length (yss.map List.length)) (xs ++ yss.flatten) =
      slices os xs ++ yss := by
  obtain ⟨init, hinit⟩ := List.getLast?_eq_some_iff.1 h.last
  have hle : ∀ o ∈ init ++ [xs.length], o ≤ xs.length := by
    intro o ho
    rw [← hinit] at ho
    exact h.le ho
  rw [hinit, List.append_assoc, List.singleton_append, slices_append_left, slices_ends,
    slices_append_right _ _ _ hle]

end Lib
