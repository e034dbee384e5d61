import Mathlib.Data.List.Basic
import Mathlib.Data.List.Flatten

/-! # Which list an element of a concatenation came from

`owners n xss` names, for each element of the concatenation of `xss` in order, the list it stands
in, the lists counted from `n`.
-/

namespace Lib

variable {α β ι : Type}

def owners (n : Nat) (xss : List (List α)) : List Nat :=
  (xss.zipIdx n).flatMap fun p => p.1.map fun _ => p.2

@[simp] theorem owners_nil (n : Nat) : owners n ([] : List (List α)) = [] := rfl

@[simp] theorem owners_cons (n : Nat) (xs : List α) (xss : List (List α)) :
    owners n (xs :: xss) = List.replicate xs.length n ++ owners (n + 1) xss := by
  rw [owners, List.zipIdx_cons, List.flatMap_cons, List.map_const', owners]

theorem owners_append (n : Nat) (xss yss : List (List α)) :
    owners n (xss ++ yss) = owners n xss ++ owners (n + xss.length) yss := by
  induction xss generalizing n with
  | nil => rfl
  | cons xs xss ih =>
    have hlen : n + 1 + xss.length = n + (xs :: xss).length := by
      rw [List.length_cons]
      omega
    rw [List.cons_append, owners_cons, ih, owners_cons, List.append_assoc, hlen]

theorem length_owners (n : Nat) (xss : List (List α)) :
    (owners n xss).length = xss.flatten.length := by
  induction xss generalizing n with
  | nil => rfl
  | cons xs xss ih =>
    rw [owners_cons, List.length_append, List.length_replicate, ih, List.flatten_cons,
      List.length_append]

theorem mem_owners {n m : Nat} {xss : List (List α)} (h : m ∈ owners n xss) :
    n ≤ m ∧ m < n + xss.length := by
  induction xss generalizing n with
  | nil => exact absurd h List.not_mem_nil
  | cons xs xss ih =>
    rw [List.length_cons]
    rw [owners_cons] at h
    rcases List.mem_append.1 h with hhere | hthere
    · have heq := List.eq_of_mem_replicate hhere
      omega
    · have hm := ih hthere
      omega

theorem pairwise_owners (n : Nat) (xss : List (List α)) : (owners n xss).Pairwise (· ≤ ·) := by
  induction xss generalizing n with
  | nil => exact List.Pairwise.nil
  | cons xs xss ih =>
    rw [owners_cons, List.pairwise_append]
    refine ⟨List.pairwise_replicate.2 (Or.inr (Nat.le_refl n)), ih (n + 1), ?_⟩
    intro a ha b hb
    have hle := (mem_owners hb).1
    rw [List.eq_of_mem_replicate ha]
    omega

/-- The first lists own the first elements. -/
theorem owners_take (n c : Nat) (xss : List (List α)) :
    owners n (xss.take c) = (owners n xss).take (xss.take c).flatten.length := by
  conv_rhs => rw [← List.take_append_drop c xss, owners_append, List.take_append_drop]
  rw [List.take_left' (length_owners n _)]

/-- The `k`th element of a concatenation over `ks`, with the one it was made for. -/
theorem getElem?_owners {f : ι → List α} {ks : List ι} {k n : Nat} {i : ι} {x : α}
    (h : (ks.flatMap fun j => (f j).map fun y => (j, y))[k]? = some (i, x)) :
    ∃ m, (owners n (ks.map f))[k]? = some (n + m) ∧ ks[m]? = some i ∧ x ∈ f i := by
  induction ks generalizing k n with
  | nil => cases h
  | cons j ks ih =>
    rw [List.flatMap_cons] at h
    rw [List.map_cons, owners_cons]
    by_cases hk : k < (f j).length
    · -- Among the elements of the first.
      rw [List.getElem?_append_left (by rw [List.length_map]; exact hk), List.getElem?_map] at h
      rw [List.getElem?_append_left (by rw [List.length_replicate]; exact hk)]
      obtain ⟨y, hy, heq⟩ := Option.map_eq_some_iff.1 h
      cases heq
      exact ⟨0, List.getElem?_replicate_of_lt hk, rfl, List.mem_of_getElem? hy⟩
    · rw [List.getElem?_append_right (by rw [List.length_map]; omega), List.length_map] at h
      rw [List.getElem?_append_right (by rw [List.length_replicate]; omega),
        List.length_replicate]
      obtain ⟨m, hm, hi, hx⟩ := ih (n := n + 1) h
      exact ⟨m + 1, by rw [hm]; congr 1; omega, hi, hx⟩

end Lib
