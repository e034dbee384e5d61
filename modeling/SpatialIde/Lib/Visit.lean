import Mathlib.Data.List.Nodup
import Mathlib.Data.List.Range

/-! # Visiting each slot once

A walk over a list of slots that marks what it has seen: a slot that comes again is
passed over, and what `pick` makes of a slot is put out at its first visit.

`walk_perm`: if every slot that is picked is somewhere in the list, what is put out is
what `pick` makes of all slots, in some order.
-/

namespace Lib.Visit

variable {β : Type}

structure Visited (β : Type) where
  seen : List Bool
  out : List β
  deriving Repr

def start (n : Nat) : Visited β := ⟨List.replicate n false, []⟩

def visit (pick : Nat → Option β) (st : Visited β) (s : Nat) : Visited β :=
  if st.seen.getD s false then st
  else ⟨st.seen.set s true, st.out ++ (pick s).toList⟩

def walk (pick : Nat → Option β) (st : Visited β) (slots : List Nat) : Visited β :=
  slots.foldl (visit pick) st

/-- `st` has visited the slots `done`, each once, out of `n`. -/
structure Holds (pick : Nat → Option β) (n : Nat) (done : List Nat) (st : Visited β) : Prop where
  once : done.Nodup
  marks : ∀ s < n, st.seen.getD s false = true ↔ s ∈ done
  length : st.seen.length = n
  out : st.out = done.filterMap pick

variable {pick : Nat → Option β} {n : Nat}

theorem holds_start (pick : Nat → Option β) (n : Nat) : Holds pick n [] (start n) where
  once := List.nodup_nil
  marks := by
    intro s hs
    simp [start, List.getD_eq_getElem?_getD, hs]
  length := List.length_replicate
  out := rfl

/-- **One visit**: the slot is marked, and nothing is put out for it a second time. -/
theorem Holds.visit {done : List Nat} {st : Visited β} (h : Holds pick n done st) {s : Nat}
    (hs : s < n) : ∃ done', Holds pick n done' (visit pick st s) ∧
      ∀ t, t ∈ done' ↔ t ∈ done ∨ t = s := by
  unfold Visit.visit
  by_cases hseen : st.seen.getD s false = true
  · rw [if_pos hseen]
    refine ⟨done, h, fun t => ⟨.inl, ?_⟩⟩
    rintro (ht | rfl)
    · exact ht
    · exact (h.marks t hs).1 hseen
  · rw [if_neg hseen]
    have hnew : s ∉ done := fun hmem => hseen ((h.marks s hs).2 hmem)
    refine ⟨done ++ [s], ⟨?_, ?_, ?_, ?_⟩, fun t => by simp⟩
    · exact List.nodup_append.2 ⟨h.once, List.nodup_singleton s, fun t ht u hu heq =>
        hnew (List.mem_singleton.1 hu ▸ heq ▸ ht)⟩
    · intro t ht
      have hmarks := h.marks t ht
      have hlength := h.length
      rw [List.getD_eq_getElem?_getD] at hmarks
      rw [List.getD_eq_getElem?_getD, List.getElem?_set, List.mem_append, List.mem_singleton]
      by_cases heq : s = t
      · rw [if_pos heq, if_pos (by omega)]
        simp [heq]
      · rw [if_neg heq, hmarks]
        exact ⟨.inl, fun hmem => hmem.resolve_right fun hts => heq hts.symm⟩
    · rw [List.length_set]
      exact h.length
    · rw [h.out, List.filterMap_append]
      cases hpick : pick s <;> simp [hpick]

theorem Holds.walk : ∀ {slots done : List Nat} {st : Visited β}, Holds pick n done st →
    (∀ s ∈ slots, s < n) → ∃ done', Holds pick n done' (walk pick st slots) ∧
      ∀ t, t ∈ done' ↔ t ∈ done ∨ t ∈ slots := by
  intro slots
  induction slots with
  | nil => exact fun {done st} h _ => ⟨done, h, fun t => by simp⟩
  | cons s slots ih =>
    intro done st h hslots
    obtain ⟨done₁, h₁, hmem₁⟩ := h.visit (hslots s List.mem_cons_self)
    obtain ⟨done₂, h₂, hmem₂⟩ := ih h₁ fun t ht => hslots t (List.mem_cons_of_mem s ht)
    refine ⟨done₂, h₂, fun t => ?_⟩
    rw [hmem₂, hmem₁, List.mem_cons, or_assoc]

/-- **A walk that comes by every slot that is picked puts out what all of them are.** -/
theorem walk_perm {slots : List Nat} (hslots : ∀ s ∈ slots, s < n)
    (hall : ∀ s < n, (pick s).isSome = true → s ∈ slots) :
    (walk pick (start n) slots).out.Perm ((List.range n).filterMap pick) := by
  obtain ⟨done, h, hmem⟩ := (holds_start pick n).walk hslots
  rw [h.out]
  have hfilter : ∀ xs : List Nat,
      (xs.filter fun s => (pick s).isSome).filterMap pick = xs.filterMap pick := by
    intro xs
    rw [List.filterMap_filter]
    refine List.filterMap_congr fun s _ => ?_
    cases pick s <;> rfl
  rw [← hfilter done, ← hfilter (List.range n)]
  refine List.Perm.filterMap _ ((List.perm_ext_iff_of_nodup (h.once.filter _)
    (List.nodup_range.filter _)).2 fun s => ?_)
  rw [List.mem_filter, List.mem_filter, List.mem_range, hmem]
  constructor
  · rintro ⟨hs, hpick⟩
    rcases hs with hs | hs
    · cases hs
    · exact ⟨hslots s hs, hpick⟩
  · rintro ⟨hs, hpick⟩
    exact ⟨.inr (hall s hs hpick), hpick⟩

/-- Going through the slots of a list is going through the list. -/
theorem filterMap_range {α : Type} (f : α → Option β) : ∀ xs : List α,
    (List.range xs.length).filterMap (fun s => xs[s]?.bind f) = xs.filterMap f := by
  intro xs
  induction xs with
  | nil => rfl
  | cons x xs ih =>
    have htail : (List.range xs.length).filterMap
        ((fun s => (x :: xs)[s]?.bind f) ∘ Nat.succ) = xs.filterMap f := ih
    rw [List.length_cons, List.range_succ_eq_map, List.filterMap_cons, List.filterMap_map, htail,
      List.filterMap_cons]
    rfl

end Lib.Visit
