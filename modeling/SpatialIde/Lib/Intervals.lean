import Mathlib.Algebra.GroupWithZero.Nat
import Mathlib.Order.Cover

/-! # 64-bit words as a linear order

The order of `UInt64` with Mathlib's classes, and the successor that stops at the
greatest word.
-/

namespace Lib

instance instLinearOrderUInt64 : LinearOrder UInt64 where
  le_refl := UInt64.le_refl
  le_trans _ _ _ := UInt64.le_trans
  lt_iff_le_not_ge a b := by
    rw [UInt64.le_iff_toNat_le, UInt64.le_iff_toNat_le, UInt64.lt_iff_toNat_lt]
    omega
  le_antisymm _ _ := UInt64.le_antisymm
  le_total := UInt64.le_total
  toDecidableLE := inferInstance
  toDecidableLT := inferInstance
  min_def _ _ := rfl
  max_def _ _ := rfl
  compare_eq_compareOfLessAndEq _ _ := rfl

/-- `u64::saturating_add(1)`. -/
def saturatingSucc (a : UInt64) : UInt64 :=
  if a.toNat + 1 < 2 ^ 64 then a + 1 else a

theorem toNat_saturatingSucc {a : UInt64} (h : a.toNat + 1 < 2 ^ 64) :
    (saturatingSucc a).toNat = a.toNat + 1 := by
  rw [saturatingSucc, if_pos h, UInt64.toNat_add]
  exact Nat.mod_eq_of_lt h

theorem covBy_saturatingSucc {a b : UInt64} (h : a < b) (hb : b = saturatingSucc a) : a ⋖ b := by
  refine ⟨h, fun {c} hac hcb => ?_⟩
  have hlt : a.toNat + 1 < 2 ^ 64 := Nat.lt_of_le_of_lt h b.toNat_lt
  have hsucc := toNat_saturatingSucc hlt
  rw [hb, UInt64.lt_iff_toNat_lt, hsucc] at hcb
  rw [UInt64.lt_iff_toNat_lt] at hac
  omega

end Lib

/-! ## Ascending closed intervals

A list of closed intervals over a linear order is `Ascending` when none of them is
empty and each ends in front of the next.  `extend` puts an interval behind a list:
it is joined to the last one where the two are adjacent.

* `ascending_foldl_extend`: joining adjacent intervals keeps the list ascending;
* `covers_foldl_extend`: and keeps the points it covers.
-/

namespace Lib.Intervals

variable {α : Type}

/-- `r` behind `rs`, joined to the last interval where that one is adjacent. -/
def extend (adjacent : α → α → Bool) (rs : List (α × α)) (r : α × α) : List (α × α) :=
  match rs.getLast? with
  | some l => if adjacent l.2 r.1 then rs.dropLast ++ [(l.1, r.2)] else rs ++ [r]
  | none => [r]

@[simp] theorem extend_nil (adjacent : α → α → Bool) (r : α × α) :
    extend adjacent [] r = [r] := rfl

@[simp] theorem extend_snoc (adjacent : α → α → Bool) (rs : List (α × α)) (l r : α × α) :
    extend adjacent (rs ++ [l]) r =
      if adjacent l.2 r.1 then rs ++ [(l.1, r.2)] else rs ++ [l, r] := by
  simp [extend]

variable [LinearOrder α]

/-- The points of a list of closed intervals. -/
def Covers (rs : List (α × α)) (x : α) : Prop := ∃ r ∈ rs, r.1 ≤ x ∧ x ≤ r.2

instance (rs : List (α × α)) (x : α) : Decidable (Covers rs x) :=
  inferInstanceAs (Decidable (∃ r ∈ rs, r.1 ≤ x ∧ x ≤ r.2))

/-- No interval is empty, and each ends in front of the next. -/
structure Ascending (rs : List (α × α)) : Prop where
  nonempty : ∀ r ∈ rs, r.1 ≤ r.2
  apart : rs.Pairwise fun r s => r.2 < s.1

@[simp] theorem covers_nil (x : α) : ¬Covers [] x := by
  simp [Covers]

@[simp] theorem covers_cons (r : α × α) (rs : List (α × α)) (x : α) :
    Covers (r :: rs) x ↔ (r.1 ≤ x ∧ x ≤ r.2) ∨ Covers rs x := by
  simp [Covers]

@[simp] theorem covers_append (rs ss : List (α × α)) (x : α) :
    Covers (rs ++ ss) x ↔ Covers rs x ∨ Covers ss x := by
  simp [Covers, or_and_right, exists_or]

theorem ascending_append {rs ss : List (α × α)} :
    Ascending (rs ++ ss) ↔ Ascending rs ∧ Ascending ss ∧ ∀ r ∈ rs, ∀ s ∈ ss, r.2 < s.1 := by
  refine ⟨fun h => ?_, fun ⟨hr, hs, hrs⟩ => ?_⟩
  · obtain ⟨hr, hs, hrs⟩ := List.pairwise_append.1 h.apart
    exact ⟨⟨fun r hmem => h.nonempty r (List.mem_append_left _ hmem), hr⟩,
      ⟨fun s hmem => h.nonempty s (List.mem_append_right _ hmem), hs⟩, hrs⟩
  · refine ⟨fun r hmem => ?_, List.pairwise_append.2 ⟨hr.apart, hs.apart, hrs⟩⟩
    rcases List.mem_append.1 hmem with hmem | hmem
    · exact hr.nonempty r hmem
    · exact hs.nonempty r hmem

theorem Ascending.sublist {rs ss : List (α × α)} (h : Ascending ss) (hsub : rs.Sublist ss) :
    Ascending rs where
  nonempty r hr := h.nonempty r (hsub.subset hr)
  apart := h.apart.sublist hsub

/-- Points that touch belong to one interval or the other. -/
theorem joined_iff {a b c d x : α} (hab : a ≤ b) (hcd : c ≤ d) (h : b ⋖ c) :
    (a ≤ x ∧ x ≤ d) ↔ (a ≤ x ∧ x ≤ b) ∨ (c ≤ x ∧ x ≤ d) := by
  refine ⟨fun ⟨hax, hxd⟩ => ?_, ?_⟩
  · rcases le_or_gt x b with hxb | hbx
    · exact .inl ⟨hax, hxb⟩
    · exact .inr ⟨not_lt.1 fun hxc => h.2 hbx hxc, hxd⟩
  · rintro (⟨hax, hxb⟩ | ⟨hcx, hxd⟩)
    · exact ⟨hax, hxb.trans (h.1.le.trans hcd)⟩
    · exact ⟨hab.trans (h.1.le.trans hcx), hxd⟩

section

variable {adjacent : α → α → Bool} {rs ss : List (α × α)} {r : α × α}

/-- **The next interval is put behind the list**, whatever is still to come. -/
theorem ascending_extend (h : Ascending (rs ++ r :: ss)) :
    Ascending (extend adjacent rs r ++ ss) := by
  rcases List.eq_nil_or_concat rs with rfl | ⟨front, l, rfl⟩
  · exact h
  rw [List.concat_eq_append] at h ⊢
  rw [extend_snoc]
  by_cases hadj : adjacent l.2 r.1 = true
  · rw [if_pos hadj, List.append_assoc]
    rw [List.append_assoc] at h
    obtain ⟨hfront, hrest, hbefore⟩ := ascending_append.1 h
    obtain ⟨-, hlast, hl⟩ := (ascending_append.1 (show Ascending ([l] ++ r :: ss) from hrest))
    have hlr : l.2 < r.1 := hl l List.mem_cons_self r List.mem_cons_self
    have hle : l.1 ≤ l.2 := hrest.nonempty l List.mem_cons_self
    have hre : r.1 ≤ r.2 := hlast.nonempty r List.mem_cons_self
    refine ascending_append.2 ⟨hfront, ⟨?_, ?_⟩, ?_⟩
    · intro s hs
      rcases List.mem_cons.1 hs with rfl | hs
      · exact hle.trans (hlr.le.trans hre)
      · exact hlast.nonempty s (List.mem_cons_of_mem _ hs)
    · refine List.pairwise_cons.2 ⟨?_, (List.pairwise_cons.1 hlast.apart).2⟩
      exact (List.pairwise_cons.1 hlast.apart).1
    · intro s hs t ht
      rcases List.mem_cons.1 ht with rfl | ht
      · exact hbefore s hs l List.mem_cons_self
      · exact hbefore s hs t (List.mem_cons_of_mem _ (List.mem_cons_of_mem _ ht))
  · rw [if_neg hadj]
    simpa using h

/-- **Joining keeps the points** where what is joined has nothing in between. -/
theorem covers_extend (hadj : ∀ a b, adjacent a b = true → a < b → a ⋖ b)
    (h : Ascending (rs ++ [r])) (x : α) :
    Covers (extend adjacent rs r) x ↔ Covers rs x ∨ (r.1 ≤ x ∧ x ≤ r.2) := by
  rcases List.eq_nil_or_concat rs with rfl | ⟨front, l, rfl⟩
  · simp
  rw [List.concat_eq_append] at h ⊢
  rw [extend_snoc]
  by_cases hlr : adjacent l.2 r.1 = true
  · rw [List.append_assoc] at h
    obtain ⟨-, hrest, -⟩ := ascending_append.1 h
    have hlt : l.2 < r.1 := (List.pairwise_cons.1 hrest.apart).1 r List.mem_cons_self
    have hle : l.1 ≤ l.2 := hrest.nonempty l List.mem_cons_self
    have hre : r.1 ≤ r.2 := hrest.nonempty r (List.mem_cons_of_mem _ List.mem_cons_self)
    simp [if_pos hlr, joined_iff hle hre (hadj _ _ hlr hlt), or_assoc]
  · simp [if_neg hlr, or_assoc]

end

/-- A list is joined interval by interval, and what is still to come stays behind it. -/
theorem ascending_foldl_extend (adjacent : α → α → Bool) : ∀ {rs acc ss : List (α × α)},
    Ascending (acc ++ rs ++ ss) → Ascending (rs.foldl (extend adjacent) acc ++ ss) := by
  intro rs
  induction rs with
  | nil =>
    intro acc ss h
    rwa [List.append_nil] at h
  | cons r rs ih =>
    intro acc ss h
    refine ih ?_
    rw [List.append_assoc] at h ⊢
    exact ascending_extend h

theorem covers_foldl_extend {adjacent : α → α → Bool}
    (hadj : ∀ a b, adjacent a b = true → a < b → a ⋖ b) (x : α) :
    ∀ {rs acc : List (α × α)}, Ascending (acc ++ rs) →
      (Covers (rs.foldl (extend adjacent) acc) x ↔ Covers acc x ∨ Covers rs x) := by
  intro rs
  induction rs with
  | nil => intro acc _; simp
  | cons r rs ih =>
    intro acc h
    have hr : Ascending (acc ++ [r]) := by
      rw [List.append_cons] at h
      exact (ascending_append.1 h).1
    rw [List.foldl_cons, ih (ascending_extend h), covers_extend hadj hr, covers_cons, or_assoc]

end Lib.Intervals
