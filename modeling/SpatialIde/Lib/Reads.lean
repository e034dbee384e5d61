import Mathlib.Data.List.Forall2

/-! # Arrays read by an index

An array read at a whole number, which may lie outside it, and loops that read: a fold over a range
of indices succeeds where every turn does.  Along an array whose entries never decrease every entry
lies between the first and the last (`between`).
-/

namespace Lib

variable {α σ : Type}

/-- The entry at an index, none outside the array. -/
def readAt (xs : List α) (i : Int) : Option α := if 0 ≤ i then xs[i.toNat]? else none

/-- The indices from `lo` up to `hi`. -/
def range (lo hi : Int) : List Int := (List.range (hi - lo).toNat).map fun i : Nat => lo + i

theorem mem_range {lo hi i : Int} : i ∈ range lo hi ↔ lo ≤ i ∧ i < hi := by
  rw [range, List.mem_map]
  constructor
  · rintro ⟨n, hn, rfl⟩
    rw [List.mem_range] at hn
    omega
  · rintro ⟨hlo, hhi⟩
    exact ⟨(i - lo).toNat, List.mem_range.2 (by omega), by omega⟩

theorem range_cons {lo hi : Int} (h : lo < hi) : range lo hi = lo :: range (lo + 1) hi := by
  rw [range, range, show (hi - lo).toNat = (hi - (lo + 1)).toNat + 1 by omega,
    List.range_succ_eq_map, List.map_cons, List.map_map]
  refine congrArg₂ _ (by simp) (List.map_congr_left fun i _ => ?_)
  show lo + ((i + 1 : Nat) : Int) = lo + 1 + i
  omega

theorem pairwise_range (lo hi : Int) : (range lo hi).Pairwise (· < ·) := by
  rw [range, List.pairwise_map]
  refine List.pairwise_lt_range.imp fun h => ?_
  omega

/-- The first one found from behind is the greatest. -/
theorem le_of_find?_reverse {lo hi i j : Int} {p : Int → Bool}
    (h : (range lo hi).reverse.find? p = some j) (hi : i ∈ range lo hi) (hp : p i = true) :
    i ≤ j := by
  obtain ⟨-, before, rest, hsplit, hbefore⟩ := List.find?_eq_some_iff_append.1 h
  have hpairwise : (before ++ j :: rest).Pairwise fun a b => b < a := by
    rw [← hsplit]
    exact List.pairwise_reverse.2 (pairwise_range lo _)
  have hmem : i ∈ before ++ j :: rest := by
    rw [← hsplit]
    exact List.mem_reverse.2 hi
  rw [List.mem_append, List.mem_cons] at hmem
  rcases hmem with hmem | rfl | hmem
  · have hnot := hbefore i hmem
    rw [hp] at hnot
    cases hnot
  · exact Int.le_refl i
  · exact Int.le_of_lt ((List.pairwise_cons.1 (List.pairwise_append.1 hpairwise).2.1).1 i hmem)

theorem getElem?_range {lo hi : Int} {n : Nat} (h : lo + n < hi) :
    (range lo hi)[n]? = some (lo + n) := by
  rw [range, List.getElem?_map, List.getElem?_range (by omega)]
  rfl

theorem length_range (lo hi : Int) : (range lo hi).length = (hi - lo).toNat := by
  rw [range, List.length_map, List.length_range]

theorem readAt_of_lt {xs : List α} {i : Int} (h₀ : 0 ≤ i) (h : i < xs.length) :
    ∃ x, readAt xs i = some x := by
  have hlt : i.toNat < xs.length := by omega
  exact ⟨xs[i.toNat], by rw [readAt, if_pos h₀, List.getElem?_eq_getElem hlt]⟩

theorem lt_of_readAt {xs : List α} {i : Int} {x : α} (h : readAt xs i = some x) :
    0 ≤ i ∧ i < xs.length := by
  rw [readAt] at h
  split_ifs at h with h₀
  obtain ⟨hlt, -⟩ := List.getElem?_eq_some_iff.1 h
  omega

theorem readAt_natCast (xs : List α) (n : Nat) : readAt xs n = xs[n]? := by
  rw [readAt, if_pos (Int.natCast_nonneg n), Int.toNat_natCast]

theorem readAt_map {β : Type} (g : α → β) (xs : List α) (i : Int) :
    readAt (xs.map g) i = (readAt xs i).map g := by
  rw [readAt, readAt]
  split_ifs
  · exact List.getElem?_map
  · rfl

/-! ### Loops -/

theorem foldlM_isSome {as : List α} {f : σ → α → Option σ} (h : ∀ a ∈ as, ∀ s, ∃ s', f s a = some s')
    (s : σ) : ∃ s', as.foldlM f s = some s' := by
  induction as generalizing s with
  | nil => exact ⟨s, rfl⟩
  | cons a as ih =>
    obtain ⟨s₁, hs₁⟩ := h a List.mem_cons_self s
    obtain ⟨s₂, hs₂⟩ := ih (fun b hb => h b (List.mem_cons_of_mem _ hb)) s₁
    exact ⟨s₂, by rw [List.foldlM_cons, hs₁]; exact hs₂⟩

section

variable {β : Type} {f : α → Option β} {as : List α} {bs : List β}

theorem mapM_eq_some_iff :
    as.mapM f = some bs ↔ List.Forall₂ (fun a b => f a = some b) as bs := by
  induction as generalizing bs with
  | nil =>
    rw [List.mapM_nil, List.forall₂_nil_left_iff]
    exact ⟨fun h => (Option.some.inj h).symm, fun h => h ▸ rfl⟩
  | cons a as ih =>
    rw [List.mapM_cons, List.forall₂_cons_left_iff, Option.bind_eq_bind, Option.bind_eq_some_iff]
    constructor
    · rintro ⟨b, hb, h⟩
      obtain ⟨bs', hbs, h⟩ := Option.bind_eq_some_iff.1 h
      cases h
      exact ⟨b, bs', hb, ih.1 hbs, rfl⟩
    · rintro ⟨b, bs', hb, hbs, rfl⟩
      exact ⟨b, hb, Option.bind_eq_some_iff.2 ⟨bs', ih.2 hbs, rfl⟩⟩

theorem mapM_congr_left {g : α → Option β} (h : ∀ a ∈ as, f a = g a) : as.mapM f = as.mapM g := by
  induction as with
  | nil => rfl
  | cons a as ih =>
    rw [List.mapM_cons, List.mapM_cons, h a List.mem_cons_self,
      ih fun a' ha' => h a' (List.mem_cons_of_mem _ ha')]

theorem mapM_map {γ : Type} (f : α → Option β) (g : β → γ) (as : List α) :
    as.mapM (fun a => (f a).map g) = (as.mapM f).map (List.map g) := by
  induction as with
  | nil => rfl
  | cons a as ih =>
    rw [List.mapM_cons, List.mapM_cons, ih]
    cases f a with
    | none => rfl
    | some b => cases as.mapM f <;> rfl

theorem exists_mapM (h : ∀ a ∈ as, ∃ b, f a = some b) : ∃ bs, as.mapM f = some bs := by
  induction as with
  | nil => exact ⟨[], rfl⟩
  | cons a as ih =>
    obtain ⟨b, hb⟩ := h a List.mem_cons_self
    obtain ⟨bs, hbs⟩ := ih fun a' ha' => h a' (List.mem_cons_of_mem _ ha')
    exact ⟨b :: bs, mapM_eq_some_iff.2 (.cons hb (mapM_eq_some_iff.1 hbs))⟩

theorem length_of_mapM (h : as.mapM f = some bs) : bs.length = as.length :=
  (mapM_eq_some_iff.1 h).length_eq.symm

theorem exists_mem_of_mapM (h : as.mapM f = some bs) {a : α} (ha : a ∈ as) :
    ∃ b ∈ bs, f a = some b := by
  induction mapM_eq_some_iff.1 h with
  | nil => cases ha
  | @cons a' b as bs hb hbs ih =>
    rcases List.mem_cons.1 ha with rfl | ha
    · exact ⟨b, List.mem_cons_self, hb⟩
    · obtain ⟨b', hb', hf⟩ := ih (mapM_eq_some_iff.2 hbs) ha
      exact ⟨b', List.mem_cons_of_mem _ hb', hf⟩

theorem getElem?_of_mapM (h : as.mapM f = some bs) {n : Nat} {a : α} (ha : as[n]? = some a) :
    bs[n]? = f a := by
  induction mapM_eq_some_iff.1 h generalizing n with
  | nil => cases ha
  | @cons a' b as bs hb hbs ih =>
    cases n with
    | zero =>
      cases ha
      exact hb.symm
    | succ n => exact ih (mapM_eq_some_iff.2 hbs) ha

theorem readAt_of_mapM {g : Int → Option β} {n : Int} (h : (range 0 n).mapM g = some bs) {i : Int}
    (h₀ : 0 ≤ i) (hi : i < n) : readAt bs i = g i := by
  have hget := getElem?_of_mapM h (getElem?_range (n := i.toNat) (by omega))
  rw [readAt, if_pos h₀, hget, show 0 + (i.toNat : Int) = i by omega]

/-- A loop that reads first is a loop over what it reads. -/
theorem foldlM_bind (f : α → Option β) (g : σ → β → Option σ) (as : List α) (s : σ) :
    as.foldlM (fun s a => f a >>= g s) s = as.mapM f >>= fun bs => bs.foldlM g s := by
  induction as generalizing s with
  | nil => rfl
  | cons a as ih =>
    rw [List.foldlM_cons, List.mapM_cons]
    cases f a with
    | none => rfl
    | some b =>
      show (g s b >>= fun s' => as.foldlM (fun s a => f a >>= g s) s') =
        ((as.mapM f >>= fun bs => some (b :: bs)) >>= fun bs => bs.foldlM g s)
      simp only [ih, bind_assoc]
      cases hgs : g s b with
      | none => cases as.mapM f with
        | none => rfl
        | some bs => exact (congrArg (· >>= bs.foldlM g) hgs).symm
      | some s' => cases as.mapM f with
        | none => rfl
        | some bs => exact (congrArg (· >>= bs.foldlM g) hgs).symm

end

theorem foldlM_some (g : σ → α → σ) (as : List α) (s : σ) :
    as.foldlM (fun s a => some (g s a)) s = some (as.foldl g s) := by
  induction as generalizing s with
  | nil => rfl
  | cons a as ih => exact ih (g s a)

/-! ### Blocks of one length -/

theorem getElem?_flatMap {β : Type} {f : α → List β} {k : Nat} (hk : ∀ a, (f a).length = k)
    (as : List α) (n : Nat) {j : Nat} (hj : j < k) :
    (as.flatMap f)[n * k + j]? = as[n]?.bind fun a => (f a)[j]? := by
  induction as generalizing n with
  | nil => rfl
  | cons a as ih =>
    rw [List.flatMap_cons]
    cases n with
    | zero =>
      rw [Nat.zero_mul, Nat.zero_add, List.getElem?_append_left (by rw [hk]; exact hj)]
      rfl
    | succ n =>
      rw [List.getElem?_append_right (by rw [hk, Nat.succ_mul]; omega), hk,
        show (n + 1) * k + j - k = n * k + j by rw [Nat.succ_mul]; omega, ih]
      rfl

theorem readAt_flatMap {β : Type} {f : α → List β} {k : Nat} (hk : ∀ a, (f a).length = k)
    {as : List α} {i : Int} {a : α} (hi : readAt as i = some a) {j : Nat} (hj : j < k) :
    readAt (as.flatMap f) (i * k + j) = (f a)[j]? := by
  obtain ⟨h₀, -⟩ := lt_of_readAt hi
  obtain ⟨n, rfl⟩ := Int.eq_ofNat_of_zero_le h₀
  rw [readAt_natCast] at hi
  rw [show (n : Int) * k + j = ((n * k + j : Nat) : Int) by push_cast; rfl, readAt_natCast,
    getElem?_flatMap hk as n hj, hi]
  rfl

/-! ### Entries that never decrease -/

section

variable {xs : List Int} {lo hi : Int}

/-- Each entry from `lo` up to `hi` is there with the next one, and not above it. -/
def Steps (xs : List Int) (lo hi : Int) : Prop :=
  ∀ i, lo ≤ i → i < hi → ∃ x y, readAt xs i = some x ∧ readAt xs (i + 1) = some y ∧ x ≤ y

theorem Steps.from_first (h : Steps xs lo hi) {a : Int} (ha : readAt xs lo = some a) (n : Nat)
    (hn : lo + n ≤ hi) : ∃ x, readAt xs (lo + n) = some x ∧ a ≤ x := by
  induction n with
  | zero => exact ⟨a, by simpa using ha, Int.le_refl a⟩
  | succ n ih =>
    obtain ⟨x, hx, hax⟩ := ih (by omega)
    obtain ⟨x', y, hx', hy, hxy⟩ := h (lo + n) (by omega) (by omega)
    rw [hx] at hx'
    cases hx'
    exact ⟨y, by rw [Int.natCast_succ, ← Int.add_assoc]; exact hy, by omega⟩

theorem Steps.to_last (h : Steps xs lo hi) {b : Int} (hb : readAt xs hi = some b) (n : Nat)
    (hn : lo ≤ hi - n) : ∃ x, readAt xs (hi - n) = some x ∧ x ≤ b := by
  induction n with
  | zero => exact ⟨b, by simpa using hb, Int.le_refl b⟩
  | succ n ih =>
    obtain ⟨y, hy, hyb⟩ := ih (by omega)
    obtain ⟨x, y', hx, hy', hxy⟩ := h (hi - (n + 1)) (by omega) (by omega)
    rw [show hi - (↑n + 1) + 1 = hi - n by omega, hy] at hy'
    cases hy'
    exact ⟨x, by rw [Int.natCast_succ]; exact hx, by omega⟩

/-- Every entry lies between the first and the last. -/
theorem Steps.between (h : Steps xs lo hi) {a b : Int} (ha : readAt xs lo = some a)
    (hb : readAt xs hi = some b) {i : Int} (hlo : lo ≤ i) (hhi : i ≤ hi) :
    ∃ x, readAt xs i = some x ∧ a ≤ x ∧ x ≤ b := by
  obtain ⟨x, hx, hax⟩ := h.from_first ha (i - lo).toNat (by omega)
  obtain ⟨x', hx', hxb⟩ := h.to_last hb (hi - i).toNat (by omega)
  rw [show lo + ((i - lo).toNat : Int) = i by omega] at hx
  rw [show hi - ((hi - i).toNat : Int) = i by omega, hx] at hx'
  cases hx'
  exact ⟨x, hx, hax, hxb⟩

end

end Lib
