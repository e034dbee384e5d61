import Mathlib.Algebra.BigOperators.Group.List.Basic
import Mathlib.Algebra.GroupWithZero.Nat
import Mathlib.Data.List.Nodup

/-! # Maps in insertion order

A finite map that keeps its entries in the order their keys first came: setting a key that is there
changes its value in place, and deleting one closes the gap.  What an operation does to the map is
said by `get`.  A set in insertion order is a list that `addOnce` grows.
-/

namespace Lib

variable {κ α : Type}

section

variable [DecidableEq κ]

def addOnce (ks : List κ) (k : κ) : List κ := if k ∈ ks then ks else ks ++ [k]

@[simp] theorem mem_addOnce {ks : List κ} {k k' : κ} : k' ∈ addOnce ks k ↔ k' ∈ ks ∨ k' = k := by
  rw [addOnce]
  split_ifs with h
  · constructor
    · exact Or.inl
    · intro hk
      rcases hk with hk | hk
      · exact hk
      · exact hk ▸ h
  · rw [List.mem_append, List.mem_singleton]

end

structure OrderedMap (κ α : Type) where
  entries : List (κ × α)
  nodup : (entries.map Prod.fst).Nodup

namespace OrderedMap

def empty : OrderedMap κ α := ⟨[], List.nodup_nil⟩

def keys (m : OrderedMap κ α) : List κ := m.entries.map Prod.fst

def values (m : OrderedMap κ α) : List α := m.entries.map Prod.snd

def size (m : OrderedMap κ α) : Nat := m.entries.length

theorem ext_entries {m m' : OrderedMap κ α} (h : m.entries = m'.entries) : m = m' := by
  cases m
  cases m'
  cases h
  rfl

variable [DecidableEq κ]

def get (m : OrderedMap κ α) (k : κ) : Option α := m.entries.lookup k

def delete (m : OrderedMap κ α) (k : κ) : OrderedMap κ α :=
  ⟨m.entries.filter fun e => e.1 ≠ k, m.nodup.sublist (List.filter_sublist.map _)⟩

/-- The value of a key in place, where the key is there. -/
def replace (es : List (κ × α)) (k : κ) (a : α) : List (κ × α) :=
  es.map fun e => if e.1 = k then (k, a) else e

theorem keys_replace (es : List (κ × α)) (k : κ) (a : α) :
    (replace es k a).map Prod.fst = es.map Prod.fst := by
  rw [replace, List.map_map]
  refine List.map_congr_left ?_
  intro e _
  rw [Function.comp_apply]
  split_ifs with h
  · exact h.symm
  · rfl

def set (m : OrderedMap κ α) (k : κ) (a : α) : OrderedMap κ α :=
  if h : k ∈ m.keys then ⟨replace m.entries k a, by rw [keys_replace]; exact m.nodup⟩
  else
    ⟨m.entries ++ [(k, a)], by
      rw [List.map_append]
      exact List.Nodup.append m.nodup (List.nodup_singleton k)
        (List.disjoint_singleton.2 h)⟩

@[simp] theorem get_empty (k : κ) : get (empty : OrderedMap κ α) k = none := rfl

theorem lookup_cons (e : κ × α) (es : List (κ × α)) (k : κ) :
    (e :: es).lookup k = if k = e.1 then some e.2 else es.lookup k := by
  rw [List.lookup_cons]
  by_cases h : k = e.1
  · rw [if_pos h, beq_iff_eq.2 h]
  · rw [if_neg h, beq_eq_false_iff_ne.2 h]

theorem mem_of_lookup {es : List (κ × α)} {k : κ} {a : α} (h : es.lookup k = some a) :
    (k, a) ∈ es := by
  induction es with
  | nil => cases h
  | cons e es ih =>
    rw [lookup_cons] at h
    by_cases hk : k = e.1
    · rw [if_pos hk] at h
      cases h
      rw [hk]
      exact List.mem_cons_self
    · rw [if_neg hk] at h
      exact List.mem_cons_of_mem _ (ih h)

theorem lookup_eq_none {es : List (κ × α)} {k : κ} :
    es.lookup k = none ↔ k ∉ es.map Prod.fst := by
  induction es with
  | nil => exact ⟨fun _ => List.not_mem_nil, fun _ => rfl⟩
  | cons e es ih =>
    rw [lookup_cons, List.map_cons, List.mem_cons, not_or]
    by_cases hk : k = e.1
    · rw [if_pos hk]
      exact ⟨nofun, fun h => absurd hk h.1⟩
    · rw [if_neg hk, ih]
      exact ⟨fun h => ⟨hk, h⟩, fun h => h.2⟩

theorem get_eq_none {m : OrderedMap κ α} {k : κ} : m.get k = none ↔ k ∉ m.keys := lookup_eq_none

theorem mem_keys {m : OrderedMap κ α} {k : κ} : k ∈ m.keys ↔ ∃ a, m.get k = some a := by
  rw [← Option.isSome_iff_exists, ← not_iff_not, ← get_eq_none, Option.not_isSome_iff_eq_none]

theorem lookup_filter (es : List (κ × α)) (k k' : κ) :
    (es.filter fun e => e.1 ≠ k).lookup k' = if k' = k then none else es.lookup k' := by
  induction es with
  | nil => split_ifs <;> rfl
  | cons e es ih =>
    by_cases he : e.1 = k
    · rw [List.filter_cons_of_neg (by simpa using he), ih, lookup_cons]
      by_cases hk : k' = k
      · rw [if_pos hk, if_pos hk]
      · rw [if_neg hk, if_neg hk, if_neg (fun h => hk (h.trans he))]
    · rw [List.filter_cons_of_pos (by simpa using he), lookup_cons, lookup_cons, ih]
      by_cases hk' : k' = e.1
      · rw [if_pos hk', if_pos hk', if_neg (by rw [hk']; exact he)]
      · rw [if_neg hk', if_neg hk']

theorem replace_eq_self {es : List (κ × α)} {k : κ} (h : k ∉ es.map Prod.fst) (a : α) :
    replace es k a = es := by
  refine (List.map_congr_left ?_).trans (List.map_id es)
  intro e he
  rw [if_neg (fun heq => h (List.mem_map.2 ⟨e, he, heq⟩))]
  rfl

theorem lookup_replace {es : List (κ × α)} {k : κ} (h : k ∈ es.map Prod.fst) (a : α) (k' : κ) :
    (replace es k a).lookup k' = if k' = k then some a else es.lookup k' := by
  induction es with
  | nil => cases h
  | cons e es ih =>
    show ((if e.1 = k then (k, a) else e) :: replace es k a).lookup k' = _
    by_cases he : e.1 = k
    · rw [if_pos he, lookup_cons, lookup_cons, he]
      by_cases hk : k' = k
      · rw [if_pos hk, if_pos hk]
      · rw [if_neg hk, if_neg hk, if_neg hk]
        by_cases hmem : k ∈ es.map Prod.fst
        · rw [ih hmem, if_neg hk]
        · rw [replace_eq_self hmem]
    · have hmem : k ∈ es.map Prod.fst := by
        rw [List.map_cons, List.mem_cons] at h
        exact h.resolve_left fun heq => he heq.symm
      rw [if_neg he, lookup_cons, lookup_cons, ih hmem]
      by_cases hk' : k' = e.1
      · rw [if_pos hk', if_pos hk', if_neg (by rw [hk']; exact he)]
      · rw [if_neg hk', if_neg hk']

theorem get_set (m : OrderedMap κ α) (k : κ) (a : α) (k' : κ) :
    (m.set k a).get k' = if k' = k then some a else m.get k' := by
  rw [set]
  by_cases h : k ∈ m.keys
  · rw [dif_pos h]
    exact lookup_replace h a k'
  · rw [dif_neg h]
    show (m.entries ++ [(k, a)]).lookup k' = _
    rw [List.lookup_append, lookup_cons]
    by_cases hk : k' = k
    · rw [if_pos hk, if_pos hk, hk, lookup_eq_none.2 h]
      rfl
    · rw [if_neg hk, if_neg hk, List.lookup_nil, Option.or_none]
      rfl

@[simp] theorem get_set_self (m : OrderedMap κ α) (k : κ) (a : α) : (m.set k a).get k = some a := by
  rw [get_set, if_pos rfl]

theorem get_set_of_ne (m : OrderedMap κ α) {k k' : κ} (a : α) (h : k' ≠ k) :
    (m.set k a).get k' = m.get k' := by
  rw [get_set, if_neg h]

theorem get_delete (m : OrderedMap κ α) (k k' : κ) :
    (m.delete k).get k' = if k' = k then none else m.get k' := lookup_filter m.entries k k'

@[simp] theorem get_delete_self (m : OrderedMap κ α) (k : κ) : (m.delete k).get k = none := by
  rw [get_delete, if_pos rfl]

theorem get_delete_of_ne (m : OrderedMap κ α) {k k' : κ} (h : k' ≠ k) :
    (m.delete k).get k' = m.get k' := by
  rw [get_delete, if_neg h]

/-- Deleting a key that is there makes the map smaller. -/
theorem size_delete_lt {m : OrderedMap κ α} {k : κ} {a : α} (h : m.get k = some a) :
    (m.delete k).size < m.size := by
  refine List.length_filter_lt_length_iff_exists.2 ⟨(k, a), mem_of_lookup h, ?_⟩
  rw [decide_eq_true_eq]
  exact fun hne => hne rfl

theorem size_delete_le (m : OrderedMap κ α) (k : κ) : (m.delete k).size ≤ m.size :=
  List.length_filter_le _ _

theorem size_set_of_absent {m : OrderedMap κ α} {k : κ} (h : m.get k = none) (a : α) :
    (m.set k a).size = m.size + 1 := by
  rw [set, dif_neg (get_eq_none.1 h)]
  exact List.length_append

theorem keys_set_of_mem {m : OrderedMap κ α} {k : κ} {a b : α} (h : m.get k = some b) :
    (m.set k a).keys = m.keys := by
  rw [set, dif_pos (mem_keys.2 ⟨b, h⟩)]
  exact keys_replace m.entries k a

theorem keys_delete (m : OrderedMap κ α) (k : κ) :
    (m.delete k).keys = m.keys.filter fun k' => k' ≠ k := by
  rw [keys, keys, List.filter_map]
  rfl

theorem lookup_of_mem {es : List (κ × α)} (hes : (es.map Prod.fst).Nodup) {k : κ} {a : α}
    (h : (k, a) ∈ es) : es.lookup k = some a := by
  induction es with
  | nil => cases h
  | cons e es ih =>
    rw [List.map_cons, List.nodup_cons] at hes
    rw [lookup_cons]
    rcases List.mem_cons.1 h with heq | hmem
    · rw [← heq, if_pos rfl]
    · have hne : k ≠ e.1 := by
        intro heq
        exact hes.1 (heq ▸ List.mem_map_of_mem (f := Prod.fst) hmem)
      rw [if_neg hne]
      exact ih hes.2 hmem

theorem mem_entries {m : OrderedMap κ α} {k : κ} {a : α} : (k, a) ∈ m.entries ↔ m.get k = some a :=
  ⟨lookup_of_mem m.nodup, mem_of_lookup⟩

/-! ### Keeping some entries -/

/-- The entries with a property. -/
def retain (m : OrderedMap κ α) (p : α → Bool) : OrderedMap κ α :=
  ⟨m.entries.filter fun e => p e.2, m.nodup.sublist (List.filter_sublist.map _)⟩

theorem get_of_get_retain {m : OrderedMap κ α} {p : α → Bool} {k : κ} {a : α}
    (h : (m.retain p).get k = some a) : m.get k = some a :=
  mem_entries.1 (List.mem_filter.1 (mem_entries.2 h)).1

/-! ### Changing every value -/

def mapValues (m : OrderedMap κ α) (f : α → α) : OrderedMap κ α :=
  ⟨m.entries.map fun e => (e.1, f e.2), by rw [List.map_map]; exact m.nodup⟩

theorem lookup_map (es : List (κ × α)) (f : α → α) (k : κ) :
    (es.map fun e => (e.1, f e.2)).lookup k = (es.lookup k).map f := by
  induction es with
  | nil => rfl
  | cons e es ih =>
    rw [List.map_cons, lookup_cons, lookup_cons, ih]
    split_ifs with h
    · rfl
    · rfl

@[simp] theorem get_mapValues (m : OrderedMap κ α) (f : α → α) (k : κ) :
    (m.mapValues f).get k = (m.get k).map f := lookup_map m.entries f k

theorem mapValues_delete (m : OrderedMap κ α) (f : α → α) (k : κ) :
    (m.delete k).mapValues f = (m.mapValues f).delete k := by
  refine ext_entries ?_
  show (m.entries.filter _).map _ = (m.entries.map _).filter _
  rw [List.filter_map]
  rfl

theorem mapValues_set (m : OrderedMap κ α) (f : α → α) (k : κ) (a : α) :
    (m.set k a).mapValues f = (m.mapValues f).set k (f a) := by
  have hkeys : (m.mapValues f).keys = m.keys := by
    show (m.entries.map _).map _ = m.entries.map _
    rw [List.map_map]
    rfl
  refine ext_entries ?_
  show (m.set k a).entries.map _ = ((m.mapValues f).set k (f a)).entries
  rw [set, set]
  by_cases hk : k ∈ m.keys
  · rw [dif_pos hk, dif_pos (hkeys.symm ▸ hk)]
    show (replace m.entries k a).map _ = replace (m.entries.map _) k (f a)
    rw [replace, replace, List.map_map, List.map_map]
    refine List.map_congr_left ?_
    intro e _
    show ((if e.1 = k then (k, a) else e).1, f (if e.1 = k then (k, a) else e).2) =
      if e.1 = k then (k, f a) else (e.1, f e.2)
    split_ifs
    · rfl
    · rfl
  · rw [dif_neg hk, dif_neg (hkeys.symm ▸ hk)]
    exact List.map_append

/-- Setting a key to the value it has changes nothing. -/
theorem set_of_get {m : OrderedMap κ α} {k : κ} {a : α} (h : m.get k = some a) : m.set k a = m := by
  refine ext_entries ?_
  rw [set, dif_pos (mem_keys.2 ⟨a, h⟩)]
  refine (List.map_congr_left ?_).trans (List.map_id _)
  intro e he
  by_cases hk : e.1 = k
  · have hget := mem_entries.1 (show (e.1, e.2) ∈ m.entries from he)
    rw [hk, h, Option.some.injEq] at hget
    rw [if_pos hk, hget, ← hk]
    rfl
  · rw [if_neg hk]
    rfl

theorem delete_set (m : OrderedMap κ α) (k : κ) (a : α) :
    ((m.set k a).delete k).entries = (m.delete k).entries := by
  rw [set]
  split_ifs with h
  · show (replace m.entries k a).filter _ = m.entries.filter _
    rw [replace, List.filter_map]
    have hsame : ∀ e : κ × α, ((fun e : κ × α => decide (e.1 ≠ k)) ∘
        fun e => if e.1 = k then (k, a) else e) e = decide (e.1 ≠ k) := by
      intro e
      rw [Function.comp_apply]
      split_ifs with he
      · rw [he]
      · rfl
    rw [funext hsame]
    refine (List.map_congr_left ?_).trans (List.map_id _)
    intro e he
    rw [if_neg (of_decide_eq_true (List.mem_filter.1 he).2)]
    rfl
  · show (m.entries ++ [(k, a)]).filter _ = m.entries.filter _
    rw [List.filter_append, List.filter_cons_of_neg (by simp), List.filter_nil, List.append_nil]

theorem perm_of_lookup {es : List (κ × α)} (hes : (es.map Prod.fst).Nodup) {k : κ} {a : α}
    (h : es.lookup k = some a) : es.Perm ((k, a) :: es.filter fun e => e.1 ≠ k) := by
  induction es with
  | nil => cases h
  | cons e es ih =>
    rw [List.map_cons, List.nodup_cons] at hes
    rw [lookup_cons] at h
    by_cases hk : k = e.1
    · rw [if_pos hk] at h
      cases h
      subst hk
      rw [List.filter_cons_of_neg (by simp), List.filter_eq_self.2]
      intro e' he'
      exact decide_eq_true fun heq => hes.1 (heq ▸ List.mem_map_of_mem he')
    · rw [if_neg hk] at h
      rw [List.filter_cons_of_pos (by simpa using Ne.symm hk)]
      exact ((ih hes.2 h).cons e).trans (List.Perm.swap _ _ _)

/-- The entries, up to their order, by one that is there. -/
theorem entries_perm {m : OrderedMap κ α} {k : κ} {a : α} (h : m.get k = some a) :
    m.entries.Perm ((k, a) :: (m.delete k).entries) := perm_of_lookup m.nodup h

theorem entries_set_perm (m : OrderedMap κ α) (k : κ) (a : α) :
    (m.set k a).entries.Perm ((k, a) :: (m.delete k).entries) := by
  have h := entries_perm (get_set_self m k a)
  rwa [delete_set] at h

theorem delete_of_get_eq_none {m : OrderedMap κ α} {k : κ} (h : m.get k = none) :
    (m.delete k).entries = m.entries := by
  refine List.filter_eq_self.2 fun e he => decide_eq_true fun heq => ?_
  exact get_eq_none.1 h (heq ▸ List.mem_map_of_mem he)

/-! ### Adding up -/

/-- The sum of a measure over the values. -/
def total (f : α → Nat) (m : OrderedMap κ α) : Nat := (m.entries.map fun e => f e.2).sum

theorem total_delete (f : α → Nat) {m : OrderedMap κ α} {k : κ} {a : α} (h : m.get k = some a) :
    (m.delete k).total f + f a = m.total f := by
  have hperm := ((entries_perm h).map fun e => f e.2).sum_eq
  rw [List.map_cons, List.sum_cons] at hperm
  rw [total, total, hperm, Nat.add_comm]

theorem total_set (f : α → Nat) (m : OrderedMap κ α) (k : κ) (a : α) :
    (m.set k a).total f = f a + (m.delete k).total f := by
  have hperm := ((entries_set_perm m k a).map fun e => f e.2).sum_eq
  rw [List.map_cons, List.sum_cons] at hperm
  exact hperm

end OrderedMap

end Lib
