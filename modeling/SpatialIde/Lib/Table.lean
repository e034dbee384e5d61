import Mathlib.Data.List.AList

/-! # Tables

A finite map in which every key stands once, in no order that matters.  What an operation
does to the map is said by `get`, and what it does to the entries as a whole by `items`, up to a
permutation.
-/

namespace Lib

abbrev Table (κ α : Type) := AList fun _ : κ => α

namespace Table

variable {κ α : Type}

/-- The entries. -/
def items (t : Table κ α) : List (κ × α) := t.entries.map fun e => (e.1, e.2)

/-- The entries that `p` holds of, and no other. -/
def retain (t : Table κ α) (p : κ → α → Bool) : Table κ α :=
  ⟨t.entries.filter fun e => p e.1 e.2, t.nodupKeys.sublist List.filter_sublist⟩

/-- Every value, changed in place. -/
def mapValues (t : Table κ α) (f : κ → α → α) : Table κ α :=
  ⟨t.entries.map fun e => ⟨e.1, f e.1 e.2⟩, t.nodupKeys.map₂ f⟩

/-- The entries that `p` holds of. -/
def select (t : Table κ α) (p : κ → α → Bool) : List (κ × α) := t.items.filter fun e => p e.1 e.2

def count (t : Table κ α) (p : κ → α → Bool) : Nat := t.items.countP fun e => p e.1 e.2

section

variable {t : Table κ α} {p q : κ → α → Bool} {f : κ → α → α}

@[simp] theorem items_retain : (t.retain p).items = t.select p := by
  rw [select, items, items, List.filter_map]
  rfl

@[simp] theorem items_mapValues : (t.mapValues f).items = t.items.map fun e => (e.1, f e.1 e.2) := by
  rw [items, items, mapValues, List.map_map, List.map_map]
  rfl

theorem select_perm : List.Perm (t.select p ++ t.select fun k a => !p k a) t.items :=
  List.filter_append_perm _ _

theorem count_eq : t.count p = (t.select p).length := by
  rw [count, select, List.countP_eq_length_filter]

theorem count_retain_le : (t.retain q).count p ≤ t.count p := by
  rw [count, count, items_retain, select]
  exact List.filter_sublist.countP_le

theorem count_mono (h : ∀ k a, p k a = true → q k a = true) : t.count p ≤ t.count q :=
  List.countP_mono_left fun e _ => h e.1 e.2

theorem count_mapValues : (t.mapValues f).count p = t.count fun k a => p k (f k a) := by
  rw [count, items_mapValues, List.countP_map]
  rfl

end

variable [DecidableEq κ]

def get (t : Table κ α) (k : κ) : Option α := t.lookup k

def put (t : Table κ α) (k : κ) (a : α) : Table κ α := t.insert k a

def remove (t : Table κ α) (k : κ) : Table κ α := t.erase k

/-- One value under each of some keys. -/
def putAll (t : Table κ α) (ks : List κ) (a : α) : Table κ α := ks.foldl (fun t k => t.put k a) t

variable {t : Table κ α} {k k' : κ} {a a' : α} {p : κ → α → Bool}

@[simp] theorem get_empty : get (∅ : Table κ α) k = none := AList.lookup_empty k

@[simp] theorem get_put_self : (t.put k a).get k = some a := AList.lookup_insert t

theorem get_put_of_ne (h : k' ≠ k) : (t.put k a).get k' = t.get k' := AList.lookup_insert_ne h

theorem get_putAll {ks : List κ} : (t.putAll ks a).get k = if k ∈ ks then some a else t.get k := by
  induction ks generalizing t with
  | nil => rfl
  | cons k' ks ih =>
    show ((t.put k' a).putAll ks a).get k = _
    rw [ih]
    by_cases hmem : k ∈ ks
    · rw [if_pos hmem, if_pos (List.mem_cons_of_mem _ hmem)]
    · rw [if_neg hmem]
      by_cases hself : k = k'
      · rw [hself, get_put_self, if_pos List.mem_cons_self]
      · rw [get_put_of_ne hself, if_neg (fun h => (List.mem_cons.1 h).elim hself hmem)]

@[simp] theorem get_remove_self : (t.remove k).get k = none := AList.lookup_erase k t

theorem get_remove_of_ne (h : k' ≠ k) : (t.remove k).get k' = t.get k' := AList.lookup_erase_ne h

theorem mem_items : (k, a) ∈ t.items ↔ t.get k = some a := by
  have hentries : (⟨k, a⟩ : Σ _ : κ, α) ∈ t.entries ↔ t.get k = some a :=
    (List.mem_dlookup_iff t.nodupKeys).symm
  rw [← hentries, items, List.mem_map]
  constructor
  · rintro ⟨e, he, heq⟩
    cases heq
    exact he
  · exact fun h => ⟨_, h, rfl⟩

theorem mem_select : (k, a) ∈ t.select p ↔ t.get k = some a ∧ p k a = true := by
  rw [select, List.mem_filter, mem_items]

theorem get_retain : (t.retain p).get k = (t.get k).filter (p k) := by
  apply Option.ext
  intro a
  rw [← mem_items, items_retain, mem_select, Option.filter_eq_some_iff]

theorem get_retain_eq_some : (t.retain p).get k = some a ↔ t.get k = some a ∧ p k a = true := by
  rw [get_retain, Option.filter_eq_some_iff]

theorem get_retain_of_pos (h : t.get k = some a) (hp : p k a = true) :
    (t.retain p).get k = some a :=
  get_retain_eq_some.2 ⟨h, hp⟩

theorem get_mapValues {f : κ → α → α} : (t.mapValues f).get k = (t.get k).map (f k) := by
  apply Option.ext
  intro a
  rw [← mem_items, items_mapValues, List.mem_map, Option.map_eq_some_iff]
  constructor
  · rintro ⟨e, he, heq⟩
    cases heq
    exact ⟨e.2, mem_items.1 he, rfl⟩
  · rintro ⟨b, hb, rfl⟩
    exact ⟨(k, b), mem_items.2 hb, rfl⟩

theorem items_put : (t.put k a).items = (k, a) :: (t.remove k).items := rfl

theorem remove_of_get_none (h : t.get k = none) : t.remove k = t := by
  have hk : k ∉ t.entries.keys := AList.lookup_eq_none.1 h
  exact AList.ext (List.kerase_of_notMem_keys hk)

theorem put_remove : (t.remove k).put k a = t.put k a := by
  have hremove : (t.remove k).remove k = t.remove k := remove_of_get_none get_remove_self
  apply AList.ext
  show ⟨k, a⟩ :: ((t.remove k).remove k).entries = ⟨k, a⟩ :: (t.remove k).entries
  rw [hremove]

theorem items_perm_remove (h : t.get k = some a) :
    List.Perm t.items ((k, a) :: (t.remove k).items) := by
  have hmem : k ∈ t.entries.keys := by
    have : k ∈ t := AList.lookup_isSome.1 (by rw [show t.lookup k = some a from h]; rfl)
    exact this
  obtain ⟨b, before, after, -, hentries, herase⟩ := List.exists_of_kerase hmem
  have hb : b = a := by
    have : (⟨k, b⟩ : Σ _ : κ, α) ∈ t.entries := by
      rw [hentries]
      exact List.mem_append_right _ List.mem_cons_self
    have hget : t.get k = some b := (List.mem_dlookup_iff t.nodupKeys).2 this
    rw [h] at hget
    exact (Option.some.inj hget).symm
  have hremove : (t.remove k).items = (before ++ after).map fun e => (e.1, e.2) := by
    rw [← herase]
    rfl
  rw [hremove, items, hentries, hb, List.map_append, List.map_append, List.map_cons]
  exact List.perm_middle

theorem count_congr {q : κ → α → Bool} (h : ∀ k a, t.get k = some a → p k a = q k a) :
    t.count p = t.count q := by
  refine List.countP_congr fun e he => ?_
  rw [h e.1 e.2 (mem_items.1 he)]

theorem count_remove_le : (t.remove k).count p ≤ t.count p := by
  have hsub : List.Sublist (t.remove k).items t.items := (List.kerase_sublist k t.entries).map _
  exact hsub.countP_le

theorem count_put_le : (t.put k a).count p ≤ t.count p + if p k a then 1 else 0 := by
  rw [count, items_put, List.countP_cons]
  exact Nat.add_le_add_right count_remove_le _

theorem count_put_le_of_neg (h : p k a = false) : (t.put k a).count p ≤ t.count p := by
  have hput := count_put_le (t := t) (k := k) (a := a) (p := p)
  rwa [h, if_neg Bool.false_ne_true, Nat.add_zero] at hput

end Table

end Lib
