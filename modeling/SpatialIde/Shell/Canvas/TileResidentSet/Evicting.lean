import SpatialIde.Shell.Canvas.TileResidentSet.Bookkeeping

/-! # How far an eviction goes

An eviction drops a tile and goes on to those that it leaves incomplete.  Whatever a drop keeps, with
the tiles to go into still pending, the whole eviction keeps (`evictWithin_keeps`).  Each tile it goes
into is gone from the set, so as many steps as there are tiles are enough (`evictWithin_fuel`).
-/

namespace SpatialIde.Shell.Canvas

open Lib

namespace TileResidentSet

variable {isProtected : String → Bool} {s s' s'' : TileResidentSet} {k : String}

/-! ### One tile -/

theorem evictWithin_none (n : Nat) (hk : s.tiles.get k = none) :
    evictWithin isProtected n s k = (s, []) := by
  cases n with
  | zero => rfl
  | succ n =>
    rw [evictWithin, hk]

theorem evictWithin_protected (n : Nat) (hk : isProtected k = true) :
    evictWithin isProtected n s k = (s, []) := by
  cases n with
  | zero => rfl
  | succ n =>
    rw [evictWithin]
    split
    · rfl
    · rw [if_pos hk]

/-- The tiles an eviction goes on to, one after the other. -/
def evictEach (isProtected : String → Bool) (n : Nat) (ts : List String) (acc : Cascade) :
    Cascade :=
  ts.foldl
    (fun acc t =>
      ((evictWithin isProtected n acc.1 t).1, acc.2 ++ (evictWithin isProtected n acc.1 t).2))
    acc

theorem evictWithin_succ (n : Nat) {entry : TileEntry} (hk : s.tiles.get k = some entry)
    (hprot : isProtected k = false) :
    evictWithin isProtected (n + 1) s k =
      evictEach isProtected n ((s.dropTile isProtected k entry).2.filter fun t => t ≠ k)
        ((s.dropTile isProtected k entry).1, [k]) := by
  rw [evictWithin, hk]
  dsimp only
  rw [if_neg (by rw [hprot]; exact Bool.false_ne_true)]
  rfl

/-- The sets an eviction goes through. -/
theorem fst_evictEach (n : Nat) (ts : List String) (acc : Cascade) :
    (evictEach isProtected n ts acc).1 =
      ts.foldl (fun s t => (evictWithin isProtected n s t).1) acc.1 := by
  induction ts generalizing acc with
  | nil => rfl
  | cons t ts ih =>
    rw [evictEach, List.foldl_cons, ← evictEach, ih]
    rfl

theorem evictWithin_some (n : Nat) {entry : TileEntry} (hk : s.tiles.get k = some entry)
    (hprot : isProtected k = false) :
    (evictWithin isProtected (n + 1) s k).1 =
      ((s.dropTile isProtected k entry).2.filter fun t => t ≠ k).foldl
        (fun s t => (evictWithin isProtected n s t).1) (s.dropTile isProtected k entry).1 := by
  rw [evictWithin_succ n hk hprot, fst_evictEach]

/-- The tile that is dropped is gone, and no other. -/
theorem get_dropTile {entry : TileEntry} (t : String) :
    (s.dropTile isProtected k entry).1.tiles.get t = none ↔ t = k ∨ s.tiles.get t = none := by
  rw [(drops_dropTile s isProtected k entry).marks.gone, OrderedMap.get_delete]
  by_cases ht : t = k
  · rw [if_pos ht]
    exact ⟨fun _ => Or.inl ht, fun _ => rfl⟩
  · rw [if_neg ht, or_iff_right ht]

theorem size_dropTile (isProtected : String → Bool) {entry : TileEntry}
    (hk : s.tiles.get k = some entry) :
    (s.dropTile isProtected k entry).1.tiles.size < s.tiles.size := by
  rw [(drops_dropTile s isProtected k entry).marks.size]
  exact OrderedMap.size_delete_lt hk

theorem get_eq_none_of_size {m : OrderedMap String TileEntry} (h : m.size ≤ 0) (t : String) :
    m.get t = none := by
  rw [OrderedMap.get_eq_none, OrderedMap.keys, List.eq_nil_of_length_eq_zero (Nat.le_zero.1 h)]
  exact List.not_mem_nil

/-! ### What an eviction comes to -/

section

variable {R : TileResidentSet → TileResidentSet → List String → Prop}

theorem evictEach_relates
    (htrans : ∀ {s s' s'' : TileResidentSet} {went went' : List String},
      R s s' went → R s' s'' went' → R s s'' (went ++ went')) {n : Nat}
    (hone : ∀ s k, R s (evictWithin isProtected n s k).1 (evictWithin isProtected n s k).2)
    (ts : List String) (acc : Cascade) (h : R s acc.1 acc.2) :
    R s (evictEach isProtected n ts acc).1 (evictEach isProtected n ts acc).2 := by
  induction ts generalizing acc with
  | nil => exact h
  | cons t ts ih => exact ih _ (htrans h (hone acc.1 t))

/-- What each drop relates, by the tile that it drops, an eviction relates, by all that went. -/
theorem evictWithin_relates (hrefl : ∀ s, R s s [])
    (htrans : ∀ {s s' s'' : TileResidentSet} {went went' : List String},
      R s s' went → R s' s'' went' → R s s'' (went ++ went'))
    (hdrop : ∀ {s : TileResidentSet} {k : String} {entry : TileEntry},
      s.tiles.get k = some entry → isProtected k = false →
        R s (s.dropTile isProtected k entry).1 [k]) (n : Nat) (s : TileResidentSet) (k : String) :
    R s (evictWithin isProtected n s k).1 (evictWithin isProtected n s k).2 := by
  induction n generalizing s k with
  | zero => exact hrefl s
  | succ n ih =>
    cases hk : s.tiles.get k with
    | none =>
      rw [evictWithin_none (n + 1) hk]
      exact hrefl s
    | some entry =>
      cases hprot : isProtected k with
      | true =>
        rw [evictWithin_protected (n + 1) hprot]
        exact hrefl s
      | false =>
        rw [evictWithin_succ n hk hprot]
        exact evictEach_relates htrans ih _ _ (hdrop hk hprot)

end

/-! ### The tiles that went -/

/-- From the first set to the second exactly the tiles of the list went, none of them protected. -/
structure Removes (isProtected : String → Bool) (s s' : TileResidentSet) (went : List String) :
    Prop where
  nodup : went.Nodup
  mem : ∀ t, t ∈ went ↔ s.tiles.get t ≠ none ∧ s'.tiles.get t = none
  fewer : ∀ t, s.tiles.get t = none → s'.tiles.get t = none
  free : ∀ t ∈ went, isProtected t = false
  size : s'.tiles.size ≤ s.tiles.size

namespace Removes

theorem refl (s : TileResidentSet) : Removes isProtected s s [] where
  nodup := List.nodup_nil
  mem _ := ⟨nofun, fun h => absurd h.2 h.1⟩
  fewer _ h := h
  free := nofun
  size := Nat.le_refl _

theorem trans {went went' : List String} (h : Removes isProtected s s' went)
    (h' : Removes isProtected s' s'' went') : Removes isProtected s s'' (went ++ went') where
  nodup := by
    refine List.Nodup.append h.nodup h'.nodup ?_
    intro t ht ht'
    exact ((h'.mem t).1 ht').1 ((h.mem t).1 ht).2
  mem t := by
    rw [List.mem_append, h.mem, h'.mem]
    constructor
    · intro hor
      rcases hor with ht | ht
      · exact ⟨ht.1, h'.fewer t ht.2⟩
      · exact ⟨fun hnone => ht.1 (h.fewer t hnone), ht.2⟩
    · intro ht
      by_cases hmid : s'.tiles.get t = none
      · exact Or.inl ⟨ht.1, hmid⟩
      · exact Or.inr ⟨hmid, ht.2⟩
  fewer t ht := h'.fewer t (h.fewer t ht)
  free t ht := (List.mem_append.1 ht).elim (h.free t) (h'.free t)
  size := Nat.le_trans h'.size h.size

/-- A protected tile stays. -/
theorem stays {went : List String} (h : Removes isProtected s s' went) {t : String}
    (ht : isProtected t = true) (hres : s.tiles.get t ≠ none) : s'.tiles.get t ≠ none := by
  intro hnone
  have hfree := h.free t ((h.mem t).2 ⟨hres, hnone⟩)
  rw [ht] at hfree
  cases hfree

theorem dropTile {entry : TileEntry} (hk : s.tiles.get k = some entry)
    (hprot : isProtected k = false) :
    Removes isProtected s (s.dropTile isProtected k entry).1 [k] where
  nodup := List.nodup_singleton k
  mem t := by
    rw [List.mem_singleton, get_dropTile]
    constructor
    · intro ht
      rw [ht, hk]
      exact ⟨nofun, Or.inl rfl⟩
    · exact fun h => h.2.resolve_right h.1
  fewer t ht := (get_dropTile t).2 (Or.inr ht)
  free t ht := List.mem_singleton.1 ht ▸ hprot
  size := Nat.le_of_lt (size_dropTile isProtected hk)

/-- An eviction names the tiles that went. -/
theorem evictWithin (n : Nat) (s : TileResidentSet) (k : String) :
    Removes isProtected s (evictWithin isProtected n s k).1 (evictWithin isProtected n s k).2 :=
  evictWithin_relates refl (fun h h' => h.trans h') dropTile n s k

end Removes

/-! ### Enough steps -/

theorem evictEach_congr {n m : Nat}
    (hone : ∀ s t, s.tiles.size ≤ n → s.tiles.size ≤ m →
      evictWithin isProtected n s t = evictWithin isProtected m s t) (ts : List String)
    {acc : Cascade} (hn : acc.1.tiles.size ≤ n) (hm : acc.1.tiles.size ≤ m) :
    evictEach isProtected n ts acc = evictEach isProtected m ts acc := by
  induction ts generalizing acc with
  | nil => rfl
  | cons t ts ih =>
    have hsize := (@Removes.evictWithin isProtected n acc.1 t).size
    have hsame := hone acc.1 t hn hm
    rw [evictEach, evictEach, List.foldl_cons, List.foldl_cons, ← evictEach, ← evictEach, ← hsame]
    exact ih (Nat.le_trans hsize hn) (Nat.le_trans hsize hm)

/-- More steps than there are tiles change nothing: none is cut short. -/
theorem evictWithin_fuel {n m : Nat} (hn : s.tiles.size ≤ n) (hm : s.tiles.size ≤ m) :
    evictWithin isProtected n s k = evictWithin isProtected m s k := by
  induction n generalizing m s k with
  | zero =>
    have hnone := get_eq_none_of_size hn k
    rw [evictWithin_none 0 hnone, evictWithin_none m hnone]
  | succ n ih =>
    cases m with
    | zero =>
      have hnone := get_eq_none_of_size hm k
      rw [evictWithin_none (n + 1) hnone, evictWithin_none 0 hnone]
    | succ m =>
      cases hk : s.tiles.get k with
      | none => rw [evictWithin_none (n + 1) hk, evictWithin_none (m + 1) hk]
      | some entry =>
        cases hprot : isProtected k with
        | true => rw [evictWithin_protected (n + 1) hprot, evictWithin_protected (m + 1) hprot]
        | false =>
          have hsize := size_dropTile isProtected hk
          rw [evictWithin_succ n hk hprot, evictWithin_succ m hk hprot]
          exact evictEach_congr (fun s t hn hm => ih hn hm) _
            (Nat.le_of_lt_succ (Nat.lt_of_lt_of_le hsize hn))
            (Nat.le_of_lt_succ (Nat.lt_of_lt_of_le hsize hm))

/-! ### What an eviction keeps -/

section

variable {Q : (String → Prop) → TileResidentSet → Prop} {pending : String → Prop}

/-- Tiles are evicted one after the other, each by what is known of one. -/
theorem foldl_evict_keeps {n : Nat}
    (hmono : ∀ {pending pending' : String → Prop} {s : TileResidentSet}, Q pending s →
      (∀ t e, s.tiles.get t = some e → pending t → pending' t) → Q pending' s)
    (hone : ∀ {s : TileResidentSet} {k : String} {pending : String → Prop}, s.tiles.size ≤ n →
      isProtected k = false → Q (fun t => pending t ∨ t = k) s →
      Q pending (evictWithin isProtected n s k).1)
    {ts : List String} (hprot : ∀ t ∈ ts, isProtected t = false) (hn : s.tiles.size ≤ n)
    (h : Q (fun t => pending t ∨ t ∈ ts) s) :
    Q pending (ts.foldl (fun s t => (evictWithin isProtected n s t).1) s) := by
  induction ts generalizing s with
  | nil =>
    refine hmono h ?_
    intro t e he hpend
    exact hpend.resolve_right List.not_mem_nil
  | cons t ts ih =>
    have hfirst : Q (fun u => (pending u ∨ u ∈ ts) ∨ u = t) s := by
      refine hmono h ?_
      intro u e he hpend
      rcases hpend with hpend | hmem
      · exact Or.inl (Or.inl hpend)
      · rcases List.mem_cons.1 hmem with heq | hmem
        · exact Or.inr heq
        · exact Or.inl (Or.inr hmem)
    exact ih (fun u hu => hprot u (List.mem_cons_of_mem t hu))
      (Nat.le_trans (Removes.evictWithin n s t).size hn)
      (hone hn (hprot t List.mem_cons_self) hfirst)

/-- What dropping a tile keeps, with the tiles to go into pending, an eviction keeps, with none of
them pending any more. -/
theorem evictWithin_keeps
    (hmono : ∀ {pending pending' : String → Prop} {s : TileResidentSet}, Q pending s →
      (∀ t e, s.tiles.get t = some e → pending t → pending' t) → Q pending' s)
    (hdrop : ∀ {pending : String → Prop} {s : TileResidentSet} {k : String} {entry : TileEntry},
      Q (fun t => pending t ∨ t = k) s → s.tiles.get k = some entry →
      Q (fun t => pending t ∨ t ∈ (s.dropTile isProtected k entry).2)
        (s.dropTile isProtected k entry).1)
    (n : Nat) (hn : s.tiles.size ≤ n) (hprot : isProtected k = false)
    (h : Q (fun t => pending t ∨ t = k) s) : Q pending (evictWithin isProtected n s k).1 := by
  induction n generalizing s k pending with
  | zero =>
    rw [evictWithin_none 0 (get_eq_none_of_size hn k)]
    refine hmono h ?_
    intro t e he
    rw [get_eq_none_of_size hn] at he
    cases he
  | succ n ih =>
    cases hk : s.tiles.get k with
    | none =>
      rw [evictWithin_none (n + 1) hk]
      refine hmono h ?_
      intro t e he hpend
      refine hpend.resolve_right ?_
      intro ht
      rw [ht, hk] at he
      cases he
    | some entry =>
      have hsize := size_dropTile isProtected hk
      rw [evictWithin_some n hk hprot]
      have hcascade : Q
          (fun t => pending t ∨ t ∈ (s.dropTile isProtected k entry).2.filter fun t => t ≠ k)
          (s.dropTile isProtected k entry).1 := by
        refine hmono (hdrop h hk) ?_
        intro t e he hpend
        refine hpend.imp_right ?_
        intro hmem
        refine List.mem_filter.2 ⟨hmem, decide_eq_true ?_⟩
        intro ht
        rw [ht, (get_dropTile k).2 (Or.inl rfl)] at he
        cases he
      exact foldl_evict_keeps hmono (fun hn hprot h => ih hn hprot h)
        (fun t ht => ((drops_dropTile s isProtected k entry).freed t (List.mem_filter.1 ht).1).1)
        (by omega) hcascade

end

end TileResidentSet

end SpatialIde.Shell.Canvas
