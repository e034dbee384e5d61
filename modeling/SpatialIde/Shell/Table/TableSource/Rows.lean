import SpatialIde.Shell.Table.TableSource

/-! # Reading a row of the table

The blocks held follow each other, and a row is found by the block it is in.
-/

namespace SpatialIde.Shell.Table

open Canvas

/-! ### Reading a row -/

/-- The rows of a block: the ids, each with its values. -/
def Block.rows (ipc : Ipc) (block : Block) : List (UInt64 × Except DecodeError AttributeRow) :=
  block.ids.mapIdx fun i id => (id, block.readRow ipc i)

def rowsOf (ipc : Ipc) (blocks : List Block) : List (UInt64 × Except DecodeError AttributeRow) :=
  blocks.flatMap (Block.rows ipc)

def countOf (blocks : List Block) : Nat := (blocks.map fun b => b.ids.length).sum

theorem countOf_append (blocks more : List Block) :
    countOf (blocks ++ more) = countOf blocks + countOf more := by
  rw [countOf, List.map_append, List.sum_append]
  rfl

theorem length_rowsOf (ipc : Ipc) (blocks : List Block) :
    (rowsOf ipc blocks).length = countOf blocks := by
  induction blocks with
  | nil => rfl
  | cons b blocks ih =>
    rw [rowsOf, List.flatMap_cons, List.length_append, ← rowsOf, ih, Block.rows, List.length_mapIdx]
    rfl

theorem map_fst_rowsOf (ipc : Ipc) (blocks : List Block) :
    (rowsOf ipc blocks).map Prod.fst = blocks.flatMap Block.ids := by
  induction blocks with
  | nil => rfl
  | cons b blocks ih =>
    have hrows : (b.rows ipc).map Prod.fst = b.ids := by
      refine List.ext_getElem? fun i => ?_
      simp [Block.rows, Function.comp_def]
    rw [rowsOf, List.flatMap_cons, List.map_append, ← rowsOf, ih, hrows]
    rfl

/-- The fields that hold the rows agree with each other and stay within the ceiling. -/
structure Rows (blocks : List Block) (starts : List Nat) (idSet : Finset UInt64)
    (count held : Nat) : Prop where
  length_starts : starts.length = blocks.length
  starts_eq : ∀ k < blocks.length, starts[k]? = some (countOf (blocks.take k))
  count_eq : count = countOf blocks
  idSet_eq : idSet = (blocks.flatMap Block.ids).toFinset
  held_eq : held = (blocks.map Block.bytes).sum
  within : held ≤ TABLE_MAX_ATTRIBUTE_BYTES

theorem rows_nil : Rows [] [] ∅ 0 0 :=
  ⟨rfl, nofun, rfl, rfl, rfl, Nat.zero_le _⟩

theorem Rows.push {blocks : List Block} {starts : List Nat} {idSet : Finset UInt64}
    {count held : Nat} (h : Rows blocks starts idSet count held) {block : Block}
    (hwithin : held + block.bytes ≤ TABLE_MAX_ATTRIBUTE_BYTES) :
    Rows (blocks ++ [block]) (starts ++ [count]) (idSet ∪ block.ids.toFinset)
      (count + block.ids.length) (held + block.bytes) where
  length_starts := by simp [h.length_starts]
  starts_eq := by
    intro k hk
    rw [List.length_append, List.length_singleton] at hk
    by_cases hlast : k = blocks.length
    · rw [hlast, ← h.length_starts, List.getElem?_concat_length, h.length_starts,
        List.take_left, h.count_eq]
    · have hlt : k < blocks.length := by omega
      rw [List.getElem?_append_left (by rw [h.length_starts]; exact hlt), h.starts_eq k hlt,
        List.take_append_of_le_length (Nat.le_of_lt hlt)]
  count_eq := by rw [countOf_append, ← h.count_eq]; simp [countOf]
  idSet_eq := by rw [h.idSet_eq]; simp [List.toFinset_append]
  held_eq := by rw [h.held_eq]; simp
  within := hwithin

/-- The loop finds the last block that starts at the row or before it. -/
theorem blockOf_spec (starts : List Nat) (index : Nat) (n : Nat) :
    TableSnapshot.blockOf starts index n ≤ n ∧
      (TableSnapshot.blockOf starts index n = 0 ∨
        starts.getD (TableSnapshot.blockOf starts index n) 0 ≤ index) ∧
      ∀ j, TableSnapshot.blockOf starts index n < j → j ≤ n → index < starts.getD j 0 := by
  induction n with
  | zero =>
    refine ⟨Nat.le_refl _, .inl rfl, fun j hj hn => ?_⟩
    exact absurd (Nat.lt_of_lt_of_le hj hn) (Nat.lt_irrefl _)
  | succ n ih =>
    rw [TableSnapshot.blockOf]
    split
    · next hlt =>
      obtain ⟨hle, hfound, hpast⟩ := ih
      refine ⟨Nat.le_succ_of_le hle, hfound, fun j hj hn => ?_⟩
      rcases Nat.lt_or_ge n j with hnj | hnj
      · rw [Nat.le_antisymm hn hnj]
        exact hlt
      · exact hpast j hj hnj
    · next hge =>
      refine ⟨Nat.le_refl _, .inr (Nat.le_of_not_lt hge), fun j hj hn => ?_⟩
      exact absurd (Nat.lt_of_lt_of_le hj hn) (Nat.lt_irrefl _)

/-- The rows of a list of blocks, from the block a row is in. -/
theorem getElem?_rowsOf {ipc : Ipc} {blocks : List Block} {block : Block} {k index : Nat}
    (hblock : blocks[k]? = some block) (hfrom : countOf (blocks.take k) ≤ index)
    (hto : index - countOf (blocks.take k) < block.ids.length) :
    (rowsOf ipc blocks)[index]? = (block.rows ipc)[index - countOf (blocks.take k)]? := by
  obtain ⟨hk, hget⟩ := List.getElem?_eq_some_iff.1 hblock
  have hsplit : blocks = blocks.take k ++ block :: blocks.drop (k + 1) := by
    rw [← hget, List.cons_getElem_drop_succ, List.take_append_drop]
  have hrows : rowsOf ipc blocks =
      rowsOf ipc (blocks.take k) ++ (block.rows ipc ++ rowsOf ipc (blocks.drop (k + 1))) := by
    conv_lhs => rw [hsplit]
    rw [rowsOf, List.flatMap_append, List.flatMap_cons]
    rfl
  rw [hrows, List.getElem?_append_right (by rw [length_rowsOf]; exact hfrom), length_rowsOf,
    List.getElem?_append_left (by rw [Block.rows, List.length_mapIdx]; exact hto)]

/-- A row below the count is read where it lies. -/
theorem Rows.rowAt_eq {t : TableSnapshot} {held : Nat} (ipc : Ipc)
    (h : Rows t.blocks t.starts t.ids t.count held) {index : Nat}
    {row : UInt64 × Except DecodeError AttributeRow}
    (hrow : (rowsOf ipc t.blocks)[index]? = some row) :
    t.rowAt ipc index = row.2.map fun values => (some row.1, values) := by
  obtain ⟨hindex, -⟩ := List.getElem?_eq_some_iff.1 hrow
  rw [length_rowsOf] at hindex
  obtain ⟨hle, hfound, hpast⟩ := blockOf_spec t.starts index (t.starts.length - 1)
  rw [TableSnapshot.rowAt]
  generalize TableSnapshot.blockOf t.starts index (t.starts.length - 1) = k at hle hfound hpast
  have hpos : 0 < t.blocks.length := by
    rcases hnil : t.blocks with _ | ⟨b, blocks⟩
    · rw [hnil] at hindex
      cases hindex
    · exact Nat.zero_lt_succ _
  rw [h.length_starts] at hle hpast
  have hk : k < t.blocks.length := by omega
  have hstart : t.starts.getD k 0 = countOf (t.blocks.take k) := by
    rw [List.getD_eq_getElem?_getD, h.starts_eq k hk]
    rfl
  have hfrom : countOf (t.blocks.take k) ≤ index := by
    rcases hfound with rfl | hfound
    · exact Nat.zero_le _
    · rw [← hstart]
      exact hfound
  have hnext : countOf (t.blocks.take (k + 1)) =
      countOf (t.blocks.take k) + t.blocks[k].ids.length := by
    rw [List.take_succ_eq_append_getElem hk, countOf_append]
    rfl
  have hend : index < countOf (t.blocks.take (k + 1)) := by
    rcases Nat.lt_or_ge (k + 1) t.blocks.length with hlast | hlast
    · have hlt := hpast (k + 1) (Nat.lt_succ_self k) (by omega)
      rw [List.getD_eq_getElem?_getD, h.starts_eq (k + 1) hlast] at hlt
      exact hlt
    · rw [List.take_of_length_le hlast]
      exact hindex
  have hto : index - countOf (t.blocks.take k) < t.blocks[k].ids.length := by omega
  have hblock : t.blocks[k]? = some t.blocks[k] := List.getElem?_eq_getElem hk
  rw [getElem?_rowsOf hblock hfrom hto, Block.rows, List.getElem?_mapIdx,
    List.getElem?_eq_getElem hto] at hrow
  cases hrow
  simp only [hblock, hstart]
  rw [List.getElem?_eq_getElem hto]

end SpatialIde.Shell.Table
