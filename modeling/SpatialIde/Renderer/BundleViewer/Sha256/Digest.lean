import Mathlib.Data.List.GetD
import SpatialIde.Renderer.BundleViewer.Sha256

/-! # The viewer's hash is SHA-256

An operator of JavaScript is an operation on words (`bits_ushr` and its kin), so `compress` is the
compression of a block (`compress_eq`).  `Holds s m` says that the state stands behind the message
`m`: its blocks compressed, the rest in the buffer and its length in bits.  `update` keeps it, and
`digestHex` pads the rest as the standard pads the message.
-/

namespace SpatialIde.Renderer.BundleViewer.Sha256

open Lib Lib.Sha256
open SpatialIde.Shell.Streaming (number)

/-! ### Words -/

/-- The number that a word is in an unsigned array. -/
def unsigned (w : Word) : Int := w.toNat

@[simp] theorem bits_unsigned (w : Word) : bits (unsigned w) = w := by
  rw [bits, unsigned, BitVec.ofInt_natCast, BitVec.ofNat_toNat, BitVec.setWidth_eq]

@[simp] theorem bits_ushr (x : Int) (n : Nat) : bits (ushr x n) = bits x >>> (n % 32) :=
  bits_unsigned _

@[simp] theorem bits_shl (x : Int) (n : Nat) : bits (shl x n) = bits x <<< (n % 32) :=
  BitVec.ofInt_toInt

@[simp] theorem bits_bor (x y : Int) : bits (bor x y) = bits x ||| bits y := BitVec.ofInt_toInt

@[simp] theorem bits_band (x y : Int) : bits (band x y) = bits x &&& bits y := BitVec.ofInt_toInt

@[simp] theorem bits_bxor (x y : Int) : bits (bxor x y) = bits x ^^^ bits y := BitVec.ofInt_toInt

@[simp] theorem bits_bnot (x : Int) : bits (bnot x) = ~~~bits x := BitVec.ofInt_toInt

@[simp] theorem bits_add (x y : Int) : bits (x + y) = bits x + bits y := BitVec.ofInt_add x y

theorem ushr_zero (x : Int) : ushr x 0 = unsigned (bits x) := rfl

theorem bits_rotr {n : Nat} (h₀ : 0 < n) (h : n < 32) (x : Int) :
    bits (rotr x n) = Lib.Sha256.rotr n (bits x) := by
  rw [rotr, bits_bor, bits_ushr, bits_shl, Nat.mod_eq_of_lt h, Nat.mod_eq_of_lt (by omega)]
  rfl

theorem bits_sigma0 (x : Int) :
    bits (bxor (bxor (rotr x 7) (rotr x 18)) (ushr x 3)) = sigma0 (bits x) := by
  rw [bits_bxor, bits_bxor, bits_rotr (by decide) (by decide), bits_rotr (by decide) (by decide),
    bits_ushr]
  rfl

theorem bits_sigma1 (x : Int) :
    bits (bxor (bxor (rotr x 17) (rotr x 19)) (ushr x 10)) = sigma1 (bits x) := by
  rw [bits_bxor, bits_bxor, bits_rotr (by decide) (by decide), bits_rotr (by decide) (by decide),
    bits_ushr]
  rfl

theorem bits_bigSigma0 (x : Int) :
    bits (bxor (bxor (rotr x 2) (rotr x 13)) (rotr x 22)) = bigSigma0 (bits x) := by
  rw [bits_bxor, bits_bxor, bits_rotr (by decide) (by decide), bits_rotr (by decide) (by decide),
    bits_rotr (by decide) (by decide)]
  rfl

theorem bits_bigSigma1 (x : Int) :
    bits (bxor (bxor (rotr x 6) (rotr x 11)) (rotr x 25)) = bigSigma1 (bits x) := by
  rw [bits_bxor, bits_bxor, bits_rotr (by decide) (by decide), bits_rotr (by decide) (by decide),
    bits_rotr (by decide) (by decide)]
  rfl

theorem getD_unsigned (w : List Word) (i : Nat) :
    (w.map unsigned).getD i 0 = unsigned (w.getD i 0) :=
  List.getD_map w 0 unsigned

theorem K_eq : K = Lib.Sha256.K.map unsigned := by decide +kernel

/-! ### The compression of a block -/

theorem toNat_bits_byteAt (data : List UInt8) (j : Nat) :
    (bits (byteAt data j)).toNat = (data.getD j 0).toNat := by
  have hlt := (data.getD j 0).toNat_lt
  rw [bits, byteAt, BitVec.ofInt_natCast, BitVec.toNat_ofNat]
  omega

/-- Four bytes put side by side are a number of four bytes. -/
theorem or_bytes (a b c d : Word) (ha : a.toNat < 256) (hb : b.toNat < 256) (hc : c.toNat < 256)
    (hd : d.toNat < 256) : (a <<< 24 ||| b <<< 16 ||| c <<< 8 ||| d).toNat =
      ((a.toNat * 256 + b.toNat) * 256 + c.toNat) * 256 + d.toNat := by
  have hshift : ∀ (x : Word) (k : Nat), x.toNat * 2 ^ k < 2 ^ 32 →
      (x <<< k).toNat = 2 ^ k * x.toNat := by
    intro x k hx
    rw [BitVec.toNat_shiftLeft, Nat.shiftLeft_eq, Nat.mod_eq_of_lt hx, Nat.mul_comm]
  rw [BitVec.toNat_or, BitVec.toNat_or, BitVec.toNat_or, hshift a 24 (by omega),
    hshift b 16 (by omega), hshift c 8 (by omega), ← Nat.two_pow_add_eq_or_of_lt (by omega),
    show 2 ^ 24 * a.toNat + 2 ^ 16 * b.toNat = 2 ^ 16 * (a.toNat * 256 + b.toNat) by omega,
    ← Nat.two_pow_add_eq_or_of_lt (by omega),
    show 2 ^ 16 * (a.toNat * 256 + b.toNat) + 2 ^ 8 * c.toNat =
      2 ^ 8 * ((a.toNat * 256 + b.toNat) * 256 + c.toNat) by omega,
    ← Nat.two_pow_add_eq_or_of_lt (by omega)]
  omega

theorem take_four {data : List UInt8} {j : Nat} (h : j + 4 ≤ data.length) :
    (data.drop j).take 4 =
      [data.getD j 0, data.getD (j + 1) 0, data.getD (j + 2) 0, data.getD (j + 3) 0] := by
  have hget : ∀ k, k < 4 → (data.drop j)[k]? = some (data.getD (j + k) 0) := by
    intro k hk
    rw [List.getElem?_drop, List.getD_eq_getElem?_getD,
      List.getElem?_eq_getElem (by omega : j + k < data.length)]
    rfl
  refine List.ext_getElem? fun k => ?_
  rw [List.getElem?_take]
  match k with
  | 0 => exact hget 0 (by omega)
  | 1 => exact hget 1 (by omega)
  | 2 => exact hget 2 (by omega)
  | 3 => exact hget 3 (by omega)
  | _ + 4 => rfl

section

variable {data : List UInt8} {offset : Nat}

/-- The block at a place of a run of bytes. -/
def blockAt (data : List UInt8) (offset : Nat) : List UInt8 := (data.drop offset).take 64

theorem wordAt_blockAt (h : offset + 64 ≤ data.length) {i : Nat} (hi : i < 16) :
    wordAt (blockAt data offset) i = BitVec.ofNat 32
      ((((data.getD (offset + i * 4) 0).toNat * 256 + (data.getD (offset + i * 4 + 1) 0).toNat) * 256 +
        (data.getD (offset + i * 4 + 2) 0).toNat) * 256 +
        (data.getD (offset + i * 4 + 3) 0).toNat) := by
  have hfour : ((blockAt data offset).drop (4 * i)).take 4 = (data.drop (offset + i * 4)).take 4 := by
    rw [blockAt, List.drop_take, List.take_take, List.drop_drop, Nat.mul_comm 4 i,
      Nat.min_eq_left (by omega)]
  rw [wordAt, hfour, take_four (by omega)]
  congr 1
  simp only [valueOf, Bool.false_eq_true, if_false, List.reverse_cons, List.reverse_nil,
    List.nil_append, List.cons_append, leValue]
  omega

theorem load_eq (h : offset + 64 ≤ data.length) :
    load data offset = ((List.range 16).map (wordAt (blockAt data offset))).map unsigned := by
  rw [load, List.map_map]
  refine List.map_congr_left fun i hi => ?_
  rw [List.mem_range] at hi
  dsimp only [Function.comp]
  rw [ushr_zero, wordAt_blockAt h hi]
  refine congrArg unsigned (BitVec.eq_of_toNat_eq ?_)
  have hlt : ∀ j, (bits (byteAt data j)).toNat < 256 := by
    intro j
    rw [toNat_bits_byteAt]
    exact UInt8.toNat_lt _
  simp only [bits_bor, bits_shl]
  rw [or_bytes _ _ _ _ (hlt _) (hlt _) (hlt _) (hlt _)]
  simp only [toNat_bits_byteAt, BitVec.toNat_ofNat]
  have hbytes : ∀ j, (data.getD j 0).toNat < 256 := fun j => UInt8.toNat_lt _
  have h₀ := hbytes (offset + i * 4)
  have h₁ := hbytes (offset + i * 4 + 1)
  have h₂ := hbytes (offset + i * 4 + 2)
  have h₃ := hbytes (offset + i * 4 + 3)
  omega

end

theorem schedule_input (block : List UInt8) {t : Nat} (h : t ≤ 16) :
    schedule block t = (List.range t).map (wordAt block) := by
  induction t with
  | zero => rfl
  | succ t ih =>
    rw [schedule, ih (by omega), if_pos (by omega), List.range_succ, List.map_append]
    rfl

theorem extend_eq (block : List UInt8) {i : Nat} (h : 16 ≤ i) :
    extend ((schedule block i).map unsigned) i = (schedule block (i + 1)).map unsigned := by
  rw [schedule, if_neg (by omega), List.map_append, extend]
  simp only [getD_unsigned]
  congr 1
  show [_] = [_]
  rw [ushr_zero, bits_add, bits_add, bits_add, bits_sigma0, bits_sigma1]
  simp only [bits_unsigned]
  refine congrArg (fun w => [unsigned w]) ?_
  ac_rfl

theorem foldl_extend (block : List UInt8) (n : Nat) :
    (List.range' 16 n).foldl extend ((schedule block 16).map unsigned) =
      (schedule block (16 + n)).map unsigned := by
  induction n with
  | zero => rfl
  | succ n ih =>
    rw [List.range'_1_concat, List.foldl_append, ih]
    exact extend_eq block (Nat.le_add_right 16 n)

theorem entries_eq {data : List UInt8} {offset : Nat} (h : offset + 64 ≤ data.length) :
    entries data offset = (schedule (blockAt data offset) 64).map unsigned := by
  rw [entries, load_eq h, ← schedule_input _ (Nat.le_refl 16)]
  exact foldl_extend _ 48

theorem turn_eq (w : List Word) (r : Regs Word) (i : Nat) :
    turn (w.map unsigned) (r.map unsigned) i =
      (Lib.Sha256.round (Lib.Sha256.K.getD i 0) (w.getD i 0) r).map unsigned := by
  have ht1 : bits ((r.map unsigned).h + bxor (bxor (rotr (r.map unsigned).e 6)
      (rotr (r.map unsigned).e 11)) (rotr (r.map unsigned).e 25) +
      bxor (band (r.map unsigned).e (r.map unsigned).f)
        (band (bnot (r.map unsigned).e) (r.map unsigned).g) + K.getD i 0 +
      (w.map unsigned).getD i 0) =
      r.h + bigSigma1 r.e + ch r.e r.f r.g + Lib.Sha256.K.getD i 0 + w.getD i 0 := by
    rw [K_eq, getD_unsigned, getD_unsigned, bits_add, bits_add, bits_add, bits_add, bits_bigSigma1]
    simp only [bits_bxor, bits_band, bits_bnot, bits_unsigned, Regs.map, ch]
  have ht2 : bits (bxor (bxor (rotr (r.map unsigned).a 2) (rotr (r.map unsigned).a 13))
      (rotr (r.map unsigned).a 22) + bxor (bxor (band (r.map unsigned).a (r.map unsigned).b)
        (band (r.map unsigned).a (r.map unsigned).c)) (band (r.map unsigned).b (r.map unsigned).c)) =
      bigSigma0 r.a + maj r.a r.b r.c := by
    rw [bits_add, bits_bigSigma0]
    simp only [bits_bxor, bits_band, bits_unsigned, Regs.map, maj]
  rw [turn]
  rw [ushr_zero, ushr_zero, ushr_zero, ushr_zero, ht1, ht2]
  simp only [bits_add, bits_unsigned]
  simp only [Lib.Sha256.round, Regs.map, bits_unsigned]

/-- **`compress` is the compression of a block.** -/
theorem compress_eq {data : List UInt8} {offset : Nat} (h : offset + 64 ≤ data.length)
    (digest : Regs Word) : compress (digest.map unsigned) data offset =
      (Lib.Sha256.compress digest (blockAt data offset)).map unsigned := by
  rw [compress, entries_eq h]
  rw [List.foldl_hom (fun r : Regs Word => r.map unsigned) fun r i => turn_eq _ r i,
    Lib.Sha256.compress]
  simp only [Regs.zipWith, Regs.map, ushr_zero, bits_add, bits_unsigned]

/-! ### Whole blocks of a piece -/

theorem absorb_eq {data : List UInt8} {fuel offset : Nat}
    (hfuel : data.length < offset + 64 * (fuel + 1)) (hoffset : offset ≤ data.length)
    (digest : Regs Word) : ∃ offset', absorb data fuel (digest.map unsigned) offset =
      (((blocksOf 64 (data.drop offset)).foldl Lib.Sha256.compress digest).map unsigned, offset') ∧
      offset' ≤ data.length ∧ data.drop offset' = leftOver 64 (data.drop offset) := by
  induction fuel generalizing offset digest with
  | zero =>
    have hshort : (data.drop offset).length < 64 := by
      rw [List.length_drop]
      omega
    rw [blocksOf_short hshort, leftOver_short hshort]
    exact ⟨offset, rfl, hoffset, rfl⟩
  | succ fuel ih =>
    rw [absorb]
    split_ifs with hblock
    · have hle : 64 ≤ (data.drop offset).length := by
        rw [List.length_drop]
        omega
      rw [compress_eq hblock, blocksOf_cons (by decide) hle, leftOver_drop (by decide) hle,
        List.drop_drop]
      exact ih (by omega) hblock _
    · have hshort : (data.drop offset).length < 64 := by
        rw [List.length_drop]
        omega
      rw [blocksOf_short hshort, leftOver_short hshort]
      exact ⟨offset, rfl, hoffset, rfl⟩

/-! ### The state behind a message -/

/-- The complete blocks of the message are compressed and the rest is in the buffer. -/
structure Buffers (s : Sha256) (m : List UInt8) : Prop where
  h : s.h = ((blocksOf 64 m).foldl Lib.Sha256.compress initial).map unsigned
  block : s.block.length = 64
  blockLen : s.blockLen = (leftOver 64 m).length
  pending : s.block.take s.blockLen = leftOver 64 m

theorem buffers_new : Buffers new [] where
  h := by decide
  block := List.length_replicate
  blockLen := rfl
  pending := rfl

section

variable {s : Sha256} {m data : List UInt8}

theorem Buffers.blockLen_lt (hs : Buffers s m) : s.blockLen < 64 := by
  rw [hs.blockLen]
  exact length_leftOver_lt (by decide)

/-- The buffer takes as much of a piece as it has room for. -/
theorem buffers_fill (hs : Buffers s m) (data : List UInt8) :
    Buffers (s.fill data).1 (m ++ data.take (s.fill data).2) ∧ (s.fill data).2 ≤ data.length ∧
      ((s.fill data).1.blockLen = 0 ∨ (s.fill data).2 = data.length) := by
  have hlt := hs.blockLen_lt
  have hblock := hs.block
  rw [fill]
  by_cases hempty : 0 < s.blockLen
  · rw [if_pos hempty]
    generalize hneed : min (64 - s.blockLen) data.length = need
    have htake : (data.take need).length = need := by
      rw [List.length_take]
      omega
    have hset : (setAt s.block (data.take need) s.blockLen).take (s.blockLen + need) =
        leftOver 64 m ++ data.take need := by
      rw [← hs.pending, ← take_setAt (by omega), htake]
    have hlen : (setAt s.block (data.take need) s.blockLen).length = 64 := by
      rw [length_setAt (by omega), hblock]
    have hrest : (leftOver 64 m ++ data.take need).length = s.blockLen + need := by
      rw [List.length_append, htake, hs.blockLen]
    dsimp only
    split_ifs with hfull
    · -- The buffer is full: one more block of the message.
      have hwhole : setAt s.block (data.take need) s.blockLen = leftOver 64 m ++ data.take need := by
        rw [← hset, hfull, ← hlen, List.take_length]
      have hone : blocksOf 64 (leftOver 64 m ++ data.take need) =
          [leftOver 64 m ++ data.take need] := by
        have := blocksOf_block (n := 64) (by decide) (hrest.trans hfull) []
        rwa [List.append_nil] at this
      have hnone : leftOver 64 (leftOver 64 m ++ data.take need) = [] := by
        have := leftOver_block (n := 64) (by decide) (hrest.trans hfull) []
        rwa [List.append_nil] at this
      refine ⟨⟨?_, hlen, ?_, ?_⟩, by omega, .inl rfl⟩
      · have hat : blockAt (setAt s.block (data.take need) s.blockLen) 0 =
            leftOver 64 m ++ data.take need := by
          rw [blockAt, List.drop_zero, List.take_of_length_le (by omega), hwhole]
        show compress s.h _ 0 = _
        rw [hs.h, compress_eq (by omega), hat, blocksOf_append (by decide), hone,
          List.foldl_append]
        rfl
      · rw [leftOver_append (by decide), hnone]
        rfl
      · rw [leftOver_append (by decide), hnone]
        rfl
    · have hshort : (leftOver 64 m ++ data.take need).length < 64 := by omega
      refine ⟨⟨?_, hlen, ?_, ?_⟩, by omega, .inr (by show need = data.length; omega)⟩
      · rw [blocksOf_append (by decide), blocksOf_short hshort, List.append_nil]
        exact hs.h
      · rw [leftOver_append (by decide), leftOver_short hshort, hrest]
      · rw [leftOver_append (by decide), leftOver_short hshort]
        exact hset
  · rw [if_neg hempty]
    refine ⟨?_, Nat.zero_le _, .inl (by show s.blockLen = 0; omega)⟩
    rw [List.take_zero, List.append_nil]
    exact hs

/-- The complete blocks behind it, and what is left in front of the buffer. -/
theorem buffers_rest (hs : Buffers s m) {offset : Nat} (hoffset : offset ≤ data.length)
    (hempty : s.blockLen = 0 ∨ offset = data.length) :
    Buffers (if (absorb data data.length s.h offset).2 < data.length then
        { s with
          h := (absorb data data.length s.h offset).1
          block := setAt s.block (data.drop (absorb data data.length s.h offset).2) 0
          blockLen := data.length - (absorb data data.length s.h offset).2 }
      else { s with h := (absorb data data.length s.h offset).1 }) (m ++ data.drop offset) := by
  obtain ⟨offset', habsorb, hle, hrest⟩ : ∃ offset', absorb data data.length
      (((blocksOf 64 m).foldl Lib.Sha256.compress initial).map unsigned) offset =
        (((blocksOf 64 (data.drop offset)).foldl Lib.Sha256.compress
          ((blocksOf 64 m).foldl Lib.Sha256.compress initial)).map unsigned, offset') ∧
      offset' ≤ data.length ∧ data.drop offset' = leftOver 64 (data.drop offset) :=
    absorb_eq (by omega) hoffset _
  have hlength : data.length - offset' = (leftOver 64 (data.drop offset)).length := by
    rw [← hrest, List.length_drop]
  rw [hs.h, habsorb, ← List.foldl_append]
  dsimp only
  rcases hempty with hempty | hend
  · have hnone : leftOver 64 m = [] := by
      rw [← List.length_eq_zero_iff, ← hs.blockLen, hempty]
    have hblocks : blocksOf 64 (m ++ data.drop offset) =
        blocksOf 64 m ++ blocksOf 64 (data.drop offset) := by
      rw [blocksOf_append (by decide), hnone, List.nil_append]
    have hleft : leftOver 64 (m ++ data.drop offset) = leftOver 64 (data.drop offset) := by
      rw [leftOver_append (by decide), hnone, List.nil_append]
    have hshort : (leftOver 64 (data.drop offset)).length < 64 := length_leftOver_lt (by decide)
    have hblock := hs.block
    split_ifs with hmore
    · refine ⟨by rw [hblocks], ?_, ?_, ?_⟩
      · show (setAt s.block (data.drop offset') 0).length = 64
        rw [length_setAt (by rw [List.length_drop]; omega), hblock]
      · rw [hleft]
        exact hlength
      · show (setAt s.block (data.drop offset') 0).take (data.length - offset') = _
        have htake : (setAt s.block (data.drop offset') 0).take (0 + (data.drop offset').length) =
            s.block.take 0 ++ data.drop offset' := take_setAt (Nat.zero_le _)
        rw [List.length_drop, Nat.zero_add, List.take_zero, List.nil_append] at htake
        rw [htake, hrest, hleft]
    · have hdone : leftOver 64 (data.drop offset) = [] := by
        rw [← List.length_eq_zero_iff, ← hlength]
        omega
      refine ⟨by rw [hblocks], hblock, ?_, ?_⟩
      · rw [hleft, hdone]
        exact hempty
      · show s.block.take s.blockLen = _
        rw [hleft, hdone, hempty]
        rfl
  · have hnil : data.drop offset = [] := by
      rw [hend]
      exact List.drop_length
    have hdone : ¬offset' < data.length := by
      have : (leftOver 64 (data.drop offset)).length = 0 := by
        rw [hnil]
        rfl
      omega
    have hblocks : blocksOf 64 ([] : List UInt8) = [] := rfl
    rw [if_neg hdone, hnil, List.append_nil, hblocks, List.append_nil]
    exact ⟨rfl, hs.block, hs.blockLen, hs.pending⟩

theorem buffers_update (hs : Buffers s m) : Buffers (s.update data) (m ++ data) := by
  have hstart : Buffers { s with totalBits := number (s.totalBits + number (data.length * 8)) } m :=
    ⟨hs.h, hs.block, hs.blockLen, hs.pending⟩
  obtain ⟨hfill, hle, hempty⟩ := buffers_fill hstart data
  have hrest := buffers_rest hfill hle hempty
  rw [List.append_assoc, List.take_append_drop] at hrest
  exact hrest

end

/-! ### The length in bits -/

/-- A multiple of eight is a double up to `2 ^ 56`. -/
theorem number_bits {k : Nat} (h : k ≤ 2 ^ 53) : number (8 * k) = 8 * k := by
  rw [number]
  split_ifs with hsmall
  · rfl
  · have hne : 8 * k ≠ 0 := by omega
    have hdvd : 2 ^ ((8 * k).log2 - 52) ∣ 8 * k := by
      by_cases hlast : k = 2 ^ 53
      · rw [hlast]
        decide
      · have hlog : (8 * k).log2 < 56 := (Nat.log2_lt hne).2 (by omega)
        exact dvd_trans (pow_dvd_pow 2 (by omega : (8 * k).log2 - 52 ≤ 3)) (Dvd.intro k rfl)
    have hpos : 0 < 2 ^ ((8 * k).log2 - 52) := Nat.two_pow_pos _
    dsimp only
    rw [F64.divNearestEven]
    rw [Nat.mod_eq_zero_of_dvd hdvd, if_pos (.inl (by omega))]
    exact Nat.div_mul_cancel hdvd

theorem totalBits_update (s : Sha256) (data : List UInt8) :
    (s.update data).totalBits = number (s.totalBits + number (data.length * 8)) := by
  have hfill : ∀ s : Sha256, (s.fill data).1.totalBits = s.totalBits := by
    intro s
    rw [fill]
    dsimp only
    split_ifs <;> rfl
  rw [update]
  dsimp only
  split_ifs
  · exact hfill _
  · exact hfill _

/-- The state behind a message of at most `2 ^ 53` bytes. -/
structure Holds (s : Sha256) (m : List UInt8) : Prop where
  buffers : Buffers s m
  totalBits : m.length ≤ 2 ^ 53 → s.totalBits = 8 * m.length

theorem holds_update {s : Sha256} {m : List UInt8} (hs : Holds s m) (data : List UInt8) :
    Holds (s.update data) (m ++ data) where
  buffers := buffers_update hs.buffers
  totalBits := by
    intro h
    rw [List.length_append] at h ⊢
    rw [totalBits_update, hs.totalBits (by omega), Nat.mul_comm data.length,
      number_bits (by omega), ← Nat.mul_add, number_bits h]

theorem holds_run {s : Sha256} {m : List UInt8} (hs : Holds s m) (pieces : List (List UInt8)) :
    Holds (pieces.foldl update s) (m ++ pieces.flatten) := by
  induction pieces generalizing s m with
  | nil =>
    rw [List.flatten_nil, List.append_nil]
    exact hs
  | cons data pieces ih =>
    rw [List.flatten_cons, ← List.append_assoc]
    exact ih (holds_update hs data)

/-! ### Padding -/

/-- How many zeros there are in front of the length. -/
def zeros (length : Nat) : Nat := (119 - length % 64) % 64

theorem padding_eq (length : Nat) : padding length =
    0x80 :: (List.replicate (zeros length) 0 ++ bytesOf false 8 (8 * length)) := rfl

section

variable {s : Sha256} {m : List UInt8}

/-- The last blocks: the rest of the message, the mark, zeros and the length in bits. -/
theorem tail_eq (hs : Buffers s m) :
    s.tail = (leftOver 64 m ++ 0x80 :: List.replicate (zeros m.length) 0) ++
      bytesOf false 8 s.totalBits := by
  have hlt := hs.blockLen_lt
  have hlen : s.blockLen = (leftOver 64 m).length := hs.blockLen
  have hmod : s.blockLen = m.length % 64 := by rw [hlen, length_leftOver]
  have hsize : (if s.blockLen < 56 then 64 else 128) = s.blockLen + 1 + zeros m.length + 8 := by
    rw [zeros, ← hmod]
    split_ifs <;> omega
  have hfront : (leftOver 64 m ++ 0x80 :: List.replicate (zeros m.length) 0).length =
      s.blockLen + 1 + zeros m.length := by
    rw [List.length_append, List.length_cons, List.length_replicate, hlen]
    omega
  have hmessage : setAt (List.replicate (s.blockLen + 1 + zeros m.length + 8) 0)
      (s.block.take s.blockLen) 0 =
        leftOver 64 m ++ List.replicate (1 + zeros m.length + 8) (0 : UInt8) := by
    rw [hs.pending, setAt, List.take_zero, List.nil_append, List.drop_replicate, hlen]
    congr 2
    omega
  have hmark : (leftOver 64 m ++ List.replicate (1 + zeros m.length + 8) (0 : UInt8)).set s.blockLen
      0x80 = (leftOver 64 m ++ 0x80 :: List.replicate (zeros m.length) 0) ++ List.replicate 8 0 := by
    rw [hlen, List.set_append_right _ _ (Nat.le_refl _), Nat.sub_self, Nat.add_assoc, Nat.add_comm 1,
      List.replicate_succ, List.set_cons_zero, List.replicate_add, List.append_assoc,
      List.cons_append]
  have htotal : ((leftOver 64 m ++ 0x80 :: List.replicate (zeros m.length) 0) ++
      List.replicate 8 (0 : UInt8)).length = s.blockLen + 1 + zeros m.length + 8 := by
    rw [List.length_append, hfront, List.length_replicate]
  have hhigh : setUint32 ((leftOver 64 m ++ 0x80 :: List.replicate (zeros m.length) 0) ++
      List.replicate 8 0) (s.blockLen + 1 + zeros m.length) (s.totalBits / 0x100000000) =
      (leftOver 64 m ++ 0x80 :: List.replicate (zeros m.length) 0) ++
        bytesOf false 4 (s.totalBits / 0x100000000 % 2 ^ 32) ++ List.replicate 4 0 := by
    rw [setUint32, ← hfront, setAt_append, length_bytesOf]
    rfl
  have hlow : (leftOver 64 m ++ 0x80 :: List.replicate (zeros m.length) 0 ++
      bytesOf false 4 (s.totalBits / 0x100000000 % 2 ^ 32)).length =
      s.blockLen + 1 + zeros m.length + 8 - 4 := by
    rw [List.length_append, hfront, length_bytesOf]
    omega
  -- The two words of the length are the length in eight bytes.
  have hwords : bytesOf false 8 s.totalBits =
      bytesOf false 4 (s.totalBits / 0x100000000 % 2 ^ 32) ++
        bytesOf false 4 (s.totalBits % 2 ^ 32) := bytesOf_add 4 4 s.totalBits
  rw [tail, hsize]
  rw [hmessage, hmark, htotal, show s.blockLen + 1 + zeros m.length + 8 - 8 =
    s.blockLen + 1 + zeros m.length by omega, hhigh, List.length_append, hlow,
    List.length_replicate, Nat.add_sub_cancel, ← hlow, setUint32, setAt_append, length_bytesOf, hwords]
  simp only [List.drop_replicate, Nat.sub_self, List.replicate_zero, List.append_nil,
    List.append_assoc, List.cons_append]

/-- The eight bytes behind the padding. -/
def lengthField (s : Sha256) : List UInt8 := s.tail.drop (s.tail.length - 8)

theorem lengthField_eq (hs : Buffers s m) : lengthField s = bytesOf false 8 s.totalBits := by
  rw [lengthField, tail_eq hs, List.length_append, length_bytesOf, Nat.add_sub_cancel, List.drop_left]

/-- What is compressed last is the rest of the padded message. -/
theorem tail_padding (hs : Holds s m) (h : m.length ≤ 2 ^ 53) :
    s.tail = leftOver 64 m ++ padding m.length := by
  rw [tail_eq hs.buffers, hs.totalBits h, padding_eq, List.append_assoc, List.cons_append]

theorem digest_blocks {data : List UInt8} {n : Nat} (hn : 64 * n ≤ data.length)
    (digest : Regs Word) : (List.range n).foldl (fun h i => compress h data (64 * i))
      (digest.map unsigned) =
      (((List.range n).map fun i => (data.drop (64 * i)).take 64).foldl Lib.Sha256.compress
        digest).map unsigned := by
  induction n with
  | zero => rfl
  | succ n ih =>
    rw [List.range_succ, List.foldl_append, ih (by omega), List.map_append, List.foldl_append]
    exact compress_eq (by omega) _

theorem length_tail (m : List UInt8) : (leftOver 64 m ++ padding m.length).length % 64 = 0 := by
  have hpad := length_pad m
  rw [pad, List.length_append] at hpad
  rw [List.length_append, length_leftOver]
  omega

/-- The words of the digest. -/
theorem digest_words (hs : Holds s m) (h : m.length ≤ 2 ^ 53) :
    (List.range ((s.tail.length + 63) / 64)).foldl (fun h i => compress h s.tail (64 * i)) s.h =
      (digestOf m).map unsigned := by
  have hmod := length_tail m
  rw [tail_padding hs h, hs.buffers.h,
    show ((leftOver 64 m ++ padding m.length).length + 63) / 64 =
      (leftOver 64 m ++ padding m.length).length / 64 by omega,
    digest_blocks (by omega), digestOf, pad, blocksOf_append (by decide), List.foldl_append]
  rfl

end

/-! ### The digest as text -/

/-- A number in hexadecimal digits, padded with zeros. -/
theorem padStart_toDigits : ∀ (k n : Nat), n < 16 ^ (k + 1) →
    padStart (Nat.toDigits 16 n) (k + 1) =
      (List.range (k + 1)).map fun i => Nat.digitChar (n / 16 ^ (k - i) % 16) := by
  intro k
  induction k with
  | zero =>
    intro n hn
    rw [Nat.toDigits_of_lt_base (by omega)]
    have hmod : n % 16 = n := Nat.mod_eq_of_lt (by omega)
    simp [padStart, hmod]
  | succ k ih =>
    intro n hn
    have hdigits : (List.range (k + 1 + 1)).map (fun i => Nat.digitChar (n / 16 ^ (k + 1 - i) % 16)) =
        (List.range (k + 1)).map (fun i => Nat.digitChar (n / 16 / 16 ^ (k - i) % 16)) ++
          [Nat.digitChar (n % 16)] := by
      rw [List.range_succ, List.map_append]
      congr 1
      · refine List.map_congr_left fun i hi => ?_
        rw [List.mem_range] at hi
        rw [Nat.div_div_eq_div_mul, ← pow_succ', show k - i + 1 = k + 1 - i by omega]
      · simp
    rw [hdigits, ← ih (n / 16) (by rw [pow_succ] at hn; omega)]
    by_cases hsmall : n < 16
    · rw [Nat.toDigits_of_lt_base hsmall, Nat.div_eq_of_lt hsmall, Nat.toDigits_zero,
        Nat.mod_eq_of_lt hsmall]
      simp only [padStart, List.length_singleton, Nat.add_sub_cancel]
      rw [List.replicate_succ', List.append_assoc]
    · rw [Nat.toDigits_of_base_le (by decide) (by omega)]
      simp only [padStart, List.length_append, List.length_singleton]
      rw [← List.append_assoc, Nat.add_sub_add_right]

theorem padStart_hex (w : Word) : padStart (toString16 (unsigned w)) 8 = hexWord w :=
  padStart_toDigits 7 w.toNat w.isLt

theorem digestHex_eq {s : Sha256} {m : List UInt8} (hs : Holds s m) (h : m.length ≤ 2 ^ 53) :
    s.digestHex = hex (digestOf m) := by
  rw [digestHex]
  rw [digest_words hs h, Regs.toList_map, List.flatMap_map, hex]
  simp only [padStart_hex]

/-! ### Every way to split a message -/

theorem holds_new : Holds new [] where
  buffers := buffers_new
  totalBits _ := rfl

theorem holds_pieces (pieces : List (List UInt8)) :
    Holds (pieces.foldl update new) pieces.flatten :=
  holds_run holds_new pieces

/-- The first pieces of `n` items. -/
theorem flatten_pieces {α : Type} (l : List α) (n k : Nat) :
    ((List.range k).map fun i => (l.drop (i * n)).take n).flatten = l.take (k * n) := by
  induction k with
  | zero => rw [Nat.zero_mul]; rfl
  | succ k ih =>
    rw [List.range_succ, List.map_append, List.flatten_append, ih, Nat.succ_mul, List.take_add]
    simp

theorem flatten_chunks (bytes : List UInt8) : (chunks bytes).flatten = bytes := by
  rw [chunks, flatten_pieces, List.take_of_length_le]
  rw [HASH_CHUNK_BYTES]
  omega

/-- **The viewer's hash is SHA-256**, in whatever pieces a message of at most `2 ^ 53` bytes comes,
and its length is written exactly. -/
theorem pieces_hashed (pieces : List (List UInt8)) (h : pieces.flatten.length ≤ 2 ^ 53) :
    lengthField (pieces.foldl update new) = bytesOf false 8 (8 * pieces.flatten.length) ∧
      (pieces.foldl update new).digestHex = hex (digestOf pieces.flatten) ∧
      sha256Prefixed pieces.flatten = "sha256:" ++ hex (digestOf pieces.flatten) := by
  have hs := holds_pieces pieces
  have hchunks := holds_pieces (chunks pieces.flatten)
  rw [flatten_chunks] at hchunks
  refine ⟨?_, digestHex_eq hs h, ?_⟩
  · rw [lengthField_eq hs.buffers, hs.totalBits h]
  · rw [sha256Prefixed, digestHex_eq hchunks h]

theorem pieces_hashed_empty_piece :
    lengthField ([[0x61], [], [0x62, 0x63]].foldl update new) = bytesOf false 8 24 ∧
      ([[0x61], [], [0x62, 0x63]].foldl update new).digestHex = hex (digestOf [0x61, 0x62, 0x63]) ∧
      sha256Prefixed [0x61, 0x62, 0x63] = "sha256:" ++ hex (digestOf [0x61, 0x62, 0x63]) :=
  pieces_hashed [[0x61], [], [0x62, 0x63]] (by decide)

/-- The length in bits of a message of more than `2 ^ 53` bytes is rounded: one longer than the
longest array by two bytes is written as one byte shorter than it is. -/
theorem length_rounded :
    ¬(lengthField ([List.replicate (2 ^ 53 - 1) 0, List.replicate 2 0].foldl update new) =
        bytesOf false 8 (8 * [List.replicate (2 ^ 53 - 1) 0,
          List.replicate 2 (0 : UInt8)].flatten.length) ∧
      ([List.replicate (2 ^ 53 - 1) 0, List.replicate 2 0].foldl update new).digestHex =
        hex (digestOf [List.replicate (2 ^ 53 - 1) 0, List.replicate 2 0].flatten)) := by
  rintro ⟨hfield, -⟩
  have hbits : ([List.replicate (2 ^ 53 - 1) 0, List.replicate 2 0].foldl update new).totalBits =
      2 ^ 56 := by
    rw [List.foldl_cons, List.foldl_cons, List.foldl_nil, totalBits_update, totalBits_update,
      List.length_replicate, List.length_replicate]
    decide +kernel
  rw [lengthField_eq (holds_pieces _).buffers, hbits, List.flatten_cons, List.flatten_cons,
    List.flatten_nil, List.length_append, List.length_append, List.length_replicate,
    List.length_replicate] at hfield
  exact absurd hfield (by decide +kernel)

end SpatialIde.Renderer.BundleViewer.Sha256
