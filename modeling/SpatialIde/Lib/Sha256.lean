import SpatialIde.Lib.Bytes

/-! # SHA-256

FIPS 180-4, sections 4.1.2, 4.2.2, 5.1.1, 5.3.3 and 6.2, over messages of whole bytes: the six
functions on words of 32 bits, the constants, the padding, the message schedule and the compression
of a block.
-/

namespace Lib

/-! ### Blocks of a list

The complete blocks of `n` items at the start of a list, and what is left behind the last of them.
A list that grows keeps its blocks: the next ones come from what was left and what is added
(`blocksOf_append`, `leftOver_append`), which is all that a reader that buffers one block has to
know.
-/

section

variable {α : Type} {n : Nat} {l m : List α}

/-- The complete blocks. -/
def blocksOf (n : Nat) (l : List α) : List (List α) :=
  (List.range (l.length / n)).map fun i => (l.drop (n * i)).take n

/-- What is behind the last complete block. -/
def leftOver (n : Nat) (l : List α) : List α := l.drop (n * (l.length / n))

theorem blocksOf_short (h : l.length < n) : blocksOf n l = [] := by
  rw [blocksOf, Nat.div_eq_of_lt h]
  rfl

theorem leftOver_short (h : l.length < n) : leftOver n l = l := by
  rw [leftOver, Nat.div_eq_of_lt h, Nat.mul_zero, List.drop_zero]

theorem length_leftOver : (leftOver n l).length = l.length % n := by
  rw [leftOver, List.length_drop]
  exact Nat.sub_eq_of_eq_add (Nat.mod_add_div l.length n).symm

theorem length_leftOver_lt (hn : 0 < n) : (leftOver n l).length < n := by
  rw [length_leftOver]
  exact Nat.mod_lt _ hn

theorem blocksOf_cons (hn : 0 < n) (h : n ≤ l.length) :
    blocksOf n l = l.take n :: blocksOf n (l.drop n) := by
  have hcount : l.length / n = (l.length - n) / n + 1 := by
    rw [← Nat.sub_add_cancel h, Nat.add_div_right _ hn, Nat.add_sub_cancel]
  rw [blocksOf, hcount, List.range_succ_eq_map, List.map_cons, Nat.mul_zero, List.drop_zero,
    List.map_map, blocksOf, List.length_drop]
  refine congrArg _ (List.map_congr_left fun i _ => ?_)
  show (l.drop (n * (i + 1))).take n = ((l.drop n).drop (n * i)).take n
  rw [List.drop_drop, Nat.mul_add, Nat.mul_one, Nat.add_comm]

theorem leftOver_drop (hn : 0 < n) (h : n ≤ l.length) : leftOver n l = leftOver n (l.drop n) := by
  have hcount : l.length / n = (l.length - n) / n + 1 := by
    rw [← Nat.sub_add_cancel h, Nat.add_div_right _ hn, Nat.add_sub_cancel]
  rw [leftOver, leftOver, List.drop_drop, List.length_drop, hcount, Nat.mul_add, Nat.mul_one,
    Nat.add_comm]

/-- A first block, whatever is behind it. -/
theorem blocksOf_block (hn : 0 < n) (h : l.length = n) (m : List α) :
    blocksOf n (l ++ m) = l :: blocksOf n m := by
  rw [blocksOf_cons hn (by rw [List.length_append]; omega), ← h, List.take_left, List.drop_left]

theorem leftOver_block (hn : 0 < n) (h : l.length = n) (m : List α) :
    leftOver n (l ++ m) = leftOver n m := by
  rw [leftOver_drop hn (by rw [List.length_append]; omega)]
  conv_lhs => rw [← h, List.drop_left, h]

/-- The blocks of a longer list. -/
theorem blocksOf_append (hn : 0 < n) (l m : List α) :
    blocksOf n (l ++ m) = blocksOf n l ++ blocksOf n (leftOver n l ++ m) := by
  induction hlen : l.length using Nat.strong_induction_on generalizing l with
  | _ len ih =>
    by_cases hshort : l.length < n
    · rw [blocksOf_short hshort, leftOver_short hshort, List.nil_append]
    · have hle : n ≤ l.length := Nat.le_of_not_lt hshort
      have hsplit : l ++ m = l.take n ++ (l.drop n ++ m) := by
        rw [← List.append_assoc, List.take_append_drop]
      rw [hsplit, blocksOf_block hn (List.length_take_of_le hle), blocksOf_cons hn hle,
        leftOver_drop hn hle, List.cons_append,
        ih (l.drop n).length (by rw [List.length_drop]; omega) (l.drop n) rfl]

theorem leftOver_append (hn : 0 < n) (l m : List α) :
    leftOver n (l ++ m) = leftOver n (leftOver n l ++ m) := by
  induction hlen : l.length using Nat.strong_induction_on generalizing l with
  | _ len ih =>
    by_cases hshort : l.length < n
    · rw [leftOver_short hshort]
    · have hle : n ≤ l.length := Nat.le_of_not_lt hshort
      have hsplit : l ++ m = l.take n ++ (l.drop n ++ m) := by
        rw [← List.append_assoc, List.take_append_drop]
      rw [hsplit, leftOver_block hn (List.length_take_of_le hle), leftOver_drop hn hle,
        ih (l.drop n).length (by rw [List.length_drop]; omega) (l.drop n) rfl]

end

end Lib

namespace Lib.Sha256

abbrev Word := BitVec 32

/-! ### Functions -/

def rotr (n : Nat) (x : Word) : Word := (x >>> n) ||| (x <<< (32 - n))

def ch (x y z : Word) : Word := (x &&& y) ^^^ (~~~x &&& z)

def maj (x y z : Word) : Word := (x &&& y) ^^^ (x &&& z) ^^^ (y &&& z)

/-- `Σ₀`. -/
def bigSigma0 (x : Word) : Word := rotr 2 x ^^^ rotr 13 x ^^^ rotr 22 x

/-- `Σ₁`. -/
def bigSigma1 (x : Word) : Word := rotr 6 x ^^^ rotr 11 x ^^^ rotr 25 x

/-- `σ₀`. -/
def sigma0 (x : Word) : Word := rotr 7 x ^^^ rotr 18 x ^^^ (x >>> 3)

/-- `σ₁`. -/
def sigma1 (x : Word) : Word := rotr 17 x ^^^ rotr 19 x ^^^ (x >>> 10)

/-! ### Constants -/

/-- The first 64 primes. -/
def primes : List Nat :=
  [2, 3, 5, 7, 11, 13, 17, 19, 23, 29, 31, 37, 41, 43, 47, 53, 59, 61, 67, 71, 73, 79, 83, 89, 97,
    101, 103, 107, 109, 113, 127, 131, 137, 139, 149, 151, 157, 163, 167, 173, 179, 181, 191, 193,
    197, 199, 211, 223, 227, 229, 233, 239, 241, 251, 257, 263, 269, 271, 277, 281, 283, 293, 307,
    311]

/-- The largest number whose `n`-th power is at most `p`, for a root below 32. -/
def wholeRoot (n p : Nat) : Nat := (List.range 32).countP fun r => 0 < r && r ^ n ≤ p

/-- The word holds the first 32 bits of the fractional part of the `n`-th root of `p`. -/
def IsFraction (n p : Nat) (w : Word) : Prop :=
  let scaled := wholeRoot n p * 2 ^ 32 + w.toNat
  scaled ^ n ≤ p * 2 ^ (32 * n) ∧ p * 2 ^ (32 * n) < (scaled + 1) ^ n

instance (n p : Nat) (w : Word) : Decidable (IsFraction n p w) :=
  inferInstanceAs (Decidable (_ ∧ _))

def K : List Word :=
  [0x428a2f98, 0x71374491, 0xb5c0fbcf, 0xe9b5dba5, 0x3956c25b, 0x59f111f1, 0x923f82a4, 0xab1c5ed5,
    0xd807aa98, 0x12835b01, 0x243185be, 0x550c7dc3, 0x72be5d74, 0x80deb1fe, 0x9bdc06a7, 0xc19bf174,
    0xe49b69c1, 0xefbe4786, 0x0fc19dc6, 0x240ca1cc, 0x2de92c6f, 0x4a7484aa, 0x5cb0a9dc, 0x76f988da,
    0x983e5152, 0xa831c66d, 0xb00327c8, 0xbf597fc7, 0xc6e00bf3, 0xd5a79147, 0x06ca6351, 0x14292967,
    0x27b70a85, 0x2e1b2138, 0x4d2c6dfc, 0x53380d13, 0x650a7354, 0x766a0abb, 0x81c2c92e, 0x92722c85,
    0xa2bfe8a1, 0xa81a664b, 0xc24b8b70, 0xc76c51a3, 0xd192e819, 0xd6990624, 0xf40e3585, 0x106aa070,
    0x19a4c116, 0x1e376c08, 0x2748774c, 0x34b0bcb5, 0x391c0cb3, 0x4ed8aa4a, 0x5b9cca4f, 0x682e6ff3,
    0x748f82ee, 0x78a5636f, 0x84c87814, 0x8cc70208, 0x90befffa, 0xa4506ceb, 0xbef9a3f7, 0xc67178f2]

/-- The eight words of a digest, and the working variables of a round. -/
structure Regs (α : Type) where
  a : α
  b : α
  c : α
  d : α
  e : α
  f : α
  g : α
  h : α
  deriving DecidableEq, Repr

namespace Regs

variable {α β : Type}

def map (φ : α → β) (r : Regs α) : Regs β :=
  ⟨φ r.a, φ r.b, φ r.c, φ r.d, φ r.e, φ r.f, φ r.g, φ r.h⟩

def toList (r : Regs α) : List α := [r.a, r.b, r.c, r.d, r.e, r.f, r.g, r.h]

/-- Word by word. -/
def zipWith (φ : α → α → α) (r s : Regs α) : Regs α :=
  ⟨φ r.a s.a, φ r.b s.b, φ r.c s.c, φ r.d s.d, φ r.e s.e, φ r.f s.f, φ r.g s.g, φ r.h s.h⟩

theorem toList_map (φ : α → β) (r : Regs α) : (r.map φ).toList = r.toList.map φ := rfl

end Regs

/-- `H⁽⁰⁾`. -/
def initial : Regs Word :=
  ⟨0x6a09e667, 0xbb67ae85, 0x3c6ef372, 0xa54ff53a, 0x510e527f, 0x9b05688c, 0x1f83d9ab, 0x5be0cd19⟩

example : (∀ x ∈ primes.zip K, IsFraction 3 x.1 x.2) ∧
    ∀ x ∈ primes.zip initial.toList, IsFraction 2 x.1 x.2 := by decide +kernel

/-! ### Padding -/

/-- A one bit, zeros up to 56 bytes of a block, and the length in bits as 64 bits. -/
def padding (length : Nat) : List UInt8 :=
  0x80 :: (List.replicate ((119 - length % 64) % 64) 0 ++ bytesOf false 8 (8 * length))

def pad (message : List UInt8) : List UInt8 := message ++ padding message.length

theorem length_pad (message : List UInt8) : (pad message).length % 64 = 0 := by
  rw [pad, List.length_append, padding, List.length_cons, List.length_append, List.length_replicate,
    length_bytesOf]
  omega

/-! ### The compression of a block -/

/-- The `t`-th word of a block. -/
def wordAt (block : List UInt8) (t : Nat) : Word :=
  BitVec.ofNat 32 (valueOf false ((block.drop (4 * t)).take 4))

/-- The first words of the message schedule. -/
def schedule (block : List UInt8) : Nat → List Word
  | 0 => []
  | t + 1 =>
    let w := schedule block t
    w ++ [if t < 16 then wordAt block t
      else sigma1 (w.getD (t - 2) 0) + w.getD (t - 7) 0 + sigma0 (w.getD (t - 15) 0) +
        w.getD (t - 16) 0]

def round (k w : Word) (r : Regs Word) : Regs Word :=
  let t1 := r.h + bigSigma1 r.e + ch r.e r.f r.g + k + w
  let t2 := bigSigma0 r.a + maj r.a r.b r.c
  ⟨t1 + t2, r.a, r.b, r.c, r.d + t1, r.e, r.f, r.g⟩

def compress (digest : Regs Word) (block : List UInt8) : Regs Word :=
  let w := schedule block 64
  let rounds := (List.range 64).foldl (fun r t => round (K.getD t 0) (w.getD t 0) r) digest
  digest.zipWith (· + ·) rounds

/-- The digest of a message. -/
def digestOf (message : List UInt8) : Regs Word :=
  (blocksOf 64 (pad message)).foldl compress initial

/-! ### The digest as text -/

/-- Eight lowercase hexadecimal digits. -/
def hexWord (w : Word) : List Char :=
  (List.range 8).map fun i => Nat.digitChar (w.toNat / 16 ^ (7 - i) % 16)

def hex (digest : Regs Word) : String := String.ofList (digest.toList.flatMap hexWord)

/-- `abc`. -/
example : hex (digestOf [0x61, 0x62, 0x63]) =
    "ba7816bf8f01cfea414140de5dae2223b00361a396177a9cb410ff61f20015ad" := by decide +kernel

end Lib.Sha256
