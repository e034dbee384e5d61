import SpatialIde.Lib.Sha256
import SpatialIde.Shell.Streaming.Wire

/-! # The viewer's hash

`Sha256` takes a message in pieces: it compresses every complete block and keeps the rest in a buffer
of one block.  The numbers are those of JavaScript: an operator on bits takes any whole number modulo
`2 ^ 32`, `|`, `^`, `&`, `~` and `<<` give a signed number and `>>>` an unsigned one.
-/

namespace SpatialIde.Renderer.BundleViewer

open Lib Lib.Sha256
open SpatialIde.Shell.Streaming (number)

/-! ### Numbers of JavaScript -/

/-- The 32 bits of a whole number, `ToInt32` and `ToUint32`. -/
def bits (x : Int) : Word := BitVec.ofInt 32 x

/-- `x >>> n`. -/
def ushr (x : Int) (n : Nat) : Int := (bits x >>> (n % 32)).toNat

/-- `x << n`. -/
def shl (x : Int) (n : Nat) : Int := (bits x <<< (n % 32)).toInt

/-- `x | y`. -/
def bor (x y : Int) : Int := (bits x ||| bits y).toInt

/-- `x & y`. -/
def band (x y : Int) : Int := (bits x &&& bits y).toInt

/-- `x ^ y`. -/
def bxor (x y : Int) : Int := (bits x ^^^ bits y).toInt

/-- `~x`. -/
def bnot (x : Int) : Int := (~~~bits x).toInt

/-! ### The compression of a block -/

namespace Sha256

def K : List Int :=
  [0x428a2f98, 0x71374491, 0xb5c0fbcf, 0xe9b5dba5, 0x3956c25b, 0x59f111f1, 0x923f82a4, 0xab1c5ed5,
    0xd807aa98, 0x12835b01, 0x243185be, 0x550c7dc3, 0x72be5d74, 0x80deb1fe, 0x9bdc06a7, 0xc19bf174,
    0xe49b69c1, 0xefbe4786, 0x0fc19dc6, 0x240ca1cc, 0x2de92c6f, 0x4a7484aa, 0x5cb0a9dc, 0x76f988da,
    0x983e5152, 0xa831c66d, 0xb00327c8, 0xbf597fc7, 0xc6e00bf3, 0xd5a79147, 0x06ca6351, 0x14292967,
    0x27b70a85, 0x2e1b2138, 0x4d2c6dfc, 0x53380d13, 0x650a7354, 0x766a0abb, 0x81c2c92e, 0x92722c85,
    0xa2bfe8a1, 0xa81a664b, 0xc24b8b70, 0xc76c51a3, 0xd192e819, 0xd6990624, 0xf40e3585, 0x106aa070,
    0x19a4c116, 0x1e376c08, 0x2748774c, 0x34b0bcb5, 0x391c0cb3, 0x4ed8aa4a, 0x5b9cca4f, 0x682e6ff3,
    0x748f82ee, 0x78a5636f, 0x84c87814, 0x8cc70208, 0x90befffa, 0xa4506ceb, 0xbef9a3f7, 0xc67178f2]

def rotr (x : Int) (n : Nat) : Int := bor (ushr x n) (shl x (32 - n))

/-- `data[j]` in an operator on bits, where `undefined` is zero. -/
def byteAt (data : List UInt8) (j : Nat) : Int := (data.getD j 0).toNat

/-- The first sixteen entries of `w`. -/
def load (data : List UInt8) (offset : Nat) : List Int :=
  (List.range 16).map fun i =>
    let j := offset + i * 4
    ushr (bor (bor (bor (shl (byteAt data j) 24) (shl (byteAt data (j + 1)) 16))
      (shl (byteAt data (j + 2)) 8)) (byteAt data (j + 3))) 0

/-- Entry `i` from those before it. -/
def extend (w : List Int) (i : Nat) : List Int :=
  let w15 := w.getD (i - 15) 0
  let w2 := w.getD (i - 2) 0
  let s0 := bxor (bxor (rotr w15 7) (rotr w15 18)) (ushr w15 3)
  let s1 := bxor (bxor (rotr w2 17) (rotr w2 19)) (ushr w2 10)
  w ++ [ushr (w.getD (i - 16) 0 + s0 + w.getD (i - 7) 0 + s1) 0]

/-- The array `w`, every entry of which is written before it is read. -/
def entries (data : List UInt8) (offset : Nat) : List Int :=
  (List.range' 16 48).foldl extend (load data offset)

/-- One turn of the rounds. -/
def turn (w : List Int) (r : Regs Int) (i : Nat) : Regs Int :=
  let S1 := bxor (bxor (rotr r.e 6) (rotr r.e 11)) (rotr r.e 25)
  let ch := bxor (band r.e r.f) (band (bnot r.e) r.g)
  let t1 := ushr (r.h + S1 + ch + K.getD i 0 + w.getD i 0) 0
  let S0 := bxor (bxor (rotr r.a 2) (rotr r.a 13)) (rotr r.a 22)
  let maj := bxor (bxor (band r.a r.b) (band r.a r.c)) (band r.b r.c)
  let t2 := ushr (S0 + maj) 0
  ⟨ushr (t1 + t2) 0, r.a, r.b, r.c, ushr (r.d + t1) 0, r.e, r.f, r.g⟩

/-- `compress`, on the array `h`. -/
def compress (h : Regs Int) (data : List UInt8) (offset : Nat) : Regs Int :=
  let w := entries data offset
  let r := (List.range 64).foldl (turn w) h
  h.zipWith (fun x y => ushr (x + y) 0) r

end Sha256

/-! ### The message in pieces -/

/-- `Sha256`.  The array `w` holds nothing from one block to the next. -/
structure Sha256 where
  h : Regs Int
  block : List UInt8
  blockLen : Nat
  /-- The length of the message in bits, a double. -/
  totalBits : Nat
  deriving DecidableEq, Repr

namespace Sha256

def new : Sha256 where
  h := ⟨0x6a09e667, 0xbb67ae85, 0x3c6ef372, 0xa54ff53a, 0x510e527f, 0x9b05688c, 0x1f83d9ab,
    0x5be0cd19⟩
  block := List.replicate 64 0
  blockLen := 0
  totalBits := 0

/-- The loop over the complete blocks of `data`; every turn passes 64 bytes. -/
def absorb (data : List UInt8) : Nat → Regs Int → Nat → Regs Int × Nat
  | 0, h, offset => (h, offset)
  | fuel + 1, h, offset =>
    if offset + 64 ≤ data.length then absorb data fuel (compress h data offset) (offset + 64)
    else (h, offset)

/-- Complete the buffered block as far as `data` goes: the state, and where `data` goes on. -/
def fill (s : Sha256) (data : List UInt8) : Sha256 × Nat :=
  if 0 < s.blockLen then
    let need := min (64 - s.blockLen) data.length
    let block := setAt s.block (data.take need) s.blockLen
    let blockLen := s.blockLen + need
    if blockLen = 64 then ({ s with h := compress s.h block 0, block, blockLen := 0 }, need)
    else ({ s with block, blockLen }, need)
  else (s, 0)

def update (s : Sha256) (data : List UInt8) : Sha256 :=
  let s := { s with totalBits := number (s.totalBits + number (data.length * 8)) }
  let (s, offset) := s.fill data
  let (h, offset) := absorb data data.length s.h offset
  let s := { s with h }
  if offset < data.length then
    { s with block := setAt s.block (data.drop offset) 0, blockLen := data.length - offset }
  else s

/-- `setUint32(at, value, false)`. -/
def setUint32 (array : List UInt8) (at_ value : Nat) : List UInt8 :=
  setAt array (bytesOf false 4 (value % 2 ^ 32)) at_

/-- The last block, or the last two. -/
def tail (s : Sha256) : List UInt8 :=
  let tail := List.replicate (if s.blockLen < 56 then 64 else 128) 0
  let tail := setAt tail (s.block.take s.blockLen) 0
  let tail := tail.set s.blockLen 0x80
  let tail := setUint32 tail (tail.length - 8) (s.totalBits / 0x100000000)
  setUint32 tail (tail.length - 4) s.totalBits

/-- `value.toString(16)`. -/
def toString16 (value : Int) : List Char := Nat.toDigits 16 value.toNat

/-- `text.padStart(width, '0')`. -/
def padStart (text : List Char) (width : Nat) : List Char :=
  List.replicate (width - text.length) '0' ++ text

def digestHex (s : Sha256) : String :=
  let tail := s.tail
  let h := (List.range ((tail.length + 63) / 64)).foldl (fun h i => compress h tail (64 * i)) s.h
  String.ofList (h.toList.flatMap fun x => padStart (toString16 x) 8)

end Sha256

def HASH_CHUNK_BYTES : Nat := 512 * 1024

/-- The pieces that `sha256Prefixed` hands over, one after another. -/
def chunks (bytes : List UInt8) : List (List UInt8) :=
  (List.range ((bytes.length + HASH_CHUNK_BYTES - 1) / HASH_CHUNK_BYTES)).map fun i =>
    (bytes.drop (i * HASH_CHUNK_BYTES)).take HASH_CHUNK_BYTES

def sha256Prefixed (bytes : List UInt8) : String :=
  "sha256:" ++ ((chunks bytes).foldl Sha256.update Sha256.new).digestHex

end SpatialIde.Renderer.BundleViewer
