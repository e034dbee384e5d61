import SpatialIde.Lib.Binary64
import SpatialIde.Lib.Bytes
import SpatialIde.Lib.Parser
import SpatialIde.Engine.Types

/-! # The WKB reader

`Reader` walks the bytes of one WKB value: `input` is the slice, `pos` the next
byte and `mode` whether numbers are little-endian.  Every nested geometry sets
the byte order again, so it is part of the state.

* `reads_byteOrder`, `reads_u32`, `reads_f64`: what each read consumes.
-/

namespace SpatialIde.Engine.Wkb

open Lib

/-- The bytes of a WKB value, the next byte, and whether numbers are little-endian. -/
abbrev Reader := Cursor UInt8 Bool

/-- A decoding step writing into the buffers `σ`. -/
abbrev Decoder (σ α : Type) := Parser UInt8 Bool σ EngineError α

def byteOrderRefusal (o : UInt8) : EngineError :=
  .wkb s!"byte-order byte {o} is neither 0 nor 1"

/-- The byte order a byte-order byte names. -/
def littleOf : UInt8 → Option Bool
  | 1 => some true
  | 0 => some false
  | _ => none

/-- The byte that names a byte order. -/
def orderByte (little : Bool) : UInt8 := if little then 1 else 0

/-- `Reader::new`: the outer byte-order byte is read first. -/
def Reader.new (b : List UInt8) : Except EngineError Reader :=
  match b with
  | [] => .error (.wkb "empty geometry")
  | o :: _ =>
    match littleOf o with
    | some little => .ok ⟨b, 1, little⟩
    | none => .error (byteOrderRefusal o)

namespace Reader

def isExhausted (r : Reader) : Bool := r.pos = r.input.length

def remaining (r : Reader) : Nat := r.input.length - r.pos

end Reader

variable {σ : Type}

/-- `Reader::take`: the next `n` bytes, or a refusal that leaves the reader where it was. -/
def take (n : Nat) : Decoder σ (List UInt8) := fun st =>
  let r := st.1
  if r.pos + n ≤ r.input.length then
    .ok ((r.input.drop r.pos).take n) (⟨r.input, r.pos + n, r.mode⟩, st.2)
  else .error (.wkb s!"truncated: wanted {n} bytes at {r.pos}") st

/-- `Reader::byte_order`: a nested geometry's own byte-order byte. -/
def byteOrder : Decoder σ Unit := do
  let raw ← take 1
  let o := raw.headD 0
  match littleOf o with
  | some little => setMode little
  | none => fail (byteOrderRefusal o)

def u32 : Decoder σ UInt32 := do
  let raw ← take 4
  let little ← mode
  return UInt32.ofNat (valueOf little raw)

def f64 : Decoder σ F64 := do
  let raw ← take 8
  let little ← mode
  return ⟨UInt64.ofNat (valueOf little raw)⟩

theorem littleOf_eq_some_iff {o : UInt8} {little : Bool} :
    littleOf o = some little ↔ o = orderByte little := by
  unfold littleOf orderByte
  split
  · cases little <;> simp
  · cases little <;> simp
  · cases little <;> simp_all

theorem new_eq_ok_iff {b : List UInt8} {r : Reader} :
    Reader.new b = .ok r ↔
      ∃ little w, b = orderByte little :: w ∧ r = ⟨b, 1, little⟩ := by
  cases b with
  | nil => simp [Reader.new]
  | cons o w =>
    have hnew : Reader.new (o :: w) = match littleOf o with
        | some little => .ok ⟨o :: w, 1, little⟩
        | none => .error (byteOrderRefusal o) := rfl
    rw [hnew]
    cases ho : littleOf o with
    | none =>
      have hne : ∀ little, o ≠ orderByte little := by
        intro little h
        rw [littleOf_eq_some_iff.2 h] at ho
        cases ho
      simp [hne]
    | some little =>
      rw [littleOf_eq_some_iff] at ho
      subst ho
      constructor
      · intro h
        cases h
        exact ⟨little, w, rfl, rfl⟩
      · rintro ⟨little', w', h, rfl⟩
        obtain ⟨hl, rfl⟩ := List.cons.inj h
        have heq : little = little' := by
          revert hl
          cases little <;> cases little' <;> decide
        rw [heq]

theorem reads_take (n : Nat) : Reads (take n : Decoder σ (List UInt8))
    (fun m s w a m' s' => w.length = n ∧ a = w ∧ m' = m ∧ s' = s) := by
  intro c s a c' s' hc
  have hrun : (take n : Decoder σ (List UInt8)).run (c, s) =
      if c.pos + n ≤ c.input.length then
        .ok (c.rest.take n) (⟨c.input, c.pos + n, c.mode⟩, s)
      else .error (.wkb s!"truncated: wanted {n} bytes at {c.pos}") (c, s) := rfl
  have hlen : c.rest.length = c.input.length - c.pos := List.length_drop
  rw [hrun]
  by_cases hn : c.pos + n ≤ c.input.length
  · rw [if_pos hn]
    constructor
    · intro h
      cases h
      refine ⟨c.rest.take n, ⟨List.take_prefix _ _, rfl, ?_⟩, ?_, rfl, rfl, rfl⟩
      · rw [List.length_take, hlen]
        simp only
        omega
      · rw [List.length_take, hlen]
        omega
    · rintro ⟨w, ⟨hw, hi, hp⟩, hwn, rfl, hm, rfl⟩
      have hwt : c.rest.take n = a := by rw [← hwn]; exact (List.prefix_iff_eq_take.1 hw).symm
      obtain ⟨i', p', m'⟩ := c'
      simp only at hi hp hm
      rw [hwt, hi, hp, hm, hwn]
  · rw [if_neg hn]
    constructor
    · intro h
      cases h
    · rintro ⟨w, ⟨hw, _, _⟩, hwn, _⟩
      have := hw.length_le
      have hc' : c.pos ≤ c.input.length := hc
      omega

theorem reads_u32 : Reads (u32 : Decoder σ UInt32)
    (fun m s w n m' s' => w = bytesOf m 4 n.toNat ∧ m' = m ∧ s' = s) := by
  refine ((reads_take 4).bind (fun raw => Reads.mode.bind (fun little =>
    Reads.pure (UInt32.ofNat (valueOf little raw))))).congr ?_
  intro m s w n m' s'
  constructor
  · rintro ⟨raw, m₁, s₁, w₁, w₂, ⟨hlen, hraw, hm₁, hs₁⟩, ⟨little, m₂, s₂, w₃, w₄,
      ⟨hw₃, hlittle, hm₂, hs₂⟩, ⟨hw₄, hn, hm', hs'⟩, hw₂⟩, hw⟩
    subst hraw
    have hl : little = m := by rw [hlittle, hm₁]
    have hlt := valueOf_lt m raw
    rw [hlen] at hlt
    refine ⟨?_, by rw [hm', hm₂, hm₁], by rw [hs', hs₂, hs₁]⟩
    rw [hn, hl, UInt32.toNat_ofNat', Nat.mod_eq_of_lt (by simpa using hlt), ← hlen, bytesOf_valueOf,
      hw, hw₂, hw₃, hw₄, List.append_nil, List.append_nil]
  · rintro ⟨rfl, rfl, rfl⟩
    have hn : n.toNat < 256 ^ 4 := n.toNat_lt
    refine ⟨_, _, _, _, [], ⟨length_bytesOf _ _ _, rfl, rfl, rfl⟩, ⟨_, _, _, [], [],
      ⟨rfl, rfl, rfl, rfl⟩, ⟨rfl, ?_, rfl, rfl⟩, rfl⟩, (List.append_nil _).symm⟩
    rw [valueOf_bytesOf _ hn, UInt32.ofNat_toNat]

theorem reads_f64 : Reads (f64 : Decoder σ F64)
    (fun m s w x m' s' => w = bytesOf m 8 x.bits.toNat ∧ m' = m ∧ s' = s) := by
  refine ((reads_take 8).bind (fun raw => Reads.mode.bind (fun little =>
    Reads.pure (⟨UInt64.ofNat (valueOf little raw)⟩ : F64)))).congr ?_
  intro m s w x m' s'
  constructor
  · rintro ⟨raw, m₁, s₁, w₁, w₂, ⟨hlen, hraw, hm₁, hs₁⟩, ⟨little, m₂, s₂, w₃, w₄,
      ⟨hw₃, hlittle, hm₂, hs₂⟩, ⟨hw₄, hx, hm', hs'⟩, hw₂⟩, hw⟩
    subst hraw
    have hl : little = m := by rw [hlittle, hm₁]
    have hlt := valueOf_lt m raw
    rw [hlen] at hlt
    refine ⟨?_, by rw [hm', hm₂, hm₁], by rw [hs', hs₂, hs₁]⟩
    rw [hx, hl, UInt64.toNat_ofNat', Nat.mod_eq_of_lt (by simpa using hlt), ← hlen, bytesOf_valueOf,
      hw, hw₂, hw₃, hw₄, List.append_nil, List.append_nil]
  · rintro ⟨rfl, rfl, rfl⟩
    have hn : x.bits.toNat < 256 ^ 8 := x.bits.toNat_lt
    refine ⟨_, _, _, _, [], ⟨length_bytesOf _ _ _, rfl, rfl, rfl⟩, ⟨_, _, _, [], [],
      ⟨rfl, rfl, rfl, rfl⟩, ⟨rfl, ?_, rfl, rfl⟩, rfl⟩, (List.append_nil _).symm⟩
    rw [valueOf_bytesOf _ hn, UInt64.ofNat_toNat]

theorem reads_byteOrder : Reads (byteOrder : Decoder σ Unit)
    (fun _ s w _ m' s' => w = [orderByte m'] ∧ s' = s) := by
  have hbody : ∀ raw : List UInt8, Reads
      (match littleOf (raw.headD 0) with
        | some little => setMode little
        | none => fail (byteOrderRefusal (raw.headD 0)) : Decoder σ Unit)
      (fun _ s w _ m' s' => w = [] ∧ raw.headD 0 = orderByte m' ∧ s' = s) := by
    intro raw
    cases ho : littleOf (raw.headD 0) with
    | some little =>
      rw [littleOf_eq_some_iff] at ho
      refine (Reads.setMode little).congr ?_
      intro m s w a m' s'
      rw [ho]
      have hinj : orderByte little = orderByte m' ↔ m' = little := by
        cases little <;> cases m' <;> decide
      simp [hinj]
    | none =>
      refine (Reads.fail _).congr ?_
      intro m s w a m' s'
      simp only [false_iff, not_and]
      intro _ h
      rw [littleOf_eq_some_iff.2 h] at ho
      cases ho
  refine ((reads_take 1).bind hbody).congr ?_
  intro m s w a m' s'
  constructor
  · rintro ⟨raw, _, _, w₁, _, ⟨hlen, rfl, rfl, rfl⟩, ⟨rfl, hhead, rfl⟩, rfl⟩
    obtain ⟨o, rfl⟩ := List.length_eq_one_iff.1 hlen
    simp only [List.headD_cons] at hhead
    exact ⟨by simp [hhead], rfl⟩
  · rintro ⟨rfl, rfl⟩
    exact ⟨_, _, _, _, [], ⟨rfl, rfl, rfl, rfl⟩, ⟨rfl, rfl, rfl⟩, (List.append_nil _).symm⟩

end SpatialIde.Engine.Wkb
