import SpatialIde.Lib.Bytes
import SpatialIde.Lib.Framing
import SpatialIde.Lib.Text

/-! # The data channel's framing, producer side

A frame is a tag, three reserved zero bytes, the length of its payload as a big-endian `u32`, and the
payload.  `layout` reads a stream of frames back, up to a payload that is over a ceiling.
-/

namespace SpatialIde.DataPlane

open Lib

def TAG_OPEN : UInt8 := 0x0f
def TAG_BATCH : UInt8 := 0x10
def TAG_PROGRESS : UInt8 := 0x11
def TAG_TERMINAL : UInt8 := 0x12

def TERM_COMPLETED : UInt8 := 0
def TERM_CANCELLED : UInt8 := 1
def TERM_PRODUCER_FAILED : UInt8 := 2
def TERM_TRANSPORT_FAILED : UInt8 := 3
def TERM_DECODE_FAILED : UInt8 := 4

def FRAME_PREFIX_LEN : Nat := 8

/-- `u64::MAX`. -/
def UNKNOWN_TOTAL : Nat := 2 ^ 64 - 1

/-! ### Writing -/

def reservePrefix (tag : UInt8) : List UInt8 := [tag, 0, 0, 0, 0, 0, 0, 0]

def patchLen (out : List UInt8) : Except String (List UInt8) :=
  if out.length < FRAME_PREFIX_LEN then .error "frame shorter than its own prefix"
  else
    let len := out.length - FRAME_PREFIX_LEN
    if len > 2 ^ 32 - 1 then
      .error ("payload of " ++ toString len ++ " bytes does not fit a u32 length")
    else .ok (out.take 4 ++ bytesOf false 4 len ++ out.drop 8)

/-- The frame; an error is its panic. -/
def frame (tag : UInt8) (payload : List UInt8) : Except String (List UInt8) :=
  patchLen (reservePrefix tag ++ payload)

def progressPayload (batches bytes total : Nat) : List UInt8 :=
  bytesOf false 8 batches ++ bytesOf false 8 bytes ++ bytesOf false 8 total

def terminalPayload (code : UInt8) (detail : String) : List UInt8 := code :: Text.bytes detail

/-- The outcomes that have a code. -/
inductive TerminalCode where
  | completed
  | cancelled
  | producerFailed
  | transportFailed
  | decodeFailed
  deriving DecidableEq, Repr

def TerminalCode.code : TerminalCode → UInt8
  | completed => TERM_COMPLETED
  | cancelled => TERM_CANCELLED
  | producerFailed => TERM_PRODUCER_FAILED
  | transportFailed => TERM_TRANSPORT_FAILED
  | decodeFailed => TERM_DECODE_FAILED

/-- What the server says on the channel. -/
inductive ServerFrame where
  | opened (operation stream : String)
  | batch (payload : List UInt8)
  | progress (batches bytes total : Nat)
  | terminal (code : TerminalCode) (detail : String)
  deriving DecidableEq, Repr

namespace ServerFrame

def tag : ServerFrame → UInt8
  | opened .. => TAG_OPEN
  | batch _ => TAG_BATCH
  | progress .. => TAG_PROGRESS
  | terminal .. => TAG_TERMINAL

def payload : ServerFrame → List UInt8
  | opened operation stream => Text.bytes (operation ++ " " ++ stream)
  | batch payload => payload
  | progress batches bytes total => progressPayload batches bytes total
  | terminal code detail => terminalPayload code.code detail

def write (f : ServerFrame) : Except String (List UInt8) := frame f.tag f.payload

end ServerFrame

theorem frame_eq_ok {tag : UInt8} {payload out : List UInt8} (h : frame tag payload = .ok out) :
    payload.length < 2 ^ 32 ∧ out = [tag, 0, 0, 0] ++ bytesOf false 4 payload.length ++ payload := by
  have hlen : (reservePrefix tag ++ payload).length - FRAME_PREFIX_LEN = payload.length := by
    simp [reservePrefix, FRAME_PREFIX_LEN]
  rw [frame, patchLen] at h
  dsimp only at h
  rw [hlen] at h
  split_ifs at h with hshort hlong
  cases h
  exact ⟨by omega, rfl⟩

/-! ### The layout -/

/-- The payload length that a frame declares. -/
def declared (s : List UInt8) : Nat := valueOf false ((s.take FRAME_PREFIX_LEN).drop 4)

/-- The first frame of a stream, or the length it declares where that is over the ceiling. -/
def cutFrame (ceiling : Nat) (s : List UInt8) : Cut UInt8 (UInt8 × List UInt8) Nat :=
  match s with
  | [] => .more
  | tag :: _ =>
    if s.length < FRAME_PREFIX_LEN then .more
    else if declared s > ceiling then .refused (declared s)
    else if s.length < FRAME_PREFIX_LEN + declared s then .more
    else
      .frame (tag, (s.take (FRAME_PREFIX_LEN + declared s)).drop FRAME_PREFIX_LEN)
        (s.drop (FRAME_PREFIX_LEN + declared s))

theorem declared_append {s : List UInt8} (h : FRAME_PREFIX_LEN ≤ s.length) (t : List UInt8) :
    declared (s ++ t) = declared s := by
  rw [declared, List.take_append_of_le_length h, declared]

theorem cutFrame_eq_frame {ceiling : Nat} {s rest : List UInt8} {f : UInt8 × List UInt8}
    (h : cutFrame ceiling s = .frame f rest) :
    FRAME_PREFIX_LEN + declared s ≤ s.length ∧ declared s ≤ ceiling ∧ s.head? = some f.1 ∧
      f.2 = (s.take (FRAME_PREFIX_LEN + declared s)).drop FRAME_PREFIX_LEN ∧
      rest = s.drop (FRAME_PREFIX_LEN + declared s) := by
  cases s with
  | nil => cases h
  | cons tag s =>
    rw [cutFrame] at h
    split_ifs at h with hshort hceiling hpart
    cases h
    exact ⟨by omega, by omega, rfl, rfl, rfl⟩

theorem cutFrame_eq_refused {ceiling e : Nat} {s : List UInt8} (h : cutFrame ceiling s = .refused e) :
    FRAME_PREFIX_LEN ≤ s.length ∧ ceiling < declared s ∧ e = declared s := by
  cases s with
  | nil => cases h
  | cons tag s =>
    rw [cutFrame] at h
    split_ifs at h with hshort hceiling hpart
    cases h
    exact ⟨by omega, hceiling, rfl⟩

theorem cutFrame_eq_more {ceiling : Nat} {s : List UInt8} (h : cutFrame ceiling s = .more) :
    s.length < FRAME_PREFIX_LEN ∨
      declared s ≤ ceiling ∧ s.length < FRAME_PREFIX_LEN + declared s := by
  cases s with
  | nil => exact .inl (by decide)
  | cons tag s =>
    rw [cutFrame] at h
    split_ifs at h with hshort hceiling hpart
    · exact .inl hshort
    · exact .inr ⟨by omega, hpart⟩

theorem cutFrame_frame {ceiling : Nat} {s : List UInt8} {tag : UInt8} (htag : s.head? = some tag)
    (hlen : FRAME_PREFIX_LEN + declared s ≤ s.length) (hceiling : declared s ≤ ceiling) :
    cutFrame ceiling s = .frame
      (tag, (s.take (FRAME_PREFIX_LEN + declared s)).drop FRAME_PREFIX_LEN)
      (s.drop (FRAME_PREFIX_LEN + declared s)) := by
  cases s with
  | nil => cases htag
  | cons tag' s =>
    cases htag
    rw [cutFrame, if_neg (by omega), if_neg (by omega), if_neg (by omega)]

/-- The frames of the data channel. -/
def layout (ceiling : Nat) : Framing UInt8 (UInt8 × List UInt8) Nat where
  cut := cutFrame ceiling
  shorter := by
    intro s f rest h
    obtain ⟨hlen, -, -, -, rfl⟩ := cutFrame_eq_frame h
    have hlen8 : FRAME_PREFIX_LEN = 8 := rfl
    rw [List.length_drop]
    omega
  frame_append := by
    intro s f rest t h
    obtain ⟨hlen, hceiling, htag, hpayload, rfl⟩ := cutFrame_eq_frame h
    have hdeclared : declared (s ++ t) = declared s := declared_append (by omega) t
    have hhead : (s ++ t).head? = some f.1 := by
      rw [List.head?_append, htag]
      rfl
    rw [cutFrame_frame hhead (by rw [hdeclared, List.length_append]; omega)
      (by rw [hdeclared]; exact hceiling), hdeclared, List.take_append_of_le_length hlen,
      List.drop_append_of_le_length hlen, ← hpayload]
  refused_append := by
    intro s e t h
    obtain ⟨hlen, hceiling, rfl⟩ := cutFrame_eq_refused h
    have hdeclared : declared (s ++ t) = declared s := declared_append hlen t
    cases s with
    | nil => cases h
    | cons tag s =>
      rw [List.cons_append] at hdeclared ⊢
      rw [cutFrame, if_neg (by rw [← List.cons_append, List.length_append]; omega),
        if_pos (by rw [hdeclared]; exact hceiling), hdeclared]

/-- A written frame declares the length of its payload. -/
theorem declared_write (tag : UInt8) {payload : List UInt8} (h : payload.length < 2 ^ 32)
    (t : List UInt8) :
    declared ([tag, 0, 0, 0] ++ bytesOf false 4 payload.length ++ payload ++ t) =
      payload.length := by
  have hwidth : ([tag, 0, 0, 0] ++ bytesOf false 4 payload.length).length = FRAME_PREFIX_LEN := by
    simp [bytesOf, FRAME_PREFIX_LEN]
  rw [declared, List.append_assoc, List.take_append_of_le_length hwidth.ge,
    List.take_of_length_le hwidth.le, List.drop_append_of_le_length (by simp)]
  exact valueOf_bytesOf false (by omega)

/-- A written frame is a frame of the layout. -/
theorem cutFrame_write {ceiling : Nat} {tag : UInt8} {payload out : List UInt8}
    (h : frame tag payload = .ok out) (hceiling : payload.length ≤ ceiling) (t : List UInt8) :
    cutFrame ceiling (out ++ t) = .frame (tag, payload) t := by
  obtain ⟨hlt, rfl⟩ := frame_eq_ok h
  have hdeclared := declared_write tag hlt t
  have hlen : ([tag, 0, 0, 0] ++ bytesOf false 4 payload.length).length = FRAME_PREFIX_LEN := by
    simp [bytesOf, FRAME_PREFIX_LEN]
  have hsplit : ([tag, 0, 0, 0] ++ bytesOf false 4 payload.length ++ payload).length =
      FRAME_PREFIX_LEN + payload.length := by
    rw [List.length_append, hlen]
  rw [@cutFrame_frame _ _ tag rfl (by rw [hdeclared, List.length_append, hsplit]; omega)
    (by rw [hdeclared]; exact hceiling), hdeclared, List.take_append_of_le_length hsplit.ge,
    List.take_of_length_le hsplit.le, List.drop_append_of_le_length hsplit.ge,
    List.drop_of_length_le hsplit.le, List.drop_append_of_le_length hlen.ge,
    List.drop_of_length_le hlen.le, List.nil_append, List.nil_append]

/-- A written frame over the ceiling is refused. -/
theorem cutFrame_write_over {ceiling : Nat} {tag : UInt8} {payload out : List UInt8}
    (h : frame tag payload = .ok out) (hceiling : ceiling < payload.length) (t : List UInt8) :
    cutFrame ceiling (out ++ t) = .refused payload.length := by
  obtain ⟨hlt, rfl⟩ := frame_eq_ok h
  have hdeclared := declared_write tag hlt t
  have hlen : FRAME_PREFIX_LEN ≤
      ([tag, 0, 0, 0] ++ bytesOf false 4 payload.length ++ payload ++ t).length := by
    have hwidth : (bytesOf false 4 payload.length).length = 4 := by simp [bytesOf]
    simp only [List.length_append, List.length_cons, List.length_nil, hwidth, FRAME_PREFIX_LEN]
    omega
  rw [List.cons_append, List.cons_append, List.cons_append] at hdeclared hlen ⊢
  rw [cutFrame, if_neg (by omega), hdeclared, if_pos hceiling]

end SpatialIde.DataPlane
