import SpatialIde.DataPlane.Start

/-! # The frames the shell sends

A frame is a zeroed array that is written at its places.  The START frame carries the payload that
`start_payload` writes.
-/

namespace SpatialIde.Shell.Streaming

open Lib SpatialIde.DataPlane

/-- `CTRL.START`. -/
def CTRL_START : UInt8 := 0x03

/-- `new Uint8Array(n)`. -/
def zeros (n : Nat) : List UInt8 := List.replicate n 0

def controlFrame (tag : UInt8) (payload : List UInt8) : List UInt8 :=
  let out := zeros (FRAME_PREFIX_LEN + payload.length)
  let out := setAt out [tag] 0
  let out := setAt out (bytesOf false 4 payload.length) 4
  setAt out payload FRAME_PREFIX_LEN

/-- The payload that `startFrame` builds; a text is encoded as UTF-8. -/
def startFramePayload (operation ticketHandle : String) : List UInt8 :=
  let op := Text.bytes operation
  let params := Text.bytes ticketHandle
  let payload := zeros (2 + op.length + 4 + params.length)
  let payload := setAt payload (bytesOf false 2 op.length) 0
  let payload := setAt payload op 2
  let payload := setAt payload (bytesOf false 4 params.length) (2 + op.length)
  setAt payload params (2 + op.length + 4)

def startFrame (operation ticketHandle : String) : List UInt8 :=
  controlFrame CTRL_START (startFramePayload operation ticketHandle)

/-- Written behind what is written already. -/
theorem setAt_zeros {written : List UInt8} {offset : Nat} (hoffset : written.length = offset)
    (bytes : List UInt8) (n : Nat) :
    setAt (written ++ zeros n) bytes offset = (written ++ bytes) ++ zeros (n - bytes.length) := by
  subst hoffset
  rw [setAt, List.take_left, ← List.drop_drop, List.drop_left, zeros, List.drop_replicate]
  rfl

theorem startFramePayload_eq (operation ticketHandle : String) :
    startFramePayload operation ticketHandle = startPayload operation (Text.bytes ticketHandle) := by
  rw [startFramePayload, ← List.nil_append (zeros _), setAt_zeros List.length_nil,
    setAt_zeros (by simp), setAt_zeros (by simp), setAt_zeros (by simp; omega)]
  simp [startPayload, zeros]
  omega

/-- The eight bytes in front of the payload. -/
theorem controlFrame_eq (tag : UInt8) (payload : List UInt8) :
    controlFrame tag payload = [tag, 0, 0, 0] ++ bytesOf false 4 payload.length ++ payload := by
  have htag : setAt (zeros (FRAME_PREFIX_LEN + payload.length)) [tag] 0 =
      [tag, 0, 0, 0] ++ zeros (4 + payload.length) := by
    rw [← List.nil_append (zeros _), setAt_zeros List.length_nil]
    show [tag] ++ zeros (8 + payload.length - 1) = _
    rw [show 8 + payload.length - 1 = 3 + (4 + payload.length) by omega, zeros, List.replicate_add]
    rfl
  rw [controlFrame, htag, setAt_zeros (by simp), setAt_zeros (by simp [FRAME_PREFIX_LEN])]
  simp [zeros]

theorem startFrame_eq (operation ticketHandle : String) :
    (startFrame operation ticketHandle).drop FRAME_PREFIX_LEN =
      startPayload operation (Text.bytes ticketHandle) := by
  rw [startFrame, controlFrame_eq, startFramePayload_eq]
  exact List.drop_left' (by simp [FRAME_PREFIX_LEN])

end SpatialIde.Shell.Streaming
