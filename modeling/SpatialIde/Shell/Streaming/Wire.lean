import SpatialIde.DataPlane.Wire
import SpatialIde.Lib.Decimal

/-! # The data channel's framing, consumer side

`FrameDecoder` holds the chunks that have arrived and cuts the frames off them that are complete.
-/

namespace SpatialIde.Shell.Streaming

open Lib SpatialIde.DataPlane

/-! ### Frames -/

inductive TerminalKind where
  | completed
  | cancelled
  | producerFailed
  | transportFailed
  | decodeFailed
  | sinkPoisoned
  deriving DecidableEq, Repr

/-- By the code on the wire. -/
def TERMINAL_KINDS : List TerminalKind :=
  [.completed, .cancelled, .producerFailed, .transportFailed, .decodeFailed, .sinkPoisoned]

/-- `UNKNOWN_TOTAL` is `none`. -/
structure Progress where
  batches : Nat
  bytes : Nat
  total : Option Nat
  deriving DecidableEq, Repr

inductive Frame where
  | opened (operationId streamId : String)
  | batch (payload : List UInt8) (contiguous : Bool)
  | progress (progress : Progress)
  | terminal (kind : TerminalKind) (detail : String)
  deriving DecidableEq, Repr

/-- The frame up to where its bytes came from. -/
def Frame.apart : Frame → Frame
  | batch payload _ => batch payload true
  | f => f

def malformed (detail : String) : Frame := .terminal .decodeFailed detail

/-- `Number` of a `u64`: the nearest double, a whole number. -/
def number (n : Nat) : Nat :=
  if n < 2 ^ 53 then n
  else
    let unit := 2 ^ (n.log2 - 52)
    F64.divNearestEven n unit * unit

/-- A big-endian `u64` at a place of a payload. -/
def getBigUint64 (payload : List UInt8) (at_ : Nat) : Nat := valueOf false ((payload.drop at_).take 8)

/-- `s.split(" ")`. -/
def splitSpace (s : String) : List String := (s.toList.splitOn ' ').map String.ofList

def decode (tag : UInt8) (payload : List UInt8) (contiguous : Bool) : Frame :=
  if tag = TAG_OPEN then
    match splitSpace (Text.decode payload) with
    | operationId :: streamId :: _ =>
      if operationId = "" ∨ streamId = "" then
        malformed ("OPEN frame did not carry both ids (" ++ toString payload.length ++ " B)")
      else .opened operationId streamId
    | _ => malformed ("OPEN frame did not carry both ids (" ++ toString payload.length ++ " B)")
  else if tag = TAG_BATCH then .batch payload contiguous
  else if tag = TAG_PROGRESS then
    if payload.length < 24 then
      malformed ("PROGRESS payload is " ++ toString payload.length ++ " B, expected 24")
    else
      let totalRaw := getBigUint64 payload 16
      .progress ⟨number (getBigUint64 payload 0), number (getBigUint64 payload 8),
        if totalRaw = UNKNOWN_TOTAL then none else some (number totalRaw)⟩
  else if tag = TAG_TERMINAL then
    match payload with
    | [] => malformed "TERMINAL frame carried no outcome code"
    | code :: rest =>
      let detail := Text.decode rest
      match TERMINAL_KINDS[code.toNat]? with
      | none =>
        malformed ("unknown terminal code " ++ toString code.toNat ++
          (if detail = "" then "" else ": " ++ detail))
      | some kind => .terminal kind detail
  else malformed ("unknown frame tag " ++ toString tag.toNat)

/-! ### The decoder -/

structure FrameDecoder where
  chunks : List (List UInt8)
  available : Nat
  reassemblyCopies : Nat
  jsonFramesSeen : Nat
  maxFrameBytes : Nat
  fault : Option String
  deriving DecidableEq, Repr

/-- A decoder under a ceiling; the declared one is 16 MiB. -/
def FrameDecoder.new (maxFrameBytes : Nat) : FrameDecoder := ⟨[], 0, 0, 0, maxFrameBytes, none⟩

/-- The first `n` bytes of the chunks, copied; what they do not hold stays zero. -/
def gather : Nat → List (List UInt8) → List UInt8
  | n, [] => List.replicate n 0
  | n, c :: cs => if n ≤ c.length then c.take n else c ++ gather (n - c.length) cs

/-- The first `n` bytes of the chunks, and the chunks without them. -/
def takeAcross : Nat → List (List UInt8) → List UInt8 × List (List UInt8)
  | 0, cs => ([], cs)
  -- Beyond what is available, where `take` does not get.
  | _ + 1, [] => ([], [])
  | n + 1, c :: cs =>
    if c.length ≤ n + 1 then
      let (bytes, rest) := takeAcross (n + 1 - c.length) cs
      (c ++ bytes, rest)
    else (c.take (n + 1), c.drop (n + 1) :: cs)

namespace FrameDecoder

def peek (d : FrameDecoder) (n : Nat) : Option (List UInt8) :=
  if d.available < n then none
  else
    match d.chunks with
    | c :: _ => if n ≤ c.length then some (c.take n) else some (gather n d.chunks)
    | [] => some (gather n d.chunks)

def take (d : FrameDecoder) (n : Nat) : List UInt8 × Bool × FrameDecoder :=
  match d.chunks with
  | head :: rest =>
    if n ≤ head.length then
      (head.take n, true,
        { d with
          chunks := if head.length = n then rest else head.drop n :: rest,
          available := d.available - n })
    else
      let (bytes, chunks) := takeAcross n d.chunks
      (bytes, false,
        { d with
          chunks := chunks,
          available := d.available - n,
          reassemblyCopies := d.reassemblyCopies + 1 })
  | [] =>
    (gather n [], false,
      { d with available := d.available - n, reassemblyCopies := d.reassemblyCopies + 1 })

theorem available_take (d : FrameDecoder) (n : Nat) : (d.take n).2.2.available = d.available - n := by
  rw [take]
  split
  · split_ifs <;> rfl
  · rfl

/-- The text of a fault. -/
def faultOf (maxFrameBytes len : Nat) : String :=
  "frame declares " ++ toString len ++ " bytes, over the declared " ++ toString maxFrameBytes ++
    " ceiling"

/-- Whether a payload looks like JSON. -/
def looksLikeJson (payload : List UInt8) : Bool :=
  payload.head? == some 0x7b || payload.head? == some 0x5b

/-- The count of frames that look like JSON, behind a payload. -/
def counting (d : FrameDecoder) (payload : List UInt8) : FrameDecoder :=
  { d with jsonFramesSeen := d.jsonFramesSeen + if looksLikeJson payload then 1 else 0 }

theorem available_counting (d : FrameDecoder) (payload : List UInt8) :
    (d.counting payload).available = d.available := rfl

/-- The loop of `push`, which has put out `out`. -/
def frames (out : List Frame) (d : FrameDecoder) : List Frame × FrameDecoder :=
  match _h : d.peek FRAME_PREFIX_LEN with
  | none => (out, d)
  | some start =>
    let len := valueOf false (start.drop 4)
    if len > d.maxFrameBytes then
      let fault := faultOf d.maxFrameBytes len
      -- What was put out is dropped.
      ([.terminal .decodeFailed fault], { d with fault := some fault })
    else
      let total := FRAME_PREFIX_LEN + len
      if d.available < total then (out, d)
      else
        let taken := d.take total
        let payload := taken.1.drop FRAME_PREFIX_LEN
        frames (out ++ [decode (start.headD 0) payload taken.2.1])
          (taken.2.2.counting payload)
termination_by d.available
decreasing_by
  have _hsome : FRAME_PREFIX_LEN ≤ d.available := by
    rw [peek] at _h
    split_ifs at _h
    omega
  have hpos : FRAME_PREFIX_LEN = 8 := rfl
  rw [available_counting, available_take]
  omega

def push (d : FrameDecoder) (chunk : List UInt8) : List Frame × FrameDecoder :=
  if d.fault.isSome then ([], d)
  else frames [] { d with chunks := d.chunks ++ [chunk], available := d.available + chunk.length }

/-- Every chunk, one after the other. -/
def pushAll (d : FrameDecoder) : List (List UInt8) → List Frame × FrameDecoder
  | [] => ([], d)
  | chunk :: chunks =>
    let (out, d') := d.push chunk
    let (out', d'') := d'.pushAll chunks
    (out ++ out', d'')

end FrameDecoder

end SpatialIde.Shell.Streaming
