import SpatialIde.Lib.Binary64
import SpatialIde.Shell.Streaming.Control

/-! # The parameters of `stream_features`

A byte of flags, two texts behind their lengths, and the parts the flags name.  `decode_cons` says
what `decode` accepts; a flag bit it does not know and what stands behind the last part are passed
over.
-/

namespace SpatialIde.Kernel.Params

open Lib Lib.Slice SpatialIde.DataPlane SpatialIde.Shell.Streaming

/-- `(xmin, ymin, xmax, ymax)`. -/
abbrev Bbox : Type := F64 × F64 × F64 × F64

structure StreamParams where
  dataset : String
  bbox : Option Bbox
  bboxCrs : Option String
  limit : Option UInt64
  deriving DecidableEq, Repr

def FLAG_BBOX : UInt8 := 0b00000001

def FLAG_LIMIT : UInt8 := 0b00000010

def putStr (s : String) : List UInt8 := bytesOf false 2 (Text.bytes s).length ++ Text.bytes s

/-- The bit pattern, big-endian. -/
def putF64 (v : F64) : List UInt8 := bytesOf false 8 v.bits.toNat

def putBbox (b : Bbox) : List UInt8 := putF64 b.1 ++ (putF64 b.2.1 ++ (putF64 b.2.2.1 ++ putF64 b.2.2.2))

def putLimit (n : UInt64) : List UInt8 := bytesOf false 8 n.toNat

namespace StreamParams

def flags (p : StreamParams) : UInt8 :=
  (if p.bbox.isSome then FLAG_BBOX else 0) ||| if p.limit.isSome then FLAG_LIMIT else 0

/-- What stands behind the flags. -/
def fields (p : StreamParams) : List UInt8 :=
  putStr p.dataset ++ (putStr (p.bboxCrs.getD "") ++
    ((p.bbox.map putBbox).getD [] ++ (p.limit.map putLimit).getD []))

def encode (p : StreamParams) : List UInt8 := p.flags :: p.fields

end StreamParams

section

variable (utf8Error : List UInt8 → String)

def takeStr (b : List UInt8) (start : Nat) : Except (Stop String) (String × Nat) := do
  let (len, start) ← takeNumber "truncated string length" 2 b start
  takeText "truncated string" (fun raw => "not UTF-8: " ++ utf8Error raw) len b start

def takeF64 (b : List UInt8) (start : Nat) : Except (Stop String) (F64 × Nat) := do
  let (raw, start) ← takeNumber "truncated bbox" 8 b start
  return (⟨UInt64.ofNat raw⟩, start)

def takeBbox (b : List UInt8) (start : Nat) : Except (Stop String) (Bbox × Nat) := do
  let (xmin, start) ← takeF64 b start
  let (ymin, start) ← takeF64 b start
  let (xmax, start) ← takeF64 b start
  let (ymax, start) ← takeF64 b start
  return ((xmin, ymin, xmax, ymax), start)

def takeLimit (b : List UInt8) (start : Nat) : Except (Stop String) (UInt64 × Nat) := do
  let (raw, start) ← takeNumber "truncated limit" 8 b start
  return (UInt64.ofNat raw, start)

/-- What `decode` reads behind the flags: the data set, the CRS, the box and the limit. -/
def takeFields (flags : UInt8) (b : List UInt8) (start : Nat) :
    Except (Stop String) ((String × String × Option Bbox × Option UInt64) × Nat) := do
  let (dataset, start) ← takeStr utf8Error b start
  let (crs, start) ← takeStr utf8Error b start
  let (bbox, start) ← takeIf (flags &&& FLAG_BBOX ≠ 0) takeBbox b start
  let (limit, start) ← takeIf (flags &&& FLAG_LIMIT ≠ 0) takeLimit b start
  return ((dataset, crs, bbox, limit), start)

/-- `StreamParams::decode`; `utf8Error` is the text of a `Utf8Error`. -/
def StreamParams.decode (b : List UInt8) : Except (Stop String) StreamParams := do
  let flags ← okOr (.refused "empty parameters") b.head?
  let ((dataset, crs, bbox, limit), _) ← takeFields utf8Error flags b 1
  if bbox.isSome ∧ crs = "" then
    .error (.refused "a viewport must name the CRS it is expressed in")
  else return ⟨dataset, bbox, if crs = "" then none else some crs, limit⟩

end

/-! ### What a part is read from -/

def Short (s : String) : Prop := s.utf8ByteSize < 2 ^ 16

theorem reads_takeStr (utf8Error : List UInt8 → String) :
    Reads (takeStr utf8Error) (2 + 2 ^ 16) Short putStr := by
  have hstr := (reads_takeNumber "truncated string length" 2).bind String.utf8ByteSize
    (fun n hn => (reads_takeText "truncated string" (fun raw => "not UTF-8: " ++ utf8Error raw)
      n).widen (show n ≤ 2 ^ 16 by omega)) fun _ _ h => h
  exact hstr.congr (fun s => ⟨fun h => ⟨h, rfl⟩, fun h => h.1⟩) fun _ => rfl

theorem reads_takeF64 : Reads takeF64 8 (fun _ => True) putF64 := by
  have hf64 := (reads_takeNumber "truncated bbox" 8).map (fun n => (⟨UInt64.ofNat n⟩ : F64))
    (fun v => v.bits.toNat) fun n hn => UInt64.toNat_ofNat_of_lt' (by omega)
  exact hf64.congr (fun v => ⟨fun _ => ⟨v.bits.toNat_lt, by simp⟩, fun _ => trivial⟩) fun _ => rfl

theorem reads_takeLimit : Reads takeLimit 8 (fun _ => True) putLimit := by
  have hlimit := (reads_takeNumber "truncated limit" 8).map UInt64.ofNat
    UInt64.toNat fun n hn => UInt64.toNat_ofNat_of_lt' (by omega)
  exact hlimit.congr (fun n => ⟨fun _ => ⟨n.toNat_lt, by simp⟩, fun _ => trivial⟩) fun _ => rfl

theorem reads_takeBbox : Reads takeBbox (8 + (8 + (8 + 8))) (fun _ => True) putBbox := by
  have hymax := fun xmin ymin xmax : F64 => reads_takeF64.map
    (fun ymax => ((xmin, ymin, xmax, ymax) : Bbox)) (fun b => b.2.2.2) fun _ _ => rfl
  have hxmax := fun xmin ymin : F64 => reads_takeF64.bind (fun b : Bbox => b.2.2.1)
    (fun xmax _ => hymax xmin ymin xmax) fun _ _ h => by rw [← h.2]
  have hymin := fun xmin : F64 => reads_takeF64.bind (fun b : Bbox => b.2.1)
    (fun ymin _ => hxmax xmin ymin) fun _ _ h => by rw [← h.2.2]
  have hxmin := reads_takeF64.bind (fun b : Bbox => b.1) (fun xmin _ => hymin xmin)
    fun _ _ h => by rw [← h.2.2.2]
  exact hxmin.congr (fun b => by simp) fun _ => rfl

/-- The parts that the flags name, with texts that fit their length fields. -/
structure Named (flags : UInt8) (c : String × String × Option Bbox × Option UInt64) : Prop where
  dataset : Short c.1
  crs : Short c.2.1
  bbox : c.2.2.1.isSome ↔ flags &&& FLAG_BBOX ≠ 0
  limit : c.2.2.2.isSome ↔ flags &&& FLAG_LIMIT ≠ 0

theorem reads_takeFields (utf8Error : List UInt8 → String) (flags : UInt8) :
    Reads (takeFields utf8Error flags) (2 + 2 ^ 16 + (2 + 2 ^ 16 + (8 + (8 + (8 + 8)) + 8)))
      (Named flags) fun c => putStr c.1 ++ (putStr c.2.1 ++
        ((c.2.2.1.map putBbox).getD [] ++ (c.2.2.2.map putLimit).getD [])) := by
  have hlimit := fun (dataset crs : String) (bbox : Option Bbox) =>
    (reads_takeLimit.optional (flags &&& FLAG_LIMIT ≠ 0)).map
      (fun limit => ((dataset, crs, bbox, limit) : String × String × Option Bbox × Option UInt64))
      (fun c => c.2.2.2) fun _ _ => rfl
  have hbbox := fun dataset crs : String => (reads_takeBbox.optional (flags &&& FLAG_BBOX ≠ 0)).bind
    (fun c : String × String × Option Bbox × Option UInt64 => c.2.2.1)
    (fun bbox _ => hlimit dataset crs bbox) fun _ _ h => by rw [← h.2]
  have hcrs := fun dataset : String => (reads_takeStr utf8Error).bind
    (fun c : String × String × Option Bbox × Option UInt64 => c.2.1)
    (fun crs _ => hbbox dataset crs) fun _ _ h => by rw [← h.2.2]
  have hdataset := (reads_takeStr utf8Error).bind
    (fun c : String × String × Option Bbox × Option UInt64 => c.1) (fun dataset _ => hcrs dataset)
    fun _ _ h => by rw [← h.2.2.2]
  refine hdataset.congr (fun c => ?_) fun _ => rfl
  exact ⟨fun h => ⟨h.dataset, h.crs, ⟨h.bbox, fun _ _ => trivial⟩, ⟨h.limit, fun _ _ => trivial⟩, rfl⟩,
    fun ⟨hdataset, hcrs, hbbox, hlimit, _⟩ => ⟨hdataset, hcrs, hbbox.1, hlimit.1⟩⟩

/-! ### What `decode` accepts -/

namespace StreamParams

/-- The values that `decode` returns. -/
structure Decoded (p : StreamParams) : Prop where
  dataset : Short p.dataset
  crs : ∀ crs, p.bboxCrs = some crs → Short crs ∧ crs ≠ ""
  bbox : p.bbox.isSome → p.bboxCrs.isSome

theorem decode_cons (utf8Error : List UInt8 → String) {flags : UInt8} {rest : List UInt8}
    {p : StreamParams} :
    decode utf8Error (flags :: rest) = .ok p ↔ p.Decoded ∧
      (p.bbox.isSome ↔ flags &&& FLAG_BBOX ≠ 0) ∧ (p.limit.isSome ↔ flags &&& FLAG_LIMIT ≠ 0) ∧
      p.fields <+: rest := by
  have hread := fun c stop => (reads_takeFields utf8Error flags).eq_ok (flags :: rest) 1 c stop
    (by decide) (by simp)
  rw [decode, bind_eq_ok]
  constructor
  · rintro ⟨_, hflags, h⟩
    cases hflags
    obtain ⟨⟨⟨dataset, crs, bbox, limit⟩, stop⟩, hfields, h⟩ := bind_eq_ok.1 h
    obtain ⟨hnamed, hpre, -⟩ := (hread _ stop).1 hfields
    dsimp only at h
    by_cases hempty : crs = ""
    · by_cases hbbox : bbox.isSome
      · rw [if_pos ⟨hbbox, hempty⟩] at h
        cases h
      · rw [if_neg fun hand => hbbox hand.1, if_pos hempty] at h
        cases h
        refine ⟨⟨hnamed.dataset, nofun, fun hb => absurd hb hbbox⟩, hnamed.bbox, hnamed.limit, ?_⟩
        rw [hempty] at hpre
        exact hpre
    · rw [if_neg fun hand => hempty hand.2, if_neg hempty] at h
      cases h
      refine ⟨⟨hnamed.dataset, fun c hc => ?_, fun _ => rfl⟩, hnamed.bbox, hnamed.limit, hpre⟩
      cases hc
      exact ⟨hnamed.crs, hempty⟩
  · rintro ⟨hp, hbbox, hlimit, hpre⟩
    obtain ⟨dataset, bbox, bboxCrs, limit⟩ := p
    refine ⟨flags, rfl, bind_eq_ok.2 ⟨((dataset, bboxCrs.getD "", bbox, limit), _),
      (hread _ _).2 ⟨⟨hp.dataset, ?_, hbbox, hlimit⟩, hpre, rfl⟩, ?_⟩⟩
    · cases bboxCrs with
      | none => exact Nat.two_pow_pos 16
      | some crs => exact (hp.crs crs rfl).1
    · dsimp only
      cases bboxCrs with
      | none =>
        have hnone : ¬bbox.isSome = true := fun hsome => Bool.noConfusion (hp.bbox hsome)
        rw [if_neg fun h => hnone h.1]
        rfl
      | some crs =>
        have hne := (hp.crs crs rfl).2
        rw [if_neg fun h => hne h.2]
        show Except.ok (⟨dataset, bbox, if crs = "" then none else some crs, limit⟩ : StreamParams) = _
        rw [if_neg hne]

theorem decode_safe (utf8Error : List UInt8 → String) (b : List UInt8) :
    decode utf8Error b ≠ .error .panic := by
  cases b with
  | nil => exact nofun
  | cons flags rest =>
    rw [decode]
    refine bind_safe nofun fun f _ => bind_safe
      ((reads_takeFields utf8Error f).safe (flags :: rest) 1 (by decide) (by simp)) fun ⟨⟨dataset, crs, bbox, limit⟩, _⟩ _ => ?_
    by_cases hcrs : bbox.isSome ∧ crs = ""
    · exact fun h => nomatch (if_pos hcrs).symm.trans h
    · exact fun h => nomatch (if_neg hcrs).symm.trans h

/-- Each flag bit says whether its part is there. -/
theorem flags_bits (p : StreamParams) :
    (p.bbox.isSome ↔ p.flags &&& FLAG_BBOX ≠ 0) ∧ (p.limit.isSome ↔ p.flags &&& FLAG_LIMIT ≠ 0) := by
  rw [flags]
  cases p.bbox.isSome <;> cases p.limit.isSome <;> decide

theorem decode_encode (utf8Error : List UInt8 → String) {p : StreamParams} (hp : p.Decoded) :
    decode utf8Error p.encode = .ok p :=
  (decode_cons utf8Error).2 ⟨hp, p.flags_bits.1, p.flags_bits.2, List.prefix_refl _⟩

/-- What `decode` returns for the beginning of an encoding, it returns for the whole of it. -/
theorem decode_of_prefix (utf8Error : List UInt8 → String) {p q : StreamParams} (hp : p.Decoded)
    {b : List UInt8} (hb : b <+: p.encode) (h : decode utf8Error b = .ok q) : b = p.encode := by
  cases b with
  | nil => cases h
  | cons flags rest =>
    obtain ⟨rfl, hrest⟩ := List.cons_prefix_cons.1 hb
    obtain ⟨hq, hbbox, hlimit, hpre⟩ := (decode_cons utf8Error).1 h
    have hwhole := (decode_cons utf8Error).2 ⟨hq, hbbox, hlimit, hpre.trans hrest⟩
    rw [← encode, decode_encode utf8Error hp] at hwhole
    cases hwhole
    rw [encode, hrest.eq_of_length_le hpre.length_le]

end StreamParams

/-- A request that is sent is read back as it was, no part of it cut short is read, and no byte string
makes a reader panic. -/
theorem requests_round_trip (utf8Error : List UInt8 → String) :
    (∀ operation params, FitsStart (operation, params) →
      parseStart (startPayload operation params) = .ok (operation, params)) ∧
    (∀ operation ticketHandle, FitsStart (operation, Text.bytes ticketHandle) →
      parseStart ((startFrame operation ticketHandle).drop FRAME_PREFIX_LEN) =
        .ok (operation, Text.bytes ticketHandle)) ∧
    (∀ p : StreamParams, p.Decoded → StreamParams.decode utf8Error p.encode = .ok p) ∧
    (∀ operation params b start, FitsStart (operation, params) →
      b <+: startPayload operation params → parseStart b = .ok start →
        b = startPayload operation params) ∧
    (∀ (p : StreamParams) b q, p.Decoded → b <+: p.encode →
      StreamParams.decode utf8Error b = .ok q → b = p.encode) ∧
    (∀ payload, parseStart payload ≠ .error .panic) ∧
    ∀ b, StreamParams.decode utf8Error b ≠ .error .panic := by
  refine ⟨fun operation params h => parseStart_startPayload h, fun operation ticketHandle h => ?_,
    fun p hp => StreamParams.decode_encode utf8Error hp,
    fun operation params b start h hb hstart => parseStart_of_prefix h hb hstart,
    fun p b q hp hb h => StreamParams.decode_of_prefix utf8Error hp hb h, parseStart_safe,
    StreamParams.decode_safe utf8Error⟩
  rw [startFrame_eq]
  exact parseStart_startPayload h

end SpatialIde.Kernel.Params
