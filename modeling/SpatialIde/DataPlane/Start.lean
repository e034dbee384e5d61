import SpatialIde.DataPlane.Wire
import SpatialIde.Lib.Slice

/-! # The START payload

The operation's name and its parameters, each behind its length.  `parseStart_eq_ok` says what
`parse_start` accepts: a payload that begins with what `start_payload` writes.
-/

namespace SpatialIde.DataPlane

open Lib Lib.Slice

def startPayload (operation : String) (params : List UInt8) : List UInt8 :=
  bytesOf false 2 (Text.bytes operation).length ++ Text.bytes operation ++
    bytesOf false 4 params.length ++ params

/-- `parse_start` from a place of the payload on, with the place where it stops. -/
def takeStart (payload : List UInt8) (start : Nat) :
    Except (Stop Unit) ((String × List UInt8) × Nat) := do
  let (opLen, start) ← takeNumber () 2 payload start
  let (op, start) ← takeText () (fun _ => ()) opLen payload start
  let (paramsLen, start) ← takeNumber () 4 payload start
  let (params, start) ← takeField () paramsLen payload start
  return ((op, params), start)

/-- A refusal is `None`. -/
def parseStart (payload : List UInt8) : Except (Stop Unit) (String × List UInt8) := do
  let (start, _) ← takeStart payload 0
  return start

/-- The lengths fit the fields that hold them. -/
def FitsStart (c : String × List UInt8) : Prop :=
  c.1.utf8ByteSize < 2 ^ 16 ∧ c.2.length < 2 ^ 32

theorem reads_takeStart :
    Reads takeStart (2 + (2 ^ 16 + (4 + 2 ^ 32))) FitsStart fun c => startPayload c.1 c.2 := by
  have hparams : ∀ (op : String) (n : Nat), n < 256 ^ 4 → Reads (fun b start =>
      takeField () n b start >>= fun x => .ok ((op, x.1), x.2)) (2 ^ 32)
      (fun c : String × List UInt8 => c.2.length = n ∧ (op, c.2) = c) (fun c => c.2) :=
    fun op n hn => ((reads_takeField () n).map (fun raw => (op, raw)) Prod.snd fun _ _ => rfl).widen
      (by omega)
  have hlength : ∀ op : String, Reads (fun b start => takeNumber () 4 b start >>= fun x =>
      takeField () x.1 b x.2 >>= fun y => .ok ((op, y.1), y.2)) (4 + 2 ^ 32)
      (fun c : String × List UInt8 => c.2.length < 256 ^ 4 ∧ c.2.length = c.2.length ∧ (op, c.2) = c)
      (fun c => bytesOf false 4 c.2.length ++ c.2) :=
    fun op => (reads_takeNumber () 4).bind (fun c : String × List UInt8 => c.2.length) (hparams op)
      fun _ _ h => h.1
  have hop : ∀ n, n < 256 ^ 2 → Reads (fun b start => takeText () (fun _ => ()) n b start >>= fun x =>
      takeNumber () 4 b x.2 >>= fun y => takeField () y.1 b y.2 >>= fun z => .ok ((x.1, z.1), z.2))
      (2 ^ 16 + (4 + 2 ^ 32))
      (fun c : String × List UInt8 => c.1.utf8ByteSize = n ∧ c.2.length < 256 ^ 4 ∧
        c.2.length = c.2.length ∧ (c.1, c.2) = c)
      (fun c => Text.bytes c.1 ++ (bytesOf false 4 c.2.length ++ c.2)) :=
    fun n hn => ((reads_takeText () (fun _ => ()) n).widen (by omega)).bind Prod.fst
      (fun op _ => hlength op) fun _ _ h => (congrArg Prod.fst h.2.2).symm
  have hstart := (reads_takeNumber () 2).bind (fun c : String × List UInt8 => c.1.utf8ByteSize) hop
    fun _ _ h => h.1
  refine Reads.congr hstart (fun c => ?_) fun c => ?_
  · exact ⟨fun h => ⟨h.1, rfl, h.2, rfl, rfl⟩, fun h => ⟨h.1, h.2.2.1⟩⟩
  · rw [startPayload, Text.length_bytes, List.append_assoc, List.append_assoc]

theorem parseStart_eq_ok {payload params : List UInt8} {operation : String} :
    parseStart payload = .ok (operation, params) ↔
      FitsStart (operation, params) ∧ startPayload operation params <+: payload := by
  rw [parseStart, bind_eq_ok]
  have hread := fun stop => reads_takeStart.eq_ok payload 0 (operation, params) stop (by decide)
    (Nat.zero_le _)
  constructor
  · rintro ⟨⟨start, stop⟩, hstart, h⟩
    cases h
    have h := (hread stop).1 hstart
    exact ⟨h.1, h.2.1⟩
  · rintro ⟨hfits, hpre⟩
    exact ⟨_, (hread _).2 ⟨hfits, hpre, rfl⟩, rfl⟩

theorem parseStart_startPayload {operation : String} {params : List UInt8}
    (h : FitsStart (operation, params)) :
    parseStart (startPayload operation params) = .ok (operation, params) :=
  parseStart_eq_ok.2 ⟨h, List.prefix_refl _⟩

/-- No beginning of a payload is accepted but the whole. -/
theorem parseStart_of_prefix {operation : String} {params b : List UInt8}
    {start : String × List UInt8} (h : FitsStart (operation, params))
    (hb : b <+: startPayload operation params) (hstart : parseStart b = .ok start) :
    b = startPayload operation params := by
  obtain ⟨hfits, hpre⟩ := parseStart_eq_ok.1 hstart
  have hwhole := parseStart_eq_ok.2 ⟨hfits, hpre.trans hb⟩
  rw [parseStart_startPayload h] at hwhole
  cases hwhole
  exact hb.eq_of_length_le hpre.length_le

theorem parseStart_safe (payload : List UInt8) : parseStart payload ≠ .error .panic :=
  bind_safe (reads_takeStart.safe payload 0 (by decide) (Nat.zero_le _)) fun _ _ => nofun

end SpatialIde.DataPlane
