import Mathlib.Data.List.GetD
import SpatialIde.Engine.Wkb.Layout

/-! # WKB decoding inverts encoding

Each reading function of the builders reads exactly one production of the strict
grammar and appends what it read.  The productions compose: positions, rings and
lines, polygons, parts, whole geometries.

* `reads_readRing`, `reads_readLine`: the two sequences of positions;
* `reads_rings`, `MultiPolygonBuilder.reads_pushParts`: the counted levels above;
* `GeometryBuilder.pushWkb_exact`: a push succeeds exactly on the encodings of
  strict geometries and appends the geometry.
-/

namespace SpatialIde.Engine.Wkb

open Lib

variable {σ : Type}

/-- A count field can hold every count. -/
theorem exists_count {k : Nat} (hk : IsCount k) : ∃ n : UInt32, n.toNat = k :=
  ⟨UInt32.ofNat k, by rw [UInt32.toNat_ofNat', Nat.mod_eq_of_lt hk]⟩

/-! ### Positions -/

theorem reads_readPosition : Reads readPosition
    (fun m s w _ m' s' => ∃ p, w = encodePosition m p ∧ m' = m ∧ s' = s ++ coordsOf [p]) := by
  refine Reads.congr (reads_f64.bind fun x => reads_f64.bind fun y => Reads.modifyOut _) ?_
  intro m s w a m' s'
  simp only [and_assoc, existsAndEq, true_and, List.append_nil]
  constructor
  · rintro ⟨x, y, hm, hs, hw⟩
    exact ⟨⟨x, y⟩, hw, hm, hs⟩
  · rintro ⟨p, hw, hm, hs⟩
    exact ⟨p.x, p.y, hm, hs, hw⟩

/-- A loop over positions appends their coordinates, wherever the coordinates are kept. -/
theorem reads_positions (look : σ → List F64) (put : List F64 → σ → σ)
    (hlook : ∀ c s, look (put c s) = c) (hput : ∀ c c' s, put c (put c' s) = put c s)
    (hself : ∀ s, put (look s) s = s) {body : Nat → Decoder σ Unit}
    (hbody : ∀ i, Reads (body i) (fun m s w _ m' s' => ∃ p : Position,
      w = encodePosition m p ∧ m' = m ∧ s' = put (look s ++ coordsOf [p]) s)) (n i : Nat) :
    Reads (forRange body i n) (fun m s w _ m' s' =>
      ∃ ps : List Position, ps.length = n ∧ w = ps.flatMap (encodePosition m) ∧ m' = m ∧
        s' = put (look s ++ coordsOf ps) s) := by
  have hfold : ∀ (ps : List Position) (s : σ),
      ps.foldl (fun s p => put (look s ++ coordsOf [p]) s) s = put (look s ++ coordsOf ps) s := by
    intro ps
    induction ps with
    | nil => intro s; simp [coordsOf, hself]
    | cons p ps ih =>
      intro s
      rw [List.foldl_cons, ih, hlook, hput, List.append_assoc, ← coordsOf_append,
        List.singleton_append]
  have hitem : ∀ i, Reads (body i) (fun m s w _ m' s' => ∃ p : Position,
      True ∧ w = encodePosition m p ∧ m' = m ∧ s' = put (look s ++ coordsOf [p]) s) := by
    simpa only [true_and] using hbody
  refine (Reads.forRange_items hitem n i).congr ?_
  intro m s w a m' s'
  simp only [hfold, implies_true, true_and]

/-! ### Rings and lines -/

/-- The two comparisons `read_ring` makes are those of the first and the last position. -/
theorem closed_iff (cs : List F64) {ps : List Position} (hps : 2 ≤ ps.length) :
    ¬(¬(((cs ++ coordsOf ps).getD cs.length default).eq
          ((cs ++ coordsOf ps).getD ((cs ++ coordsOf ps).length - 2) default) = true) ∨
        ¬(((cs ++ coordsOf ps).getD (cs.length + 1) default).eq
          ((cs ++ coordsOf ps).getD ((cs ++ coordsOf ps).length - 2 + 1) default) = true)) ↔
      closed ps = true := by
  obtain ⟨p, rest, rfl⟩ := List.exists_cons_of_length_pos (by omega : 0 < ps.length)
  have hrest : rest ≠ [] := by
    rintro rfl
    simp at hps
  obtain ⟨mid, q, rfl⟩ : ∃ mid q, rest = mid ++ [q] :=
    ⟨rest.dropLast, rest.getLast hrest, (List.dropLast_append_getLast hrest).symm⟩
  have hcoords : cs ++ coordsOf (p :: (mid ++ [q])) =
      cs ++ (p.x :: p.y :: (coordsOf mid ++ [q.x, q.y])) := by
    have hcons : coordsOf (p :: (mid ++ [q])) = p.x :: p.y :: coordsOf (mid ++ [q]) := rfl
    have hlast : coordsOf [q] = [q.x, q.y] := rfl
    rw [hcons, coordsOf_append, hlast]
  have hlen : (cs ++ coordsOf (p :: (mid ++ [q]))).length - 2 =
      cs.length + (2 + 2 * mid.length) := by
    rw [List.length_append, length_coordsOf]
    simp only [List.length_cons, List.length_append, List.length_nil]
    omega
  have hmid := length_coordsOf mid
  have hx : ∀ k, (p.x :: p.y :: (coordsOf mid ++ [q.x, q.y])).getD (2 + 2 * mid.length + k) default
      = [q.x, q.y].getD k default := by
    intro k
    rw [show 2 + 2 * mid.length + k = (2 * mid.length + k) + 1 + 1 by omega, List.getD_cons_succ,
      List.getD_cons_succ, List.getD_append_right _ _ _ _ (by omega), hmid,
      Nat.add_sub_cancel_left]
  have hget : ∀ k, (cs ++ (p.x :: p.y :: (coordsOf mid ++ [q.x, q.y]))).getD (cs.length + k) default
      = (p.x :: p.y :: (coordsOf mid ++ [q.x, q.y])).getD k default := by
    intro k
    rw [List.getD_append_right _ _ _ _ (by omega), Nat.add_sub_cancel_left]
  have hfirst := hget 0
  rw [Nat.add_zero] at hfirst
  rw [hlen, hcoords, hfirst, hget, hget, Nat.add_assoc, hget, hx,
    show 2 + 2 * mid.length = 2 + 2 * mid.length + 0 from rfl, hx]
  simp [closed, List.getLast?_cons]

/-- One ring more: its positions and its end offset. -/
def RingBuffers.push (b : RingBuffers) (ps : List Position) : RingBuffers where
  coords := b.coords ++ coordsOf ps
  ringOffsets := b.ringOffsets ++ [Int32.ofNat (b.coords.length / 2 + ps.length)]

theorem reads_readRing (ring : Nat) : Reads (readRing ring) (fun m s w _ m' s' =>
    ∃ ps, StrictRing ps ∧ w = encodePositions m ps ∧ m' = m ∧ s' = s.push ps) := by
  have hbody : Reads (zoom RingBuffers.coords (fun c b => { b with coords := c }) readPosition)
      (fun m s w _ m' s' => ∃ p, w = encodePosition m p ∧ m' = m ∧
        s' = { s with coords := s.coords ++ coordsOf [p] }) := by
    refine reads_readPosition.zoom.congr ?_
    intro m s w a m' s'
    simp only [existsAndEq, true_and, and_assoc]
  have hloop := reads_positions RingBuffers.coords (fun c b => { b with coords := c })
    (fun _ _ => rfl) (fun _ _ _ => rfl) (fun _ => rfl) (fun _ : Nat => hbody)
  refine Reads.congr (reads_u32.bind fun n => (Reads.refuseIf _ _).bind fun _ =>
    Reads.getOut.bind fun b => (hloop n.toNat 0).bind fun _ => Reads.getOut.bind fun b' =>
    (Reads.refuseIf _ _).bind fun _ => Reads.modifyOut _) ?_
  intro m s w a m' s'
  simp only [and_assoc, existsAndEq, true_and, exists_const, List.append_nil, List.nil_append,
    half_append]
  constructor
  · rintro ⟨n, ps, hn, hlen, hclosed, hm, hs, hw⟩
    rw [closed_iff _ (by omega)] at hclosed
    exact ⟨ps, ⟨by omega, by rw [hlen]; exact n.toNat_lt, hclosed⟩, by rw [hw, ← hlen]; rfl, hm, hs⟩
  · rintro ⟨ps, ⟨hfour, hcount, hclosed⟩, hw, hm, hs⟩
    obtain ⟨n, hn⟩ := exists_count hcount
    exact ⟨n, ps, by omega, hn.symm, (closed_iff _ (by omega)).2 hclosed, hm, hs, by rw [hw, hn]; rfl⟩

theorem reads_readLine (what : String) : Reads (readLine what) (fun m s w _ m' s' =>
    ∃ ps, StrictLine ps ∧ w = encodePositions m ps ∧ m' = m ∧ s' = s ++ coordsOf ps) := by
  have hloop := reads_positions (fun s => s) (fun c _ => c) (fun _ _ => rfl)
    (fun _ _ _ => rfl) (fun _ => rfl) (fun _ : Nat => reads_readPosition)
  refine Reads.congr (reads_u32.bind fun n => (Reads.refuseIf _ _).bind fun _ =>
    hloop n.toNat 0) ?_
  intro m s w a m' s'
  simp only [and_assoc, existsAndEq, true_and, exists_const, List.nil_append]
  constructor
  · rintro ⟨n, ps, hn, hlen, hm, hs, hw⟩
    exact ⟨ps, ⟨by omega, by rw [hlen]; exact n.toNat_lt⟩, by rw [hw, ← hlen]; rfl, hm, hs⟩
  · rintro ⟨ps, ⟨htwo, hcount⟩, hw, hm, hs⟩
    obtain ⟨n, hn⟩ := exists_count hcount
    exact ⟨n, ps, by omega, hn.symm, hm, hs, by rw [hw, hn]; rfl⟩

/-! ### The counted levels -/

/-- Rings one after the other: their positions and their end offsets. -/
def RingBuffers.pushAll (b : RingBuffers) (rings : List (List Position)) : RingBuffers where
  coords := b.coords ++ coordsOf rings.flatten
  ringOffsets := b.ringOffsets ++ offsetsFrom (b.coords.length / 2) (rings.map List.length)

theorem RingBuffers.foldl_push : ∀ (rings : List (List Position)) (b : RingBuffers),
    rings.foldl RingBuffers.push b = b.pushAll rings := by
  intro rings
  induction rings with
  | nil => intro b; simp [pushAll, coordsOf, offsetsFrom]
  | cons ring rings ih =>
    intro b
    rw [List.foldl_cons, ih, pushAll, push]
    simp only [half_append, pushAll, offsetsFrom, List.map_cons, ends, List.flatten_cons,
      coordsOf_append, List.append_assoc, List.singleton_append]

/-- A loop over rings, wherever the ring buffers are kept. -/
theorem reads_rings (look : σ → RingBuffers) (put : RingBuffers → σ → σ)
    (hlook : ∀ r s, look (put r s) = r) (hput : ∀ r r' s, put r (put r' s) = put r s)
    (hself : ∀ s, put (look s) s = s) (n i : Nat) :
    Reads (forRange (fun ring => zoom look put (readRing ring)) i n) (fun m s w _ m' s' =>
      ∃ rings : List (List Position), rings.length = n ∧ (∀ ring ∈ rings, StrictRing ring) ∧
        w = rings.flatMap (encodePositions m) ∧ m' = m ∧ s' = put ((look s).pushAll rings) s) := by
  have hfold : ∀ (rings : List (List Position)) (s : σ),
      rings.foldl (fun s ring => put ((look s).push ring) s) s =
        put (rings.foldl RingBuffers.push (look s)) s := by
    intro rings
    induction rings with
    | nil => intro s; exact (hself s).symm
    | cons ring rings ih =>
      intro s
      rw [List.foldl_cons, ih, hlook, hput, List.foldl_cons]
  have hitem : ∀ i, Reads (zoom look put (readRing i)) (fun m s w _ m' s' => ∃ ring,
      StrictRing ring ∧ w = encodePositions m ring ∧ m' = m ∧
        s' = put ((look s).push ring) s) := by
    intro i
    refine (reads_readRing i).zoom.congr ?_
    intro m s w a m' s'
    simp only [existsAndEq, true_and, and_assoc]
  refine (Reads.forRange_items hitem n i).congr ?_
  intro m s w a m' s'
  simp only [hfold, RingBuffers.foldl_push]

/-- Rings under a count that is not zero are a polygon body. -/
theorem strictPolygon_iff {rings : List (List Position)} {n : UInt32} (hn : n.toNat = rings.length) :
    StrictPolygon rings ↔ ¬n.toNat = 0 ∧ ∀ ring ∈ rings, StrictRing ring := by
  have hcount : IsCount rings.length := hn ▸ n.toNat_lt
  have hnil : rings ≠ [] ↔ ¬n.toNat = 0 := by rw [hn, Ne, List.length_eq_zero_iff]
  simp only [StrictPolygon, hcount, hnil, true_and]

theorem offsetsFrom_append (base : Nat) (ms ns : List Nat) :
    offsetsFrom base (ms ++ ns) = offsetsFrom base ms ++ offsetsFrom (base + ms.sum) ns := by
  induction ms generalizing base with
  | nil => rfl
  | cons m ms ih =>
    have hcons : ∀ b ks, offsetsFrom b (m :: ks) = Int32.ofNat (b + m) :: offsetsFrom (b + m) ks :=
      fun _ _ => rfl
    rw [List.cons_append, hcons, hcons, ih, List.sum_cons, List.cons_append, Nat.add_assoc]

/-- A part's header names its byte order and the one type it may have. -/
theorem reads_readPartHeader {multi single : String} {wanted : UInt32}
    (hwanted : wanted &&& EWKB_FLAGS = 0) (part : Nat) :
    Reads (readPartHeader multi single wanted part : Decoder σ Unit)
      (fun _ s w _ m' s' => w = encodeHeader m' wanted ∧ s' = s) := by
  refine Reads.congr (reads_byteOrder.bind fun _ => reads_u32.bind fun t =>
    (Reads.refuseIf _ _).bind fun _ => Reads.refuseIf _ _) ?_
  intro m s w a m' s'
  simp only [and_assoc, existsAndEq, true_and, exists_const, List.append_nil, ne_eq, not_not]
  constructor
  · rintro ⟨_, hs, hw⟩
    exact ⟨hw, hs⟩
  · rintro ⟨hw, hs⟩
    exact ⟨hwanted, hs, hw⟩

/-- The byte order the reader is left with after parts. -/
def lastOrder {α : Type} (m : Bool) (parts : List (Bool × α)) : Bool :=
  parts.foldl (fun _ part => part.1) m

/-- Items under a count that is not zero. -/
theorem counted_iff {α : Type} (ok : α → Prop) (enc : List α → List UInt8) (P Q : List α → Prop)
    {m : Bool} {w : List UInt8} :
    (∃ (n : UInt32) (xs : List α), ¬n.toNat = 0 ∧ xs.length = n.toNat ∧ (∀ x ∈ xs, ok x) ∧
      P xs ∧ Q xs ∧ w = bytesOf m 4 n.toNat ++ enc xs) ↔
    ∃ xs : List α, xs ≠ [] ∧ IsCount xs.length ∧ (∀ x ∈ xs, ok x) ∧
      w = bytesOf m 4 xs.length ++ enc xs ∧ P xs ∧ Q xs := by
  constructor
  · rintro ⟨n, xs, hn, hlen, hxs, hP, hQ, hw⟩
    refine ⟨xs, ?_, by rw [hlen]; exact n.toNat_lt, hxs, by rw [hw, ← hlen], hP, hQ⟩
    rintro rfl
    exact hn hlen.symm
  · rintro ⟨xs, hne, hcount, hxs, hw, hP, hQ⟩
    obtain ⟨n, hn⟩ := exists_count hcount
    refine ⟨n, xs, ?_, hn.symm, hxs, hP, hQ, by rw [hw, hn]⟩
    rw [hn, List.length_eq_zero_iff]
    exact hne

namespace MultiPolygonBuilder

/-- One part more, before its geometry is closed. -/
def pushRings (b : MultiPolygonBuilder) (rings : List (List Position)) : MultiPolygonBuilder where
  coords := b.coords ++ coordsOf rings.flatten
  ringOffsets := b.ringOffsets ++ offsetsFrom b.vertices (rings.map List.length)
  partOffsets := b.partOffsets ++ [Int32.ofNat ((b.ringOffsets ++
    offsetsFrom b.vertices (rings.map List.length)).length - 1)]
  geomOffsets := b.geomOffsets

/-- Parts one after the other. -/
theorem foldl_pushRings : ∀ (parts : List (List (List Position))) (b : MultiPolygonBuilder),
    0 < b.ringOffsets.length → parts.foldl pushRings b =
      { b with
        coords := b.coords ++ coordsOf parts.flatten.flatten
        ringOffsets := b.ringOffsets ++ offsetsFrom b.vertices (parts.flatten.map List.length)
        partOffsets := b.partOffsets ++
          offsetsFrom (b.ringOffsets.length - 1) (parts.map List.length) } := by
  intro parts
  induction parts with
  | nil => intro b _; simp [coordsOf, offsetsFrom]
  | cons rings parts ih =>
    intro b hb
    have hlen : (b.pushRings rings).ringOffsets.length - 1 =
        b.ringOffsets.length - 1 + rings.length := by
      rw [pushRings, List.length_append, length_offsetsFrom, List.length_map]
      omega
    have hv : (b.pushRings rings).vertices = b.vertices + (rings.map List.length).sum := by
      rw [vertices, pushRings, half_append, ← List.length_flatten, vertices]
    have hpart : (b.pushRings rings).partOffsets =
        b.partOffsets ++ [Int32.ofNat (b.ringOffsets.length - 1 + rings.length)] := by
      rw [← hlen]
      rfl
    have hends : ∀ (base n : Nat) (ns : List Nat),
        offsetsFrom base (n :: ns) = Int32.ofNat (base + n) :: offsetsFrom (base + n) ns :=
      fun _ _ _ => rfl
    rw [List.foldl_cons, ih _ (by rw [pushRings, List.length_append]; omega), hlen, hv, hpart]
    simp only [pushRings, List.flatten_cons, List.flatten_append, coordsOf_append, List.map_append,
      offsetsFrom_append, List.map_cons, hends, List.append_assoc, List.singleton_append]

theorem reads_pushPart (part : Nat) :
    Reads (pushPart part) (fun m s w _ m' s' => ∃ rings,
      StrictPolygon rings ∧ w = encodeRings m rings ∧ m' = m ∧ s' = s.pushRings rings) := by
  have hloop := reads_rings rings setRings (fun _ _ => rfl) (fun _ _ _ => rfl) (fun _ => rfl)
  refine Reads.congr (reads_u32.bind fun n => (Reads.refuseIf _ _).bind fun _ =>
    (hloop n.toNat 0).bind fun _ => Reads.modifyOut _) ?_
  intro m s w a m' s'
  simp only [and_assoc, existsAndEq, true_and, exists_const, List.append_nil, List.nil_append]
  constructor
  · rintro ⟨n, rings, hn, hlen, hrings, hm, hs, hw⟩
    exact ⟨rings, (strictPolygon_iff hlen.symm).2 ⟨hn, hrings⟩, by rw [hw, ← hlen]; rfl, hm, hs⟩
  · rintro ⟨rings, hstrict, hw, hm, hs⟩
    obtain ⟨n, hn⟩ := exists_count hstrict.2.1
    obtain ⟨hzero, hrings⟩ := (strictPolygon_iff hn).1 hstrict
    exact ⟨n, rings, hzero, hn.symm, hrings, hm, hs, by rw [hw, hn]; rfl⟩

/-- The bytes of a part under its own byte order. -/
def encodePart (part : Bool × List (List Position)) : List UInt8 :=
  encodeHeader part.1 WKB_POLYGON ++ encodeRings part.1 part.2

theorem reads_pushParts : Reads pushParts (fun m s w _ m' s' => ∃ parts : List (Bool × _),
    parts ≠ [] ∧ IsCount parts.length ∧ (∀ part ∈ parts, StrictPolygon part.2) ∧
      w = bytesOf m 4 parts.length ++ parts.flatMap encodePart ∧ m' = lastOrder m parts ∧
      s' = (parts.map Prod.snd).foldl pushRings s) := by
  have hitem : ∀ i : Nat, Reads (readPartHeader "MultiPolygon" "Polygon" WKB_POLYGON i >>=
      fun _ => pushPart i) (fun _ s w _ m' s' => ∃ part : Bool × List (List Position),
        StrictPolygon part.2 ∧ w = encodePart part ∧ m' = part.1 ∧ s' = s.pushRings part.2) := by
    intro i
    refine ((reads_readPartHeader (by decide) i).bind fun _ => reads_pushPart i).congr ?_
    intro m s w a m' s'
    simp only [and_assoc, existsAndEq, true_and, exists_const]
    constructor
    · rintro ⟨rings, hstrict, hs, hw⟩
      exact ⟨(m', rings), hstrict, hw, rfl, hs⟩
    · rintro ⟨⟨order, rings⟩, hstrict, hw, rfl, hs⟩
      exact ⟨rings, hstrict, hs, hw⟩
  refine Reads.congr (reads_u32.bind fun n => (Reads.refuseIf _ _).bind fun _ =>
    Reads.forRange_modal hitem n.toNat 0) ?_
  intro m s w a m' s'
  simp only [and_assoc, existsAndEq, true_and, exists_const, List.nil_append, List.foldl_map]
  exact counted_iff (fun part => StrictPolygon part.2) (fun parts => parts.flatMap encodePart)
    (fun parts => m' = lastOrder m parts)
    (fun parts => s' = parts.foldl (fun s part => s.pushRings part.2) s)

end MultiPolygonBuilder

namespace MultiLineStringBuilder

/-- One part more, before its geometry is closed. -/
def pushLine (b : MultiLineStringBuilder) (ps : List Position) : MultiLineStringBuilder where
  coords := b.coords ++ coordsOf ps
  partOffsets := b.partOffsets ++ [Int32.ofNat ((b.coords ++ coordsOf ps).length / 2)]
  geomOffsets := b.geomOffsets

/-- Parts one after the other. -/
theorem foldl_pushLine : ∀ (parts : List (List Position)) (b : MultiLineStringBuilder),
    parts.foldl pushLine b =
      { b with
        coords := b.coords ++ coordsOf parts.flatten
        partOffsets := b.partOffsets ++ offsetsFrom b.vertices (parts.map List.length) } := by
  intro parts
  induction parts with
  | nil => intro b; simp [coordsOf, offsetsFrom]
  | cons ps parts ih =>
    intro b
    rw [List.foldl_cons, ih]
    simp only [pushLine, vertices, half_append, offsetsFrom, List.map_cons, ends,
      List.flatten_cons, coordsOf_append, List.append_assoc, List.singleton_append]

theorem reads_pushPart (what : String) :
    Reads (pushPart what) (fun m s w _ m' s' => ∃ ps,
      StrictLine ps ∧ w = encodePositions m ps ∧ m' = m ∧ s' = s.pushLine ps) := by
  refine Reads.congr ((reads_readLine what).zoom.bind fun _ => Reads.modifyOut _) ?_
  intro m s w a m' s'
  simp only [and_assoc, existsAndEq, true_and, exists_const, List.append_nil]
  constructor
  · rintro ⟨ps, hps, hm, hs, hw⟩
    exact ⟨ps, hps, hw, hm, hs⟩
  · rintro ⟨ps, hps, hw, hm, hs⟩
    exact ⟨ps, hps, hm, hs, hw⟩

/-- The bytes of a part under its own byte order. -/
def encodePart (part : Bool × List Position) : List UInt8 :=
  encodeHeader part.1 WKB_LINESTRING ++ encodePositions part.1 part.2

theorem reads_pushParts : Reads pushParts (fun m s w _ m' s' => ∃ parts : List (Bool × _),
    parts ≠ [] ∧ IsCount parts.length ∧ (∀ part ∈ parts, StrictLine part.2) ∧
      w = bytesOf m 4 parts.length ++ parts.flatMap encodePart ∧ m' = lastOrder m parts ∧
      s' = (parts.map Prod.snd).foldl pushLine s) := by
  have hitem : ∀ i : Nat, Reads (readPartHeader "MultiLineString" "LineString" WKB_LINESTRING i >>=
      fun _ => pushPart s!"MultiLineString part {i}") (fun _ s w _ m' s' =>
        ∃ part : Bool × List Position,
          StrictLine part.2 ∧ w = encodePart part ∧ m' = part.1 ∧ s' = s.pushLine part.2) := by
    intro i
    refine ((reads_readPartHeader (by decide) i).bind fun _ => reads_pushPart _).congr ?_
    intro m s w a m' s'
    simp only [and_assoc, existsAndEq, true_and, exists_const]
    constructor
    · rintro ⟨ps, hstrict, hs, hw⟩
      exact ⟨(m', ps), hstrict, hw, rfl, hs⟩
    · rintro ⟨⟨order, ps⟩, hstrict, hw, rfl, hs⟩
      exact ⟨ps, hstrict, hs, hw⟩
  refine Reads.congr (reads_u32.bind fun n => (Reads.refuseIf _ _).bind fun _ =>
    Reads.forRange_modal hitem n.toNat 0) ?_
  intro m s w a m' s'
  simp only [and_assoc, existsAndEq, true_and, exists_const, List.nil_append, List.foldl_map]
  exact counted_iff (fun part => StrictLine part.2) (fun parts => parts.flatMap encodePart)
    (fun parts => m' = lastOrder m parts)
    (fun parts => s' = parts.foldl (fun s part => s.pushLine part.2) s)

end MultiLineStringBuilder

/-! ### Whole values -/

/-- Decoding a value is reading its byte order and then all that follows. -/
theorem decodeAll_eq_ok_iff {body : Decoder σ Unit} {G : Grammar UInt8 Bool σ Unit}
    (h : ReadsAll body G) {bytes : List UInt8} {s s' : σ} :
    decodeAll bytes body s = (.ok (), s') ↔
      ∃ outer w m', bytes = orderByte outer :: w ∧ G outer s w () m' s' := by
  cases hnew : Reader.new bytes with
  | error e =>
    have hne : ∀ outer w, bytes ≠ orderByte outer :: w := by
      intro outer w hb
      rw [new_eq_ok_iff.2 ⟨outer, w, hb, rfl⟩] at hnew
      cases hnew
    simp [decodeAll, hnew, hne]
  | ok r =>
    obtain ⟨outer, w, rfl, rfl⟩ := new_eq_ok_iff.1 hnew
    have hin : (⟨orderByte outer :: w, 1, outer⟩ : Reader).InBounds := by simp [Cursor.InBounds]
    have hrun : decodeAll (orderByte outer :: w) body s = (.ok (), s') ↔
        ∃ c', body.run (⟨orderByte outer :: w, 1, outer⟩, s) = .ok () (c', s') := by
      simp only [decodeAll, hnew]
      cases body.run (⟨orderByte outer :: w, 1, outer⟩, s) with
      | ok u st =>
        simp only [EStateM.Result.ok.injEq, Prod.mk.injEq, true_and]
        constructor
        · intro hs
          exact ⟨st.1, by rw [← hs]⟩
        · rintro ⟨c', hc'⟩
          rw [hc']
      | error e st => simp
    rw [hrun]
    constructor
    · rintro ⟨c', hc'⟩
      exact ⟨outer, w, c'.mode, rfl, ((h _ _ _ _ _ hin).1 hc').1⟩
    · rintro ⟨outer', w', m', hb, hG⟩
      obtain ⟨horder, rfl⟩ := List.cons.inj hb
      have hsame : outer' = outer := by
        revert horder
        cases outer <;> cases outer' <;> decide
      subst hsame
      exact ⟨⟨orderByte outer' :: w, (orderByte outer' :: w).length, m'⟩,
        (h _ _ _ _ _ hin).2 ⟨hG, rfl, rfl⟩⟩

/-- The next offset of a level, in the form the builders compute it. -/
theorem offset_push {os : List Int32} (hos : 0 < os.length) (base : Nat) (sizes : List Nat) :
    [Int32.ofNat ((os ++ offsetsFrom base sizes).length - 1)] =
      offsetsFrom (os.length - 1) [sizes.length] := by
  have hlen : (os ++ offsetsFrom base sizes).length - 1 = os.length - 1 + sizes.length := by
    rw [List.length_append, length_offsetsFrom]
    omega
  rw [hlen]
  rfl

theorem PolygonBuilder.pushWkb_eq_ok_iff {b b' : PolygonBuilder} {bytes : List UInt8}
    (hb : 0 < b.ringOffsets.length) :
    b.pushWkb bytes = (.ok (), b') ↔ ∃ outer rings, StrictPolygon rings ∧
      bytes = (Geometry.polygon rings).encode outer [] ∧ b' = b.append rings := by
  have hloop := reads_rings rings setRings (fun _ _ => rfl) (fun _ _ _ => rfl) (fun _ => rfl)
  have hbody : ReadsAll body _ := ReadsAll.bind reads_u32 fun t =>
    ReadsAll.bind (Reads.refuseIf _ _) fun _ => ReadsAll.bind (Reads.refuseIf _ _) fun _ =>
    ReadsAll.bind reads_u32 fun n => ReadsAll.bind (Reads.refuseIf _ _) fun _ =>
    ReadsAll.bind (hloop n.toNat 0) fun _ => ReadsAll.bind (Reads.modifyOut _) fun _ =>
    ReadsAll.expectEnd _
  have happ : ∀ rings : List (List Position),
      { setRings (b.rings.pushAll rings) b with
        geomOffsets := (setRings (b.rings.pushAll rings) b).geomOffsets ++
          [Int32.ofNat ((setRings (b.rings.pushAll rings) b).ringOffsets.length - 1)] } =
        b.append rings := by
    intro rings
    have h := offset_push hb b.vertices (rings.map List.length)
    rw [List.length_map] at h
    rw [append, ← h]
    rfl
  have hflags : WKB_POLYGON &&& EWKB_FLAGS = 0 := by decide
  rw [pushWkb, decodeAll_eq_ok_iff hbody]
  simp only [and_assoc, existsAndEq, true_and, and_true, exists_const, List.append_nil,
    List.nil_append, ne_eq, not_not, happ, hflags]
  constructor
  · rintro ⟨outer, n, rings, hw, hn, hlen, hrings, hs⟩
    refine ⟨outer, rings, (strictPolygon_iff hlen.symm).2 ⟨hn, hrings⟩, ?_, hs⟩
    rw [hw, ← hlen]
    rfl
  · rintro ⟨outer, rings, hstrict, hw, hs⟩
    obtain ⟨n, hn⟩ := exists_count hstrict.2.1
    obtain ⟨hzero, hrings⟩ := (strictPolygon_iff hn).1 hstrict
    refine ⟨outer, n, rings, ?_, hzero, hn.symm, hrings, hs⟩
    rw [hw, hn]
    rfl

theorem PointBuilder.pushWkb_eq_ok_iff {b b' : PointBuilder} {bytes : List UInt8} :
    b.pushWkb bytes = (.ok (), b') ↔ ∃ outer p, (Geometry.point p).Strict ∧
      bytes = (Geometry.point p).encode outer [] ∧ b' = b.append p := by
  have hbody : ReadsAll body _ := ReadsAll.bind reads_u32 fun t =>
    ReadsAll.bind (Reads.refuseIf _ _) fun _ => ReadsAll.bind (Reads.refuseIf _ _) fun _ =>
    ReadsAll.bind reads_f64 fun x => ReadsAll.bind reads_f64 fun y =>
    ReadsAll.bind (Reads.refuseIf _ _) fun _ =>
    ReadsAll.bind_atEnd (ReadsAll.expectEnd _) fun _ => Reads.modifyOut _
  have hflags : WKB_POINT &&& EWKB_FLAGS = 0 := by decide
  rw [pushWkb, decodeAll_eq_ok_iff hbody]
  simp only [and_assoc, existsAndEq, true_and, and_true, exists_const, List.append_nil,
    List.nil_append, ne_eq, not_not, hflags, not_or, Bool.not_eq_true]
  constructor
  · rintro ⟨outer, x, y, hw, hx, hy, hs⟩
    exact ⟨outer, ⟨x, y⟩, ⟨hx, hy⟩, hw, hs⟩
  · rintro ⟨outer, p, ⟨hx, hy⟩, hw, hs⟩
    exact ⟨outer, p.x, p.y, hw, hx, hy, hs⟩

theorem LineStringBuilder.decode_eq_ok_iff {b b' : LineStringBuilder} {bytes : List UInt8} :
    decodeAll bytes decode b = (.ok (), b') ↔ ∃ outer ps, StrictLine ps ∧
      bytes = (Geometry.lineString ps).encode outer [] ∧
        b' = { b with coords := b.coords ++ coordsOf ps } := by
  have hbody : ReadsAll decode _ := ReadsAll.bind reads_u32 fun t =>
    ReadsAll.bind (Reads.refuseIf _ _) fun _ => ReadsAll.bind (Reads.refuseIf _ _) fun _ =>
    ReadsAll.bind (reads_readLine _).zoom fun _ => ReadsAll.expectEnd _
  have hflags : WKB_LINESTRING &&& EWKB_FLAGS = 0 := by decide
  rw [decodeAll_eq_ok_iff hbody]
  simp only [and_assoc, existsAndEq, true_and, and_true, exists_const, List.append_nil,
    List.nil_append, ne_eq, not_not, hflags]
  constructor
  · rintro ⟨outer, ps, hw, hps, hs⟩
    exact ⟨outer, ps, hps, hw, hs⟩
  · rintro ⟨outer, ps, hps, hw, hs⟩
    exact ⟨outer, ps, hw, hps, hs⟩

theorem LineStringBuilder.pushWkb_eq_ok_iff {b b' : LineStringBuilder} {bytes : List UInt8} :
    b.pushWkb bytes = (.ok (), b') ↔ ∃ outer ps, StrictLine ps ∧
      bytes = (Geometry.lineString ps).encode outer [] ∧ b' = b.append ps := by
  have hpush : b.pushWkb bytes = (.ok (), b') ↔ ∃ d, decodeAll bytes decode b = (.ok (), d) ∧
      b' = { d with geomOffsets := d.geomOffsets ++ [Int32.ofNat d.vertices] } := by
    rw [pushWkb]
    cases decodeAll bytes decode b with
    | mk r d =>
      cases r with
      | error e => simp
      | ok u => simp [eq_comm]
  rw [hpush]
  simp only [decode_eq_ok_iff]
  constructor
  · rintro ⟨d, ⟨outer, ps, hps, hw, rfl⟩, hs⟩
    refine ⟨outer, ps, hps, hw, ?_⟩
    rw [hs, vertices, half_append]
    rfl
  · rintro ⟨outer, ps, hps, hw, hs⟩
    refine ⟨_, ⟨outer, ps, hps, hw, rfl⟩, ?_⟩
    rw [hs, vertices, half_append]
    rfl

/-- Parts read with their byte orders are parts and, beside them, as many byte orders. -/
theorem headed_parts {α : Type} (ok : α → Prop) (enc : Bool × α → List UInt8)
    (W : Nat → List UInt8 → Prop) (S : List α → Prop) :
    (∃ parts : List (Bool × α), W parts.length (parts.flatMap enc) ∧ ¬parts = [] ∧
      IsCount parts.length ∧ (∀ part ∈ parts, ok part.2) ∧ S (parts.map Prod.snd)) ↔
    ∃ (orders : List Bool) (parts : List α), orders.length = parts.length ∧
      (parts ≠ [] ∧ IsCount parts.length ∧ ∀ part ∈ parts, ok part) ∧
      W parts.length ((orders.zip parts).flatMap enc) ∧ S parts := by
  constructor
  · rintro ⟨parts, hw, hne, hcount, hparts, hs⟩
    refine ⟨parts.map Prod.fst, parts.map Prod.snd, by simp, ⟨by simpa, by simpa, ?_⟩, ?_, hs⟩
    · intro x hx
      obtain ⟨part, hpart, rfl⟩ := List.mem_map.1 hx
      exact hparts part hpart
    · rwa [← List.unzip_fst, ← List.unzip_snd, List.zip_unzip, List.unzip_snd, List.length_map]
  · rintro ⟨orders, parts, hlen, ⟨hne, hcount, hparts⟩, hw, hs⟩
    have hsnd : (orders.zip parts).map Prod.snd = parts :=
      List.map_snd_zip (Nat.le_of_eq hlen.symm)
    have hzip : (orders.zip parts).length = parts.length := by
      rw [← List.length_map Prod.snd, hsnd]
    refine ⟨orders.zip parts, by rwa [hzip], ?_, by rwa [hzip], ?_, by rwa [hsnd]⟩
    · rw [← List.length_eq_zero_iff, hzip, List.length_eq_zero_iff]
      exact hne
    · intro part hpart
      exact hparts part.2 (hsnd ▸ List.mem_map_of_mem hpart)

/-- Pushing parts and closing the geometry is appending it. -/
theorem MultiPolygonBuilder.append_eq {b : MultiPolygonBuilder} (hr : 0 < b.ringOffsets.length)
    (hp : 0 < b.partOffsets.length) (parts : List (List (List Position))) :
    { parts.foldl pushRings b with
      geomOffsets := (parts.foldl pushRings b).geomOffsets ++
        [Int32.ofNat ((parts.foldl pushRings b).partOffsets.length - 1)] } = b.append parts := by
  have h := offset_push hp (b.ringOffsets.length - 1) (parts.map List.length)
  rw [List.length_map] at h
  rw [foldl_pushRings parts b hr, append, ← h]

theorem MultiPolygonBuilder.pushWkb_eq_ok_iff {b b' : MultiPolygonBuilder} {bytes : List UInt8}
    (hr : 0 < b.ringOffsets.length) (hp : 0 < b.partOffsets.length) :
    b.pushWkb bytes = (.ok (), b') ↔
      (∃ outer rings, StrictPolygon rings ∧
        bytes = (Geometry.polygon rings).encode outer [] ∧ b' = b.append [rings]) ∨
      (∃ outer orders parts, orders.length = parts.length ∧
        (Geometry.multiPolygon parts).Strict ∧
        bytes = (Geometry.multiPolygon parts).encode outer orders ∧ b' = b.append parts) := by
  have hbody : ReadsAll body _ := ReadsAll.bind reads_u32 fun t =>
    ReadsAll.bind (Reads.refuseIf _ _) fun _ =>
    ReadsAll.bind (Reads.ite (reads_pushPart 0) (Reads.ite reads_pushParts (Reads.fail _))) fun _ =>
    ReadsAll.bind_atEnd (ReadsAll.expectEnd _) fun _ => Reads.modifyOut _
  have hflags : WKB_POLYGON &&& EWKB_FLAGS = 0 := by decide
  have hflags' : WKB_MULTIPOLYGON &&& EWKB_FLAGS = 0 := by decide
  have hcodes : ¬WKB_MULTIPOLYGON = WKB_POLYGON := by decide
  rw [pushWkb, decodeAll_eq_ok_iff hbody]
  simp only [and_assoc, existsAndEq, true_and, and_true, exists_const, List.append_nil,
    List.nil_append, ne_eq, not_not, or_and_right, and_or_left, exists_or, and_false, or_false,
    hflags, hflags', hcodes, not_false_eq_true, append_eq hr hp]
  refine or_congr ?_ (exists_congr fun outer => ?_)
  · constructor
    · rintro ⟨outer, rings, hw, hrings, hs⟩
      exact ⟨outer, rings, hrings, hw, hs.trans (append_eq hr hp [rings])⟩
    · rintro ⟨outer, rings, hrings, hw, hs⟩
      exact ⟨outer, rings, hw, hrings, hs.trans (append_eq hr hp [rings]).symm⟩
  · exact headed_parts StrictPolygon encodePart
      (fun n w => bytes = orderByte outer :: (bytesOf outer 4 WKB_MULTIPOLYGON.toNat ++
        (bytesOf outer 4 n ++ w))) (fun parts => b' = b.append parts)

/-- Pushing parts and closing the geometry is appending it. -/
theorem MultiLineStringBuilder.append_eq {b : MultiLineStringBuilder}
    (hp : 0 < b.partOffsets.length) (parts : List (List Position)) :
    { parts.foldl pushLine b with
      geomOffsets := (parts.foldl pushLine b).geomOffsets ++
        [Int32.ofNat ((parts.foldl pushLine b).partOffsets.length - 1)] } = b.append parts := by
  have h := offset_push hp b.vertices (parts.map List.length)
  rw [List.length_map] at h
  rw [foldl_pushLine parts b, append, ← h]

theorem MultiLineStringBuilder.pushWkb_eq_ok_iff {b b' : MultiLineStringBuilder}
    {bytes : List UInt8} (hp : 0 < b.partOffsets.length) :
    b.pushWkb bytes = (.ok (), b') ↔
      (∃ outer ps, StrictLine ps ∧
        bytes = (Geometry.lineString ps).encode outer [] ∧ b' = b.append [ps]) ∨
      (∃ outer orders parts, orders.length = parts.length ∧
        (Geometry.multiLineString parts).Strict ∧
        bytes = (Geometry.multiLineString parts).encode outer orders ∧ b' = b.append parts) := by
  have hbody : ReadsAll decode _ := ReadsAll.bind reads_u32 fun t =>
    ReadsAll.bind (Reads.refuseIf _ _) fun _ =>
    ReadsAll.bind (Reads.ite (reads_pushPart "LineString")
      (Reads.ite reads_pushParts (Reads.fail _))) fun _ => ReadsAll.expectEnd _
  have hpush : b.pushWkb bytes = (.ok (), b') ↔ ∃ d, decodeAll bytes decode b = (.ok (), d) ∧
      b' = { d with geomOffsets := d.geomOffsets ++ [Int32.ofNat (d.partOffsets.length - 1)] } := by
    rw [pushWkb]
    cases decodeAll bytes decode b with
    | mk r d =>
      cases r with
      | error e => simp
      | ok u => simp [eq_comm]
  have hflags : WKB_LINESTRING &&& EWKB_FLAGS = 0 := by decide
  have hflags' : WKB_MULTILINESTRING &&& EWKB_FLAGS = 0 := by decide
  have hcodes : ¬WKB_MULTILINESTRING = WKB_LINESTRING := by decide
  rw [hpush]
  simp only [decodeAll_eq_ok_iff hbody]
  simp only [and_assoc, existsAndEq, true_and, and_true, exists_const, List.append_nil,
    List.nil_append, ne_eq, not_not, or_and_right, and_or_left, exists_or, and_false, or_false,
    hflags, hflags', hcodes, not_false_eq_true, append_eq hp]
  refine or_congr ?_ (exists_congr fun outer => ?_)
  · constructor
    · rintro ⟨outer, ps, hw, hps, hs⟩
      exact ⟨outer, ps, hps, hw, hs.trans (append_eq hp [ps])⟩
    · rintro ⟨outer, ps, hps, hw, hs⟩
      exact ⟨outer, ps, hw, hps, hs.trans (append_eq hp [ps]).symm⟩
  · exact headed_parts StrictLine encodePart
      (fun n w => bytes = orderByte outer :: (bytesOf outer 4 WKB_MULTILINESTRING.toNat ++
        (bytesOf outer 4 n ++ w))) (fun parts => b' = b.append parts)

namespace GeometryBuilder

theorem map_eq_ok_iff {β : Type} {r : Except EngineError Unit × β} {f : β → GeometryBuilder}
    {b' : GeometryBuilder} : r.map id f = (.ok (), b') ↔ ∃ d, r = (.ok (), d) ∧ b' = f d := by
  obtain ⟨e, d⟩ := r
  simp only [Prod.map, id_eq, Prod.mk.injEq]
  constructor
  · rintro ⟨rfl, rfl⟩
    exact ⟨d, ⟨rfl, rfl⟩, rfl⟩
  · rintro ⟨d, ⟨rfl, rfl⟩, rfl⟩
    exact ⟨rfl, rfl⟩

/-- Every offset buffer has its leading entry, as `new` leaves it. -/
def Started : GeometryBuilder → Prop
  | .polygon b => 0 < b.ringOffsets.length
  | .multiPolygon b => 0 < b.ringOffsets.length ∧ 0 < b.partOffsets.length
  | .point _ => True
  | .lineString _ => True
  | .multiLineString b => 0 < b.partOffsets.length

theorem started_new : ∀ e : GeometryEncoding, (new e).Started := by
  intro e
  cases e <;> simp [new, Started, PolygonBuilder.new, MultiPolygonBuilder.new,
    MultiLineStringBuilder.new]

theorem Started.append {b : GeometryBuilder} (h : b.Started) (g : Geometry) :
    (b.append g).Started := by
  cases b <;> cases g <;> simp only [GeometryBuilder.append, Started, PolygonBuilder.append,
    MultiPolygonBuilder.append, MultiLineStringBuilder.append, List.length_append] at h ⊢ <;> omega

theorem WellFormed.started {b : GeometryBuilder} (h : b.WellFormed) : b.Started := by
  have hpos : ∀ {os : List Int32} {n : Nat}, IsOffsetBuffer os n → 0 < os.length := by
    intro os n hos
    have hne := hos.cuts.ne_nil
    rw [offsetValues, Ne, List.map_eq_nil_iff] at hne
    exact List.length_pos_iff.2 hne
  cases b with
  | polygon b => exact hpos h.rings
  | multiPolygon b => exact ⟨hpos h.rings, hpos h.parts⟩
  | point b => trivial
  | lineString b => trivial
  | multiLineString b => exact hpos h.parts

/-- **A push succeeds on the encodings of the strict geometries its builder reads**, under any
byte orders, and then it appends the geometry. -/
theorem pushWkb_eq_ok_iff {b : GeometryBuilder} (h : b.Started) {bytes : List UInt8}
    {b' : GeometryBuilder} : b.pushWkb bytes = (.ok (), b') ↔
      ∃ (g : Geometry) (outer : Bool) (orders : List Bool), Readable b.encoding g ∧ g.Strict ∧
        orders.length = g.headedParts ∧ bytes = g.encode outer orders ∧ b' = b.append g := by
  cases b with
  | polygon b =>
    rw [pushWkb, map_eq_ok_iff]
    simp only [PolygonBuilder.pushWkb_eq_ok_iff h]
    constructor
    · rintro ⟨d, ⟨outer, rings, hstrict, hw, rfl⟩, hs⟩
      exact ⟨.polygon rings, outer, [], trivial, hstrict, rfl, hw, hs⟩
    · rintro ⟨g, outer, orders, hread, hstrict, hlen, hw, hs⟩
      cases g with
      | polygon rings => exact ⟨_, ⟨outer, rings, hstrict, hw, rfl⟩, hs⟩
      | point | lineString | multiLineString | multiPolygon => exact hread.elim
  | multiPolygon b =>
    rw [pushWkb, map_eq_ok_iff]
    simp only [MultiPolygonBuilder.pushWkb_eq_ok_iff h.1 h.2]
    constructor
    · rintro ⟨d, ⟨outer, rings, hstrict, hw, rfl⟩ | ⟨outer, orders, parts, hlen, hstrict, hw, rfl⟩,
        hs⟩
      · exact ⟨.polygon rings, outer, [], trivial, hstrict, rfl, hw, hs⟩
      · exact ⟨.multiPolygon parts, outer, orders, trivial, hstrict, hlen, hw, hs⟩
    · rintro ⟨g, outer, orders, hread, hstrict, hlen, hw, hs⟩
      cases g with
      | polygon rings => exact ⟨_, .inl ⟨outer, rings, hstrict, hw, rfl⟩, hs⟩
      | multiPolygon parts => exact ⟨_, .inr ⟨outer, orders, parts, hlen, hstrict, hw, rfl⟩, hs⟩
      | point | lineString | multiLineString => exact hread.elim
  | point b =>
    rw [pushWkb, map_eq_ok_iff]
    simp only [PointBuilder.pushWkb_eq_ok_iff]
    constructor
    · rintro ⟨d, ⟨outer, p, hstrict, hw, rfl⟩, hs⟩
      exact ⟨.point p, outer, [], trivial, hstrict, rfl, hw, hs⟩
    · rintro ⟨g, outer, orders, hread, hstrict, hlen, hw, hs⟩
      cases g with
      | point p => exact ⟨_, ⟨outer, p, hstrict, hw, rfl⟩, hs⟩
      | polygon | lineString | multiLineString | multiPolygon => exact hread.elim
  | lineString b =>
    rw [pushWkb, map_eq_ok_iff]
    simp only [LineStringBuilder.pushWkb_eq_ok_iff]
    constructor
    · rintro ⟨d, ⟨outer, ps, hstrict, hw, rfl⟩, hs⟩
      exact ⟨.lineString ps, outer, [], trivial, hstrict, rfl, hw, hs⟩
    · rintro ⟨g, outer, orders, hread, hstrict, hlen, hw, hs⟩
      cases g with
      | lineString ps => exact ⟨_, ⟨outer, ps, hstrict, hw, rfl⟩, hs⟩
      | point | polygon | multiLineString | multiPolygon => exact hread.elim
  | multiLineString b =>
    rw [pushWkb, map_eq_ok_iff]
    simp only [MultiLineStringBuilder.pushWkb_eq_ok_iff h]
    constructor
    · rintro ⟨d, ⟨outer, ps, hstrict, hw, rfl⟩ | ⟨outer, orders, parts, hlen, hstrict, hw, rfl⟩,
        hs⟩
      · exact ⟨.lineString ps, outer, [], trivial, hstrict, rfl, hw, hs⟩
      · exact ⟨.multiLineString parts, outer, orders, trivial, hstrict, hlen, hw, hs⟩
    · rintro ⟨g, outer, orders, hread, hstrict, hlen, hw, hs⟩
      cases g with
      | lineString ps => exact ⟨_, .inl ⟨outer, ps, hstrict, hw, rfl⟩, hs⟩
      | multiLineString parts => exact ⟨_, .inr ⟨outer, orders, parts, hlen, hstrict, hw, rfl⟩, hs⟩
      | point | polygon | multiPolygon => exact hread.elim

/-- **WKB decoding inverts encoding.**  A push into a well-formed builder succeeds exactly on the
encodings, under any byte orders, of the strict geometries the builder reads, and appends the
geometry; while the running totals fit an `i32` the builder stays well formed and holds that
geometry after the ones it held. -/
theorem pushWkb_exact (b : GeometryBuilder) (h : b.WellFormed) (bytes : List UInt8) :
    (∀ b', b.pushWkb bytes = (.ok (), b') ↔
      ∃ (g : Geometry) (outer : Bool) (orders : List Bool), Readable b.encoding g ∧ g.Strict ∧
        orders.length = g.headedParts ∧ bytes = g.encode outer orders ∧ b' = b.append g) ∧
    ∀ g, Readable b.encoding g → (b.append g).Fits → (b.append g).WellFormed ∧
      (b.append g).geometries = b.geometries ++ [normal b.encoding g] :=
  ⟨fun _ => pushWkb_eq_ok_iff h.started, fun _ hg hfit => geometries_append h hg hfit⟩

/-- A part under the other byte order than its multipolygon. -/
theorem pushWkb_exact_mixed_orders :
    let ring := [⟨⟨0⟩, ⟨0⟩⟩, ⟨⟨1⟩, ⟨0⟩⟩, ⟨⟨1⟩, ⟨1⟩⟩, ⟨⟨0⟩, ⟨0⟩⟩]
    ∃ b', (new .multiPolygon).pushWkb ((Geometry.multiPolygon [[ring]]).encode false [true]) =
      (.ok (), b') ∧ b'.geometries = [.multiPolygon [[ring]]] := by
  intro ring
  have h := pushWkb_exact (new .multiPolygon) (wellFormed_new _)
    ((Geometry.multiPolygon [[ring]]).encode false [true])
  refine ⟨_, (h.1 _).2 ⟨.multiPolygon [[ring]], false, [true], trivial, by decide, rfl, rfl, rfl⟩,
    (h.2 (.multiPolygon [[ring]]) trivial ?_).2⟩
  intro n hn
  revert n
  decide

/-- A line of `2 ^ 31` positions is accepted, the offset appended for it is negative, and the line
cannot be read back. -/
theorem pushWkb_line_wraps {line : List Position} (hlen : line.length = 2 ^ 31) :
    (Geometry.lineString line).Strict ∧
      (new .lineString).pushWkb ((Geometry.lineString line).encode true []) =
        (.ok (), .lineString ⟨coordsOf line, [0, -2147483648]⟩) ∧
      (GeometryBuilder.lineString ⟨coordsOf line, [0, -2147483648]⟩).geometries ≠
        [.lineString line] := by
  have hstrict : (Geometry.lineString line).Strict :=
    ⟨by rw [hlen]; decide, by rw [hlen]; decide⟩
  have hafter : (new .lineString).append (.lineString line) =
      .lineString ⟨coordsOf line, [0, -2147483648]⟩ := by
    have hoffset : offsetsFrom 0 [2 ^ 31] = [-2147483648] := by decide
    simp only [new, append, LineStringBuilder.append, LineStringBuilder.new,
      LineStringBuilder.vertices, List.nil_append, List.length_nil, hlen]
    rw [show 0 / 2 = 0 from rfl, hoffset]
    rfl
  refine ⟨hstrict, ?_, ?_⟩
  · rw [← hafter]
    exact (pushWkb_eq_ok_iff (started_new .lineString)).2
      ⟨.lineString line, true, [], trivial, hstrict, rfl, rfl, rfl⟩
  · intro hread
    have hvalues : offsetValues [0, -2147483648] = [0, 0] := by decide
    simp only [geometries, LineStringBuilder.lines, items, hvalues, slices, Nat.sub_self,
      List.take_zero, List.map_cons, List.map_nil, List.cons.injEq, Geometry.lineString.injEq,
      and_true] at hread
    rw [← hread] at hlen
    simp at hlen

/-- **An offset that does not fit wraps.** -/
theorem pushWkb_wraps :
    let line : List Position := List.replicate (2 ^ 31) ⟨⟨0⟩, ⟨0⟩⟩
    (Geometry.lineString line).Strict ∧
      (new .lineString).pushWkb ((Geometry.lineString line).encode true []) =
        (.ok (), .lineString ⟨coordsOf line, [0, -2147483648]⟩) ∧
      (GeometryBuilder.lineString ⟨coordsOf line, [0, -2147483648]⟩).geometries ≠
        [.lineString line] :=
  pushWkb_line_wraps List.length_replicate

end GeometryBuilder

end SpatialIde.Engine.Wkb
