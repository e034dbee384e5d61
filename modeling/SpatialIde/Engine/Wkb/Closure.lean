import SpatialIde.Engine.Wkb.Rows

/-! # Ring closure, bit for bit

`read_ring` promises bit-exact closure and compares the endpoints with `f64`
equality, which takes the two zeros for one.  A ring that starts at one zero and
ends at the other is accepted, and its endpoints are stored as they came.

* `accepted_rings_bit_closed_iff`: which accepted rings are closed bit for bit.
-/

namespace SpatialIde.Engine.Wkb

open Lib

/-- The rings of a geometry, in the order they are read. -/
def Geometry.rings : Geometry → List (List Position)
  | .polygon rings => rings
  | .multiPolygon parts => parts.flatten
  | _ => []

/-- The first and the last position have the same bits. -/
def BitClosed (ring : List Position) : Prop := ring.head? = ring.getLast?

/-- A coordinate of the first position is a zero and that of the last the zero of the other
sign. -/
def SignedZeroEnds (ring : List Position) : Prop :=
  match ring.head?, ring.getLast? with
  | some p, some q => p.x.OppositeZeros q.x ∨ p.y.OppositeZeros q.y
  | _, _ => False

instance (ring : List Position) : Decidable (BitClosed ring) := inferInstanceAs (Decidable (_ = _))

/-- A closed ring is closed bit for bit unless it runs from one zero to the other. -/
theorem bitClosed_iff {ring : List Position} (h : closed ring = true) :
    BitClosed ring ↔ ¬SignedZeroEnds ring := by
  unfold closed at h
  unfold BitClosed SignedZeroEnds
  cases hp : ring.head? with
  | none =>
    rw [hp] at h
    cases h
  | some p =>
    cases hq : ring.getLast? with
    | none =>
      rw [hp, hq] at h
      cases h
    | some q =>
      rw [hp, hq] at h
      simp only [Bool.and_eq_true] at h
      have hx := F64.eq_bits_iff h.1
      have hy := F64.eq_bits_iff h.2
      obtain ⟨px, py⟩ := p
      obtain ⟨qx, qy⟩ := q
      simp only [Option.some.injEq, Position.mk.injEq, not_or]
      rw [hx, hy]

/-- Every ring of a strict geometry passed the closure check. -/
theorem Geometry.Strict.closed {g : Geometry} (h : g.Strict) :
    ∀ ring ∈ g.rings, Wkb.closed ring = true := by
  intro ring hring
  cases g with
  | polygon rings => exact (h.2.2 ring hring).2.2
  | multiPolygon parts =>
    obtain ⟨part, hpart, hin⟩ := List.mem_flatten.1 hring
    exact ((h.2.2 part hpart).2.2 ring hin).2.2
  | point | lineString | multiLineString => cases hring

namespace GeometryBuilder

/-- The push of `bytes` that took `b` to `b'` read the geometry `g`. -/
def Decodes (b : GeometryBuilder) (bytes : List UInt8) (b' : GeometryBuilder) (g : Geometry) :
    Prop :=
  Readable b.encoding g ∧ g.Strict ∧ b' = b.append g ∧
    ∃ (outer : Bool) (orders : List Bool), orders.length = g.headedParts ∧
      bytes = g.encode outer orders

/-- **Which accepted rings are closed bit for bit**: whatever rows came before, an accepted byte
string is the encoding of a geometry, and all its rings are closed bit for bit exactly when none
starts at a zero and ends, in that coordinate, at the zero of the other sign. -/
theorem accepted_rings_bit_closed_iff {encoding : GeometryEncoding} (rows : List (List UInt8))
    {bytes : List UInt8} {b' : GeometryBuilder}
    (hok : ((new encoding).offered rows).pushWkb bytes = (.ok (), b')) :
    (∃ g, Decodes ((new encoding).offered rows) bytes b' g) ∧
      ∀ g, Decodes ((new encoding).offered rows) bytes b' g →
        ((∀ ring ∈ g.rings, BitClosed ring) ↔ ∀ ring ∈ g.rings, ¬SignedZeroEnds ring) := by
  constructor
  · obtain ⟨g, outer, orders, hread, hstrict, hlen, hbytes, happ⟩ :=
      (pushWkb_eq_ok_iff (started_offered encoding rows)).1 hok
    exact ⟨g, hread, hstrict, happ, outer, orders, hlen, hbytes⟩
  · rintro g ⟨_, hstrict, _, _⟩
    have hiff : ∀ ring ∈ g.rings, (BitClosed ring ↔ ¬SignedZeroEnds ring) :=
      fun ring hring => bitClosed_iff (hstrict.closed ring hring)
    constructor
    · intro h ring hring
      exact (hiff ring hring).1 (h ring hring)
    · intro h ring hring
      exact (hiff ring hring).2 (h ring hring)

theorem accepted_rings_bit_closed_iff_square :
    let square : List Position := [⟨⟨0⟩, ⟨0⟩⟩, ⟨⟨1⟩, ⟨0⟩⟩, ⟨⟨1⟩, ⟨1⟩⟩, ⟨⟨0⟩, ⟨0⟩⟩]
    let held := (new .multiPolygon).offered [[7]]
    ∀ g, Decodes held ((Geometry.multiPolygon [[square]]).encode true [false])
        (held.append (.multiPolygon [[square]])) g →
      ((∀ ring ∈ g.rings, BitClosed ring) ↔ ∀ ring ∈ g.rings, ¬SignedZeroEnds ring) := by
  intro square held
  have hok : held.pushWkb ((Geometry.multiPolygon [[square]]).encode true [false]) =
      (.ok (), held.append (.multiPolygon [[square]])) := by decide +kernel
  exact (accepted_rings_bit_closed_iff [[7]] hok).2

/-- A ring that starts at `0.0` and ends at `-0.0` is accepted by both builders, and its endpoints
are stored with different bits. -/
theorem signed_zero_ring_accepted :
    let ring : List Position :=
      [⟨⟨0⟩, ⟨0⟩⟩, ⟨⟨1⟩, ⟨0⟩⟩, ⟨⟨1⟩, ⟨1⟩⟩, ⟨⟨0x8000000000000000⟩, ⟨0⟩⟩]
    let bytes := (Geometry.polygon [ring]).encode true []
    let coords : List F64 := [⟨0⟩, ⟨0⟩, ⟨1⟩, ⟨0⟩, ⟨1⟩, ⟨1⟩, ⟨0x8000000000000000⟩, ⟨0⟩]
    (new .polygon).pushWkb bytes = (.ok (), .polygon ⟨coords, [0, 4], [0, 1]⟩) ∧
      (new .multiPolygon).pushWkb bytes =
        (.ok (), .multiPolygon ⟨coords, [0, 4], [0, 1], [0, 1]⟩) ∧
      ¬BitClosed ring := by
  decide +kernel

end GeometryBuilder

end SpatialIde.Engine.Wkb
