import SpatialIde.Engine.Wkb.Decode

/-! # Rows offered one after the other

A builder is offered the WKB values of a query one by one, and some are refused.
A decode only ever appends, so what a refusal leaves behind is what the builder
held with something after it; three builders take that something back.

* `Extends`: one builder holds what another does, and more;
* `refused_row_appends_nothing`: what a refused point, linestring or
  multilinestring row leaves;
* `started_offered`: no run of rows loses a leading offset.
-/

namespace SpatialIde.Engine.Wkb

open Lib

variable {σ α : Type} {R : σ → σ → Prop}

/-! ### A decode appends -/

theorem leaves_take (hrefl : ∀ s, R s s) (n : Nat) :
    Leaves R (take n : Decoder σ (List UInt8)) := by
  refine Leaves.same hrefl fun st => ?_
  change (stopped (take n st)).2 = st.2
  unfold take
  dsimp only
  split_ifs
  · rfl
  · rfl

section Readers

variable (hrefl : ∀ s, R s s) (htrans : ∀ s s' s'', R s s' → R s' s'' → R s s'')

include hrefl htrans

theorem leaves_u32 : Leaves R (u32 : Decoder σ UInt32) :=
  (leaves_take hrefl 4).bind htrans fun _ =>
    (Leaves.same hrefl fun _ => rfl).bind htrans fun _ => .same hrefl fun _ => rfl

theorem leaves_f64 : Leaves R (f64 : Decoder σ F64) :=
  (leaves_take hrefl 8).bind htrans fun _ =>
    (Leaves.same hrefl fun _ => rfl).bind htrans fun _ => .same hrefl fun _ => rfl

theorem leaves_byteOrder : Leaves R (byteOrder : Decoder σ Unit) := by
  refine (leaves_take hrefl 1).bind htrans fun raw => ?_
  dsimp only
  cases littleOf (raw.headD 0) with
  | none => exact .same hrefl fun _ => rfl
  | some little => exact .same hrefl fun _ => rfl

theorem leaves_readPartHeader (multi single : String) (wanted : UInt32) (part : Nat) :
    Leaves R (readPartHeader multi single wanted part : Decoder σ Unit) :=
  (leaves_byteOrder hrefl htrans).bind htrans fun _ =>
    (leaves_u32 hrefl htrans).bind htrans fun _ =>
      (Leaves.refuseIf hrefl _ _).bind htrans fun _ => .refuseIf hrefl _ _

end Readers

/-- A whole decode, the refusal of the outer byte order included. -/
theorem leaves_decodeAll (hrefl : ∀ s, R s s) {body : Decoder σ Unit} (h : Leaves R body)
    (bytes : List UInt8) (s : σ) : R s (decodeAll bytes body s).2 := by
  unfold decodeAll
  cases Reader.new bytes with
  | error e => exact hrefl s
  | ok r =>
    have hbody := h (r, s)
    dsimp only
    cases hrun : body.run (r, s) with
    | ok a st =>
      rw [hrun] at hbody
      exact hbody
    | error e st =>
      rw [hrun] at hbody
      exact hbody

theorem prefix_trans : ∀ xs ys zs : List α, xs <+: ys → ys <+: zs → xs <+: zs :=
  fun _ _ _ h h' => h.trans h'

theorem leaves_readPosition : Leaves (· <+: ·) readPosition :=
  (leaves_f64 List.prefix_refl prefix_trans).bind prefix_trans fun _ =>
    (leaves_f64 List.prefix_refl prefix_trans).bind prefix_trans fun _ =>
      .modifyOut fun s => List.prefix_append s _

theorem leaves_readLine (what : String) : Leaves (· <+: ·) (readLine what) :=
  (leaves_u32 List.prefix_refl prefix_trans).bind prefix_trans fun _ =>
    (Leaves.refuseIf List.prefix_refl _ _).bind prefix_trans fun _ =>
      .forRange List.prefix_refl prefix_trans (fun _ => leaves_readPosition) _ _

/-- What a ring or a part of rings does to its two buffers. -/
def RingBuffers.Extends (b b' : RingBuffers) : Prop :=
  b.coords <+: b'.coords ∧ b.ringOffsets <+: b'.ringOffsets

theorem RingBuffers.Extends.refl (b : RingBuffers) : b.Extends b :=
  ⟨List.prefix_refl _, List.prefix_refl _⟩

theorem RingBuffers.Extends.trans (b b' b'' : RingBuffers) (h : b.Extends b')
    (h' : b'.Extends b'') : b.Extends b'' := ⟨h.1.trans h'.1, h.2.trans h'.2⟩

theorem leaves_readRing (ring : Nat) : Leaves RingBuffers.Extends (readRing ring) := by
  have hrefl := RingBuffers.Extends.refl
  have htrans := RingBuffers.Extends.trans
  have hpos : Leaves RingBuffers.Extends
      (zoom RingBuffers.coords (fun c b => { b with coords := c }) readPosition) :=
    leaves_readPosition.zoom fun s r h => ⟨h, List.prefix_refl _⟩
  refine (leaves_u32 hrefl htrans).bind htrans fun n => ?_
  refine (Leaves.refuseIf hrefl _ _).bind htrans fun _ => ?_
  refine (Leaves.same hrefl fun _ => rfl).bind htrans fun _ => ?_
  refine (Leaves.forRange hrefl htrans (fun _ => hpos) _ _).bind htrans fun _ => ?_
  refine (Leaves.same hrefl fun _ => rfl).bind htrans fun _ => ?_
  refine (Leaves.refuseIf hrefl _ _).bind htrans fun _ => ?_
  exact .modifyOut fun b => ⟨List.prefix_refl _, List.prefix_append _ _⟩

/-! ### The five decodes -/

namespace PolygonBuilder

/-- `b'` holds what `b` does, and more. -/
structure Extends (b b' : PolygonBuilder) : Prop where
  rings : b.rings.Extends b'.rings
  geoms : b.geomOffsets <+: b'.geomOffsets

theorem Extends.refl (b : PolygonBuilder) : b.Extends b := ⟨.refl _, List.prefix_refl _⟩

theorem Extends.trans (b b' b'' : PolygonBuilder) (h : b.Extends b') (h' : b'.Extends b'') :
    b.Extends b'' := ⟨h.rings.trans _ _ _ h'.rings, h.geoms.trans h'.geoms⟩

theorem leaves_body : Leaves Extends body := by
  have hring : ∀ ring, Leaves Extends (zoom rings setRings (readRing ring)) := fun ring =>
    (leaves_readRing ring).zoom fun s r h => ⟨h, List.prefix_refl _⟩
  refine (leaves_u32 Extends.refl Extends.trans).bind Extends.trans fun _ => ?_
  refine (Leaves.refuseIf Extends.refl _ _).bind Extends.trans fun _ => ?_
  refine (Leaves.refuseIf Extends.refl _ _).bind Extends.trans fun _ => ?_
  refine (leaves_u32 Extends.refl Extends.trans).bind Extends.trans fun _ => ?_
  refine (Leaves.refuseIf Extends.refl _ _).bind Extends.trans fun _ => ?_
  refine (Leaves.forRange Extends.refl Extends.trans hring _ _).bind Extends.trans fun _ => ?_
  refine Leaves.bind Extends.trans
    (.modifyOut fun b => ⟨.refl _, List.prefix_append _ _⟩) fun _ => ?_
  exact .expectEnd Extends.refl _

end PolygonBuilder

namespace MultiPolygonBuilder

/-- `b'` holds what `b` does, and more. -/
structure Extends (b b' : MultiPolygonBuilder) : Prop where
  rings : b.rings.Extends b'.rings
  parts : b.partOffsets <+: b'.partOffsets
  geoms : b.geomOffsets <+: b'.geomOffsets

theorem Extends.refl (b : MultiPolygonBuilder) : b.Extends b :=
  ⟨.refl _, List.prefix_refl _, List.prefix_refl _⟩

theorem Extends.trans (b b' b'' : MultiPolygonBuilder) (h : b.Extends b') (h' : b'.Extends b'') :
    b.Extends b'' :=
  ⟨h.rings.trans _ _ _ h'.rings, h.parts.trans h'.parts, h.geoms.trans h'.geoms⟩

theorem leaves_pushPart (part : Nat) : Leaves Extends (pushPart part) := by
  have hring : ∀ ring, Leaves Extends (zoom rings setRings (readRing ring)) := fun ring =>
    (leaves_readRing ring).zoom fun s r h => ⟨h, List.prefix_refl _, List.prefix_refl _⟩
  refine (leaves_u32 Extends.refl Extends.trans).bind Extends.trans fun _ => ?_
  refine (Leaves.refuseIf Extends.refl _ _).bind Extends.trans fun _ => ?_
  refine (Leaves.forRange Extends.refl Extends.trans hring _ _).bind Extends.trans fun _ => ?_
  exact .modifyOut fun b => ⟨.refl _, List.prefix_append _ _, List.prefix_refl _⟩

theorem leaves_pushParts : Leaves Extends pushParts := by
  refine (leaves_u32 Extends.refl Extends.trans).bind Extends.trans fun _ => ?_
  refine (Leaves.refuseIf Extends.refl _ _).bind Extends.trans fun _ => ?_
  refine .forRange Extends.refl Extends.trans (fun part => ?_) _ _
  exact (leaves_readPartHeader Extends.refl Extends.trans _ _ _ _).bind Extends.trans fun _ =>
    leaves_pushPart part

theorem leaves_body : Leaves Extends body := by
  refine (leaves_u32 Extends.refl Extends.trans).bind Extends.trans fun _ => ?_
  refine (Leaves.refuseIf Extends.refl _ _).bind Extends.trans fun _ => ?_
  refine Leaves.bind Extends.trans (.ite (leaves_pushPart 0) (.ite leaves_pushParts
    (.same Extends.refl fun _ => rfl))) fun _ => ?_
  refine (Leaves.expectEnd Extends.refl _).bind Extends.trans fun _ => ?_
  exact .modifyOut fun b => ⟨.refl _, List.prefix_refl _, List.prefix_append _ _⟩

end MultiPolygonBuilder

namespace LineStringBuilder

/-- `b'` holds what `b` does and more coordinates, as many lines as before. -/
structure Extends (b b' : LineStringBuilder) : Prop where
  coords : b.coords <+: b'.coords
  geoms : b'.geomOffsets = b.geomOffsets

theorem Extends.refl (b : LineStringBuilder) : b.Extends b := ⟨List.prefix_refl _, rfl⟩

theorem Extends.trans (b b' b'' : LineStringBuilder) (h : b.Extends b') (h' : b'.Extends b'') :
    b.Extends b'' := ⟨h.coords.trans h'.coords, h'.geoms.trans h.geoms⟩

theorem leaves_decode : Leaves Extends decode := by
  refine (leaves_u32 Extends.refl Extends.trans).bind Extends.trans fun _ => ?_
  refine (Leaves.refuseIf Extends.refl _ _).bind Extends.trans fun _ => ?_
  refine (Leaves.refuseIf Extends.refl _ _).bind Extends.trans fun _ => ?_
  refine Leaves.bind Extends.trans ((leaves_readLine _).zoom fun s r h => ⟨h, rfl⟩) fun _ => ?_
  exact .expectEnd Extends.refl _

end LineStringBuilder

namespace MultiLineStringBuilder

/-- `b'` holds what `b` does and more coordinates and parts, as many geometries as before. -/
structure Extends (b b' : MultiLineStringBuilder) : Prop where
  coords : b.coords <+: b'.coords
  parts : b.partOffsets <+: b'.partOffsets
  geoms : b'.geomOffsets = b.geomOffsets

theorem Extends.refl (b : MultiLineStringBuilder) : b.Extends b :=
  ⟨List.prefix_refl _, List.prefix_refl _, rfl⟩

theorem Extends.trans (b b' b'' : MultiLineStringBuilder) (h : b.Extends b')
    (h' : b'.Extends b'') : b.Extends b'' :=
  ⟨h.coords.trans h'.coords, h.parts.trans h'.parts, h'.geoms.trans h.geoms⟩

theorem leaves_pushPart (what : String) : Leaves Extends (pushPart what) := by
  refine Leaves.bind Extends.trans
    ((leaves_readLine what).zoom fun s r h => ⟨h, List.prefix_refl _, rfl⟩) fun _ => ?_
  exact .modifyOut fun b => ⟨List.prefix_refl _, List.prefix_append _ _, rfl⟩

theorem leaves_pushParts : Leaves Extends pushParts := by
  refine (leaves_u32 Extends.refl Extends.trans).bind Extends.trans fun _ => ?_
  refine (Leaves.refuseIf Extends.refl _ _).bind Extends.trans fun _ => ?_
  refine .forRange Extends.refl Extends.trans (fun part => ?_) _ _
  exact (leaves_readPartHeader Extends.refl Extends.trans _ _ _ _).bind Extends.trans fun _ =>
    leaves_pushPart _

theorem leaves_decode : Leaves Extends decode := by
  refine (leaves_u32 Extends.refl Extends.trans).bind Extends.trans fun _ => ?_
  refine (Leaves.refuseIf Extends.refl _ _).bind Extends.trans fun _ => ?_
  refine Leaves.bind Extends.trans (.ite (leaves_pushPart _) (.ite leaves_pushParts
    (.same Extends.refl fun _ => rfl))) fun _ => ?_
  exact .expectEnd Extends.refl _

end MultiLineStringBuilder

/-! ### A refused row -/

theorem failsLeaving_decodeAll (hrefl : ∀ s, R s s) {body : Decoder σ Unit}
    (h : FailsLeaving R body) {bytes : List UInt8} {s : σ} {e : EngineError}
    (hrun : (decodeAll bytes body s).1 = .error e) : R s (decodeAll bytes body s).2 := by
  unfold decodeAll at hrun ⊢
  cases hnew : Reader.new bytes with
  | error e' => exact hrefl s
  | ok r =>
    rw [hnew] at hrun
    dsimp only at hrun ⊢
    cases hbody : body.run (r, s) with
    | ok a st =>
      rw [hbody] at hrun
      cases hrun
    | error e' st => exact h _ _ _ hbody

/-- A point is appended after the last thing that can refuse it. -/
theorem PointBuilder.pushWkb_refused {b : PointBuilder} {bytes : List UInt8} {e : EngineError}
    (h : (b.pushWkb bytes).1 = .error e) : (b.pushWkb bytes).2 = b := by
  have hrefl : ∀ s : PointBuilder, s = s := fun _ => rfl
  have htrans : ∀ s s' s'' : PointBuilder, s = s' → s' = s'' → s = s'' := fun _ _ _ => Eq.trans
  have hbody : FailsLeaving (σ := PointBuilder) Eq body := by
    refine .bind htrans (leaves_u32 hrefl htrans) fun _ => ?_
    refine .bind htrans (.refuseIf hrefl _ _) fun _ => ?_
    refine .bind htrans (.refuseIf hrefl _ _) fun _ => ?_
    refine .bind htrans (leaves_f64 hrefl htrans) fun _ => ?_
    refine .bind htrans (leaves_f64 hrefl htrans) fun _ => ?_
    refine .bind htrans (.refuseIf hrefl _ _) fun _ => ?_
    exact .bind htrans (.expectEnd hrefl _) fun _ => .modifyOut _
  exact (failsLeaving_decodeAll hrefl hbody h).symm

/-- The coordinates of a refused line are cut off again. -/
theorem LineStringBuilder.pushWkb_refused {b : LineStringBuilder} {bytes : List UInt8}
    {e : EngineError} (h : (b.pushWkb bytes).1 = .error e) : (b.pushWkb bytes).2 = b := by
  have hleft : b.Extends (decodeAll bytes decode b).2 :=
    leaves_decodeAll Extends.refl leaves_decode bytes b
  unfold pushWkb at h ⊢
  rcases hrun : decodeAll bytes decode b with ⟨_ | u, b'⟩
  · rw [hrun] at hleft
    have hcoords : b'.coords.take b.coords.length = b.coords :=
      (List.prefix_iff_eq_take.1 hleft.coords).symm
    change (⟨b'.coords.take b.coords.length, b'.geomOffsets⟩ : LineStringBuilder) = b
    rw [hcoords, hleft.geoms]
  · rw [hrun] at h
    cases h

/-- The coordinates and the parts of a refused multilinestring are cut off again. -/
theorem MultiLineStringBuilder.pushWkb_refused {b : MultiLineStringBuilder} {bytes : List UInt8}
    {e : EngineError} (h : (b.pushWkb bytes).1 = .error e) : (b.pushWkb bytes).2 = b := by
  have hleft : b.Extends (decodeAll bytes decode b).2 :=
    leaves_decodeAll Extends.refl leaves_decode bytes b
  unfold pushWkb at h ⊢
  rcases hrun : decodeAll bytes decode b with ⟨_ | u, b'⟩
  · rw [hrun] at hleft
    have hcoords : b'.coords.take b.coords.length = b.coords :=
      (List.prefix_iff_eq_take.1 hleft.coords).symm
    have hparts : b'.partOffsets.take b.partOffsets.length = b.partOffsets :=
      (List.prefix_iff_eq_take.1 hleft.parts).symm
    change (⟨b'.coords.take b.coords.length, b'.partOffsets.take b.partOffsets.length,
      b'.geomOffsets⟩ : MultiLineStringBuilder) = b
    rw [hcoords, hparts, hleft.geoms]
  · rw [hrun] at h
    cases h

namespace GeometryBuilder

/-- The builder after rows offered one after the other, accepted or refused. -/
def offered (b : GeometryBuilder) (rows : List (List UInt8)) : GeometryBuilder :=
  rows.foldl (fun b wkb => (b.pushWkb wkb).2) b

@[simp] theorem encoding_pushWkb (b : GeometryBuilder) (wkb : List UInt8) :
    (b.pushWkb wkb).2.encoding = b.encoding := by
  cases b <;> rfl

@[simp] theorem encoding_offered : ∀ (rows : List (List UInt8)) (b : GeometryBuilder),
    (b.offered rows).encoding = b.encoding := by
  intro rows
  induction rows with
  | nil => intro b; rfl
  | cons wkb rows ih =>
    intro b
    rw [offered, List.foldl_cons]
    exact (ih _).trans (encoding_pushWkb b wkb)

theorem started_pushWkb {b : GeometryBuilder} (h : b.Started) (wkb : List UInt8) :
    (b.pushWkb wkb).2.Started := by
  cases b with
  | polygon b =>
    have hleft := leaves_decodeAll PolygonBuilder.Extends.refl PolygonBuilder.leaves_body wkb b
    exact Nat.lt_of_lt_of_le h hleft.rings.2.length_le
  | multiPolygon b =>
    have hleft := leaves_decodeAll MultiPolygonBuilder.Extends.refl
      MultiPolygonBuilder.leaves_body wkb b
    exact ⟨Nat.lt_of_lt_of_le h.1 hleft.rings.2.length_le,
      Nat.lt_of_lt_of_le h.2 hleft.parts.length_le⟩
  | point b => trivial
  | lineString b => trivial
  | multiLineString b =>
    rcases hrun : b.pushWkb wkb with ⟨_ | u, b'⟩
    · have hsame := MultiLineStringBuilder.pushWkb_refused (congrArg Prod.fst hrun)
      change Started (.multiLineString (b.pushWkb wkb).2)
      rw [hsame]
      exact h
    · have hok : (GeometryBuilder.multiLineString b).pushWkb wkb = (.ok (), .multiLineString b') :=
        map_eq_ok_iff.2 ⟨b', hrun, rfl⟩
      obtain ⟨g, _, _, _, _, _, _, happ⟩ := (pushWkb_eq_ok_iff h).1 hok
      rw [hok, happ]
      exact Started.append h g

/-- **No run of rows loses a leading offset.** -/
theorem started_offered (encoding : GeometryEncoding) (rows : List (List UInt8)) :
    ((new encoding).offered rows).Started := by
  have hall : ∀ (rows : List (List UInt8)) (b : GeometryBuilder), b.Started →
      (b.offered rows).Started := by
    intro rows
    induction rows with
    | nil => intro b h; exact h
    | cons wkb rows ih => intro b h; exact ih _ (started_pushWkb h wkb)
  exact hall rows _ (started_new encoding)

/-- The encodings whose builders take back what a refused row had appended. -/
def TakesBack : GeometryEncoding → Prop
  | .point | .lineString | .multiLineString => True
  | .polygon | .multiPolygon => False

/-- **A refused row appends nothing** to a point, linestring or multilinestring builder, whatever
rows it was offered before: every buffer is what it was, and what is offered later is decoded as
if the refused row had not been offered. -/
theorem refused_row_appends_nothing {encoding : GeometryEncoding} (henc : TakesBack encoding)
    (rows : List (List UInt8)) {bytes : List UInt8} {e : EngineError}
    (h : (((new encoding).offered rows).pushWkb bytes).1 = .error e) :
    (((new encoding).offered rows).pushWkb bytes).2 = (new encoding).offered rows ∧
      ∀ later, (new encoding).offered (rows ++ bytes :: later) =
        (new encoding).offered (rows ++ later) := by
  have hsame : (((new encoding).offered rows).pushWkb bytes).2 = (new encoding).offered rows := by
    have hkind : TakesBack ((new encoding).offered rows).encoding := by
      rwa [encoding_offered, encoding_new]
    revert h hkind
    cases (new encoding).offered rows with
    | polygon b => intro _ hkind; exact hkind.elim
    | multiPolygon b => intro _ hkind; exact hkind.elim
    | point b => intro h _; exact congrArg GeometryBuilder.point (PointBuilder.pushWkb_refused h)
    | lineString b =>
      intro h _
      exact congrArg GeometryBuilder.lineString (LineStringBuilder.pushWkb_refused h)
    | multiLineString b =>
      intro h _
      exact congrArg GeometryBuilder.multiLineString (MultiLineStringBuilder.pushWkb_refused h)
  refine ⟨hsame, fun later => ?_⟩
  unfold offered at hsame ⊢
  rw [List.foldl_append, List.foldl_append, List.foldl_cons, hsame]

/-- A second part that stops in its last position. -/
theorem refused_row_appends_nothing_cut :
    let line : List Position := [⟨⟨0⟩, ⟨1⟩⟩, ⟨⟨2⟩, ⟨3⟩⟩]
    let row := (Geometry.multiLineString [line, line]).encode true [false, true]
    let held := (new .multiLineString).offered [row]
    held ≠ new .multiLineString ∧ (held.pushWkb (row.take 80)).2 = held ∧
      ∀ later, (new .multiLineString).offered ([row] ++ row.take 80 :: later) =
        (new .multiLineString).offered ([row] ++ later) := by
  intro line row held
  have hrefused : (held.pushWkb (row.take 80)).1 =
      .error (.wkb "truncated: wanted 8 bytes at 75") := by decide +kernel
  exact ⟨by decide +kernel,
    @refused_row_appends_nothing .multiLineString trivial [row] (row.take 80) _ hrefused⟩

end GeometryBuilder

end SpatialIde.Engine.Wkb
