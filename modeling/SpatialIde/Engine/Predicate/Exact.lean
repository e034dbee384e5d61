import SpatialIde.Engine.Predicate.Mirror
import SpatialIde.Lib.Decimal

/-! # Admitted comparisons are exact

What the flags of an operand promise holds through every nesting of arithmetic
(`promises_typeOfValue`), and from it two operands of different types that may be
compared convert exactly: to a signed 128-bit integer, or to one decimal type of
at most 38 digits (`admitted_comparison_exact`).
-/

namespace SpatialIde.Engine.Predicate

open Lib Lib.Json

/-- The digits a decimal type may have. -/
def MAX_DECIMAL_WIDTH : Nat := 38

namespace Typed

def scale (t : Typed) : Nat :=
  match t.ty with
  | .decimal _ scale => scale.toNat
  | _ => 0

/-- The digits in front of the point. -/
def integerDigits (t : Typed) : Nat :=
  match t.ty, intBitsSigned t.ty with
  | .decimal width scale, _ => width.toNat - scale.toNat
  | _, none => 0
  | _, some (bits, signed) =>
    if t.kind = .literal then (toString (t.literalIntValue.getD 0).natAbs).length
    else
      match bits, signed with
      | 8, _ => 3
      | 16, _ => 5
      | 32, _ => 10
      | 64, true => 19
      | 64, false => 20
      | _, _ => 39

/-- **The values an operand can have**, in units of its scale: those of its type, and of an integer
literal its own. -/
def Holds (t : Typed) (m : Int) : Prop :=
  match t.ty, intBitsSigned t.ty with
  | .decimal width _, _ => m.natAbs < 10 ^ width.toNat
  | _, none => False
  | _, some (bits, signed) =>
    if t.kind = .literal then t.literalIntValue = some m
    else if signed then -(2 ^ (bits - 1) : Int) ≤ m ∧ m < 2 ^ (bits - 1)
    else 0 ≤ m ∧ m < 2 ^ bits

/-- Every value is a value of `DECIMAL(width, scale)`. -/
def FitsDecimal (t : Typed) (width scale : Nat) : Prop :=
  t.scale ≤ scale ∧ ∀ m, t.Holds m → (m * 10 ^ (scale - t.scale)).natAbs < 10 ^ width

/-- Every value is an integer of 128 bits. -/
def FitsInt128 (t : Typed) : Prop := ∀ m, t.Holds m → -(2 ^ 127 : Int) ≤ m ∧ m < 2 ^ 127

end Typed

/-- The width of the smallest decimal type for both. -/
def commonWidth (l r : Typed) : Nat := max l.integerDigits r.integerDigits + max l.scale r.scale

theorem lt_pow_length (n : Nat) : n < 10 ^ (toString n).length := by
  have hlist : (toString n).toList = Nat.toDigits 10 n := Nat.toList_repr
  rw [← String.length_toList, hlist]
  exact (Nat.length_toDigits_le_iff (by decide) Nat.length_toDigits_pos).1 (Nat.le_refl _)

/-- What an integer operand can be. -/
theorem Typed.holds_integer {t : Typed} {bits : Nat} {signed : Bool} {m : Int}
    (hbits : intBitsSigned t.ty = some (bits, signed)) :
    t.Holds m ↔ if t.kind = .literal then t.literalIntValue = some m
      else if signed then -(2 ^ (bits - 1) : Int) ≤ m ∧ m < 2 ^ (bits - 1)
      else 0 ≤ m ∧ m < 2 ^ bits := by
  unfold Typed.Holds
  cases hty : t.ty with
  | decimal width scale =>
    rw [hty] at hbits
    cases hbits
  | _ => rw [hty] at hbits; rw [hbits]

theorem Typed.integerDigits_literal {t : Typed} {v : Int} (hint : isInteger t = true)
    (hkind : t.kind = .literal) (hv : t.literalIntValue = some v) :
    t.integerDigits = (toString v.natAbs).length := by
  obtain ⟨⟨bits, signed⟩, hbits⟩ := Option.isSome_iff_exists.1 hint
  unfold Typed.integerDigits
  cases hty : t.ty with
  | decimal width scale =>
    rw [hty] at hbits
    cases hbits
  | _ =>
    rw [hty] at hbits
    rw [hbits]
    dsimp only
    rw [if_pos hkind, hv, Option.getD_some]

/-- Every value is shorter than its digits say. -/
theorem Typed.Holds.lt {t : Typed} {m : Int} (h : t.Holds m) :
    m.natAbs < 10 ^ (t.integerDigits + t.scale) := by
  cases hbits : intBitsSigned t.ty with
  | none =>
    unfold Typed.Holds at h
    rw [hbits] at h
    cases hty : t.ty with
    | decimal width scale =>
      rw [hty] at h
      have hdigits : t.integerDigits + t.scale = width.toNat - scale.toNat + scale.toNat := by
        rw [Typed.integerDigits, Typed.scale, hty]
      rw [hdigits]
      exact Nat.lt_of_lt_of_le h (Nat.pow_le_pow_right (by decide) (by omega))
    | _ =>
      rw [hty] at h
      exact absurd h id
  | some b =>
    obtain ⟨bits, signed⟩ := b
    rw [Typed.holds_integer hbits] at h
    by_cases hkind : t.kind = .literal
    · rw [if_pos hkind] at h
      rw [Typed.integerDigits_literal (Option.isSome_iff_exists.2 ⟨_, hbits⟩) hkind h]
      exact Nat.lt_of_lt_of_le (lt_pow_length _)
        (Nat.pow_le_pow_right (by decide) (Nat.le_add_right _ _))
    · rw [if_neg hkind] at h
      obtain ⟨ty, kind, within, value, counts⟩ := t
      dsimp only at hbits hkind h
      cases ty
      all_goals
        cases hbits <;>
        simp [Typed.integerDigits, Typed.scale, intBitsSigned, hkind] at h ⊢ <;>
        omega

theorem Typed.fitsDecimal {t : Typed} {width scale : Nat} (hscale : t.scale ≤ scale)
    (hwidth : t.integerDigits + scale ≤ width) : t.FitsDecimal width scale := by
  refine ⟨hscale, fun m hm => ?_⟩
  have hlt := hm.lt
  have hpow : (10 : Int).natAbs ^ (scale - t.scale) = 10 ^ (scale - t.scale) := rfl
  rw [Int.natAbs_mul, Int.natAbs_pow, hpow]
  calc m.natAbs * 10 ^ (scale - t.scale)
      < 10 ^ (t.integerDigits + t.scale) * 10 ^ (scale - t.scale) :=
        Nat.mul_lt_mul_of_pos_right hlt (Nat.pow_pos (by decide))
    _ = 10 ^ (t.integerDigits + scale) := by
        rw [← Nat.pow_add]
        congr 1
        omega
    _ ≤ 10 ^ width := Nat.pow_le_pow_right (by decide) hwidth

/-! ### What the flags promise -/

/-- **The invariant of the walk's types.** -/
structure Promises (t : Typed) : Prop where
  /-- No path but a `NULL` literal gives the null type. -/
  null : t.ty = .null → t.withinBounds = true
  counts : t.countsAsDecimalLiteral = true → t.withinBounds = true
  decimal : t.withinBounds = true → ∀ width scale, t.ty = .decimal width scale →
    scale.toNat ≤ MAX_DECIMAL_LITERAL_SCALE ∧
      width.toNat - scale.toNat ≤ MAX_INTEGER_LITERAL_DIGITS
  not_uHugeInt : t.withinBounds = true → t.ty ≠ .uHugeInt
  literal : t.kind = .literal → isInteger t = true → ∃ v, t.literalIntValue = some v ∧
    (t.withinBounds = true → (toString v.natAbs).length ≤ MAX_INTEGER_LITERAL_DIGITS)

/-- A type that no bound is about. -/
theorem promises_of_plain {t : Typed} (hbounds : t.withinBounds = true) (hdecimal : t.ty.isDecimal = false)
    (huhuge : t.ty ≠ .uHugeInt) (hkind : t.kind = .literal → isInteger t = false) : Promises t where
  null _ := hbounds
  counts _ := hbounds
  decimal _ width scale hty := by
    rw [hty] at hdecimal
    cases hdecimal
  not_uHugeInt _ := huhuge
  literal hliteral hint := by
    rw [hkind hliteral] at hint
    cases hint

/-- The serializer types a literal `UHUGEINT` only where it is over every `HUGEINT`. -/
def WideLiteral (node : Value) : Prop :=
  node.getStr "class" = some "CONSTANT" → ∀ value ty raw, node.get "value" = some value →
    value.get "type" = some ty → ty.getStr "id" = some "UHUGEINT" →
      value.get "value" = some raw → raw.asI64 = none ∧ raw.asU64 = none ∧
        ∀ upper, (raw.get "upper").bind Value.asU64 = some upper → 2 ^ 63 ≤ upper.toNat

theorem integerLiteralValue_uHugeInt {raw : Value} {v : Int} (hsigned : raw.asI64 = none)
    (hunsigned : raw.asU64 = none)
    (hupper : ∀ upper, (raw.get "upper").bind Value.asU64 = some upper → 2 ^ 63 ≤ upper.toNat)
    (h : integerLiteralValue "UHUGEINT" (some raw) = .ok v) : v = 2 ^ 127 - 1 := by
  unfold integerLiteralValue at h
  dsimp only at h
  rw [hsigned, hunsigned] at h
  dsimp only at h
  split at h
  · cases h
  · next lower hlower =>
    rw [if_pos rfl] at h
    split at h
    · cases h
    · next upper hread =>
      have hlarge := hupper upper hread
      cases h
      omega

theorem promises_integerTyped {id : String} {v : Int}
    (hwide : id ∉ ["INTEGER", "BIGINT", "HUGEINT"] →
      ¬(toString v.natAbs).length ≤ MAX_INTEGER_LITERAL_DIGITS) : Promises (integerTyped id v) := by
  have hliteral : (integerTyped id v).literalIntValue = some v := rfl
  have hbounds : (integerTyped id v).withinBounds = true →
      (toString v.natAbs).length ≤ MAX_INTEGER_LITERAL_DIGITS := fun h => of_decide_eq_true h
  have hty : (integerTyped id v).ty = .integer ∨ (integerTyped id v).ty = .bigInt ∨
      (integerTyped id v).ty = .hugeInt ∨
        ((integerTyped id v).ty = .uHugeInt ∧ id ∉ ["INTEGER", "BIGINT", "HUGEINT"]) := by
    unfold integerTyped
    dsimp only [Typed.literal]
    split
    · exact .inl rfl
    · exact .inr (.inl rfl)
    · exact .inr (.inr (.inl rfl))
    · next h1 h2 h3 =>
      refine .inr (.inr (.inr ⟨rfl, ?_⟩))
      simp only [List.mem_cons, List.not_mem_nil, or_false, not_or]
      exact ⟨h1, h2, h3⟩
  refine ⟨?_, ?_, ?_, ?_, ?_⟩
  · intro hnull
    rw [hnull] at hty
    simp at hty
  · intro hcounts
    cases hcounts
  · intro _ width scale hdecimal
    rw [hdecimal] at hty
    simp at hty
  · intro hb huhuge
    rw [huhuge] at hty
    have hid : id ∉ ["INTEGER", "BIGINT", "HUGEINT"] := by simpa using hty
    exact hwide hid (hbounds hb)
  · exact fun _ _ => ⟨v, hliteral, hbounds⟩

theorem promises_decimalTyped (width scale : UInt32) : Promises (decimalTyped width scale) where
  null h := by cases h
  counts h := by cases h
  decimal h width' scale' hty := by
    cases hty
    simpa [decimalTyped, Typed.literal] using h
  not_uHugeInt _ h := by cases h
  literal _ h := by cases h

/-- An integer literal of any of the four types. -/
theorem promises_integerLiteral {node value ty : Value} {t : Typed} (hwide : WideLiteral node)
    (isClass : node.getStr "class" = some "CONSTANT") (hvalue : node.get "value" = some value)
    (hty : value.get "type" = some ty)
    (hid : (ty.getStr "id").getD "" ∈ ["INTEGER", "BIGINT", "HUGEINT", "UHUGEINT"])
    (h : integerTyped ((ty.getStr "id").getD "") <$>
      integerLiteralValue ((ty.getStr "id").getD "") (value.get "value") = .ok t) : Promises t := by
  obtain ⟨v, hv, ht⟩ : ∃ v, integerLiteralValue ((ty.getStr "id").getD "") (value.get "value") =
      .ok v ∧ integerTyped ((ty.getStr "id").getD "") v = t := by
    cases hx : integerLiteralValue ((ty.getStr "id").getD "") (value.get "value") with
    | error e =>
      rw [hx] at h
      cases h
    | ok v =>
      rw [hx] at h
      cases h
      exact ⟨v, rfl, rfl⟩
  subst ht
  refine promises_integerTyped fun hnot => ?_
  have huhuge : (ty.getStr "id").getD "" = "UHUGEINT" := by
    simp only [List.mem_cons, List.not_mem_nil, or_false, not_or] at hid hnot
    tauto
  have hgetStr : ty.getStr "id" = some "UHUGEINT" := by
    cases hname : ty.getStr "id" with
    | none =>
      rw [hname] at huhuge
      exact absurd huhuge (by decide)
    | some name =>
      rw [hname] at huhuge
      rw [← huhuge]
      rfl
  rw [huhuge] at hv
  cases hraw : value.get "value" with
  | none =>
    rw [hraw] at hv
    cases hv
  | some raw =>
    rw [hraw] at hv
    obtain ⟨hsigned, hunsigned, hupper⟩ := hwide isClass value ty raw hvalue hty hgetStr hraw
    rw [integerLiteralValue_uHugeInt hsigned hunsigned hupper hv]
    decide +kernel

theorem promises_literalTyped {node : Value} {t : Typed} (hwide : WideLiteral node)
    (isClass : node.getStr "class" = some "CONSTANT") (h : literalTyped node = .ok t) :
    Promises t := by
  unfold literalTyped at h
  split at h
  · cases h
  · next value hvalue =>
    split_ifs at h with hnull
    · cases h
      exact promises_of_plain rfl rfl (by simp [Typed.literal]) fun _ => rfl
    · split at h
      · cases h
      · next ty hty =>
        dsimp only at h
        split at h
        iterate 4
          · next hid => exact promises_integerLiteral hwide isClass hvalue hty (by simp [hid]) h
        · split at h
          · cases h
          · cases h
            exact promises_decimalTyped _ _
        · cases h
          exact promises_of_plain rfl rfl (by simp [Typed.literal]) fun _ => rfl
        · cases h
          exact promises_of_plain rfl rfl (by simp [Typed.literal]) fun _ => rfl
        · cases h

theorem promises_typeOfColumn {ns : Namespace} {node : Value} {t : Typed}
    (h : typeOfColumn ns node = .ok t) : Promises t := by
  unfold typeOfColumn at h
  split at h
  · cases h
  split at h
  · cases h
  split at h
  · cases h
  next surrogate _ =>
    cases hs : engineTypeOfSurrogate surrogate with
    | error e =>
      rw [hs] at h
      cases h
    | ok ty =>
      rw [hs] at h
      cases h
      unfold engineTypeOfSurrogate at hs
      split at hs
      all_goals
        cases hs <;>
        exact promises_of_plain rfl rfl (by simp [Typed.column]) fun hliteral => by cases hliteral

/-! ### The rules keep the promise -/

theorem promises_expression {ty : EngineType} (hdecimal : ty.isDecimal = false)
    (huhuge : ty ≠ .uHugeInt) : Promises (.expression ty) :=
  promises_of_plain rfl hdecimal huhuge fun hliteral => by cases hliteral

theorem promises_divisionResult {l r t : Typed} (h : divisionResult l r = .ok t) : Promises t := by
  unfold divisionResult at h
  split_ifs at h
  · cases h
  · cases h
    exact promises_expression rfl (by simp)
  · cases h
    exact promises_expression rfl (by simp)

theorem promises_unaryResult {op : String} {operand t : Typed} (ho : Promises operand)
    (h : unaryResult op operand = .ok t) : Promises t := by
  unfold unaryResult at h
  split_ifs at h
  · cases h
    exact promises_expression rfl (by simp)
  · cases h
    exact {
      null := ho.null
      counts := ho.counts
      decimal := ho.decimal
      not_uHugeInt := ho.not_uHugeInt
      literal := fun hliteral => by cases hliteral }
  · cases h

theorem isNumeric_of_isInt {t : Typed} (h : isInt t = true) : isNumeric t = true := by
  simp only [isInt, Bool.and_eq_true] at h
  simp [isNumeric, h.1]

theorem isNumeric_of_isFloat {t : Typed} (h : isFloat t = true) : isNumeric t = true := by
  simp only [isFloat, Bool.or_eq_true, beq_iff_eq] at h
  rcases h with h | h <;> simp [isNumeric, h]

/-- One clause of a rule, or the clauses behind it. -/
theorem of_ite {α : Type} {p C : Prop} [Decidable p] {x y z : α} (h : (if p then x else y) = z)
    (hx : p → x = z → C) (hy : y = z → C) : C := by
  by_cases hp : p
  · rw [if_pos hp] at h
    exact hx hp h
  · rw [if_neg hp] at h
    exact hy h

/-- The type of an arithmetic result: that of an operand, a float, or what two integers promote
to. -/
theorem arithmetic_type {l r : Typed} {ty : EngineType}
    (h : admittedArithmeticResult l r = .ok (some ty)) :
    (ty = l.ty ∧ isNumeric l = true) ∨ (ty = r.ty ∧ isNumeric r = true) ∨
      ty ∈ [EngineType.bigInt, .real, .double] ∨
        (isInt l = true ∧ isInt r = true ∧ intPromote l.ty r.ty = .ok ty) := by
  have hfloat : ∀ {t : Typed}, isFloatNonliteral t = true → isNumeric t = true := by
    intro t ht
    simp only [isFloatNonliteral, Bool.and_eq_true] at ht
    exact isNumeric_of_isFloat ht.1
  have hlisted : ∀ {ty' : EngineType}, ty' ∈ [EngineType.bigInt, .real, .double] →
      (Except.ok (some ty') : Except Fault (Option EngineType)) = .ok (some ty) →
        ty ∈ [EngineType.bigInt, .real, .double] := by
    intro ty' hmem hty
    cases hty
    exact hmem
  unfold admittedArithmeticResult at h
  refine of_ite h (fun hp h => ?_) (fun h => ?_)
  · cases h
    exact .inl ⟨rfl, isNumeric_of_isFloat hp.2⟩
  refine of_ite h (fun _ h => ?_) (fun h => ?_)
  · exact .inr (.inr (.inl (hlisted (by simp) h)))
  refine of_ite h (fun hp h => ?_) (fun h => ?_)
  · cases h
    exact .inr (.inl ⟨rfl, hp.2⟩)
  refine of_ite h (fun hp h => ?_) (fun h => ?_)
  · cases h
    exact .inl ⟨rfl, hp.2⟩
  refine of_ite h (fun hp h => ?_) (fun h => ?_)
  · obtain ⟨hl, hr⟩ := hp
    unfold foldOrPromoteInteger at h
    split_ifs at h
    · cases h
      exact .inr (.inl ⟨rfl, isNumeric_of_isInt hr⟩)
    · cases h
      exact .inl ⟨rfl, isNumeric_of_isInt hl⟩
    · cases hpromote : intPromote l.ty r.ty with
      | error e =>
        rw [hpromote] at h
        cases h
      | ok ty' =>
        rw [hpromote] at h
        cases h
        exact .inr (.inr (.inr ⟨hl, hr, rfl⟩))
  refine of_ite h (fun hp h => ?_) (fun h => ?_)
  · split_ifs at h
    · exact .inr (.inr (.inl (hlisted (by simp) h)))
    · cases h
      exact .inl ⟨rfl, hfloat hp.1⟩
  refine of_ite h (fun hp h => ?_) (fun h => ?_)
  · split_ifs at h
    · exact .inr (.inr (.inl (hlisted (by simp) h)))
    · cases h
      exact .inr (.inl ⟨rfl, hfloat hp.1⟩)
  -- every clause behind these gives a float
  iterate 10
    refine of_ite h (fun _ h => .inr (.inr (.inl (hlisted (by simp) h)))) (fun h => ?_)
  cases h

theorem bitsSignedToType_type {bits : Nat} {signed : Bool}
    (h : signed = true ∨ bits ∈ [8, 16, 32, 64]) :
    (bitsSignedToType bits signed).isDecimal = false ∧ bitsSignedToType bits signed ≠ .uHugeInt ∧
      bitsSignedToType bits signed ≠ .null := by
  unfold bitsSignedToType
  split
  all_goals simp_all [EngineType.isDecimal]

theorem unsigned_bits {a : EngineType} {bits : Nat} (h : intBitsSigned a = some (bits, false))
    (hne : a ≠ .uHugeInt) : bits ∈ [8, 16, 32, 64] := by
  cases a
  all_goals simp_all [intBitsSigned]

/-- What two integers promote to is no wider than a signed 128-bit integer. -/
theorem intPromote_type {a b ty : EngineType} (h : intPromote a b = .ok ty)
    (ha : a ≠ .uHugeInt) (hb : b ≠ .uHugeInt) :
    ty.isDecimal = false ∧ ty ≠ .uHugeInt ∧ ty ≠ .null := by
  unfold intPromote at h
  split at h
  · next abits asig bbits bsig habits hbbits =>
    by_cases hsign : asig = bsig
    · rw [if_pos hsign] at h
      cases h
      subst hsign
      refine bitsSignedToType_type ?_
      cases asig with
      | true => exact .inl rfl
      | false =>
        rcases max_choice abits bbits with hmax | hmax
        · rw [hmax]
          exact .inr (unsigned_bits habits ha)
        · rw [hmax]
          exact .inr (unsigned_bits hbbits hb)
    · rw [if_neg hsign] at h
      dsimp only at h
      refine of_ite h (fun _ h => ?_) (fun h => ?_)
      · cases h
        exact bitsSignedToType_type (.inl rfl)
      · refine of_ite h (fun _ h => ?_) (fun h => ?_)
        · cases h
          exact ⟨rfl, by simp, by simp⟩
        · cases h
          exact ⟨rfl, by simp, by simp⟩
  · cases h

theorem not_null_of_isNumeric {t : Typed} (h : isNumeric t = true) : t.ty ≠ .null := by
  intro hnull
  rw [isNumeric, isInteger, hnull] at h
  cases h

/-- A decimal literal within the bounds, or what counts as one, is within the bounds. -/
theorem withinBounds_of_isDecimalLiteral {t : Typed} (ht : Promises t)
    (h : isDecimalLiteralWithinBounds t = true) : t.withinBounds = true := by
  simp only [isDecimalLiteralWithinBounds, Bool.and_eq_true, Bool.or_eq_true] at h
  rcases h.2 with hliteral | hcounts
  · exact hliteral.2
  · exact ht.counts hcounts

theorem promises_binaryResult {op : String} {l r t : Typed} (hl : Promises l) (hr : Promises r)
    (h : binaryResult op l r = .ok t) : Promises t := by
  unfold binaryResult at h
  obtain ⟨o, ho, h⟩ := bind_eq_ok.1 h
  cases o with
  | none => cases h
  | some ty =>
    cases h
    have htype := arithmetic_type ho
    refine ⟨fun hnull => ?_, fun hcounts => ?_, fun hbounds width scale hdecimal => ?_,
      fun hbounds huhuge => ?_, fun hliteral => ?_⟩
    · -- no result is of the null type
      have hty : ty = .null := hnull
      subst hty
      rcases htype with ⟨heq, hnum⟩ | ⟨heq, hnum⟩ | hlisted | ⟨hli, hri, hpromote⟩
      · exact absurd heq.symm (not_null_of_isNumeric hnum)
      · exact absurd heq.symm (not_null_of_isNumeric hnum)
      · simp at hlisted
      · have hbl := (Bool.and_eq_true_iff.1 hli).2
        have hbr := (Bool.and_eq_true_iff.1 hri).2
        have hnull := (intPromote_type hpromote (hl.not_uHugeInt hbl) (hr.not_uHugeInt hbr)).2.2
        exact absurd rfl hnull
    · simp only [Bool.or_eq_true, Bool.and_eq_true, beq_iff_eq] at hcounts
      show (l.withinBounds && r.withinBounds) = true
      rw [Bool.and_eq_true]
      rcases hcounts with ⟨hnull, hdecimal⟩ | ⟨hnull, hdecimal⟩
      · exact ⟨hl.null hnull, withinBounds_of_isDecimalLiteral hr hdecimal⟩
      · exact ⟨withinBounds_of_isDecimalLiteral hl hdecimal, hr.null hnull⟩
    · obtain ⟨hbl, hbr⟩ := Bool.and_eq_true_iff.1 hbounds
      have hty : ty = .decimal width scale := hdecimal
      subst hty
      rcases htype with ⟨heq, -⟩ | ⟨heq, -⟩ | hlisted | ⟨hli, hri, hpromote⟩
      · exact hl.decimal hbl width scale heq.symm
      · exact hr.decimal hbr width scale heq.symm
      · simp at hlisted
      · have hdec := (intPromote_type hpromote (hl.not_uHugeInt hbl) (hr.not_uHugeInt hbr)).1
        cases hdec
    · obtain ⟨hbl, hbr⟩ := Bool.and_eq_true_iff.1 hbounds
      have hty : ty = .uHugeInt := huhuge
      subst hty
      rcases htype with ⟨heq, -⟩ | ⟨heq, -⟩ | hlisted | ⟨hli, hri, hpromote⟩
      · exact hl.not_uHugeInt hbl heq.symm
      · exact hr.not_uHugeInt hbr heq.symm
      · simp at hlisted
      · exact (intPromote_type hpromote (hl.not_uHugeInt hbl) (hr.not_uHugeInt hbr)).2.1 rfl
    · cases hliteral

/-! ### The whole walk -/

theorem getStr_of_getD {node : Value} {key s : String} (hs : s ≠ "")
    (h : (node.getStr key).getD "" = s) : node.getStr key = some s := by
  cases hget : node.getStr key with
  | none =>
    rw [hget] at h
    exact absurd h.symm hs
  | some s' =>
    rw [hget] at h
    rw [← h]
    rfl

theorem childrenOf_eq_ok {node : Value} {cs : {cs : List Value // sizeOf cs < sizeOf node}}
    (h : childrenOf node = .ok cs) : (node.get "children").bind Value.asArray = some cs.1 := by
  unfold childrenOf at h
  split at h
  · cases h
  · next hchildren =>
    cases h
    exact hchildren

theorem promises_typeOfDivision {ns : Namespace} {children : List Value} {t : Typed}
    (h : typeOfDivision ns children = .ok t) : Promises t := by
  unfold typeOfDivision at h
  split at h
  · obtain ⟨l, _, h⟩ := bind_eq_ok.1 h
    obtain ⟨r, _, h⟩ := bind_eq_ok.1 h
    exact promises_divisionResult h
  · cases h

theorem promises_typeOfArithmetic {ns : Namespace} {op : String} {children : List Value} {t : Typed}
    (hchild : ∀ c ∈ children, ∀ {t : Typed}, typeOfValue ns c = .ok t → Promises t)
    (h : typeOfArithmetic ns op children = .ok t) : Promises t := by
  unfold typeOfArithmetic at h
  split at h
  · obtain ⟨operand, ho, h⟩ := bind_eq_ok.1 h
    exact promises_unaryResult (hchild _ (by simp) ho) h
  · obtain ⟨l, hl, h⟩ := bind_eq_ok.1 h
    obtain ⟨r, hr, h⟩ := bind_eq_ok.1 h
    exact promises_binaryResult (hchild _ (by simp) hl) (hchild _ (by simp) hr) h
  · cases h

/-- **What the walk says of a value is kept**, whatever the value is nested of. -/
theorem promises_typeOfValue {ns : Namespace} {node : Value} (hnode : Everywhere WideLiteral node) :
    ∀ {t : Typed}, typeOfValue ns node = .ok t → Promises t := by
  induction hnode with
  | mk here below ih =>
    rename_i node
    intro t h
    have hboolean : Promises (.expression .boolean) := promises_expression rfl (by simp)
    have hflag : ∀ {x : Except Fault Unit},
        (do x; return Typed.expression .boolean) = .ok t → Promises t := by
      intro x hx
      obtain ⟨_, _, hx⟩ := bind_eq_ok.1 hx
      cases hx
      exact hboolean
    rw [typeOfValue] at h
    split at h
    · next isClass => exact promises_literalTyped here (getStr_of_getD (by decide) isClass) h
    · exact promises_typeOfColumn h
    · exact hflag h
    · exact hflag h
    · obtain ⟨_, _, h⟩ := bind_eq_ok.1 h
      exact hflag h
    · split at h
      · obtain ⟨_, _, h⟩ := bind_eq_ok.1 h
        exact hflag h
      · obtain ⟨_, _, h⟩ := bind_eq_ok.1 h
        obtain ⟨_, _, h⟩ := bind_eq_ok.1 h
        obtain ⟨_, _, h⟩ := bind_eq_ok.1 h
        cases h
        exact hboolean
      · obtain ⟨_, _, h⟩ := bind_eq_ok.1 h
        obtain ⟨_, _, h⟩ := bind_eq_ok.1 h
        obtain ⟨_, _, h⟩ := bind_eq_ok.1 h
        cases h
        exact hboolean
      · exact hflag h
      · cases h
    · next isClass =>
      dsimp only at h
      obtain ⟨⟨children, hlt⟩, hchildren, h⟩ := bind_eq_ok.1 h
      have hoperands : operands node = children := by
        rw [operands_function (getStr_of_getD (by decide) isClass), childrenOf_eq_ok hchildren]
        rfl
      have hchild : ∀ c ∈ children, ∀ {t : Typed}, typeOfValue ns c = .ok t → Promises t :=
        fun c hc => ih c (hoperands ▸ hc)
      split_ifs at h
      · exact promises_typeOfDivision h
      · exact promises_typeOfArithmetic hchild h
      · exact hflag h
      · cases h
    · cases h

/-! ### Comparisons -/

theorem not_float_of_isFloat {t : Typed} (hfloat : isFloat t = false) :
    isFloatNonliteral t = false ∧ isDoubleLiteral t = false ∧ (t.ty == .real) = false ∧
      (t.ty == .double) = false := by
  simp only [isFloat, Bool.or_eq_false_iff] at hfloat
  simp [isFloatNonliteral, isFloat, isDoubleLiteral, hfloat.1, hfloat.2]

/-- Without floats, nulls and equal types, two rules are left. -/
theorem admitted_cases {l r : Typed} (hl : isFloat l = false) (hr : isFloat r = false)
    (hlnull : l.ty ≠ .null) (hrnull : r.ty ≠ .null) (hne : l.ty ≠ r.ty)
    (h : isAdmittedComparison l r = true) :
    (isInt l = true ∧ isInt r = true) ∨ (int64OrLiteral l = true ∧ isDecimalLiteral r = true) ∨
      (int64OrLiteral r = true ∧ isDecimalLiteral l = true) ∨
        (isDecimalLiteral l = true ∧ isDecimalLiteral r = true) := by
  obtain ⟨hl1, hl2, hl3, hl4⟩ := not_float_of_isFloat hl
  obtain ⟨hr1, hr2, hr3, hr4⟩ := not_float_of_isFloat hr
  have hsame : (l.ty == r.ty) = false := beq_false_of_ne hne
  have hlnull' : (l.ty == .null) = false := beq_false_of_ne hlnull
  have hrnull' : (r.ty == .null) = false := beq_false_of_ne hrnull
  unfold isAdmittedComparison at h
  rw [hl1, hl2, hl3, hl4, hr1, hr2, hr3, hr4, hsame, hlnull', hrnull'] at h
  simpa [or_assoc] using h

/-- An integer within the bounds is a signed integer of 128 bits. -/
theorem fitsInt128_of_isInt {t : Typed} (ht : Promises t) (hint : isInt t = true) :
    t.FitsInt128 := by
  obtain ⟨hinteger, hbounds⟩ := Bool.and_eq_true_iff.1 hint
  obtain ⟨⟨bits, signed⟩, hbits⟩ := Option.isSome_iff_exists.1 hinteger
  intro m hm
  rw [Typed.holds_integer hbits] at hm
  by_cases hkind : t.kind = .literal
  · obtain ⟨v, hv, hdigits⟩ := ht.literal hkind hinteger
    rw [if_pos hkind, hv] at hm
    cases hm
    have hlt := Nat.lt_of_lt_of_le (lt_pow_length m.natAbs)
      (Nat.pow_le_pow_right (by decide) (hdigits hbounds))
    have hmax : (10 : Nat) ^ MAX_INTEGER_LITERAL_DIGITS = 100000000000000000000 := rfl
    omega
  · rw [if_neg hkind] at hm
    have huhuge := ht.not_uHugeInt hbounds
    obtain ⟨ty, kind, within, value, counts⟩ := t
    dsimp only at hbits hm huhuge
    cases ty
    all_goals
      cases hbits <;> simp at hm huhuge <;> omega

theorem integerDigits_of_int64OrLiteral {t : Typed} (ht : Promises t)
    (h : int64OrLiteral t = true) :
    t.integerDigits ≤ MAX_INTEGER_LITERAL_DIGITS ∧ t.scale = 0 := by
  obtain ⟨hint, hsize⟩ := Bool.and_eq_true_iff.1 h
  obtain ⟨hinteger, hbounds⟩ := Bool.and_eq_true_iff.1 hint
  obtain ⟨⟨bits, signed⟩, hbits⟩ := Option.isSome_iff_exists.1 hinteger
  have hscale : t.scale = 0 := by
    unfold Typed.scale
    cases hty : t.ty with
    | decimal width scale =>
      rw [hty] at hbits
      cases hbits
    | _ => rfl
  refine ⟨?_, hscale⟩
  by_cases hkind : t.kind = .literal
  · obtain ⟨v, hv, hdigits⟩ := ht.literal hkind hinteger
    rw [Typed.integerDigits_literal hinteger hkind hv]
    exact hdigits hbounds
  · have hle : bits ≤ 64 := by
      rw [hbits] at hsize
      simpa [hkind] using hsize
    obtain ⟨ty, kind, within, value, counts⟩ := t
    dsimp only at hbits hkind
    cases ty
    all_goals
      cases hbits <;> simp [Typed.integerDigits, intBitsSigned, hkind, MAX_INTEGER_LITERAL_DIGITS] at hle ⊢

theorem integerDigits_of_isDecimalLiteral {t : Typed} (ht : Promises t)
    (h : isDecimalLiteral t = true) :
    t.integerDigits ≤ MAX_INTEGER_LITERAL_DIGITS ∧ t.scale ≤ MAX_DECIMAL_LITERAL_SCALE ∧
      t.ty.isDecimal = true := by
  obtain ⟨hrest, hbounds⟩ := Bool.and_eq_true_iff.1 h
  obtain ⟨hdecimal, -⟩ := Bool.and_eq_true_iff.1 hrest
  cases hty : t.ty with
  | decimal width scale =>
    obtain ⟨hscale, hdigits⟩ := ht.decimal hbounds width scale hty
    refine ⟨?_, ?_, rfl⟩
    · rw [Typed.integerDigits, hty]
      exact hdigits
    · rw [Typed.scale, hty]
      exact hscale
  | _ =>
    rw [hty] at hdecimal
    cases hdecimal

/-- Two operands whose digits and scales are those of literals have a decimal type. -/
theorem exists_common_decimal {l r : Typed} (hl : l.integerDigits ≤ MAX_INTEGER_LITERAL_DIGITS)
    (hr : r.integerDigits ≤ MAX_INTEGER_LITERAL_DIGITS) (hls : l.scale ≤ MAX_DECIMAL_LITERAL_SCALE)
    (hrs : r.scale ≤ MAX_DECIMAL_LITERAL_SCALE) :
    commonWidth l r ≤ MAX_DECIMAL_WIDTH ∧ l.FitsDecimal (commonWidth l r) (max l.scale r.scale) ∧
      r.FitsDecimal (commonWidth l r) (max l.scale r.scale) := by
  have hdigits : MAX_INTEGER_LITERAL_DIGITS + MAX_DECIMAL_LITERAL_SCALE = MAX_DECIMAL_WIDTH := rfl
  refine ⟨?_, ?_, ?_⟩
  · unfold commonWidth
    omega
  · refine Typed.fitsDecimal (Nat.le_max_left _ _) ?_
    unfold commonWidth
    omega
  · refine Typed.fitsDecimal (Nat.le_max_right _ _) ?_
    unfold commonWidth
    omega

/-- **An admitted comparison of two exact types is exact.**  Two operands of different types, none
of them a float or a null, that may be compared are within the literal bounds and not `UHUGEINT`.
Either both are integers and all their values are signed 128-bit integers, or one is a decimal and
the smallest decimal type for both has at most 38 digits and holds every value of both. -/
theorem admitted_comparison_exact {ns : Namespace} {left right : Value} {d : Nat} {l r : Typed}
    (hleft : ∀ v e, Reaches left d v e → WideLiteral v)
    (hright : ∀ v e, Reaches right d v e → WideLiteral v)
    (hl : typeOfValue ns left = .ok l) (hr : typeOfValue ns right = .ok r)
    (hlfloat : isFloat l = false) (hrfloat : isFloat r = false) (hlnull : l.ty ≠ .null)
    (hrnull : r.ty ≠ .null) (hne : l.ty ≠ r.ty) (h : isAdmittedComparison l r = true) :
    (l.withinBounds = true ∧ r.withinBounds = true ∧ l.ty ≠ .uHugeInt ∧ r.ty ≠ .uHugeInt) ∧
      ((isInteger l = true ∧ isInteger r = true ∧ l.FitsInt128 ∧ r.FitsInt128) ∨
        ((l.ty.isDecimal = true ∨ r.ty.isDecimal = true) ∧
          commonWidth l r ≤ MAX_DECIMAL_WIDTH ∧
          l.FitsDecimal (commonWidth l r) (max l.scale r.scale) ∧
          r.FitsDecimal (commonWidth l r) (max l.scale r.scale))) := by
  have hpl := promises_typeOfValue (everywhere_of_reaches hleft) hl
  have hpr := promises_typeOfValue (everywhere_of_reaches hright) hr
  have hint : ∀ {t : Typed}, isInt t = true → t.withinBounds = true :=
    fun ht => (Bool.and_eq_true_iff.1 ht).2
  have hint64 : ∀ {t : Typed}, int64OrLiteral t = true → t.withinBounds = true :=
    fun ht => hint (Bool.and_eq_true_iff.1 ht).1
  have hdecimal : ∀ {t : Typed}, isDecimalLiteral t = true → t.withinBounds = true :=
    fun ht => (Bool.and_eq_true_iff.1 ht).2
  have hflags : l.withinBounds = true → r.withinBounds = true →
      l.withinBounds = true ∧ r.withinBounds = true ∧ l.ty ≠ .uHugeInt ∧ r.ty ≠ .uHugeInt :=
    fun hbl hbr => ⟨hbl, hbr, hpl.not_uHugeInt hbl, hpr.not_uHugeInt hbr⟩
  rcases admitted_cases hlfloat hrfloat hlnull hrnull hne h with
    ⟨hli, hri⟩ | ⟨hli, hrd⟩ | ⟨hri, hld⟩ | ⟨hld, hrd⟩
  · refine ⟨hflags (hint hli) (hint hri), .inl ⟨?_, ?_, ?_, ?_⟩⟩
    · exact (Bool.and_eq_true_iff.1 hli).1
    · exact (Bool.and_eq_true_iff.1 hri).1
    · exact fitsInt128_of_isInt hpl hli
    · exact fitsInt128_of_isInt hpr hri
  · obtain ⟨hldigits, hlscale⟩ := integerDigits_of_int64OrLiteral hpl hli
    obtain ⟨hrdigits, hrscale, hrty⟩ := integerDigits_of_isDecimalLiteral hpr hrd
    refine ⟨hflags (hint64 hli) (hdecimal hrd), .inr ⟨.inr hrty, ?_⟩⟩
    exact exists_common_decimal hldigits hrdigits (by omega) hrscale
  · obtain ⟨hrdigits, hrscale⟩ := integerDigits_of_int64OrLiteral hpr hri
    obtain ⟨hldigits, hlscale, hlty⟩ := integerDigits_of_isDecimalLiteral hpl hld
    refine ⟨hflags (hdecimal hld) (hint64 hri), .inr ⟨.inl hlty, ?_⟩⟩
    exact exists_common_decimal hldigits hrdigits hlscale (by omega)
  · obtain ⟨hldigits, hlscale, hlty⟩ := integerDigits_of_isDecimalLiteral hpl hld
    obtain ⟨hrdigits, hrscale, -⟩ := integerDigits_of_isDecimalLiteral hpr hrd
    refine ⟨hflags (hdecimal hld) (hdecimal hrd), .inr ⟨.inl hlty, ?_⟩⟩
    exact exists_common_decimal hldigits hrdigits hlscale hrscale

/-- The one column `id`, an unsigned 64-bit integer. -/
def ids : Namespace :=
  ⟨[("id", "UBIGINT")], fun e he => ⟨.uInt64, by rw [List.mem_singleton.1 he]; rfl⟩⟩

/-- A literal with 20 digits in front of the point and 18 behind it. -/
def longDecimalNode : Value :=
  .object [("class", .string "CONSTANT"), ("value", .object [
    ("is_null", .bool false), ("type", .object [("id", .string "DECIMAL"),
      ("type_info", .object [("width", .number (.posInt 38)), ("scale", .number (.posInt 18))])])])]

theorem reaches_leaf {node v : Value} {d e : Nat} (hleaf : operands node = [])
    (h : Reaches node d v e) : v = node := by
  cases h with
  | refl => rfl
  | down hchild _ =>
    rw [hleaf] at hchild
    cases hchild

theorem wideLiteral_longDecimalNode : WideLiteral longDecimalNode := by
  intro _ value ty raw hvalue hty hid
  cases hvalue
  cases hty
  exact absurd (Option.some.inj hid) (by decide)

/-- The widest pair there is. -/
theorem admitted_comparison_exact_ids :
    commonWidth (.column .uBigInt) (decimalTyped 38 18) = 38 ∧
      (Typed.column .uBigInt).FitsDecimal 38 18 ∧ (decimalTyped 38 18).FitsDecimal 38 18 := by
  have hl : typeOfValue ids (columnNode "id") = .ok (.column .uBigInt) := by
    rw [typeOfValue]
    rfl
  have hr : typeOfValue ids longDecimalNode = .ok (decimalTyped 38 18) := by
    rw [typeOfValue]
    rfl
  have hwidth : commonWidth (.column .uBigInt) (decimalTyped 38 18) = 38 := by decide
  have h := @admitted_comparison_exact ids (columnNode "id") longDecimalNode 1 _ _
    (fun v e hreach => by
      rw [reaches_leaf (operands_columnRef rfl) hreach]
      exact class_ne rfl (by decide))
    (fun v e hreach => by
      rw [reaches_leaf (operands_constant rfl) hreach]
      exact wideLiteral_longDecimalNode)
    hl hr (by decide) (by decide) (by decide) (by decide) (by decide) (by decide)
  rcases h.2 with ⟨-, hinteger, -⟩ | ⟨-, -, hleft, hright⟩
  · cases hinteger
  · rw [hwidth] at hleft hright
    exact ⟨hwidth, hleft, hright⟩

end SpatialIde.Engine.Predicate
