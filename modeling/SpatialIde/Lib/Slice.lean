import SpatialIde.Lib.Bytes
import SpatialIde.Lib.Stop
import SpatialIde.Lib.Text

/-! # Fields of a byte string, read by position

A reader takes a byte string and a position and hands back what it read and where it stopped.  A
position is a `usize`: an addition past 2^64 is a panic, which is told apart from a refusal.  `Reads`
says of a reader what it accepts, by the encoding of what it returns, and that it does not panic.
-/

namespace Lib.Slice

variable {ε α β : Type}

def usizeAdd (a b : Nat) : Except (Stop ε) Nat := if a + b < 2 ^ 64 then .ok (a + b) else .error .panic

/-- `get(lo..hi)`. -/
def sliceOf (b : List α) (lo hi : Nat) : Option (List α) :=
  if lo ≤ hi ∧ hi ≤ b.length then some ((b.drop lo).take (hi - lo)) else none

/-- The next `n` items at a position, and the position behind them. -/
def takeField (e : ε) (n : Nat) (b : List α) (start : Nat) : Except (Stop ε) (List α × Nat) := do
  let stop ← usizeAdd start n
  let raw ← okOr (.refused e) (sliceOf b start stop)
  return (raw, stop)

/-- `str::from_utf8`, a refusal told by `e`. -/
def textOf (e : List UInt8 → ε) (raw : List UInt8) : Except (Stop ε) String :=
  okOr (.refused (e raw)) (Text.fromUtf8 raw)

theorem append_prefix {x y s : List α} : x ++ y <+: s ↔ x <+: s ∧ y <+: s.drop x.length := by
  constructor
  · rintro ⟨t, rfl⟩
    refine ⟨⟨y ++ t, by rw [List.append_assoc]⟩, ⟨t, ?_⟩⟩
    rw [List.append_assoc, List.drop_left]
  · rintro ⟨⟨t, rfl⟩, u, hu⟩
    rw [List.drop_left] at hu
    exact ⟨u, by rw [← hu, List.append_assoc]⟩

/-- Further than `width` from the end of the address space, the reader does not panic and returns `a`
just where its encoding comes next. -/
structure Reads (p : List UInt8 → Nat → Except (Stop ε) (α × Nat)) (width : Nat) (ok : α → Prop)
    (enc : α → List UInt8) : Prop where
  safe : ∀ b start, start + width < 2 ^ 64 → start ≤ b.length → p b start ≠ .error .panic
  eq_ok : ∀ b start a stop, start + width < 2 ^ 64 → start ≤ b.length →
    (p b start = .ok (a, stop) ↔ ok a ∧ enc a <+: b.drop start ∧ stop = start + (enc a).length)
  short : ∀ a, ok a → (enc a).length ≤ width

theorem takeField_eq_ok {e : ε} {n start stop : Nat} {b raw : List α} (h : start + n < 2 ^ 64)
    (hstart : start ≤ b.length) :
    takeField e n b start = .ok (raw, stop) ↔
      raw.length = n ∧ raw <+: b.drop start ∧ stop = start + n := by
  have hfield : takeField e n b start =
      if start + n ≤ b.length then .ok ((b.drop start).take n, start + n)
      else .error (.refused e) := by
    rw [takeField, usizeAdd, if_pos h]
    show (okOr _ (sliceOf b start (start + n)) >>= _) = _
    rw [sliceOf, Nat.add_sub_cancel_left]
    split_ifs with h₁ h₂ h₂
    · rfl
    · exact absurd h₁.2 h₂
    · exact absurd ⟨Nat.le_add_right _ _, h₂⟩ h₁
    · rfl
  rw [hfield]
  split_ifs with hlen
  · rw [Except.ok.injEq, Prod.mk.injEq]
    have hdrop : ((b.drop start).take n).length = n := by
      rw [List.length_take, List.length_drop]
      omega
    constructor
    · rintro ⟨rfl, rfl⟩
      exact ⟨hdrop, List.take_prefix _ _, rfl⟩
    · rintro ⟨rfl, hpre, rfl⟩
      exact ⟨(List.prefix_iff_eq_take.1 hpre).symm, rfl⟩
  · refine ⟨nofun, ?_⟩
    rintro ⟨rfl, hpre, -⟩
    have hle := hpre.length_le
    rw [List.length_drop] at hle
    omega

theorem takeField_safe {e : ε} {n start : Nat} {b : List α} (h : start + n < 2 ^ 64) :
    takeField e n b start ≠ .error .panic := by
  rw [takeField, usizeAdd, if_pos h]
  show (okOr _ (sliceOf b start (start + n)) >>= _) ≠ _
  cases sliceOf b start (start + n) <;> exact nofun

theorem textOf_eq_ok {e : List UInt8 → ε} {raw : List UInt8} {s : String} :
    textOf e raw = .ok s ↔ raw = Text.bytes s := by
  rw [textOf, okOr_eq_ok]
  constructor
  · intro h
    exact (Text.bytes_of_fromUtf8 h).symm
  · rintro rfl
    exact Text.fromUtf8_bytes s

theorem textOf_safe (e : List UInt8 → ε) (raw : List UInt8) : textOf e raw ≠ .error .panic := by
  rw [textOf]
  cases Text.fromUtf8 raw <;> exact nofun

/-- A step that does not panic, followed by one that does not. -/
theorem bind_safe {x : Except (Stop ε) α} {f : α → Except (Stop ε) β} (hx : x ≠ .error .panic)
    (hf : ∀ a, x = .ok a → f a ≠ .error .panic) : x >>= f ≠ .error .panic := by
  cases x with
  | error stop => exact fun h => hx (by cases stop <;> first | rfl | cases h)
  | ok a => exact hf a rfl

/-! ### Readers -/

/-- A big-endian number of `n` bytes. -/
def takeNumber (e : ε) (n : Nat) (b : List UInt8) (start : Nat) : Except (Stop ε) (Nat × Nat) := do
  let (raw, stop) ← takeField e n b start
  return (valueOf false raw, stop)

/-- A text of `n` bytes. -/
def takeText (e : ε) (e' : List UInt8 → ε) (n : Nat) (b : List UInt8) (start : Nat) :
    Except (Stop ε) (String × Nat) := do
  let (raw, stop) ← takeField e n b start
  let s ← textOf e' raw
  return (s, stop)

/-- A part that is there only under a condition. -/
def takeIf (there : Prop) [Decidable there] (p : List UInt8 → Nat → Except (Stop ε) (α × Nat))
    (b : List UInt8) (start : Nat) : Except (Stop ε) (Option α × Nat) :=
  if there then do
    let (a, start) ← p b start
    return (some a, start)
  else return (none, start)

theorem reads_takeField (e : ε) (n : Nat) :
    Reads (takeField e n) n (fun raw => raw.length = n) id where
  safe _ _ h _ := takeField_safe h
  short _ h := h.le
  eq_ok b start raw stop h hstart := by
    rw [takeField_eq_ok h hstart]
    refine and_congr_right fun hlen => and_congr_right fun _ => ?_
    rw [id, hlen]

theorem reads_takeNumber (e : ε) (n : Nat) :
    Reads (takeNumber e n) n (fun v => v < 256 ^ n) (bytesOf false n) where
  safe b start h _ := bind_safe (takeField_safe h) fun _ _ => nofun
  short v _ := (length_bytesOf false n v).le
  eq_ok b start v stop h hstart := by
    rw [takeNumber, bind_eq_ok]
    constructor
    · rintro ⟨⟨raw, stop'⟩, hraw, hv⟩
      cases hv
      obtain ⟨rfl, hpre, rfl⟩ := (takeField_eq_ok h hstart).1 hraw
      refine ⟨valueOf_lt false raw, ?_, ?_⟩
      · rwa [bytesOf_valueOf]
      · rw [length_bytesOf]
    · rintro ⟨hv, hpre, rfl⟩
      refine ⟨(bytesOf false n v, start + n), ?_, ?_⟩
      · exact (takeField_eq_ok h hstart).2 ⟨length_bytesOf false n v, hpre, rfl⟩
      · dsimp only
        rw [valueOf_bytesOf false hv, length_bytesOf]
        rfl

theorem reads_takeText (e : ε) (e' : List UInt8 → ε) (n : Nat) :
    Reads (takeText e e' n) n (fun s => s.utf8ByteSize = n) Text.bytes where
  safe b start h _ := bind_safe (takeField_safe h) fun _ _ =>
    bind_safe (textOf_safe _ _) fun _ _ => nofun
  short s h := h.le
  eq_ok b start s stop h hstart := by
    rw [takeText, bind_eq_ok]
    constructor
    · rintro ⟨⟨raw, stop'⟩, hraw, hs⟩
      obtain ⟨s', hs', hs⟩ := bind_eq_ok.1 hs
      cases hs
      obtain ⟨hlen, hpre, rfl⟩ := (takeField_eq_ok h hstart).1 hraw
      obtain rfl := textOf_eq_ok.1 hs'
      exact ⟨hlen, hpre, by rw [hlen]⟩
    · rintro ⟨hlen, hpre, rfl⟩
      refine ⟨(Text.bytes s, start + n), ?_, bind_eq_ok.2 ⟨s, textOf_eq_ok.2 rfl, ?_⟩⟩
      · exact (takeField_eq_ok h hstart).2 ⟨hlen, hpre, rfl⟩
      · rw [Text.length_bytes, hlen]
        rfl

namespace Reads

variable {p : List UInt8 → Nat → Except (Stop ε) (α × Nat)} {w : Nat} {ok : α → Prop}
  {enc : α → List UInt8}

/-- Where a reader stopped is in the byte string, not further than its width. -/
theorem bounds (hp : Reads p w ok enc) {b : List UInt8} {start stop : Nat} {a : α}
    (h : start + w < 2 ^ 64) (hstart : start ≤ b.length) (hread : p b start = .ok (a, stop)) :
    stop ≤ start + w ∧ stop ≤ b.length := by
  obtain ⟨hok, hpre, rfl⟩ := (hp.eq_ok b start a stop h hstart).1 hread
  have hshort := hp.short a hok
  have hle := hpre.length_le
  rw [List.length_drop] at hle
  omega

/-- One reader behind another, whose result can be told from its own. -/
theorem bind (hp : Reads p w ok enc) {q : α → List UInt8 → Nat → Except (Stop ε) (β × Nat)} {w' : Nat}
    {ok' : α → β → Prop} {enc' : β → List UInt8} (of : β → α)
    (hq : ∀ a, ok a → Reads (q a) w' (ok' a) enc') (hof : ∀ a c, ok' a c → of c = a) :
    Reads (fun b start => p b start >>= fun x => q x.1 b x.2) (w + w')
      (fun c => ok (of c) ∧ ok' (of c) c) (fun c => enc (of c) ++ enc' c) where
  safe b start h hstart := by
    refine bind_safe (hp.safe b start (by omega) hstart) fun x hx => ?_
    have hok := ((hp.eq_ok b start x.1 x.2 (by omega) hstart).1 hx).1
    have hbounds := hp.bounds (by omega) hstart hx
    exact (hq x.1 hok).safe b x.2 (by omega) hbounds.2
  short c hc := by
    have h₁ := hp.short _ hc.1
    have h₂ := (hq _ hc.1).short c hc.2
    rw [List.length_append]
    omega
  eq_ok b start c stop h hstart := by
    rw [bind_eq_ok, append_prefix, List.drop_drop, List.length_append]
    constructor
    · rintro ⟨⟨a, mid⟩, ha, hc⟩
      obtain ⟨hok, hpre, hmid⟩ := (hp.eq_ok b start a mid (by omega) hstart).1 ha
      have hbounds := hp.bounds (by omega) hstart ha
      obtain ⟨hok', hpre', rfl⟩ :=
        ((hq a hok).eq_ok b mid c stop (by omega) hbounds.2).1 hc
      obtain rfl := hof a c hok'
      exact ⟨⟨hok, hok'⟩, ⟨hpre, hmid ▸ hpre'⟩, by omega⟩
    · rintro ⟨⟨hok, hok'⟩, ⟨hpre, hpre'⟩, rfl⟩
      have ha := (hp.eq_ok b start (of c) _ (by omega) hstart).2 ⟨hok, hpre, rfl⟩
      have hbounds := hp.bounds (by omega) hstart ha
      refine ⟨_, ha, ((hq _ hok).eq_ok b _ c _ (by omega) hbounds.2).2 ⟨hok', hpre', ?_⟩⟩
      omega

/-- A reader whose result is put in another form. -/
theorem map (hp : Reads p w ok enc) (f : α → β) (g : β → α) (hgf : ∀ a, ok a → g (f a) = a) :
    Reads (fun b start => p b start >>= fun x => .ok (f x.1, x.2)) w (fun c => ok (g c) ∧ f (g c) = c)
      (fun c => enc (g c)) where
  safe b start h hstart := bind_safe (hp.safe b start h hstart) fun _ _ => nofun
  short c hc := hp.short _ hc.1
  eq_ok b start c stop h hstart := by
    rw [bind_eq_ok]
    constructor
    · rintro ⟨⟨a, stop'⟩, ha, hc⟩
      cases hc
      obtain ⟨hok, hpre, hstop⟩ := (hp.eq_ok b start a stop' h hstart).1 ha
      rw [hgf a hok]
      exact ⟨⟨hok, rfl⟩, hpre, hstop⟩
    · rintro ⟨⟨hok, hfg⟩, hpre, hstop⟩
      exact ⟨_, (hp.eq_ok b start (g c) stop h hstart).2 ⟨hok, hpre, hstop⟩, by rw [hfg]⟩

/-- The same reader, said otherwise. -/
theorem congr (hp : Reads p w ok enc) {ok' : α → Prop} {enc' : α → List UInt8}
    (hok : ∀ a, ok' a ↔ ok a) (henc : ∀ a, enc' a = enc a) : Reads p w ok' enc' := by
  obtain rfl : ok' = ok := funext fun a => propext (hok a)
  obtain rfl : enc' = enc := funext henc
  exact hp

theorem widen (hp : Reads p w ok enc) {w' : Nat} (hw : w ≤ w') : Reads p w' ok enc where
  safe b start h hstart := hp.safe b start (by omega) hstart
  eq_ok b start a stop h hstart := hp.eq_ok b start a stop (by omega) hstart
  short a ha := (hp.short a ha).trans hw

theorem optional (hp : Reads p w ok enc) (there : Prop) [Decidable there] :
    Reads (takeIf there p) w (fun c => (c.isSome ↔ there) ∧ ∀ a, c = some a → ok a)
      (fun c => (c.map enc).getD []) where
  safe b start h hstart := by
    rw [takeIf]
    split_ifs
    · exact bind_safe (hp.safe b start h hstart) fun _ _ => nofun
    · exact nofun
  short c hc := by
    cases c with
    | none => exact Nat.zero_le _
    | some a => exact hp.short a (hc.2 a rfl)
  eq_ok b start c stop h hstart := by
    rw [takeIf]
    split_ifs with hthere
    · rw [bind_eq_ok]
      constructor
      · rintro ⟨⟨a, stop'⟩, ha, hc⟩
        cases hc
        obtain ⟨hok, hpre, hstop⟩ := (hp.eq_ok b start a stop h hstart).1 ha
        exact ⟨⟨by simp [hthere], fun a' ha' => Option.some.inj ha' ▸ hok⟩, hpre, hstop⟩
      · rintro ⟨⟨hsome, hok⟩, hpre, hstop⟩
        obtain ⟨a, rfl⟩ := Option.isSome_iff_exists.1 (hsome.2 hthere)
        exact ⟨(a, stop), (hp.eq_ok b start a stop h hstart).2 ⟨hok a rfl, hpre, hstop⟩, rfl⟩
    · show Except.ok (none, start) = .ok (c, stop) ↔ _
      rw [Except.ok.injEq, Prod.mk.injEq]
      constructor
      · rintro ⟨rfl, rfl⟩
        exact ⟨⟨by simp [hthere], nofun⟩, List.nil_prefix, rfl⟩
      · rintro ⟨⟨hsome, -⟩, -, rfl⟩
        cases c with
        | none => exact ⟨rfl, rfl⟩
        | some a => exact absurd (hsome.1 rfl) hthere

end Reads

end Lib.Slice
