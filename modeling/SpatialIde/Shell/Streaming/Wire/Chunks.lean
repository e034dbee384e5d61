import SpatialIde.Lib.Except
import SpatialIde.Shell.Streaming.Wire

/-! # Chunks and frames

`FrameDecoder.pushAll` puts out what `Framing.feed` hands out of the channel's layout (`pushAll_eq`).
-/

namespace SpatialIde.Shell.Streaming

open Lib SpatialIde.DataPlane

/-! ### The chunks as one stream -/

theorem gather_eq {n : Nat} {cs : List (List UInt8)} (h : n ≤ cs.flatten.length) :
    gather n cs = cs.flatten.take n := by
  induction cs generalizing n with
  | nil =>
    have hn : n = 0 := by simpa using h
    rw [hn, gather]
    rfl
  | cons c cs ih =>
    rw [List.flatten_cons, List.length_append] at h
    rw [gather, List.flatten_cons]
    by_cases hc : n ≤ c.length
    · rw [if_pos hc, List.take_append_of_le_length hc]
    · rw [if_neg hc, ih (by omega), List.take_append,
        List.take_of_length_le (show c.length ≤ n by omega)]

theorem takeAcross_eq {n : Nat} {cs : List (List UInt8)} (h : n ≤ cs.flatten.length) :
    (takeAcross n cs).1 = cs.flatten.take n ∧ (takeAcross n cs).2.flatten = cs.flatten.drop n := by
  induction cs generalizing n with
  | nil =>
    have hn : n = 0 := by simpa using h
    rw [hn, takeAcross]
    exact ⟨rfl, rfl⟩
  | cons c cs ih =>
    rw [List.flatten_cons, List.length_append] at h
    cases n with
    | zero => exact ⟨by rw [takeAcross]; rfl, by rw [takeAcross]; rfl⟩
    | succ n =>
      rw [takeAcross, List.flatten_cons]
      by_cases hc : c.length ≤ n + 1
      · obtain ⟨hbytes, hrest⟩ := @ih (n + 1 - c.length) (by omega)
        rw [if_pos hc, List.take_append, List.drop_append, List.take_of_length_le hc,
          List.drop_of_length_le hc, List.nil_append]
        exact ⟨congrArg (c ++ ·) hbytes, hrest⟩
      · rw [if_neg hc, List.take_append_of_le_length (by omega),
          List.drop_append_of_le_length (by omega)]
        exact ⟨rfl, rfl⟩

namespace FrameDecoder

/-- The decoder holds `s` and has found no fault. -/
structure Holding (d : FrameDecoder) (s : List UInt8) : Prop where
  bytes : d.chunks.flatten = s
  available : d.available = s.length
  fault : d.fault = none

variable {d : FrameDecoder} {s : List UInt8}

theorem holding_new (maxFrameBytes : Nat) : (new maxFrameBytes).Holding [] := ⟨rfl, rfl, rfl⟩

theorem Holding.peek_eq_none (h : d.Holding s) {n : Nat} (hn : s.length < n) : d.peek n = none := by
  rw [peek, h.available, if_pos hn]

theorem Holding.peek_eq_some (h : d.Holding s) {n : Nat} (hn : n ≤ s.length) :
    d.peek n = some (s.take n) := by
  have hbytes := h.bytes
  rw [peek, h.available, if_neg (by omega)]
  cases hchunks : d.chunks with
  | nil =>
    rw [hchunks] at hbytes
    rw [← hbytes] at hn ⊢
    exact congrArg some (gather_eq hn)
  | cons c cs =>
    rw [hchunks] at hbytes
    rw [← hbytes] at hn ⊢
    dsimp only
    split_ifs with hc
    · rw [List.flatten_cons, List.take_append_of_le_length hc]
    · rw [gather_eq hn]

theorem Holding.take (h : d.Holding s) {n : Nat} (hn : n ≤ s.length) :
    (d.take n).1 = s.take n ∧ (d.take n).2.2.Holding (s.drop n) ∧
      (d.take n).2.2.maxFrameBytes = d.maxFrameBytes := by
  have hbytes := h.bytes
  have havailable : (d.take n).2.2.available = (s.drop n).length := by
    rw [available_take, h.available, List.length_drop]
  rw [FrameDecoder.take] at havailable ⊢
  cases hchunks : d.chunks with
  | nil =>
    rw [hchunks] at hbytes havailable
    rw [← hbytes] at hn havailable ⊢
    have hn₀ : n = 0 := by simpa using hn
    rw [hn₀] at havailable ⊢
    exact ⟨rfl, ⟨rfl, havailable, h.fault⟩, rfl⟩
  | cons c cs =>
    rw [hchunks] at hbytes havailable
    rw [← hbytes] at hn havailable ⊢
    dsimp only at havailable ⊢
    by_cases hc : n ≤ c.length
    · rw [if_pos hc] at havailable ⊢
      refine ⟨?_, ⟨?_, havailable, h.fault⟩, rfl⟩
      · rw [List.flatten_cons, List.take_append_of_le_length hc]
      · dsimp only
        rw [List.flatten_cons, List.drop_append_of_le_length hc]
        split_ifs with hlen
        · rw [List.drop_of_length_le hlen.le, List.nil_append]
        · rw [List.flatten_cons]
    · rw [if_neg hc] at havailable ⊢
      obtain ⟨hfirst, hrest⟩ := takeAcross_eq hn
      exact ⟨hfirst, ⟨hrest, havailable, h.fault⟩, rfl⟩

/-! ### The loop -/

theorem apart_decode (tag : UInt8) (payload : List UInt8) (contiguous : Bool) :
    (decode tag payload contiguous).apart = decode tag payload true := by
  unfold decode
  split_ifs with hopen hbatch hprogress hlength hterminal
  · split
    · split_ifs <;> rfl
    · rfl
  · rfl
  · rfl
  · rfl
  · cases payload with
    | nil => rfl
    | cons code rest =>
      dsimp only
      split <;> rfl
  · rfl

/-- The frame of a piece of the layout. -/
def hand (f : UInt8 × List UInt8) : Frame := decode f.1 f.2 true

/-- The frame that reports a length over the ceiling. -/
def report (maxFrameBytes len : Nat) : Frame := .terminal .decodeFailed (faultOf maxFrameBytes len)

theorem holding_counting (h : d.Holding s) (payload : List UInt8) :
    (d.counting payload).Holding s := ⟨h.bytes, h.available, h.fault⟩

theorem declared_eq (s : List UInt8) :
    valueOf false ((s.take FRAME_PREFIX_LEN).drop 4) = declared s := rfl

/-- What the loop does with a stream of the layout. -/
theorem frames_eq (out : List Frame) (h : d.Holding s) :
    match ((layout d.maxFrameBytes).drain s).fault with
    | none =>
      (frames out d).1.map Frame.apart =
          out.map Frame.apart ++ ((layout d.maxFrameBytes).drain s).frames.map hand ∧
        (frames out d).2.Holding ((layout d.maxFrameBytes).drain s).rest ∧
        (frames out d).2.maxFrameBytes = d.maxFrameBytes
    | some len =>
      (frames out d).1 = [report d.maxFrameBytes len] ∧
        (frames out d).2.fault = some (faultOf d.maxFrameBytes len) := by
  generalize hmax : d.maxFrameBytes = ceiling
  induction s using (layout ceiling).drain_induction generalizing out d with
  | more s hcut =>
    rw [Framing.drain_more hcut]
    dsimp only
    rw [List.map_nil, List.append_nil]
    have hstop : frames out d = (out, d) := by
      rw [frames]
      rcases cutFrame_eq_more hcut with hshort | ⟨hceiling, hshort⟩
      · rw [h.peek_eq_none hshort]
      · by_cases hprefix₈ : s.length < FRAME_PREFIX_LEN
        · rw [h.peek_eq_none hprefix₈]
        · rw [h.peek_eq_some (by omega)]
          dsimp only
          rw [declared_eq, hmax, h.available, if_neg (by omega), if_pos hshort]
    rw [hstop]
    exact ⟨rfl, h, hmax⟩
  | refused s len hcut =>
    obtain ⟨hlen, hceiling, rfl⟩ := cutFrame_eq_refused hcut
    rw [Framing.drain_refused hcut]
    dsimp only
    rw [frames, h.peek_eq_some hlen]
    dsimp only
    rw [declared_eq, hmax, if_pos (show declared s > ceiling from hceiling)]
    exact ⟨rfl, rfl⟩
  | frame s f rest hcut ih =>
    obtain ⟨hlen, hceiling, htag, hpayload, rfl⟩ := cutFrame_eq_frame hcut
    have hloop : frames out d = frames (out ++ [decode f.1 f.2 (d.take (FRAME_PREFIX_LEN + declared s)).2.1])
        ((d.take (FRAME_PREFIX_LEN + declared s)).2.2.counting f.2) := by
      obtain ⟨hbytes, -, -⟩ := h.take hlen
      have hfirst : (s.take FRAME_PREFIX_LEN).headD 0 = f.1 := by
        cases s with
        | nil => cases htag
        | cons tag s =>
          cases htag
          rfl
      rw [frames, h.peek_eq_some (by omega)]
      dsimp only
      rw [declared_eq, hmax, h.available, if_neg (by omega), if_neg (by omega), hfirst, hbytes,
        ← hpayload]
    obtain ⟨-, hrest, hsame⟩ := h.take hlen
    have hih := ih (out ++ [decode f.1 f.2 (d.take (FRAME_PREFIX_LEN + declared s)).2.1])
      (holding_counting hrest f.2) (hsame.trans hmax)
    rw [Framing.drain_frame hcut, hloop]
    dsimp only
    cases hfault : ((layout ceiling).drain (s.drop (FRAME_PREFIX_LEN + declared s))).fault with
    | none =>
      rw [hfault] at hih
      dsimp only at hih ⊢
      rw [List.map_append, List.map_singleton, apart_decode, List.append_assoc] at hih
      exact hih
    | some len =>
      rw [hfault] at hih
      exact hih

/-! ### Chunk after chunk -/

theorem pushAll_fault (h : d.fault.isSome = true) (chunks : List (List UInt8)) :
    d.pushAll chunks = ([], d) := by
  induction chunks with
  | nil => rfl
  | cons chunk chunks ih =>
    rw [pushAll, push, if_pos h]
    dsimp only
    rw [ih]
    rfl

theorem pushAll_eq {ceiling : Nat} (hmax : d.maxFrameBytes = ceiling) (h : d.Holding s)
    (chunks : List (List UInt8)) :
    (d.pushAll chunks).1.map Frame.apart =
        ((layout ceiling).feed hand (report ceiling) s chunks).frames ∧
      (d.pushAll chunks).2.fault =
        ((layout ceiling).feed hand (report ceiling) s chunks).fault.map (faultOf ceiling) := by
  induction chunks generalizing d s with
  | nil => exact ⟨rfl, by rw [pushAll, h.fault]; rfl⟩
  | cons chunk chunks ih =>
    have hpush : d.push chunk = frames [] { d with
        chunks := d.chunks ++ [chunk], available := d.available + chunk.length } := by
      rw [push, h.fault]
      rfl
    have hholding : Holding { d with
        chunks := d.chunks ++ [chunk], available := d.available + chunk.length } (s ++ chunk) := by
      refine ⟨?_, ?_, h.fault⟩
      · dsimp only
        rw [List.flatten_append, h.bytes, List.flatten_singleton]
      · dsimp only
        rw [h.available, List.length_append]
    have hframes := frames_eq [] hholding
    dsimp only at hframes
    rw [← hpush, hmax] at hframes
    rw [pushAll, Framing.feed]
    dsimp only
    cases hfault : ((layout ceiling).drain (s ++ chunk)).fault with
    | none =>
      rw [hfault] at hframes
      obtain ⟨hout, hleft, hsame⟩ := hframes
      obtain ⟨hout', hfault'⟩ := ih hsame hleft
      dsimp only
      rw [List.map_append, hout, hout', List.map_nil, List.nil_append]
      exact ⟨rfl, hfault'⟩
    | some len =>
      rw [hfault] at hframes
      obtain ⟨hout, hsome⟩ := hframes
      rw [pushAll_fault (by rw [hsome]; rfl) chunks]
      dsimp only
      rw [hout, hsome]
      exact ⟨rfl, rfl⟩

end FrameDecoder

/-! ### What the server wrote -/

/-- The kind a code stands for. -/
def kindOf : TerminalCode → TerminalKind
  | .completed => .completed
  | .cancelled => .cancelled
  | .producerFailed => .producerFailed
  | .transportFailed => .transportFailed
  | .decodeFailed => .decodeFailed

/-- What the consumer is meant to see of a frame. -/
def said : ServerFrame → Frame
  | .opened operation stream => .opened operation stream
  | .batch payload => .batch payload true
  | .progress batches bytes total =>
    .progress ⟨batches, bytes, if total = UNKNOWN_TOTAL then none else some total⟩
  | .terminal code detail => .terminal (kindOf code) detail

/-- What the server may say: ids without a blank, counts that are exact as doubles. -/
def Said : ServerFrame → Prop
  | .opened operation stream =>
    operation ≠ "" ∧ stream ≠ "" ∧ ' ' ∉ operation.toList ∧ ' ' ∉ stream.toList
  | .batch _ => True
  | .progress batches bytes total =>
    batches < 2 ^ 53 ∧ bytes < 2 ^ 53 ∧ (total < 2 ^ 53 ∨ total = UNKNOWN_TOTAL)
  | .terminal _ _ => True

/-- A text does not start with a byte order mark. -/
def NoMark (s : String) : Prop := s.toList.head? ≠ some Text.BOM

/-- Its text does not start with a byte order mark. -/
def Markless : ServerFrame → Prop
  | .opened operation _ => NoMark operation
  | .terminal _ detail => NoMark detail
  | _ => True

theorem dropBom_eq_iff {s : String} : String.ofList (Text.dropBom s.toList) = s ↔ NoMark s := by
  rw [NoMark, ← String.toList_inj, String.toList_ofList]
  cases s.toList with
  | nil => simp [Text.dropBom]
  | cons c cs =>
    rw [Text.dropBom]
    split_ifs with hc
    · refine ⟨fun h => ?_, fun h => absurd (by rw [hc]; rfl) h⟩
      have := congrArg List.length h
      simp at this
    · refine ⟨fun _ h => hc ?_, fun _ => rfl⟩
      cases h
      rfl

theorem mem_dropBom {c : Char} {cs : List Char} (h : c ∈ Text.dropBom cs) : c ∈ cs := by
  cases cs with
  | nil => cases h
  | cons a cs =>
    rw [Text.dropBom] at h
    split_ifs at h
    · exact List.mem_cons_of_mem _ h
    · exact h

theorem number_of_lt {n : Nat} (h : n < 2 ^ 53) : number n = n := if_pos h

theorem decode_opened {operation stream : String} (h : Said (.opened operation stream)) :
    decode TAG_OPEN (ServerFrame.opened operation stream).payload true =
      .opened operation stream ↔ NoMark operation := by
  obtain ⟨hop, hstream, hblank, hblank'⟩ := h
  have hne : operation.toList ≠ [] := fun hnil => hop (by rw [← String.toList_inj, hnil]; rfl)
  have htext : Text.decode (ServerFrame.opened operation stream).payload =
      String.ofList (Text.dropBom operation.toList ++ ' ' :: stream.toList) := by
    rw [ServerFrame.payload, Text.decode_bytes]
    congr 1
    rw [String.toList_append, String.toList_append]
    cases hlist : operation.toList with
    | nil => exact absurd hlist hne
    | cons c cs =>
      simp only [Text.dropBom, List.cons_append, List.append_assoc]
      split_ifs <;> rfl
  have hsplit : splitSpace (Text.decode (ServerFrame.opened operation stream).payload) =
      [String.ofList (Text.dropBom operation.toList), stream] := by
    rw [splitSpace, htext, String.toList_ofList, List.splitOn_append_cons_self,
      List.splitOn_eq_singleton fun hc => hblank (mem_dropBom hc),
      List.splitOn_eq_singleton hblank']
    simp
  unfold decode
  rw [if_pos rfl, hsplit]
  dsimp only
  rw [← dropBom_eq_iff]
  split_ifs with hempty
  · refine ⟨fun h => (by cases h), fun h => ?_⟩
    rcases hempty with hempty | hempty
    · rw [h] at hempty
      exact absurd hempty hop
    · exact absurd hempty hstream
  · rw [Frame.opened.injEq]
    exact ⟨fun h => h.1, fun h => ⟨h, rfl⟩⟩

theorem decode_progress {batches bytes total : Nat} (h : Said (.progress batches bytes total)) :
    decode TAG_PROGRESS (ServerFrame.progress batches bytes total).payload true =
      said (.progress batches bytes total) := by
  obtain ⟨hbatches, hbytes, htotal⟩ := h
  have hwidth : ∀ n, (bytesOf false 8 n).length = 8 := by
    intro n
    simp [bytesOf]
  have hpayload : (ServerFrame.progress batches bytes total).payload =
      bytesOf false 8 batches ++ (bytesOf false 8 bytes ++ bytesOf false 8 total) :=
    List.append_assoc _ _ _
  have hlt : total < 256 ^ 8 := by
    rcases htotal with h | rfl
    · omega
    · decide
  have h₀ : getBigUint64 (ServerFrame.progress batches bytes total).payload 0 = batches := by
    rw [getBigUint64, hpayload, List.drop_zero, List.take_append_of_le_length (hwidth _).ge,
      List.take_of_length_le (hwidth _).le]
    exact valueOf_bytesOf false (by omega)
  have h₈ : getBigUint64 (ServerFrame.progress batches bytes total).payload 8 = bytes := by
    rw [getBigUint64, hpayload, List.drop_append_of_le_length (hwidth _).ge,
      List.drop_of_length_le (hwidth _).le, List.nil_append,
      List.take_append_of_le_length (hwidth _).ge, List.take_of_length_le (hwidth _).le]
    exact valueOf_bytesOf false (by omega)
  have h₁₆ : getBigUint64 (ServerFrame.progress batches bytes total).payload 16 = total := by
    have hfirst : (bytesOf false 8 batches ++ bytesOf false 8 bytes).length = 16 := by
      rw [List.length_append, hwidth, hwidth]
    rw [getBigUint64, hpayload, ← List.append_assoc, List.drop_append_of_le_length hfirst.ge,
      List.drop_of_length_le hfirst.le, List.nil_append, List.take_of_length_le (hwidth _).le]
    exact valueOf_bytesOf false hlt
  have hlength : (ServerFrame.progress batches bytes total).payload.length = 24 := by
    rw [hpayload, List.length_append, List.length_append, hwidth, hwidth, hwidth]
  unfold decode
  rw [if_neg (by decide), if_neg (by decide), if_pos rfl, if_neg (by omega), h₀, h₈, h₁₆,
    number_of_lt hbatches, number_of_lt hbytes, said]
  dsimp only
  rcases htotal with h | h
  · rw [number_of_lt h]
  · rw [if_pos h, if_pos h]

theorem decode_terminal (code : TerminalCode) (detail : String) :
    decode TAG_TERMINAL (ServerFrame.terminal code detail).payload true =
      said (.terminal code detail) ↔ NoMark detail := by
  have hkind : TERMINAL_KINDS[code.code.toNat]? = some (kindOf code) := by
    cases code <;> rfl
  unfold decode
  rw [if_neg (by decide), if_neg (by decide), if_neg (by decide), if_pos rfl,
    ServerFrame.payload, terminalPayload]
  dsimp only
  rw [hkind, said, Text.decode_bytes, ← dropBom_eq_iff, Frame.terminal.injEq]
  exact ⟨fun h => h.2, fun h => ⟨rfl, h⟩⟩

/-- A frame is seen as it was said, but for a byte order mark. -/
theorem hand_write {f : ServerFrame} (h : Said f) :
    FrameDecoder.hand (f.tag, f.payload) = said f ↔ Markless f := by
  cases f with
  | opened operation stream => exact decode_opened h
  | batch payload => exact ⟨fun _ => trivial, fun _ => rfl⟩
  | progress batches bytes total => exact ⟨fun _ => trivial, fun _ => decode_progress h⟩
  | terminal code detail => exact decode_terminal code detail

/-- The stream of written frames: every frame, where none is over the ceiling. -/
theorem drain_written {ceiling : Nat} {frames : List ServerFrame} {written : List (List UInt8)}
    (h : frames.mapM ServerFrame.write = .ok written) :
    (((layout ceiling).drain written.flatten).fault = none ↔
      ∀ f ∈ frames, f.payload.length ≤ ceiling) ∧
    (((layout ceiling).drain written.flatten).fault = none →
      ((layout ceiling).drain written.flatten).frames = frames.map fun f => (f.tag, f.payload)) := by
  induction frames generalizing written with
  | nil =>
    rw [List.mapM_nil] at h
    cases h
    have hmore : (layout ceiling).cut [] = .more := rfl
    rw [List.flatten_nil, Framing.drain_more hmore]
    exact ⟨⟨fun _ f hf => (by cases hf), fun _ => rfl⟩, fun _ => rfl⟩
  | cons f frames ih =>
    rw [List.mapM_cons] at h
    obtain ⟨out, hout, h⟩ := bind_eq_ok.1 h
    obtain ⟨outs, houts, h⟩ := bind_eq_ok.1 h
    cases h
    obtain ⟨hnone, hframes⟩ := ih houts
    rw [List.flatten_cons]
    rcases Nat.lt_or_ge ceiling f.payload.length with hover | hle
    · have hcut : (layout ceiling).cut (out ++ outs.flatten) = .refused f.payload.length :=
        cutFrame_write_over hout hover _
      rw [Framing.drain_refused hcut]
      refine ⟨⟨fun h => (by cases h), fun h => ?_⟩, fun h => by cases h⟩
      exact absurd (h f List.mem_cons_self) (by omega)
    · have hcut : (layout ceiling).cut (out ++ outs.flatten) =
          .frame (f.tag, f.payload) outs.flatten := cutFrame_write hout hle _
      rw [Framing.drain_frame hcut]
      dsimp only
      refine ⟨hnone.trans ⟨fun h g hg => ?_, fun h g hg => h g (List.mem_cons_of_mem _ hg)⟩,
        fun h => ?_⟩
      · rcases List.mem_cons.1 hg with rfl | hg
        · exact hle
        · exact h g hg
      · rw [hframes h, List.map_cons]

/-! ### However the bytes arrive -/

/-- The whole frames at the start of a stream. -/
def wholeFrames (ceiling : Nat) (s : List UInt8) : Nat := ((layout ceiling).drain s).frames.length

/-- The bytes of the chunks before the one with which a frame over the ceiling is declared. -/
def arrivedBefore (ceiling : Nat) (chunks : List (List UInt8)) : List UInt8 :=
  (layout ceiling).before [] chunks

section

variable (ceiling : Nat) (chunks : List (List UInt8))

/-- The frames of a decoder that is given the chunks, apart from where their bytes came from. -/
def received : List Frame := ((FrameDecoder.new ceiling).pushAll chunks).1.map Frame.apart

/-- Its fault. -/
def faultAfter : Option String := ((FrameDecoder.new ceiling).pushAll chunks).2.fault

theorem received_eq :
    received ceiling chunks =
      ((layout ceiling).drain (arrivedBefore ceiling chunks)).frames.map FrameDecoder.hand ++
        (((layout ceiling).drain chunks.flatten).fault.map (FrameDecoder.report ceiling)).toList ∧
    faultAfter ceiling chunks =
      ((layout ceiling).drain chunks.flatten).fault.map (FrameDecoder.faultOf ceiling) := by
  have hmore : (layout ceiling).cut [] = .more := rfl
  have hdrain : (layout ceiling).drain [] = ⟨[], [], none⟩ := Framing.drain_more hmore
  obtain ⟨hframes, hfault⟩ := @FrameDecoder.pushAll_eq _ _ ceiling rfl
    (FrameDecoder.holding_new ceiling) chunks
  obtain ⟨hframes', hfault'⟩ := Framing.feed_eq FrameDecoder.hand (FrameDecoder.report ceiling) []
    (by rw [hdrain]) chunks
  rw [hdrain, List.map_nil, List.nil_append, List.nil_append] at hframes'
  rw [hdrain, List.nil_append] at hfault'
  rw [received, faultAfter, hframes, hfault, hframes', hfault']
  exact ⟨rfl, rfl⟩

end

theorem arrivedBefore_of_fault {ceiling : Nat} {chunks : List (List UInt8)}
    (h : ((layout ceiling).drain chunks.flatten).fault = none) :
    arrivedBefore ceiling chunks = chunks.flatten :=
  Framing.before_eq [] chunks h

/-- **What is received does not depend on the chunks, and is what was said**: exactly where the
chunk with which a frame over the ceiling is declared brings no other frame whole, and no id and no
detail starts with a byte order mark. -/
theorem received_iff (ceiling : Nat) :
    (∀ chunks₁ chunks₂ : List (List UInt8), chunks₁.flatten = chunks₂.flatten →
      (received ceiling chunks₁ = received ceiling chunks₂ ∧
          faultAfter ceiling chunks₁ = faultAfter ceiling chunks₂ ↔
        wholeFrames ceiling (arrivedBefore ceiling chunks₁) =
          wholeFrames ceiling (arrivedBefore ceiling chunks₂))) ∧
    (∀ chunks : List (List UInt8),
      (received ceiling chunks =
          ((layout ceiling).drain chunks.flatten).frames.map FrameDecoder.hand ++
            (((layout ceiling).drain chunks.flatten).fault.map
              (FrameDecoder.report ceiling)).toList ↔
        wholeFrames ceiling (arrivedBefore ceiling chunks) = wholeFrames ceiling chunks.flatten)) ∧
    (∀ (frames : List ServerFrame) (written chunks : List (List UInt8)), (∀ f ∈ frames, Said f) →
      frames.mapM ServerFrame.write = .ok written → chunks.flatten = written.flatten →
      (received ceiling chunks = frames.map said ∧ faultAfter ceiling chunks = none ↔
        ∀ f ∈ frames, f.payload.length ≤ ceiling ∧ Markless f)) := by
  have hstart : ∀ chunks : List (List UInt8),
      ((layout ceiling).drain (arrivedBefore ceiling chunks)).frames <+:
        ((layout ceiling).drain chunks.flatten).frames := by
    intro chunks
    have := @Framing.before_frames _ _ _ (layout ceiling) [] chunks
    rw [List.nil_append] at this
    exact this
  refine ⟨?_, ?_, ?_⟩
  · intro chunks₁ chunks₂ hsame
    obtain ⟨hreceived₁, hfault₁⟩ := received_eq ceiling chunks₁
    obtain ⟨hreceived₂, hfault₂⟩ := received_eq ceiling chunks₂
    rw [hreceived₁, hfault₁, hreceived₂, hfault₂, hsame, wholeFrames, wholeFrames]
    refine ⟨fun ⟨h, _⟩ => ?_, fun h => ⟨?_, rfl⟩⟩
    · have := congrArg List.length (List.append_cancel_right h)
      rw [List.length_map, List.length_map] at this
      exact this
    · have hpre₁ := hstart chunks₁
      rw [hsame] at hpre₁
      rw [(List.prefix_of_prefix_length_le hpre₁ (hstart chunks₂) h.le).eq_of_length h]
  · intro chunks
    obtain ⟨hreceived, -⟩ := received_eq ceiling chunks
    rw [hreceived, wholeFrames, wholeFrames]
    refine ⟨fun h => ?_, fun h => ?_⟩
    · have := congrArg List.length (List.append_cancel_right h)
      rw [List.length_map, List.length_map] at this
      exact this
    · rw [(hstart chunks).eq_of_length h]
  · intro frames written chunks hsaid hwritten hsame
    obtain ⟨hreceived, hfault⟩ := received_eq ceiling chunks
    obtain ⟨hnone, hframes⟩ := @drain_written ceiling frames written hwritten
    rw [hreceived, hfault, Option.map_eq_none_iff, hsame]
    refine ⟨fun ⟨h, hno⟩ f hf => ?_, fun h => ?_⟩
    · rw [arrivedBefore_of_fault (by rw [hsame]; exact hno), hno, hsame, hframes hno, List.map_map,
        Option.map_none, Option.toList_none, List.append_nil] at h
      exact ⟨hnone.1 hno f hf, (hand_write (hsaid f hf)).1 (List.map_inj_left.1 h f hf)⟩
    · have hno := hnone.2 fun f hf => (h f hf).1
      refine ⟨?_, hno⟩
      rw [arrivedBefore_of_fault (by rw [hsame]; exact hno), hno, hsame, hframes hno, List.map_map,
        Option.map_none, Option.toList_none, List.append_nil]
      exact List.map_congr_left fun f hf => (hand_write (hsaid f hf)).2 (h f hf).2

/-- A batch of one byte. -/
def oneByte : List UInt8 := [0x10, 0, 0, 0, 0, 0, 0, 1, 7]

/-- The start of a frame over every ceiling below `2 ^ 32 - 1`. -/
def tooLong : List UInt8 := [0x10, 0, 0, 0, 0xFF, 0xFF, 0xFF, 0xFF]

theorem drain_oneByte (s : List UInt8) : (layout 16777216).drain (oneByte ++ s) =
    ⟨(0x10, [7]) :: ((layout 16777216).drain s).frames, ((layout 16777216).drain s).rest,
      ((layout 16777216).drain s).fault⟩ := by
  have hwrite : frame 0x10 [7] = .ok oneByte := rfl
  have hcut : (layout 16777216).cut (oneByte ++ s) = .frame (0x10, [7]) s :=
    @cutFrame_write 16777216 _ _ _ hwrite (by decide) s
  exact Framing.drain_frame hcut

theorem drain_tooLong : (layout 16777216).drain tooLong = ⟨[], tooLong, some 4294967295⟩ := by
  have hcut : (layout 16777216).cut tooLong = .refused 4294967295 := rfl
  exact Framing.drain_refused hcut

/-- A batch and a frame over the ceiling, in two chunks and in one: the one chunk loses the batch. -/
theorem received_iff_tooLong : ∃ chunks₁ chunks₂ : List (List UInt8),
    chunks₁.flatten = chunks₂.flatten ∧
    (received 16777216 chunks₁).head? = some (.batch [7] true) ∧
    ∃ fault, received 16777216 chunks₂ = [.terminal .decodeFailed fault] := by
  have hboth : (layout 16777216).drain (oneByte ++ tooLong) =
      ⟨[(0x10, [7])], tooLong, some 4294967295⟩ := by
    rw [drain_oneByte, drain_tooLong]
  have hnil : (layout 16777216).drain [] = ⟨[], [], none⟩ :=
    Framing.drain_more (show (layout 16777216).cut [] = .more from rfl)
  have hone : (layout 16777216).drain oneByte = ⟨[(0x10, [7])], [], none⟩ := by
    rw [← List.append_nil oneByte, drain_oneByte, hnil]
  have harrived₁ : arrivedBefore 16777216 [oneByte, tooLong] = oneByte := by
    rw [arrivedBefore, Framing.before, List.nil_append, hone, if_neg (by simp), Framing.before,
      hboth, if_pos (by simp)]
  have harrived₂ : arrivedBefore 16777216 [oneByte ++ tooLong] = [] := by
    rw [arrivedBefore, Framing.before, List.nil_append, hboth, if_pos (by simp)]
  refine ⟨[oneByte, tooLong], [oneByte ++ tooLong], rfl, ?_, ?_⟩
  · rw [(received_eq _ _).1, harrived₁, hone]
    rfl
  · rw [(received_eq _ _).1, harrived₂, hnil, List.flatten_singleton, hboth]
    exact ⟨_, rfl⟩

/-- One batch in two chunks. -/
theorem received_iff_oneByte :
    received 16777216 [oneByte.take 3, oneByte.drop 3] = received 16777216 [oneByte] ∧
    faultAfter 16777216 [oneByte.take 3, oneByte.drop 3] = none := by
  have hsaid : ∀ f ∈ [ServerFrame.batch [7]], Said f := by simp [Said]
  have hok : ∀ f ∈ [ServerFrame.batch [7]], f.payload.length ≤ 16777216 ∧ Markless f := by
    simp [ServerFrame.payload, Markless]
  obtain ⟨hcut, hnone⟩ := ((received_iff 16777216).2.2 [.batch [7]] [oneByte]
    [oneByte.take 3, oneByte.drop 3] hsaid rfl rfl).2 hok
  obtain ⟨hwhole, -⟩ :=
    ((received_iff 16777216).2.2 [.batch [7]] [oneByte] [oneByte] hsaid rfl rfl).2 hok
  exact ⟨hcut.trans hwhole.symm, hnone⟩

end SpatialIde.Shell.Streaming
