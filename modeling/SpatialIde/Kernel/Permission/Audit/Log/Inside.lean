import SpatialIde.Kernel.Permission.Audit.Log

/-! # Where the audit log may not be

The path of the log is compared with the destination by their texts, and never resolved.  So what
counts is the components that the text of the path starts with, up to the first that is `.`, `..` or
empty.
-/

namespace SpatialIde.Kernel.Permission.Audit.Log

open Lib

/-! ### The statement -/

/-- A component that is no `.`, no `..` and not empty. -/
structure IsName (c : OsPath) : Prop where
  nonempty : c ≠ []
  notCur : c ≠ [0x2E]
  notParent : c ≠ [0x2E, 0x2E]
  noSlash : SLASH ∉ c

/-- The absolute path of a list of names. -/
def pathOf (names : List OsPath) : OsPath :=
  if names = [] then [SLASH] else names.flatMap (SLASH :: ·)

/-- One component, behind what is resolved. -/
def enter (names : List OsPath) (c : OsPath) : List OsPath :=
  if c = [] ∨ c = [0x2E] then names
  else if c = [0x2E, 0x2E] then names.dropLast
  else names ++ [c]

/-- The names of an absolute path, without `.` and repeated separators and with `..` resolved. -/
def resolvedNames (p : OsPath) : List OsPath := ((p.drop 1).splitOn SLASH).foldl enter []

/-- The text of a name that is Unicode and without a backslash. -/
def plainText (c : OsPath) : Option (List Char) :=
  match Text.fromUtf8 c with
  | some s => if '\\' ∈ s.toList then none else some s.toList
  | none => none

/-- The texts of the names up to the first that is not plain. -/
def plainTexts : List OsPath → List (List Char)
  | [] => []
  | c :: cs =>
    match plainText c with
    | some t => t :: plainTexts cs
    | none => []

/-- A piece of the text of a path that is a name. -/
def isNameText (t : List Char) : Bool := t ≠ [] && t ≠ ['.'] && t ≠ ['.', '.']

/-- The names that the text of a path starts with. -/
def leading (p : OsPath) : List (List Char) := (((shown p).drop 1).splitOn '/').takeWhile isNameText

def Refuses (result : Disk × Except AuditError OsPath) : Prop :=
  ∃ log destination, result.2 = .error (.logInsideDestination log destination)

example : leading (Text.bytes "/data/./bundle/log") = ["data".toList] := by decide +kernel

example : resolvedNames (Text.bytes "/data/x/../bundle//log") =
    [Text.bytes "data", Text.bytes "bundle", Text.bytes "log"] := by decide +kernel

/-! ### Plain names -/

/-- The bytes of a text. -/
def encode (t : List Char) : OsPath := t.flatMap String.utf8EncodeChar

theorem bytes_ofList (t : List Char) : Text.bytes (String.ofList t) = encode t := by
  rw [Text.bytes_eq, String.toList_ofList, encode]

theorem plainText_eq_some {c : OsPath} {t : List Char} :
    plainText c = some t ↔ c = encode t ∧ '\\' ∉ t := by
  rw [plainText]
  constructor
  · intro h
    split at h
    · next s hs =>
      split at h
      · cases h
      · next hplain =>
        cases h
        have hbytes := Text.bytes_of_fromUtf8 hs
        rw [← String.ofList_toList (s := s), bytes_ofList] at hbytes
        exact ⟨hbytes.symm, hplain⟩
    · cases h
  · rintro ⟨rfl, hplain⟩
    rw [← bytes_ofList, Text.fromUtf8_bytes]
    dsimp only
    rw [String.toList_ofList, if_neg hplain]

/-- Plain names lead a list where their texts lead its texts. -/
theorem prefix_plainTexts {texts : List (List Char)} (h : ∀ t ∈ texts, '\\' ∉ t)
    (names : List OsPath) : texts.map encode <+: names ↔ texts <+: plainTexts names := by
  induction names generalizing texts with
  | nil => rw [plainTexts, List.prefix_nil, List.prefix_nil, List.map_eq_nil_iff]
  | cons c cs ih =>
    cases texts with
    | nil => exact iff_of_true List.nil_prefix List.nil_prefix
    | cons t texts =>
      obtain ⟨ht, htexts⟩ := List.forall_mem_cons.1 h
      rw [plainTexts, List.map_cons, List.cons_prefix_cons, ih htexts]
      cases hc : plainText c with
      | none =>
        rw [List.prefix_nil]
        refine iff_of_false (fun hboth => ?_) (List.cons_ne_nil t texts)
        rw [plainText_eq_some.2 ⟨hboth.1.symm, ht⟩] at hc
        cases hc
      | some u =>
        rw [List.cons_prefix_cons]
        refine and_congr_left fun _ => ⟨fun heq => ?_, fun heq => ?_⟩
        · rw [plainText_eq_some.2 ⟨heq.symm, ht⟩] at hc
          exact Option.some.inj hc
        · rw [heq]
          exact (plainText_eq_some.1 hc).1.symm

theorem mem_plainTexts {names : List OsPath} {t : List Char} (h : t ∈ plainTexts names) :
    encode t ∈ names ∧ '\\' ∉ t := by
  induction names with
  | nil => cases h
  | cons c cs ih =>
    rw [plainTexts] at h
    split at h
    · next u hu =>
      obtain ⟨rfl, hplain⟩ := plainText_eq_some.1 hu
      rcases List.mem_cons.1 h with rfl | h
      · exact ⟨List.mem_cons_self, hplain⟩
      · exact ⟨List.mem_cons_of_mem _ (ih h).1, (ih h).2⟩
    · cases h

/-! ### Text and bytes -/

theorem slash_mem_encode {t : List Char} : SLASH ∈ encode t ↔ '/' ∈ t := by
  rw [encode, List.mem_flatMap]
  constructor
  · rintro ⟨c, hc, hmem⟩
    have hvalue := Text.toNat_of_mem_encode hmem (by decide)
    rwa [show c = '/' from Char.ext (UInt32.toNat_inj.1 hvalue)] at hc
  · intro h
    exact ⟨'/', h, by decide⟩

theorem splitOn_encode (t : List Char) :
    (encode t).splitOn SLASH = (t.splitOn '/').map encode := by
  induction t using lines_induction '/' with
  | nil => rfl
  | torn t _ ht =>
    rw [List.splitOn_eq_singleton ht, List.splitOn_eq_singleton (fun h => ht (slash_mem_encode.1 h))]
    rfl
  | line l t hl ih =>
    have hencode : encode (l ++ '/' :: t) = encode l ++ SLASH :: encode t := by
      rw [encode, List.flatMap_append, List.flatMap_cons]
      rfl
    rw [hencode, splitOn_piece (fun h => hl (slash_mem_encode.1 h)), splitOn_piece hl, ih]
    rfl

/-- The text of an absolute path starts with a slash. -/
theorem shown_absolute (rest : OsPath) : shown (SLASH :: rest) = '/' :: shown rest := rfl

theorem backslash_notMem_shown (p : OsPath) : '\\' ∉ shown p := by
  intro h
  obtain ⟨c, -, hc⟩ := List.mem_map.1 h
  split at hc
  · exact absurd hc (by decide)
  · next hne => exact hne hc

theorem shown_encode {t : List Char} (h : '\\' ∉ t) : shown (encode t) = t := by
  rw [shown, ← bytes_ofList, Text.run_bytes, String.toList_ofList]
  refine (List.map_congr_left fun c hc => ?_).trans (List.map_id t)
  have hne : c ≠ '\\' := fun heq => h (heq ▸ hc)
  exact if_neg hne

/-! ### The comparison -/

/-- The text of a name that is plain. -/
structure Plain (t : List Char) : Prop where
  name : isNameText t = true
  noSlash : '/' ∉ t
  noBackslash : '\\' ∉ t

theorem isNameText_eq_true {t : List Char} :
    isNameText t = true ↔ t ≠ [] ∧ t ≠ ['.'] ∧ t ≠ ['.', '.'] := by
  rw [isNameText, Bool.and_eq_true, Bool.and_eq_true, decide_eq_true_eq, decide_eq_true_eq,
    decide_eq_true_eq, and_assoc]

/-- Trimming changes nothing where a text that ends with no slash is sought. -/
theorem trimmed_iff {s r : List Char} (hr : r.getLast? ≠ some '/') :
    (Text.trimEndOf (· == '/') s = r ∨ r ++ ['/'] <+: Text.trimEndOf (· == '/') s) ↔
      s = r ∨ r ++ ['/'] <+: s := by
  obtain ⟨tail, hs, htail, hlast⟩ := Text.trimEndOf_spec (· == '/') s
  generalize Text.trimEndOf (· == '/') s = u at hs hlast
  subst hs
  constructor
  · rintro (rfl | hpre)
    · cases tail with
      | nil => exact .inl (List.append_nil u)
      | cons c tail =>
        rw [beq_iff_eq.1 (htail c List.mem_cons_self)]
        exact .inr ⟨tail, by rw [List.append_assoc, List.singleton_append]⟩
    · exact .inr (hpre.trans (List.prefix_append u tail))
  · -- What is behind the trimmed text are slashes, with which the other text does not end.
    have hends : ∀ w, u ++ tail = r ++ w → ∃ v, u = r ++ v ∧ w = v ++ tail := by
      intro w hw
      rcases List.append_eq_append_iff.1 hw with ⟨v, hv, htl⟩ | ⟨v, hv, hwv⟩
      · rcases List.eq_nil_or_concat v with rfl | ⟨v, c, rfl⟩
        · exact ⟨[], by rw [hv, List.append_nil, List.append_nil], by rw [htl]; rfl⟩
        · refine absurd ?_ hr
          have hc := beq_iff_eq.1 (htail c (by rw [htl]; simp))
          rw [hv, List.concat_eq_append, ← List.append_assoc, List.getLast?_concat, hc]
      · exact ⟨v, hv, hwv⟩
    rintro (hs | ⟨w, hw⟩)
    · obtain ⟨v, hv, hnil⟩ := hends [] (hs.trans (List.append_nil r).symm)
      rw [(List.append_eq_nil_iff.1 hnil.symm).1, List.append_nil] at hv
      exact .inl hv
    · rw [List.append_assoc, List.singleton_append] at hw
      obtain ⟨v, hv, htl⟩ := hends _ hw.symm
      cases v with
      | nil =>
        rw [List.append_nil] at hv
        exact .inl hv
      | cons c v =>
        rw [List.cons_append, List.cons.injEq] at htl
        rw [hv, ← htl.1]
        exact .inr ⟨v, by rw [List.append_assoc, List.singleton_append]⟩

theorem encode_flatMap (texts : List (List Char)) :
    (texts.map encode).flatMap (SLASH :: ·) = encode (texts.flatMap ('/' :: ·)) := by
  induction texts with
  | nil => rfl
  | cons t texts ih =>
    rw [List.map_cons, List.flatMap_cons, List.flatMap_cons, ih]
    change SLASH :: encode t ++ encode _ = encode ('/' :: t ++ _)
    rw [encode, encode, encode, List.flatMap_append, List.flatMap_cons]
    rfl

/-- The text of plain names ends with none of the slashes. -/
theorem getLast?_names {texts : List (List Char)} (h : ∀ t ∈ texts, Plain t) :
    (texts.flatMap ('/' :: ·)).getLast? ≠ some '/' := by
  rcases List.eq_nil_or_concat texts with rfl | ⟨texts, t, rfl⟩
  · nofun
  · have ht : Plain t := h t (by simp)
    have hne := (isNameText_eq_true.1 ht.name).1
    rw [List.concat_eq_append, List.flatMap_append, List.flatMap_singleton,
      List.getLast?_append_of_ne_nil _ (List.cons_ne_nil '/' t), List.getLast?_cons_of_ne_nil hne]
    exact fun hlast => ht.noSlash (List.mem_of_getLast? hlast)

theorem norm_pathOf {texts : List (List Char)} (h : ∀ t ∈ texts, Plain t) :
    Text.trimEndOf (· == '/') (shown (pathOf (texts.map encode))) = texts.flatMap ('/' :: ·) := by
  have hback : '\\' ∉ texts.flatMap ('/' :: ·) := by
    intro hmem
    obtain ⟨t, ht, hmem⟩ := List.mem_flatMap.1 hmem
    rcases List.mem_cons.1 hmem with hc | hmem
    · exact absurd hc (by decide)
    · exact (h t ht).noBackslash hmem
  have hends := (trimmed_iff (s := shown (pathOf (texts.map encode))) (getLast?_names h)).2
  cases texts with
  | nil => rfl
  | cons t texts =>
    have hshown : shown (pathOf ((t :: texts).map encode)) = (t :: texts).flatMap ('/' :: ·) := by
      rw [pathOf, if_neg (by simp), encode_flatMap, shown_encode hback]
    rcases hends (.inl hshown) with heq | hpre
    · exact heq
    · -- It would be longer than what it was trimmed from.
      obtain ⟨tail, hs, -⟩ := Text.trimEndOf_spec (· == '/') (shown (pathOf ((t :: texts).map encode)))
      have hlength := hpre.length_le
      have htotal := congrArg List.length (hs.symm.trans hshown)
      rw [List.length_append] at hlength htotal
      rw [List.length_singleton] at hlength
      omega

theorem prefix_takeWhile {α : Type} {p : α → Bool} {l s : List α} (h : ∀ a ∈ l, p a = true) :
    l <+: s ↔ l <+: s.takeWhile p := by
  refine ⟨fun ⟨tail, hs⟩ => ?_, fun hpre => hpre.trans (List.takeWhile_prefix p)⟩
  rw [← hs, List.takeWhile_append_of_pos h]
  exact List.prefix_append _ _

/-- **What the comparison finds**, for a destination of plain names. -/
theorem isInside_iff {texts : List (List Char)} (h : ∀ t ∈ texts, Plain t) (rest : OsPath) :
    isInside (SLASH :: rest) (pathOf (texts.map encode)) = true ↔
      texts <+: leading (SLASH :: rest) := by
  rw [isInside]
  dsimp only
  rw [norm_pathOf h, Bool.or_eq_true, beq_iff_eq, List.isPrefixOf_iff_prefix,
    trimmed_iff (getLast?_names h), shown_absolute, prefix_splitOn fun t ht => (h t ht).noSlash,
    prefix_takeWhile fun t ht => (h t ht).name]
  rfl

/-! ### Refusals -/

section

variable {display : Nat → String} {normalize : OsPath → String} {env : Environment}
  {path destination : OsPath} {a : Answers} {d : Disk}

theorem rotationFailed_of_shift {n : Nat} {e : AuditError}
    (h : (shift display a d n).2 = .error e) : ∃ p detail, e = .rotationFailed p detail := by
  induction n generalizing d with
  | zero => cases h
  | succ n ih =>
    rw [shift] at h
    split at h
    · split at h
      · cases h
        exact ⟨_, _, rfl⟩
      · exact ih h
    · exact ih h

theorem rotationFailed_of_rotateIfNeeded {e : AuditError}
    (h : (rotateIfNeeded display a d).2 = .error e) : ∃ p detail, e = .rotationFailed p detail := by
  rw [rotateIfNeeded] at h
  split at h
  · rw [rotate] at h
    split at h
    · cases h
      exact ⟨_, _, rfl⟩
    · dsimp only at h
      split at h
      · next hstop =>
        cases h
        exact rotationFailed_of_shift (congrArg Prod.snd hstop)
      · split at h
        · cases h
          exact ⟨_, _, rfl⟩
        · cases h
  · cases h

theorem refuses_iff (hpath : resolveLogPath env = .ok path) :
    Refuses (openFor display normalize env destination a d) ↔ isInside path destination = true := by
  rw [openFor, hpath]
  dsimp only
  split
  · next hinside => exact iff_of_true ⟨_, _, rfl⟩ hinside
  · next hinside =>
    refine iff_of_false ?_ hinside
    rintro ⟨log, destination, hrefused⟩
    split at hrefused
    · cases hrefused
    · split at hrefused
      · next hstop =>
        cases hrefused
        obtain ⟨p, detail, he⟩ := rotationFailed_of_rotateIfNeeded (congrArg Prod.snd hstop)
        cases he
      · split at hrefused
        · cases hrefused
        · cases hrefused

end

/-! ### Resolved names -/

theorem mem_enter {names : List OsPath} {c x : OsPath} (h : x ∈ enter names c) :
    x ∈ names ∨ x = c ∧ c ≠ [] ∧ c ≠ [0x2E] ∧ c ≠ [0x2E, 0x2E] := by
  rw [enter] at h
  split at h
  · exact .inl h
  · next hempty =>
    split at h
    · exact .inl (List.mem_of_mem_dropLast h)
    · next hparent =>
      rcases List.mem_append.1 h with h | h
      · exact .inl h
      · exact .inr ⟨List.mem_singleton.1 h, not_or.1 hempty |>.1, not_or.1 hempty |>.2, hparent⟩

theorem mem_foldl_enter {cs names : List OsPath} {x : OsPath} (h : x ∈ cs.foldl enter names) :
    x ∈ names ∨ x ∈ cs ∧ x ≠ [] ∧ x ≠ [0x2E] ∧ x ≠ [0x2E, 0x2E] := by
  induction cs generalizing names with
  | nil => exact .inl h
  | cons c cs ih =>
    rcases ih h with h | ⟨h, hname⟩
    · rcases mem_enter h with h | ⟨rfl, hname⟩
      · exact .inl h
      · exact .inr ⟨List.mem_cons_self, hname⟩
    · exact .inr ⟨List.mem_cons_of_mem _ h, hname⟩

theorem mem_resolvedNames {p x : OsPath} (h : x ∈ resolvedNames p) :
    x ∈ (p.drop 1).splitOn SLASH ∧ IsName x := by
  rcases mem_foldl_enter h with h | ⟨h, hne, hcur, hparent⟩
  · cases h
  · exact ⟨h, hne, hcur, hparent, not_mem_of_mem_splitOn h⟩

theorem plain_of_encode {t : List Char} (h : IsName (encode t)) (hback : '\\' ∉ t) : Plain t where
  name := by
    rw [isNameText_eq_true]
    refine ⟨?_, ?_, ?_⟩
    · rintro rfl
      exact h.nonempty rfl
    · rintro rfl
      exact h.notCur rfl
    · rintro rfl
      exact h.notParent rfl
  noSlash hmem := h.noSlash (slash_mem_encode.2 hmem)
  noBackslash := hback

theorem encode_injective {t u : List Char} (h : encode t = encode u) : t = u := by
  rw [← bytes_ofList, ← bytes_ofList, Text.bytes_inj] at h
  exact String.ofList_injective h

theorem Plain.isName {t : List Char} (h : Plain t) : IsName (encode t) := by
  obtain ⟨hne, hcur, hparent⟩ := isNameText_eq_true.1 h.name
  refine ⟨fun heq => hne ?_, fun heq => hcur ?_, fun heq => hparent ?_, fun hmem => ?_⟩
  · exact encode_injective (heq.trans (show ([] : OsPath) = encode [] from rfl))
  · exact encode_injective (heq.trans (show ([0x2E] : OsPath) = encode ['.'] by decide))
  · exact encode_injective
      (heq.trans (show ([0x2E, 0x2E] : OsPath) = encode ['.', '.'] by decide))
  · exact h.noSlash (slash_mem_encode.1 hmem)

/-- What the text of a path starts with, and the plain texts of its resolution, are plain names. -/
theorem plain_leading {p : OsPath} {t : List Char} (h : t ∈ leading p) : Plain t where
  name := List.mem_takeWhile_imp h
  noSlash := not_mem_of_mem_splitOn ((List.takeWhile_prefix _).subset h)
  noBackslash hmem := by
    have hshown := mem_of_mem_splitOn ((List.takeWhile_prefix _).subset h) _ hmem
    exact backslash_notMem_shown p (List.mem_of_mem_drop hshown)

theorem plain_plainTexts {p : OsPath} {t : List Char} (h : t ∈ plainTexts (resolvedNames p)) :
    Plain t := by
  obtain ⟨hmem, hback⟩ := mem_plainTexts h
  exact plain_of_encode (mem_resolvedNames hmem).2 hback

/-- Names that are plain, by their texts. -/
theorem exists_texts {names : List OsPath} (h : ∀ c ∈ names, IsName c ∧ (plainText c).isSome) :
    ∃ texts : List (List Char), names = texts.map encode ∧ ∀ t ∈ texts, Plain t := by
  induction names with
  | nil => exact ⟨[], rfl, nofun⟩
  | cons c cs ih =>
    obtain ⟨⟨hname, hsome⟩, hcs⟩ := List.forall_mem_cons.1 h
    obtain ⟨t, ht⟩ := Option.isSome_iff_exists.1 hsome
    obtain ⟨rfl, hback⟩ := plainText_eq_some.1 ht
    obtain ⟨texts, rfl, htexts⟩ := ih hcs
    refine ⟨t :: texts, rfl, fun u hu => ?_⟩
    rcases List.mem_cons.1 hu with rfl | hu
    · exact plain_of_encode hname hback
    · exact htexts u hu

theorem eq_cons_of_isAbsolute {p : OsPath} (h : isAbsolute p = true) : ∃ rest, p = SLASH :: rest := by
  cases p with
  | nil => cases h
  | cons b rest =>
    rw [isAbsolute, List.head?_cons, beq_iff_eq] at h
    exact ⟨rest, congrArg (· :: rest) (Option.some.inj h)⟩

/-- An override that is a text. -/
theorem resolveLogPath_encode (t : List Char) :
    resolveLogPath ⟨some (encode ('/' :: t)), none, none⟩ = .ok (encode ('/' :: t)) := by
  rw [resolveLogPath]
  dsimp only [Option.bind]
  rw [← bytes_ofList, Text.fromUtf8_bytes]
  dsimp only
  rw [bytes_ofList]
  exact if_pos rfl

/-- **The log and the destination.**  The log is refused exactly where it resolves inside a
destination of plain names, whichever that is, if and only if the path's text starts with the names
that the path resolves to.  Every other destination refuses a log that is not inside. -/
theorem openFor_inside {display : Nat → String} {normalize : OsPath → String} {env : Environment}
    {path : OsPath} {a : Answers} {d : Disk} (hpath : resolveLogPath env = .ok path)
    (habsolute : isAbsolute path = true) :
    ((∀ names, (∀ c ∈ names, IsName c ∧ (plainText c).isSome) →
        (Refuses (openFor display normalize env (pathOf names) a d) ↔
          names <+: resolvedNames path)) ↔
      leading path = plainTexts (resolvedNames path)) ∧
    ∀ names, (∀ c ∈ names, IsName c) → (∃ c ∈ names, plainText c = none) →
      ∃ env path, resolveLogPath env = .ok path ∧ isAbsolute path = true ∧
        Refuses (openFor display normalize env (pathOf names) a d) ∧
        ¬names <+: resolvedNames path := by
  refine ⟨?_, fun names _ hnone => ?_⟩
  · obtain ⟨rest, rfl⟩ := eq_cons_of_isAbsolute habsolute
    -- Both sides of a pair, by the texts of the destination.
    have hpair : ∀ texts : List (List Char), (∀ t ∈ texts, Plain t) →
        ((Refuses (openFor display normalize env (pathOf (texts.map encode)) a d) ↔
            texts.map encode <+: resolvedNames (SLASH :: rest)) ↔
          (texts <+: leading (SLASH :: rest) ↔
            texts <+: plainTexts (resolvedNames (SLASH :: rest)))) := by
      intro texts htexts
      rw [refuses_iff hpath, isInside_iff htexts,
        prefix_plainTexts fun t ht => (htexts t ht).noBackslash]
    have hnames : ∀ texts : List (List Char), (∀ t ∈ texts, Plain t) →
        ∀ c ∈ texts.map encode, IsName c ∧ (plainText c).isSome := by
      intro texts htexts c hc
      obtain ⟨t, ht, rfl⟩ := List.mem_map.1 hc
      refine ⟨(htexts t ht).isName, ?_⟩
      rw [plainText_eq_some.2 ⟨rfl, (htexts t ht).noBackslash⟩]
      rfl
    constructor
    · intro hall
      have hiff : ∀ texts : List (List Char), (∀ t ∈ texts, Plain t) →
          (texts <+: leading (SLASH :: rest) ↔
            texts <+: plainTexts (resolvedNames (SLASH :: rest))) :=
        fun texts htexts => (hpair texts htexts).1 (hall _ (hnames texts htexts))
      have hle := (hiff _ fun t ht => plain_leading ht).1 List.prefix_rfl
      have hge := (hiff _ fun t ht => plain_plainTexts ht).2 List.prefix_rfl
      exact hle.eq_of_length_le hge.length_le
    · intro heq names hnames'
      obtain ⟨texts, rfl, htexts⟩ := exists_texts hnames'
      refine (hpair texts htexts).2 ?_
      rw [heq]
  · -- The destination as its own text is shown.
    have hslash : ∃ rest, pathOf names = SLASH :: rest := by
      cases names with
      | nil => exact ⟨[], rfl⟩
      | cons c cs => exact ⟨_, if_neg (List.cons_ne_nil c cs)⟩
    obtain ⟨rest, hrest⟩ := hslash
    have hshown : shown (pathOf names) = '/' :: shown rest := by rw [hrest, shown_absolute]
    have hplain := backslash_notMem_shown (pathOf names)
    have hresolve : resolveLogPath ⟨some (encode (shown (pathOf names))), none, none⟩ =
        .ok (encode (shown (pathOf names))) := by
      rw [hshown]
      exact resolveLogPath_encode _
    refine ⟨_, _, hresolve, ?_, ?_, fun hpre => ?_⟩
    · rw [hshown]
      rfl
    · rw [refuses_iff hresolve, isInside]
      dsimp only
      rw [shown_encode hplain, beq_self_eq_true, Bool.true_or]
    · obtain ⟨c, hc, hnone⟩ := hnone
      have hmem := (mem_resolvedNames (hpre.subset hc)).1
      rw [hshown, show (encode ('/' :: shown rest)).drop 1 = encode (shown rest) from rfl,
        splitOn_encode, List.mem_map] at hmem
      obtain ⟨t, ht, rfl⟩ := hmem
      have hback : '\\' ∉ t := fun h => backslash_notMem_shown rest (mem_of_mem_splitOn ht _ h)
      rw [plainText_eq_some.2 ⟨rfl, hback⟩] at hnone
      cases hnone

theorem openFor_inside_publish :
    ((∀ names, (∀ c ∈ names, IsName c ∧ (plainText c).isSome) →
        (Refuses (openFor (fun _ => "log") (fun _ => "log")
            ⟨some (encode "/srv/audit/../log".toList), none, none⟩ (pathOf names) .fine .empty) ↔
          names <+: resolvedNames (encode "/srv/audit/../log".toList))) ↔
      leading (encode "/srv/audit/../log".toList) =
        plainTexts (resolvedNames (encode "/srv/audit/../log".toList))) ∧
    ∀ names, (∀ c ∈ names, IsName c) → (∃ c ∈ names, plainText c = none) →
      ∃ env path, resolveLogPath env = .ok path ∧ isAbsolute path = true ∧
        Refuses (openFor (fun _ => "log") (fun _ => "log") env (pathOf names) .fine .empty) ∧
        ¬names <+: resolvedNames path :=
  openFor_inside (resolveLogPath_encode "srv/audit/../log".toList) (by decide +kernel)

/-- A log inside the destination, behind a `.`, is taken; and one beside the destination, behind a
`..`, is refused. -/
theorem openFor_unresolved :
    (¬Refuses (openFor (fun _ => "log") (fun _ => "log")
        ⟨some (encode "/data/./bundle/log".toList), none, none⟩
        (pathOf [encode "data".toList, encode "bundle".toList]) .fine .empty) ∧
      [encode "data".toList, encode "bundle".toList] <+:
        resolvedNames (encode "/data/./bundle/log".toList)) ∧
    Refuses (openFor (fun _ => "log") (fun _ => "log")
        ⟨some (encode "/data/bundle/../log".toList), none, none⟩
        (pathOf [encode "data".toList, encode "bundle".toList]) .fine .empty) ∧
      ¬[encode "data".toList, encode "bundle".toList] <+:
        resolvedNames (encode "/data/bundle/../log".toList) := by
  refine ⟨⟨?_, by decide +kernel⟩, ?_, by decide +kernel⟩
  · have hresolve : resolveLogPath ⟨some (encode "/data/./bundle/log".toList), none, none⟩ =
        .ok (encode "/data/./bundle/log".toList) := resolveLogPath_encode "data/./bundle/log".toList
    rw [refuses_iff hresolve]
    decide +kernel
  · have hresolve : resolveLogPath ⟨some (encode "/data/bundle/../log".toList), none, none⟩ =
        .ok (encode "/data/bundle/../log".toList) :=
      resolveLogPath_encode "data/bundle/../log".toList
    rw [refuses_iff hresolve]
    decide +kernel

end SpatialIde.Kernel.Permission.Audit.Log
