import SpatialIde.Lib.SqlTokens

/-! # SQL expressions

The expressions that tokens spell: `OR` binds weaker than `AND`, then `NOT`, `IS`, the
comparisons, `BETWEEN`, `IN` and `LIKE`, the sums, the products and the signs.  A parser goes
through the tokens with a stack of what is open (`Frame`); the `AND` of a `BETWEEN` is the one
behind its lower bound.

* `reduce_plain`: what does not end in a comparison of constants stays so in all that is open;
* `and_of_run`: where a comparison of constants behind `AND` is the last conjunct, the `AND` has
  closed all that is in front of it;
* `Joins`: what adds conjuncts there, as comparisons and alternatives in brackets do.
-/

namespace Lib.Sql

inductive Expr where
  | column (path : List (List Char))
  /-- A number, a string, or a word for a value. -/
  | constant (t : Token)
  | param
  | or (l r : Expr)
  | and (l r : Expr)
  | not (e : Expr)
  | isNull (negated : Bool) (e : Expr)
  | compare (op : List Char) (l r : Expr)
  | between (negated : Bool) (e lower upper : Expr)
  | oneOf (negated : Bool) (e : Expr) (items : List Expr)
  | like (op : List Char) (negated : Bool) (e pattern : Expr)
  | sum (op : List Char) (l r : Expr)
  | product (op : List Char) (l r : Expr)
  | sign (op : List Char) (e : Expr)
  deriving Repr

namespace Expr

/-- What `AND` joins, whatever brackets are around parts of it. -/
def conjuncts : Expr → List Expr
  | and l r => conjuncts l ++ conjuncts r
  | e => [e]

end Expr

/-! ### What a token is to the parser -/

inductive Symbol where
  | operand (e : Expr)
  | openBracket
  | closeBracket
  | comma
  | point
  | or
  | and
  | not
  | is
  | null
  | between
  | in
  | like (op : List Char)
  | compare (op : List Char)
  | plus (op : List Char)
  | times (op : List Char)
  | other

def COMPARISONS : List (List Char) :=
  [['='], ['=', '='], ['<', '>'], ['!', '='], ['<'], ['>'], ['<', '='], ['>', '=']]

/-- Words that begin or end a clause, and so are no names. -/
def RESERVED : List (List Char) :=
  ["SELECT", "FROM", "WHERE", "GROUP", "HAVING", "QUALIFY", "WINDOW", "ORDER", "LIMIT", "OFFSET",
    "UNION", "EXCEPT", "INTERSECT", "USING", "AS", "CASE", "WHEN", "THEN", "ELSE", "END", "CAST",
    "DISTINCT", "ASC", "DESC", "WITH", "ON"].map String.toList

def wordSymbol (cs : List Char) : Symbol :=
  let word := cs.map Char.toUpper
  if word = "OR".toList then .or
  else if word = "AND".toList then .and
  else if word = "NOT".toList then .not
  else if word = "IS".toList then .is
  else if word = "NULL".toList then .null
  else if word = "BETWEEN".toList then .between
  else if word = "IN".toList then .in
  else if word = "LIKE".toList ∨ word = "ILIKE".toList then .like word
  else if word = "TRUE".toList ∨ word = "FALSE".toList then .operand (.constant (.word word))
  else if word ∈ RESERVED then .other
  else .operand (.column [cs])

def operatorSymbol (cs : List Char) : Symbol :=
  if cs ∈ COMPARISONS then .compare cs
  else if cs = ['+'] ∨ cs = ['-'] then .plus cs
  else if cs = ['*'] ∨ cs = ['/'] ∨ cs = ['%'] then .times cs
  else .other

def punctSymbol (c : Char) : Symbol :=
  if c = '(' then .openBracket
  else if c = ')' then .closeBracket
  else if c = ',' then .comma
  else if c = '.' then .point
  else if c = '?' then .operand .param
  else .other

/-- A comment is nothing. -/
def Token.symbol : Token → Option Symbol
  | .word cs => some (wordSymbol cs)
  | .name cs => some (.operand (.column [cs]))
  | .string cs => some (.operand (.constant (.string cs)))
  | .number cs => some (.operand (.constant (.number cs)))
  | .param _ => some (.operand .param)
  | .operator cs => some (operatorSymbol cs)
  | .punct c => some (punctSymbol c)
  | .comment => none

/-! ### The stack -/

/-- What is open, with all that it has so far. -/
inductive Frame where
  | bracket
  /-- Behind the bracket of `IN`. -/
  | list (negated : Bool) (e : Expr) (items : List Expr)
  /-- Behind `IN`. -/
  | inOpen (negated : Bool) (e : Expr)
  /-- Behind `IS`. -/
  | isOpen (negated : Bool) (e : Expr)
  /-- Behind the point of a path. -/
  | field (path : List (List Char))
  /-- At the lower bound of `BETWEEN`. -/
  | lower (negated : Bool) (e : Expr)
  | or (l : Expr)
  | and (l : Expr)
  | not
  | compare (op : List Char) (l : Expr)
  /-- At the upper bound of `BETWEEN`. -/
  | upper (negated : Bool) (e lower : Expr)
  | like (op : List Char) (negated : Bool) (e : Expr)
  | sum (op : List Char) (l : Expr)
  | product (op : List Char) (l : Expr)
  | sign (op : List Char)

namespace Frame

/-- How strongly a frame binds what comes next; none does over a frame of level 0. -/
def level : Frame → Nat
  | bracket => 0
  | list _ _ _ => 0
  | inOpen _ _ => 0
  | isOpen _ _ => 0
  | field _ => 0
  | lower _ _ => 0
  | or _ => 1
  | and _ => 2
  | not => 3
  | compare _ _ => 5
  | upper _ _ _ => 6
  | like _ _ _ => 6
  | sum _ _ => 7
  | product _ _ => 8
  | sign _ => 9

/-- What the operand that completes a frame makes of it. -/
def close (e : Expr) : Frame → Expr
  | or l => .or l e
  | and l => .and l e
  | not => .not e
  | compare op l => .compare op l e
  | upper negated x lo => .between negated x lo e
  | like op negated x => .like op negated x e
  | sum op l => .sum op l e
  | product op l => .product op l e
  | sign op => .sign op e
  | _ => e

end Frame

/-- Close what binds at least as strongly as a level. -/
def reduce (p : Nat) : List Frame → Expr → List Frame × Expr
  | [], e => ([], e)
  | f :: fs, e => if p ≤ f.level ∧ 0 < f.level then reduce p fs (f.close e) else (f :: fs, e)

inductive Focus where
  | awaits
  | holds (e : Expr)
  /-- Behind an operand and `NOT`. -/
  | negates (e : Expr)

structure Parse where
  frames : List Frame
  focus : Focus

/-- In the lower bound of a `BETWEEN`, where only comparisons and what binds stronger may be. -/
def inLower (fs : List Frame) : Bool :=
  match fs.find? fun f => f.level = 0 with
  | some (.lower _ _) => true
  | _ => false

/-- Where a new operand may begin. -/
def begins : List Frame → Bool
  | .inOpen _ _ :: _ => false
  | .isOpen _ _ :: _ => false
  | .field _ :: _ => false
  | _ => true

/-- A binary operator that does not join with its like. -/
def push (p : Nat) (fs : List Frame) (e : Expr) (frame : Expr → Frame) : Option Parse :=
  let r := reduce (p + 1) fs e
  if r.1.head?.any fun f => f.level = p then none else some ⟨frame r.2 :: r.1, .awaits⟩

/-- A binary operator that joins from the left. -/
def pushLeft (p : Nat) (fs : List Frame) (e : Expr) (frame : Expr → Frame) : Option Parse :=
  let r := reduce p fs e
  some ⟨frame r.2 :: r.1, .awaits⟩

/-- One symbol where an operand is awaited. -/
def await (fs : List Frame) (s : Symbol) : Option Parse :=
  match s, fs with
  | .operand (.column [name]), .field path :: fs => some ⟨fs, .holds (.column (path ++ [name]))⟩
  | .null, .isOpen negated e :: fs => some ⟨fs, .holds (.isNull negated e)⟩
  | .not, .isOpen false e :: fs => some ⟨.isOpen true e :: fs, .awaits⟩
  | .openBracket, .inOpen negated e :: fs => some ⟨.list negated e [] :: fs, .awaits⟩
  | s, fs =>
    if !begins fs then none
    else
      match s with
      | .operand e => some ⟨fs, .holds e⟩
      | .null => some ⟨fs, .holds (.constant (.word "NULL".toList))⟩
      | .openBracket => some ⟨.bracket :: fs, .awaits⟩
      | .not => if inLower fs then none else some ⟨.not :: fs, .awaits⟩
      | .plus op => some ⟨.sign op :: fs, .awaits⟩
      | _ => none

/-- `BETWEEN`, `IN` or `LIKE` behind an operand. -/
def test (negated : Bool) (fs : List Frame) (e : Expr) (s : Symbol) : Option Parse :=
  if inLower fs then none
  else
    match s with
    | .between => push 6 fs e (.lower negated)
    | .in => push 6 fs e (.inOpen negated)
    | .like op => push 6 fs e (.like op negated)
    | _ => none

/-- One symbol behind an operand. -/
def proceed (fs : List Frame) (e : Expr) (s : Symbol) : Option Parse :=
  match s with
  | .closeBracket =>
    match reduce 1 fs e with
    | (.bracket :: fs, e) => some ⟨fs, .holds e⟩
    | (.list negated x items :: fs, e) => some ⟨fs, .holds (.oneOf negated x (items ++ [e]))⟩
    | _ => none
  | .comma =>
    match reduce 1 fs e with
    | (.list negated x items :: fs, e) => some ⟨.list negated x (items ++ [e]) :: fs, .awaits⟩
    | _ => none
  | .point =>
    match e with
    | .column path => some ⟨.field path :: fs, .awaits⟩
    | _ => none
  | .or => if inLower fs then none else pushLeft 1 fs e .or
  | .and =>
    match reduce 2 fs e with
    | (.lower negated x :: fs, e) => some ⟨.upper negated x e :: fs, .awaits⟩
    | (fs, e) => some ⟨.and e :: fs, .awaits⟩
  | .not => if inLower fs then none else some ⟨fs, .negates e⟩
  | .is => if inLower fs then none else push 4 fs e (.isOpen false)
  | .compare op => push 5 fs e (.compare op)
  | .plus op => pushLeft 7 fs e (.sum op)
  | .times op => pushLeft 8 fs e (.product op)
  | .between => test false fs e .between
  | .in => test false fs e .in
  | .like op => test false fs e (.like op)
  | _ => none

def Parse.step (p : Parse) (s : Symbol) : Option Parse :=
  match p.focus with
  | .awaits => await p.frames s
  | .holds e => proceed p.frames e s
  | .negates e => test true p.frames e s

/-- The expression, if the tokens end here. -/
def Parse.finish (p : Parse) : Option Expr :=
  match p.focus with
  | .holds e =>
    match reduce 1 p.frames e with
    | ([], e) => some e
    | _ => none
  | _ => none

def parseFrom (p : Parse) (symbols : List Symbol) : Option Parse := symbols.foldlM Parse.step p

/-- The expression that tokens spell. -/
def parseExpr (tokens : List Token) : Option Expr :=
  (parseFrom ⟨[], .awaits⟩ (tokens.filterMap Token.symbol)).bind Parse.finish

theorem parseFrom_nil (p : Parse) : parseFrom p [] = some p := rfl

theorem parseFrom_cons (p : Parse) (s : Symbol) (symbols : List Symbol) :
    parseFrom p (s :: symbols) = (p.step s).bind (parseFrom · symbols) := by
  rw [parseFrom, List.foldlM_cons]
  rfl

theorem parseFrom_append (p : Parse) (symbols more : List Symbol) :
    parseFrom p (symbols ++ more) = (parseFrom p symbols).bind (parseFrom · more) :=
  List.foldlM_append

/-! ### What is closed -/

theorem reduce_cons_of_le {p : Nat} {f : Frame} {fs : List Frame} {e : Expr}
    (h : p ≤ f.level ∧ 0 < f.level) : reduce p (f :: fs) e = reduce p fs (f.close e) := by
  rw [reduce, if_pos h]

theorem reduce_cons_of_lt {p : Nat} {f : Frame} {fs : List Frame} {e : Expr}
    (h : ¬(p ≤ f.level ∧ 0 < f.level)) : reduce p (f :: fs) e = (f :: fs, e) := by
  rw [reduce, if_neg h]

/-- What closes all that is open closes all of it for a weaker operator. -/
theorem reduce_eq_nil {p q : Nat} {fs : List Frame} {e x : Expr} (h : reduce p fs e = ([], x))
    (hq : q ≤ p) : reduce q fs e = ([], x) := by
  induction fs generalizing e with
  | nil => exact h
  | cons f fs ih =>
    by_cases hf : p ≤ f.level ∧ 0 < f.level
    · rw [reduce_cons_of_le hf] at h
      rw [reduce_cons_of_le ⟨Nat.le_trans hq hf.1, hf.2⟩]
      exact ih h
    · rw [reduce_cons_of_lt hf] at h
      cases h

/-- What stays open binds weaker, or does not bind. -/
theorem reduce_top {p : Nat} {fs rest : List Frame} {e x : Expr} {f : Frame}
    (h : reduce p fs e = (f :: rest, x)) : ¬(p ≤ f.level ∧ 0 < f.level) := by
  induction fs generalizing e with
  | nil => cases h
  | cons g fs ih =>
    by_cases hg : p ≤ g.level ∧ 0 < g.level
    · rw [reduce_cons_of_le hg] at h
      exact ih h
    · rw [reduce_cons_of_lt hg] at h
      cases h
      exact hg

/-- A comparison of two constants. -/
def Expr.Sentinel (e : Expr) : Prop := ∃ op a b, e = .compare op (.constant a) (.constant b)

/-- No constant, and no conjunction that ends in a comparison of two. -/
structure Expr.Plain (e : Expr) : Prop where
  noConstant : ∀ t, e ≠ .constant t
  noSentinel : ∀ last, e.conjuncts.getLast? = some last → ¬last.Sentinel

/-- One conjunct, which is no constant and no comparison of two. -/
theorem Expr.Plain.single {e : Expr} (hand : e.conjuncts = [e]) (hconstant : ∀ t, e ≠ .constant t)
    (hsentinel : ¬e.Sentinel) : e.Plain := by
  refine ⟨hconstant, fun last hlast => ?_⟩
  rw [hand] at hlast
  cases hlast
  exact hsentinel

theorem Expr.conjuncts_ne_nil (e : Expr) : e.conjuncts ≠ [] := by
  fun_induction conjuncts e with
  | case1 l r ihl _ => simp [ihl]
  | case2 e _ => simp

theorem Expr.getLast?_conjuncts_and (l r : Expr) :
    (Expr.and l r).conjuncts.getLast? = r.conjuncts.getLast? := by
  rw [conjuncts, List.getLast?_append_of_ne_nil _ r.conjuncts_ne_nil]

theorem close_plain {e : Expr} (h : e.Plain) (f : Frame) : (f.close e).Plain := by
  cases f with
  | and l =>
    refine ⟨nofun, fun last hlast => h.noSentinel last ?_⟩
    rw [← hlast]
    exact (Expr.getLast?_conjuncts_and l e).symm
  | compare op l =>
    refine .single rfl nofun ?_
    rintro ⟨_, _, _, heq⟩
    cases heq
    exact h.noConstant _ rfl
  | or l => exact .single rfl nofun nofun
  | not => exact .single rfl nofun nofun
  | upper negated x lo => exact .single rfl nofun nofun
  | like op negated x => exact .single rfl nofun nofun
  | sum op l => exact .single rfl nofun nofun
  | product op l => exact .single rfl nofun nofun
  | sign op => exact .single rfl nofun nofun
  | bracket => exact h
  | list negated x items => exact h
  | inOpen negated x => exact h
  | isOpen negated x => exact h
  | field path => exact h
  | lower negated x => exact h

/-- **What cannot end in a comparison of constants** does not in what is open around it. -/
theorem reduce_plain {p : Nat} {fs : List Frame} {e : Expr} (h : e.Plain) :
    (reduce p fs e).2.Plain := by
  induction fs generalizing e with
  | nil => exact h
  | cons f fs ih =>
    by_cases hf : p ≤ f.level ∧ 0 < f.level
    · rw [reduce_cons_of_le hf]
      exact ih (close_plain h f)
    · rw [reduce_cons_of_lt hf]
      exact h

/-! ### Behind `AND` -/

/-- What `AND` leaves: the upper bound of a `BETWEEN`, or a conjunction. -/
theorem step_and {p q : Parse} (h : p.step .and = some q) :
    ∃ fs e, p = ⟨fs, .holds e⟩ ∧
      ((∃ negated x lo rest, q = ⟨.upper negated x lo :: rest, .awaits⟩) ∨
        ∃ l rest, reduce 2 fs e = (rest, l) ∧ q = ⟨.and l :: rest, .awaits⟩) := by
  obtain ⟨fs, focus⟩ := p
  cases focus with
  | awaits =>
    simp only [Parse.step, await] at h
    split at h <;> cases h
  | negates e =>
    simp only [Parse.step, test] at h
    split at h <;> cases h
  | holds e =>
    refine ⟨fs, e, rfl, ?_⟩
    simp only [Parse.step, proceed] at h
    split at h
    · cases h
      exact .inl ⟨_, _, _, _, rfl⟩
    · rename_i rest l _ hreduce
      cases h
      exact .inr ⟨l, rest, hreduce, rfl⟩

/-- A comparison of two constants, where an operand may begin. -/
theorem parseFrom_sentinel {fs : List Frame} {op : List Char} {a b : Token} {q : Parse}
    (hbegins : begins fs = true)
    (h : parseFrom ⟨fs, .awaits⟩
      [.operand (.constant a), .compare op, .operand (.constant b)] = some q) :
    q = ⟨.compare op (reduce 6 fs (.constant a)).2 :: (reduce 6 fs (.constant a)).1,
      .holds (.constant b)⟩ := by
  have hfirst : (Parse.mk fs .awaits).step (.operand (.constant a)) =
      some ⟨fs, .holds (.constant a)⟩ := by
    simp [Parse.step, await, hbegins]
  rw [parseFrom_cons, hfirst, Option.bind_some, parseFrom_cons] at h
  obtain ⟨p, hcompare, h⟩ := Option.bind_eq_some_iff.1 h
  have hp : p = ⟨.compare op (reduce 6 fs (.constant a)).2 :: (reduce 6 fs (.constant a)).1,
      .awaits⟩ := by
    simp only [Parse.step, proceed, push] at hcompare
    split at hcompare
    · cases hcompare
    · cases hcompare
      rfl
  subst hp
  have hsecond : (Parse.mk (.compare op (reduce 6 fs (.constant a)).2 ::
      (reduce 6 fs (.constant a)).1) .awaits).step (.operand (.constant b)) =
      some ⟨.compare op (reduce 6 fs (.constant a)).2 :: (reduce 6 fs (.constant a)).1,
        .holds (.constant b)⟩ := by
    simp [Parse.step, await, begins]
  rw [parseFrom_cons, hsecond] at h
  cases h
  rfl

theorem finish_eq_some {fs : List Frame} {e x : Expr}
    (h : (Parse.mk fs (.holds e)).finish = some x) : reduce 1 fs e = ([], x) := by
  simp only [Parse.finish] at h
  split at h
  · rename_i hreduce
    cases h
    exact hreduce
  · cases h

/-- **A comparison of constants that is the last conjunct** is behind an `AND` that all in front
of it has been closed for. -/
theorem and_of_run {p q r : Parse} {op : List Char} {a b : Token} {x last : Expr}
    (hand : p.step .and = some q)
    (hrun : parseFrom q [.operand (.constant a), .compare op, .operand (.constant b)] = some r)
    (hfinish : r.finish = some x) (hlast : x.conjuncts.getLast? = some last)
    (hsentinel : last.Sentinel) :
    ∃ fs e l, p = ⟨fs, .holds e⟩ ∧ reduce 2 fs e = ([], l) ∧
      x = .and l (.compare op (.constant a) (.constant b)) := by
  have hplain : ¬x.Plain := fun h => h.noSentinel last hlast hsentinel
  obtain ⟨fs, e, rfl, ⟨negated, y, lo, rest, rfl⟩ | ⟨l, rest, hreduce, rfl⟩⟩ := step_and hand
  · -- The `AND` of a `BETWEEN`: what it closes to is no constant, and neither is its comparison.
    cases parseFrom_sentinel rfl hrun
    have hbetween : (reduce 6 (.upper negated y lo :: rest) (.constant a)).2.Plain := by
      rw [reduce_cons_of_le (by simp [Frame.level])]
      exact reduce_plain (.single rfl nofun nofun)
    have hclosed := finish_eq_some hfinish
    rw [reduce_cons_of_le (by simp [Frame.level])] at hclosed
    have hcompare : (Expr.compare op (reduce 6 (.upper negated y lo :: rest) (.constant a)).2
        (.constant b)).Plain := by
      refine .single rfl nofun ?_
      rintro ⟨_, _, _, heq⟩
      injection heq with _ hleft _
      exact hbetween.noConstant _ hleft
    have hx := @reduce_plain 1 (reduce 6 (.upper negated y lo :: rest) (.constant a)).1 _ hcompare
    rw [Frame.close] at hclosed
    rw [hclosed] at hx
    exact absurd hx hplain
  · cases parseFrom_sentinel rfl hrun
    have hkeep : reduce 6 (.and l :: rest) (.constant a) = (.and l :: rest, .constant a) :=
      reduce_cons_of_lt (by simp [Frame.level])
    have hclosed := finish_eq_some hfinish
    rw [hkeep, reduce_cons_of_le (by simp [Frame.level]), reduce_cons_of_le (by simp [Frame.level])] at hclosed
    cases rest with
    | nil =>
      cases hclosed
      exact ⟨fs, e, l, rfl, hreduce, rfl⟩
    | cons f rest =>
      -- What is open in front of the conjunction is weaker: a bracket, or an `OR`.
      have htop := reduce_top hreduce
      by_cases hor : 0 < f.level
      · obtain ⟨l', rfl⟩ : ∃ l', f = .or l' := by
          cases f <;> simp [Frame.level] at htop hor ⊢
        rw [reduce_cons_of_le (by simp [Frame.level])] at hclosed
        have hor : (Expr.or l' (.and l (.compare op (.constant a) (.constant b)))).Plain :=
          .single rfl nofun nofun
        have hx := @reduce_plain 1 rest _ hor
        simp only [Frame.close] at hclosed
        rw [hclosed] at hx
        exact absurd hx hplain
      · rw [reduce_cons_of_lt (fun h => hor h.2)] at hclosed
        cases hclosed

/-! ### More conditions -/

theorem await_operand {fs : List Frame} (h : begins fs = true) (e : Expr) :
    (Parse.mk fs .awaits).step (.operand e) = some ⟨fs, .holds e⟩ := by
  show await fs (.operand e) = _
  unfold await
  split
  · cases h
  all_goals simp_all

/-- The names behind the first of a path. -/
def pathSymbols (names : List (List Char)) : List Symbol :=
  names.flatMap fun name => [.point, .operand (.column [name])]

theorem parseFrom_pathSymbols (fs : List Frame) (path names : List (List Char)) :
    parseFrom ⟨fs, .holds (.column path)⟩ (pathSymbols names) =
      some ⟨fs, .holds (.column (path ++ names))⟩ := by
  induction names generalizing path with
  | nil => rw [List.append_nil]; rfl
  | cons name names ih =>
    have hname : parseFrom ⟨fs, .holds (.column path)⟩ [.point, .operand (.column [name])] =
        some ⟨fs, .holds (.column (path ++ [name]))⟩ := rfl
    rw [pathSymbols, List.flatMap_cons, parseFrom_append, hname, Option.bind_some]
    have := ih (path ++ [name])
    rwa [List.append_assoc] at this

theorem parseFrom_path {fs : List Frame} (h : begins fs = true) (name : List Char)
    (names : List (List Char)) :
    parseFrom ⟨fs, .awaits⟩ (.operand (.column [name]) :: pathSymbols names) =
      some ⟨fs, .holds (.column (name :: names))⟩ := by
  rw [parseFrom_cons, await_operand h, Option.bind_some, parseFrom_pathSymbols]
  rfl

theorem step_and_of_reduce {fs : List Frame} {e l : Expr} (h : reduce 2 fs e = ([], l)) :
    (Parse.mk fs (.holds e)).step .and = some ⟨[.and l], .awaits⟩ := by
  simp [Parse.step, proceed, h]

/-- Symbols that add conjuncts to a conjunction that nothing else is open around. -/
def Joins (symbols : List Symbol) (es : List Expr) : Prop :=
  ∀ l, ∃ fs e, parseFrom ⟨[.and l], .awaits⟩ symbols = some ⟨fs, .holds e⟩ ∧
    reduce 2 fs e = ([], es.foldl .and l)

theorem Joins.append {symbols more : List Symbol} {es es' : List Expr} (h : Joins symbols es)
    (h' : Joins more es') : Joins (symbols ++ [.and] ++ more) (es ++ es') := by
  intro l
  obtain ⟨fs, e, hrun, hreduce⟩ := h l
  obtain ⟨fs', e', hrun', hreduce'⟩ := h' (es.foldl .and l)
  refine ⟨fs', e', ?_, ?_⟩
  · rw [parseFrom_append, parseFrom_append, hrun, Option.bind_some, parseFrom_cons,
      step_and_of_reduce hreduce]
    exact hrun'
  · rw [List.foldl_append]
    exact hreduce'

/-- A comparison of a column with a parameter. -/
theorem joins_comparison (name : List Char) (names : List (List Char)) (op : List Char) :
    Joins (.operand (.column [name]) :: pathSymbols names ++ [.compare op, .operand .param])
      [.compare op (.column (name :: names)) .param] := by
  intro l
  refine ⟨[.compare op (.column (name :: names)), .and l], .param, ?_, rfl⟩
  rw [parseFrom_append, parseFrom_path rfl]
  rfl

/-- Behind a bracket, with alternatives in front or without. -/
inductive Opened : List Frame → Prop
  | first (fs : List Frame) : Opened (.bracket :: fs)
  | more (l : Expr) (fs : List Frame) : Opened (.or l :: .bracket :: fs)

/-- Symbols that are one alternative in brackets. -/
def Offers (symbols : List Symbol) (e : Expr) : Prop :=
  ∀ fs, Opened fs → ∃ gs x, parseFrom ⟨fs, .awaits⟩ symbols = some ⟨gs, .holds x⟩ ∧
    inLower gs = false ∧ reduce 1 gs x = reduce 1 fs e

theorem offers_equals (name : List Char) (t : Token) :
    Offers [.operand (.column [name]), .compare ['='], .operand (.constant t)]
      (.compare ['='] (.column [name]) (.constant t)) := by
  intro fs hfs
  refine ⟨.compare ['='] (.column [name]) :: fs, .constant t, ?_, ?_, rfl⟩
  · cases hfs <;> rfl
  · cases hfs <;> rfl

theorem offers_between (name : List Char) (t u : Token) :
    Offers [.operand (.column [name]), .between, .operand (.constant t), .and,
      .operand (.constant u)] (.between false (.column [name]) (.constant t) (.constant u)) := by
  intro fs hfs
  refine ⟨.upper false (.column [name]) (.constant t) :: fs, .constant u, ?_, ?_, rfl⟩
  · cases hfs <;> rfl
  · cases hfs <;> rfl

section Alternatives

variable {α : Type} {symbols : α → List Symbol} {e : α → Expr}

theorem parseFrom_alternatives {items : List α} (h : ∀ a ∈ items, Offers (symbols a) (e a))
    {gs fs : List Frame} {x l : Expr} (hreduce : reduce 1 gs x = (.bracket :: fs, l))
    (hlower : inLower gs = false) :
    parseFrom ⟨gs, .holds x⟩ (items.flatMap (fun a => .or :: symbols a) ++ [.closeBracket]) =
      some ⟨fs, .holds (items.foldl (fun l a => .or l (e a)) l)⟩ := by
  induction items generalizing gs x l with
  | nil =>
    rw [List.flatMap_nil, List.nil_append, parseFrom_cons]
    simp [Parse.step, proceed, hreduce, parseFrom_nil]
  | cons a items ih =>
    obtain ⟨gs', x', hrun, hlower', hreduce'⟩ :=
      h a List.mem_cons_self (.or l :: .bracket :: fs) (.more l fs)
    have hor : (Parse.mk gs (.holds x)).step .or = some ⟨.or l :: .bracket :: fs, .awaits⟩ := by
      simp [Parse.step, proceed, pushLeft, hlower, hreduce]
    rw [List.flatMap_cons, List.append_assoc, List.cons_append, parseFrom_cons, hor,
      Option.bind_some, parseFrom_append, hrun, Option.bind_some,
      ih (fun b hb => h b (List.mem_cons_of_mem _ hb)) hreduce' hlower']
    rfl

/-- Alternatives in brackets are one conjunct. -/
theorem joins_alternatives {a : α} {items : List α}
    (h : ∀ b ∈ a :: items, Offers (symbols b) (e b)) :
    Joins (.openBracket :: (symbols a ++ items.flatMap (fun b => .or :: symbols b)) ++
      [.closeBracket]) [items.foldl (fun l b => .or l (e b)) (e a)] := by
  intro l
  refine ⟨[.and l], items.foldl (fun l b => .or l (e b)) (e a), ?_, rfl⟩
  obtain ⟨gs, x, hrun, hlower, hreduce⟩ :=
    h a List.mem_cons_self (.bracket :: [.and l]) (.first [.and l])
  have hopen : (Parse.mk [.and l] .awaits).step .openBracket =
      some ⟨.bracket :: [.and l], .awaits⟩ := rfl
  rw [List.cons_append, List.append_assoc, parseFrom_cons, hopen, Option.bind_some, parseFrom_append,
    hrun, Option.bind_some,
    parseFrom_alternatives (fun b hb => h b (List.mem_cons_of_mem _ hb)) hreduce hlower]

end Alternatives

theorem conjuncts_foldl_and (es : List Expr) (l : Expr) :
    (es.foldl .and l).conjuncts = l.conjuncts ++ es.flatMap Expr.conjuncts := by
  induction es generalizing l with
  | nil => simp
  | cons e es ih =>
    rw [List.foldl_cons, ih, Expr.conjuncts, List.flatMap_cons, List.append_assoc]

end Lib.Sql
