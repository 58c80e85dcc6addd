/-
# What is read as an expression is a phrase

While a statement is read, its left side is a head of a phrase, as far as it is
an expression at all (`Tree.Statement.IsOpen`). It is closed by what follows an
operator, and then the cursor is at a token that ends it, unless what follows
is a condition, a loop or another construct that ends by itself. So a statement
that is an expression is that of a phrase (`Tree.Statement.IsPhrase`). The
phrase is not higher than constructs may be nested.

Key definitions: `TokenStream.AtEnd`, `Tree.Statement.IsPhrase`,
`Tree.Statement.IsOpen`, `Production.Tells`, `Family.Tells`.
Key theorems: `Construct.tells_operation`, `Construct.tells_statement`,
`tells_parseAt`.
-/
import Javascribe.Proofs.Phrase
import Javascribe.Proofs.StatementEnds

namespace Javascribe

open Javascribe.Parser

namespace TokenStream

/-- The token ends a statement. -/
def AtEnd (T : TokenStream) (id : Nat) : Prop :=
  T.eof ≤ id ∨ Keyword.statementEnds.contains (T.value id) = true

/-- Words and numbers are made of the characters of their class, and signs are text. -/
structure HasTokens (T : TokenStream) : Prop where
  word (id : Nat) : T.isWord id = true → CharClass.word.IsToken (T.value id)
  number (id : Nat) : T.isNumber id = true → CharClass.number.IsToken (T.value id)
  sign (id : Nat) : signs.contains (T.value id) = true → T.isText id = true

theorem not_atEnd_of_mem {T : TokenStream} {id : Nat} {values : List String} (lt : id < T.eof)
    (mem : T.value id ∈ values) (apart : ∀ v ∈ values, Keyword.statementEnds.contains v = false) :
    ¬ T.AtEnd id := by
  rintro (le | ends)
  · omega
  · rw [apart _ mem] at ends
    cases ends

end TokenStream

namespace Tree

variable {d : Nat} {s : Statement} {left : Option Node}

/-- If the statement is an expression, it is that of a phrase, which is not too
high at depth `d`. -/
def Statement.IsPhrase (d : Nat) (s : Statement) : Prop :=
  ∀ x, s.expr? false = some x →
    ∃ p : Phrase, p.IsSound ∧ p.expr = x ∧ d + p.height ≤ maxParserDepth

/-- An operand that is that of a head. -/
def IsHead (d : Nat) (l : Operand) : Prop :=
  ∃ head : Head, head.IsSound ∧ head.operand = l ∧ d + head.height ≤ maxParserDepth

/-- What is known of a statement that can go on. If its left side is an operand,
there is nothing else in it but what would be no expression anyway. -/
structure Statement.OpensWith (d : Nat) (s : Statement) (l : Operand) : Prop where
  isOpen : s.isParenthesized = false
  rest : s.operator = none ∧ s.right = none ∨
    ∃ use r, s.operator = some use ∧ s.right = some r ∧ r.expr? false = none
  head : l = .absent ∨ IsHead d l

/-- A statement that can go on. -/
def Statement.IsOpen (d : Nat) (s : Statement) : Prop :=
  s.cast = none → ∀ l, leftOperand? false s.left = some l → s.OpensWith d l

/-- A statement that is nothing but a construct that ends by itself. -/
def Statement.EndsItself (s : Statement) : Prop :=
  ∃ node token annotations, node.isSelfTerminating = true ∧
    s = { Statement.ofNode node token with annotations := annotations }

/-! ### Statements that are no expressions -/

theorem operand?_of_isSelfTerminating {strict : Bool} {node : Node}
    (h : node.isSelfTerminating = true) : node.operand? strict = none := by
  cases node <;> simp_all [Node.isSelfTerminating, Node.operand?]

theorem expr?_of_cast {type : TypeRef} (h : s.cast = some type) : s.expr? false = none := by
  rw [Option.eq_none_iff_forall_ne_some]
  intro x hx
  rw [(Statement.expr?_eq_some.mp hx).1] at h
  cases h

theorem Statement.EndsItself.expr? (h : s.EndsItself) : s.expr? false = none := by
  obtain ⟨node, token, annotations, ends, rfl⟩ := h
  rw [Option.eq_none_iff_forall_ne_some]
  intro x hx
  obtain ⟨_, _, l, _, hl, _, _⟩ := Statement.expr?_eq_some.mp hx
  have hl : leftOperand? false (some node) = some l := hl
  rw [leftOperand?, operand?_of_isSelfTerminating ends] at hl
  cases hl

/-- An operator stands in its place before a construct that ends by itself. -/
theorem Statement.EndsItself.combine (h : s.EndsItself) (use : OperatorUse) (token : Nat) :
    combine left use token s = attach left use s token := by
  obtain ⟨node, _, _, ends, rfl⟩ := h
  refine combine_of_stays left use token (.inr ⟨fun t found => ?_, fun _ _ _ _ => nofun⟩)
  cases found
  cases ends

theorem Statement.isPhrase_of_left (h : leftOperand? false s.left = none) : s.IsPhrase d := by
  intro x hx
  obtain ⟨_, _, l, _, hl, _, _⟩ := Statement.expr?_eq_some.mp hx
  rw [h] at hl
  cases hl

theorem Statement.isOpen_of_left (h : leftOperand? false s.left = none) : s.IsOpen d := by
  intro _ l hl
  rw [h] at hl
  cases hl

mutual

/-- A cast stays in the statement, or in its left side. -/
theorem applyCast_isCast (type : TypeRef) (token : Nat) : (value : Statement) →
    (applyCast type token value).cast ≠ none ∨
      leftOperand? false (applyCast type token value).left = none
  | ⟨node?, operator?, right?, isParenthesized, cast, annotations, start⟩ => by
    unfold applyCast
    dsimp only
    split
    · split
      · left
        split <;> exact nofun
      · next node _ _ _ =>
        right
        show leftOperand? false (some (.statement (castOperand type token node))) = none
        rw [leftOperand?, Node.operand?, castOperand_isCast type token node]
        rfl
    · left
      split <;> exact nofun

theorem castOperand_isCast (type : TypeRef) (token : Nat) : (node : Node) →
    (castOperand type token node).expr? false = none
  | .statement s => by
    unfold castOperand
    split
    · exact expr?_of_cast rfl
    · rw [Option.eq_none_iff_forall_ne_some]
      intro x hx
      obtain ⟨hCast, _, l, _, hl, _, _⟩ := Statement.expr?_eq_some.mp hx
      rcases applyCast_isCast type token s with isCast | noLeft
      · exact isCast hCast
      · rw [noLeft] at hl
        cases hl
  | .instruction _ | .assertion _ | .literal _ | .lambda _ | .reference _ | .call _
  | .instantiation _ | .classDecl _ | .declaration _ | .ifElse _ | .forLoop _ | .whileLoop _
  | .doWhileLoop _ | .switch _ | .tryCatch _ | .chain _ | .ternary _ => by
    unfold castOperand
    exact expr?_of_cast rfl

end

/-! ### Parts that make a phrase -/

/-- An operand that is that of a head without steps. -/
def IsPlainHead (d : Nat) (l : Operand) : Prop :=
  ∃ head : Head, head.isPlain = true ∧ head.IsSound ∧ head.operand = l ∧
    d + head.height ≤ maxParserDepth

theorem IsPlainHead.isHead {l : Operand} : IsPlainHead d l → IsHead d l
  | ⟨head, _, sound, same, low⟩ => ⟨head, sound, same, low⟩

theorem Statement.EndsItself.isPhrase (h : s.EndsItself) : s.IsPhrase d := by
  intro x hx
  rw [h.expr?] at hx
  cases hx

/-- Nothing but a left side is a phrase, and can go on. -/
theorem Statement.isPhrase_of_first (shallow : d < maxParserDepth) (hOperator : s.operator = none)
    (hRight : s.right = none) (hOpen : s.isParenthesized = false)
    (h : ∀ l, leftOperand? false s.left = some l → l = .absent ∨ IsPlainHead d l) :
    s.IsPhrase d ∧ s.IsOpen d := by
  constructor
  · intro x hx
    obtain ⟨_, _, l, r, hl, hr, rfl⟩ := Statement.expr?_eq_some.mp hx
    rw [hOperator, hRight, rest?_none_none] at hr
    cases hr
    rw [hOpen]
    rcases h l hl with rfl | ⟨head, plain, sound, rfl, low⟩
    · exact ⟨.empty, trivial, rfl, shallow⟩
    · exact ⟨.value head, ⟨plain, sound⟩, rfl, low⟩
  · exact fun _ l hl => ⟨hOpen, .inl ⟨hOperator, hRight⟩, (h l hl).imp_right IsPlainHead.isHead⟩

/-- A phrase in parentheses is a head. -/
theorem isPlainHead_group {inner : Statement} (h : inner.IsPhrase (d + 1)) {l : Operand}
    (hl : leftOperand? false (some (.statement { inner with isParenthesized := true })) = some l) :
    IsPlainHead d l := by
  rw [leftOperand?] at hl
  obtain ⟨y, hy, rfl⟩ := operand?_statement_eq_some.mp hl
  obtain ⟨hCast, _, first, rest, hFirst, hRest, rfl⟩ := Statement.expr?_eq_some.mp hy
  obtain ⟨p, sound, same, low⟩ :=
    h _ (Statement.expr?_eq_some.mpr ⟨hCast, fun strict => absurd strict Bool.false_ne_true, first, rest, hFirst, hRest, rfl⟩)
  refine ⟨.group p, rfl, sound, ?_, ?_⟩
  · rw [Head.operand, same]
    rfl
  · rw [Head.height]
    omega

/-- The phrase of a statement with something to compute is not empty. -/
theorem isPresent_of_hasOperand {p : Phrase} (h : s.expr? false = some p.expr)
    (operand : s.hasOperand = true) : p.isPresent = true := by
  cases p with
  | empty =>
    obtain ⟨_, _, l, r, hl, hr, same⟩ := Statement.expr?_eq_some.mp h
    rw [Phrase.expr, Operand.alone] at same
    obtain ⟨rfl, rfl, _⟩ := Expr.mk.inj same
    have noLeft := (isPresent_leftOperand? hl).symm
    rw [Statement.hasOperand, Bool.or_eq_true, noLeft] at operand
    obtain ⟨use, hUse⟩ := Option.isSome_iff_exists.mp (operand.resolve_left Bool.false_ne_true)
    rw [hUse] at hr
    exact absurd hr rest?_ne_none_of_some
  | _ => rfl

section Open

variable {x : Expr} (h : s.IsOpen d)
include h

/-- An open statement that is an expression is nothing but its left side. -/
theorem Statement.IsOpen.expr (hx : s.expr? false = some x) :
    ∃ l, leftOperand? false s.left = some l ∧ x = l.alone ∧ (l = .absent ∨ IsHead d l) := by
  obtain ⟨hCast, _, l, r, hl, hr, rfl⟩ := Statement.expr?_eq_some.mp hx
  obtain ⟨hOpen, rest, head⟩ := h hCast l hl
  refine ⟨l, hl, ?_, head⟩
  rcases rest with ⟨hOperator, hRight⟩ | ⟨use, r', hOperator, hRight, none⟩
  · rw [hOperator, hRight, rest?_none_none] at hr
    cases hr
    rw [hOpen]
    rfl
  · rw [hOperator, hRight] at hr
    obtain ⟨_, y, hy, _⟩ := rest?_operation_eq_some.mp hr
    rw [none] at hy
    cases hy

/-- A left side that is there is a head. -/
theorem Statement.IsOpen.isHead (hCast : s.cast = none) {l : Operand}
    (hl : leftOperand? false s.left = some l) (present : s.left.isSome = true) : IsHead d l := by
  refine (h hCast l hl).head.resolve_left fun absent => ?_
  have same := isPresent_leftOperand? hl
  rw [absent, present] at same
  cases same

theorem Statement.IsOpen.isPhrase_ternary {yes no : Statement} (hYes : yes.IsPhrase (d + 1))
    (hNo : no.IsPhrase (d + 1)) (present : s.left.isSome = true) (token : Nat)
    (annotations : List AnnotationUse) :
    { Statement.ofNode (.ternary ⟨{ s with annotations := [] }, yes, no, token⟩) token with
      annotations := annotations }.IsPhrase d := by
  intro x hx
  obtain ⟨_, _, l, r, hl, hr, rfl⟩ := Statement.expr?_eq_some.mp hx
  cases rest?_none_none.symm.trans hr
  have hl : leftOperand? false (some (.ternary ⟨{ s with annotations := [] }, yes, no, token⟩)) =
    some l := hl
  rw [leftOperand?] at hl
  obtain ⟨c, y, n, hc, hy, hn, rfl⟩ := operand?_ternary_eq_some.mp hl
  -- a loose reading of the condition does not see its annotations
  obtain ⟨hCast, _, f, t, hf, ht, same⟩ := Statement.expr?_eq_some.mp hc
  obtain ⟨f', hf', rfl, _⟩ :=
    h.expr (x := c) (Statement.expr?_eq_some.mpr ⟨hCast, fun strict => absurd strict Bool.false_ne_true, f, t, hf, ht, same⟩)
  obtain ⟨head, soundHead, rfl, lowHead⟩ := h.isHead hCast hf' present
  obtain ⟨p, soundYes, rfl, lowYes⟩ := hYes y hy
  obtain ⟨q, soundNo, rfl, lowNo⟩ := hNo n hn
  refine ⟨.ternary head p q, ⟨soundHead, soundYes, soundNo⟩, rfl, ?_⟩
  rw [Phrase.height]
  omega

/-- A step at the end of a statement closes it. -/
theorem Statement.IsOpen.isPhrase_step {use : OperatorUse} (low : d + 2 ≤ maxParserDepth)
    (step : use.operation.isStep = true) (present : s.left.isSome = true) :
    { s with operator := some use }.IsPhrase d := by
  intro x hx
  obtain ⟨hCast, _, l, r, hl, hr, rfl⟩ := Statement.expr?_eq_some.mp hx
  obtain ⟨head, sound, rfl, lowHead⟩ := h.isHead hCast hl present
  obtain ⟨hOpen, rest, _⟩ := h hCast _ hl
  have hr : rest? false (some use) s.right = some r := hr
  rcases rest with ⟨_, hRight⟩ | ⟨_, r', _, hRight, none⟩
  · rw [hRight] at hr
    obtain ⟨_, rfl⟩ := rest?_step_eq_some.mp hr
    refine ⟨.stepped head use.operation, ⟨sound, step⟩, ?_, ?_⟩
    · rw [Phrase.expr]
      exact congrArg _ hOpen.symm
    · rw [Phrase.height]
      omega
  · rw [hRight] at hr
    obtain ⟨_, y, hy, _⟩ := rest?_operation_eq_some.mp hr
    rw [none] at hy
    cases hy

/-- A step before the end of a statement is part of its left side. -/
theorem Statement.IsOpen.isOpen_step {use : OperatorUse} (low : d + 2 ≤ maxParserDepth)
    (step : use.operation.isStep = true) (present : s.left.isSome = true) :
    { s with left := some (.statement
        { Statement.empty s.token with left := s.left, operator := some use }) }.IsOpen d := by
  intro hCast l' hl'
  have hl' : leftOperand? false (some (.statement
    { Statement.empty s.token with left := s.left, operator := some use })) = some l' := hl'
  rw [leftOperand?] at hl'
  obtain ⟨y, hy, rfl⟩ := operand?_statement_eq_some.mp hl'
  obtain ⟨_, _, l, r, hl, hr, rfl⟩ := Statement.expr?_eq_some.mp hy
  obtain ⟨_, rfl⟩ := rest?_step_eq_some.mp hr
  obtain ⟨head, sound, rfl, lowHead⟩ := h.isHead hCast hl present
  obtain ⟨hOpen, rest, _⟩ := h hCast _ hl
  refine ⟨hOpen, rest, .inr ⟨.step head use.operation, ⟨sound, step⟩, rfl, ?_⟩⟩
  rw [Head.height]
  omega

/-- What an operator is attached to is not an expression if it ends by itself,
so the statement can go on. -/
theorem Statement.IsOpen.isOpen_attach {use : OperatorUse} {right : Statement}
    (ends : right.EndsItself) :
    { s with operator := some use, right := some right }.IsOpen d :=
  fun hCast l hl =>
    have ⟨hOpen, _, head⟩ := h hCast l hl
    ⟨hOpen, .inr ⟨use, right, rfl, rfl, ends.expr?⟩, head⟩

/-- An operator and the phrase after it close a statement. -/
theorem Statement.IsOpen.isPhrase_combine {use : OperatorUse} {right : Statement} {token : Nat}
    (low : d + 2 ≤ maxParserDepth) (hRight : right.IsPhrase (d + 1))
    (operand : right.hasOperand = true)
    (step : ¬ (use.operation.isStep && s.left.isSome) = true)
    (sign : s.left = none → use.operation.words.head?.any signs.contains = true) :
    { s with
      left := (combine s.left use token right).left
      operator := (combine s.left use token right).operator
      right := (combine s.left use token right).right }.IsPhrase d := by
  intro x hx
  obtain ⟨hCast, _, l', r', hl', hr', rfl⟩ := Statement.expr?_eq_some.mp hx
  obtain ⟨bare, isOpen⟩ := combine_isBare s.left use token right
  obtain ⟨l, y, hl, hy, shared, same⟩ := expr?_of_combine
    (Statement.expr?_eq_some.mpr ⟨bare, fun strict => absurd strict Bool.false_ne_true, l', r', hl', hr', rfl⟩)
  obtain ⟨p, sound, rfl, lowRight⟩ := hRight y hy
  have present := isPresent_of_hasOperand hy operand
  obtain ⟨hOpen, _, _⟩ := h hCast l hl
  rw [isOpen] at same
  rw [show Expr.mk l' r' s.isParenthesized = Expr.mk l' r' false from congrArg _ hOpen, same]
  cases hLeft : s.left with
  | none =>
    rw [hLeft, leftOperand?] at hl
    cases hl
    refine ⟨.signed use.operation p, ⟨?_, present, sound⟩, rfl, ?_⟩
    · rw [Operator.isSign, shared, sign hLeft]
      rfl
    · rw [Phrase.height]
      omega
  | some node =>
    have isSome : s.left.isSome = true := by rw [hLeft]; rfl
    obtain ⟨head, soundHead, rfl, lowHead⟩ := h.isHead hCast hl isSome
    rw [isSome, Bool.and_true, Bool.not_eq_true] at step
    refine ⟨.binary head use.operation p, ⟨soundHead, shared, step, present, sound⟩, rfl, ?_⟩
    rw [Phrase.height]
    omega

end Open

end Tree

/-! ### What constructs tell -/

/-- What is told by what is read from `i` on to `j`, nested `d` deep. -/
def Production.Tells (T : TokenStream) (d : Nat) : (p : Production) → Nat → p.Result → Nat → Prop
  | .statement, _, s, j => (T.AtEnd j ∧ Tree.Statement.IsPhrase d s) ∨ Tree.Statement.EndsItself s
  | .reference, i, r, _ => T.isWord i = true → Tree.Reference.name r = T.value i
  | .literal, _, l, _ => Tree.Literal.kind l = .number →
      ∃ digits tail, IsNumber digits tail ∧ Tree.Literal.value l = digits ++ tail
  | .operator, i, use, _ => signs.contains (T.value i) = true →
      (Tree.OperatorUse.operation use).words.head?.any signs.contains = true
  | _, _, _, _ => True

/-- All parsers of a family end, and tell what they should. -/
structure Family.Tells (T : TokenStream) (d : Nat) (parse : Family) : Prop
    extends parse.Ends T True (fun _ => True) d where
  tokens : T.HasTokens
  tells (p : Production) (i : Nat) : Parser.Ends T True d (parse p) i fun r j =>
    d < maxParserDepth ∧ p.Tells T d i r j

namespace Construct

open Javascribe.Tree
open Grammar (Goes ends_proceed ends_stop ends_finish ends_runSteps_nil ends_parse)

variable {T : TokenStream} {d i : Nat} {parse : Family}

theorem tells_reference (plain : T.HasPlainWords) :
    Parser.Ends T True d reference i fun r _ => T.isWord i = true → r.name = T.value i := by
  refine .construct fun j _ _ stays => ends_eatWord.bind fun word _ _ eaten => .pure fun isWord => ?_
  have noSlash : T.value i ≠ "/" := fun slash => plain i isWord (by rw [slash]; decide)
  rw [stays trivial (TokenStream.isText_of_isWord isWord) noSlash] at eaten
  exact eaten.1.2

/-- An operator that starts with a sign is put together from that sign on. -/
theorem tells_operator (tokens : T.HasTokens) :
    Parser.Ends T True d operator i fun use _ => signs.contains (T.value i) = true →
      use.operation.words.head?.any signs.contains = true := by
  have fromSign : ∀ sign ∈ signs, ∀ entry ∈ operatorsFrom sign,
      entry.2.words.head?.any signs.contains = true := by decide
  refine .construct fun j _ _ stays => .get fun c hc hj => ?_
  split
  · exact ends_fail nofun
  · rename_i rest operation found
    refine (Ends.forM (fun _ _ _ => ends_advanceRaw.mono fun _ _ _ _ => trivial) _).bind
      fun _ _ _ _ => .next fun _ _ _ => .pure fun sign => ?_
    have mem : T.value i ∈ signs := List.contains_iff_mem.mp sign
    have noSlash : T.value i ≠ "/" := fun slash => absurd mem (by rw [slash]; decide)
    have here := stays trivial (tokens.sign i sign) noSlash
    rw [Cursor.value, hc.tokens, hj, here] at found
    exact fromSign _ mem _ (List.mem_of_find?_eq_some found)

/-- What is kept of a word right behind a number is nothing or the word. -/
theorem isNumber_of_numberTail? {digits word tail : String} (hDigits : CharClass.number.IsToken digits)
    (hWord : CharClass.word.IsToken word) (h : numberTail? digits word = some tail) :
    IsNumber digits tail := by
  refine ⟨hDigits, ?_⟩
  have kept := h
  rw [numberTail?] at h
  split at h
  · cases h
    exact .inr ⟨hWord, kept⟩
  · split at h
    · cases h
      exact .inl rfl
    · cases h

theorem tells_literal (h : parse.Tells T d) :
    Parser.Ends T True d (literal parse) i fun l _ => l.kind = .number →
      ∃ digits tail, IsNumber digits tail ∧ l.value = digits ++ tail := by
  refine ends_parse (I := fun l _ => l.kind ≠ .number)
    (S := fun l _ _ => l.kind = .number →
      ∃ digits tail, IsNumber digits tail ∧ l.value = digits ++ tail)
    (fun _ _ mem => by cases mem) (fun j _ _ _ => ?_) (fun _ other number => absurd number other) ?_
    (fun _ _ _ told => .pure told) fun _ _ _ _ _ _ told => .pure told
  · exact ends_proceed (ends_runSteps_nil fun same => by cases same)
  · intro l j _ _ _
    simp only [literalGrammar, List.forall_mem_cons]
    refine ⟨fun _ => ?_, fun _ => ?_, fun isNumber => ?_, fun _ => ?_, fun _ mem => by cases mem⟩
    · refine .next fun _ _ _ => (ends_commaList _ fun j _ => ends_statements h.toEnds j).bind
        fun _ _ _ _ => .ensureAt (ends_finish fun same => by cases same)
    · exact .get fun c _ _ => ends_finish fun same => by cases same
    · have digits := h.tokens.number j isNumber
      refine .get fun c hc hj => ?_
      have value : c.value = T.value j := by rw [Cursor.value, hc.tokens, hj]
      rw [value, hc.tokens]
      refine .ite (fun follows => ?_) fun _ => ?_
      · rw [Bool.and_eq_true] at follows
        split
        · exact ends_fail fun same => by cases same
        · rename_i tail kept
          refine ends_advanceRaw.bind fun _ _ _ _ => ends_finish fun _ => ?_
          exact ⟨T.value j, tail,
            isNumber_of_numberTail? digits (h.tokens.word _ follows.1) kept, rfl⟩
      · exact ends_finish fun _ => ⟨T.value j, "", ⟨digits, .inl rfl⟩, (String.append_empty).symm⟩
    · refine .get fun c _ _ => (ends_closingQuote _).bind fun _ k _ _ => ?_
      exact .get fun c _ _ => ends_finish fun same => by cases same

/-! ### Statements -/

section Statements

variable (h : parse.Tells T (d + 1))
include h

/-- Names and numbers are heads. -/
theorem tells_leading :
    Parser.Ends T True (d + 1) (leading parse) i fun node? _ =>
      ∀ l, leftOperand? false node? = some l → l = .absent ∨ IsPlainHead d l := by
  have other (p : Production) (f : p.Result → Node)
      (noOperand : ∀ r, (f r).operand? false = none := by simp [Node.operand?]) :
      Parser.Ends T True (d + 1) ((fun r => some (f r)) <$> parse p) i fun node? _ =>
        ∀ l, leftOperand? false node? = some l → l = .absent ∨ IsPlainHead d l := by
    refine .map ((h.tells p i).mono fun r _ _ _ l hl => ?_)
    rw [leftOperand?, noOperand] at hl
    cases hl
  refine .get fun c hc hi => ?_
  dsimp only
  rw [hc.tokens, hi, hc.is_eq, hi]
  refine .ite (fun _ => other .instruction _) fun noInstruction => ?_
  refine .ite (fun _ => other .assertion _) fun noAssertion => ?_
  refine .ite (fun _ => ?_) fun noLiteral => ?_
  · refine .map ((h.tells .literal i).mono fun literal _ _ told l hl => .inr ?_)
    rw [leftOperand?] at hl
    obtain ⟨⟨isNumber, _⟩, rfl⟩ := operand?_literal_eq_some.mp hl
    obtain ⟨digits, tail, sound, value⟩ := told.2 isNumber
    refine ⟨.number digits tail, rfl, sound, ?_, told.1⟩
    rw [Head.operand, value]
  refine .ite (fun _ => other .lambda _) fun _ => ?_
  refine .ite (fun starts => ?_) fun _ => ?_
  · have word : T.isWord i = true := by
      rw [TokenStream.startsReference] at starts
      simp only [Bool.and_eq_true] at starts
      exact starts.1.1.1
    refine .map ((h.tells .reference i).mono fun reference _ _ told l hl => .inr ?_)
    rw [leftOperand?, Node.operand?] at hl
    cases hl
    refine ⟨.name reference.name, rfl, ?_, rfl, told.1⟩
    rw [Head.IsSound, told.2 word]
    rw [TokenStream.startsInstruction, Bool.not_eq_true] at noInstruction
    rw [TokenStream.startsLiteral, Bool.or_eq_true, not_or, Bool.not_eq_true] at noLiteral
    exact ⟨h.tokens.word i word, noInstruction, fun same => noAssertion (beq_iff_eq.mpr same), by
      simpa using noLiteral.2⟩
  refine .ite (fun _ => other .call _) fun _ => ?_
  refine .ite (fun _ => other .instantiation _) fun _ => ?_
  refine .ite (fun _ => other .classDecl _) fun _ => ?_
  refine .ite (fun _ => other .declaration _) fun _ => ?_
  refine .ite (fun _ => other .ifElse _) fun _ => ?_
  refine .ite (fun _ => other .forLoop _) fun _ => ?_
  refine .ite (fun _ => other .whileLoop _) fun _ => ?_
  refine .ite (fun _ => other .doWhileLoop _) fun _ => ?_
  refine .ite (fun _ => other .switch _) fun _ => ?_
  refine .ite (fun _ => other .tryCatch _) fun _ => ?_
  refine .pure fun l hl => .inl ?_
  rw [leftOperand?] at hl
  exact (Option.some.inj hl).symm

/-- What has been read of a statement up to `k`. -/
structure PhraseGot (T : TokenStream) (d : Nat) (statement : Statement) (k : Nat) : Prop where
  atEnd : T.AtEnd k → statement.IsPhrase d
  onward : ¬ T.AtEnd k → statement.IsOpen d

/-- Where a statement ends. -/
def PhraseEnd (T : TokenStream) (d : Nat) (statement : Statement) (signal : Signal) (k : Nat) :
    Prop :=
  signal = .stop ∧ ((T.AtEnd k ∧ statement.IsPhrase d) ∨ statement.EndsItself)

abbrev PhraseGoes (T : TokenStream) (d start : Nat) : Statement × Signal → Nat → Prop :=
  Goes T start (PhraseGot T d) (PhraseEnd T d)

section Rules

variable {statement : Statement} {j : Nat}

omit h in
theorem ends_proceedPhrase {k : Nat} (got : statement.IsPhrase d ∧ statement.IsOpen d) :
    Parser.Ends T True (d + 1) (proceed statement) k (PhraseGoes T d j) :=
  ends_proceed fun _ _ _ _ => ⟨fun _ => got.1, fun _ => got.2⟩

omit h in
theorem ends_proceedOther {k : Nat} (noOperand : leftOperand? false statement.left = none) :
    Parser.Ends T True (d + 1) (proceed statement) k (PhraseGoes T d j) :=
  ends_proceedPhrase ⟨Statement.isPhrase_of_left noOperand,
    Statement.isOpen_of_left noOperand⟩

/-- A statement is the phrase that it is read as, or no expression. -/
theorem tells_statements (j : Nat) :
    Parser.Ends T True (d + 1) (parse .statement) j fun s k =>
      s.IsPhrase (d + 1) ∧ (T.AtEnd k ∨ s.EndsItself) :=
  (h.tells .statement j).mono fun _ _ _ told => told.2.elim
    (fun ⟨atEnd, isPhrase⟩ => ⟨isPhrase, .inl atEnd⟩) fun ends => ⟨ends.isPhrase, .inr ends⟩

theorem tells_parenthesis (shallow : d < maxParserDepth) (isOpen : statement.IsOpen d) :
    Parser.Ends T True (d + 1) (parenthesis parse statement) j (PhraseGoes T d j) := by
  unfold parenthesis
  split
  · refine .ensure fun _ => (h.tells .call j).bind fun call _ _ _ => ?_
    exact ends_proceedOther (by simp [leftOperand?, Node.operand?])
  · rename_i noLeft
    refine .ensure fun noOperator => .get fun c _ _ => ?_
    refine .next fun j₁ _ _ => .ite (fun _ => ?_) fun _ => ?_
    · refine (h.tells .typeRef j₁).bind fun type j₂ _ _ => .eat fun j₃ _ => ?_
      refine (h.tells .statement j₃).bind fun value _ _ _ => ?_
      rcases applyCast_isCast type statement.token value with isCast | noOperand
      · refine ends_proceedPhrase ⟨fun x hx => ?_, fun noCast => absurd noCast isCast⟩
        exact absurd (Statement.expr?_eq_some.mp hx).1 isCast
      · exact ends_proceedOther noOperand
    · refine (tells_statements h j₁).bind fun inner j₂ _ told => .eat fun _ _ => ?_
      have noOperator := Option.isNone_iff_eq_none.mp noOperator
      have group {l : Operand} := isPlainHead_group (l := l) told.1
      by_cases hCast : statement.cast = none
      · obtain ⟨hOpen, rest, _⟩ := isOpen hCast .absent (by rw [noLeft, leftOperand?])
        have noRight : statement.right = none := by
          rcases rest with ⟨_, noRight⟩ | ⟨_, _, hOperator, _⟩
          · exact noRight
          · rw [noOperator] at hOperator
            cases hOperator
        exact ends_proceedPhrase (Statement.isPhrase_of_first shallow noOperator noRight hOpen
          fun _ hl => .inr (group hl))
      · refine ends_proceedPhrase ⟨fun x hx => ?_, fun noCast => absurd noCast hCast⟩
        exact absurd (Statement.expr?_eq_some.mp hx).1 hCast

theorem tells_continuation :
    Parser.Ends T True (d + 1) (continuation parse statement) j (PhraseGoes T d j) := by
  unfold continuation
  split
  · exact ends_unexpected
  · refine .ensure fun _ => (h.tells .chain j).bind fun chain _ _ _ => ?_
    exact ends_proceedOther (by simp [leftOperand?, Node.operand?])

theorem tells_leadingChain :
    Parser.Ends T True (d + 1) (leadingChain parse statement) j (PhraseGoes T d j) := by
  refine .ensure fun _ => (h.tells .chain j).bind fun chain _ _ _ => ?_
  split
  · refine ends_eatWord.bind fun name _ _ _ => ?_
    exact ends_proceedOther (by simp [leftOperand?, Node.operand?])
  · exact ends_proceedOther (by simp [leftOperand?, Node.operand?])

/-- A conditional expression ends where its second value does. -/
theorem tells_ternary (isOpen : statement.IsOpen d) (present : statement.left.isSome = true) :
    Parser.Ends T True (d + 1) (ternary parse statement) j (PhraseGoes T d j) := by
  refine .eat fun j₁ _ => (tells_statements h j₁).bind fun yes j₂ le₂ hYes => ?_
  refine .eat fun j₃ le₃ => (tells_statements h j₃).bind fun no j₄ le₄ hNo => ?_
  refine ends_proceed fun k resumes _ _ => ⟨fun _ => ?_, fun notAtEnd => ?_⟩
  · exact isOpen.isPhrase_ternary hYes.1 hNo.1 present _ _
  · have same : k = j₄ := resumes.2 (by omega)
    have ends := hNo.2.resolve_left (same ▸ notAtEnd)
    refine Statement.isOpen_of_left ?_
    show leftOperand? false (some (.ternary _)) = none
    rw [Option.eq_none_iff_forall_ne_some]
    intro l hl
    rw [leftOperand?] at hl
    obtain ⟨_, _, n, _, _, hn, _⟩ := operand?_ternary_eq_some.mp hl
    rw [ends.expr?] at hn
    cases hn

theorem tells_operation (isOpen : statement.IsOpen d) :
    Parser.Ends T True (d + 1) (operation parse statement) j (PhraseGoes T d j) := by
  refine .get fun c hc hj => .ensure fun admitted => ?_
  have value : c.value = T.value j := by rw [Cursor.value, hc.tokens, hj]
  have sign : statement.left = none → signs.contains (T.value j) = true := by
    intro noLeft
    rwa [noLeft, admitsOperator, value] at admitted
  refine .ite (fun starts => tells_ternary h isOpen ?_) fun _ => ?_
  · rw [hc.tokens, hj, TokenStream.startsTernary, Bool.and_eq_true, beq_iff_eq] at starts
    rw [Option.isSome_iff_ne_none]
    intro noLeft
    have sign := sign noLeft
    rw [starts.1] at sign
    exact absurd sign (by decide)
  · refine ((h.read .operator j).and (h.tells .operator j)).bind fun use j₂ le₂ good => ?_
    obtain ⟨read, deep, told⟩ := good
    have moved : j < j₂ := read.moves
    refine .ite (fun step => ?_) fun step => ?_
    · rw [Bool.and_eq_true] at step
      refine .get fun c₂ hc₂ hj₂ => ?_
      have test : (c₂.isEof || Keyword.statementEnds.contains c₂.value) = true ↔ T.AtEnd j₂ := by
        rw [Bool.or_eq_true, hc₂.isEof_iff, Cursor.value, hc₂.tokens, hj₂]
        exact Iff.rfl
      refine ends_proceed fun k resumes _ _ => ?_
      obtain rfl := resumes.2 moved
      unfold attachStep
      split
      · rename_i atEnd
        exact ⟨fun _ => isOpen.isPhrase_step deep step.1 step.2,
          fun notAtEnd => absurd (test.mp atEnd) notAtEnd⟩
      · rename_i notAtEnd
        exact ⟨fun atEnd => absurd (test.mpr atEnd) notAtEnd,
          fun _ => isOpen.isOpen_step deep step.1 step.2⟩
    · refine (tells_statements h j₂).bind fun right j₃ le₃ hRight => ?_
      refine .ensureElse fun operand => ?_
      refine ends_proceed fun k resumes _ _ => ⟨fun _ => ?_, fun notAtEnd => ?_⟩
      · exact isOpen.isPhrase_combine deep hRight.1 operand step fun noLeft => told (sign noLeft)
      · have same : k = j₃ := resumes.2 (by omega)
        have ends := hRight.2.resolve_left (same ▸ notAtEnd)
        rw [ends.combine]
        exact isOpen.isOpen_attach ends

end Rules

theorem tells_statement (shallow : d < maxParserDepth) :
    Parser.Ends T True (d + 1) (statement parse) i fun s j =>
      (T.AtEnd j ∧ s.IsPhrase d) ∨ s.EndsItself := by
  refine ends_parse (I := PhraseGot T d) (S := PhraseEnd T d) (fun _ _ mem => by cases mem)
    (fun j _ _ _ => ?_) (fun _ got => ⟨rfl, .inl ⟨.inl (Nat.le_refl _), got.atEnd (.inl (Nat.le_refl _))⟩⟩)
    ?_ (fun _ _ _ ended => .pure ended.2) fun _ _ _ _ _ _ ended => by cases ended.1
  · refine (ends_leadingAnnotations h.toEnds).bind fun annotations j₁ _ _ => ?_
    refine (tells_leading h).bind fun node? j₂ _ told => .ite (fun selfEnded => ?_) fun _ => ?_
    · cases node? with
      | none => cases selfEnded
      | some node => exact ends_stop ⟨rfl, .inr ⟨node, j, annotations, selfEnded, rfl⟩⟩
    · have got := Statement.isPhrase_of_first (s := { Statement.empty j with
        left := node?, annotations := annotations }) shallow rfl rfl rfl told
      exact ends_proceed (ends_runSteps_nil ⟨fun _ => got.1, fun _ => got.2⟩)
  · intro s j _ lt got
    have isOpen (values : List String) (mem : T.value j ∈ values)
        (apart : ∀ v ∈ values, Keyword.statementEnds.contains v = false) : s.IsOpen d :=
      got.onward (TokenStream.not_atEnd_of_mem lt mem apart)
    simp only [statementGrammar, List.forall_mem_cons]
    refine ⟨fun accepts => ?_, fun _ => tells_continuation h, fun _ => tells_continuation h,
      fun ends => ends_stop ⟨rfl, .inl ⟨.inr ends, got.atEnd (.inr ends)⟩⟩,
      fun _ => tells_leadingChain h, fun accepts => ?_, fun _ mem => by cases mem⟩
    · refine tells_parenthesis h shallow (isOpen ["("] ?_ (by decide))
      rw [eq_of_beq accepts]
      exact List.mem_singleton_self _
    · exact tells_operation h (isOpen _ (List.contains_iff_mem.mp accepts) (by decide))

end Statements

end Construct

/-! ### All constructs -/

variable {T : TokenStream} {d : Nat}

theorem Production.tells_parser {parse : Family} (shallow : d < maxParserDepth)
    (h : parse.Tells T (d + 1)) (p : Production) (i : Nat) :
    Parser.Ends T True (d + 1) (p.parser parse) i fun r j =>
      d < maxParserDepth ∧ p.Tells T d i r j := by
  cases p with
  | statement => exact (Construct.tells_statement h shallow).mono fun _ _ _ told => ⟨shallow, told⟩
  | reference =>
    exact (Construct.tells_reference (h.plain trivial)).mono fun _ _ _ told => ⟨shallow, told⟩
  | literal => exact (Construct.tells_literal h).mono fun _ _ _ told => ⟨shallow, told⟩
  | operator => exact (Construct.tells_operator h.tokens).mono fun _ _ _ told => ⟨shallow, told⟩
  | _ => exact (Production.ends_parser h.toEnds _ i).mono fun _ _ _ _ => ⟨shallow, trivial⟩

/-- **What is read as an expression is a phrase,** at any depth. -/
theorem tells_parseAt (linked : T.IsLinked) (plain : T.HasPlainWords) (tokens : T.HasTokens)
    (levels d : Nat) (enough : maxParserDepth ≤ d + levels) :
    Family.Tells T d (parseAt (levels + 1)) := by
  refine ⟨ends_parseAt linked (fun _ => plain) (fun _ => T.spells_true) levels d enough, tokens, fun p i => ?_⟩
  induction levels generalizing d p i with
  | zero => exact .nested fun shallow => by omega
  | succ levels ih =>
    refine .nested fun shallow => Production.tells_parser shallow ⟨?_, tokens, fun p i => ?_⟩ p i
    · exact ends_parseAt linked (fun _ => plain) (fun _ => T.spells_true) levels (d + 1) (by omega)
    · exact ih (d + 1) (by omega) p i

end Javascribe
