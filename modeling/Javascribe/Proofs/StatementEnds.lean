/-
# Statements, declarations and files end

The constructs that hold statements, up to whole files. Attaching operators and
casts moves operands, and what fits stays so. With statements the parsers of
all constructs end at any depth (`ends_parseAt`): each is tried one level
deeper than what it stands in, and there are as many levels as may be nested.

Key theorems: `Tree.fits_combine`, `Tree.fits_applyCast`,
`Construct.ends_statement`, `Construct.ends_block`, `Construct.ends_tryCatch`,
`Construct.ends_body`, `Construct.ends_file`, `ends_parseAt`.
-/
import Javascribe.Proofs.ConstructEnds
import Javascribe.Proofs.Precedence

namespace Javascribe

open Javascribe.Parser Javascribe.Tree

namespace Tree

variable {n : Nat} {P : String → Prop}

theorem isIndex_headLink (node : Node) : (Construct.headLink node).isIndex = false := by
  cases node <;> rfl

theorem isType_headLink (node : Node) : (Construct.headLink node).isType = false := by
  cases node <;> rfl

theorem wellShaped_headLink {node : Node} (h : node.WellShaped n) :
    (Construct.headLink node).WellShaped n := by
  cases h with
  | reference h => exact .reference h
  | call h => exact .call h
  | _ => exact .head (by constructor; assumption)

/-- Links that continue a value make a chain with it. -/
theorem Chain.IsTail.fits_cons {chain : Chain} {node : Node} {token : Nat} (h : chain.IsTail n)
    (named : ∀ p ∈ chain.properties, p.Named P) (hNode : node.Fits n P) (lt : token < n) :
    Node.Fits n P (.chain ⟨Construct.headLink node :: chain.properties, token⟩) := by
  refine ⟨.chain ⟨⟨List.cons_ne_nil _ _, fun _ mem => ?_, h.head, ?_⟩, ?_, lt⟩, .chain ?_⟩
  · cases mem
    exact isIndex_headLink node
  · rw [List.dropLast_cons_of_ne_nil h.nonempty]
    exact List.forall_mem_cons.mpr ⟨isType_headLink node, h.type⟩
  · exact List.forall_mem_cons.mpr ⟨wellShaped_headLink hNode.1, h.properties⟩
  · exact List.forall_mem_cons.mpr ⟨named_headLink hNode.2, named⟩

/-- Links that do not start with an index are a chain by themselves. -/
theorem Chain.IsTail.wellShaped {chain : Chain} (h : chain.IsTail n)
    (first : ∀ property ∈ chain.properties.head?, property.isIndex = false) :
    chain.WellShaped n :=
  ⟨⟨h.nonempty, first, fun p mem => h.head p (List.mem_of_mem_tail mem), h.type⟩, h.properties, h.token⟩

/-- A statement fits if its parts do. -/
theorem fits_parts_iff {s : Statement} : s.Fits n P ↔ (∀ node ∈ s.left, node.Fits n P) ∧
    (∀ use ∈ s.operator, use.token < n) ∧ (∀ r ∈ s.right, r.Fits n P) ∧
    (∀ type ∈ s.cast, type.WellShaped n) ∧ (∀ a ∈ s.annotations, a.WellShaped n) ∧ s.token < n := by
  constructor
  · rintro ⟨⟨left, operator, right, cast, annotations, token⟩, leftNamed, rightNamed⟩
    exact ⟨fun node mem => ⟨left node mem, leftNamed node mem⟩, operator,
      fun r mem => ⟨right r mem, rightNamed r mem⟩, cast, annotations, token⟩
  · rintro ⟨left, operator, right, cast, annotations, token⟩
    exact ⟨⟨fun node mem => (left node mem).1, operator, fun r mem => (right r mem).1, cast,
      annotations, token⟩, fun node mem => (left node mem).2, fun r mem => (right r mem).2⟩

theorem fits_statement {s : Statement} : Node.Fits n P (.statement s) ↔ s.Fits n P := by
  constructor
  · rintro ⟨⟨shape⟩, ⟨named⟩⟩
    exact ⟨shape, named⟩
  · exact fun h => ⟨.statement h.1, .statement h.2⟩

theorem fits_ternary {condition yes no : Statement} {token : Nat} :
    Node.Fits n P (.ternary ⟨condition, yes, no, token⟩) ↔
      condition.Fits n P ∧ yes.Fits n P ∧ no.Fits n P ∧ token < n := by
  constructor
  · intro h
    have ⟨.ternary ⟨condition, yes, no, lt⟩, .ternary condition' yes' no'⟩ := h
    exact ⟨⟨condition, condition'⟩, ⟨yes, yes'⟩, ⟨no, no'⟩, lt⟩
  · rintro ⟨condition, yes, no, lt⟩
    exact ⟨.ternary ⟨condition.1, yes.1, no.1, lt⟩, .ternary condition.2 yes.2 no.2⟩

theorem fits_ofNode {node : Node} {token : Nat} (h : node.Fits n P) (lt : token < n) :
    (Statement.ofNode node token).Fits n P :=
  fits_parts_iff.mpr ⟨forall_mem_some h, forall_mem_none, forall_mem_none, forall_mem_none,
    List.forall_mem_nil _, lt⟩

section Parts

variable {statement : Statement} (h : statement.Fits n P)
include h

theorem fits_left {node : Node} (hNode : node.Fits n P) :
    { statement with left := some node }.Fits n P :=
  fits_parts_iff.mpr ⟨forall_mem_some hNode, (fits_parts_iff.mp h).2⟩

theorem fits_annotations {noted : List AnnotationUse} (hNoted : ∀ a ∈ noted, a.WellShaped n) :
    { statement with annotations := noted }.Fits n P := by
  have ⟨left, operator, right, cast, _, token⟩ := fits_parts_iff.mp h
  exact fits_parts_iff.mpr ⟨left, operator, right, cast, hNoted, token⟩

theorem fits_parenthesized : { statement with isParenthesized := true }.Fits n P := by
  have parts := fits_parts_iff.mp h
  exact fits_parts_iff.mpr parts

theorem fits_attachStep (cursor : Cursor) {operator : OperatorUse} (lt : operator.token < n) :
    (Construct.attachStep cursor operator statement).Fits n P := by
  have ⟨left, _, right, cast, annotations, token⟩ := fits_parts_iff.mp h
  unfold Construct.attachStep
  split
  · exact fits_parts_iff.mpr ⟨left, forall_mem_some lt, right, cast, annotations, token⟩
  · exact fits_left h (fits_statement.mpr (fits_parts_iff.mpr
      ⟨left, forall_mem_some lt, forall_mem_none, forall_mem_none, List.forall_mem_nil _, token⟩))

/-- A statement that takes over the operands of another. -/
theorem fits_operands {other : Statement} (hOther : other.Fits n P) :
    { statement with
      left := other.left, operator := other.operator, right := other.right }.Fits n P := by
  have ⟨left, operator, right, _⟩ := fits_parts_iff.mp hOther
  exact fits_parts_iff.mpr ⟨left, operator, right, (fits_parts_iff.mp h).2.2.2⟩

end Parts

/-- Attaching an operator moves operands. -/
theorem fits_combine {left : Option Node} {operator : OperatorUse} {token : Nat} {right : Statement}
    (hLeft : ∀ node ∈ left, node.Fits n P) (lt : operator.token < n) (lt' : token < n)
    (hRight : right.Fits n P) : (combine left operator token right).Fits n P := by
  have attached {s : Statement} (h : s.Fits n P) : (attach left operator s token).Fits n P :=
    fits_parts_iff.mpr
      ⟨hLeft, forall_mem_some lt, forall_mem_some h, forall_mem_none, List.forall_mem_nil _, lt'⟩
  have taken {condition c yes no : Statement} {at' : Nat} (moved : condition.Fits n P → c.Fits n P)
      (h : Node.Fits n P (.ternary ⟨condition, yes, no, at'⟩)) :
      (Statement.ofNode (.ternary ⟨c, yes, no, token⟩) token).Fits n P := by
    obtain ⟨hCondition, hYes, hNo, _⟩ := fits_ternary.mp h
    exact fits_ofNode (fits_ternary.mpr ⟨moved hCondition, hYes, hNo, lt'⟩) lt'
  refine (combine_induction left operator token (P := fun s result => s.Fits n P → result.Fits n P)
    (Q := fun start node result => start < n → node.Fits n P → result.Fits n P)
    ?_ ?_ ?_ ?_ ?_ ?_).1 right hRight
  · exact fun _ _ => attached
  · intro s _ _ _ _ _ isLeft _ moved h
    exact taken moved ((fits_parts_iff.mp h).1 _ isLeft)
  · intro s node next rest _ isLeft isNext isRest _ moved h
    obtain ⟨hNode, hNext, hRest, -, -, lt⟩ := fits_parts_iff.mp h
    rw [isNext] at hNext
    rw [isRest] at hRest
    exact fits_parts_iff.mpr ⟨forall_mem_some (fits_statement.mpr (moved lt (hNode node isLeft))),
      hNext, hRest, forall_mem_none, List.forall_mem_nil _, lt'⟩
  · exact fun _ _ _ lt h => attached (fits_ofNode h lt)
  · exact fun _ _ moved _ _ h => moved (fits_statement.mp h)
  · exact fun _ _ _ _ _ moved _ => taken moved

/-- A cast goes to the first operand. -/
theorem fits_applyCast {type : TypeRef} {token : Nat} {value : Statement}
    (hType : type.WellShaped n) (lt : token < n) (hValue : value.Fits n P) :
    (applyCast type token value).Fits n P := by
  have cast {node : Node} (h : node.Fits n P) :
      { Statement.ofNode node token with cast := some type }.Fits n P :=
    fits_parts_iff.mpr ⟨forall_mem_some h, forall_mem_none, forall_mem_none, forall_mem_some hType,
      List.forall_mem_nil _, lt⟩
  have whole {s : Statement} (h : s.Fits n P) :
      (if s.isSimple && !s.isParenthesized then
        { Statement.empty token with left := s.left, cast := some type }
        else { Statement.ofNode (.statement s) token with cast := some type }).Fits n P := by
    split
    · exact fits_parts_iff.mpr ⟨(fits_parts_iff.mp h).1, forall_mem_none, forall_mem_none,
        forall_mem_some hType, List.forall_mem_nil _, lt⟩
    · exact cast (fits_statement.mpr h)
  refine (applyCast.mutual_induct type token
    (fun s => s.Fits n P → (applyCast type token s).Fits n P)
    (fun node => node.Fits n P → (castOperand type token node).Fits n P)
    ?_ ?_ ?_ ?_ ?_ ?_).1 value hValue
  · intro _ _ _ _ _ _ _ _ grouped h
    rw [applyCast, if_pos grouped]
    exact whole h
  · intro _ _ _ _ node _ _ _ grouped moved h
    rw [applyCast, if_neg grouped]
    obtain ⟨hNode, hOperator, hRight, hCast, hNoted, _⟩ := fits_parts_iff.mp h
    exact fits_parts_iff.mpr ⟨forall_mem_some (fits_statement.mpr (moved (hNode node rfl))), hOperator,
      hRight, hCast, hNoted, lt⟩
  · intro _ _ _ _ _ _ _ single h
    rw [applyCast]
    · exact whole h
    · exact single
  · intro s grouped h
    rw [castOperand, if_pos grouped]
    exact cast h
  · intro s grouped moved h
    rw [castOperand, if_neg grouped]
    exact moved (fits_statement.mp h)
  · intro node single h
    rw [castOperand]
    · exact cast h
    · exact single

/-- Members are added to a class. -/
theorem fits_absorb {c : ClassDecl} (h : c.Fits n P) {body : ObjectBody} (hBody : body.Fits n P) :
    (c.absorb body).Fits n P := by
  refine ⟨wellShaped_absorb h.1 hBody.1, named_absorb h.2.1 hBody.2.1, ?_⟩
  rw [declaredNames_absorb]
  exact List.forall_mem_append.mpr ⟨h.2.2, hBody.2.2⟩

end Tree

namespace Construct

open TokenStream (lt_size)
open Grammar (Goes ends_proceed ends_stop ends_finish ends_runSteps_nil ends_runSteps_cons ends_parse
  ends_parse_kept)

variable {T : TokenStream} {K : Prop} {P : String → Prop} {d i : Nat} {parse : Family}
  (h : parse.Ends T K P d)

/-! ### Statements -/

theorem lt_of_startsLiteral (linked : T.IsLinked) (starts : T.startsLiteral i = true) :
    i < T.eof := by
  by_cases lt : i < T.eof
  · exact lt
  · have le := Nat.not_lt.mp lt
    have eof := (linked.isEof_iff i).mpr le
    rw [TokenStream.isEof, beq_iff_eq] at eof
    rw [TokenStream.startsLiteral, TokenStream.isNumber, eof, linked.value_of_le le] at starts
    cases starts

/-- What has been read of a statement. It may be empty. -/
structure StatementGot (T : TokenStream) (K : Prop) (P : String → Prop) (i : Nat)
    (statement : Statement) (k : Nat) : Prop where
  moved : statement.hasOperand = true → i < k
  shaped : K → statement.Fits T.size P

include h

theorem ends_leadingAnnotations :
    Ends T K d (leadingAnnotations parse) i fun annotations _ =>
      K → ∀ a ∈ annotations, a.WellShaped T.size := by
  refine .iterate (I := fun annotations _ => K → ∀ a ∈ annotations, a.WellShaped T.size)
    (fun annotations j _ shaped => ?_) fun _ => nofun
  refine .isAt ?_ ?_
  · refine (h.read .annotationUse j).bind fun noted j₂ _ read => ?_
    exact .pure ⟨read.moves,
      fun k => List.forall_mem_cons.mpr ⟨read.shaped k, shaped k⟩⟩
  · exact .pure fun k a mem => shaped k a (List.mem_reverse.mp mem)

theorem ends_leading :
    Ends T K d (leading parse) i fun node? j =>
      (node?.isSome = true → i < j) ∧ (K → ∀ node ∈ node?, node.Fits T.size P) := by
  have read (p : Production) (f : p.Result → Node)
      (fits : ∀ r, p.Shaped T P i r → (f r).Fits T.size P)
      (moves : ∀ r j, p.Moves T i r j → i < j := by exact fun _ _ moves => moves) :
      Ends T K d ((fun r => some (f r)) <$> parse p) i fun node? j =>
        (node?.isSome = true → i < j) ∧ (K → ∀ node ∈ node?, node.Fits T.size P) :=
    .map ((h.read p i).mono fun r j _ read => ⟨fun _ => moves r j read.moves, fun k =>
      forall_mem_some (fits r (read.shaped k))⟩)
  refine .get fun c hc hi => ?_
  dsimp only
  refine .ite (fun _ => read .instruction _ fun _ => .imp .instruction id) fun _ => ?_
  refine .ite (fun _ => read .assertion _ fun _ => .imp .assertion id) fun _ => ?_
  refine .ite (fun starts => ?_) fun _ => ?_
  · rw [hc.tokens, hi] at starts
    exact read .literal _ (fun _ => .imp .literal id) fun _ _ h =>
      h (lt_of_startsLiteral hc.linked starts)
  refine .ite (fun _ => read .lambda _ fun _ => .imp .lambda id) fun _ => ?_
  refine .ite (fun _ => read .reference _ fun _ => .imp .reference .reference) fun _ => ?_
  refine .ite (fun _ => read .call _ fun _ => .imp .call id) fun _ => ?_
  refine .ite (fun _ => read .instantiation _ fun _ => .imp .instantiation id) fun _ => ?_
  refine .ite (fun _ => read .classDecl _ fun _ => .imp .classDecl (·.1)) fun _ => ?_
  refine .ite (fun _ => read .declaration _ fun _ => .imp .declaration .declaration) fun _ => ?_
  refine .ite (fun _ => read .ifElse _ fun _ => .imp .ifElse id) fun _ => ?_
  refine .ite (fun _ => read .forLoop _ fun _ => .imp .forLoop id) fun _ => ?_
  refine .ite (fun _ => read .whileLoop _ fun _ => .imp .whileLoop id) fun _ => ?_
  refine .ite (fun _ => read .doWhileLoop _ fun _ => .imp .doWhileLoop id) fun _ => ?_
  refine .ite (fun _ => read .switch _ fun _ => .imp .switch id) fun _ => ?_
  refine .ite (fun _ => read .tryCatch _ fun _ => .imp .tryCatch id) fun _ => ?_
  exact .pure ⟨nofun, fun _ => nofun⟩

section Rules

variable {statement : Statement} {j : Nat} (got : StatementGot T K P i statement j) (le : i ≤ j)

/-- Rules of a statement move the cursor, so that only its shape has to be shown. -/
abbrev StatementGoes (T : TokenStream) (K : Prop) (P : String → Prop) (i start : Nat) :
    Statement × Signal → Nat → Prop :=
  Goes T start (StatementGot T K P i) fun statement _ => StatementGot T K P i statement

omit h in
include le in
theorem ends_proceedShaped {k : Nat} (shaped : K → statement.Fits T.size P) :
    Ends T K d (proceed statement) k (StatementGoes T K P i j) :=
  ends_proceed fun _ _ further _ => ⟨fun _ => Nat.lt_of_le_of_lt le further, shaped⟩

include got le

theorem ends_parenthesis :
    Ends T K d (parenthesis parse statement) j (StatementGoes T K P i j) := by
  have shaped := got.shaped
  unfold parenthesis
  split
  · rename_i left found
    refine .ensure fun _ => (h.read .call j).bind fun call j₂ _ read => ?_
    refine ends_proceedShaped le fun k => fits_left (shaped k) ?_
    have ⟨⟨hLeft, _, _, _, _, token⟩, ⟨leftNamed, _⟩⟩ := shaped k
    have tail : Chain.IsTail T.size ⟨[.call call], statement.token⟩ :=
      ⟨List.cons_ne_nil _ _, List.forall_mem_singleton.mpr rfl, nofun,
        List.forall_mem_singleton.mpr (.call (read.shaped k).1), token⟩
    exact tail.fits_cons (List.forall_mem_singleton.mpr (.call (read.shaped k).2))
      ⟨hLeft left found, leftNamed left found⟩ token
  · refine .ensure fun _ => .get fun c _ _ => .next fun j₂ _ _ => ?_
    refine .ite (fun _ => ?_) fun _ => ?_
    · refine (ends_types h j₂).bind fun type j₃ _ hType => .eat fun j₄ _ => ?_
      refine (ends_statements h j₄).bind fun value _ _ hValue => ends_proceedShaped le fun k => ?_
      have ⟨⟨_, _, _, _, annotations, token⟩, _⟩ := shaped k
      exact fits_annotations (fits_applyCast (hType k).1 token (hValue k)) annotations
    · refine (ends_statements h j₂).bind fun inner j₃ _ hInner => .eat fun _ _ => ?_
      refine ends_proceedShaped le fun k => fits_left (shaped k) ?_
      exact fits_statement.mpr (fits_parenthesized (hInner k))

theorem ends_continuation :
    Ends T K d (continuation parse statement) j (StatementGoes T K P i j) := by
  have shaped := got.shaped
  unfold continuation
  split
  · exact ends_unexpected
  · rename_i left found
    refine .ensure fun _ => (h.read .chain j).bind fun chain _ _ read => ?_
    refine ends_proceedShaped le fun k => fits_left (shaped k) ?_
    have ⟨⟨hLeft, _, _, _, _, token⟩, ⟨leftNamed, _⟩⟩ := shaped k
    have ⟨⟨tail, named⟩, _⟩ := read.shaped k
    exact tail.fits_cons named ⟨hLeft left found, leftNamed left found⟩ token

theorem ends_leadingChain (starts : T.startsChain j = true) :
    Ends T K d (leadingChain parse statement) j (StatementGoes T K P i j) := by
  have shaped := got.shaped
  have word : T.isWord j = true := by
    rw [TokenStream.startsChain, Bool.and_eq_true, Bool.and_eq_true] at starts
    exact starts.1.1
  refine .ensure fun _ => (h.read .chain j).bind fun chain j₂ _ read => ?_
  split
  · rename_i type last
    refine (ends_name h).bind fun name _ _ hName => ends_proceedShaped le fun k => ?_
    have ⟨⟨tail, _⟩, _⟩ := read.shaped k
    have .type ⟨names, _, arguments⟩ := tail.properties _ (List.mem_of_getLast? last)
    refine fits_left (shaped k) ⟨.declaration ⟨⟨?_, tail.token, arguments⟩, tail.token⟩,
      .declaration (hName.2 k)⟩
    exact List.append_ne_nil_of_right_ne_nil _ names
  · refine ends_proceedShaped le fun k => fits_left (shaped k) ?_
    have ⟨⟨tail, named⟩, first⟩ := read.shaped k
    exact ⟨.chain (tail.wellShaped (first word)), .chain named⟩

theorem ends_ternary :
    Ends T K d (ternary parse statement) j (StatementGoes T K P i j) := by
  have shaped := got.shaped
  refine .eat fun j₁ _ => (ends_statements h j₁).bind fun yes j₂ _ hYes => ?_
  refine .eat fun j₃ _ => (ends_statements h j₃).bind fun no _ _ hNo => ?_
  refine ends_proceedShaped le fun k => ?_
  have ⟨⟨_, _, _, _, annotations, token⟩, _⟩ := shaped k
  have condition := fits_annotations (shaped k) (List.forall_mem_nil _)
  exact fits_annotations (fits_ofNode (fits_ternary.mpr ⟨condition, hYes k, hNo k, token⟩) token)
    annotations

theorem ends_operation :
    Ends T K d (operation parse statement) j (StatementGoes T K P i j) := by
  have shaped := got.shaped
  refine .get fun c _ _ => .ensure fun _ => ?_
  refine .ite (fun _ => ends_ternary h got le) fun _ => ?_
  refine (h.read .operator j).bind fun operator j₂ _ read => .ite (fun _ => ?_) fun _ => ?_
  · exact .get fun c _ _ => ends_proceedShaped le fun k => fits_attachStep (shaped k) c (read.shaped k)
  · refine (ends_statements h j₂).bind fun right j₃ _ hRight => ?_
    refine .ensureElse fun _ => ends_proceedShaped le fun k => ?_
    have ⟨hLeft, _, _, _, _, token⟩ := fits_parts_iff.mp (shaped k)
    exact fits_operands (shaped k) (fits_combine hLeft (read.shaped k) token (hRight k))

end Rules

theorem ends_statement :
    Ends T K d (statement parse) i (Production.Reads T K P .statement i) := by
  refine ends_parse_kept (I := StatementGot T K P i) (fun _ => List.forall_mem_nil _)
    (fun j le inside _ => ?_) ?_ fun s j k le got =>
      .pure ⟨fun operand => Nat.lt_of_lt_of_le (got.moved operand) le, got.shaped⟩
  · refine (ends_leadingAnnotations h).bind fun annotations j₁ le₁ noted => ?_
    refine (ends_leading h).bind fun node? j₂ le₂ read => ?_
    have got : StatementGot T K P i
        { Statement.empty j with left := node?, annotations := annotations } j₂ := by
      refine ⟨fun operand => ?_, fun k => fits_parts_iff.mpr ⟨read.2 k, forall_mem_none,
        forall_mem_none, forall_mem_none, noted k, lt_size inside⟩⟩
      have some : node?.isSome = true := by
        simpa [Statement.hasOperand, Statement.empty] using operand
      exact Nat.lt_of_le_of_lt (Nat.le_trans le le₁) (read.1 some)
    refine .ite (fun _ => ends_stop got) fun _ => ?_
    exact ends_proceed (ends_runSteps_nil got)
  · intro s j le _ got
    simp only [statementGrammar, List.forall_mem_cons]
    exact ⟨fun _ => ends_parenthesis h got le, fun _ => ends_continuation h got le,
      fun _ => ends_continuation h got le, fun _ => ends_stop got,
      fun starts => ends_leadingChain h got le starts, fun _ => ends_operation h got le,
      List.forall_mem_nil _⟩

/-! ### Blocks, instructions and conditions -/

theorem ends_filledStatement :
    Ends T K d (filledStatement parse) i (Got K (Statement.Fits T.size P) i) :=
  (h.read .statement i).bind fun _ _ _ read => .ensure fun operand =>
    .pure ⟨read.moves operand, read.shaped⟩

/-- What has been read of a block. Past an opening brace the cursor has moved. -/
structure BlockGot (T : TokenStream) (K : Prop) (P : String → Prop) (i : Nat) (draft : BlockDraft)
    (k : Nat) : Prop where
  moved : T.value i = "\x7b" → i < k
  shaped : K → draft.block.Fits T.size P

theorem ends_block : Ends T K d (block parse) i (Production.Reads T K P .block i) := by
  have completed (draft : BlockDraft) (j k : Nat) (le : j ≤ k) (got : BlockGot T K P i draft j) :
      Ends T K d ((blockGrammar parse).complete draft) k (Production.Reads T K P .block i) :=
    .ensure fun _ => .pure ⟨fun brace => by
      have lt := got.moved brace
      show i < k
      omega, got.shaped⟩
  refine ends_parse_kept (I := BlockGot T K P i) (fun _ => nofun)
    (fun j le inside _ => ?_) ?_ completed
  · have shaped (_ : K) : Block.Fits T.size P ⟨[], j⟩ :=
      ⟨⟨nofun, lt_size inside⟩, ⟨List.forall_mem_nil _⟩⟩
    refine ends_proceed (ends_runSteps_cons (·.literal_eof) ?_ ?_)
    · refine fun _ _ => ends_proceed fun k _ further _ => ends_runSteps_nil ?_
      exact ⟨fun _ => by omega, shaped⟩
    · refine fun _ other => ends_runSteps_nil ⟨fun brace => Nat.lt_of_le_of_ne le ?_, shaped⟩
      rintro rfl
      exact absurd brace (ne_of_beq_false other)
  · intro draft j le _ got
    simp only [blockGrammar, List.forall_mem_cons]
    refine ⟨fun _ => ?_, fun _ => ?_, fun _ => ?_, nofun⟩
    · exact ends_proceed fun k _ further _ => ⟨fun _ => by omega, got.shaped⟩
    · exact ends_finish ⟨got.moved, got.shaped⟩
    · refine (ends_filledStatement h).bind fun s j₁ _ read => ?_
      refine ends_proceed fun k _ further _ => ⟨fun _ => by omega, fun k => ?_⟩
      have ⟨⟨statements, token⟩, ⟨named⟩⟩ := got.shaped k
      exact ⟨⟨forall_mem_push statements (read.2 k).1, token⟩, ⟨forall_mem_push named (read.2 k).2⟩⟩

theorem ends_bodyBlock :
    Ends T K d (bodyBlock parse) i fun block _ => K → block.Fits T.size P := by
  refine .get fun c hc _ => .ite (fun _ => (h.read .block i).mono fun _ _ _ read => read.shaped) fun _ => ?_
  refine (ends_statements h i).bind fun s j _ shaped => ?_
  have block (k : Nat) : Ends T K d
      (if s.hasOperand = true then (return Block.mk [s] s.token : Parser Block)
        else return ⟨[], c.current⟩) k fun block _ => K → block.Fits T.size P := by
    refine .ite (fun _ => .pure fun k => ?_) fun _ => .pure fun _ => ?_
    · have ⟨shape, named⟩ := shaped k
      have ⟨_, _, _, _, _, token⟩ := shape
      exact ⟨⟨List.forall_mem_singleton.mpr shape, token⟩, ⟨List.forall_mem_singleton.mpr named⟩⟩
    · exact ⟨⟨nofun, lt_size hc.inside⟩, ⟨List.forall_mem_nil _⟩⟩
  refine (ends_allow (by decide)).bind fun _ k _ _ => .ite (fun _ => ?_) fun _ => block k
  exact .ensure fun _ => block k

theorem ends_condition :
    Ends T K d (condition parse) i (Got K (Statement.Fits T.size P) i) :=
  .eat fun j₁ _ => (ends_filledStatement h).bind fun _ j₂ _ got =>
    .eat fun j₃ _ => .pure ⟨by have := got.1; omega, got.2⟩

theorem ends_instruction :
    Ends T K d (instruction parse) i (Production.Reads T K P .instruction i) := by
  refine .construct fun token le inside _ => .get fun c hc hj => ?_
  split
  · exact ends_unexpected
  · rename_i kind found
    have lt : token < T.eof := by
      refine h.linked.lt_of_value_ne fun empty => ?_
      rw [Cursor.value, hc.tokens, hj, empty] at found
      cases found
    refine .next fun j _ moved => ?_
    have moved := moved lt
    refine .get fun c _ _ => .ite (fun _ => ?_) fun _ => ?_
    · exact .pure ⟨show i < j by omega, fun _ =>
        ⟨⟨forall_mem_none, lt_size inside⟩, .instruction forall_mem_none⟩⟩
    · refine (ends_statements h j).bind fun s j₁ _ shaped => ?_
      exact .pure ⟨show i < j₁ by omega, fun k =>
        ⟨⟨forall_mem_some (shaped k).1, lt_size inside⟩,
          .instruction (forall_mem_some (shaped k).2)⟩⟩

theorem ends_someStatement :
    Ends T K d (some <$> parse .statement) i fun s? _ =>
      K → ∀ s ∈ s?, Statement.Fits T.size P s :=
  .map ((ends_statements h i).mono fun _ _ _ shaped k => forall_mem_some (shaped k))

theorem ends_assertion :
    Ends T K d (assertion parse) i (Production.Reads T K P .assertion i) := by
  refine .construct fun token le inside _ => .eat fun j₁ _ => ?_
  refine (ends_statements h j₁).bind fun condition j₂ _ hCondition => ?_
  have rest (message : Option Statement) (j : Nat) (le : j₂ ≤ j)
      (hMessage : K → ∀ s ∈ message, Statement.Fits T.size P s) : Ends T K d
        (return Assertion.mk condition message token) j (Production.Reads T K P .assertion i) := by
    refine .pure ⟨show i < j by omega, fun k => ?_⟩
    have ⟨hMessage, named⟩ := forall₂_and.mp (hMessage k)
    exact ⟨⟨(hCondition k).1, hMessage, lt_size inside⟩,
      .assertion (hCondition k).2 named⟩
  refine .allow (fun j₃ le₃ => ?_) (rest none j₂ (Nat.le_refl j₂) fun _ => nofun)
  exact (ends_someStatement h).bind fun message j₄ le₄ hMessage => rest message j₄ (by omega) hMessage

/-! ### Loops -/

theorem ends_statementUnless (close : String) :
    Ends T K d (statementUnless parse close) i fun s? _ =>
      K → ∀ s ∈ s?, Statement.Fits T.size P s :=
  .isAt (.pure fun _ => nofun) (ends_someStatement h)

theorem ends_forLoop : Ends T K d (forLoop parse) i (Production.Reads T K P .forLoop i) := by
  refine .construct fun token le inside _ => .eat fun j₁ _ => ?_
  refine .eat fun j₂ _ => (ends_statementUnless h _).bind
    fun initialization j₃ _ hInitialization => ?_
  have token := lt_size inside
  refine .isAt ?_ ?_
  · refine .ensure fun some => .next fun j₆ _ _ => ?_
    refine (ends_statements h j₆).bind fun iterable j₇ _ hIterable => ?_
    refine .eat fun j₈ _ => (ends_bodyBlock h).bind fun block j₉ _ hBlock => ?_
    refine .pure ⟨show i < j₉ by omega, fun k => ?_⟩
    have ⟨initialization, named⟩ := forall₂_and.mp (hInitialization k)
    exact ⟨⟨⟨rfl, fun _ => some, fun _ => rfl, fun _ => rfl⟩, initialization, nofun, nofun,
      forall_mem_some (hIterable k).1, (hBlock k).1, token⟩,
      .forLoop named forall_mem_none forall_mem_none (forall_mem_some (hIterable k).2) (hBlock k).2⟩
  · refine .eat fun j₅ _ => (ends_statementUnless h _).bind
      fun condition j₆ _ hCondition => .eat fun j₇ _ => ?_
    refine (ends_statementUnless h _).bind fun increment j₈ _ hIncrement => ?_
    refine .eat fun j₉ _ => (ends_bodyBlock h).bind fun block j₁₀ _ hBlock => ?_
    refine .pure ⟨show i < j₁₀ by omega, fun k => ?_⟩
    have ⟨initialization, named⟩ := forall₂_and.mp (hInitialization k)
    have ⟨condition, named₁⟩ := forall₂_and.mp (hCondition k)
    have ⟨increment, named₂⟩ := forall₂_and.mp (hIncrement k)
    exact ⟨⟨⟨rfl, nofun, nofun, nofun⟩, initialization, condition, increment, nofun, (hBlock k).1,
      token⟩, .forLoop named named₁ named₂ forall_mem_none (hBlock k).2⟩

theorem ends_whileLoop :
    Ends T K d (whileLoop parse) i (Production.Reads T K P .whileLoop i) := by
  refine .construct fun token le inside _ => .eat fun j₁ _ => ?_
  refine (ends_condition h).bind fun condition j₂ _ got => (ends_bodyBlock h).bind fun block j₃ _ hBlock => ?_
  exact .pure ⟨show i < j₃ by omega, fun k => ⟨⟨(got.2 k).1, (hBlock k).1,
    lt_size inside⟩, .whileLoop (got.2 k).2 (hBlock k).2⟩⟩

theorem ends_doWhileLoop :
    Ends T K d (doWhileLoop parse) i (Production.Reads T K P .doWhileLoop i) := by
  refine .construct fun token le inside _ => .eat fun j₁ _ => ?_
  refine .ensureAt ((h.read .block j₁).bind fun block j₄ _ read => .eat fun j₅ _ => ?_)
  refine (ends_condition h).bind fun condition j₆ _ got => ?_
  exact .pure ⟨show i < j₆ by omega, fun k => ⟨⟨(read.shaped k).1, (got.2 k).1,
    lt_size inside⟩, .doWhileLoop (read.shaped k).2 (got.2 k).2⟩⟩

/-! ### Branches -/

theorem ends_ifElse : Ends T K d (ifElse parse) i (Production.Reads T K P .ifElse i) := by
  refine .construct fun token le inside _ => .eat fun j₁ _ => ?_
  refine (ends_condition h).bind fun condition j₂ _ got => (ends_bodyBlock h).bind fun block j₃ _ hBlock => ?_
  have token := lt_size inside
  have one (k : K) := List.forall_mem_singleton.mpr (got.2 k).1
  have oneNamed (k : K) := List.forall_mem_singleton.mpr (got.2 k).2
  refine .allow (fun j₅ _ => ?_) ?_
  · refine .isAt ?_ ?_
    · refine (h.read .ifElse j₅).bind fun rest j₆ _ read => ?_
      refine .pure ⟨show i < j₆ by omega, fun k => ?_⟩
      have ⟨⟨shape, conditions, blocks, _⟩, .ifElse namedConditions namedBlocks⟩ := read.shaped k
      refine ⟨⟨⟨List.cons_ne_nil _ _, ?_⟩, List.forall_mem_cons.mpr ⟨(got.2 k).1, conditions⟩,
        List.forall_mem_cons.mpr ⟨(hBlock k).1, blocks⟩, token⟩,
        .ifElse (List.forall_mem_cons.mpr ⟨(got.2 k).2, namedConditions⟩)
          (List.forall_mem_cons.mpr ⟨(hBlock k).2, namedBlocks⟩)⟩
      have lengths := shape.blocks
      simp only [List.length_cons]
      omega
    · refine (ends_bodyBlock h).bind fun other j₆ _ hOther => ?_
      refine .pure ⟨show i < j₆ by omega, fun k => ?_⟩
      have blocks : ∀ b ∈ [block, other], b.Fits T.size P :=
        List.forall_mem_cons.mpr ⟨hBlock k, List.forall_mem_singleton.mpr (hOther k)⟩
      have ⟨blocks, named⟩ := forall₂_and.mp blocks
      exact ⟨⟨⟨List.cons_ne_nil _ _, .inr rfl⟩, one k, blocks, token⟩, .ifElse (oneNamed k) named⟩
  · exact .pure ⟨show i < j₃ by omega, fun k => ⟨⟨⟨List.cons_ne_nil _ _, .inl rfl⟩, one k,
      List.forall_mem_singleton.mpr (hBlock k).1, token⟩,
      .ifElse (oneNamed k) (List.forall_mem_singleton.mpr (hBlock k).2)⟩⟩

theorem ends_caseBlock :
    Ends T K d (caseBlock parse) i fun block _ =>
      block.token = i ∧ (K → block.Fits T.size P) := by
  refine .get fun c hc hi => .iterate
    (I := fun statements _ => K → ∀ s ∈ statements, Statement.Fits T.size P s)
    (fun statements j _ shaped => .get fun c' hc' hj => ?_) fun _ => nofun
  refine .ite (fun _ => .pure ⟨hi, fun k => ?_⟩) fun _ => ?_
  · have ⟨statements, named⟩ := forall₂_and.mp (shaped k)
    exact ⟨⟨statements, lt_size hc.inside⟩, ⟨named⟩⟩
  refine .ite (fun semicolon => ?_) fun _ => .ite (fun brace => ?_) fun _ => ?_
  · rw [hc'.is_eq, hj, beq_iff_eq] at semicolon
    exact .next fun _ _ moved =>
      .pure ⟨moved (h.linked.lt_of_value_eq semicolon (by decide)), shaped⟩
  · rw [hc'.is_eq, hj, beq_iff_eq] at brace
    refine (h.read .block j).bind fun block _ _ read => .pure ⟨read.moves brace, fun k => ?_⟩
    have ⟨⟨statements, _⟩, ⟨named⟩⟩ := read.shaped k
    exact List.forall_mem_append.mpr ⟨shaped k, forall₂_and.mpr ⟨statements, named⟩⟩
  · refine (ends_filledStatement h).bind fun s _ _ got => .pure ⟨got.1, fun k => ?_⟩
    exact forall_mem_push (shaped k) (got.2 k)

theorem ends_switchLabels {switch : Switch} (hSwitch : K → switch.Fits T.size P) :
    Ends T K d (switchLabels parse switch) i fun switch _ => K → switch.Fits T.size P := by
  refine .iterate (I := fun switch _ => K → switch.Fits T.size P)
    (fun switch j _ shaped => .get fun c _ _ => ?_) hSwitch
  refine .ite (fun _ => .pure shaped) fun _ => .ite (fun _ => ?_) fun _ => .ite (fun _ => ?_) fun _ => ?_
  · refine .next fun j₁ _ _ => (ends_isAt _).bind fun _ j₂ _ _ => ?_
    refine .ensure fun _ => (ends_statements h j₂).bind fun label j₄ _ hLabel => ?_
    refine .eat fun j₅ _ => (ends_caseBlock h).bind fun block j₆ _ hBlock => ?_
    refine .pure ⟨by omega, fun k => ?_⟩
    have ⟨⟨shape, value, cases, blocks, default, token⟩,
      .switch hValue hCases hBlocks hDefault⟩ := shaped k
    refine ⟨⟨?_, value, forall_mem_push cases (hLabel k).1, forall_mem_push blocks (hBlock.2 k).1,
      default, token⟩, .switch hValue (forall_mem_push hCases (hLabel k).2)
        (forall_mem_push hBlocks (hBlock.2 k).2) hDefault⟩
    rw [List.length_append, List.length_append, shape]
    rfl
  · refine .ensure fun _ => .next fun j₂ _ _ => ?_
    refine .eat fun j₃ _ => (ends_caseBlock h).bind fun block j₄ _ hBlock => ?_
    refine .pure ⟨by omega, fun k => ?_⟩
    have ⟨⟨shape, value, cases, blocks, _, token⟩, .switch hValue hCases hBlocks _⟩ := shaped k
    exact ⟨⟨shape, value, cases, blocks, forall_mem_some (hBlock.2 k).1, token⟩,
      .switch hValue hCases hBlocks (forall_mem_some (hBlock.2 k).2)⟩
  · exact ends_unexpected

theorem ends_switch : Ends T K d (switch parse) i (Production.Reads T K P .switch i) := by
  refine .construct fun token le inside _ => .eat fun j₁ _ => ?_
  refine (ends_condition h).bind fun value j₂ _ got => .eat fun j₃ _ => ?_
  have begins (k : K) : Switch.Fits T.size P ⟨value, [], [], none, token⟩ :=
    ⟨⟨rfl, (got.2 k).1, nofun, nofun, nofun, lt_size inside⟩,
      .switch (got.2 k).2 (List.forall_mem_nil _) (List.forall_mem_nil _) forall_mem_none⟩
  refine (ends_switchLabels h begins).bind fun switch j₄ _ shaped => .next fun j₅ _ _ => ?_
  exact .pure ⟨show i < j₅ by omega, shaped⟩

theorem ends_bracedBlock :
    Ends T K d (bracedBlock parse) i fun block _ => K → block.Fits T.size P :=
  .ensureAt ((h.read .block _).mono fun _ _ _ read => read.shaped)

/-- What has been read of a `try`, which may have no clause yet. -/
structure TryCatchShaped (n : Nat) (P : String → Prop) (tryCatch : TryCatch) : Prop where
  namesMatch : tryCatch.exceptionNames.length = tryCatch.exceptionTypes.length
  blocksMatch : tryCatch.catchBlocks.length = tryCatch.exceptionTypes.length
  nonempty : ∀ types ∈ tryCatch.exceptionTypes, types ≠ []
  block : tryCatch.block.Fits n P
  types : ∀ types ∈ tryCatch.exceptionTypes, ∀ type ∈ types, type.Fits n P
  names : ∀ r ∈ tryCatch.exceptionNames, r.token < n ∧ P r.name
  blocks : ∀ b ∈ tryCatch.catchBlocks, b.Fits n P
  finallyBlock : ∀ b ∈ tryCatch.finallyBlock, b.Fits n P
  token : tryCatch.token < n

omit h in
theorem TryCatchShaped.fits {n : Nat} {tryCatch : TryCatch} (shaped : TryCatchShaped n P tryCatch)
    (clause : hasClause tryCatch = true) :
    tryCatch.WellShaped n ∧ Node.Named P (.tryCatch tryCatch) := by
  have ⟨names, named⟩ := forall₂_and.mp shaped.names
  have ⟨blocks, namedBlocks⟩ := forall₂_and.mp shaped.blocks
  have ⟨finallyBlock, namedFinally⟩ := forall₂_and.mp shaped.finallyBlock
  refine ⟨⟨⟨shaped.namesMatch, shaped.blocksMatch, shaped.nonempty, ?_⟩, shaped.block.1,
    fun types mem type mem' => (shaped.types types mem type mem').1, names, blocks, finallyBlock,
    shaped.token⟩, .tryCatch shaped.block.2
      (fun types mem type mem' => (shaped.types types mem type mem').2) named namedBlocks namedFinally⟩
  rw [hasClause, Bool.or_eq_true] at clause
  refine clause.imp (fun blocks empty => ?_) id
  rw [empty] at blocks
  cases blocks

theorem ends_catchClause {tryCatch : TryCatch} {j : Nat} (le : i ≤ j)
    (got : Got K (TryCatchShaped T.size P) i tryCatch j) :
    Ends T K d (catchClause parse tryCatch) j
      (Goes T j (Got K (TryCatchShaped T.size P) i)
        fun tryCatch _ => Got K (TryCatchShaped T.size P) i tryCatch) := by
  refine .ensure fun _ => .next fun j₂ _ _ => ?_
  refine .eat fun j₃ _ => (ends_allow (by decide)).discard.bind fun _ j₄ _ _ => ?_
  refine (ends_sequence (by decide) _ fun j _ => ends_types h j).bind fun types j₅ _ hTypes => ?_
  refine .ensure fun nonempty => (h.read .reference j₅).bind fun name j₇ _ read => ?_
  refine .eat fun j₈ _ => (ends_bracedBlock h).bind fun block j₉ _ hBlock => ?_
  refine ends_proceed fun k _ further _ => ⟨by omega, fun k => ?_⟩
  have shaped := got.2 k
  have nonempty : types ≠ [] := by simpa using nonempty
  exact {
    namesMatch := by
      rw [List.length_append, List.length_append, shaped.namesMatch]
      rfl
    blocksMatch := by
      rw [List.length_append, List.length_append, shaped.blocksMatch]
      rfl
    nonempty := forall_mem_push shaped.nonempty nonempty
    block := shaped.block
    types := forall_mem_push shaped.types fun type mem => hTypes type mem k
    names := forall_mem_push shaped.names (read.shaped k)
    blocks := forall_mem_push shaped.blocks (hBlock k)
    finallyBlock := shaped.finallyBlock
    token := shaped.token }

theorem ends_tryCatch :
    Ends T K d (tryCatch parse) i (Production.Reads T K P .tryCatch i) := by
  have completed (tryCatch : TryCatch) (j k : Nat) (le : j ≤ k)
      (got : Got K (TryCatchShaped T.size P) i tryCatch j) :
      Ends T K d ((tryCatchGrammar parse).complete tryCatch) k
        (Production.Reads T K P .tryCatch i) :=
    .ensureElse fun clause =>
      .pure ⟨Nat.lt_of_lt_of_le got.1 le, fun k => (got.2 k).fits clause⟩
  refine ends_parse_kept (I := Got K (TryCatchShaped T.size P) i) (fun _ => nofun)
    (fun j le inside _ => ?_) ?_ completed
  · refine ends_proceed (ends_runSteps_cons (·.literal_eof) (fun _ _ => ?_) nofun)
    refine .next fun j₁ _ _ => (ends_bracedBlock h).bind fun block j₂ _ hBlock => ?_
    refine ends_proceed fun k _ further _ => ends_runSteps_nil ⟨by omega, fun k => ?_⟩
    exact ⟨rfl, rfl, nofun, hBlock k, nofun, nofun, nofun, nofun, lt_size inside⟩
  · intro tryCatch j le _ got
    simp only [tryCatchGrammar, List.forall_mem_cons]
    refine ⟨fun _ => ends_catchClause h le got, fun _ => ?_, fun _ => ?_, nofun⟩
    · refine .next fun j₁ _ _ => (ends_bracedBlock h).bind fun block j₂ _ hBlock => ?_
      exact ends_stop ⟨Nat.lt_of_lt_of_le got.1 (by omega), fun k =>
        { got.2 k with finallyBlock := forall_mem_some (hBlock k) }⟩
    · exact .ensureElse fun _ => ends_stop got

/-! ### Packages and imports -/

omit h in
theorem ends_package : Ends T K d package i (Production.Reads T K P .package i) := by
  refine ends_parse_kept (I := fun draft _ => draft.token < T.size) (fun _ => nofun)
    (fun j _ inside _ => ?_) ?_ fun _ _ _ _ token =>
      .ensure fun _ => .pure ⟨trivial, fun _ => token⟩
  · refine ends_proceed (ends_runSteps_cons (·.literal_eof) (fun _ _ => ?_) nofun)
    exact ends_proceed fun _ _ _ _ => ends_runSteps_nil (lt_size inside)
  · intro draft j _ _ token
    simp only [packageGrammar, List.forall_mem_cons]
    refine ⟨fun _ => .get fun c _ _ => ?_, fun _ => ?_, fun _ => .get fun c _ _ => ?_, nofun⟩
    · exact .ensure fun _ => ends_proceed fun _ _ _ _ => token
    · exact .ensure fun _ => ends_finish token
    · exact .ensure fun _ => ends_proceed fun _ _ _ _ => token

/-- What has been read of an import. -/
structure ImportDraft.IsShaped (n : Nat) (P : String → Prop) (draft : ImportDraft) : Prop where
  names : ∀ name ∈ draft.names, P name
  part : P draft.part
  group : ∀ name ∈ draft.group, P name
  token : draft.token < n

omit h in
theorem ImportDraft.IsShaped.default {n : Nat} {draft : ImportDraft} (shaped : draft.IsShaped n P) :
    ∀ name ∈ draft.default, P name := by
  intro name mem
  unfold ImportDraft.default at mem
  split at mem
  · cases mem
  · split at mem
    · exact shaped.names name (List.mem_reverse.mp (List.mem_of_getElem? mem))
    · exact shaped.names name (List.mem_of_getLast? mem)

theorem ends_importWord {I : ImportDraft → Nat → Prop} {S : ImportDraft → Signal → Nat → Prop}
    {draft : ImportDraft} {j : Nat} (shaped : K → draft.IsShaped T.size P)
    (isWord : T.isWord j = true)
    (go : ∀ draft' k, (K → draft'.IsShaped T.size P) → I draft' k) :
    Ends T K d (importWord draft) j (Goes T j I S) := by
  refine .ensure fun _ => .get fun c hc hj => ?_
  refine ends_proceed fun k _ _ _ => go _ k fun k => { shaped k with part := ?_ }
  rw [hc.value_eq, hj]
  exact (h.spells k).append (shaped k).part ((h.spells k).word isWord)

theorem ends_importDecl :
    Ends T K d (importDecl parse) i (Production.Reads T K P .importDecl i) := by
  refine ends_parse_kept (I := fun draft _ => K → draft.IsShaped T.size P) (fun _ => nofun)
    (fun j _ inside _ => ?_) ?_ fun _ _ _ _ shaped => .ensure fun _ => .pure ⟨trivial, fun k =>
      ⟨(shaped k).token, (shaped k).names, (shaped k).default, (shaped k).group⟩⟩
  · have begins (isStatic : Bool) (k : K) :
        ImportDraft.IsShaped T.size P ⟨[], "", [], isStatic, false, false, j⟩ :=
      ⟨List.forall_mem_nil _, (h.spells k).empty, List.forall_mem_nil _, lt_size inside⟩
    have name (isStatic : Bool) (k : Nat) : Ends T K d
        (Grammar.runSteps [.eat .word importWord] ⟨[], "", [], isStatic, false, false, j⟩) k
        (Grammar.Leads (fun draft _ => K → draft.IsShaped T.size P)
          fun draft _ _ => K → draft.IsShaped T.size P) :=
      ends_runSteps_cons (·.word_eof) (fun _ isWord =>
        ends_importWord h (begins isStatic) isWord fun _ _ more => ends_runSteps_nil more) nofun
    refine ends_proceed (ends_runSteps_cons (·.literal_eof) (fun _ _ => ?_) nofun)
    refine ends_proceed fun k _ _ _ => ?_
    refine ends_runSteps_cons (·.literal_eof) (fun _ _ => ?_) fun _ _ => ?_
    · exact ends_proceed fun k' _ _ _ => name true k'
    · exact name false k
  · intro draft j _ _ shaped
    have saved (k : K) : draft.savePart.IsShaped T.size P := by
      unfold ImportDraft.savePart
      split
      · exact shaped k
      · exact { shaped k with
          names := forall_mem_push (shaped k).names (shaped k).part
          part := (h.spells k).empty }
    simp only [importGrammar, List.forall_mem_cons]
    refine ⟨fun _ => .get fun c _ _ => ?_, fun _ => ?_, fun _ => ?_, fun _ => .get fun c _ _ => ?_,
      fun _ => ?_, fun isWord => ends_importWord h shaped isWord fun _ _ more => more, nofun⟩
    · exact .ensure fun _ => ends_proceed fun _ _ _ _ => saved
    · refine .ensureElse fun _ => .ensure fun _ => ?_
      refine .next fun _ _ _ => (ends_commaList (P := fun r => K → P (Reference.name r)) _
        fun j _ => (h.read .reference j).mono fun _ _ _ read k => (read.shaped k).2).bind fun _ _ _ group => ?_
      refine ends_proceed fun _ _ _ _ k => { shaped k with group := fun name mem => ?_ }
      obtain ⟨r, isOne, rfl⟩ := List.mem_map.mp mem
      exact group r isOne k
    · exact .ensure fun _ => ends_proceed fun _ _ _ _ => shaped
    · exact .ensure fun _ => ends_proceed fun _ _ _ _ k => { shaped k with }
    · exact .ensure fun _ => ends_finish fun k => { saved k with }

/-! ### Classes -/

theorem ends_annotationUse :
    Ends T K d (annotationUse parse) i (Production.Reads T K P .annotationUse i) := by
  refine .construct fun token le inside _ => .eat fun j₁ _ => ?_
  have token := lt_size inside
  refine ends_eatWord.bind fun name j₂ _ _ => .allow (fun j₃ _ => ?_)
    (.pure ⟨show i < j₂ by omega, fun _ => ⟨nofun, token⟩⟩)
  refine (ends_listUpTo (by decide) fun j _ => ends_statements h j).bind fun arguments j₄ _ got => ?_
  exact .pure ⟨show i < j₄ by omega, fun k => ⟨fun s mem => (got.2 k s mem).1, token⟩⟩

omit h in
theorem ends_modifiers (linked : T.IsLinked) : Ends T K d modifiers i fun _ _ => True := by
  refine .iterate (I := fun _ _ => True) (fun modifiers j _ _ => .get fun c hc hj => ?_) trivial
  split
  · exact .pure trivial
  · rename_i more added
    have lt : j < T.eof := by
      refine linked.lt_of_value_ne fun empty => ?_
      rw [Cursor.value, hc.tokens, hj, empty] at added
      cases added
    exact .next fun _ _ moved => .pure ⟨moved lt, trivial⟩

theorem ends_optionalTypeParameters :
    Ends T K d (optionalTypeParameters parse) i fun _ _ => True :=
  .isAt (ends_typeParameters h) (.pure trivial)

theorem ends_typeList (terminator : Matcher) :
    Ends T K d (sequence (parse .typeRef) (.literal ",") terminator) i fun types _ =>
      K → ∀ type ∈ types, type.Fits T.size P :=
  (ends_sequence (by decide) terminator fun j _ => ends_types h j).mono
    fun _ _ _ shaped k type mem => shaped type mem k

theorem ends_typesAfter {keyword : String} (ne : keyword ≠ "") (terminator : Matcher) :
    Ends T K d (typesAfter parse keyword terminator) i fun types _ =>
      K → ∀ type ∈ types, type.WellShaped T.size :=
  .allow (fun _ _ => (ends_typeList h _).mono fun _ _ _ shaped k type mem => (shaped k type mem).1)
    (.pure fun _ => nofun) ne

theorem ends_baseClass (name : String) :
    Ends T K d (baseClass parse name) i fun types _ =>
      types.length ≤ 1 ∧ (K → ∀ type ∈ types, type.Fits T.size P) := by
  refine .allow (fun _ _ => ?_) (.pure ⟨Nat.zero_le 1, fun _ => List.forall_mem_nil _⟩)
  exact (ends_typeList h _).bind fun types _ _ shaped => .ensureElse fun one =>
    .pure ⟨Nat.le_of_eq (eq_of_beq one), shaped⟩

theorem ends_classDecl :
    Ends T K d (classDecl parse) i (Production.Reads T K P .classDecl i) := by
  refine .construct fun token le inside _ => (ends_modifiers h.linked).bind fun modifiers j₁ _ _ => ?_
  refine .eat fun j₂ _ => (ends_name h).bind fun name j₃ _ hName => ?_
  refine (ends_optionalTypeParameters h).bind fun parameters j₄ _ _ => ?_
  refine (ends_baseClass h name).bind fun extended j₅ _ base => ?_
  refine (ends_typesAfter h (by decide) _).bind fun implemented j₆ _ hImplemented => ?_
  refine .eat fun j₇ _ => (h.read .body j₇).bind fun body j₈ _ read => ?_
  refine .pure ⟨show i < j₈ by omega, fun k => fits_absorb ?_ (read.shaped k)⟩
  have ⟨hExtended, named⟩ := forall₂_and.mp (base.2 k)
  exact ⟨⟨base.1, hExtended, hImplemented k, nofun, nofun, nofun, nofun, nofun, nofun,
    lt_size inside⟩, .classDecl (hName.2 k) named
      ⟨List.forall_mem_nil _, List.forall_mem_nil _, List.forall_mem_nil _, List.forall_mem_nil _⟩,
    List.forall_mem_singleton.mpr (hName.2 k)⟩

theorem ends_interfaceDecl :
    Ends T K d (interfaceDecl parse) i (Production.Reads T K P .interfaceDecl i) := by
  refine .construct fun token le inside _ => (ends_modifiers h.linked).bind fun modifiers j₁ _ _ => ?_
  refine .eat fun j₂ _ => (ends_name h).bind fun name j₃ _ hName => ?_
  refine (ends_optionalTypeParameters h).bind fun parameters j₄ _ _ => ?_
  refine (ends_typesAfter h (by decide) _).bind fun extended j₅ _ hExtended => ?_
  refine .eat fun j₆ _ => (h.read .body j₆).bind fun body j₇ _ read => ?_
  refine .ensureElse fun _ => .pure ⟨trivial, fun k => ?_⟩
  have ⟨⟨_, _, members, _, _⟩, _, declared⟩ := read.shaped k
  exact ⟨⟨hExtended k, members, nofun, lt_size inside⟩,
    List.forall_mem_cons.mpr ⟨hName.2 k, declared⟩⟩

omit h in
theorem fits_constantField {n token : Nat} {name constant : String} (hName : P name)
    (hConstant : P constant) {arguments : List Statement}
    (hArguments : ∀ s ∈ arguments, s.Fits n P) (lt : token < n) :
    (constantField name constant arguments token).Fits n P := by
  have ⟨arguments, named⟩ := forall₂_and.mp hArguments
  have type : (TypeRef.named name token).WellShaped n := ⟨List.cons_ne_nil _ _, lt, nofun⟩
  have made : Node.Fits n P (.instantiation ⟨_, _, none, none, none, token⟩) :=
    ⟨.instantiation ⟨⟨nofun, nofun⟩, type, arguments, nofun, nofun, nofun, lt⟩,
      .instantiation (List.forall_mem_singleton.mpr hName) named forall_mem_none forall_mem_none
        forall_mem_none⟩
  have ⟨value, namedValue⟩ := fits_ofNode made lt
  exact ⟨.field ⟨type, forall_mem_some value, nofun, lt⟩,
    .field hConstant (forall_mem_some namedValue), List.forall_mem_nil _⟩

theorem ends_enumConstant {name : String} (hName : K → P name) :
    Ends T K d (enumConstant parse name) i (Got K (Member.Fits T.size P) i) := by
  refine .get fun c hc _ => (ends_name h).bind fun constant j₁ _ ⟨moved, hConstant⟩ => ?_
  have token := lt_size hc.inside
  refine .allow (fun j₂ _ => ?_) ?_
  · refine (ends_listUpTo (by decide) fun j _ => ends_statements h j).bind fun arguments j₃ _ got => ?_
    exact .pure ⟨by omega, fun k => fits_constantField (hName k) (hConstant k) (got.2 k) token⟩
  · exact .pure ⟨by omega, fun k =>
      fits_constantField (hName k) (hConstant k) (List.forall_mem_nil _) token⟩

theorem ends_enumConstants {name : String} (hName : K → P name) :
    Ends T K d (enumConstants parse name) i fun constants _ =>
      K → ∀ m ∈ constants, m.Fits T.size P := by
  refine .iterate (I := fun constants _ => K → ∀ m ∈ constants, m.Fits T.size P)
    (fun constants j _ shaped => .get fun c _ _ => ?_) fun _ => nofun
  refine .ite (fun _ => .pure fun k m mem => shaped k m (List.mem_reverse.mp mem)) fun _ => ?_
  refine (ends_enumConstant h hName).bind fun constant j₁ _ got => ?_
  have all (k : K) : ∀ m ∈ constant :: constants, m.Fits T.size P :=
    List.forall_mem_cons.mpr ⟨got.2 k, shaped k⟩
  have moved := got.1
  refine (ends_allow (by decide)).bind fun _ j₂ _ _ => .ite (fun _ => ?_) fun _ => .pure ⟨by omega, all⟩
  exact .get fun c _ _ => .ensure fun _ => .pure ⟨by omega, all⟩

theorem ends_enumDecl :
    Ends T K d (enumDecl parse) i (Production.Reads T K P .enumDecl i) := by
  refine .construct fun token le inside _ => (ends_modifiers h.linked).bind fun modifiers j₁ _ _ => ?_
  refine .eat fun j₂ _ => (ends_name h).bind fun name j₃ _ hName => ?_
  refine (ends_typesAfter h (by decide) _).bind fun implemented j₄ _ hImplemented => ?_
  refine .eat fun j₅ _ => ?_
  refine (ends_enumConstants h hName.2).bind fun members j₆ _ hMembers => ?_
  have own (k : K) : ClassDecl.Fits T.size P
      { ClassDecl.empty token with modifiers, name, implemented, members, isEnum := true } := by
    have ⟨shaped, rest⟩ := forall₂_and.mp (hMembers k)
    have ⟨named, declared⟩ := forall₂_and.mp rest
    exact ⟨⟨Nat.zero_le 1, nofun, hImplemented k, nofun, nofun, shaped, nofun, nofun, nofun,
      lt_size inside⟩, .classDecl (hName.2 k) (List.forall_mem_nil _)
        ⟨List.forall_mem_nil _, named, List.forall_mem_nil _, List.forall_mem_nil _⟩,
      List.forall_mem_cons.mpr ⟨hName.2 k, forall_mem_membersNames declared⟩⟩
  refine .allow (fun _ _ => .pure ⟨trivial, own⟩) ?_
  refine .next fun j₈ _ _ => (h.read .body j₈).bind fun body _ _ read => ?_
  exact .pure ⟨trivial, fun k => fits_absorb (own k) (read.shaped k)⟩

/-! ### Bodies -/

/-- What has been read of a body. -/
structure BodyDraft.IsShaped (n : Nat) (P : String → Prop) (draft : BodyDraft) : Prop where
  body : draft.body.Fits n P
  annotations : ∀ a ∈ draft.annotations, a.WellShaped n

/-- What holds after a rule of a body. -/
abbrev BodyGoes (T : TokenStream) (K : Prop) (P : String → Prop) (start : Nat) :
    BodyDraft × Signal → Nat → Prop :=
  Goes T start (fun draft _ => K → draft.IsShaped T.size P)
    fun draft _ _ => K → draft.IsShaped T.size P

section Rules

variable {draft : BodyDraft} {j : Nat} (shaped : K → draft.IsShaped T.size P)
include shaped

theorem ends_constructor : Ends T K d (constructor parse draft) j (BodyGoes T K P j) := by
  refine .get fun c hc _ => (ends_name h).bind fun name j₁ _ hName => ?_
  refine (h.read .signature j₁).bind fun signature j₂ _ read => .ensure fun block => ?_
  refine ends_proceed fun _ _ _ _ k => ?_
  have ⟨⟨⟨kinds, constructors, members, instances, statics⟩,
    ⟨named, namedMembers, namedInstances, namedStatics⟩, declared⟩, annotations⟩ := shaped k
  have ⟨hParameters, throws, hBlock⟩ := read.shaped k
  have ⟨parameters, namedParameters⟩ := forall₂_and.mp hParameters
  have ⟨blockShaped, namedBlock⟩ := forall₂_and.mp hBlock
  have method : Method.WellShaped T.size ⟨draft.modifiers, [], none, name, signature.parameters,
      signature.throws, signature.block, draft.annotations, true, c.current⟩ :=
    ⟨⟨block, rfl⟩, nofun, nofun, parameters, throws, blockShaped, annotations,
      lt_size hc.inside⟩
  exact ⟨⟨⟨forall_mem_push kinds rfl, forall_mem_push constructors method, members, instances, statics⟩,
    ⟨forall_mem_push named ⟨hName.2 k, namedParameters, namedBlock⟩, namedMembers, namedInstances,
      namedStatics⟩, declared⟩, nofun⟩

theorem ends_initializer : Ends T K d (initializer parse draft) j (BodyGoes T K P j) := by
  refine .ensureElse fun _ => (ends_allow (by decide)).bind fun _ j₂ _ _ => ?_
  refine (h.read .block j₂).bind fun block j₃ _ read => .ite (fun _ => ?_) fun _ => ?_
  all_goals
    refine ends_proceed fun _ _ _ _ k => ?_
    have ⟨⟨⟨kinds, constructors, members, instances, statics⟩,
      ⟨named, namedMembers, namedInstances, namedStatics⟩, declared⟩, _⟩ := shaped k
    have ⟨blockShaped, namedBlock⟩ := read.shaped k
  · exact ⟨⟨⟨kinds, constructors, members, instances, forall_mem_push statics blockShaped⟩,
      ⟨named, namedMembers, namedInstances, forall_mem_push namedStatics namedBlock⟩, declared⟩, nofun⟩
  · exact ⟨⟨⟨kinds, constructors, members, forall_mem_push instances blockShaped, statics⟩,
      ⟨named, namedMembers, forall_mem_push namedInstances namedBlock, namedStatics⟩, declared⟩, nofun⟩

theorem ends_memberRule : Ends T K d (do
    let member ← parse .member
    let member := member.withPending draft.modifiers draft.annotations
    proceed (draft.withBody { draft.body with members := draft.body.members ++ [member] })) j
      (BodyGoes T K P j) := by
  refine (h.read .member j).bind fun member _ _ read => ends_proceed fun _ _ _ _ k => ?_
  have ⟨⟨⟨kinds, constructors, members, instances, statics⟩,
    ⟨named, namedMembers, namedInstances, namedStatics⟩, declared⟩, annotations⟩ := shaped k
  have ⟨memberShaped, namedMember, memberDeclared⟩ := read.shaped k
  refine ⟨⟨⟨kinds, constructors, forall_mem_push members
    (wellShaped_withPending memberShaped draft.modifiers annotations), instances, statics⟩,
    ⟨named, forall_mem_push namedMembers (named_withPending namedMember _ _), namedInstances,
      namedStatics⟩, ?_⟩, nofun⟩
  show ∀ name ∈ membersNames (draft.body.members ++ [_]), P name
  rw [membersNames_append, membersNames_singleton, declaredNames_withPending]
  exact List.forall_mem_append.mpr ⟨declared, memberDeclared⟩

end Rules

theorem ends_body : Ends T K d (body parse) i (Production.Reads T K P .body i) := by
  refine ends_parse_kept (I := fun draft _ => K → draft.IsShaped T.size P) (fun _ => nofun)
    (fun j _ _ _ => ?_) ?_ fun _ _ _ _ shaped =>
      .ensure fun _ => .pure ⟨trivial, fun k => (shaped k).body⟩
  · refine ends_proceed (ends_runSteps_nil fun _ => ?_)
    exact ⟨⟨⟨nofun, nofun, nofun, nofun, nofun⟩,
      ⟨List.forall_mem_nil _, List.forall_mem_nil _, List.forall_mem_nil _, List.forall_mem_nil _⟩,
        List.forall_mem_nil _⟩, nofun⟩
  · intro draft j _ _ shaped
    simp only [bodyGrammar, List.forall_mem_cons]
    refine ⟨fun _ => ?_, fun _ => ?_, fun _ => ?_, fun _ => ends_constructor h shaped,
      fun _ => ends_initializer h shaped, fun _ => .get fun c _ _ => ?_,
      fun _ => ends_memberRule h shaped, nofun⟩
    · refine (h.read .annotationUse j).bind fun noted _ _ read => ends_proceed fun _ _ _ _ k => ?_
      exact ⟨(shaped k).body, forall_mem_push (shaped k).annotations (read.shaped k)⟩
    · exact ends_finish fun k => ⟨(shaped k).body, (shaped k).annotations⟩
    · exact ends_proceed fun _ _ _ _ => shaped
    · exact ends_proceed fun _ _ _ _ k => ⟨(shaped k).body, (shaped k).annotations⟩

/-! ### Members -/

theorem ends_signature :
    Ends T K d (signature parse) i (Production.Reads T K P .signature i) := by
  refine .construct fun _ _ _ _ => .eat fun j₁ _ => ?_
  refine (ends_listUpTo (R := Variable.Fits T.size P) (by decide) fun j _ =>
    (h.read .declaration j).mono fun _ _ _ read => read.shaped).bind fun parameters j₂ _ hParameters => ?_
  refine (ends_typesAfter h (by decide) _).bind fun throws j₃ _ hThrows => ?_
  refine .isAt ?_ ?_
  · refine (h.read .block j₃).bind fun block _ _ read => .pure ⟨trivial, fun k => ?_⟩
    exact ⟨hParameters.2 k, hThrows k, forall_mem_some (read.shaped k)⟩
  · exact .eat fun _ _ =>
      .pure ⟨trivial, fun k => ⟨hParameters.2 k, hThrows k, forall_mem_none⟩⟩

theorem ends_fieldValue :
    Ends T K d (fieldValue parse) i fun s _ => K → Statement.Fits T.size P s :=
  (ends_statements h i).bind fun _ _ _ shaped => (ends_isAt _).bind fun _ _ _ _ =>
    .ensure fun _ => .pure shaped

theorem ends_member : Ends T K d (member parse) i (Production.Reads T K P .member i) := by
  refine .construct fun token _ inside _ => .get fun c _ _ => ?_
  have token := lt_size inside
  refine .ite (fun _ => ?_) fun _ => .ite (fun _ => ?_) fun _ => .ite (fun _ => ?_) fun _ => ?_
  · exact (h.read .classDecl _).bind fun _ _ _ read => .pure ⟨trivial, fun k =>
      (read.shaped k).imp .classDecl (.imp_left .classDecl)⟩
  · exact (h.read .interfaceDecl _).bind fun _ _ _ read => .pure ⟨trivial, fun k =>
      (read.shaped k).imp .interfaceDecl fun declared => ⟨.interfaceDecl, declared⟩⟩
  · exact (h.read .enumDecl _).bind fun _ _ _ read => .pure ⟨trivial, fun k =>
      (read.shaped k).imp .classDecl (.imp_left .classDecl)⟩
  refine (ends_optionalTypeArguments h).bind fun typeParameters j₁ _ hTypeParameters => ?_
  refine .get fun c _ _ => .ensure fun _ => ?_
  refine (h.read .declaration j₁).bind fun declaration j₃ _ read => ?_
  have type (k : K) := (read.shaped k).1.type
  have name (k : K) := (read.shaped k).2
  refine .allow (fun _ _ => ?_) (.isAt ?_ ?_)
  · refine (ends_fieldValue h).bind fun value _ _ hValue => .ensure fun _ => ?_
    exact .next fun _ _ _ => .pure ⟨trivial, fun k =>
      ⟨.field ⟨type k, forall_mem_some (hValue k).1, nofun, token⟩,
        .field (name k) (forall_mem_some (hValue k).2), List.forall_mem_nil _⟩⟩
  · refine .ensure fun _ => .next fun _ _ _ => ?_
    exact .pure ⟨trivial, fun k => ⟨.field ⟨type k, nofun, nofun, token⟩,
      .field (name k) forall_mem_none, List.forall_mem_nil _⟩⟩
  · refine .ensureAt ((h.read .signature j₃).bind fun signature _ _ read =>
      .pure ⟨trivial, fun k => ?_⟩)
    have ⟨hParameters, throws, hBlock⟩ := read.shaped k
    have ⟨parameters, namedParameters⟩ := forall₂_and.mp hParameters
    have ⟨block, namedBlock⟩ := forall₂_and.mp hBlock
    exact ⟨.method rfl ⟨rfl, hTypeParameters k, forall_mem_some (type k), parameters, throws, block,
      nofun, token⟩, .method ⟨name k, namedParameters, namedBlock⟩, List.forall_mem_nil _⟩

/-! ### Files -/

/-- What stands at the top of a file has its shape, and its names have a property. -/
def ItemFits (n : Nat) (P : String → Prop) : TopLevel → Prop
  | .importDecl i => i.token < n ∧ i.Named P
  | .classDecl c => c.Fits n P
  | .interfaceDecl i => i.Fits n P

/-- What has been read of a file. -/
structure FileDraft.IsShaped (n : Nat) (P : String → Prop) (draft : FileDraft) : Prop where
  package : ∀ p ∈ draft.file.package, p.token < n
  items : ∀ item ∈ draft.file.items, ItemFits n P item
  annotations : ∀ a ∈ draft.annotations, a.WellShaped n

namespace FileDraft.IsShaped

omit h
variable {n : Nat} {draft : FileDraft} (shaped : draft.IsShaped n P)
include shaped

theorem push {item : TopLevel} (hItem : ItemFits n P item) : (draft.push item).IsShaped n P :=
  ⟨shaped.package, forall_mem_push shaped.items hItem, shaped.annotations⟩

theorem fits : draft.file.Fits n P := by
  refine ⟨⟨shaped.package, fun item mem => ?_⟩, ⟨fun i mem => (shaped.items _ mem).2, fun c mem =>
    (shaped.items _ mem).2.1⟩, fun name mem => ?_⟩
  · cases item with
    | importDecl i | classDecl c | interfaceDecl i => exact (shaped.items _ mem).1
  · obtain ⟨item, isItem, declared⟩ := List.mem_flatMap.mp mem
    cases item with
    | importDecl i => cases declared
    | classDecl c => exact (shaped.items _ isItem).2.2 name declared
    | interfaceDecl i => exact (shaped.items _ isItem).2 name declared

end FileDraft.IsShaped

/-- A file is read up to EOF: no rule of it ends it before. -/
abbrev FileGoes (T : TokenStream) (K : Prop) (P : String → Prop) (start : Nat) :
    FileDraft × Signal → Nat → Prop :=
  Goes T start (fun draft _ => K → draft.IsShaped T.size P) fun draft signal k =>
    signal = .stop ∧ k = T.eof ∧ (K → draft.IsShaped T.size P)

theorem ends_topLevelType {draft : FileDraft} {j : Nat} (shaped : K → draft.IsShaped T.size P) :
    Ends T K d (topLevelType parse draft) j (FileGoes T K P j) := by
  have rest (k : K) : FileDraft.IsShaped T.size P { draft with annotations := [] } :=
    { shaped k with annotations := nofun }
  have noted {type : ClassDecl} (hType : K → type.Fits T.size P) (k : K) :
      ClassDecl.Fits T.size P { type with annotations := draft.annotations } := by
    have ⟨⟨base, extended, implemented, kinds, constructors, members, instances, statics, _, token⟩,
      .classDecl name extendedNamed body, declared⟩ := hType k
    refine ⟨⟨base, extended, implemented, kinds, constructors, members, instances, statics,
      (shaped k).annotations, token⟩, .classDecl name extendedNamed body, ?_⟩
    obtain ⟨⟩ := type
    exact declared
  refine .get fun c _ _ => ?_
  split
  · refine (h.read .interfaceDecl j).bind fun type _ _ read => ends_proceed fun _ _ _ _ k => ?_
    have ⟨⟨extended, members, _, token⟩, declared⟩ := read.shaped k
    refine (rest k).push ⟨⟨extended, members, (shaped k).annotations, token⟩, ?_⟩
    obtain ⟨⟩ := type
    exact declared
  · exact (h.read .enumDecl j).bind fun type _ _ read => ends_proceed fun _ _ _ _ k =>
      (rest k).push (noted read.shaped k)
  · exact (h.read .classDecl j).bind fun type _ _ read => ends_proceed fun _ _ _ _ k =>
      (rest k).push (noted read.shaped k)

theorem ends_file : Ends T K d (file parse) i (Production.Reads T K P .file i) := by
  refine ends_parse (I := fun draft _ => K → draft.IsShaped T.size P)
    (S := fun draft signal k => signal = .stop ∧ k = T.eof ∧ (K → draft.IsShaped T.size P))
    (fun _ => ?_) (fun j _ _ _ => ?_) (fun _ shaped => ⟨rfl, rfl, shaped⟩) ?_ ?_ nofun
  · exact List.forall_mem_singleton.mpr fun _ => Trivia.startsAt_comment
  · have begins (k : K) : FileDraft.IsShaped T.size P ⟨⟨none, []⟩, []⟩ :=
      ⟨nofun, List.forall_mem_nil _, nofun⟩
    refine ends_proceed (ends_runSteps_cons (·.literal_eof) ?_ fun _ _ =>
      ends_runSteps_nil begins)
    refine fun _ _ => (h.read .package j).bind fun package _ _ read => ends_proceed fun _ _ _ _ => ?_
    exact ends_runSteps_nil fun k => ⟨forall_mem_some (read.shaped k), List.forall_mem_nil _, nofun⟩
  · intro draft j _ _ shaped
    simp only [fileGrammar, List.forall_mem_cons]
    refine ⟨fun _ => ?_, fun _ => ends_proceed fun _ _ _ _ => shaped, fun _ => ?_,
      fun _ => ends_topLevelType h shaped, nofun⟩
    · exact (h.read .importDecl j).bind fun item _ _ read => ends_proceed fun _ _ _ _ k =>
        (shaped k).push (read.shaped k)
    · refine (h.read .annotationUse j).bind fun noted _ _ read => ends_proceed fun _ _ _ _ k => ?_
      exact { shaped k with
        annotations := forall_mem_push (shaped k).annotations (read.shaped k) }
  · rintro draft _ _ ⟨_, rfl, shaped⟩
    exact .ensure fun _ => .pure ⟨rfl, fun k => (shaped k).fits⟩

end Construct

/-! ### All constructs -/

variable {T : TokenStream} {K : Prop} {P : String → Prop} {d : Nat}

open Construct in
/-- Each construct ends if those in it do. -/
theorem Production.ends_parser {parse : Family} (h : parse.Ends T K P d) (p : Production) (i : Nat) :
    Parser.Ends T K d (p.parser parse) i (p.Reads T K P i) := by
  cases p with
  | statement => exact ends_statement h
  | block => exact ends_block h
  | typeRef => exact ends_typeRef h
  | typeParameter => exact ends_typeParameter h
  | operator => exact ends_operator h.linked
  | reference => exact ends_reference h
  | literal => exact ends_literal h
  | call => exact ends_call h
  | chain => exact ends_chain h
  | instantiation => exact ends_instantiation h
  | lambda => exact ends_lambda h
  | declaration => exact ends_declaration h
  | instruction => exact ends_instruction h
  | assertion => exact ends_assertion h
  | ifElse => exact ends_ifElse h
  | forLoop => exact ends_forLoop h
  | whileLoop => exact ends_whileLoop h
  | doWhileLoop => exact ends_doWhileLoop h
  | switch => exact ends_switch h
  | tryCatch => exact ends_tryCatch h
  | package => exact ends_package
  | importDecl => exact ends_importDecl h
  | annotationUse => exact ends_annotationUse h
  | comment =>
    exact .construct fun _ _ _ _ => (Ends.skipComment fun _ _ => ends_next).mono
      fun _ _ _ _ => ⟨trivial, fun _ => trivial⟩
  | classDecl => exact ends_classDecl h
  | interfaceDecl => exact ends_interfaceDecl h
  | enumDecl => exact ends_enumDecl h
  | body => exact ends_body h
  | member => exact ends_member h
  | signature => exact ends_signature h
  | file => exact ends_file h

/-- **All constructs end,** from any depth: there are as many levels of parsers
as may be nested, so what is too deep is found out before they run out. -/
theorem ends_parseAt (linked : T.IsLinked) (plain : K → T.HasPlainWords) (spells : K → T.Spells P)
    (levels d : Nat) (enough : maxParserDepth ≤ d + levels) :
    Family.Ends T K P d (parseAt (levels + 1)) := by
  refine ⟨linked, plain, spells, fun p i => ?_⟩
  induction levels generalizing d p i with
  | zero => exact .nested fun shallow => by omega
  | succ levels ih =>
    refine .nested fun _ => Production.ends_parser ⟨linked, plain, spells, fun p i => ?_⟩ p i
    exact ih (d + 1) (by omega) p i

end Javascribe
