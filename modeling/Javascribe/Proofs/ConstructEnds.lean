/-
# Constructs end, and have their shape

Every construct of the language is read by a parser that ends, when the parsers
of the constructs in it do one level deeper. Each moves the cursor, with few
exceptions that are told apart (`Production.Moves`): a statement may be empty,
and a block need not start at a brace. What is read has the shape of its kind
(`Production.Shaped`), where trivia starts at slashes only.

Names come from the source: the parsers take them from words and numbers, but
for a few that are fixed. A property of those (`TokenStream.Spells`) is one of
all names in what is read. So it is for the parsers of a family at any depth
(`ends_parseAt`).

Key definitions: `TokenStream.Spells`, `Production.Moves`, `Production.Shaped`,
`Production.Reads`, `Family.Ends`.
Key theorems: `Construct.ends_typeRef`, `Construct.ends_chain`,
`Construct.ends_statement`, `Construct.ends_file`, `ends_parseAt`.
-/
import Mathlib.Logic.Basic
import Javascribe.Proofs.Naming
import Javascribe.Proofs.ParserEnds
import Javascribe.Proofs.TreeShape

namespace Javascribe

open Javascribe.Parser Javascribe.Tree

theorem TokenStream.lt_size {T : TokenStream} {id : Nat} (h : id ≤ T.eof) : id < T.size :=
  Nat.lt_succ_of_le h

/-- No word is a symbol. -/
def TokenStream.HasPlainWords (T : TokenStream) : Prop :=
  ∀ id, T.isWord id = true → T.value id ∉ CharClass.symbols.map String.singleton

theorem TokenStream.isText_of_isWord {T : TokenStream} {id : Nat} (h : T.isWord id = true) :
    T.isText id = true := by
  rw [isWord, beq_iff_eq] at h
  rw [isText, h]
  rfl

/-- A property of the words and numbers of a source, and of the fixed names,
that goes over to what is put together. -/
structure TokenStream.Spells (T : TokenStream) (P : String → Prop) : Prop where
  word {id : Nat} : T.isWord id = true → P (T.value id)
  number {id : Nat} : T.isNumber id = true → P (T.value id)
  append {s t : String} : P s → P t → P (s ++ t)
  fixed {s : String} : s ∈ "" :: "Object" :: Keyword.values → P s

theorem TokenStream.spells_true (T : TokenStream) : T.Spells fun _ => True :=
  ⟨fun _ => trivial, fun _ => trivial, fun _ _ => trivial, fun _ => trivial⟩

theorem TokenStream.Spells.empty {T : TokenStream} {P : String → Prop} (h : T.Spells P) : P "" :=
  h.fixed (by decide)

/-- Links that continue a value: none of them is a first value, and only the
last may be a type. -/
structure Tree.Chain.IsTail (n : Nat) (chain : Chain) : Prop where
  nonempty : chain.properties ≠ []
  head : ∀ property ∈ chain.properties, property.isHead = false
  type : ∀ property ∈ chain.properties.dropLast, property.isType = false
  properties : ∀ property ∈ chain.properties, property.WellShaped n
  token : chain.token < n

/-! ### Shapes with names -/

section Fits

variable (n : Nat) (P : String → Prop)

/-- A type with its shape. A property holds of its names, here and below. -/
abbrev TypeRef.Fits (type : TypeRef) : Prop := type.WellShaped n ∧ ∀ name ∈ type.names, P name

namespace Tree

abbrev Statement.Fits (s : Statement) : Prop := s.WellShaped n ∧ s.Named P

abbrev Block.Fits (b : Block) : Prop := b.WellShaped n ∧ b.Named P

abbrev Node.Fits (node : Node) : Prop := node.WellShaped n ∧ node.Named P

abbrev Property.Fits (property : Property) : Prop := property.WellShaped n ∧ property.Named P

abbrev Literal.Fits (l : Literal) : Prop := l.WellShaped n ∧ Node.Named P (.literal l)

abbrev Switch.Fits (s : Switch) : Prop := s.WellShaped n ∧ Node.Named P (.switch s)

abbrev Instantiation.Fits (i : Instantiation) : Prop := i.WellShaped n ∧ Node.Named P (.instantiation i)

abbrev Variable.Fits (d : Variable) : Prop := d.WellShaped n ∧ P d.name

abbrev LambdaParameter.Fits (p : LambdaParameter) : Prop := p.WellShaped n ∧ P p.name

abbrev ClassDecl.Fits (c : ClassDecl) : Prop :=
  c.WellShaped n ∧ Node.Named P (.classDecl c) ∧ ∀ name ∈ c.declaredNames, P name

abbrev InterfaceDecl.Fits (i : InterfaceDecl) : Prop :=
  i.WellShaped n ∧ ∀ name ∈ i.declaredNames, P name

abbrev Member.Fits (m : Member) : Prop :=
  m.WellShaped n ∧ m.Named P ∧ ∀ name ∈ m.declaredNames, P name

abbrev ObjectBody.Fits (b : ObjectBody) : Prop :=
  b.WellShaped n ∧ b.Named P ∧ ∀ name ∈ membersNames b.members, P name

abbrev File.Fits (f : File) : Prop :=
  f.WellShaped n ∧ f.Named P ∧ ∀ name ∈ f.items.flatMap TopLevel.declaredNames, P name

end Tree

end Fits

namespace Production

/-- How a construct moves the cursor from `i` to `j`. -/
def Moves (T : TokenStream) : (p : Production) → Nat → p.Result → Nat → Prop
  | .statement, i, s, j => Tree.Statement.hasOperand s = true → i < j
  | .block, i, _, j => T.value i = "\x7b" → i < j
  | .literal, i, _, j => i < T.eof → i < j
  | .file, _, _, j => j = T.eof
  | .typeParameter, _, _, _ | .package, _, _, _ | .importDecl, _, _, _ | .comment, _, _, _ => True
  | .interfaceDecl, _, _, _ | .enumDecl, _, _, _ | .body, _, _, _ | .member, _, _, _ => True
  | .signature, _, _, _ => True
  | _, i, _, j => i < j

/-- The shape of what is read from position `i` on, with its names. A chain that
is read from a word on does not start with an index. -/
def Shaped (T : TokenStream) (P : String → Prop) : (p : Production) → Nat → p.Result → Prop
  | .statement, _, s => Statement.Fits T.size P s
  | .block, _, b => Block.Fits T.size P b
  | .typeRef, _, t => TypeRef.Fits T.size P t
  | .operator, _, o => OperatorUse.token o < T.size
  | .reference, _, r => Reference.token r < T.size ∧ P (Reference.name r)
  | .literal, _, l => Literal.Fits T.size P l
  | .call, _, c => Call.WellShaped T.size c ∧ Node.Named P (.call c)
  | .chain, i, c => (Chain.IsTail T.size c ∧ ∀ p ∈ Chain.properties c, p.Named P) ∧
      (T.isWord i = true → ∀ property ∈ (Chain.properties c).head?, property.isIndex = false)
  | .instantiation, _, i => Instantiation.Fits T.size P i
  | .lambda, _, l => Lambda.WellShaped T.size l ∧ Node.Named P (.lambda l)
  | .declaration, _, d => Variable.Fits T.size P d
  | .instruction, _, i => Instruction.WellShaped T.size i ∧ Node.Named P (.instruction i)
  | .assertion, _, a => Assertion.WellShaped T.size a ∧ Node.Named P (.assertion a)
  | .ifElse, _, i => IfElse.WellShaped T.size i ∧ Node.Named P (.ifElse i)
  | .forLoop, _, l => ForLoop.WellShaped T.size l ∧ Node.Named P (.forLoop l)
  | .whileLoop, _, l => WhileLoop.WellShaped T.size l ∧ Node.Named P (.whileLoop l)
  | .doWhileLoop, _, l => DoWhileLoop.WellShaped T.size l ∧ Node.Named P (.doWhileLoop l)
  | .switch, _, s => Switch.Fits T.size P s
  | .tryCatch, _, t => TryCatch.WellShaped T.size t ∧ Node.Named P (.tryCatch t)
  | .package, _, p => Package.token p < T.size
  | .importDecl, _, i => Import.token i < T.size ∧ Import.Named P i
  | .annotationUse, _, a => AnnotationUse.WellShaped T.size a
  | .classDecl, _, c | .enumDecl, _, c => ClassDecl.Fits T.size P c
  | .interfaceDecl, _, i => InterfaceDecl.Fits T.size P i
  | .body, _, b => ObjectBody.Fits T.size P b
  | .member, _, m => Member.Fits T.size P m
  | .signature, _, s => (∀ p ∈ Signature.parameters s, p.Fits T.size P) ∧
      (∀ t ∈ Signature.throws s, t.WellShaped T.size) ∧ ∀ b ∈ Signature.block s, b.Fits T.size P
  | .file, _, f => File.Fits T.size P f
  | .typeParameter, _, _ | .comment, _, _ => True

/-- What holds of a construct that is read from `i` to `j`. -/
structure Reads (T : TokenStream) (K : Prop) (P : String → Prop) (p : Production) (i : Nat)
    (result : p.Result) (j : Nat) : Prop where
  moves : p.Moves T i result j
  shaped : K → p.Shaped T P i result

end Production

/-- All parsers of a family end, and read what they should. -/
structure Family.Ends (T : TokenStream) (K : Prop) (P : String → Prop) (d : Nat) (parse : Family) :
    Prop where
  linked : T.IsLinked
  plain : K → T.HasPlainWords
  spells : K → T.Spells P
  read (p : Production) (i : Nat) : Parser.Ends T K d (parse p) i (p.Reads T K P i)

/-- The cursor has moved on from `i`, and what has been read has its shape. -/
def Got (K : Prop) {σ : Type} (shape : σ → Prop) (i : Nat) (state : σ) (k : Nat) : Prop :=
  i < k ∧ (K → shape state)

namespace Construct

open TokenStream (lt_size)
open Grammar (Goes ends_proceed ends_stop ends_finish ends_runSteps_nil ends_runSteps_cons ends_parse
  ends_parse_kept)

variable {T : TokenStream} {K : Prop} {P : String → Prop} {d i : Nat} {parse : Family}

/-! ### Types -/

theorem ends_listUpTo {α : Type} {R : α → Prop} {value : Parser α} {close : String}
    (ne : close ≠ "") (h : ∀ j, i ≤ j → Ends T K d value j fun a _ => K → R a) :
    Ends T K d (listUpTo value close) i (Got K (fun values => ∀ v ∈ values, R v) i) :=
  (ends_commaList close h).bind fun _ _ le shaped => (ends_eat ne).bind fun _ _ _ eaten =>
    .pure ⟨Nat.lt_of_le_of_lt le eaten.2, fun k v mem => shaped v mem k⟩

/-- Only a token before EOF has text after it. -/
theorem lt_of_next {value : String} (linked : T.IsLinked) (equal : T.value (T.next i) = value)
    (ne : value ≠ "") : i < T.eof := by
  by_cases lt : i < T.eof
  · exact lt
  · rw [linked.next_of_le (Nat.not_lt.mp lt)] at equal
    exact absurd (linked.lt_of_value_eq equal ne) (Nat.lt_irrefl _)

variable (h : parse.Ends T K P d)
include h

/-- A word is a name. -/
theorem ends_name : Ends T K d eatWord i (Got K P i) :=
  ends_eatWord.mono fun _ _ _ ⟨⟨word, same⟩, lt⟩ => ⟨lt, fun k => same ▸ (h.spells k).word word⟩

theorem ends_typeNames {first : String} (hFirst : K → P first) :
    Ends T K d (typeNames first) i fun names _ => names ≠ [] ∧ (K → ∀ name ∈ names, P name) := by
  refine .iterate (I := fun names _ => names ≠ [] ∧ (K → ∀ name ∈ names, P name))
    (fun names j _ hNames => ?_)
    ⟨List.cons_ne_nil _ _, fun k => List.forall_mem_singleton.mpr (hFirst k)⟩
  refine .get fun c hc hj => .ite (fun dotted => ?_) fun _ => ?_
  · rw [Bool.and_eq_true, Cursor.nextRawIs, beq_iff_eq] at dotted
    have lt : j < T.eof := by
      rw [Cursor.peekRaw, hc.tokens, hj] at dotted
      exact lt_of_next hc.linked dotted.1 (by decide)
    refine ends_advanceRaw.bind fun _ k _ moved => ends_advanceRaw.bind fun _ k' le _ => ?_
    refine .pure ⟨Nat.lt_of_lt_of_le (moved lt) le, List.cons_ne_nil _ _, fun k => ?_⟩
    have spells : c.tokens.Spells P := hc.tokens ▸ h.spells k
    exact List.forall_mem_cons.mpr ⟨spells.word dotted.2, hNames.2 k⟩
  · exact .pure ⟨fun reversed => hNames.1 (List.reverse_eq_nil_iff.mp reversed),
      fun k name mem => hNames.2 k name (List.mem_reverse.mp mem)⟩

theorem ends_types (j : Nat) :
    Ends T K d (parse .typeRef) j fun type _ => K → TypeRef.Fits T.size P type :=
  (h.read .typeRef j).mono fun _ _ _ type => type.shaped

theorem ends_statements (j : Nat) :
    Ends T K d (parse .statement) j fun s _ => K → Statement.Fits T.size P s :=
  (h.read .statement j).mono fun _ _ _ s => s.shaped

theorem ends_wildcard {token : Nat} (inside : token ≤ T.eof) :
    Ends T K d (wildcard parse token) i fun type j =>
      (i < T.eof → i < j) ∧ (K → type.Fits T.size P) := by
  refine .next fun j _ moved => .allow (fun j₁ le₁ => ?_) ?_
  · exact (ends_types h j₁).mono fun _ _ le₂ type => ⟨fun lt => by have := moved lt; omega, type⟩
  · have object (k : Nat) (le : j ≤ k) : Ends T K d (return TypeRef.named "Object" token) k
        fun type k' => (i < T.eof → i < k') ∧ (K → type.Fits T.size P) :=
      .pure ⟨fun lt => Nat.lt_of_lt_of_le (moved lt) le, fun k =>
        ⟨⟨List.cons_ne_nil _ _, lt_size inside, nofun⟩,
          List.forall_mem_singleton.mpr ((h.spells k).fixed (by decide))⟩⟩
    refine .allow (fun j₂ le₂ => ?_) (object j (Nat.le_refl j))
    exact (h.read .typeRef j₂).discard.bind fun _ j₃ le₃ _ => object j₃ (by omega)

/-- What has been read of a type. -/
abbrev TypeGot (T : TokenStream) (K : Prop) (P : String → Prop) (i : Nat) : TypeRef → Nat → Prop :=
  Got K (TypeRef.Fits T.size P) i

theorem ends_typeArguments {type : TypeRef} {j : Nat} (hType : TypeGot T K P i type j) :
    Ends T K d (typeArguments parse type) j
      (Goes T j (TypeGot T K P i) fun type _ => TypeGot T K P i type) := by
  obtain ⟨moved, shaped⟩ := hType
  refine .ensureElse fun _ => .next fun j₂ le₂ _ => .allow (fun j₃ le₃ => ?_) ?_
  · exact ends_proceed fun k le _ _ => ⟨by omega, shaped⟩
  · refine (ends_commaList _ fun j _ => ends_types h j).bind fun types j₄ le₄ hTypes => ?_
    have withArguments : K → TypeRef.Fits T.size P { type with arguments := types } := by
      intro k
      have ⟨⟨names, token, _⟩, named⟩ := shaped k
      exact ⟨⟨names, token, fun argument mem => (hTypes argument mem k).1⟩, named⟩
    refine .ensureAt (.get fun c _ _ => .ite (fun _ => ?_) fun _ => ?_)
    · exact ends_proceed fun k le _ _ => ⟨by omega, withArguments⟩
    · exact ends_finish ⟨by omega, withArguments⟩

theorem ends_typeRef : Ends T K d (typeRef parse) i (Production.Reads T K P .typeRef i) := by
  refine ends_parse_kept (I := TypeGot T K P i) (fun _ => nofun)
    (fun j le inside _ => ?_) ?_ fun _ j k le got => .pure ⟨Nat.lt_of_lt_of_le got.1 le, got.2⟩
  · refine .get fun c hc hj => .ite (fun question => ?_) fun _ => ?_
    · rw [hc.is_eq, hj, beq_iff_eq] at question
      have lt := h.linked.lt_of_value_eq question (by decide)
      refine (ends_wildcard h (hj ▸ inside)).bind fun type k le' got => ?_
      exact ends_stop ⟨Nat.lt_of_le_of_lt le (got.1 lt), got.2⟩
    · refine .ensure fun word => ?_
      rw [hc.isWord_eq, hj] at word
      have lt := h.linked.lt_of_isWord word
      have first (k : K) : P c.value := by
        rw [hc.value_eq, hj]
        exact (h.spells k).word word
      refine (ends_typeNames h first).bind fun names j₂ le₂ hNames => .next fun j₃ le₃ moved => ?_
      refine ends_proceed (ends_runSteps_nil ⟨by omega, fun k => ?_⟩)
      exact ⟨⟨hNames.1, lt_size inside, nofun⟩, hNames.2 k⟩
  · intro type j le lt got
    have onwards {type : TypeRef} (shaped : K → type.Fits T.size P) {j' : Nat} (le' : j ≤ j') :
        Ends T K d (proceed type) j'
          (Goes T j (TypeGot T K P i) fun type _ => TypeGot T K P i type) :=
      ends_proceed fun k _ further _ => ⟨by omega, shaped⟩
    simp only [typeRefGrammar, List.forall_mem_cons]
    refine ⟨fun _ => ?_, fun _ => ?_, fun _ => ends_typeArguments h got, fun _ => ?_,
      fun _ => ends_stop got, nofun⟩
    · exact .get fun c _ _ => .ite (fun _ => onwards got.2 (Nat.le_refl j)) fun _ =>
        ends_stop got
    · refine onwards (fun k => ?_) (Nat.le_refl j)
      have ⟨⟨names, token, arguments⟩, named⟩ := got.2 k
      exact ⟨⟨names, token, arguments⟩, named⟩
    · exact .get fun c _ _ => .ite (fun _ => onwards got.2 (Nat.le_refl j)) fun _ =>
        ends_stop got

theorem ends_typeParameter :
    Ends T K d (typeParameter parse) i (Production.Reads T K P .typeParameter i) := by
  have bounds (j : Nat) : Ends T K d (bounds parse) j fun _ _ => True := by
    refine .iterate (I := fun _ _ => True) (fun _ j _ _ => ?_) trivial
    refine (h.read .typeRef j).discard.bind fun _ j₁ _ ⟨_, type⟩ => ?_
    exact .allow (fun j₂ lt => .pure ⟨Nat.lt_trans type.moves lt, trivial⟩) (.pure trivial)
  refine .construct fun j _ _ _ => ends_eatWord.bind fun _ _ _ _ => ?_
  refine .allow (fun j₁ _ => ?_) (.pure ⟨trivial, fun _ => trivial⟩)
  exact (bounds j₁).bind fun _ _ _ _ => .pure ⟨trivial, fun _ => trivial⟩

theorem ends_typeParameters : Ends T K d (typeParameters parse) i fun _ _ => True :=
  .eat fun _ _ =>
    (ends_listUpTo (R := fun _ => True) (by decide) fun j _ =>
      (h.read .typeParameter j).mono fun _ _ _ _ _ => trivial).mono fun _ _ _ _ => trivial

theorem ends_optionalTypeArguments :
    Ends T K d (optionalTypeArguments parse) i fun types _ =>
      K → ∀ type ∈ types, type.WellShaped T.size := by
  refine .allow (fun _ _ => ?_) (.pure fun _ => nofun)
  exact (ends_listUpTo (by decide) fun j _ => ends_types h j).mono fun _ _ _ got k type mem =>
    (got.2 k type mem).1

/-! ### Names and operators -/

omit h in
theorem ends_operator (linked : T.IsLinked) :
    Ends T K d operator i (Production.Reads T K P .operator i) := by
  refine .construct fun j le inside _ => .get fun c hc hj => ?_
  split
  · exact ends_fail nofun
  · rename_i rest operation found
    have lt : j < T.eof := by
      refine linked.lt_of_value_ne fun empty => ?_
      rw [Cursor.value, hc.tokens, hj, empty] at found
      cases found
    refine (Ends.forM (fun _ _ _ => ends_advanceRaw.mono fun _ _ _ _ => trivial) _).bind
      fun _ j₁ le₁ _ => .next fun j₂ le₂ moved => ?_
    exact .pure ⟨show i < j₂ by omega, fun _ => lt_size inside⟩

theorem ends_reference : Ends T K d reference i (Production.Reads T K P .reference i) :=
  .construct fun _ le inside _ => (ends_name h).bind fun _ _ _ got =>
    .pure ⟨Nat.lt_of_le_of_lt le got.1, fun k => ⟨lt_size inside, got.2 k⟩⟩

theorem ends_call : Ends T K d (call parse) i (Production.Reads T K P .call i) := by
  refine .construct fun token le inside _ => (ends_optionalTypeArguments h).bind
    fun types j₁ le₁ hTypes => ?_
  have rest {name : Option String} (hName : K → ∀ word ∈ name, P word) (j : Nat) (le : i ≤ j) :
      Ends T K d (do
        eat "("
        let arguments ← listUpTo (parse .statement) ")"
        return Call.mk name types arguments token) j (Production.Reads T K P .call i) := by
    refine .eat fun j₂ le₂ => ?_
    refine (ends_listUpTo (by decide) fun j _ => ends_statements h j).bind fun _ j₃ le₃ got => ?_
    refine .pure ⟨show i < j₃ by omega, fun k => ?_⟩
    have ⟨arguments, named⟩ := forall₂_and.mp (got.2 k)
    exact ⟨⟨hTypes k, arguments, lt_size inside⟩, .call (hName k) named⟩
  refine .get fun c _ _ => .ite (fun _ => ?_) fun _ => rest (fun _ => forall_mem_none) j₁ (by omega)
  refine (Ends.map (R := fun name _ => K → ∀ word ∈ name, P word) ?_).bind
    fun _ j₂ le₂ hName => rest hName j₂ (by omega)
  exact (ends_name h).mono fun _ _ _ got k => forall_mem_some (got.2 k)

/-! ### Literals -/

omit h in
theorem ends_closingQuote (quote : String) :
    Ends T K d (closingQuote quote) i fun _ _ => True := by
  refine .iterate (I := fun _ _ => True) (fun escaped j _ _ => ?_) trivial
  refine ends_advanceRaw.bind fun _ k le moved => .get fun c hc hk => ?_
  refine .ite (fun _ => ends_fail nofun) fun _ => .ite (fun _ => ends_unexpected) fun more => ?_
  rw [hc.isEof_iff, hk] at more
  exact .ite (fun _ => .pure trivial) fun _ => .pure ⟨moved (by omega), trivial⟩

omit h in
/-- What is kept of a word after a number is the word, or nothing. -/
theorem eq_of_numberTail? {digits word rest : String} (h : numberTail? digits word = some rest) :
    rest = word ∨ rest = "" := by
  unfold numberTail? at h
  split at h
  · exact .inl (Option.some.inj h).symm
  · split at h
    · exact .inr (Option.some.inj h).symm
    · cases h

/-- A literal ends past its last token, unless there is none. -/
def LiteralGot (T : TokenStream) (K : Prop) (P : String → Prop) (literal : Literal) (signal : Signal)
    (k : Nat) : Prop :=
  (K → literal.Fits T.size P) ∧ (signal = .stop → k = T.eof)

/-- How a literal goes on. -/
abbrev LiteralGoes (T : TokenStream) (K : Prop) (P : String → Prop) (start : Nat) :
    Literal × Signal → Nat → Prop :=
  Goes T start (fun literal _ => K → literal.Fits T.size P) (LiteralGot T K P)

section Rules

variable {literal : Literal} {j : Nat} (shaped : K → literal.Fits T.size P)
include shaped

omit h in
theorem ends_finishLiteral (kind : LiteralKind) {value : String}
    (hValue : K → kind ≠ .string → kind ≠ .array → P value) (k : Nat) :
    Ends T K d (finish { literal with kind := kind, value := value }) k (LiteralGoes T K P j) := by
  refine ends_finish ⟨fun k => ?_, nofun⟩
  have ⟨⟨elements, token⟩, .literal _ named⟩ := shaped k
  exact ⟨⟨elements, token⟩, .literal (hValue k) named⟩

theorem ends_array : Ends T K d (array parse literal) j (LiteralGoes T K P j) := by
  refine .next fun _ _ _ => (ends_commaList _ fun j _ => ends_statements h j).bind
    fun elements _ _ hElements => .ensureAt (ends_finish ⟨fun k => ?_, nofun⟩)
  have ⟨⟨_, token⟩, _⟩ := shaped k
  exact ⟨⟨fun s mem => (hElements s mem k).1, token⟩,
    .literal (fun _ other => absurd rfl other) fun s mem => (hElements s mem k).2⟩

theorem ends_number (isNumber : T.isNumber j = true) :
    Ends T K d (number literal) j (LiteralGoes T K P j) := by
  refine .get fun c hc hj => ?_
  have digits (k : K) : P c.value := by
    rw [hc.value_eq, hj]
    exact (h.spells k).number isNumber
  refine .ite (fun isTail => ?_) fun _ => ends_finishLiteral shaped _ (fun k _ _ => digits k) j
  split
  · exact ends_fail nofun
  · rename_i rest kept
    refine ends_advanceRaw.bind fun _ k _ _ => ends_finishLiteral shaped _ (fun k _ _ => ?_) _
    have spells : c.tokens.Spells P := hc.tokens ▸ h.spells k
    refine spells.append (digits k) ?_
    rcases eq_of_numberTail? kept with rfl | rfl
    · exact spells.word (Bool.and_eq_true_iff.mp isTail).1
    · exact spells.empty

end Rules

theorem ends_literal : Ends T K d (literal parse) i (Production.Reads T K P .literal i) := by
  refine ends_parse (I := fun literal _ => K → literal.Fits T.size P) (S := LiteralGot T K P)
    (fun _ => nofun) (fun j _ inside _ => ?_) (fun _ shaped => ⟨shaped, fun _ => rfl⟩) ?_ ?_ ?_
  · refine ends_proceed (ends_runSteps_nil fun k => ?_)
    exact ⟨⟨nofun, lt_size inside⟩, .literal (fun _ _ => (h.spells k).empty) nofun⟩
  · intro literal j _ _ shaped
    simp only [literalGrammar, List.forall_mem_cons]
    refine ⟨fun _ => ends_array h shaped, fun isKeyword => .get fun c hc hj => ?_,
      fun isNumber => ends_number h shaped isNumber, fun _ => ?_, nofun⟩
    · refine ends_finishLiteral shaped _ (fun k _ _ => (h.spells k).fixed ?_) j
      rw [hc.value_eq, hj]
      exact List.mem_cons_of_mem _ (List.mem_cons_of_mem _ (List.contains_iff_mem.mp isKeyword))
    · refine .get fun c _ _ => (ends_closingQuote _).bind fun _ k _ _ => .get fun c _ _ => ?_
      exact ends_finishLiteral shaped _ (fun _ other => absurd rfl other) k
  · exact fun _ j _ got => .pure ⟨fun lt => show i < j from got.2 rfl ▸ lt, got.1⟩
  · intro _ j k le le' moved got
    exact .pure ⟨fun lt => show i < k by omega, got.1⟩

/-! ### Chains -/

/-- What has been read of a chain from position `i` on to `k`. -/
structure ChainGot (T : TokenStream) (K : Prop) (P : String → Prop) (i : Nat) (chain : Chain)
    (k : Nat) : Prop where
  moved : chain.properties ≠ [] → i < k
  waits : K → T.isWord i = true → chain.properties = [] → k = i
  first : K → T.isWord i = true → ∀ property ∈ chain.properties.head?, property.isIndex = false
  head : ∀ property ∈ chain.properties, property.isHead = false
  type : ∀ property ∈ chain.properties, property.isType = false
  links : K → ∀ property ∈ chain.properties, property.Fits T.size P
  token : chain.token < T.size

/-- How a chain ends. -/
def ChainEnd (T : TokenStream) (K : Prop) (P : String → Prop) (i : Nat) (chain : Chain) (_ : Signal)
    (k : Nat) : Prop :=
  chain.properties ≠ [] → i < k ∧ (K → Production.Shaped T P .chain i chain)

namespace ChainGot

omit h
variable {chain : Chain} {j k : Nat} (got : ChainGot T K P i chain j)
include got

theorem ended (signal : Signal) : ChainEnd T K P i chain signal j := by
  refine fun nonempty => ⟨got.moved nonempty, fun k => ?_⟩
  have ⟨links, named⟩ := forall₂_and.mp (got.links k)
  exact ⟨⟨⟨nonempty, got.head, fun p mem => got.type p (List.dropLast_subset _ mem), links,
    got.token⟩, named⟩, got.first k⟩

/-- A symbol that continues a chain does not start one at a word. -/
theorem started (plain : K → T.HasPlainWords) {value : String} (symbol : T.value j = value)
    (special : value ∈ CharClass.symbols.map String.singleton) (k : K) (word : T.isWord i = true) :
    chain.properties ≠ [] := by
  intro empty
  have here := got.waits k word empty
  subst here
  exact plain k _ word (symbol ▸ special)

theorem head?_push {link : Property} (k : K) (word : T.isWord i = true)
    (first : chain.properties = [] → link.isIndex = false) :
    ∀ property ∈ (chain.properties ++ [link]).head?, property.isIndex = false := by
  intro property mem
  cases properties : chain.properties with
  | nil =>
    rw [properties] at mem
    cases mem
    exact first properties
  | cons p ps =>
    rw [properties] at mem
    cases mem
    exact got.first k word property (properties ▸ rfl)

/-- One more link. -/
theorem push {link : Property} (lt : i < k) (head : link.isHead = false)
    (type : link.isType = false) (fits : K → link.Fits T.size P)
    (first : K → T.isWord i = true → chain.properties = [] → link.isIndex = false) :
    ChainGot T K P i { chain with properties := chain.properties ++ [link] } k where
  moved _ := lt
  waits _ _ empty := absurd empty (List.concat_ne_nil link _)
  first k word := got.head?_push k word (first k word)
  head := forall_mem_push got.head head
  type := forall_mem_push got.type type
  links k := forall_mem_push (got.links k) (fits k)
  token := got.token

/-- A type is the last link. -/
theorem endedByType {type : TypeRef} (lt : i < k) (fits : K → type.Fits T.size P)
    (signal : Signal) :
    ChainEnd T K P i { chain with properties := chain.properties ++ [.type type] } signal k := by
  refine fun nonempty => ⟨lt, fun k => ?_⟩
  have links : ∀ p ∈ chain.properties ++ [.type type], p.Fits T.size P :=
    forall_mem_push (got.links k) ⟨.type (fits k).1, .type (fits k).2⟩
  have ⟨links, named⟩ := forall₂_and.mp links
  refine ⟨⟨⟨nonempty, forall_mem_push got.head rfl, ?_, links, got.token⟩, named⟩, fun word => ?_⟩
  · rw [List.dropLast_concat]
    exact got.type
  · exact got.head?_push k word fun _ => rfl

end ChainGot

section Links

variable {chain : Chain} {j : Nat} (got : ChainGot T K P i chain j) (le : i ≤ j)
include got le

theorem ends_callLink {start : Nat} :
    Ends T K d (do
      let call ← parse .call
      proceed { chain with properties := chain.properties ++ [.call call] }) j
      (Goes T start (ChainGot T K P i) (ChainEnd T K P i)) := by
  refine (h.read .call j).bind fun call j₁ le₁ read => ends_proceed fun k resumes _ _ => ?_
  have moved : j < j₁ := read.moves
  have le' := resumes.1
  exact got.push (by omega) rfl rfl (fun k => ⟨.call (read.shaped k).1, .call (read.shaped k).2⟩)
    fun _ _ _ => rfl

theorem ends_namedLink :
    Ends T K d (namedLink parse chain) j
      (Goes T j (ChainGot T K P i) (ChainEnd T K P i)) := by
  refine .get fun c _ _ => .ite (fun _ => ends_stop (got.ended _)) fun _ => ?_
  refine .ite (fun _ => ends_callLink h got le) fun _ => .ite (fun _ => ?_) fun _ => ?_
  · refine .ensure fun _ => (h.read .typeRef j).bind fun type j₂ le₂ read => ?_
    have moved : j < j₂ := read.moves
    exact ends_stop (got.endedByType (by omega) read.shaped _)
  · refine (h.read .reference j).bind fun reference j₁ le₁ read => ?_
    have moved : j < j₁ := read.moves
    refine ends_proceed fun k le' _ _ => ?_
    exact got.push (by omega) rfl rfl
      (fun k => ⟨.reference (read.shaped k).1, .reference (read.shaped k).2⟩) fun _ _ _ => rfl

theorem ends_dottedLink (dot : T.value j = ".") :
    Ends T K d (dottedLink parse chain) j
      (Goes T j (ChainGot T K P i) (ChainEnd T K P i)) := by
  have started := got.started h.plain dot (by decide)
  have onwards {k : Nat} (lt : j < k) : ChainGot T K P i chain k :=
    { got with
      moved := fun _ => by omega
      waits := fun k word empty => absurd empty (started k word) }
  refine .get fun c _ _ => .ensure fun _ => ?_
  refine .next fun j₂ le₂ moved => ?_
  have lt := moved (h.linked.lt_of_value_eq dot (by decide))
  refine .isAt (ends_callLink h (onwards lt) (by omega)) ?_
  exact ends_proceed fun k _ further _ => onwards further

theorem ends_indexLink (bracket : T.value j = "[") :
    Ends T K d (indexLink parse chain) j
      (Goes T j (ChainGot T K P i) (ChainEnd T K P i)) := by
  have started := got.started h.plain bracket (by decide)
  refine .next fun j₁ le₁ _ => (ends_statements h j₁).bind fun index j₂ le₂ shaped => ?_
  refine .eat fun j₃ le₃ => ends_proceed fun k le' _ _ => ?_
  exact got.push (by omega) rfl rfl (fun k => ⟨.index (shaped k).1, .index (shaped k).2⟩)
    fun k word empty => absurd empty (started k word)

theorem ends_argumentsLink :
    Ends T K d (argumentsLink parse chain) j
      (Goes T j (ChainGot T K P i) (ChainEnd T K P i)) :=
  .get fun _ _ _ => .ite (fun _ => ends_callLink h got le) fun _ => ends_stop (got.ended _)

end Links

theorem ends_chain : Ends T K d (chain parse) i (Production.Reads T K P .chain i) := by
  have completed (chain : Chain) (signal : Signal) (j k : Nat) (le : j ≤ k)
      (ended : ChainEnd T K P i chain signal j) : Ends T K d (do
        ensure (!chain.properties.isEmpty)
        return chain) k (Production.Reads T K P .chain i) := by
    refine .ensure fun nonempty => ?_
    have nonempty : chain.properties ≠ [] := by simpa using nonempty
    have ⟨lt, shaped⟩ := ended nonempty
    exact .pure ⟨show i < k by omega, shaped⟩
  refine ends_parse (I := ChainGot T K P i) (S := ChainEnd T K P i) (fun _ => nofun)
    (fun j le inside stays => ?_) (fun _ got => got.ended _) ?_
    (fun chain j le ended => completed chain .stop j j (Nat.le_refl j) ended)
    fun chain j k _ le _ ended => completed chain .finish j k le ended
  · refine ends_proceed (ends_runSteps_nil ?_)
    refine ⟨fun ne => absurd rfl ne, fun k word _ => ?_, nofun, nofun, nofun, nofun,
      lt_size inside⟩
    refine stays k (TokenStream.isText_of_isWord word) fun slash => h.plain k i word ?_
    rw [slash]
    decide
  · intro chain j le _ got
    simp only [chainGrammar, List.forall_mem_cons]
    exact ⟨fun dot => ends_dottedLink h got le (eq_of_beq dot),
      fun bracket => ends_indexLink h got le (eq_of_beq bracket),
      fun _ => ends_argumentsLink h got le, fun _ => ends_namedLink h got le,
      fun _ => ends_stop (got.ended _), nofun⟩

/-! ### Instantiations -/

/-- What has been read of an instantiation before its body or literal. -/
structure InstantiationDraft.IsOpen (n : Nat) (P : String → Prop) (draft : InstantiationDraft) :
    Prop where
  literal : draft.arrayLiteral = none
  body : draft.body = none
  size : draft.isObject = true → draft.arraySize = none
  noArguments : draft.isObject = false → draft.arguments = []
  constructed : ∀ type ∈ draft.constructed, type.Fits n P
  arguments : ∀ s ∈ draft.arguments, s.Fits n P
  arraySize : ∀ s ∈ draft.arraySize, s.Fits n P
  token : draft.token < n

/-- All that is read of an instantiation, which is known once its type is. -/
def InstantiationDraft.IsDone (n : Nat) (P : String → Prop) (draft : InstantiationDraft) : Prop :=
  ∀ type ∈ draft.constructed, Instantiation.Fits n P
    ⟨type, draft.arguments, draft.arraySize, draft.arrayLiteral, draft.body, draft.token⟩

namespace InstantiationDraft.IsOpen

omit h
variable {n : Nat} {draft : InstantiationDraft} (got : draft.IsOpen n P)
include got

theorem fits {type : TypeRef} (mem : type ∈ draft.constructed) {literal : Option Literal}
    {body : Option ObjectBody} (shape : Instantiation.HasShape
      ⟨type, draft.arguments, draft.arraySize, literal, body, draft.token⟩)
    (hLiteral : ∀ l ∈ literal, l.Fits n P) (hBody : ∀ b ∈ body, b.Fits n P) : Instantiation.Fits n P
      ⟨type, draft.arguments, draft.arraySize, literal, body, draft.token⟩ := by
  have ⟨constructed, names⟩ := got.constructed type mem
  have ⟨arguments, namedArguments⟩ := forall₂_and.mp got.arguments
  have ⟨size, namedSize⟩ := forall₂_and.mp got.arraySize
  have ⟨literal, namedLiteral⟩ := forall₂_and.mp hLiteral
  exact ⟨⟨shape, constructed, arguments, size, literal, fun b mem => (hBody b mem).1, got.token⟩,
    .instantiation names namedArguments namedSize namedLiteral fun b mem => (hBody b mem).2.1⟩

theorem done : draft.IsDone n P := by
  intro type mem
  rw [got.literal, got.body]
  refine got.fits mem ⟨fun sized => ⟨rfl, rfl, ?_⟩, nofun⟩ forall_mem_none forall_mem_none
  refine got.noArguments (Bool.eq_false_iff.mpr fun isObject => ?_)
  rw [got.size isObject] at sized
  cases sized

theorem doneByBody {body : ObjectBody} (isObject : draft.isObject = true) (hBody : body.Fits n P) :
    { draft with body := some body }.IsDone n P := by
  intro type mem
  show Instantiation.Fits n P ⟨type, draft.arguments, draft.arraySize, draft.arrayLiteral, _, _⟩
  rw [got.literal]
  refine got.fits mem ⟨fun sized => ?_, nofun⟩ forall_mem_none (forall_mem_some hBody)
  rw [got.size isObject] at sized
  cases sized

theorem doneByLiteral {literal : Literal} (isObject : draft.isObject = false)
    (size : draft.arraySize = none) (hLiteral : literal.Fits n P) :
    { draft with arrayLiteral := some literal }.IsDone n P := by
  intro type mem
  show Instantiation.Fits n P ⟨type, draft.arguments, draft.arraySize, _, draft.body, _⟩
  rw [got.body]
  refine got.fits mem ⟨fun sized => ?_, fun _ => ⟨size, rfl, got.noArguments isObject⟩⟩
    (forall_mem_some hLiteral) forall_mem_none
  rw [size] at sized
  cases sized

end InstantiationDraft.IsOpen

/-- What has been read of an instantiation that can still be one of an array. -/
structure InstantiationDraft.IsFresh (n : Nat) (P : String → Prop) (draft : InstantiationDraft) : Prop
    extends draft.IsOpen n P where
  isArray : draft.isObject = false

/-- What has been read at the end of an instantiation. -/
abbrev InstantiationEnd (T : TokenStream) (K : Prop) (P : String → Prop) (i : Nat)
    (draft : InstantiationDraft) (_ : Signal) : Nat → Prop :=
  Got K (InstantiationDraft.IsDone T.size P) i draft

section Parts

variable {draft : InstantiationDraft} {j : Nat}

theorem ends_constructed (got : Got K (InstantiationDraft.IsFresh T.size P) i draft j) :
    Ends T K d (do
      let type ← parse .typeRef
      proceed { draft with constructed := some type }) j
      (Goes T j (Got K (InstantiationDraft.IsFresh T.size P) i) (InstantiationEnd T K P i)) := by
  obtain ⟨lt, shaped⟩ := got
  refine (ends_types h j).bind fun type j₁ le₁ hType => ?_
  exact ends_proceed fun k le _ _ => ⟨by omega, fun k =>
    { shaped k with constructed := forall_mem_some (hType k) }⟩

theorem ends_arraySize (got : Got K (InstantiationDraft.IsFresh T.size P) i draft j) :
    Ends T K d (arraySize parse draft) j
      (Goes T j (Got K (InstantiationDraft.IsOpen T.size P) i) (InstantiationEnd T K P i)) := by
  obtain ⟨lt, shaped⟩ := got
  refine .next fun j₁ le₁ _ => (ends_statements h j₁).bind fun size j₂ le₂ hSize => ?_
  refine .ensureAt (ends_proceed fun k le _ _ => ⟨by omega, fun k => { shaped k with
    size := fun isObject => ?_
    arraySize := forall_mem_some (hSize k) }⟩)
  rw [(shaped k).isArray] at isObject
  cases isObject

variable (got : Got K (InstantiationDraft.IsOpen T.size P) i draft j)
include got

theorem ends_constructorArguments :
    Ends T K d (constructorArguments parse draft) j
      (Goes T j (Got K (InstantiationDraft.IsOpen T.size P) i) (InstantiationEnd T K P i)) := by
  obtain ⟨lt, shaped⟩ := got
  refine .ensure fun noSize => .next fun j₂ le₂ _ => ?_
  refine (ends_commaList _ fun j _ => ends_statements h j).bind fun arguments j₃ le₃ hArguments => ?_
  exact .ensureAt (ends_proceed fun k le _ _ => ⟨by omega, fun k => { shaped k with
    size := fun _ => Option.isNone_iff_eq_none.mp noSize
    noArguments := nofun
    arguments := fun s mem => hArguments s mem k }⟩)

omit h in
theorem ends_closeBeforeBody :
    Ends T K d (closeBeforeBody draft) j
      (Goes T j (Got K (InstantiationDraft.IsOpen T.size P) i) (InstantiationEnd T K P i)) := by
  obtain ⟨lt, shaped⟩ := got
  refine .get fun c _ _ => .ite (fun _ => ?_) fun _ => ?_
  · exact ends_proceed fun k le _ _ => ⟨by omega, shaped⟩
  · exact ends_finish ⟨lt, fun k => (shaped k).done⟩

theorem ends_instantiationBody :
    Ends T K d (instantiationBody parse draft) j
      (Goes T j (Got K (InstantiationDraft.IsOpen T.size P) i) (InstantiationEnd T K P i)) := by
  obtain ⟨lt, shaped⟩ := got
  refine .ite (fun isObject => ?_) fun isArray => ?_
  · refine .next fun j₁ le₁ _ => (h.read .body j₁).bind fun body j₂ le₂ read => ?_
    exact ends_stop ⟨by omega, fun k => (shaped k).doneByBody isObject (read.shaped k)⟩
  · refine .ensure fun allowed => ?_
    rw [Bool.and_eq_true] at allowed
    refine (h.read .literal j).bind fun literal j₂ le₂ read => ends_stop ⟨by omega, fun k => ?_⟩
    exact (shaped k).doneByLiteral (Bool.eq_false_iff.mpr isArray)
      (Option.isNone_iff_eq_none.mp allowed.2) (read.shaped k)

/-- After the size only steps are left that keep what has been read open. -/
theorem ends_afterSize : Ends T K d (Grammar.runSteps [
      .allow (.literal "]") closeBeforeBody,
      .allow (.literal "(") (constructorArguments parse),
      .allow (.literal ")") closeBeforeBody,
      .allow (.literal "\x7b") (instantiationBody parse)] draft) j
    (Grammar.Leads (Got K (InstantiationDraft.IsOpen T.size P) i) (InstantiationEnd T K P i)) := by
  refine Grammar.ends_runSteps ?_ ?_ got
  · simp only [List.forall_mem_cons]
    exact ⟨(·.literal_eof), (·.literal_eof), (·.literal_eof), (·.literal_eof), nofun⟩
  · simp only [List.forall_mem_cons]
    exact ⟨fun _ _ _ _ got _ => ends_closeBeforeBody got,
      fun _ _ _ _ got _ => ends_constructorArguments h got,
      fun _ _ _ _ got _ => ends_closeBeforeBody got,
      fun _ _ _ _ got _ => ends_instantiationBody h got, nofun⟩

end Parts

theorem ends_instantiation :
    Ends T K d (instantiation parse) i (Production.Reads T K P .instantiation i) := by
  have completed (draft : InstantiationDraft) (j k : Nat) (le : j ≤ k)
      (got : Got K (InstantiationDraft.IsDone T.size P) i draft j) :
      Ends T K d ((instantiationGrammar parse).complete draft) k
        (Production.Reads T K P .instantiation i) := by
    simp only [instantiationGrammar]
    split
    · exact ends_unexpected
    · rename_i type found
      refine .ensure fun _ => ?_
      exact .pure ⟨Nat.lt_of_lt_of_le got.1 (by omega), fun k => got.2 k type found⟩
  refine ends_parse (I := Got K (InstantiationDraft.IsOpen T.size P) i)
    (S := InstantiationEnd T K P i) (fun _ => nofun)
    (fun j le inside _ => ?_) (fun _ got => ⟨got.1, fun k => (got.2 k).done⟩)
    (fun _ _ _ _ _ => nofun) (fun draft j _ got => completed draft j j (Nat.le_refl j) got)
    fun draft j k _ le _ got => completed draft j k le got
  have fresh : (instantiationGrammar parse).begin j |>.IsFresh T.size P :=
    ⟨⟨rfl, rfl, fun _ => rfl, fun _ => rfl, nofun, nofun, nofun, lt_size inside⟩, rfl⟩
  refine ends_proceed (ends_runSteps_cons (·.literal_eof) ?_ nofun)
  refine fun _ _ => ends_proceed fun k _ further _ => ?_
  refine ends_runSteps_cons (·.word_eof) (fun _ _ => ?_) nofun
  refine (ends_constructed h ⟨by omega, fun _ => fresh⟩).mono fun _ _ _ goes => goes.imp fun draft k _ got => ?_
  refine ends_runSteps_cons (·.literal_eof) (fun _ _ => ?_) fun _ _ => ?_
  · exact (ends_arraySize h got).mono fun _ _ _ goes => goes.imp fun _ _ _ got => ends_afterSize h got
  · exact ends_afterSize h ⟨got.1, fun k => (got.2 k).toIsOpen⟩

/-! ### Declarations and lambdas -/

/-- What has been read of a declaration. -/
structure DeclarationDraft.IsShaped (n : Nat) (P : String → Prop) (draft : DeclarationDraft) :
    Prop where
  type : ∀ type ∈ draft.type, type.WellShaped n
  name : P draft.name
  token : draft.token < n

theorem ends_declaration :
    Ends T K d (declaration parse) i (Production.Reads T K P .declaration i) := by
  have completed (draft : DeclarationDraft) (j k : Nat) (le : j ≤ k)
      (got : Got K (DeclarationDraft.IsShaped T.size P) i draft j) :
      Ends T K d ((declarationGrammar parse).complete draft) k
        (Production.Reads T K P .declaration i) := by
    simp only [declarationGrammar]
    split
    · exact ends_unexpected
    · rename_i type found
      refine .ensure fun _ => ?_
      exact .pure ⟨Nat.lt_of_lt_of_le got.1 (by omega),
        fun k => ⟨⟨(got.2 k).type type found, (got.2 k).token⟩, (got.2 k).name⟩⟩
  refine ends_parse_kept (I := Got K (DeclarationDraft.IsShaped T.size P) i)
    (fun _ => nofun) (fun j le inside _ => ?_) ?_ completed
  · refine (ends_allow (by decide)).bind fun _ j₁ le₁ _ => (h.read .typeRef j₁).bind
      fun type j₂ le₂ read => ends_proceed (ends_runSteps_nil ?_)
    have moved : j₁ < j₂ := read.moves
    exact ⟨by omega, fun k => ⟨forall_mem_some (read.shaped k).1, (h.spells k).empty,
      lt_size inside⟩⟩
  · intro draft j le _ got
    simp only [declarationGrammar, List.forall_mem_cons]
    refine ⟨fun _ => ?_, fun isWord => .get fun c hc hj => ?_, nofun⟩
    · refine .ensure fun _ => .eat fun j₂ le₂ => ?_
      refine .eat fun j₃ le₃ => .eat fun j₄ le₄ => ?_
      exact ends_proceed fun k _ further _ => ⟨by omega, fun k => { got.2 k with }⟩
    · refine ends_finish ⟨got.1, fun k => { got.2 k with name := ?_ }⟩
      rw [hc.value_eq, hj]
      exact (h.spells k).word isWord

theorem ends_lambdaParameter :
    Ends T K d (lambdaParameter parse) i (Got K (LambdaParameter.Fits T.size P) i) := by
  refine .get fun c _ _ => .ite (fun _ => .map ?_) fun _ => .map ?_
  · exact (h.read .declaration i).mono fun _ _ _ read => ⟨read.moves, read.shaped⟩
  · exact (h.read .reference i).mono fun _ _ _ read => ⟨read.moves, read.shaped⟩

theorem ends_lambdaParameters :
    Ends T K d (lambdaParameters parse) i fun parameters _ =>
      K → ∀ p ∈ parameters, p.Fits T.size P := by
  refine .iterate (I := fun parameters _ => K → ∀ p ∈ parameters, p.Fits T.size P)
    (fun parameters j _ shaped => ?_) fun _ => nofun
  refine .allow (fun _ _ => ?_) ?_
  · exact .pure fun k p mem => shaped k p (List.mem_reverse.mp mem)
  · refine (ends_lambdaParameter h).bind fun parameter j₂ le₂ got => ?_
    have more (k : Nat) (le : j₂ ≤ k) : Ends T K d
        (return (.inl (parameter :: parameters) : List LambdaParameter ⊕ List LambdaParameter)) k
        fun next k => Sum.elim (fun parameters => j < k ∧ (K → ∀ p ∈ parameters, p.Fits T.size P))
          (fun parameters => K → ∀ p ∈ parameters, p.Fits T.size P) next :=
      .pure ⟨Nat.lt_of_lt_of_le got.1 le,
        fun k => List.forall_mem_cons.mpr ⟨got.2 k, shaped k⟩⟩
    refine (ends_isAt _).bind fun _ j₃ le₃ _ => .ite (fun _ => ?_) fun _ => more j₃ (by omega)
    exact .eat fun j₄ le₄ => more j₄ (by omega)

theorem ends_lambdaHead :
    Ends T K d (lambdaHead parse) i fun parameters _ =>
      K → ∀ p ∈ parameters, p.Fits T.size P := by
  have rest (single : List LambdaParameter) (j : Nat)
      (shaped : K → ∀ p ∈ single, p.Fits T.size P) : Ends T K d (do
        if ← isAt "(" then
          ensure single.isEmpty
          next
          lambdaParameters parse
        else return single) j fun parameters _ => K → ∀ p ∈ parameters, p.Fits T.size P := by
    exact .isAt (.ensure fun _ => .next fun _ _ _ => ends_lambdaParameters h) (.pure shaped)
  have single : Ends T K d
      ((fun name => [LambdaParameter.untyped name]) <$> parse .reference) i
      fun single _ => K → ∀ p ∈ single, p.Fits T.size P :=
    .map ((h.read .reference i).mono fun _ _ _ read k =>
      List.forall_mem_singleton.mpr (read.shaped k))
  refine .get fun c _ _ => .ite (fun _ => ?_) fun _ => rest [] i fun _ => nofun
  exact single.bind fun names j _ shaped => rest names j shaped

theorem ends_lambda : Ends T K d (lambda parse) i (Production.Reads T K P .lambda i) := by
  refine .construct fun token le inside _ => (ends_lambdaHead h).bind fun parameters j₁ le₁ shaped => ?_
  refine .get fun c hc hj => .ensure fun arrow => ?_
  have arrow : T.value j₁ = "-" := by
    rw [hc.tokens, hj, TokenStream.startsArrow, Bool.and_eq_true, Bool.and_eq_true] at arrow
    exact eq_of_beq arrow.1.1
  have lt := h.linked.lt_of_value_eq arrow (by decide)
  refine ends_advanceRaw.bind fun _ j₃ le₃ moved => .next fun j₄ le₄ moved' => ?_
  have moved := moved lt
  refine .get fun c _ _ => .ite (fun _ => ?_) fun _ => ?_
  · refine (h.read .block j₄).bind fun block j₅ le₅ read => ?_
    refine .pure ⟨show i < j₅ by omega, fun k => ?_⟩
    have ⟨parameters, named⟩ := forall₂_and.mp (shaped k)
    have ⟨hBlock, namedBlock⟩ := read.shaped k
    exact ⟨⟨parameters, .block hBlock, lt_size inside⟩, .lambda named
      (fun _ same => LambdaBody.block.inj same ▸ namedBlock) fun _ same => LambdaBody.noConfusion same⟩
  · refine .ensure fun _ => (ends_statements h j₄).bind fun s j₆ le₆ hs => ?_
    refine .pure ⟨show i < j₆ by omega, fun k => ?_⟩
    have ⟨parameters, named⟩ := forall₂_and.mp (shaped k)
    exact ⟨⟨parameters, .statement (hs k).1, lt_size inside⟩, .lambda named
      (fun _ same => LambdaBody.noConfusion same) fun _ same => LambdaBody.statement.inj same ▸ (hs k).2⟩

end Construct
end Javascribe
