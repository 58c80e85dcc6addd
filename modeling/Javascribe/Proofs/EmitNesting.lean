/-
# Nesting in the output

What is written of a tree is balanced: every construct closes the brackets it
opens, inside one another, and indents no more than it dedents. This goes
through the trees construct by construct, with the layouts doing the work. It
takes names without brackets, and the names of a tree that is read are words.

Key definitions: `Resolutions.AreUnbracketed`, `Emit.Writes`.
Key theorems: `Emit.isBalanced_statement`, `Emit.isBalanced_classDecl`,
`SourceTree.named_of_ofText?`, `SourceTree.toJavaScript_nested`.
-/
import Javascribe.Proofs.LayoutNesting
import Javascribe.Proofs.Reading

namespace Javascribe

open Brackets

/-- The recorded names have no brackets. -/
structure Resolutions.AreUnbracketed (resolutions : Resolutions) : Prop where
  callNames : ∀ name ∈ resolutions.callNames.values, Unbracketed name
  qualifiers : ∀ name ∈ resolutions.qualifiers.values, Unbracketed name

namespace Resolutions.AreUnbracketed

variable {resolutions : Resolutions} (names : resolutions.AreUnbracketed) {token : Nat}
include names

theorem callName : ∀ name ∈ resolutions.callName? token, Unbracketed name := fun name found =>
  names.callNames name (List.mem_map.mpr ⟨(token, name), Table.mem_of_find? found, rfl⟩)

theorem qualifier : ∀ name ∈ resolutions.qualifier? token, Unbracketed name := fun name found =>
  names.qualifiers name (List.mem_map.mpr ⟨(token, name), Table.mem_of_find? found, rfl⟩)

end Resolutions.AreUnbracketed

namespace Emit

open Javascribe.Tree Document

variable {resolutions : Resolutions} (names : resolutions.AreUnbracketed)
include names

theorem isBalanced_reference {r : Reference} (h : Unbracketed r.name) :
    (reference resolutions r).IsBalanced := Layout.isBalanced_qualified names.qualifier h

theorem isBalanced_callHead {name : Option String} (h : ∀ s ∈ name, Unbracketed s) (token : Nat) :
    (callHead resolutions name token).IsBalanced := by
  unfold callHead
  cases name with
  | none => exact isBalanced_nil
  | some name =>
    dsimp only
    split
    · split
      · next stored found =>
        refine isBalanced_texts fun s mem => ?_
        simp only [List.mem_cons, List.not_mem_nil, or_false] at mem
        rcases mem with rfl | rfl | rfl
        · exact isBalanced_name (h _ rfl)
        · exact leads_text rfl
        · exact isBalanced_name (names.callName _ found)
      · exact isBalanced_name (h name rfl)
    · refine Layout.isBalanced_qualified names.qualifier ?_
      cases found : resolutions.callName? token with
      | none => exact h name rfl
      | some stored => exact names.callName stored found

theorem isBalanced_callLink {name : Option String} (h : ∀ s ∈ name, Unbracketed s) (token : Nat) :
    (callLink resolutions name token).IsBalanced := by
  unfold callLink
  cases name with
  | none => exact isBalanced_nil
  | some name =>
    refine isBalanced_texts (List.forall_mem_cons.mpr ⟨leads_text rfl, ?_⟩)
    refine List.forall_mem_singleton.mpr (isBalanced_name ?_)
    cases found : resolutions.callName? token with
    | none => exact h name rfl
    | some stored => exact names.callName stored found

omit names in
/-- The class of `new T(`, with the parenthesis still open. -/
theorem leads_instantiationHead {type : TypeRef} (h : ∀ name ∈ type.names, Unbracketed name) (token : Nat)
    (hasArguments : Bool) :
    (instantiationHead resolutions type token hasArguments).Leads [] [')'] := by
  have new : (text "new ").IsBalanced := leads_text rfl
  have opens : (text "(").Leads [] [')'] := leads_text rfl
  have head : (texts ["new ", type.hostName, "("]).Leads [] [')'] :=
    Leads.append new (Leads.append (isBalanced_name (unbracketed_hostName h)) opens)
  refine head.append (IsBalanced.leads ?_ _)
  split
  · next index _ =>
    refine (isBalanced_name (unbracketed_toString index)).append ?_
    split
    · exact leads_text rfl
    · exact isBalanced_nil
  · exact isBalanced_nil

omit names in
theorem isBalanced_consoleFunction {properties : List Property} :
    ∀ function ∈ consoleFunction? properties, (text function).IsBalanced := by
  intro function mem
  unfold consoleFunction? at mem
  split at mem
  · split at mem
    · split at mem
      · cases mem
        exact leads_text rfl
      · cases mem
        exact leads_text rfl
      · exact nomatch mem
    · exact nomatch mem
  · exact nomatch mem

omit names in
theorem isBalanced_keyword (kind : InstructionKind) : (text kind.keyword).IsBalanced :=
  isBalanced_text (by cases kind <;> decide)

omit names in
theorem unbracketed_of_mem_storedMethodNames {members : List Member}
    (h : ∀ m ∈ members, m.Named Unbracketed) :
    ∀ name ∈ storedMethodNames (members.filterMap Member.method?), Unbracketed name := by
  refine fun name mem => unbracketed_of_mem_storedNamesFrom (fun name mem => ?_) mem
  obtain ⟨m, isMethod, rfl⟩ := List.mem_map.mp mem
  obtain ⟨member, isMember, same⟩ := List.mem_filterMap.mp isMethod
  cases h member isMember with
  | method method =>
    cases same
    obtain ⟨name, -, -⟩ := method
    exact name
  | _ => exact nomatch same

omit names in
theorem unbracketed_of_mem_classNames {members : List Member} (h : ∀ m ∈ members, m.Named Unbracketed) :
    ∀ name ∈ members.filterMap fun m => match m with
      | .classDecl c => some c.name
      | _ => none, Unbracketed name := by
  intro name mem
  obtain ⟨member, isMember, same⟩ := List.mem_filterMap.mp mem
  cases h member isMember with
  | classDecl named =>
    cases same
    cases named with
    | classDecl name extended body => exact name
  | _ => exact nomatch same

omit names in
theorem isBalanced_typeNames {type : TypeRef} (h : ∀ name ∈ type.names, Unbracketed name) :
    (text (".".intercalate type.names)).IsBalanced :=
  isBalanced_name (unbracketed_intercalate (by decide) h)

-- the names that were found out are used in a few cases, and by recursion in all
set_option linter.unusedSectionVars false

mutual

theorem isBalanced_statement : (s : Statement) → s.Named Unbracketed → (statement resolutions s).IsBalanced
  | ⟨left, operator, right, isParenthesized, _, _, _⟩, h => by
    obtain ⟨hLeft, hRight⟩ := h
    rw [statement]
    exact Layout.isBalanced_parenthesized _ ((isBalanced_leftSide _ left hLeft).append
      (Layout.isBalanced_operation _ _ (isBalanced_optionStatement right hRight)))

theorem isBalanced_leftSide (isInitialized : Bool) :
    (n : Option Node) → (∀ node ∈ n, node.Named Unbracketed) →
      (leftSide resolutions isInitialized n).IsBalanced
  | none, _ => isBalanced_nil
  | some n, h => by
    have here := isBalanced_node n (h n rfl)
    cases h n rfl with
    | declaration name => exact Layout.isBalanced_declaration name _
    | _ => exact here

theorem isBalanced_optionStatement : (s : Option Statement) → (∀ t ∈ s, t.Named Unbracketed) →
    ∀ d ∈ optionStatement resolutions s, d.IsBalanced
  | none, _ => nofun
  | some s, h => forall_mem_some (isBalanced_statement s (h s rfl))

theorem isBalanced_statements : (ss : List Statement) → (∀ s ∈ ss, s.Named Unbracketed) →
    ∀ d ∈ statements resolutions ss, d.IsBalanced
  | [], _ => nofun
  | s :: ss, h => List.forall_mem_cons.mpr
    ⟨isBalanced_statement s (List.forall_mem_cons.mp h).1, isBalanced_statements ss (List.forall_mem_cons.mp h).2⟩

theorem isBalanced_lines : (ss : List Statement) → (∀ s ∈ ss, s.Named Unbracketed) →
    (lines resolutions ss).IsBalanced
  | [], _ => isBalanced_nil
  | s :: ss, h => by
    have ⟨first, rest⟩ := List.forall_mem_cons.mp h
    rw [lines]
    refine IsBalanced.append ?_ (isBalanced_lines ss rest)
    split
    · refine ((isBalanced_statement s first).append ?_).append isBalanced_line
      split
      · exact leads_text rfl
      · exact isBalanced_nil
    · exact isBalanced_nil

theorem isBalanced_blockLines : (b : Block) → b.Named Unbracketed → (blockLines resolutions b).IsBalanced
  | ⟨ss, _⟩, h => by
    obtain ⟨h⟩ := h
    exact isBalanced_lines ss h

theorem isBalanced_block : (b : Block) → b.Named Unbracketed → (block resolutions b).IsBalanced
  | ⟨ss, _⟩, h => by
    obtain ⟨h⟩ := h
    exact Layout.isBalanced_block (isBalanced_lines ss h)

theorem isBalanced_blocks : (bs : List Block) → (∀ b ∈ bs, b.Named Unbracketed) →
    ∀ d ∈ blocks resolutions bs, d.IsBalanced
  | [], _ => nofun
  | b :: bs, h => List.forall_mem_cons.mpr
    ⟨isBalanced_block b (List.forall_mem_cons.mp h).1, isBalanced_blocks bs (List.forall_mem_cons.mp h).2⟩

theorem isBalanced_linesOfBlocks : (bs : List Block) → (∀ b ∈ bs, b.Named Unbracketed) →
    ∀ d ∈ linesOfBlocks resolutions bs, d.IsBalanced
  | [], _ => nofun
  | b :: bs, h => List.forall_mem_cons.mpr ⟨isBalanced_blockLines b (List.forall_mem_cons.mp h).1,
    isBalanced_linesOfBlocks bs (List.forall_mem_cons.mp h).2⟩

theorem isBalanced_optionBlock : (b : Option Block) → (∀ c ∈ b, c.Named Unbracketed) →
    ∀ d ∈ optionBlock resolutions b, d.IsBalanced
  | none, _ => nofun
  | some b, h => forall_mem_some (isBalanced_block b (h b rfl))

theorem isBalanced_optionLines : (b : Option Block) → (∀ c ∈ b, c.Named Unbracketed) →
    ∀ d ∈ optionLines resolutions b, d.IsBalanced
  | none, _ => nofun
  | some b, h => forall_mem_some (isBalanced_blockLines b (h b rfl))

theorem isBalanced_node : (n : Node) → n.Named Unbracketed → (node resolutions n).IsBalanced
  | .statement s, .statement h => isBalanced_statement s h
  | .instruction ⟨kind, value, _⟩, .instruction hValue => by
    have value := isBalanced_optionStatement value hValue
    rw [node]
    split
    · next right same =>
      refine IsBalanced.append (IsBalanced.append (isBalanced_keyword kind) (leads_text rfl)) ?_
      exact value right same
    · exact isBalanced_keyword kind
  | .assertion ⟨condition, message, _⟩, .assertion hCondition hMessage => by
    have condition := isBalanced_statement condition hCondition
    have message := isBalanced_optionStatement message hMessage
    rw [node]
    refine (isBalanced_commas (List.forall_mem_cons.mpr ⟨condition, fun d mem => ?_⟩)).enclosed [')'] rfl rfl
    exact message d (Option.mem_toList.mp mem)
  | .literal l, h => isBalanced_literal l h
  | .lambda ⟨parameters, body, _⟩, .lambda hParameters hBlock hValue => by
    have body := isBalanced_lambdaBody body hBlock hValue
    rw [node]
    refine ((Layout.isBalanced_arguments fun d mem => ?_).append (leads_text rfl)).append body
    obtain ⟨parameter, isOne, rfl⟩ := List.mem_map.mp mem
    exact isBalanced_name (hParameters parameter isOne)
  | .reference _, .reference name => isBalanced_reference names name
  | .call c, h => isBalanced_call c h
  | .instantiation i, h => isBalanced_instantiation i h
  | .classDecl c, h => isBalanced_classDecl c h
  | .declaration _, .declaration name => Layout.isBalanced_declaration name false
  | .ifElse ⟨conditions, branches, _⟩, .ifElse hConditions hBranches =>
    Layout.isBalanced_branches (isBalanced_statements conditions hConditions)
      (isBalanced_blocks branches hBranches)
  | .forLoop ⟨initialization, condition, increment, iterable, isEnhanced, body, _⟩,
    .forLoop hInitialization hCondition hIncrement hIterable hBody => by
    have initialization := isBalanced_optionStatement initialization hInitialization
    have condition := isBalanced_optionStatement condition hCondition
    have increment := isBalanced_optionStatement increment hIncrement
    have iterable := isBalanced_optionStatement iterable hIterable
    have body := isBalanced_block body hBody
    rw [node]
    split
    · exact Layout.isBalanced_forEach initialization iterable body
    · exact Layout.isBalanced_forLoop initialization condition increment body
  | .whileLoop ⟨condition, body, _⟩, .whileLoop hCondition hBody =>
    ((isBalanced_statement condition hCondition).enclosed [')'] rfl rfl).append
      (isBalanced_block body hBody)
  | .doWhileLoop ⟨body, condition, _⟩, .doWhileLoop hBody hCondition => by
    have start : (text "do ").IsBalanced := leads_text rfl
    have opens : (text " while (").Leads [] [')'] := leads_text rfl
    have closes : (text ")").Leads [')'] [] := leads_text rfl
    exact ((Leads.append (start.append (isBalanced_block body hBody)) opens).append
      ((isBalanced_statement condition hCondition).leads _)).append closes
  | .switch ⟨value, cases, bodies, default, _⟩, .switch hValue hCases hBodies hDefault => by
    have cases := isBalanced_statements cases hCases
    have bodies := isBalanced_linesOfBlocks bodies hBodies
    refine Layout.isBalanced_switch (isBalanced_statement value hValue) (fun c mem => ?_)
      (isBalanced_optionLines default hDefault)
    have both := List.of_mem_zip mem
    exact ⟨cases c.1 both.1, bodies c.2 both.2⟩
  | .tryCatch ⟨body, types, caught, clauses, finallyBlock, _⟩,
    .tryCatch hBody hTypes hCaught hClauses hFinally => by
    have body := isBalanced_block body hBody
    have finallyBlock := isBalanced_optionBlock finallyBlock hFinally
    have clauses := Layout.isBalanced_catchClauses hTypes hCaught (isBalanced_blocks clauses hClauses)
      (isBalanced_linesOfBlocks clauses hClauses)
    rw [node]
    refine ((IsBalanced.append (leads_text rfl) body).append clauses).append ?_
    split
    · next last same => exact IsBalanced.append (leads_text rfl) (finallyBlock last same)
    · exact isBalanced_nil
  | .chain ⟨properties, _⟩, .chain hProperties => by
    have arguments := isBalanced_lastArguments properties hProperties
    have links := isBalanced_firstLink properties hProperties
    rw [node]
    split
    · next function same => exact (isBalanced_consoleFunction function same).append arguments
    · exact links
  | .ternary ⟨condition, left, right, _⟩, .ternary hCondition hLeft hRight =>
    ((((isBalanced_statement condition hCondition).append (leads_text rfl)).append
      (isBalanced_statement left hLeft)).append (leads_text rfl)).append
      (isBalanced_statement right hRight)

theorem isBalanced_literal : (l : Literal) → (Node.literal l).Named Unbracketed →
    (literal resolutions l).IsBalanced
  | ⟨kind, value, elements, _⟩, .literal hValue hElements => by
    have elements := isBalanced_statements elements hElements
    cases kind with
    | array => exact (isBalanced_commas elements).enclosed [']'] rfl rfl
    | string => exact isBalanced_verbatim value
    | keyword => exact isBalanced_name (hValue nofun nofun)
    | number => exact isBalanced_name (hValue nofun nofun)

theorem isBalanced_lambdaBody : (b : LambdaBody) → (∀ c, b = .block c → c.Named Unbracketed) →
    (∀ s, b = .statement s → s.Named Unbracketed) → (lambdaBody resolutions b).IsBalanced
  | .block b, h, _ => isBalanced_block b (h b rfl)
  | .statement s, _, h => isBalanced_statement s (h s rfl)

theorem isBalanced_call : (c : Call) → (Node.call c).Named Unbracketed → (call resolutions c).IsBalanced
  | ⟨_, _, arguments, token⟩, .call hName hArguments =>
    (isBalanced_callHead names hName token).append
      (Layout.isBalanced_arguments (isBalanced_statements arguments hArguments))

theorem isBalanced_optionLiteral : (l : Option Literal) →
    (∀ m ∈ l, (Node.literal m).Named Unbracketed) → ∀ d ∈ optionLiteral resolutions l, d.IsBalanced
  | none, _ => nofun
  | some l, h => forall_mem_some (isBalanced_literal l (h l rfl))

theorem isBalanced_firstLink : (ps : List Property) → (∀ p ∈ ps, p.Named Unbracketed) →
    (firstLink resolutions ps).IsBalanced
  | [], _ => isBalanced_nil
  | p :: ps, h => by
    have ⟨first, rest⟩ := List.forall_mem_cons.mp h
    have rest := isBalanced_links ps rest
    cases first with
    | reference name => exact (isBalanced_reference names name).append rest
    | call named => exact (isBalanced_call _ named).append rest
    | type named => exact (isBalanced_typeNames named).append rest
    | index named => exact ((isBalanced_statement _ named).enclosed [']'] rfl rfl).append rest
    | head named => exact (isBalanced_node _ named).append rest

theorem isBalanced_links : (ps : List Property) → (∀ p ∈ ps, p.Named Unbracketed) →
    (links resolutions ps).IsBalanced
  | [], _ => isBalanced_nil
  | p :: ps, h => by
    have ⟨first, rest⟩ := List.forall_mem_cons.mp h
    have rest := isBalanced_links ps rest
    have dot : (text ".").IsBalanced := leads_text rfl
    cases first with
    | reference name => exact (dot.append (isBalanced_name name)).append rest
    | @call c named =>
      obtain ⟨name, _, arguments, token⟩ := c
      cases named with
      | call hName hArguments =>
        exact ((isBalanced_callLink names hName token).append
          (Layout.isBalanced_arguments (isBalanced_statements arguments hArguments))).append rest
    | type named => exact (dot.append (isBalanced_typeNames named)).append rest
    | index named => exact ((isBalanced_statement _ named).enclosed [']'] rfl rfl).append rest
    | head named => exact (isBalanced_node _ named).append rest

theorem isBalanced_lastArguments : (ps : List Property) → (∀ p ∈ ps, p.Named Unbracketed) →
    (lastArguments resolutions ps).IsBalanced
  | [], _ => isBalanced_nil
  | [.call ⟨_, _, arguments, _⟩], h => by
    cases List.forall_mem_singleton.mp h with
    | call h =>
      cases h with
      | call _ hArguments => exact Layout.isBalanced_arguments (isBalanced_statements arguments hArguments)
  | [.reference _], _ | [.type _], _ | [.index _], _ | [.head _], _ => isBalanced_nil
  | p :: q :: ps, h => by
    have rest := isBalanced_lastArguments (q :: ps) (List.forall_mem_cons.mp h).2
    rw [lastArguments]
    · exact rest
    · nofun

theorem isBalanced_instantiation : (i : Instantiation) → (Node.instantiation i).Named Unbracketed →
    (instantiation resolutions i).IsBalanced
  | ⟨type, arguments, arraySize, arrayLiteral, body, token⟩,
    .instantiation hType hArguments hSize hLiteral hBody => by
    have closes : (text ")").Leads [')'] [] := leads_text rfl
    have arguments' := isBalanced_commas (isBalanced_statements arguments hArguments)
    have head : (instantiationHead resolutions type token (!arguments.isEmpty)).Leads [] [')'] :=
      leads_instantiationHead hType token _
    have constructed := (head.append (arguments'.leads _)).append closes
    have size := isBalanced_optionStatement arraySize hSize
    have elements := isBalanced_optionLiteral arrayLiteral hLiteral
    have object := isBalanced_optionBody (unbracketed_hostName hType) constructed body hBody
    rw [instantiation]
    split
    · next length same =>
      have opens : (text "new Array(").Leads [] [')'] := leads_text rfl
      have filled : (text (").fill(" ++ type.defaultValue ++ ")")).Leads [')'] [] := by
        have start : (text ").fill(").Leads [')'] [')'] := leads_text rfl
        have value := isBalanced_name (unbracketed_defaultValue type)
        exact (start.text_append (value.leads _)).text_append (leads_text rfl)
      exact (opens.append ((size length same).leads _)).append filled
    · next same => exact elements _ same
    · next same => exact object _ same
    · exact constructed

theorem isBalanced_optionBody {type : String} (hType : Unbracketed type) {constructed : Document}
    (hConstructed : constructed.IsBalanced) : (b : Option ObjectBody) →
    (∀ c ∈ b, c.Named Unbracketed) → ∀ d ∈ optionBody resolutions type constructed b, d.IsBalanced
  | none, _ => nofun
  | some ⟨_, members, initializers, _⟩, h => fun d same => by
    obtain ⟨-, hMembers, hInitializers, -⟩ := h _ rfl
    cases same
    exact Layout.isBalanced_anonymousObject hType (isBalanced_fields _ members hMembers)
      (isBalanced_methods _ (unbracketed_of_mem_storedMethodNames hMembers) members hMembers)
      (isBalanced_blocks initializers hInitializers) hConstructed

theorem isBalanced_fields (isWanted : Modifiers → Bool) : (ms : List Member) →
    (∀ m ∈ ms, m.Named Unbracketed) → ∀ d ∈ fields resolutions isWanted ms, d.IsBalanced
  | [], _ => nofun
  | .field ⟨_, type, _, value, _, _⟩ :: ms, h => by
    have ⟨first, rest⟩ := List.forall_mem_cons.mp h
    have rest := isBalanced_fields isWanted ms rest
    cases first with
    | field hName hValue =>
      have balanced := isBalanced_optionStatement value hValue
      rw [fields]
      split
      · refine List.forall_mem_cons.mpr ⟨Layout.isBalanced_assignment hName ?_, rest⟩
        cases given : optionStatement resolutions value with
        | none => exact isBalanced_name (unbracketed_defaultValue type)
        | some d => exact balanced d given
      · exact rest
  | .method _ :: ms, h | .classDecl _ :: ms, h | .interfaceDecl _ :: ms, h =>
    isBalanced_fields isWanted ms (List.forall_mem_cons.mp h).2

theorem isBalanced_methodBody : (m : Method) → m.Named Unbracketed →
    ∀ d ∈ methodBody resolutions m, d.IsBalanced
  | ⟨_, _, _, _, parameters, _, body, _, _, _⟩, h => fun d mem => by
    obtain ⟨-, hParameters, hBody⟩ := h
    have body := isBalanced_optionBlock body hBody
    obtain ⟨block, same, rfl⟩ := Option.map_eq_some_iff.mp mem
    exact ((Layout.isBalanced_parameters hParameters).append (leads_text rfl)).append
      (body block same)

theorem isBalanced_methods (isWanted : Modifiers → Bool) {stored : List String}
    (hStored : ∀ name ∈ stored, Unbracketed name) : (ms : List Member) →
    (∀ m ∈ ms, m.Named Unbracketed) →
    ∀ m ∈ methods resolutions isWanted stored ms, Unbracketed m.1 ∧ m.2.IsBalanced
  | [], _ => nofun
  | .method m :: ms, h => by
    have ⟨first, rest⟩ := List.forall_mem_cons.mp h
    have rest := isBalanced_methods isWanted (fun name mem => hStored name (List.mem_of_mem_tail mem)) ms rest
    cases first with
    | method named =>
      have body := isBalanced_methodBody m named
      rw [methods]
      split
      · next block _ same =>
        refine List.forall_mem_cons.mpr ⟨⟨?_, body block same⟩, rest⟩
        obtain ⟨name, -, -⟩ := named
        cases stored with
        | nil => exact name
        | cons name stored => exact hStored name (List.mem_cons_self ..)
      · exact rest
  | .field _ :: ms, h | .classDecl _ :: ms, h | .interfaceDecl _ :: ms, h =>
    isBalanced_methods isWanted hStored ms (List.forall_mem_cons.mp h).2

theorem isBalanced_constructors {name : String} (hName : Unbracketed name) (index : Nat) :
    (ms : List Method) → (∀ m ∈ ms, m.Named Unbracketed) →
    ∀ d ∈ constructors resolutions name index ms, d.IsBalanced
  | [], _ => nofun
  | m :: ms, h => by
    have ⟨first, rest⟩ := List.forall_mem_cons.mp h
    have body := isBalanced_methodBody m first
    have rest := isBalanced_constructors hName (index + 1) ms rest
    have stored := isBalanced_name (unbracketed_overloadName hName index)
    obtain ⟨-, parameters, -⟩ := first
    rw [constructors]
    refine List.forall_mem_cons.mpr ⟨(IsBalanced.append (stored.append (leads_text rfl)) ?_).append
      isBalanced_line, rest⟩
    cases given : methodBody resolutions m with
    | none => exact (Layout.isBalanced_parameters parameters).append (leads_text rfl)
    | some block => exact body block given

theorem isBalanced_nestedClasses : (ms : List Member) → (∀ m ∈ ms, m.Named Unbracketed) →
    (nestedClasses resolutions ms).IsBalanced
  | [], _ => isBalanced_nil
  | .classDecl c :: ms, h => by
    have ⟨first, rest⟩ := List.forall_mem_cons.mp h
    have rest := isBalanced_nestedClasses ms rest
    cases first with
    | classDecl named =>
      exact (((isBalanced_classDecl c named).append isBalanced_line).append isBalanced_line).append rest
  | .field _ :: ms, h | .method _ :: ms, h | .interfaceDecl _ :: ms, h =>
    isBalanced_nestedClasses ms (List.forall_mem_cons.mp h).2

theorem isBalanced_classDecl : (c : ClassDecl) → (Node.classDecl c).Named Unbracketed →
    (classDecl resolutions c).IsBalanced
  | ⟨_, name, _, extended, _, ctors, members, initializers, staticInitializers, _, _, _⟩,
    .classDecl hName hExtended body => by
    obtain ⟨hConstructors, hMembers, hInitializers, hStatic⟩ := body
    have stored := unbracketed_of_mem_storedMethodNames hMembers
    have nested := isBalanced_nestedClasses members hMembers
    have ownFields := isBalanced_fields (fun modifiers => !modifiers.isStatic) members hMembers
    have ownMethods := isBalanced_methods (fun modifiers => !modifiers.isStatic) stored members hMembers
    have constructors := isBalanced_constructors hName 0 ctors hConstructors
    have initializers := isBalanced_blocks initializers hInitializers
    have staticSide := Layout.isBalanced_staticSide hName
      (isBalanced_methods (·.isStatic) stored members hMembers) (unbracketed_of_mem_classNames hMembers)
      (isBalanced_fields (·.isStatic) members hMembers) (isBalanced_blocks staticInitializers hStatic)
    rw [classDecl]
    refine (nested.append (Layout.isBalanced_classBody hName hExtended ?_)).append staticSide
    refine List.forall_mem_append.mpr ⟨List.forall_mem_append.mpr ⟨?_, constructors⟩, fun d mem => ?_⟩
    · split
      · exact nofun
      · exact List.forall_mem_singleton.mpr
          (Layout.isBalanced_hostConstructor hName _ ownFields initializers _)
    · obtain ⟨method, isMethod, rfl⟩ := List.mem_map.mp mem
      have ⟨name, body⟩ := ownMethods method isMethod
      exact (IsBalanced.append ((isBalanced_name name).append (leads_text rfl)) body).append
        isBalanced_line

end

/-! ### Files -/

omit names in
theorem isBalanced_require {binding : String} (hBinding : (text binding).IsBalanced) {path : List String}
    (hPath : ∀ name ∈ path, Unbracketed name) : (require binding path).IsBalanced := by
  have start : (text "const ").IsBalanced := leads_text rfl
  have opens : (text " = require('./").Leads [] [')'] := leads_text rfl
  have path : (text ("/".intercalate path)).IsBalanced :=
    isBalanced_name (unbracketed_intercalate (by decide) hPath)
  refine IsBalanced.append ?_ isBalanced_line
  exact (((start.text_append hBinding).text_append opens).text_append (path.leads _)).text_append
    (leads_text rfl)

omit names in
theorem isBalanced_classImport {item : Import} {name : String} (hItem : ∀ name ∈ item.names, Unbracketed name)
    (hName : Unbracketed name) : (classImport item name).IsBalanced := by
  have path (count : Nat) : ∀ name ∈ item.names.take count, Unbracketed name :=
    fun name mem => hItem name (List.mem_of_mem_take mem)
  unfold classImport
  split
  · exact isBalanced_nil
  · dsimp only
    split
    · next member found =>
      have named := isBalanced_name (hItem member (List.mem_of_getElem? found))
      split
      · have opens : (text "\x7b ").Leads [] ['\x7d'] := leads_text rfl
        have binding : (text ("\x7b " ++ member ++ " \x7d")).IsBalanced :=
          (opens.text_append (named.leads _)).text_append (leads_text rfl)
        exact isBalanced_require binding (path _)
      · exact isBalanced_require (isBalanced_name hName) (path _)
    · exact isBalanced_require (isBalanced_name hName) (path _)

omit names in
theorem isBalanced_importDecl {item : Import} (h : item.Named Unbracketed) : (importDecl item).IsBalanced := by
  unfold importDecl
  split
  · exact isBalanced_nil
  split
  · refine isBalanced_flatMap fun name mem => ?_
    have name' := h.group name mem
    refine isBalanced_require (isBalanced_name name') (List.forall_mem_append.mpr ⟨h.names, ?_⟩)
    exact List.forall_mem_singleton.mpr name'
  split
  · next name found => exact isBalanced_classImport h.names (h.default name found)
  · exact isBalanced_nil

theorem isBalanced_file {tree : SourceTree} (h : tree.toFile.Named Unbracketed) :
    (file resolutions tree).IsBalanced := by
  have classes (c : ClassDecl) (mem : c ∈ tree.classes) : (Node.classDecl c).Named Unbracketed := by
    obtain ⟨item, isItem, same⟩ := List.mem_filterMap.mp mem
    cases item with
    | classDecl c' =>
      cases same
      exact h.classes c isItem
    | _ => exact nomatch same
  refine (IsBalanced.append ?_ ?_).append ?_
  · refine isBalanced_flatMap fun item mem => isBalanced_importDecl ?_
    obtain ⟨other, isItem, same⟩ := List.mem_filterMap.mp mem
    cases other with
    | importDecl i =>
      cases same
      exact h.imports item isItem
    | _ => exact nomatch same
  · exact isBalanced_flatMap fun c mem =>
      isBalanced_unit.append (isBalanced_classDecl names c (classes c mem))
  · split
    · next c found =>
      have isClass : c ∈ tree.classes := by
        rw [exported?, Option.or_eq_some_iff] at found
        rcases found with found | ⟨-, found⟩
        · exact List.mem_of_find?_eq_some found
        · exact List.mem_of_mem_head? found
      have name : Unbracketed c.name := by
        cases classes c isClass with
        | classDecl name extended body => exact name
      have start : (text "module.exports = ").IsBalanced := leads_text rfl
      exact isBalanced_unit.append ((start.text_append (isBalanced_name name)).text_append
        (leads_text rfl))
    · exact isBalanced_nil

variable (resolutions) in
/-- What holds of everything that is written, construct by construct. -/
structure Writes (P : Document → Prop) : Prop where
  reference (r : Reference) : Unbracketed r.name → P (reference resolutions r)
  statement (s : Statement) : s.Named Unbracketed → P (statement resolutions s)
  leftSide (isInitialized : Bool) (n : Option Node) : (∀ node ∈ n, node.Named Unbracketed) →
    P (leftSide resolutions isInitialized n)
  lines (ss : List Statement) : (∀ s ∈ ss, s.Named Unbracketed) → P (lines resolutions ss)
  block (b : Block) : b.Named Unbracketed → P (block resolutions b)
  node (n : Node) : n.Named Unbracketed → P (node resolutions n)
  firstLink (ps : List Property) : (∀ p ∈ ps, p.Named Unbracketed) → P (firstLink resolutions ps)
  links (ps : List Property) : (∀ p ∈ ps, p.Named Unbracketed) → P (links resolutions ps)
  lastArguments (ps : List Property) : (∀ p ∈ ps, p.Named Unbracketed) → P (lastArguments resolutions ps)
  fields (isWanted : Modifiers → Bool) (ms : List Member) : (∀ m ∈ ms, m.Named Unbracketed) →
    ∀ d ∈ fields resolutions isWanted ms, P d
  methodBody (m : Method) : m.Named Unbracketed → ∀ d ∈ methodBody resolutions m, P d
  constructors (name : String) (index : Nat) (ms : List Method) : Unbracketed name →
    (∀ m ∈ ms, m.Named Unbracketed) → ∀ d ∈ constructors resolutions name index ms, P d
  nestedClasses (ms : List Member) : (∀ m ∈ ms, m.Named Unbracketed) → P (nestedClasses resolutions ms)
  importDecl (i : Import) : i.Named Unbracketed → P (importDecl i)
  file (tree : SourceTree) : tree.toFile.Named Unbracketed → P (file resolutions tree)

/-- **Everything that is written is balanced,** and so has what balanced documents have. -/
theorem writes_of_isBalanced {P : Document → Prop} (le : ∀ d : Document, d.IsBalanced → P d) :
    Writes resolutions P where
  reference _ h := le _ (isBalanced_reference names h)
  statement s h := le _ (isBalanced_statement names s h)
  leftSide isInitialized n h := le _ (isBalanced_leftSide names isInitialized n h)
  lines ss h := le _ (isBalanced_lines names ss h)
  block b h := le _ (isBalanced_block names b h)
  node n h := le _ (isBalanced_node names n h)
  firstLink ps h := le _ (isBalanced_firstLink names ps h)
  links ps h := le _ (isBalanced_links names ps h)
  lastArguments ps h := le _ (isBalanced_lastArguments names ps h)
  fields isWanted ms h d mem := le d (isBalanced_fields names isWanted ms h d mem)
  methodBody m h d mem := le d (isBalanced_methodBody names m h d mem)
  constructors _ index ms hName h d mem := le d (isBalanced_constructors names hName index ms h d mem)
  nestedClasses ms h := le _ (isBalanced_nestedClasses names ms h)
  importDecl _ h := le _ (isBalanced_importDecl h)
  file _ h := le _ (isBalanced_file names h)

end Emit

/-! ### Trees that are read -/

theorem TokenStream.spells_unbracketed {source : String} {T : TokenStream} (h : scan source = .ok T) :
    T.Spells Unbracketed := by
  refine spells_of_scan h (fun c other => ?_) fun s mem => ?_
  · have bracket : isBracket c = true := Bool.not_eq_false _ ▸ other
    have apart := apply_of_isBracket (fun c => CharClass.of? c == some .symbol &&
      !CharClass.continues .word c && !CharClass.continues .number c) (by decide) bracket
    rw [Bool.and_eq_true, Bool.and_eq_true, beq_iff_eq, Bool.not_eq_true', Bool.not_eq_true'] at apart
    exact ⟨apart.1.1, apart.1.2, apart.2⟩
  · have known : ("" :: "Object" :: Keyword.values).all (fun s => decide (Unbracketed s)) = true := by decide
    have unbracketed : Unbracketed s := of_decide_eq_true (List.all_eq_true.mp known s mem)
    exact unbracketed

namespace SourceTree

/-- A source that can be read names everything by words. -/
theorem named_of_ofText? {text : String} {tree : SourceTree} (h : ofText? text = .ok tree) :
    tree.toFile.Named Unbracketed :=
  (fits_of_ofText? h fun _ => TokenStream.spells_unbracketed).2.1

/-- **The output of a source that can be read is nested.** Outside string
literals its brackets are balanced. The writer never dedents where nothing is
indented, nothing is indented in the end, and whatever is written of a
construct leaves the level as it was. -/
theorem toJavaScript_nested {text : String} {tree : SourceTree} (read : ofText? text = .ok tree)
    {resolutions : Resolutions} (names : resolutions.AreUnbracketed) :
    (Emit.file resolutions tree).marks.map (·.1) = (tree.toJavaScript resolutions).toList ∧
      AreNested (Document.unmarked (Emit.file resolutions tree).marks) ∧
      (∀ front back : Document, Emit.file resolutions tree = front ++ .dedent :: back →
        0 < (front.foldl Writer.put .new).level) ∧
      ((Emit.file resolutions tree).foldl Writer.put .new).level = 0 ∧
      Emit.Writes resolutions Document.KeepsLevel := by
  have balanced := Emit.isBalanced_file names (named_of_ofText? read)
  have ⟨level, dedents⟩ := balanced.keepsLevel .new
  exact ⟨Document.map_marks _, balanced.areNested_marks, dedents, level,
    Emit.writes_of_isBalanced names fun _ h => h.keepsLevel⟩

/-- Brackets of all kinds, and one in a string. -/
theorem toJavaScript_nested_call :
    ∃ tree, ofText? "class A \x7b int f(int[] x) \x7b if (x[0] > 1) \x7b return g(\"(\"); \x7d return 0; \x7d \x7d" = .ok tree ∧
      let resolutions := (Resolutions.empty.addCallName 23 "g_0").addQualifier 23 "this"
      resolutions.AreUnbracketed ∧
        AreNested (Document.unmarked (Emit.file resolutions tree).marks) ∧
        ((Emit.file resolutions tree).foldl Writer.put .new).level = 0 := by
  obtain ⟨tree, read, -⟩ := exists_ok (ofText? "class A \x7b int f(int[] x) \x7b if (x[0] > 1) \x7b return g(\"(\"); \x7d return 0; \x7d \x7d")
    (fun _ => True) (by decide +kernel)
  have names : ((Resolutions.empty.addCallName 23 "g_0").addQualifier 23 "this").AreUnbracketed :=
    ⟨List.forall_mem_singleton.mpr (by decide), List.forall_mem_singleton.mpr (by decide)⟩
  have ⟨_, brackets, _, level, _⟩ := toJavaScript_nested read names
  exact ⟨tree, read, names, brackets, level⟩

end SourceTree
end Javascribe
