/-
# Settled types

Types are written down as references, to be followed when they are read. No
reference gets out of a check: what it gives is a type that is known, in every
context. Most parts follow a reference themselves before they give it. A local
name is given as it was declared; it is declared with a type that is known, and
the scopes hold no other names (`Local.settled`).

Key definitions: `Checker.Always`, `Check.Expresses`.
Key theorems: `Check.always_statement`, `Check.types_settled`.
-/
import Javascribe.Proofs.CheckFrame

namespace Javascribe

open Javascribe.Tree

attribute [grind =] Constraint.dynamic Native.string Native.number Native.boolean Native.void
  Native.null

theorem Constraint.IsSettled.resolve_eq {c : Constraint} (h : c.IsSettled) (d : Dictionary) :
    d.resolve c = c := by
  unfold Dictionary.resolve
  split
  · next candidates hUnresolved => exact absurd hUnresolved (h.ne_unresolved candidates)
  · rfl

/-! ### Checks -/

namespace Checker

variable {α β : Type} {m : Checker α} {post : α → Prop}

/-- What the check gives has a property, wherever it is made. -/
def Always (post : α → Prop) (m : Checker α) : Prop :=
  ∀ env before, match m env before with
    | .ok a _ => post a
    | .error _ _ => True

theorem Always.bind_of {f : α → Checker β} {post' : β → Prop} (hm : Always post m)
    (hf : ∀ a, post a → Always post' (f a)) : Always post' (m >>= f) := by
  intro env before
  have hFirst := hm env before
  change match EStateM.bind (m env) (fun a => f a env) before with
    | .ok b _ => post' b
    | .error _ _ => True
  rw [EStateM.bind]
  cases hRun : m env before with
  | error halt after => trivial
  | ok a between =>
    simp only [hRun] at hFirst
    exact hf a hFirst env between

theorem always_true (m : Checker α) : Always (fun _ => True) m := by
  intro env before
  cases m env before <;> trivial

@[grind ←]
theorem Always.bind {f : α → Checker β} {post : β → Prop} (h : ∀ a, Always post (f a)) :
    Always post (m >>= f) :=
  (always_true m).bind_of fun a _ => h a

@[grind ←]
theorem Always.pure {a : α} (h : post a) : Always post (pure a : Checker α) := fun _ _ => h

@[grind ←]
theorem Always.halt (token : Nat) (code : Code) (arguments : List String) :
    Always post (halt token code arguments : Checker α) :=
  fun _ _ => trivial

/-! ### Operators -/

open Constraint (IsSettled)

@[grind ←]
theorem always_resolve (c : Constraint) : Always IsSettled (resolve c) :=
  fun env _ => env.dictionary.isSettled_resolve c

@[grind ←]
theorem always_typeOf (type : TypeRef) : Always IsSettled (typeOf type) := by
  unfold typeOf
  grind

theorem always_castToOption {source : Constraint} (h : source.IsSettled) (cast : Option TypeRef) :
    Always IsSettled (castToOption source cast) := by
  cases cast with
  | none => exact .pure h
  | some type => exact .bind_of (always_typeOf type) fun _ hType => by grind

@[grind ←]
theorem always_invalidOperator (use : OperatorUse) (operand : Constraint) :
    Always IsSettled (invalidOperator use operand) := by
  unfold invalidOperator
  grind

@[grind ←]
theorem always_expectOperand (use : OperatorUse) (operand : Constraint) {expected : Constraint}
    (h : expected.IsSettled) : Always IsSettled (expectOperand use operand expected) := by
  unfold expectOperand
  grind

@[grind ←]
theorem always_expectOperands (use : OperatorUse) (left right expected : Constraint)
    {result : Constraint} (h : result.IsSettled) :
    Always IsSettled (expectOperands use left right expected result) := by
  unfold expectOperands
  grind

@[grind ←]
theorem always_binary (use : OperatorUse) {left : Constraint} (h : left.IsSettled)
    (right : Constraint) : Always IsSettled (binary use left right) := by
  unfold binary sum bitwise
  grind

theorem always_assigned (use : OperatorUse) {target : Constraint} (h : target.IsSettled)
    (value : Constraint) (token : Nat) : Always IsSettled (assigned use target value token) := by
  unfold assigned
  grind

theorem always_commonBranch {left right : Constraint} (h : left.IsSettled) (h' : right.IsSettled) :
    Always IsSettled (commonBranch left right) := by
  unfold commonBranch
  grind

theorem isSettled_scalarLiteral (kind : LiteralKind) (value : String) :
    (scalarLiteral kind value).IsSettled := by
  unfold scalarLiteral
  grind

/-! ### Names -/

@[grind ←]
theorem always_unknownIdentifier (name : String) (token : Nat) :
    Always IsSettled (unknownIdentifier name token) := by
  unfold unknownIdentifier
  grind

theorem always_global? (names : List String) :
    Always (fun found => ∀ c, found = some c → c.IsSettled) (global? names) := by
  intro env before c hFound
  obtain ⟨symbol, -, rfl⟩ := Option.map_eq_some_iff.mp hFound
  exact env.dictionary.isSettled_resolve symbol.constraint

theorem always_globalReference (name : String) (token : Nat) :
    Always IsSettled (globalReference name token) := by
  refine (always_global? [name]).bind_of fun found hFound => ?_
  grind

theorem always_reference (target : Reference) : Always IsSettled (reference target) := by
  unfold reference
  split
  · unfold thisReference
    grind
  · refine .bind fun context => ?_
    cases context.objects.head? <;> grind
  · next name token _ _ =>
    refine .bind fun found => ?_
    cases found with
    | some declared => exact .pure declared.settled
    | none =>
      refine .bind fun member => ?_
      cases member with
      | some member => unfold memberReference; grind
      | none => exact always_globalReference name token

theorem always_assignedReference (target : Reference) :
    Always IsSettled (assignedReference target) := by
  refine .bind fun found => ?_
  cases found with
  | some declared => exact .bind fun _ => .pure declared.settled
  | none =>
    refine .bind fun member => ?_
    cases member with
    | some member => exact .bind fun _ => always_reference target
    | none => exact always_reference target

/-! ### Calls and chains -/

@[grind ←]
theorem always_callValue (callee : Constraint) (name : String) (arguments : List Constraint)
    (token : Nat) : Always IsSettled (callValue callee name arguments token) := by
  unfold callValue notFunction invalidArguments
  grind

theorem always_call (name : String) (arguments : List Constraint) (token : Nat) :
    Always IsSettled (call name arguments token) := by
  have hEnclosing (objects : List Nat) :
      Always IsSettled (enclosingCall name arguments token objects) := by
    induction objects with
    | nil => unfold enclosingCall globalCall; grind
    | cons id objects ih =>
      refine .bind fun found => ?_
      cases found with
      | found method => unfold memberCall; grind
      | missing => exact ih
      | _ => unfold notFunction invalidArguments; grind
  unfold call
  grind

theorem always_leadingName (first : Reference) (names : List String) :
    Always (·.1.IsSettled) (leadingName first names) := by
  have hLongest (length : Nat) :
      Always (fun found => ∀ c, found = some c → c.1.IsSettled) (longestGlobal? names length) := by
    induction length with
    | zero => exact .pure (by simp)
    | succ length ih =>
      refine (always_global? _).bind_of fun found hFound => ?_
      cases found with
      | none => exact ih
      | some c => exact .pure fun _ hSome => Option.some.inj hSome ▸ hFound c rfl
  refine .bind fun isValue => ?_
  cases isValue with
  | true => exact (always_reference first).bind_of fun _ h => .pure h
  | false =>
    refine (hLongest names.length).bind_of fun found hFound => ?_
    cases found with
    | some c => exact .pure (hFound c rfl)
    | none =>
      refine .bind fun isImported => ?_
      cases isImported with
      | true => exact .pure (Constraint.isSettled_simple .dynamic)
      | false => exact (always_unknownIdentifier _ _).bind_of fun _ h => .pure h

theorem always_memberOf (receiver : Constraint) (name : String) (token : Nat) :
    Always (·.constraint.IsSettled) (memberOf receiver name token) := by
  refine .bind fun receiver => ?_
  split
  · exact .pure (Constraint.isSettled_simple .number)
  · refine .bind fun object => .bind fun found => ?_
    cases found with
    | none => unfold memberNotFound; grind
    | some member =>
      have hType : Always (·.constraint.IsSettled) (do
          return Link.mk (← resolve member.constraint) (some member)) :=
        (always_resolve _).bind_of fun _ h => .pure h
      grind

theorem always_callLink (receiver : Constraint) (name : Option String)
    (arguments : List Constraint) (token : Nat) :
    Always IsSettled (callLink receiver name arguments token) := by
  cases name with
  | none => exact always_callValue receiver _ arguments token
  | some name =>
    refine .bind fun receiver => .bind fun object => .bind fun found => ?_
    cases found <;> unfold memberNotFound notFunction invalidArguments <;> grind

theorem always_elementOf (receiver index : Constraint) (token : Nat) :
    Always IsSettled (elementOf receiver index token) := by
  unfold elementOf invalidExpression
  grind

end Checker

/-! ### Trees -/

namespace Check

open Javascribe.Checker
open Constraint (IsSettled)

theorem always_functionCall : (c : Call) → Always IsSettled (functionCall c)
  | ⟨some name, _, _, token⟩ => .bind fun arguments => always_call name arguments token
  | ⟨none, _, _, token⟩ => .bind fun _ => .halt token _ _

theorem always_instantiation (i : Instantiation) : Always IsSettled (instantiation i) := by
  obtain ⟨type, arguments, size, literal, body, token⟩ := i
  unfold instantiation
  refine (always_typeOf type).bind_of fun constructed hType => ?_
  cases size with
  | some size => grind
  | none =>
    cases literal with
    | some literal => grind
    | none =>
      refine .bind fun arguments => ?_
      cases constructed.definition.object? <;> grind

/-- The type that a variable is declared with. -/
theorem always_declareVariable (declaration : Variable) (isConstant : Bool) :
    Always IsSettled (declareVariable declaration isConstant) :=
  .bind fun declared => .bind fun _ => .pure declared.settled

mutual

theorem always_statement : (s : Statement) → Always IsSettled (statement s)
  | ⟨left, none, _, _, cast, _, _⟩ => by
    unfold statement
    cases left with
    | none => exact .pure (Constraint.isSettled_simple .void)
    | some n => exact (always_node n).bind_of fun _ h => always_castToOption h cast
  | ⟨some target, some use, some value, _, _, _, _⟩ => by
    unfold statement
    split
    · exact .bind fun given => (always_assignmentTarget true target).bind_of fun _ h =>
        always_assigned use h given value.token
    · refine (always_node target).bind_of fun _ h => ?_
      grind
  | ⟨some target, some use, none, _, _, _, token⟩ => by
    unfold statement invalidAssignment invalidExpression
    grind
  | ⟨none, some use, some operand, _, _, _, token⟩ => by
    unfold statement invalidAssignment invalidExpression unaryOperand?
    grind
  | ⟨none, some use, none, _, _, _, token⟩ => by
    unfold statement invalidAssignment invalidExpression
    grind

theorem always_assignmentTarget (isAssignment : Bool) :
    (n : Node) → Always IsSettled (assignmentTarget isAssignment n)
  | .declaration d => always_declareVariable d _
  | .reference r => always_assignedReference r
  | .chain ⟨properties, token⟩ => by
    unfold assignmentTarget
    split
    · refine (always_chain token properties).bind_of fun last h => ?_
      grind
    · have hHalts : Always (fun _ => False) (invalidAssignment token : Checker PUnit) :=
        .halt token _ _
      exact hHalts.bind_of fun _ h => h.elim
  | .statement s => always_simpleTarget isAssignment s
  | .instruction _ | .assertion _ | .literal _ | .lambda _ | .call _ | .instantiation _
  | .classDecl _ | .ifElse _ | .forLoop _ | .whileLoop _ | .doWhileLoop _ | .switch _
  | .tryCatch _ | .ternary _ => .halt _ _ _

theorem always_simpleTarget (isAssignment : Bool) :
    (s : Statement) → Always IsSettled (simpleTarget isAssignment s)
  | ⟨some target, none, none, _, none, _, _⟩ => always_assignmentTarget isAssignment target
  | ⟨none, _, _, _, _, _, _⟩ | ⟨some _, some _, _, _, _, _, _⟩ | ⟨some _, none, some _, _, _, _, _⟩
  | ⟨some _, none, none, _, some _, _, _⟩ => .halt _ _ _

theorem always_node : (n : Node) → Always IsSettled (node n)
  | .statement s => always_statement s
  | .reference r => always_reference r
  | .call c => always_functionCall c
  | .instantiation i => always_instantiation i
  | .chain ⟨properties, token⟩ => (always_chain token properties).bind_of fun _ h => .pure h
  | .ternary ⟨test, left, right, _⟩ =>
    .bind fun _ => (always_statement left).bind_of fun _ h =>
      (always_statement right).bind_of fun _ h' => always_commonBranch h h'
  | .declaration d => always_declareVariable d false
  | .literal ⟨.array, _, items, _⟩ =>
    .bind fun _ => .bind fun _ => .pure (Constraint.isSettled_arrayOf _)
  | .literal ⟨.string, value, _, _⟩ | .literal ⟨.number, value, _, _⟩
  | .literal ⟨.keyword, value, _, _⟩ => .pure (isSettled_scalarLiteral _ value)
  | .lambda ⟨parameters, body, _⟩ => .bind fun _ => .pure (Constraint.isSettled_simple .dynamic)
  | .classDecl _ => .pure (Constraint.isSettled_simple .void)
  | .instruction ⟨kind, value, token⟩ => by
    cases kind <;> unfold node <;> grind
  | .assertion ⟨test, message, _⟩ | .ifElse ⟨tests, branches, _⟩
  | .forLoop ⟨initialization, test, increment, iterable, isEnhanced, body, _⟩
  | .whileLoop ⟨test, body, _⟩ | .doWhileLoop ⟨body, test, _⟩
  | .switch ⟨value, cases, bodies, default, _⟩
  | .tryCatch ⟨body, _, names, clauses, finallyBlock, _⟩ => by
    unfold node
    grind

theorem always_chain (token : Nat) :
    (ps : List Property) → Always (·.constraint.IsSettled) (chain token ps)
  | [] => .halt token _ _
  | .reference r :: ps =>
    (always_leadingName r _).bind_of fun (_, taken) h => always_links (taken - 1) h ps
  | .call c :: ps => (always_functionCall c).bind_of fun _ h => always_links 0 h ps
  | .head n :: ps => (always_node n).bind_of fun _ h => always_links 0 h ps
  | .type t :: ps => (always_typeOf t).bind_of fun _ h => always_links 0 h ps
  | .index s :: _ => .halt s.token _ _

theorem always_links (taken : Nat) {link : Link} (h : link.constraint.IsSettled) :
    (ps : List Property) → Always (·.constraint.IsSettled) (links taken link ps)
  | [] => .pure h
  | p :: ps => by
    unfold links
    cases taken with
    | succ rest => exact always_links rest h ps
    | zero =>
      refine .bind fun resolved => ?_
      split
      · exact .bind fun _ => @always_links 0 ⟨link.constraint, none⟩ h ps
      · exact (always_property link.constraint p).bind_of fun _ h => always_links 0 h ps

theorem always_property (receiver : Constraint) :
    (p : Property) → Always (·.constraint.IsSettled) (property receiver p)
  | .reference r => always_memberOf receiver r.name r.token
  | .call ⟨name, _, _, token⟩ => .bind fun arguments =>
    (always_callLink receiver name arguments token).bind_of fun _ h => .pure h
  | .index s => .bind fun index =>
    (always_elementOf receiver index s.token).bind_of fun _ h => .pure h
  | .type t => (always_typeOf t).bind_of fun _ h => .pure h
  | .head n => (always_node n).bind_of fun _ h => .pure h

end

/-- The checks of expressions, and of what is assigned to. -/
inductive Expresses : Checker Constraint → Prop
  | statement (s : Statement) : Expresses (statement s)
  | node (n : Node) : Expresses (node n)
  | target (isAssignment : Bool) (n : Node) : Expresses (assignmentTarget isAssignment n)
  | reference (r : Reference) : Expresses (reference r)
  | functionCall (c : Call) : Expresses (functionCall c)
  | chain (token : Nat) (ps : List Property) : Expresses (do return (← chain token ps).constraint)
  | instantiation (i : Instantiation) : Expresses (instantiation i)

theorem Expresses.always {m : Checker Constraint} (h : Expresses m) : Always IsSettled m := by
  cases h with
  | statement s => exact always_statement s
  | node n => exact always_node n
  | target isAssignment n => exact always_assignmentTarget isAssignment n
  | reference r => exact always_reference r
  | functionCall c => exact always_functionCall c
  | chain token ps => exact always_node (.chain ⟨ps, token⟩)
  | instantiation i => exact always_instantiation i

/-- **No reference to a type gets out.** In every context, and so in every one
that the check of a file passes through, each local name and all that an
expression gives is of a type that is known. It is what it is taken for when it
is asked whether it can be anything, or what its elements are. -/
theorem types_settled (env : Environment) (context : Context) (type : Constraint)
    (given : (∃ level ∈ context.scopes.levels, ∃ l ∈ level.values, l.constraint = type) ∨
      ∃ m after, Expresses m ∧ m env context = .ok type after) :
    (∀ candidates, type.definition ≠ .unresolved candidates) ∧
      env.dictionary.resolve type = type := by
  suffices hSettled : type.IsSettled from ⟨hSettled.ne_unresolved, hSettled.resolve_eq env.dictionary⟩
  obtain ⟨level, -, l, -, rfl⟩ | ⟨m, after, hCheck, hRun⟩ := given
  · exact l.settled
  · have hGiven := hCheck.always env context
    rwa [hRun] at hGiven

/-- A local array of numbers, declared by a statement and then read. -/
theorem types_settled_array :
    let env : Environment := ⟨"A.java", .link [] 1 "", .empty, .new "A.java", [], false⟩
    let declaration : Node := .declaration ⟨false, ⟨["int"], [], 1, 0⟩, "x", false, 0⟩
    ∃ context, node declaration env { scopes := Scopes.empty.enter } =
        .ok (.arrayOf Native.number) context ∧
      reference ⟨"x", 1⟩ env context = .ok (.arrayOf Native.number) context ∧
      env.dictionary.resolve (.arrayOf Native.number) = .arrayOf Native.number := by
  intro env declaration
  have ran : ∃ context, node declaration env { scopes := Scopes.empty.enter } =
        .ok (.arrayOf Native.number) context ∧
      reference ⟨"x", 1⟩ env context = .ok (.arrayOf Native.number) context := ⟨_, rfl, rfl⟩
  obtain ⟨context, declared, given⟩ := ran
  have settled := types_settled env context _ (.inr ⟨_, _, .reference _, given⟩)
  exact ⟨context, declared, given, settled.2⟩

end Check
end Javascribe
