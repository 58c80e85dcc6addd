/-
# Checks that look into no tree

The parts of the checker that look into no tree do little to the context:
they declare local names, report problems and note which methods and constructors calls mean. That is said once for each of them here,
and the frames of the check of trees take it from here.

Not among them are the parts that note a qualifier, that control leaves, or
that a statement cannot be reached.

Key definitions: `Context.Extends`, `Checker.Plain`.
-/
import Javascribe.Checking.Check

namespace Javascribe

open Javascribe.Tree

/-! ### Contexts -/

/-- The scopes with more names in the innermost one. -/
def Scopes.Declares (before after : Scopes) : Prop :=
  ∃ locals : List Local, after = locals.foldl Scopes.declare before

namespace Scopes.Declares

variable {a b c : Scopes}

theorem refl (a : Scopes) : Declares a a := ⟨[], rfl⟩

theorem trans : Declares a b → Declares b c → Declares a c := by
  rintro ⟨locals, rfl⟩ ⟨locals', rfl⟩
  exact ⟨locals ++ locals', List.foldl_append.symm⟩

/-- When a scope is left, the scopes are those in which it was entered. -/
theorem exit (h : Declares a.enter b) : b.exit = a := by
  obtain ⟨locals, rfl⟩ := h
  suffices h : ∀ level : Table String Local, ∃ level',
      locals.foldl Scopes.declare ⟨level :: a.levels⟩ = ⟨level' :: a.levels⟩ by
    obtain ⟨level', hLevel⟩ := h .empty
    rw [Scopes.enter, hLevel]
    rfl
  induction locals with
  | nil => exact fun level => ⟨level, rfl⟩
  | cons declared locals ih => exact fun level => ih (level.insert declared.name declared)

end Scopes.Declares

/-- The context with more local names, problems other than unreachable code,
and notes on calls. -/
structure Context.Extends (env : Environment) (before after : Context) : Prop where
  objects : after.objects = before.objects
  expected : after.expected = before.expected
  enclosing : after.enclosing = before.enclosing
  generics : after.generics = before.generics
  flags : after.flags = before.flags
  qualifiers : after.resolutions.qualifiers = before.resolutions.qualifiers
  scopes : before.scopes.Declares after.scopes
  diagnostics : ∃ halts : List Halt,
    after.diagnostics = before.diagnostics ++ halts.map env.diagnostic ∧
      ∀ halt ∈ halts, halt.code ≠ .unreachableCode

namespace Context.Extends

variable {env : Environment} {a b c : Context}

theorem refl (a : Context) : Extends env a a :=
  ⟨rfl, rfl, rfl, rfl, rfl, rfl, .refl _, ⟨[], by simp, by simp⟩⟩

theorem trans (h : Extends env a b) (h' : Extends env b c) : Extends env a c := by
  obtain ⟨halts, hHalts, hCodes⟩ := h.diagnostics
  obtain ⟨halts', hHalts', hCodes'⟩ := h'.diagnostics
  exact ⟨h'.objects.trans h.objects, h'.expected.trans h.expected, h'.enclosing.trans h.enclosing,
    h'.generics.trans h.generics, h'.flags.trans h.flags, h'.qualifiers.trans h.qualifiers,
    h.scopes.trans h'.scopes,
    ⟨halts ++ halts', by rw [hHalts', hHalts, List.map_append, List.append_assoc],
      List.forall_mem_append.mpr ⟨hCodes, hCodes'⟩⟩⟩

end Context.Extends

namespace Resolutions

variable (resolutions : Resolutions) (token : Nat)

@[grind =]
theorem qualifiers_addCallName (name : String) :
    (resolutions.addCallName token name).qualifiers = resolutions.qualifiers := rfl

@[grind =]
theorem qualifiers_addConstructor (index : Nat) :
    (resolutions.addConstructor token index).qualifiers = resolutions.qualifiers := rfl

end Resolutions

/-! ### Checks -/

namespace Checker

/-- A check that only extends the context, and does not halt at unreachable code. -/
def Plain {α : Type} (m : Checker α) : Prop :=
  ∀ env before, match m env before with
    | .ok _ after => before.Extends env after
    | .error halt after => before.Extends env after ∧ halt.code ≠ .unreachableCode

variable {α β : Type}

@[grind ←]
theorem Plain.bind {m : Checker α} {f : α → Checker β} (hm : Plain m) (hf : ∀ a, Plain (f a)) :
    Plain (m >>= f) := by
  intro env before
  have hFirst := hm env before
  change match EStateM.bind (m env) (fun a => f a env) before with
    | .ok _ after => before.Extends env after
    | .error halt after => before.Extends env after ∧ halt.code ≠ .unreachableCode
  rw [EStateM.bind]
  cases hm : m env before with
  | error halt after => simpa only [hm] using hFirst
  | ok a between =>
    simp only [hm] at hFirst
    have hSecond := hf a env between
    cases hf : f a env between <;> simp only [hf] at hSecond ⊢
    · exact hFirst.trans hSecond
    · exact ⟨hFirst.trans hSecond.1, hSecond.2⟩

@[grind ←]
theorem Plain.pure (a : α) : Plain (pure a : Checker α) := fun _ before => .refl before

@[grind ←]
theorem Plain.orM {m n : Checker Bool} (hm : Plain m) (hn : Plain n) : Plain (m <||> n) := by
  refine hm.bind fun b => ?_
  cases b
  · exact hn
  · exact .pure true

@[grind ←]
theorem Plain.andM {m n : Checker Bool} (hm : Plain m) (hn : Plain n) : Plain (m <&&> n) := by
  refine hm.bind fun b => ?_
  cases b
  · exact .pure false
  · exact hn

@[grind ←]
theorem Plain.forM {xs : List α} {f : α → Checker PUnit} (hf : ∀ x, Plain (f x)) :
    Plain (xs.forM f) := by
  induction xs with
  | nil => exact .pure _
  | cons x xs ih => exact (hf x).bind fun _ => ih

@[grind ←]
theorem Plain.mapM {xs : List α} {f : α → Checker β} (hf : ∀ x, Plain (f x)) :
    Plain (xs.mapM f) := by
  induction xs with
  | nil => exact .pure _
  | cons x xs ih =>
    rw [List.mapM_cons]
    exact (hf x).bind fun y => ih.bind fun ys => .pure (y :: ys)

@[grind ←]
theorem Plain.allM {xs : List α} {f : α → Checker Bool} (hf : ∀ x, Plain (f x)) :
    Plain (xs.allM f) := by
  induction xs with
  | nil => exact .pure _
  | cons x xs ih =>
    refine (hf x).bind fun b => ?_
    cases b
    · exact .pure false
    · exact ih

@[grind ←]
theorem Plain.read : Plain (read : Checker Environment) := fun _ before => .refl before

@[grind ←]
theorem Plain.get : Plain (get : Checker Context) := fun _ before => .refl before

@[grind ←]
theorem Plain.declare (declared : Local) : Plain (declare declared) :=
  fun _ _ => ⟨rfl, rfl, rfl, rfl, rfl, rfl, ⟨[declared], rfl⟩, ⟨[], by simp, by simp⟩⟩

@[grind ←]
theorem Plain.resolution {change : Resolutions → Resolutions}
    (h : ∀ resolutions, (change resolutions).qualifiers = resolutions.qualifiers) :
    Plain (resolution change) :=
  fun _ before =>
    ⟨rfl, rfl, rfl, rfl, rfl, h before.resolutions, .refl _, ⟨[], by simp, by simp⟩⟩

@[grind ←]
theorem Plain.report {token : Nat} {code : Code} {arguments : List String}
    (h : code ≠ .unreachableCode) : Plain (report token code arguments) :=
  fun _ _ => ⟨rfl, rfl, rfl, rfl, rfl, rfl, .refl _, ⟨[⟨token, code, arguments⟩], rfl, by simpa⟩⟩

@[grind ←]
theorem Plain.halt {token : Nat} {code : Code} {arguments : List String}
    (h : code ≠ .unreachableCode) : Plain (halt token code arguments : Checker α) :=
  fun _ before => ⟨.refl before, h⟩

@[grind ←]
theorem Plain.check {condition : Bool} {token : Nat} {code : Code} {arguments : List String}
    (h : code ≠ .unreachableCode) : Plain (check condition token code arguments) := by
  rw [Checker.check]
  grind

@[grind ←]
theorem Plain.require {condition : Bool} {token : Nat} {code : Code} {arguments : List String}
    (h : code ≠ .unreachableCode) : Plain (require condition token code arguments) := by
  rw [Checker.require]
  grind

/-! ### Reading -/

variable (constraint source target left right operand expected result receiver : Constraint)
  (callee : Constraint) (type : TypeRef) (use : OperatorUse) (member : ObjectMember) (name : String)
  (arguments : List Constraint) (token : Nat)

@[grind ←]
theorem plain_ask (question : Dictionary → α) : Plain (ask question : Checker α) := by
  unfold ask
  grind

@[grind ←]
theorem plain_resolve : Plain (resolve constraint) := by
  unfold resolve
  grind

@[grind ←]
theorem plain_typeOf : Plain (typeOf type) := by
  unfold typeOf
  grind

@[grind ←]
theorem plain_localOf (isConstant : Bool) : Plain (localOf name type isConstant) := by
  unfold localOf
  grind

@[grind ←]
theorem plain_typeName : Plain (typeName constraint) := by
  unfold typeName
  grind

@[grind ←]
theorem plain_fits : Plain (fits source target) := by
  unfold fits
  grind

@[grind ←]
theorem plain_isExactly (type : SimpleType) : Plain (isExactly constraint type) := by
  unfold isExactly
  grind

@[grind ←]
theorem plain_checkAssignable : Plain (checkAssignable source target token) := by
  unfold checkAssignable
  grind

@[grind ←]
theorem plain_flags : Plain flags := by
  unfold flags
  grind

@[grind ←]
theorem plain_local? : Plain (local? name) := by
  unfold local?
  grind

/-! ### Operators and assignments -/

@[grind ←]
theorem plain_declareVariable (declaration : Variable) (isConstant : Bool) :
    Plain (declareVariable declaration isConstant) := by
  unfold declareVariable
  grind

@[grind ←]
theorem plain_isTextual : Plain (isTextual constraint) := by
  unfold isTextual
  grind

@[grind ←]
theorem plain_castTo : Plain (castTo source type) := by
  unfold castTo
  grind

@[grind ←]
theorem plain_castToOption (type : Option TypeRef) : Plain (castToOption source type) := by
  unfold castToOption
  grind

@[grind ←]
theorem plain_invalidOperator : Plain (invalidOperator use operand) := by
  unfold invalidOperator
  grind

@[grind ←]
theorem plain_expectOperand : Plain (expectOperand use operand expected) := by
  unfold expectOperand
  grind

@[grind ←]
theorem plain_expectOperands : Plain (expectOperands use left right expected result) := by
  unfold expectOperands
  grind

@[grind ←]
theorem plain_sum : Plain (sum use left right) := by
  unfold sum
  grind

@[grind ←]
theorem plain_bitwise : Plain (bitwise use left right) := by
  unfold bitwise
  grind

@[grind ←]
theorem plain_binary : Plain (binary use left right) := by
  unfold binary
  grind

@[grind ←]
theorem plain_invalidAssignment : Plain (invalidAssignment token : Checker α) := by
  unfold invalidAssignment
  grind

@[grind ←]
theorem plain_invalidExpression : Plain (invalidExpression token : Checker α) := by
  unfold invalidExpression
  grind

@[grind ←]
theorem plain_assigned (value : Constraint) : Plain (assigned use target value token) := by
  unfold assigned
  grind

@[grind ←]
theorem plain_commonElement (elements : List Constraint) : Plain (commonElement elements) := by
  unfold commonElement
  grind

@[grind ←]
theorem plain_commonBranch : Plain (commonBranch left right) := by
  unfold commonBranch
  grind

/-! ### Names, members and calls -/

@[grind ←]
theorem plain_declaredName : Plain (declaredName member) := by
  unfold declaredName
  grind

@[grind ←]
theorem plain_objectName (id : Nat) : Plain (objectName id) := by
  unfold objectName
  grind

@[grind ←]
theorem plain_visibleMember? : Plain (visibleMember? name) := by
  unfold visibleMember?
  grind

@[grind ←]
theorem plain_requireReach : Plain (requireReach member token) := by
  unfold requireReach
  grind

@[grind ←]
theorem plain_requireStatic : Plain (requireStatic member token) := by
  unfold requireStatic
  grind

@[grind ←]
theorem plain_noteCallName (written stored : String) :
    Plain (noteCallName written stored token) := by
  unfold noteCallName
  grind

@[grind ←]
theorem plain_requireMutable : Plain (requireMutable member token) := by
  unfold requireMutable
  grind

@[grind ←]
theorem plain_isStaticallyImported : Plain (isStaticallyImported name) := by
  unfold isStaticallyImported
  grind

@[grind ←]
theorem plain_global? (names : List String) : Plain (global? names) := by
  unfold global?
  grind

@[grind ←]
theorem plain_unknownIdentifier : Plain (unknownIdentifier name token) := by
  unfold unknownIdentifier
  grind

@[grind ←]
theorem plain_parentClass? (id : Nat) : Plain (parentClass? id) := by
  unfold parentClass?
  grind

@[grind ←]
theorem plain_thisReference : Plain (thisReference token) := by
  unfold thisReference
  grind

@[grind ←]
theorem plain_superReference : Plain (superReference token) := by
  unfold superReference
  grind

@[grind ←]
theorem plain_globalReference : Plain (globalReference name token) := by
  unfold globalReference
  grind

@[grind ←]
theorem plain_argumentNames : Plain (argumentNames arguments) := by
  unfold argumentNames
  grind

@[grind ←]
theorem plain_invalidArguments : Plain (invalidArguments name arguments token : Checker α) := by
  unfold invalidArguments
  grind

@[grind ←]
theorem plain_notFunction : Plain (notFunction name token : Checker α) := by
  unfold notFunction
  grind

@[grind ←]
theorem plain_callValue : Plain (callValue callee name arguments token) := by
  unfold callValue
  grind

@[grind ←]
theorem plain_requireConstructor (condition : Bool) :
    Plain (requireConstructor condition arguments token) := by
  unfold requireConstructor
  grind

@[grind ←]
theorem plain_delegate (target : Nat) : Plain (delegate target token arguments) := by
  unfold delegate
  grind

@[grind ←]
theorem plain_constructorCall (isThis : Bool) : Plain (constructorCall isThis token arguments) := by
  unfold constructorCall
  grind

@[grind ←]
theorem plain_globalCall : Plain (globalCall name arguments token) := by
  unfold globalCall
  grind

@[grind ←]
theorem plain_longestGlobal? (names : List String) (length : Nat) :
    Plain (longestGlobal? names length) := by
  induction length <;> unfold longestGlobal? <;> grind

@[grind ←]
theorem plain_isValueName : Plain (isValueName name) := by
  unfold isValueName
  grind

@[grind ←]
theorem plain_memberNotFound : Plain (memberNotFound receiver name token : Checker α) := by
  unfold memberNotFound
  grind

@[grind ←]
theorem plain_receiverObject : Plain (receiverObject receiver name token) := by
  unfold receiverObject
  grind

@[grind ←]
theorem plain_memberOf : Plain (memberOf receiver name token) := by
  refine (plain_resolve receiver).bind fun receiver => ?_
  split
  · exact .pure _
  · refine (plain_receiverObject receiver name token).bind fun object => ?_
    grind

@[grind ←]
theorem plain_methodOf : Plain (methodOf receiver name arguments token) := by
  refine (plain_resolve receiver).bind fun receiver => ?_
  refine (plain_receiverObject receiver name token).bind fun object => ?_
  grind

@[grind ←]
theorem plain_callLink (name : Option String) : Plain (callLink receiver name arguments token) := by
  unfold callLink
  grind

@[grind ←]
theorem plain_elementOf (index : Constraint) : Plain (elementOf receiver index token) := by
  unfold elementOf
  grind

@[grind ←]
theorem plain_construct (id : Nat) (isAnonymous : Bool) :
    Plain (construct id isAnonymous arguments token) := by
  unfold construct
  refine (plain_ask _).bind fun object => Plain.get.bind fun context => ?_
  grind

/-! ### Statements -/

@[grind ←]
theorem plain_mayGive (value : Option Constraint) : Plain (mayGive expected value) := by
  unfold mayGive
  grind

@[grind ←]
theorem plain_returned (value : Option Constraint) : Plain (returned value token) := by
  unfold returned
  grind

@[grind ←]
theorem plain_requireReturn : Plain (requireReturn token) := by
  unfold requireReturn
  grind

@[grind ←]
theorem plain_elements (iterable : Constraint) : Plain (elements iterable) := by
  unfold elements
  grind

@[grind ←]
theorem plain_bindElement (element : Constraint) (initialization : Option Statement) :
    Plain (bindElement element initialization) := by
  unfold bindElement
  grind

@[grind ←]
theorem plain_switchedObject (value : Option Constraint) : Plain (switchedObject value) := by
  unfold switchedObject
  grind

@[grind ←]
theorem plain_declareException (exception : Option Reference) :
    Plain (declareException exception) := by
  unfold declareException
  grind

@[grind ←]
theorem plain_declareLambdaParameter (parameter : LambdaParameter) :
    Plain (declareLambdaParameter parameter) := by
  unfold declareLambdaParameter
  grind

/-! ### Declarations -/

@[grind ←]
theorem plain_checkExtended : Plain (checkExtended name type) := by
  unfold checkExtended
  grind

@[grind ←]
theorem plain_checkInterface : Plain (checkInterface name type) := by
  unfold checkInterface
  grind

@[grind ←]
theorem plain_checkSupertypes (extended implemented : List TypeRef) :
    Plain (checkSupertypes name extended implemented) := by
  unfold checkSupertypes
  grind

@[grind ←]
theorem plain_checkImplemented (id : Nat) : Plain (checkImplemented name token id) := by
  unfold checkImplemented
  grind

@[grind ←]
theorem plain_checkHeader (owner : Owner) (method : Method) : Plain (checkHeader owner method) := by
  unfold checkHeader
  grind

@[grind ←]
theorem plain_checkConstructorReturns (block : Block) : Plain (checkConstructorReturns block) := by
  unfold checkConstructorReturns
  grind

@[grind ←]
theorem plain_parameter (declared : Variable) : Plain (parameter declared) := by
  unfold parameter
  grind

@[grind ←]
theorem plain_resultType (method : Method) : Plain (resultType method) := by
  unfold resultType
  grind

@[grind ←]
theorem plain_checkAbstractField (owner : Owner) (field : Field) :
    Plain (checkAbstractField owner field) := by
  unfold checkAbstractField
  grind

theorem plain_checkImport (item : Import) : Plain (checkImport item) := by
  unfold checkImport
  grind

end Checker
end Javascribe
