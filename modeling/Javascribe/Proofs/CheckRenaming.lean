/-
# Checking trees and renaming

Every part of the checker mirrors itself: first the parts that do not look
into trees, then the check of trees, construct by construct. So a file that
is checked against a renamed dictionary has the same problems, and the same
is found out about its names.

Key theorems: `Check.mirrors_statement`, `Check.mirrors_classDecl`,
`SourceTree.check_renames`.
-/
import Javascribe.Checking.SourceFile
import Javascribe.Proofs.CheckerRenaming

namespace Javascribe
namespace Checker

open Javascribe.Tree

variable {ρ : Renaming}

/-! ### Reading -/

variable (use : OperatorUse)
  (constraint source operand left right target value expected result receiver callee index : Constraint)
  (type : TypeRef) (member : ObjectMember) (name : String) (arguments : List Constraint) (token : Nat)

theorem mirrors_dynamic : Mirrors ρ (pure Constraint.dynamic) (pure .dynamic) := .pure _

theorem mirrors_resolve : Mirrors ρ (resolve constraint) (resolve (rename ρ constraint)) :=
  .ask fun _ _ h => h.resolve constraint

theorem mirrors_typeName : Mirrors ρ (typeName constraint) (typeName (rename ρ constraint)) :=
  .ask fun _ _ h => h.typeName constraint

theorem mirrors_fits : Mirrors ρ (fits source target) (fits (rename ρ source) (rename ρ target)) :=
  .ask fun _ _ h => h.fits source target

theorem mirrors_isExactly (type : SimpleType) :
    Mirrors ρ (isExactly constraint type) (isExactly (rename ρ constraint) type) := by
  refine (mirrors_resolve constraint).bind fun resolved => ?_
  rw [isSimple_rename]
  exact .pure _

theorem mirrors_typeOf : Mirrored ρ (typeOf type) := by
  intro env env' h shift context
  have constraint := rename_constraint ρ env.space context.enclosing context.generics type
  change EStateM.Result.ok (env'.dictionary.resolve
    (env'.space.constraint context.enclosing context.generics type)) _ = _
  rw [h.space, ← constraint, h.dictionary.resolve]
  rfl

theorem mirrors_localOf (name : String) (type : TypeRef) (isConstant : Bool) :
    Mirrored ρ (localOf name type isConstant) := by
  intro env env' h shift context
  have same : env'.dictionary.resolve (env'.space.constraint context.enclosing context.generics type) =
      rename ρ (env.dictionary.resolve
        (env.space.constraint context.enclosing context.generics type)) := by
    rw [h.space, ← h.dictionary.resolve, rename_constraint]
  have declared : Local.mk name (env'.dictionary.resolve
      (env'.space.constraint context.enclosing context.generics type)) isConstant =
        rename ρ (Local.mk name (env.dictionary.resolve
          (env.space.constraint context.enclosing context.generics type)) isConstant) :=
    Local.ext rfl same rfl
  exact congrArg (EStateM.Result.ok · _) declared

theorem mirrors_checkAssignable :
    Mirrors ρ (checkAssignable source target token)
      (checkAssignable (rename ρ source) (rename ρ target) token) := by
  refine (mirrors_fits source target).bind fun fitting => .ite (.pure _) ?_
  exact (mirrors_typeName source).bind fun source =>
    (mirrors_typeName target).bind fun target => .report token _ [source, target]

theorem mirrors_declaredObject? : Mirrored ρ (declaredObject? name) := by
  intro env env' h shift context
  change EStateM.Result.ok ((env'.dictionary.symbol? (env'.space.identifier context.enclosing name)).bind
    (·.constraint.definition.object?)) _ = _
  rw [h.space, h.dictionary.symbol?]
  change _ = EStateM.Result.ok (rename ρ ((env.dictionary.symbol?
    (env.space.identifier context.enclosing name)).bind (·.constraint.definition.object?))) _
  cases env.dictionary.symbol? (env.space.identifier context.enclosing name) with
  | none => rfl
  | some symbol =>
    congr 1
    exact object?_rename ρ symbol.constraint.definition

/-! ### Operators and assignments -/

theorem mirrors_declareVariable (declaration : Variable) (isConstant : Bool) :
    Mirrored ρ (declareVariable declaration isConstant) :=
  (mirrors_localOf _ declaration.type isConstant).bind fun declared =>
    (Mirrors.declare declared).bind fun _ => .pure declared.constraint

theorem mirrors_isTextual : Mirrors ρ (isTextual constraint) (isTextual (rename ρ constraint)) :=
  .orM (mirrors_isExactly constraint .string) (mirrors_isExactly constraint .number)

theorem mirrors_castTo : Mirrors ρ (castTo source type) (castTo (rename ρ source) type) := by
  refine (mirrors_typeOf type).bind fun target => ?_
  refine (Mirrors.orM (mirrors_fits source target) (mirrors_fits target source)).bind
    fun isRelated => ?_
  refine (Mirrors.orM (.pure isRelated)
    (.andM (mirrors_isTextual source) (mirrors_isTextual target))).bind fun isAllowed => ?_
  refine .ite (.pure target) ?_
  refine (mirrors_typeName source).bind fun source => (mirrors_typeName target).bind fun name => ?_
  exact (Mirrors.report type.token _ [source, name]).bind fun _ => .pure target

theorem mirrors_castToOption (type : Option TypeRef) :
    Mirrors ρ (castToOption source type) (castToOption (rename ρ source) type) := by
  cases type with
  | none => exact .pure source
  | some type => exact mirrors_castTo source type

theorem mirrors_invalidOperator :
    Mirrors ρ (invalidOperator use operand) (invalidOperator use (rename ρ operand)) :=
  (mirrors_typeName operand).bind fun name =>
    (Mirrors.report use.token _ [use.operation.symbol, name]).bind fun _ => mirrors_dynamic

theorem mirrors_expectOperand :
    Mirrors ρ (expectOperand use operand expected)
      (expectOperand use (rename ρ operand) (rename ρ expected)) :=
  (mirrors_fits operand expected).bind fun _ =>
    .ite (.pure expected) (mirrors_invalidOperator use operand)

theorem mirrors_expectOperands :
    Mirrors ρ (expectOperands use left right expected result)
      (expectOperands use (rename ρ left) (rename ρ right) (rename ρ expected) (rename ρ result)) := by
  refine (mirrors_fits left expected).bind fun _ => .ite ?_ (mirrors_invalidOperator use left)
  exact (mirrors_fits right expected).bind fun _ =>
    .ite (.pure result) (mirrors_invalidOperator use right)

theorem mirrors_sum :
    Mirrors ρ (sum use left right) (sum use (rename ρ left) (rename ρ right)) := by
  refine (Mirrors.orM (mirrors_isExactly left .string) (mirrors_isExactly right .string)).bind
    fun _ => .ite (.pure Native.string) ?_
  rw [isDynamic_rename, isDynamic_rename]
  split <;> exact mirrors_expectOperands use left right Native.number _

theorem mirrors_bitwise :
    Mirrors ρ (bitwise use left right) (bitwise use (rename ρ left) (rename ρ right)) := by
  refine (Mirrors.andM (mirrors_fits left Native.number) (mirrors_fits right Native.number)).bind
    fun areNumbers => ?_
  refine (Mirrors.andM (.pure !areNumbers) (.andM (mirrors_fits left Native.boolean)
    (mirrors_fits right Native.boolean))).bind fun _ => ?_
  exact .ite (.pure Native.boolean)
    (mirrors_expectOperands use left right Native.number Native.number)

theorem mirrors_binary :
    Mirrors ρ (binary use left right) (binary use (rename ρ left) (rename ρ right)) := by
  unfold binary
  cases use.operation with
  | add => exact mirrors_sum use left right
  | bitAnd | bitOr | bitXor => exact mirrors_bitwise use left right
  | equal | notEqual => exact .pure Native.boolean
  | elvis => exact .pure left
  | and | or | less | lessOrEqual | greater | greaterOrEqual | subtract | multiply | divide
  | remainder | shiftLeft | shiftRight | shiftRightUnsigned =>
    exact mirrors_expectOperands use left right _ _
  | _ => exact mirrors_invalidOperator use left

theorem rename_unaryOperand {operation : Operator} {expected : Constraint}
    (h : unaryOperand? operation = some expected) : rename ρ expected = expected := by
  cases operation <;> simp only [unaryOperand?, Option.some.injEq, reduceCtorEq] at h <;>
    exact h ▸ rfl

theorem rename_scalarLiteral (kind : LiteralKind) (value : String) :
    rename ρ (scalarLiteral kind value) = scalarLiteral kind value := by
  unfold scalarLiteral
  split <;> rfl

theorem mirrors_assigned :
    Mirrors ρ (assigned use target value token)
      (assigned use (rename ρ target) (rename ρ value) token) := by
  unfold assigned
  cases use.operation.compound? with
  | none => exact (mirrors_checkAssignable value target token).bind fun _ => .pure target
  | some operation =>
    refine (Mirrors.andM (.pure (operation == .add)) (mirrors_isExactly target .string)).bind
      fun _ => .ite (.pure target) ?_
    refine (mirrors_binary _ target value).bind fun result => ?_
    exact (mirrors_checkAssignable result target token).bind fun _ => .pure target

theorem mirrors_commonElement (elements : List Constraint) :
    Mirrors ρ (commonElement elements) (commonElement (rename ρ elements)) := by
  cases elements with
  | nil => exact mirrors_dynamic
  | cons first rest =>
    exact (Mirrors.allM_rename (fun element => mirrors_fits element first) rest).bind
      fun _ => .ite (.pure first) (mirrors_dynamic)

theorem mirrors_commonBranch :
    Mirrors ρ (commonBranch left right) (commonBranch (rename ρ left) (rename ρ right)) := by
  refine (mirrors_fits right left).bind fun _ => .ite (.pure left) ?_
  exact (mirrors_fits left right).bind fun _ => .ite (.pure right) (mirrors_dynamic)

/-! ### Names, members and calls -/

theorem mirrors_objectName (id : Nat) : Mirrors ρ (objectName id) (objectName (ρ.object id)) :=
  .ask fun _ _ h => by
    rw [h.object]
    rfl

theorem mirrors_declaredName :
    Mirrors ρ (declaredName member) (declaredName (rename ρ member)) := by
  obtain ⟨name, ⟨definition, _⟩, _⟩ := member
  cases definition with
  | function id =>
    show Mirrors ρ (ask fun d => (d.function id).name) (ask fun d => (d.function (ρ.function id)).name)
    refine .ask fun d d' h => ?_
    rw [h.function]
    rfl
  | _ => exact .pure name

theorem mirrors_visibleMember? : Mirrored ρ (visibleMember? name) :=
  Mirrors.get fun _ context => .ask fun _ _ h =>
    findSome?_rename (α := Nat) ρ (fun id => h.member? id name) context.objects

theorem mirrors_requireReach :
    Mirrors ρ (requireReach member token) (requireReach (rename ρ member) token) := by
  have names (code : Code) : Mirrors ρ
      (do halt token code [← declaredName member, ← objectName member.parent] : Checker Unit)
      (do
        let name ← declaredName (rename ρ member)
        halt token code [name, ← objectName (ρ.object member.parent)]) :=
    (mirrors_declaredName member).bind fun name =>
      (mirrors_objectName member.parent).bind fun owner => .halt token code [name, owner]
  refine Mirrors.get fun _ context => ?_
  refine (Mirrors.ask fun _ _ h => h.reach context.objects member).bind fun reach => ?_
  cases reach with
  | allowed => exact .pure ()
  | privateMember => exact names .privateMemberAccess
  | protectedMember => exact names .protectedMemberAccess

theorem mirrors_requireStatic :
    Mirrors ρ (requireStatic member token) (requireStatic (rename ρ member) token) :=
  (mirrors_objectName member.parent).bind fun owner =>
    (mirrors_declaredName member).bind fun name =>
      .require member.isStatic token _ [s!"{owner}.{name}", owner]

theorem mirrors_qualify : Mirrors ρ (qualify member token) (qualify (rename ρ member) token) := by
  have owner (qualifier : String) :
      Mirrored ρ (resolution (·.addQualifier token qualifier)) :=
    mirrors_note (.qualifier token qualifier)
  unfold qualify
  show Mirrors ρ _ (if member.isStatic then _ else _)
  exact .ite ((mirrors_objectName member.parent).bind owner) (owner "this")

theorem mirrors_noteCallName (written stored : String) (token : Nat) :
    Mirrored ρ (noteCallName written stored token) :=
  .ite (.pure ()) (mirrors_note (.callName token stored))

theorem mirrors_requireMutable :
    Mirrors ρ (requireMutable member token) (requireMutable (rename ρ member) token) := by
  intro env env' h
  have own (objects : List Nat) : ((rename ρ objects).head? == some (ρ.object member.parent)) =
      (objects.head? == some member.parent) := by
    cases objects with
    | nil => rfl
    | cons id objects => exact h.dictionary.injective.beq_rename id member.parent
  refine Mirrors.bind (β := Unit) Mirrors.flags (fun flags => Mirrors.get fun _ context => ?_)
    env env' h
  refine (mirrors_objectName member.parent).bind fun owner => ?_
  show Mirrors ρ _ (require (!member.isConstant || (flags.inConstructor &&
    (rename ρ context.objects).head? == some (ρ.object member.parent))) token _ _)
  rw [own]
  exact .require _ token _ [s!"{owner}.{member.name}"]

theorem mirrors_isStaticallyImported : Mirrored ρ (isStaticallyImported name) := by
  intro env env' h shift context
  change EStateM.Result.ok (env'.hasStaticWildcard || env'.staticImports.contains name) _ = _
  rw [h.rest]
  rfl

theorem mirrors_global? (names : List String) : Mirrored ρ (global? names) := by
  intro env env' h shift context
  change EStateM.Result.ok ((env'.dictionary.lookupFirst?
    (env'.space.candidates context.enclosing names)).map fun symbol =>
      env'.dictionary.resolve symbol.constraint) _ = _
  rw [h.space, h.dictionary.lookupFirst?]
  change _ = EStateM.Result.ok (rename ρ ((env.dictionary.lookupFirst?
    (env.space.candidates context.enclosing names)).map fun symbol =>
      env.dictionary.resolve symbol.constraint)) _
  cases env.dictionary.lookupFirst? (env.space.candidates context.enclosing names) with
  | none => rfl
  | some symbol =>
    show EStateM.Result.ok (some (env'.dictionary.resolve (rename ρ symbol.constraint))) _ = _
    rw [h.dictionary.resolve]
    rfl

theorem mirrors_unknownIdentifier : Mirrored ρ (unknownIdentifier name token) :=
  (Mirrors.report token _ [name]).bind fun _ => mirrors_dynamic

/-- The class that a supertype is: `none` says that it is an interface. -/
def classAbove (d : Dictionary) (supertype : Constraint) : Option (Option Nat) :=
  match (d.resolve supertype).definition.object? with
  | some parent => if (d.object parent).isClass then some (some parent) else none
  | none => some none

theorem parentClass?_eq (id : Nat) :
    parentClass? id = ask fun d => ((d.object id).supertypes.findSome? (classAbove d)).or
      (if (d.object id).isInterface && !(d.object id).supertypes.isEmpty then some none
        else none) := by
  unfold parentClass?
  congr 1
  funext d
  dsimp only
  split
  · next parent above =>
    have above : (d.object id).supertypes.findSome? (classAbove d) = some parent := above
    rw [above, Option.some_or]
  · next above =>
    have above : (d.object id).supertypes.findSome? (classAbove d) = none := above
    rw [above, Option.none_or]

theorem classAbove_rename {d d' : Dictionary} (h : d.Renames ρ d') (supertype : Constraint) :
    classAbove d' (rename ρ supertype) = rename ρ (classAbove d supertype) := by
  unfold classAbove
  rw [h.resolve, definition_rename, object?_rename]
  cases (d.resolve supertype).definition.object? with
  | none => rfl
  | some parent =>
    have kind : (d'.object (ρ.object parent)).isClass = (d.object parent).isClass := by
      rw [h.object]
      rfl
    simp only [rename_some, rename_nat, kind]
    split <;> rfl

theorem mirrors_parentClass? (id : Nat) :
    Mirrors ρ (parentClass? id) (parentClass? (ρ.object id)) := by
  rw [parentClass?_eq, parentClass?_eq]
  refine Mirrors.ask fun d d' h => ?_
  have classes : (rename ρ (d.object id).supertypes).findSome? (classAbove d') =
      rename ρ ((d.object id).supertypes.findSome? (classAbove d)) :=
    findSome?_rename ρ (classAbove_rename h) _
  have empty : (rename ρ (d.object id)).supertypes.isEmpty = (d.object id).supertypes.isEmpty :=
    List.isEmpty_map
  simp only [h.object, empty]
  show ((rename ρ (d.object id).supertypes).findSome? (classAbove d')).or
    (if (d.object id).isInterface && _ then _ else _) = _
  rw [classes]
  cases (d.object id).supertypes.findSome? (classAbove d) with
  | some parent => rfl
  | none =>
    simp only [rename_none, Option.none_or]
    split <;> rfl

theorem mirrors_thisReference : Mirrored ρ (thisReference token) := by
  refine Mirrors.flags.bind fun flags => ?_
  refine (Mirrors.check flags.allowsInstance token _ []).bind fun _ => ?_
  refine Mirrors.get fun _ context => ?_
  rcases context with ⟨_, _ | ⟨id, _⟩⟩
  · exact mirrors_dynamic
  · exact .ite (.pure (Constraint.object id)) mirrors_dynamic

theorem mirrors_superReference : Mirrored ρ (superReference token) := by
  refine Mirrors.get fun _ context => ?_
  rcases context with ⟨_, _ | ⟨current, _⟩⟩
  · exact mirrors_dynamic
  · refine (mirrors_parentClass? current).bind fun parent => ?_
    rcases parent with _ | _ | parent
    · exact (mirrors_objectName current).bind fun name =>
        (Mirrors.report token _ [name]).bind fun _ => mirrors_dynamic
    · exact mirrors_dynamic
    · exact .pure (Constraint.object parent)

theorem mirrors_memberReference :
    Mirrors ρ (memberReference member token) (memberReference (rename ρ member) token) := by
  have rest : Mirrors ρ
      (do requireReach member token; qualify member token; resolve member.constraint)
      (do
        requireReach (rename ρ member) token
        qualify (rename ρ member) token
        resolve (rename ρ member.constraint)) :=
    (mirrors_requireReach member token).bind fun _ =>
      (mirrors_qualify member token).bind fun _ => mirrors_resolve member.constraint
  refine Mirrors.flags.bind fun flags => .ite rest ?_
  exact (mirrors_requireStatic member token).bind fun _ => rest

theorem mirrors_globalReference : Mirrored ρ (globalReference name token) := by
  refine (mirrors_global? [name]).bind fun found => ?_
  cases found with
  | some constraint => exact .pure constraint
  | none =>
    exact (mirrors_isStaticallyImported name).bind fun _ =>
      .ite mirrors_dynamic (mirrors_unknownIdentifier name token)

theorem mirrors_reference (target : Reference) : Mirrored ρ (reference target) := by
  unfold reference
  split
  · exact mirrors_thisReference _
  · exact mirrors_superReference _
  · rename_i name token _ _
    refine (Mirrors.local? name).bind fun declared => ?_
    cases declared with
    | some declared => exact .pure declared.constraint
    | none =>
      refine (mirrors_visibleMember? name).bind fun member => ?_
      cases member with
      | some member => exact mirrors_memberReference member token
      | none => exact mirrors_globalReference name token

theorem mirrors_assignedReference (target : Reference) : Mirrored ρ (assignedReference target) := by
  refine (Mirrors.local? target.name).bind fun declared => ?_
  cases declared with
  | some declared =>
    exact (Mirrors.require (!declared.isConstant) target.token _ [target.name]).bind fun _ =>
      .pure declared.constraint
  | none =>
    refine (mirrors_visibleMember? target.name).bind fun member => ?_
    cases member with
    | some member =>
      exact (mirrors_requireMutable member target.token).bind fun _ => mirrors_reference target
    | none => exact mirrors_reference target

theorem mirrors_argumentNames :
    Mirrors ρ (argumentNames arguments) (argumentNames (rename ρ arguments)) := by
  refine (Mirrors.mapM_rename mirrors_typeName arguments).bind fun names => ?_
  rw [rename_strings]
  exact .pure _

section Halting

variable {α : Type} [Renamable α]

theorem mirrors_invalidArguments :
    Mirrors ρ (invalidArguments name arguments token : Checker α)
      (invalidArguments name (rename ρ arguments) token) :=
  (mirrors_argumentNames arguments).bind fun names => .halt token _ [name, names]

theorem mirrors_memberNotFound :
    Mirrors ρ (memberNotFound receiver name token : Checker α)
      (memberNotFound (rename ρ receiver) name token) :=
  (mirrors_typeName receiver).bind fun type => .halt token _ [name, type]

end Halting

theorem mirrors_callValue :
    Mirrors ρ (callValue callee name arguments token)
      (callValue (rename ρ callee) name (rename ρ arguments) token) := by
  refine (mirrors_resolve callee).bind fun callee => ?_
  rw [isDynamic_rename]
  refine .ite mirrors_dynamic ?_
  rw [definition_rename, function?_rename]
  cases callee.definition.function? with
  | none => exact .halt token _ [name]
  | some id =>
    refine (Mirrors.ask fun _ _ h => h.function id).bind fun function => ?_
    refine (Mirrors.ask fun _ _ h => h.accepts function arguments).bind fun _ => ?_
    exact .ite (mirrors_resolve function.result) (mirrors_invalidArguments name arguments token)

theorem mirrors_requireConstructor (condition : Bool) (arguments : List Constraint) (token : Nat) :
    Mirrors ρ (requireConstructor condition arguments token)
      (requireConstructor condition (rename ρ arguments) token) :=
  .ite (.pure ()) ((mirrors_argumentNames arguments).bind fun names => .halt token _ [names])

theorem isEmpty_rename {α : Type} [Renamable α] (as : List α) :
    (rename ρ as).isEmpty = as.isEmpty := List.isEmpty_map

theorem mirrors_delegate (target token : Nat) (arguments : List Constraint) :
    Mirrors ρ (delegate target token arguments)
      (delegate (ρ.object target) token (rename ρ arguments)) := by
  refine (Mirrors.ask fun _ _ h => h.object target).bind fun object => ?_
  -- a constructor is known by its place, not by a number that is renamed
  refine MirrorsBy.bind (v := id) (MirrorsBy.ask fun _ _ h => h.constructor? target arguments)
    fun index => ?_
  rw [hasConstructors_rename, isEmpty_rename]
  refine Mirrors.bind (mirrors_requireConstructor _ arguments token) fun _ => ?_
  cases index with
  | none => exact .pure _
  | some index => exact mirrors_note (.callName token (overloadName object.name index))

theorem mirrors_constructorCall (isThis : Bool) (token : Nat) (arguments : List Constraint) :
    Mirrors ρ (constructorCall isThis token arguments)
      (constructorCall isThis token (rename ρ arguments)) := by
  refine Mirrors.get fun _ context => ?_
  rcases context with ⟨_, _ | ⟨current, _⟩⟩
  · exact .pure ()
  · refine .ite (mirrors_delegate current token arguments) ?_
    refine (mirrors_parentClass? current).bind fun parent => ?_
    rcases parent with _ | _ | parent
    · refine (mirrors_objectName current).bind fun name => ?_
      rw [isEmpty_rename]
      exact .require arguments.isEmpty token _ [name]
    · exact .pure ()
    · exact mirrors_delegate parent token arguments

theorem mirrors_memberCall (method : MethodMatch) (token : Nat) :
    Mirrors ρ (memberCall name method token) (memberCall name (rename ρ method) token) := by
  have rest : Mirrors ρ
      (do
        requireReach method.member token
        qualify method.member token
        noteCallName name method.name token
        resolve method.result)
      (do
        requireReach (rename ρ method.member) token
        qualify (rename ρ method.member) token
        noteCallName name method.name token
        resolve (rename ρ method.result)) :=
    (mirrors_requireReach method.member token).bind fun _ =>
      (mirrors_qualify method.member token).bind fun _ =>
        (mirrors_noteCallName name method.name token).bind fun _ => mirrors_resolve method.result
  refine Mirrors.flags.bind fun flags => .ite rest ?_
  exact (Mirrors.require method.member.isStatic token _ []).bind fun _ => rest

theorem mirrors_globalCall :
    Mirrors ρ (globalCall name arguments token) (globalCall name (rename ρ arguments) token) := by
  refine (mirrors_isStaticallyImported name).bind fun _ => .ite mirrors_dynamic ?_
  refine (mirrors_global? [name]).bind fun found => ?_
  cases found with
  | some constraint => exact mirrors_callValue constraint name arguments token
  | none => exact mirrors_unknownIdentifier name token

theorem mirrors_enclosingCall (objects : List Nat) :
    Mirrors ρ (enclosingCall name arguments token objects)
      (enclosingCall name (rename ρ arguments) token (rename ρ objects)) := by
  induction objects with
  | nil => exact mirrors_globalCall name arguments token
  | cons id objects ih =>
    refine (Mirrors.ask fun _ _ h => h.method id name arguments).bind fun found => ?_
    cases found with
    | found method => exact mirrors_memberCall name method token
    | invalidArguments => exact mirrors_invalidArguments name arguments token
    | notFunction member => exact .halt token _ [name]
    | missing => exact ih

theorem mirrors_call :
    Mirrors ρ (call name arguments token) (call name (rename ρ arguments) token) := by
  refine .ite ?_ ?_
  · exact (mirrors_constructorCall _ token arguments).bind fun _ => .pure Native.void
  · refine (Mirrors.local? name).bind fun declared => ?_
    cases declared with
    | some declared => exact mirrors_callValue declared.constraint name arguments token
    | none =>
      exact Mirrors.get fun _ context =>
        mirrors_enclosingCall name arguments token context.objects

/-! ### Chains -/

/-- How many names a chain takes is not renamed. -/
theorem mirrors_longestGlobal? (names : List String) (length : Nat) :
    MirrorsBy ρ (Option.map (Prod.map (rename ρ) id)) (longestGlobal? names length)
      (longestGlobal? names length) := by
  induction length with
  | zero => exact fun _ _ _ _ _ => rfl
  | succ length ih =>
    refine MirrorsBy.bind (mirrors_global? (names.take (length + 1))) fun found => ?_
    cases found with
    | some constraint => exact fun _ _ _ _ _ => rfl
    | none => exact ih

theorem mirrors_isValueName : Mirrored ρ (isValueName name) := by
  refine .ite (.pure true) ?_
  refine (Mirrors.local? name).bind fun declared => ?_
  refine (mirrors_visibleMember? name).bind fun member => ?_
  cases declared <;> cases member <;> exact .pure _

theorem mirrors_leadingName (first : Reference) (names : List String) :
    MirrorsBy ρ (Prod.map (rename ρ) id) (leadingName first names) (leadingName first names) := by
  have one {m m' : Checker Constraint} (h : Mirrors ρ m m') :
      MirrorsBy ρ (Prod.map (rename ρ) id) (do return (← m, 1)) (do return (← m', 1)) :=
    MirrorsBy.bind h fun constraint _ _ _ _ _ => rfl
  refine MirrorsBy.bind (mirrors_isValueName first.name) fun isValue => ?_
  cases isValue with
  | true => exact one (mirrors_reference first)
  | false =>
    refine MirrorsBy.bind (mirrors_longestGlobal? names names.length) fun found => ?_
    cases found with
    | some found => exact fun _ _ _ _ _ => rfl
    | none =>
      refine MirrorsBy.bind (mirrors_isStaticallyImported first.name) fun isImported => ?_
      cases isImported with
      | true => exact one mirrors_dynamic
      | false => exact one (mirrors_unknownIdentifier first.name first.token)

theorem mirrors_receiverObject :
    Mirrors ρ (receiverObject receiver name token)
      (receiverObject (rename ρ receiver) name token) := by
  have none : Mirrors ρ
      (do halt token .typeHasNoProperties [← typeName receiver] : Checker Nat)
      (do halt token .typeHasNoProperties [← typeName (rename ρ receiver)]) :=
    (mirrors_typeName receiver).bind fun type => .halt token _ [type]
  obtain ⟨definition, isDefinition⟩ := receiver
  cases definition with
  | object id => exact .pure id
  | array element ofDefinitions =>
    exact mirrors_memberNotFound ⟨.array element ofDefinitions, _⟩ name token
  | function id => exact none
  | unresolved candidates => exact none
  | simple type =>
    intro env env' h shift context
    cases type with
    | string =>
      show EStateM.Result.ok Native.stringObject _ = .ok (ρ.object Native.stringObject) _
      rw [h.dictionary.native .string _ rfl]
    | number =>
      show EStateM.Result.ok Native.numberObject _ = .ok (ρ.object Native.numberObject) _
      rw [h.dictionary.native .number _ rfl]
    | _ => exact none env env' h shift context

theorem mirrors_memberOf :
    Mirrors ρ (memberOf receiver name token) (memberOf (rename ρ receiver) name token) := by
  refine (mirrors_resolve receiver).bind fun receiver => ?_
  have isArray : (rename ρ receiver).definition.element?.isSome =
      receiver.definition.element?.isSome := by
    rw [definition_rename, element?_rename]
    exact Option.isSome_map
  rw [isArray]
  refine .ite (.pure (Link.mk Native.number none)) ?_
  refine (mirrors_receiverObject receiver name token).bind fun object => ?_
  refine (Mirrors.ask fun _ _ h => h.member? object name).bind fun member => ?_
  cases member with
  | none => exact mirrors_memberNotFound receiver name token
  | some member =>
    have rest : Mirrors ρ (do return Link.mk (← resolve member.constraint) (some member))
        (do return ⟨← resolve (rename ρ member.constraint), some (rename ρ member)⟩) :=
      (mirrors_resolve member.constraint).bind fun constraint => .pure (Link.mk constraint member)
    refine (mirrors_requireReach member token).bind fun _ => ?_
    exact .ite ((mirrors_requireStatic member token).bind fun _ => rest) rest

theorem mirrors_methodOf :
    Mirrors ρ (methodOf receiver name arguments token)
      (methodOf (rename ρ receiver) name (rename ρ arguments) token) := by
  refine (mirrors_resolve receiver).bind fun receiver => ?_
  refine (mirrors_receiverObject receiver name token).bind fun object => ?_
  refine (Mirrors.ask fun _ _ h => h.method object name arguments).bind fun found => ?_
  cases found with
  | found method =>
    have rest : Mirrors ρ
        (do noteCallName name method.name token; resolve method.result)
        (do noteCallName name method.name token; resolve (rename ρ method.result)) :=
      (mirrors_noteCallName name method.name token).bind fun _ => mirrors_resolve method.result
    refine (mirrors_requireReach method.member token).bind fun _ => ?_
    exact .ite ((mirrors_requireStatic method.member token).bind fun _ => rest) rest
  | invalidArguments => exact mirrors_invalidArguments name arguments token
  | notFunction member => exact .halt token _ [name]
  | missing => exact mirrors_memberNotFound receiver name token

theorem mirrors_callLink (name : Option String) (arguments : List Constraint) (token : Nat) :
    Mirrors ρ (callLink receiver name arguments token)
      (callLink (rename ρ receiver) name (rename ρ arguments) token) := by
  cases name with
  | some name => exact mirrors_methodOf receiver name arguments token
  | none => exact mirrors_callValue receiver _ arguments token

theorem mirrors_elementOf :
    Mirrors ρ (elementOf receiver index token)
      (elementOf (rename ρ receiver) (rename ρ index) token) := by
  refine (mirrors_fits index Native.number).bind fun _ => .ite ?_
    ((mirrors_typeName index).bind fun type =>
      (Mirrors.halt (α := PUnit) token _ [type]).bind fun _ => ?_)
  -- both ways go on with the element
  all_goals
    refine (mirrors_resolve receiver).bind fun receiver => ?_
    rw [definition_rename, element?_rename]
    cases receiver.definition.element? with
    | some element => exact mirrors_resolve element
    | none => exact .halt token _ []

/-! ### Instances -/

theorem mirrors_construct (id : Nat) (isAnonymous : Bool) (arguments : List Constraint)
    (token : Nat) :
    Mirrors ρ (construct id isAnonymous arguments token)
      (construct (ρ.object id) isAnonymous (rename ρ arguments) token) := by
  intro env env' h
  refine Mirrors.bind (β := Unit) (Mirrors.ask fun _ _ h => h.object id)
    (fun object => Mirrors.get fun _ context => ?_) env env' h
  have own := h.dictionary.injective.contains_rename context.objects id
  show Mirrors ρ _ (do
    require (object.isConstructable || isAnonymous ||
      ((rename ρ context.objects).contains (ρ.object id) && !object.isAbstract)) token _ [object.name]
    _)
  rw [own]
  refine (Mirrors.require _ token _ [object.name]).bind fun _ => ?_
  refine MirrorsBy.bind (v := fun index => index)
    (MirrorsBy.ask fun _ _ h => h.constructor? id arguments) fun index => ?_
  rw [hasConstructors_rename, isEmpty_rename]
  refine Mirrors.bind (mirrors_requireConstructor _ arguments token) fun _ => ?_
  cases index with
  | none => exact .pure _
  | some index => exact mirrors_note (.constructor token index)

/-! ### Statements -/

theorem mirrors_checkReachable : Mirrored ρ (checkReachable token) := by
  refine Mirrors.flags.bind fun flags => .ite ?_ (.pure ())
  exact (Mirrors.report token _ []).bind fun _ => .modify fun _ _ => rfl

theorem Mirrors.standalone {value value' : Checker Constraint} (h : Mirrors ρ value value')
    (statement : Statement) :
    Mirrors ρ (standalone statement value) (standalone statement value') := by
  refine (mirrors_checkReachable statement.token).bind fun _ => Mirrors.attempt ?_
  exact (Mirrors.check statement.isStandalone statement.token _ []).bind fun _ => h

theorem Mirrors.condition {value value' : Checker Constraint} (h : Mirrors ρ value value')
    (token : Nat) : Mirrors ρ (condition token value) (condition token value') :=
  h.bind fun constraint => mirrors_checkAssignable constraint Native.boolean token

theorem mirrors_mayGive (value : Option Constraint) :
    Mirrors ρ (mayGive expected value) (mayGive (rename ρ expected) (rename ρ value)) := by
  cases value with
  | none =>
    show Mirrors ρ _ (pure ((rename ρ expected).isDynamic || (rename ρ expected).isSimple .void))
    rw [isDynamic_rename, isSimple_rename]
    exact .pure _
  | some value =>
    show Mirrors ρ _ (pure (rename ρ expected).isDynamic <||>
      (pure !((rename ρ expected).isSimple .void) <&&> fits (rename ρ value) (rename ρ expected)))
    rw [isDynamic_rename, isSimple_rename]
    exact .orM (.pure _) (.andM (.pure _) (mirrors_fits value expected))

theorem mirrors_returned (value : Option Constraint) (token : Nat) :
    Mirrors ρ (returned value token) (returned (rename ρ value) token) := by
  have absent : (rename ρ value).isNone = value.isNone := by cases value <;> rfl
  have give (expected : Constraint) : Mirrors ρ
      (do
        unless ← mayGive expected value do
          report token .expectedReturnType [← typeName expected])
      (do
        unless ← mayGive (rename ρ expected) (rename ρ value) do
          report token .expectedReturnType [← typeName (rename ρ expected)]) :=
    (mirrors_mayGive expected value).bind fun _ => .ite (.pure _)
      ((mirrors_typeName expected).bind fun type => .report token _ [type])
  refine Mirrors.flags.bind fun flags => .ite ?_ ?_
  · rw [absent]
    exact .check value.isNone token _ []
  · refine Mirrors.get fun _ context => ?_
    rcases context with ⟨_, _, _ | ⟨expected, _⟩⟩
    · exact give Native.void
    · exact give expected

theorem mirrors_requireReturn : Mirrored ρ (requireReturn token) :=
  Mirrors.flags.bind fun flags => .require flags.mayReturn token _ []

theorem mirrors_elements (iterable : Constraint) :
    Mirrors ρ (elements iterable) (elements (rename ρ iterable)) := by
  refine (mirrors_resolve iterable).bind fun iterable => ?_
  rw [definition_rename, element?_rename]
  cases iterable.definition.element? with
  | some element => exact mirrors_resolve element
  | none => exact mirrors_dynamic

theorem mirrors_bindElement (element : Constraint) (initialization : Option Statement) :
    Mirrors ρ (bindElement element initialization)
      (bindElement (rename ρ element) initialization) := by
  unfold bindElement
  cases initialization.bind (·.declaration?) with
  | none => exact .pure ()
  | some declaration =>
    exact (mirrors_localOf _ declaration.type _).bind fun declared =>
      (mirrors_checkAssignable element declared.constraint declaration.token).bind fun _ =>
        .declare declared

theorem mirrors_noteCase (object : Option Nat) (case : Reference) :
    Mirrors ρ (noteCase object case) (noteCase (rename ρ object) case) := by
  cases object with
  | none => exact .pure ()
  | some id =>
    refine (Mirrors.ask fun _ _ h => h.member? id case.name).bind fun member => ?_
    cases member with
    | none => exact .pure ()
    | some member => exact .ite (mirrors_qualify member case.token) (.pure ())

theorem mirrors_switchedObject (value : Option Constraint) :
    Mirrors ρ (switchedObject value) (switchedObject (rename ρ value)) := by
  cases value with
  | none => exact .pure none
  | some constraint =>
    refine (mirrors_resolve constraint).bind fun constraint => ?_
    rw [definition_rename, object?_rename]
    exact .pure _

theorem mirrors_declareException (exception : Option Reference) :
    Mirrored ρ (declareException exception) := by
  cases exception with
  | none => exact .pure ()
  | some exception => exact .declare (.dynamic exception.name)

theorem mirrors_declareLambdaParameter (parameter : LambdaParameter) :
    Mirrored ρ (declareLambdaParameter parameter) := by
  cases parameter with
  | untyped r => exact .declare (.dynamic r.name)
  | typed d => exact (mirrors_localOf _ d.type false).bind Mirrors.declare

theorem Mirrors.lambda {body body' : Checker Unit} (h : Mirrors ρ body body')
    (parameters : List LambdaParameter) :
    Mirrors ρ (lambda parameters body) (lambda parameters body') := by
  have run : Mirrors ρ (do parameters.forM declareLambdaParameter; body)
      (do parameters.forM declareLambdaParameter; body') :=
    (Mirrors.forM mirrors_declareLambdaParameter parameters).bind fun _ => h
  exact ((run.withScope.expecting .dynamic).withFlags _).bind fun _ => mirrors_dynamic

/-! ### Declarations -/

theorem mirrors_supertype (supertype : Constraint) :
    Mirrors ρ (ask fun d => supertype.definition.object?.map d.object)
      (ask fun d => (rename ρ supertype).definition.object?.map d.object) := by
  refine .ask fun d d' h => ?_
  rw [definition_rename, object?_rename]
  cases supertype.definition.object? with
  | none => rfl
  | some id =>
    show some (d'.object (ρ.object id)) = _
    rw [h.object]
    rfl

theorem mirrors_checkExtended (type : TypeRef) : Mirrored ρ (checkExtended name type) := by
  refine (mirrors_typeOf type).bind fun supertype => ?_
  rw [isDynamic_rename]
  refine .ite (.pure _) ((mirrors_supertype supertype).bind fun parent => ?_)
  have classes : (rename ρ parent).filter (·.isClass) = rename ρ (parent.filter (·.isClass)) := by
    cases parent with
    | none => rfl
    | some parent =>
      show (if parent.isClass then _ else _) = rename ρ (if parent.isClass then _ else _)
      split <;> rfl
  rw [classes]
  cases parent.filter (·.isClass) with
  | none => exact .report type.token _ [name, type.text]
  | some parent => exact .check parent.isExtensible type.token _ [parent.name, name]

theorem mirrors_checkInterface (type : TypeRef) : Mirrored ρ (checkInterface name type) := by
  refine (mirrors_typeOf type).bind fun supertype => ?_
  rw [isDynamic_rename]
  refine .ite (.pure _) ((mirrors_supertype supertype).bind fun parent => ?_)
  have interfaces : (rename ρ parent).any (·.isInterface) = parent.any (·.isInterface) := by
    cases parent <;> rfl
  rw [interfaces]
  exact .check _ type.token _ [name, type.text]

theorem mirrors_checkSupertypes (extended implemented : List TypeRef) :
    Mirrored ρ (checkSupertypes name extended implemented) :=
  (Mirrors.forM (mirrors_checkExtended name) extended).bind fun _ =>
    .forM (mirrors_checkInterface name) implemented

theorem mirrors_checkImplemented (id : Nat) :
    Mirrors ρ (checkImplemented name token id) (checkImplemented name token (ρ.object id)) := by
  refine (Mirrors.ask fun _ _ h => h.inheritedAbstract id).bind fun inherited => ?_
  refine Mirrors.forM_rename (fun (parent, member) => ?_) inherited
  refine (Mirrors.ask fun _ _ h => h.implements id member.name).bind fun _ => .ite (.pure _) ?_
  exact (mirrors_objectName parent).bind fun owner =>
    (mirrors_declaredName member).bind fun declared =>
      .report token _ [name, s!"{owner}.{declared}"]

theorem mirrors_checkHeader (owner : Owner) (method : Method) :
    Mirrored ρ (checkHeader owner method) := by
  have check (condition : Bool) (code : Code) (arguments : List String) :
      Mirrored ρ (check condition method.token code arguments) := .check condition _ code arguments
  refine .ite ((check _ _ _).bind fun _ => ?_) ?_ <;>
    exact .ite (check _ _ _) (.ite ((check _ _ _).bind fun _ => check _ _ _) (check _ _ _))

theorem mirrors_checkConstructorReturns (block : Block) :
    Mirrored ρ (checkConstructorReturns block) := by
  refine .forM (fun statement => ?_) block.statements
  split
  · exact .report _ _ []
  · exact .pure ()

theorem mirrors_parameter (declared : Variable) : Mirrored ρ (parameter declared) := by
  refine (mirrors_localOf _ declared.type _).bind fun given => ?_
  cases declared.isVariadic
  · exact Mirrors.pure given
  · exact Mirrors.pure given.asArray

theorem mirrors_resultType (method : Method) : Mirrored ρ (resultType method) := by
  unfold Checker.resultType
  cases method.type with
  | none => exact .pure Native.void
  | some type => exact .ite (.pure Native.void) (mirrors_typeOf type)

theorem Mirrors.methodBody {body body' : Checker Completion} (h : Mirrors ρ body body')
    (owner : Owner) (method : Method) (block : Block) :
    Mirrors ρ (methodBody owner method block body) (methodBody owner method block body') := by
  have run (locals : List Local) : Mirrors ρ (do locals.forM Checker.declare; body)
      (do (rename ρ locals).forM Checker.declare; body') :=
    (Mirrors.forM_rename Mirrors.declare locals).bind fun _ => h
  have inside (result : Constraint) : Mirrors ρ
      (do
        let locals ← method.parameters.mapM parameter
        let completion ← Checker.withFlags (fun _ => methodFlags method) <|
          Checker.expecting result <| Checker.withScope do
          locals.forM Checker.declare
          body
        return (result, completion))
      (do
        let locals ← method.parameters.mapM parameter
        let completion ← Checker.withFlags (fun _ => methodFlags method) <|
          Checker.expecting (rename ρ result) <| Checker.withScope do
            locals.forM Checker.declare
            body'
        return (rename ρ result, completion)) :=
    (Mirrors.mapM mirrors_parameter method.parameters).bind fun locals =>
      (((run locals).withScope.expecting result).withFlags _).bind fun completion =>
        .pure (result, completion)
  refine Mirrors.bind (Mirrors.withGenerics ?_ _) fun (result, completion) => ?_
  · refine (mirrors_resultType method).bind fun result => .ite ?_ (inside result)
    exact (mirrors_checkConstructorReturns block).bind fun _ => inside result
  · show Mirrors ρ _ (if (rename ρ result).isSimple .void || completion.leavesMethod then _ else _)
    rw [isSimple_rename]
    refine .ite (.pure _) ((mirrors_typeName result).bind fun type => ?_)
    exact .report method.token _ [s!"{owner.name}.{method.name}", type]

theorem mirrors_checkAbstractField (owner : Owner) (field : Field) :
    Mirrored ρ (checkAbstractField owner field) :=
  .ite ((Mirrors.check _ field.token _ []).bind fun _ => .check _ field.token _ []) (.pure ())

theorem Mirrors.fieldValue {value value' : Checker Constraint} (h : Mirrors ρ value value')
    (owner : Owner) (field : Field) (token : Nat) :
    Mirrors ρ (fieldValue owner field token value) (fieldValue owner field token value') :=
  (mirrors_typeOf field.type).bind fun declared => (h.withFlags _).bind fun constraint =>
    mirrors_checkAssignable constraint declared token

theorem Mirrors.initializer {body body' : Checker Completion} (h : Mirrors ρ body body')
    (isStatic : Bool) : Mirrors ρ (initializer isStatic body) (initializer isStatic body') :=
  (h.withFlags _).discard

theorem mirrors_checkImport (item : Import) : Mirrored ρ (checkImport item) :=
  .forM (fun name => .require _ item.token _ [name]) _

end Checker

open Javascribe.Tree Javascribe.Checker

/-! ### Trees -/

namespace Check

variable {ρ : Renaming}

mutual

theorem mirrors_statement : (s : Statement) → Mirrored ρ (statement s)
  | ⟨left, none, _, _, cast, _, _⟩ => by
    unfold statement
    cases left with
    | none => exact .pure Native.void
    | some n => exact (mirrors_node n).bind fun c => mirrors_castToOption c cast
  | ⟨some target, some use, some value, _, _, _, _⟩ => by
    unfold statement
    refine .ite ?_ ?_
    · exact (mirrors_statement value).bind fun c =>
        (mirrors_assignmentTarget true target).bind fun t => mirrors_assigned use t c value.token
    · refine (mirrors_node target).bind fun left => .ite (.pure Native.boolean) ?_
      exact (mirrors_statement value).bind fun right => mirrors_binary use left right
  | ⟨some target, some use, none, _, _, _, token⟩ => by
    unfold statement
    refine .ite (.halt token _ []) (.ite ?_ (.halt token _ []))
    exact (mirrors_assignmentTarget false target).bind fun t =>
      mirrors_expectOperand use t Native.number
  | ⟨none, some use, some operand, _, _, _, token⟩ => by
    unfold statement
    refine .ite (.halt token _ []) (.ite ?_ ?_)
    · exact (mirrors_simpleTarget false operand).bind fun t =>
        mirrors_expectOperand use t Native.number
    · cases hOperand : unaryOperand? use.operation with
      | none => exact .halt use.token _ []
      | some expected =>
        have fixed : rename ρ expected = expected := rename_unaryOperand hOperand
        refine (mirrors_statement operand).bind fun c => ?_
        have mirrored := mirrors_expectOperand (ρ := ρ) use c expected
        rwa [fixed] at mirrored
  | ⟨none, some use, none, _, _, _, token⟩ => by
    unfold statement
    exact .ite (.halt token _ []) (.halt token _ [])

theorem mirrors_assignmentTarget (isAssignment : Bool) :
    (n : Node) → Mirrored ρ (assignmentTarget isAssignment n)
  | .chain ⟨properties, token⟩ => by
    have rest : Mirrored ρ
        (do
          let last ← chain token properties
          if let some member := last.member then requireMutable member token
          return last.constraint) := by
      refine (mirrors_chain token properties).bind fun last => ?_
      obtain ⟨constraint, _ | member⟩ := last
      · exact .pure constraint
      · exact (mirrors_requireMutable member token).bind fun _ => .pure constraint
    unfold assignmentTarget
    exact .ite rest ((Mirrors.halt (α := PUnit) token _ []).bind fun _ => rest)
  | .statement s => mirrors_simpleTarget isAssignment s
  | .declaration d => mirrors_declareVariable d _
  | .reference r => mirrors_assignedReference r
  | .instruction _ | .assertion _ | .literal _ | .lambda _ | .call _ | .instantiation _
  | .classDecl _ | .ifElse _ | .forLoop _ | .whileLoop _ | .doWhileLoop _ | .switch _
  | .tryCatch _ | .ternary _ => .halt _ _ []

theorem mirrors_simpleTarget (isAssignment : Bool) :
    (s : Statement) → Mirrored ρ (simpleTarget isAssignment s)
  | ⟨some target, none, none, _, none, _, _⟩ => mirrors_assignmentTarget isAssignment target
  | ⟨none, _, _, _, _, _, _⟩ => .halt _ _ []
  | ⟨some _, some _, _, _, _, _, _⟩ => .halt _ _ []
  | ⟨some _, none, some _, _, _, _, _⟩ => .halt _ _ []
  | ⟨some _, none, none, _, some _, _, _⟩ => .halt _ _ []

theorem mirrors_statements : (ss : List Statement) → Mirrored ρ (statements ss)
  | [] => .pure []
  | s :: ss =>
    (mirrors_statement s).bind fun c => (mirrors_statements ss).bind fun cs => .pure (c :: cs)

theorem mirrors_optionStatement :
    (s : Option Statement) → Mirrored ρ (optionStatement s)
  | none => .pure none
  | some s => (mirrors_statement s).bind fun c => .pure (some c)

theorem mirrors_elementsOf (element : Constraint) :
    (ss : List Statement) → Mirrors ρ (elementsOf element ss) (elementsOf (rename ρ element) ss)
  | [] => .pure ()
  | s :: ss =>
    (mirrors_statement s).bind fun c => (mirrors_checkAssignable c element s.token).bind fun _ =>
      mirrors_elementsOf element ss

theorem mirrors_node : (n : Node) → Mirrored ρ (node n)
  | .statement s => mirrors_statement s
  | .instruction ⟨kind, value, token⟩ => by
    unfold node
    refine (Mirrors.complete (leaving kind)).bind fun _ => ?_
    cases kind with
    | returns =>
      exact (mirrors_requireReturn token).bind fun _ => (mirrors_optionStatement value).bind fun c =>
        (mirrors_returned c token).bind fun _ => .pure Native.void
    | throws => exact (mirrors_optionStatement value).discard.bind fun _ => .pure Native.void
    | continues | breaks => exact .pure Native.void
  | .assertion ⟨test, message, _⟩ => by
    unfold node
    exact ((mirrors_statement test).condition test.token).bind fun _ =>
      (mirrors_optionStatement message).discard.bind fun _ => .pure Native.void
  | .literal ⟨.array, _, items, _⟩ => by
    unfold node
    exact (mirrors_statements items).bind fun cs => (mirrors_commonElement cs).bind fun element =>
      .pure (Constraint.arrayOf element)
  | .literal ⟨.keyword, value, _, _⟩ => by
    unfold node
    have fixed : rename ρ (scalarLiteral .keyword value) = scalarLiteral .keyword value :=
      rename_scalarLiteral .keyword value
    have mirrored := Mirrors.pure (ρ := ρ) (scalarLiteral .keyword value)
    rwa [fixed] at mirrored
  | .literal ⟨.string, _, _, _⟩ => .pure Native.string
  | .literal ⟨.number, _, _, _⟩ => .pure Native.number
  | .lambda ⟨parameters, body, _⟩ => by
    unfold node
    exact (mirrors_lambdaBody body).lambda parameters
  | .reference r => mirrors_reference r
  | .call ⟨name, types, arguments, token⟩ => mirrors_functionCall ⟨name, types, arguments, token⟩
  | .instantiation i => mirrors_instantiation i
  | .classDecl _ => .pure Native.void
  | .declaration d => mirrors_declareVariable d false
  | .ifElse ⟨tests, branches, _⟩ => by
    unfold node
    refine (mirrors_conditions tests).bind fun _ => (mirrors_blocks branches).bind fun c => ?_
    exact .ite ((Mirrors.complete c).bind fun _ => .pure Native.void) (.pure Native.void)
  | .forLoop ⟨initialization, test, increment, iterable, isEnhanced, body, _⟩ => by
    have last : Mirrored ρ (discard (block body)) :=
      (mirrors_block body).discard
    unfold node
    refine Mirrors.bind (Mirrors.withScope (.ite ?_ ?_)) fun _ => .pure Native.void
    · refine Mirrors.bind (Mirrors.attempt ?_) fun _ => last
      refine (mirrors_optionStatement iterable).bind fun value => ?_
      cases value with
      | none => exact mirrors_dynamic.bind fun element => mirrors_bindElement element initialization
      | some value =>
        exact (mirrors_elements value).bind fun element => mirrors_bindElement element initialization
    · exact (mirrors_optionStatement initialization).attempt.bind fun _ =>
        (mirrors_optionCondition test).attempt.bind fun _ =>
          (mirrors_optionStatement increment).attempt.bind fun _ => last
  | .whileLoop ⟨test, body, _⟩ => by
    unfold node
    exact ((mirrors_statement test).condition test.token).attempt.bind fun _ =>
      (mirrors_block body).discard.bind fun _ => .pure Native.void
  | .doWhileLoop ⟨body, test, _⟩ => by
    unfold node
    exact (mirrors_block body).discard.bind fun _ =>
      ((mirrors_statement test).condition test.token).attempt.bind fun _ => .pure Native.void
  | .switch ⟨value, cases, bodies, default, _⟩ => by
    unfold node
    refine (mirrors_statement value).recover.bind fun value => ?_
    refine (mirrors_switchedObject value).bind fun object => ?_
    refine (mirrors_switchCases object cases).bind fun _ => ?_
    refine (mirrors_switchBlocks bodies).bind fun leaves => ?_
    refine (mirrors_defaultBlock default).bind fun defaultLeaves => ?_
    exact .ite ((Mirrors.complete .method).bind fun _ => .pure Native.void) (.pure Native.void)
  | .tryCatch ⟨body, _, names, clauses, finallyBlock, _⟩ => by
    unfold node
    exact (mirrors_block body).bind fun c => (mirrors_catchBlocks names clauses).bind fun c' =>
      (mirrors_optionBlock finallyBlock).bind fun last =>
        (Mirrors.complete ((c.both c').either last)).bind fun _ => .pure Native.void
  | .chain ⟨properties, token⟩ => by
    unfold node
    exact (mirrors_chain token properties).bind fun last => .pure last.constraint
  | .ternary ⟨test, left, right, _⟩ => by
    unfold node
    exact ((mirrors_statement test).condition test.token).bind fun _ =>
      (mirrors_statement left).bind fun l => (mirrors_statement right).bind fun r =>
        mirrors_commonBranch l r

theorem mirrors_optionCondition :
    (s : Option Statement) → Mirrored ρ (optionCondition s)
  | none => .pure ()
  | some s => (mirrors_statement s).condition s.token

theorem mirrors_lambdaBody : (b : LambdaBody) → Mirrored ρ (lambdaBody b)
  | .block b => (mirrors_block b).discard
  | .statement s => (mirrors_statement s).attempt

theorem mirrors_functionCall : (c : Call) → Mirrored ρ (functionCall c)
  | ⟨name, _, arguments, token⟩ => by
    unfold functionCall
    refine (mirrors_statements arguments).bind fun cs => ?_
    cases name with
    | some name => exact mirrors_call name cs token
    | none => exact .halt token _ []

theorem mirrors_chain (token : Nat) :
    (properties : List Property) → Mirrored ρ (chain token properties)
  | [] => .halt token _ []
  | .reference r :: properties => by
    unfold chain
    refine MirrorsBy.bind (mirrors_leadingName r (r.name :: leadingNames properties))
      fun (constraint, taken) => ?_
    exact mirrors_links (taken - 1) ⟨constraint, none⟩ properties
  | .call c :: properties => by
    unfold chain
    exact (mirrors_functionCall c).bind fun constraint => mirrors_links 0 ⟨constraint, none⟩ properties
  | .head n :: properties => by
    unfold chain
    exact (mirrors_node n).bind fun constraint => mirrors_links 0 ⟨constraint, none⟩ properties
  | .type t :: properties => by
    unfold chain
    exact (mirrors_typeOf t).bind fun constraint => mirrors_links 0 ⟨constraint, none⟩ properties
  | .index s :: _ => .halt s.token _ []

theorem mirrors_links (taken : Nat) (link : Link) :
    (properties : List Property) →
      Mirrors ρ (links taken link properties) (links taken (rename ρ link) properties)
  | [] => .pure link
  | p :: properties => by
    unfold links
    cases taken with
    | succ rest => exact mirrors_links rest link properties
    | zero =>
      refine (mirrors_resolve link.constraint).bind fun constraint => ?_
      rw [isDynamic_rename]
      refine .ite ?_ ?_
      · exact (mirrors_dynamicProperty p).bind fun _ =>
          mirrors_links 0 ⟨link.constraint, none⟩ properties
      · exact (mirrors_property link.constraint p).bind fun next => mirrors_links 0 next properties

theorem mirrors_property (receiver : Constraint) :
    (p : Property) → Mirrors ρ (property receiver p) (property (rename ρ receiver) p)
  | .reference r => mirrors_memberOf receiver r.name r.token
  | .call ⟨name, _, arguments, token⟩ => by
    unfold property
    exact (mirrors_statements arguments).bind fun cs =>
      (mirrors_callLink receiver name cs token).bind fun c => .pure (Link.mk c none)
  | .index s => by
    unfold property
    exact (mirrors_statement s).bind fun index =>
      (mirrors_elementOf receiver index s.token).bind fun c => .pure (Link.mk c none)
  | .type t => by
    unfold property
    exact (mirrors_typeOf t).bind fun c => .pure (Link.mk c none)
  | .head n => by
    unfold property
    exact (mirrors_node n).bind fun c => .pure (Link.mk c none)

theorem mirrors_dynamicProperty :
    (p : Property) → Mirrored ρ (dynamicProperty p)
  | .call ⟨_, _, arguments, _⟩ => (mirrors_statements arguments).discard
  | .index s => (mirrors_statement s).discard
  | .reference _ | .type _ | .head _ => .pure ()

theorem mirrors_block : (b : Block) → Mirrored ρ (block b)
  | ⟨ss, _⟩ => by
    unfold block
    exact (mirrors_lines ss).inBlock

theorem mirrors_lines : (ss : List Statement) → Mirrored ρ (lines ss)
  | [] => .pure ()
  | s :: ss => by
    unfold lines
    refine .ite (mirrors_lines ss) ?_
    exact ((mirrors_statement s).standalone s).bind fun _ => mirrors_lines ss

theorem mirrors_blocks : (bs : List Block) → Mirrored ρ (blocks bs)
  | [] => .pure Completion.method
  | b :: bs => by
    unfold blocks
    exact (mirrors_block b).bind fun c => (mirrors_blocks bs).bind fun c' => .pure (c.both c')

theorem mirrors_optionBlock : (b : Option Block) → Mirrored ρ (optionBlock b)
  | none => .pure Completion.normal
  | some b => mirrors_block b

theorem mirrors_conditions : (ss : List Statement) → Mirrored ρ (conditions ss)
  | [] => .pure ()
  | s :: ss => by
    unfold conditions
    exact ((mirrors_statement s).condition s.token).attempt.bind fun _ => mirrors_conditions ss

theorem mirrors_switchCases (object : Option Nat) :
    (ss : List Statement) → Mirrors ρ (switchCases object ss) (switchCases (rename ρ object) ss)
  | [] => .pure ()
  | s :: ss => by
    unfold switchCases
    cases s.caseName? with
    | some name => exact (mirrors_noteCase object name).bind fun _ => mirrors_switchCases object ss
    | none => exact (mirrors_statement s).attempt.bind fun _ => mirrors_switchCases object ss

theorem mirrors_switchBlocks : (bs : List Block) → Mirrored ρ (switchBlocks bs)
  | [] => .pure true
  | b :: bs => by
    unfold switchBlocks
    refine (mirrors_block b).bind fun c => (mirrors_switchBlocks bs).bind fun leaves => ?_
    exact .pure ((b.isEmpty || c.leavesMethod) && leaves)

theorem mirrors_defaultBlock : (b : Option Block) → Mirrored ρ (defaultBlock b)
  | none => .pure false
  | some b => by
    unfold defaultBlock
    exact (mirrors_block b).bind fun c => .pure (c.leavesMethod && !b.isEmpty)

theorem mirrors_catchBlocks (names : List Reference) :
    (bs : List Block) → Mirrored ρ (catchBlocks names bs)
  | [] => .pure Completion.method
  | b :: bs => by
    unfold catchBlocks
    have first : Mirrored ρ (do declareException names.head?; block b) :=
      (mirrors_declareException names.head?).bind fun _ => mirrors_block b
    exact first.withScope.bind fun c => (mirrors_catchBlocks names.tail bs).bind fun c' =>
      .pure (c.both c')

theorem mirrors_instantiation : (i : Instantiation) → Mirrored ρ (instantiation i)
  | ⟨type, arguments, size, literal, body, token⟩ => by
    unfold instantiation
    refine (mirrors_typeOf type).bind fun constructed => ?_
    cases size with
    | some size =>
      exact (mirrors_statement size).bind fun c =>
        (mirrors_checkAssignable c Native.number size.token).bind fun _ =>
          .pure (Constraint.arrayOf constructed)
    | none =>
      cases literal with
      | some literal =>
        obtain ⟨_, _, items, _⟩ := literal
        exact (mirrors_elements constructed).bind fun element =>
          (mirrors_elementsOf element items).bind fun _ => .pure constructed
      | none =>
        refine (mirrors_statements arguments).bind fun cs => ?_
        rw [definition_rename, object?_rename]
        cases constructed.definition.object? with
        | none => exact (mirrors_optionBody none type.name body).bind fun _ => .pure constructed
        | some id =>
          exact (mirrors_construct id body.isSome cs token).bind fun _ =>
            (mirrors_objectName id).bind fun name =>
              (mirrors_optionBody (some id) name body).bind fun _ => .pure (Constraint.object id)

theorem mirrors_optionBody (base : Option Nat) (name : String) :
    (b : Option ObjectBody) →
      Mirrors ρ (optionBody base name b) (optionBody (rename ρ base) name b)
  | none => .pure ()
  | some ⟨_, ms, initializerBlocks, _⟩ => by
    unfold optionBody
    refine Mirrors.visitingOption ?_ base
    exact (mirrors_members _ ms).bind fun _ => mirrors_initializers false initializerBlocks

theorem mirrors_classDecl : (c : ClassDecl) → Mirrored ρ (classDecl c)
  | ⟨modifiers, name, typeParameters, extended, implemented, constructors, ms,
      instanceInitializers, staticInitializers, _, _, token⟩ => by
    unfold classDecl
    refine (mirrors_declaredObject? name).bind fun declared => ?_
    cases declared with
    | none => exact .pure ()
    | some id =>
      refine Mirrors.withinObject ?_ id name typeParameters
      have rest : Mirrored ρ
          (do
            methods ⟨name, modifiers.isAbstract, false⟩ constructors
            members ⟨name, modifiers.isAbstract, false⟩ ms
            initializers false instanceInitializers
            initializers true staticInitializers) :=
        (mirrors_methods _ constructors).bind fun _ => (mirrors_members _ ms).bind fun _ =>
          (mirrors_initializers false instanceInitializers).bind fun _ =>
            mirrors_initializers true staticInitializers
      refine (mirrors_checkSupertypes name extended implemented).bind fun _ => .ite rest ?_
      exact (mirrors_checkImplemented name token id).bind fun _ => rest

theorem mirrors_interfaceDecl : (i : InterfaceDecl) → Mirrored ρ (interfaceDecl i)
  | ⟨_, name, typeParameters, _, ms, _, _⟩ => by
    unfold interfaceDecl
    refine (mirrors_declaredObject? name).bind fun declared => ?_
    cases declared with
    | none => exact .pure ()
    | some id => exact (mirrors_members _ ms).withinObject id name typeParameters

theorem mirrors_members (owner : Owner) :
    (ms : List Member) → Mirrored ρ (members owner ms)
  | [] => .pure ()
  | m :: ms => (mirrors_member owner m).bind fun _ => mirrors_members owner ms

theorem mirrors_member (owner : Owner) :
    (m : Member) → Mirrored ρ (member owner m)
  | .field f => (mirrors_field owner f).attempt
  | .method m => mirrors_method owner m
  | .classDecl c => mirrors_classDecl c
  | .interfaceDecl i => mirrors_interfaceDecl i

theorem mirrors_methods (owner : Owner) :
    (ms : List Method) → Mirrored ρ (methods owner ms)
  | [] => .pure ()
  | m :: ms => (mirrors_method owner m).bind fun _ => mirrors_methods owner ms

theorem mirrors_method (owner : Owner) :
    (m : Method) → Mirrored ρ (method owner m)
  | ⟨modifiers, typeParameters, type, name, parameters, throws, body, annotations, isConstructor,
      token⟩ => by
    unfold method
    refine (mirrors_checkHeader owner _).bind fun _ => ?_
    cases body with
    | none => exact .pure ()
    | some b => exact (mirrors_block b).methodBody owner _ b

theorem mirrors_field (owner : Owner) : (f : Field) → Mirrored ρ (field owner f)
  | ⟨modifiers, type, name, value, annotations, token⟩ => by
    unfold field
    refine (mirrors_checkAbstractField owner _).bind fun _ => ?_
    cases value with
    | none => exact .pure ()
    | some s => exact (mirrors_statement s).fieldValue owner _ s.token

theorem mirrors_initializers (isStatic : Bool) :
    (bs : List Block) → Mirrored ρ (initializers isStatic bs)
  | [] => .pure ()
  | b :: bs =>
    ((mirrors_block b).initializer isStatic).bind fun _ => mirrors_initializers isStatic bs

end

/-! ### Files -/

theorem mirrors_package (declared : Option Package) : Mirrored ρ (package declared) := by
  refine .ite (fun env env' h shift context => ?_) (.pure ())
  change EStateM.Result.ok PUnit.unit
    (((rename ρ context).shift shift).note (.problem (Diagnostic.withoutSpan env'.file _ _))) = _
  rw [h.file, ← Context.shift_note]
  rfl

theorem mirrors_item (top : TopLevel) : Mirrored ρ (item top) := by
  cases top with
  | importDecl i => exact (mirrors_checkImport i).attempt
  | classDecl c => exact mirrors_classDecl c
  | interfaceDecl i => exact mirrors_interfaceDecl i

theorem mirrors_file (parsed : File) : Mirrored ρ (file parsed) :=
  (mirrors_package parsed.package).bind fun _ => .forM mirrors_item parsed.items

end Check

/-- **Numbers do not matter.** A file has the same problems, and the same is
found out about its names, whatever the numbers of types are. -/
theorem SourceTree.check_renames {ρ : Renaming} {d d' : Dictionary} (h : d.Renames ρ d')
    (file : String) (tree : SourceTree) : tree.check file d' = tree.check file d := by
  have mirrored := Check.mirrors_file tree.toFile (.ofTree file tree d) (.ofTree file tree d')
    ⟨h, rfl⟩ .refl {}
  change Check.file tree.toFile (.ofTree file tree d') {} = _ at mirrored
  unfold SourceTree.check
  rw [mirrored]
  cases Check.file tree.toFile (.ofTree file tree d) {} <;> rfl

end Javascribe
