/-
# What the check of a tree changes

Every part of the checker keeps to its frame: the parts that look into no
tree, and the check of trees, construct by construct. In the check of a
construct control is taken to leave no more than by its completion,
unreachable code is reported only in the blocks that stand inside of it
(`Tree.Statement.bodies`), and qualifiers are given only to the bare names that
stand in it (`Tree.Statement.uses`), each among the objects that enclose it in
the tree: the qualifier of the member that is found there.

Key theorems: `Check.meets_statement`, `Check.yields_block`,
`Check.meets_method`.
-/
import Javascribe.Proofs.CheckerFrame

namespace Javascribe
namespace Checker

open Javascribe.Tree

variable {α β : Type} {f : Frame} {p : Place} {F G : Completion} {m : Checker α}

/-- A plain check keeps to every frame. -/
@[grind ←]
theorem Plain.meets (h : Plain m) : Meets f p F m := by
  intro before _
  have hRun := h f.env before
  have hGrows {after : Context} (hExtends : before.Extends f.env after) :
      before.Grows f after ∧ before.flags.Adds F after.flags := by
    obtain ⟨halts, hHalts, hCodes⟩ := hExtends.diagnostics
    refine ⟨.of_eq ?_ hExtends.expected hExtends.scopes hExtends.qualifiers hHalts
      fun halt hMem => unreachableAt_of_ne (hCodes halt hMem), ?_⟩
    · rw [Context.place, hExtends.objects, hExtends.enclosing, hExtends.generics, Context.place]
    · rw [hExtends.flags]
      exact .refl F before.flags
  cases hm : m f.env before <;> simp only [hm] at hRun ⊢
  · exact ⟨(hGrows hRun).1, (hGrows hRun).2, trivial⟩
  · exact ⟨(hGrows hRun.1).1, (hGrows hRun.1).2, unreachableAt_of_ne hRun.2⟩

/-! ### What the place says -/

theorem Meets.bind_typeOf {type : TypeRef} {g : Constraint → Checker β}
    (h : Meets f p F (g (f.env.typeAt p type))) : Meets f p F (typeOf type >>= g) := by
  refine .bind_of_ok ?_ h
  rintro before rfl
  rfl

theorem Meets.bind_declaredObject? {name : String} {g : Option Nat → Checker β}
    (h : Meets f p F (g (f.env.objectAt? p name))) :
    Meets f p F (declaredObject? name >>= g) := by
  refine .bind_of_ok ?_ h
  rintro before rfl
  rfl

theorem Meets.bind_visibleMember? {name : String} {g : Option ObjectMember → Checker β}
    (h : Meets f p F (g (p.objects.findSome? (f.env.dictionary.member? · name)))) :
    Meets f p F (visibleMember? name >>= g) := by
  refine .bind_of_ok ?_ h
  rintro before rfl
  rfl

theorem Meets.bind_ask {question : Dictionary → α} {g : α → Checker β}
    (h : Meets f p F (g (question f.env.dictionary))) :
    Meets f p F (ask question >>= g) :=
  .bind_of_ok (fun _ _ => rfl) h

/-! ### Qualified names -/

theorem qualify_eq (member : ObjectMember) (token : Nat) (env : Environment) (context : Context) :
    qualify member token env context = .ok () { context with
      resolutions := context.resolutions.addQualifier token (env.dictionary.qualifier member) } := by
  unfold qualify Dictionary.qualifier
  cases member.isStatic <;> rfl

@[grind ←]
theorem Meets.qualify {member : ObjectMember} {token : Nat}
    (h : Use.Takes f.env.dictionary f.uses token (f.env.dictionary.qualifier member)) :
    Meets f p F (qualify member token) := by
  intro before _
  rw [qualify_eq]
  refine ⟨⟨rfl, rfl, .refl _, fun other qualifier hAfter => ?_, [], by simp, nofun⟩,
    .refl F before.flags, trivial⟩
  change (before.resolutions.qualifiers.insert token _).find? other = some qualifier at hAfter
  rw [Table.find?_insert] at hAfter
  split at hAfter
  · next hSame =>
    obtain rfl := Option.some.inj hAfter
    exact .inr (hSame ▸ h)
  · exact .inl hAfter

@[grind ←]
theorem meets_memberReference {member : ObjectMember} {token : Nat}
    (h : Use.Takes f.env.dictionary f.uses token (f.env.dictionary.qualifier member)) :
    Meets f p F (memberReference member token) := by
  unfold memberReference
  grind

@[grind ←]
theorem meets_memberCall {name : String} {method : MethodMatch} {token : Nat}
    (h : Use.Takes f.env.dictionary f.uses token (f.env.dictionary.qualifier method.member)) :
    Meets f p F (memberCall name method token) := by
  unfold memberCall
  grind

@[grind ←]
theorem meets_reference {r : Reference} (h : r.use p ∈ f.uses) :
    Meets f p F (reference r) := by
  unfold reference
  split
  · exact (plain_thisReference _).meets
  · exact (plain_superReference _).meets
  · refine (plain_local? _).meets.bind fun declared => ?_
    cases declared with
    | some declared => exact .pure _
    | none =>
      refine .bind_visibleMember? ?_
      split
      · next member found =>
        exact meets_memberReference ⟨_, h, member, rfl, found, rfl⟩
      · exact (plain_globalReference _ _).meets

@[grind ←]
theorem meets_assignedReference {r : Reference} (h : r.use p ∈ f.uses) :
    Meets f p F (assignedReference r) := by
  have hReference : Meets f p F (reference r) := meets_reference h
  unfold assignedReference
  grind

theorem meets_enclosingCall {name : String} {arguments : List Constraint} {token : Nat}
    {objects : List Nat}
    (h : ∀ method, f.env.dictionary.enclosingMethod name arguments objects = .found method →
      Use.Takes f.env.dictionary f.uses token (f.env.dictionary.qualifier method.member)) :
    Meets f p F (enclosingCall name arguments token objects) := by
  induction objects with
  | nil => exact (plain_globalCall name arguments token).meets
  | cons id objects ih =>
    unfold enclosingCall
    refine .bind_ask ?_
    unfold Dictionary.enclosingMethod at h
    cases hLookup : f.env.dictionary.method id name arguments <;> simp only [hLookup] at h ⊢
    · exact meets_memberCall (h _ rfl)
    · exact (plain_invalidArguments name arguments token).meets
    · exact (plain_notFunction name token).meets
    · exact ih h

@[grind ←]
theorem meets_call {name : String} {arguments : List Constraint} {token : Nat}
    (h : ⟨.call, name, token, p.objects⟩ ∈ f.uses) :
    Meets f p F (call name arguments token) := by
  unfold call
  split
  · exact ((plain_constructorCall arguments token _).bind fun _ => .pure _).meets
  · refine (plain_local? name).meets.bind fun declared => ?_
    cases declared with
    | some declared => exact (plain_callValue _ name arguments token).meets
    | none =>
      intro before hPlace
      subst hPlace
      exact meets_enclosingCall
        (fun method found => ⟨_, h, method.member, rfl, ⟨arguments, method, found, rfl⟩, rfl⟩)
        before rfl

theorem meets_leadingName {first : Reference} (h : first.use p ∈ f.uses) (names : List String) :
    Meets f p F (leadingName first names) := by
  have hReference : Meets f p F (reference first) := meets_reference h
  unfold leadingName
  grind

theorem meets_noteCase {object : Option Nat} {r : Reference}
    (h : ⟨.case, r.name, r.token, p.objects⟩ ∈ f.uses) : Meets f p F (noteCase object r) := by
  unfold noteCase
  cases object with
  | none => exact .pure _
  | some id =>
    refine .bind_ask ?_
    split
    · next member found =>
      split
      · next isStatic => exact .qualify ⟨_, h, member, rfl, ⟨id, found, isStatic⟩, rfl⟩
      · exact .pure _
    · exact .pure _

/-! ### Parts that are given a check -/

@[grind ←]
theorem Meets.condition {token : Nat} {value : Checker Constraint} (h : Meets f p F value) :
    Meets f p F (condition token value) := by
  unfold Checker.condition
  grind

theorem Meets.lambda {parameters : List LambdaParameter} {body : Checker Unit}
    (h : Meets f p G body) : Meets f p F (lambda parameters body) := by
  have hBody : Meets f p G (do parameters.forM declareLambdaParameter; body) := by grind
  exact Meets.bind hBody.withScope.expecting.withFlags fun _ => .pure _

theorem Meets.methodBody {owner : Owner} {method : Method} {block : Block}
    {body : Checker Completion}
    (h : Meets f (p.withGenerics (method.typeParameters.map TypeRef.name)) G body) :
    Meets f p F (methodBody owner method block body) := by
  have hRun (result : Constraint) :
      Meets f (p.withGenerics (method.typeParameters.map TypeRef.name)) F (do
      let locals ← method.parameters.mapM parameter
      let completion ← withFlags (fun _ => methodFlags method) <| expecting result <| withScope do
        locals.forM Checker.declare
        body
      return (result, completion)) := by
    refine (Plain.mapM plain_parameter).meets.bind fun locals => ?_
    have hLocals : Plain (locals.forM Checker.declare) := .forM Plain.declare
    have hBody := Meets.bind hLocals.meets fun _ => h
    exact Meets.bind hBody.withScope.expecting.withFlags fun _ => .pure _
  unfold Checker.methodBody
  refine Meets.bind (Yields.withGenerics ?_) fun (result, completion) => ?_
  · refine (plain_resultType method).meets.bind fun result => ?_
    split
    · exact (plain_checkConstructorReturns block).meets.bind fun _ => hRun result
    · exact hRun result
  · grind

theorem Meets.fieldValue {owner : Owner} {field : Field} {token : Nat} {value : Checker Constraint}
    (h : Meets f p G value) : Meets f p F (fieldValue owner field token value) := by
  refine (plain_typeOf field.type).meets.bind fun declared => ?_
  exact Meets.bind h.withFlags fun c => (plain_checkAssignable c declared token).meets

theorem Meets.initializer {isStatic : Bool} {body : Checker Completion} (h : Meets f p G body) :
    Meets f p F (initializer isStatic body) :=
  Meets.discard h.withFlags

end Checker

open Javascribe.Tree Javascribe.Checker

/-! ### Blocks -/

theorem Tree.linesCompletion_append (ss ts : List Statement) :
    linesCompletion (ss ++ ts) = (linesCompletion ss).either (linesCompletion ts) := by
  induction ss with
  | nil => simp [linesCompletion, Completion.either, Completion.normal]
  | cons s ss ih => rw [List.cons_append, linesCompletion, ih, linesCompletion, Completion.either_assoc]

theorem Tree.linesCompletion_singleton (s : Statement) : linesCompletion [s] = s.completion := by
  simp [linesCompletion]

theorem Tree.linksCompletion_cons_le {F : Completion} {p : Property} {ps : List Property} :
    linksCompletion (p :: ps) ≤ F ↔ linksCompletion [p] ≤ F ∧ linksCompletion ps ≤ F := by
  cases p with
  | reference | type => exact ⟨fun h => ⟨Completion.normal_le F, h⟩, And.right⟩
  | call c => cases c; simp [linksCompletion, Completion.either_le_iff]
  | index | head => simp [linksCompletion, Completion.either_le_iff]

/-- A statement of its own, behind others of its block. -/
theorem Checker.leads_standalone {f : Frame} {p : Place} {before after : List Statement}
    {s : Statement} {value : Checker Constraint} (hBody : before ++ s :: after ∈ f.bodies)
    (hValue : Meets f p s.completion value) :
    Leads f p (linesCompletion before) (linesCompletion (before ++ [s])) (standalone s value) := by
  have hAttempt : Meets f p s.completion (attempt do
      check s.isStandalone s.token .invalidExpression []
      value) := by grind
  rw [linesCompletion_append, linesCompletion_singleton]
  exact (leads_checkReachable hBody).bind (hAttempt.leads _)

/-! ### Trees -/

namespace Check

/-- What is checked inside of a class. -/
def classBody (c : ClassDecl) (id : Nat) : Checker Unit := do
  checkSupertypes c.name c.extended c.implemented
  unless c.modifiers.isAbstract do checkImplemented c.name c.token id
  let owner : Owner := ⟨c.name, c.modifiers.isAbstract, false⟩
  methods owner c.constructors
  members owner c.members
  initializers false c.instanceInitializers
  initializers true c.staticInitializers

theorem classDecl_eq (c : ClassDecl) : classDecl c = (do
    if let some id ← declaredObject? c.name then
      withinObject id c.name c.typeParameters (classBody c id)) := by
  obtain ⟨_, _, _, _, _, _, _, _, _, _, _, _⟩ := c
  rw [classDecl]
  rfl

variable {f : Frame}

/-- The bare names inside of a class. -/
def classUses (env : Environment) (p : Place) (c : ClassDecl) : List Use :=
  methodsUses env p c.constructors ++ membersUses env p c.members ++
    blocksUses env p c.instanceInitializers ++ blocksUses env p c.staticInitializers

/-- A class is checked if it is in the dictionary. -/
theorem Meets.classDecl {F : Completion} {p : Place} {c : ClassDecl}
    (hC : f.Covers c.bodies (c.uses f.env p))
    (h : ∀ {q} id, f.Covers c.bodies (classUses f.env q c) → Meets f q F (classBody c id)) :
    Meets f p F (classDecl c) := by
  obtain ⟨hC, hU⟩ := hC
  rw [classDecl_eq]
  refine .bind_declaredObject? ?_
  obtain ⟨_, name, _, _, _, _, _, _, _, _, _, _⟩ := c
  unfold ClassDecl.uses at hU
  cases hObject : f.env.objectAt? p name with
  | none => exact .pure _
  | some id =>
    simp only [hObject] at hU
    exact Yields.withinObject (h id ⟨hC, hU⟩)

mutual

theorem meets_statement {F : Completion} {p : Place} :
    (s : Statement) → s.completion ≤ F → f.Covers s.bodies (s.uses f.env p) → Meets f p F (statement s)
  | ⟨left, none, _, _, cast, _, _⟩, hF, hC => by
    unfold statement
    cases left with
    | none => exact .pure _
    | some n => exact (meets_node n hF hC).bind fun c => (plain_castToOption c cast).meets
  | ⟨some target, some use, some value, _, _, _, _⟩, hF, hC => by
    obtain ⟨hTarget, hValue⟩ := Completion.either_le_iff.mp hF
    obtain ⟨hTarget', hValue'⟩ := Frame.covers_append.mp hC
    have hNode := meets_node target hTarget hTarget'
    have hAssigned := meets_assignmentTarget true target hTarget hTarget'
    have hStatement := meets_statement value hValue hValue'
    unfold statement
    grind
  | ⟨some target, some use, none, _, _, _, token⟩, hF, hC => by
    have hAssigned := meets_assignmentTarget false target
      (Completion.either_le_iff.mp hF).1 (Frame.covers_append.mp hC).1
    unfold statement
    grind
  | ⟨none, some use, some operand, _, _, _, token⟩, hF, hC => by
    have hOperand := (Completion.either_le_iff.mp hF).2
    have hTarget := meets_simpleTarget false operand hOperand hC
    have hStatement := meets_statement operand hOperand hC
    unfold statement
    grind
  | ⟨none, some use, none, _, _, _, token⟩, _, _ => by
    unfold statement
    grind

theorem meets_assignmentTarget {F : Completion} {p : Place} (isAssignment : Bool) :
    (n : Node) → n.completion ≤ F → f.Covers n.bodies (n.uses f.env p) → Meets f p F (assignmentTarget isAssignment n)
  | .chain ⟨properties, token⟩, hF, hC => by
    have hChain := meets_chain token properties hF hC
    unfold assignmentTarget
    grind
  | .statement s, hF, hC => meets_simpleTarget isAssignment s hF hC
  | .declaration d, _, _ => (plain_declareVariable d _).meets
  | .reference r, _, hC => meets_assignedReference (hC.2 List.mem_cons_self)
  | .instruction _, _, _ | .assertion _, _, _ | .literal _, _, _ | .lambda _, _, _
  | .call _, _, _ | .instantiation _, _, _ | .classDecl _, _, _ | .ifElse _, _, _
  | .forLoop _, _, _ | .whileLoop _, _, _ | .doWhileLoop _, _, _ | .switch _, _, _
  | .tryCatch _, _, _ | .ternary _, _, _ => (plain_invalidAssignment _).meets

theorem meets_simpleTarget {F : Completion} {p : Place} (isAssignment : Bool) :
    (s : Statement) → s.completion ≤ F → f.Covers s.bodies (s.uses f.env p) → Meets f p F (simpleTarget isAssignment s)
  | ⟨some target, none, none, _, none, _, _⟩, hF, hC =>
    meets_assignmentTarget isAssignment target hF hC
  | ⟨none, _, _, _, _, _, _⟩, _, _ => (plain_invalidAssignment _).meets
  | ⟨some _, some _, _, _, _, _, _⟩, _, _ => (plain_invalidAssignment _).meets
  | ⟨some _, none, some _, _, _, _, _⟩, _, _ => (plain_invalidAssignment _).meets
  | ⟨some _, none, none, _, some _, _, _⟩, _, _ => (plain_invalidAssignment _).meets

theorem meets_statements {F : Completion} {p : Place} :
    (ss : List Statement) → linesCompletion ss ≤ F → f.Covers (linesBodies ss) (linesUses f.env p ss) →
      Meets f p F (statements ss)
  | [], _, _ => .pure _
  | s :: ss, hF, hC => by
    have hHead := meets_statement s (Completion.either_le_iff.mp hF).1 (Frame.covers_append.mp hC).1
    have hRest := meets_statements ss (Completion.either_le_iff.mp hF).2 (Frame.covers_append.mp hC).2
    unfold statements
    grind

theorem meets_optionStatement {F : Completion} {p : Place} :
    (s : Option Statement) → optionCompletion s ≤ F → f.Covers (optionBodies s) (optionUses f.env p s) →
      Meets f p F (optionStatement s)
  | none, _, _ => .pure _
  | some s, hF, hC => (meets_statement s hF hC).bind fun c => .pure (some c)

theorem meets_elementsOf {F : Completion} {p : Place} (element : Constraint) :
    (ss : List Statement) → linesCompletion ss ≤ F → f.Covers (linesBodies ss) (linesUses f.env p ss) →
      Meets f p F (elementsOf element ss)
  | [], _, _ => .pure _
  | s :: ss, hF, hC => by
    have hHead := meets_statement s (Completion.either_le_iff.mp hF).1 (Frame.covers_append.mp hC).1
    have hRest := meets_elementsOf element ss (Completion.either_le_iff.mp hF).2
      (Frame.covers_append.mp hC).2
    unfold elementsOf
    grind

theorem meets_node {F : Completion} {p : Place} :
    (n : Node) → n.completion ≤ F → f.Covers n.bodies (n.uses f.env p) → Meets f p F (node n)
  | .statement s, hF, hC => meets_statement s hF hC
  | .instruction ⟨kind, value, token⟩, hF, hC => by
    obtain ⟨hLeaving, hValue⟩ := Completion.either_le_iff.mp hF
    have hStatement := meets_optionStatement value hValue hC
    unfold node
    grind
  | .assertion ⟨test, message, _⟩, hF, hC => by
    have hTest := meets_statement test (Completion.either_le_iff.mp hF).1
      (Frame.covers_append.mp hC).1
    have hMessage := meets_optionStatement message (Completion.either_le_iff.mp hF).2
      (Frame.covers_append.mp hC).2
    unfold node
    grind
  | .literal ⟨.array, _, items, _⟩, hF, hC => by
    have hItems := meets_statements items hF hC
    unfold node
    grind
  | .literal ⟨.keyword, _, _, _⟩, _, _ => .pure _
  | .literal ⟨.string, _, _, _⟩, _, _ => .pure _
  | .literal ⟨.number, _, _, _⟩, _, _ => .pure _
  | .lambda ⟨parameters, body, _⟩, _, hC =>
    let ⟨_, hBody⟩ := exists_meets_lambdaBody body hC
    hBody.lambda
  | .reference r, _, hC => meets_reference (hC.2 List.mem_cons_self)
  | .call ⟨name, types, arguments, token⟩, hF, hC =>
    meets_functionCall ⟨name, types, arguments, token⟩ hF hC
  | .instantiation i, hF, hC => meets_instantiation i hF hC
  | .classDecl _, _, _ => .pure _
  | .declaration d, _, _ => (plain_declareVariable d false).meets
  | .ifElse ⟨tests, branches, _⟩, hF, hC => by
    obtain ⟨hTests, hBranches⟩ := Completion.either_le_iff.mp hF
    obtain ⟨hTests', hBranches'⟩ := Frame.covers_append.mp hC
    unfold node
    refine (meets_conditions tests hTests hTests').bind fun _ => ?_
    refine Yields.bind (yields_blocks branches hBranches') fun completion hLe => ?_
    split at hBranches
    · rw [if_pos ‹_›]
      exact (Meets.complete (Completion.le_trans hLe hBranches)).bind fun _ => .pure _
    · rw [if_neg ‹_›]
      exact Meets.pure _
  | .forLoop ⟨initialization, test, increment, iterable, isEnhanced, body, _⟩, hF, hC => by
    obtain ⟨hF, hF'⟩ := Completion.either_le_iff.mp hF
    obtain ⟨hInitialization, hTest⟩ := Completion.either_le_iff.mp hF
    obtain ⟨hIncrement, hIterable⟩ := Completion.either_le_iff.mp hF'
    simp only [Node.bodies, Node.uses, Frame.covers_append] at hC
    have hInitialization := meets_optionStatement initialization hInitialization hC.1.1.1.1
    have hTest := meets_optionCondition test hTest hC.1.1.1.2
    have hIncrement := meets_optionStatement increment hIncrement hC.1.1.2
    have hIterable := meets_optionStatement iterable hIterable hC.1.2
    have hBody := (yields_block (F := F) body hC.2).meets
    unfold node
    refine Meets.bind (Yields.withScope ?_) fun _ => .pure _
    split
    · refine (Meets.attempt (hIterable.bind fun value => ?_)).bind fun _ => hBody.discard
      cases value <;> grind
    · exact hInitialization.attempt.bind fun _ => hTest.attempt.bind fun _ =>
        hIncrement.attempt.bind fun _ => hBody.discard
  | .whileLoop ⟨test, body, _⟩, hF, hC => by
    have hTest := meets_statement test hF (Frame.covers_append.mp hC).1
    have hBody := (yields_block body (F := F) (Frame.covers_append.mp hC).2).meets
    unfold node
    grind
  | .doWhileLoop ⟨body, test, _⟩, hF, hC => by
    have hTest := meets_statement test hF (Frame.covers_append.mp hC).2
    have hBody := (yields_block body (F := F) (Frame.covers_append.mp hC).1).meets
    unfold node
    grind
  | .switch ⟨value, cases, bodies, default, _⟩, hF, hC => by
    obtain ⟨hF, hLeave⟩ := Completion.either_le_iff.mp hF
    obtain ⟨hValue, hCases⟩ := Completion.either_le_iff.mp hF
    simp only [Node.bodies, Node.uses, Frame.covers_append] at hC
    unfold node
    refine (meets_statement value hValue hC.1.1.1).recover.bind fun value => ?_
    refine (plain_switchedObject value).meets.bind fun object => ?_
    refine (meets_switchCases object cases hCases hC.1.1.2).bind fun _ => ?_
    refine Yields.bind (yields_switchBlocks bodies hC.1.2) fun leaves hLeaves => ?_
    refine Yields.bind (yields_defaultBlock default hC.2) fun defaultLeaves hDefault => ?_
    split
    · rename_i hBoth
      rw [Bool.and_eq_true] at hBoth
      rw [hLeaves hBoth.1, hDefault hBoth.2] at hLeave
      exact (Meets.complete hLeave).bind fun _ => .pure _
    · exact Meets.pure _
  | .tryCatch ⟨body, _, names, clauses, finallyBlock, _⟩, hF, hC => by
    simp only [Node.bodies, Node.uses, Frame.covers_append] at hC
    unfold node
    refine Yields.bind (yields_block body hC.1.1) fun guarded hGuarded => ?_
    refine Yields.bind (yields_catchBlocks names clauses hC.1.2) fun caught hCaught => ?_
    refine Yields.bind (yields_optionBlock finallyBlock hC.2) fun last hLast => ?_
    refine (Meets.complete ?_).bind fun _ => .pure _
    exact Completion.le_trans
      (Completion.either_le_either (Completion.both_le_both hGuarded hCaught) hLast) hF
  | .chain ⟨properties, token⟩, hF, hC => (meets_chain token properties hF hC).bind fun _ => .pure _
  | .ternary ⟨test, left, right, _⟩, hF, hC => by
    obtain ⟨hTest, hF⟩ := Completion.either_le_iff.mp hF
    obtain ⟨hLeft, hRight⟩ := Completion.either_le_iff.mp hF
    simp only [Node.bodies, Node.uses, Frame.covers_append] at hC
    have hTest := meets_statement test hTest hC.1.1
    have hLeft := meets_statement left hLeft hC.1.2
    have hRight := meets_statement right hRight hC.2
    unfold node
    grind

theorem meets_optionCondition {F : Completion} {p : Place} :
    (s : Option Statement) → optionCompletion s ≤ F → f.Covers (optionBodies s) (optionUses f.env p s) →
      Meets f p F (optionCondition s)
  | none, _, _ => .pure _
  | some s, hF, hC => (meets_statement s hF hC).condition

theorem exists_meets_lambdaBody {p : Place} :
    (b : LambdaBody) → f.Covers b.bodies (b.uses f.env p) → ∃ F, Meets f p F (lambdaBody b)
  | .block b, hC => ⟨.normal, (yields_block b hC).meets.discard⟩
  | .statement s, hC => ⟨s.completion, (meets_statement s (Completion.le_refl _) hC).attempt⟩

theorem meets_functionCall {F : Completion} {p : Place} :
    (c : Call) → linesCompletion c.arguments ≤ F →
      f.Covers (linesBodies c.arguments) ((Node.call c).uses f.env p) → Meets f p F (functionCall c)
  | ⟨name, _, arguments, token⟩, hF, ⟨hC, hU⟩ => by
    obtain ⟨hArguments, hName⟩ := List.append_subset.mp hU
    unfold functionCall
    refine (meets_statements arguments hF ⟨hC, hArguments⟩).bind fun arguments => ?_
    cases name with
    | none => exact (plain_invalidExpression token).meets
    | some name => exact meets_call (hName List.mem_cons_self)

theorem meets_chain {F : Completion} {p : Place} (token : Nat) :
    (ps : List Property) → linksCompletion ps ≤ F →
      f.Covers (linksBodies ps) (chainUses f.env p ps) → Meets f p F (chain token ps)
  | [], _, _ => (plain_invalidExpression token).meets
  | .reference _ :: ps, hF, ⟨hC, hU⟩ =>
    (meets_leadingName (List.cons_subset.mp hU).1 _).bind fun (c, taken) =>
      meets_links (taken - 1) ⟨c, none⟩ ps hF ⟨hC, (List.cons_subset.mp hU).2⟩
  | .call ⟨name, types, arguments, token⟩ :: ps, hF, hC =>
    (meets_functionCall ⟨name, types, arguments, token⟩ (Completion.either_le_iff.mp hF).1
      (Frame.covers_append.mp hC).1).bind fun c =>
        meets_links 0 ⟨c, none⟩ ps (Completion.either_le_iff.mp hF).2 (Frame.covers_append.mp hC).2
  | .head n :: ps, hF, hC =>
    (meets_node n (Completion.either_le_iff.mp hF).1 (Frame.covers_append.mp hC).1).bind
      fun c => meets_links 0 ⟨c, none⟩ ps (Completion.either_le_iff.mp hF).2
        (Frame.covers_append.mp hC).2
  | .type t :: ps, hF, hC => (plain_typeOf t).meets.bind fun c => meets_links 0 ⟨c, none⟩ ps hF hC
  | .index s :: _, _, _ => (plain_invalidExpression s.token).meets

theorem meets_links {F : Completion} {p : Place} (taken : Nat) (link : Link) :
    (ps : List Property) → linksCompletion ps ≤ F →
      f.Covers (linksBodies ps) (linksUses f.env p ps) → Meets f p F (links taken link ps)
  | [], _, _ => .pure link
  | first :: ps, hF, hC => by
    obtain ⟨hHead, hRest⟩ := linksCompletion_cons_le.mp hF
    obtain ⟨hHead', hRest'⟩ := Frame.covers_append.mp hC
    have hDynamic := meets_dynamicProperty first hHead hHead'
    have hProperty (receiver : Constraint) := meets_property receiver first hHead hHead'
    unfold links
    cases taken with
    | succ rest => exact meets_links rest link ps hRest hRest'
    | zero =>
      refine (plain_resolve link.constraint).meets.bind fun c => ?_
      split
      · exact hDynamic.bind fun _ => meets_links 0 _ ps hRest hRest'
      · exact (hProperty _).bind fun next => meets_links 0 next ps hRest hRest'

theorem meets_property {F : Completion} {p : Place} (receiver : Constraint) :
    (link : Property) → linksCompletion [link] ≤ F → f.Covers link.bodies (link.uses f.env p) →
      Meets f p F (property receiver link)
  | .reference r, _, _ => (plain_memberOf receiver r.name r.token).meets
  | .call ⟨name, _, arguments, token⟩, hF, hC => by
    have hArguments := meets_statements arguments (Completion.either_le_iff.mp hF).1 hC
    unfold property
    grind
  | .index s, hF, hC => by
    have hIndex := meets_statement s (Completion.either_le_iff.mp hF).1 hC
    unfold property
    grind
  | .type t, _, _ => (plain_typeOf t).meets.bind fun _ => .pure _
  | .head n, hF, hC =>
    (meets_node n (Completion.either_le_iff.mp hF).1 hC).bind fun _ => .pure _

theorem meets_dynamicProperty {F : Completion} {p : Place} :
    (link : Property) → linksCompletion [link] ≤ F → f.Covers link.bodies (link.uses f.env p) →
      Meets f p F (dynamicProperty link)
  | .call ⟨_, _, arguments, _⟩, hF, hC =>
    (meets_statements arguments (Completion.either_le_iff.mp hF).1 hC).discard
  | .index s, hF, hC => (meets_statement s (Completion.either_le_iff.mp hF).1 hC).discard
  | .reference _, _, _ | .type _, _, _ | .head _, _, _ => .pure _

theorem yields_block {F : Completion} {p : Place} :
    (b : Block) → f.Covers b.bodies (b.uses f.env p) → Yields f p F (· ≤ b.completion) (block b)
  | ⟨ss, _⟩, ⟨hC, hU⟩ =>
    Leads.inBlock (leads_lines [] ss (hC List.mem_cons_self)
      ⟨List.Subset.trans (List.subset_cons_self ss _) hC, hU⟩)

theorem leads_lines {p : Place} (before : List Statement) :
    (ss : List Statement) → before ++ ss ∈ f.bodies →
      f.Covers (linesBodies ss) (linesUses f.env p ss) →
      Leads f p (linesCompletion before) (linesCompletion (before ++ ss)) (lines ss)
  | [], _, _ => by
    rw [List.append_nil]
    exact .pure _
  | s :: ss, hBody, hC => by
    obtain ⟨hHead, hRest⟩ := Frame.covers_append.mp hC
    have hSplit : before ++ s :: ss = before ++ [s] ++ ss := by simp
    have hLines := leads_lines (before ++ [s]) ss (hSplit ▸ hBody) hRest
    have hStatement := leads_standalone hBody (meets_statement s (Completion.le_refl _) hHead)
    rw [hSplit]
    unfold lines
    split
    · exact Leads.bind ((Leads.pure _).mono (linesCompletion_append before [s] ▸ Completion.le_either_left _ _)) hLines
    · exact hStatement.bind hLines

theorem yields_blocks {F : Completion} {p : Place} :
    (bs : List Block) → f.Covers (blocksBodies bs) (blocksUses f.env p bs) → Yields f p F (· ≤ blocksCompletion bs) (blocks bs)
  | [], _ => .pure (Completion.le_refl _)
  | b :: bs, hC => by
    obtain ⟨hHead, hRest⟩ := Frame.covers_append.mp hC
    refine Yields.bind (yields_block b hHead) fun c hc => ?_
    refine Yields.bind (yields_blocks bs hRest) fun d hd => ?_
    exact .pure (Completion.both_le_both hc hd)

theorem yields_optionBlock {F : Completion} {p : Place} :
    (b : Option Block) → f.Covers (optionBlockBodies b) (optionBlockUses f.env p b) →
      Yields f p F (· ≤ optionBlockCompletion b) (optionBlock b)
  | none, _ => .pure (Completion.le_refl _)
  | some b, hC => yields_block b hC

theorem meets_conditions {F : Completion} {p : Place} :
    (ss : List Statement) → linesCompletion ss ≤ F → f.Covers (linesBodies ss) (linesUses f.env p ss) →
      Meets f p F (conditions ss)
  | [], _, _ => .pure _
  | s :: ss, hF, hC => by
    have hHead := meets_statement s (Completion.either_le_iff.mp hF).1 (Frame.covers_append.mp hC).1
    have hRest := meets_conditions ss (Completion.either_le_iff.mp hF).2 (Frame.covers_append.mp hC).2
    unfold conditions
    grind

theorem meets_switchCases {F : Completion} {p : Place} (object : Option Nat) :
    (ss : List Statement) → linesCompletion ss ≤ F →
      f.Covers (linesBodies ss) (casesUses f.env p ss) → Meets f p F (switchCases object ss)
  | [], _, _ => .pure _
  | s :: ss, hF, hC => by
    obtain ⟨hF, hF'⟩ := Completion.either_le_iff.mp hF
    obtain ⟨hHead, hRest⟩ := Frame.covers_append.mp hC
    have hRest := meets_switchCases object ss hF' hRest
    unfold switchCases
    cases hCase : s.caseName? with
    | some name =>
      rw [hCase] at hHead
      exact (meets_noteCase (hHead.2 List.mem_cons_self)).bind fun _ => hRest
    | none =>
      rw [hCase] at hHead
      exact (meets_statement s hF hHead).attempt.bind fun _ => hRest

theorem yields_switchBlocks {F : Completion} {p : Place} :
    (bs : List Block) → f.Covers (blocksBodies bs) (blocksUses f.env p bs) →
      Yields f p F (fun leaves => leaves = true → casesLeave bs = true) (switchBlocks bs)
  | [], _ => .pure fun _ => rfl
  | b :: bs, hC => by
    obtain ⟨hHead, hRest⟩ := Frame.covers_append.mp hC
    refine Yields.bind (yields_block b hHead) fun c hc => ?_
    refine Yields.bind (yields_switchBlocks bs hRest) fun leaves hLeaves => ?_
    refine .pure fun h => ?_
    simp only [casesLeave, Bool.and_eq_true, Bool.or_eq_true] at h ⊢
    exact ⟨h.1.imp_right hc.2, hLeaves h.2⟩

theorem yields_defaultBlock {F : Completion} {p : Place} :
    (b : Option Block) → f.Covers (optionBlockBodies b) (optionBlockUses f.env p b) →
      Yields f p F (fun leaves => leaves = true → (optionBlockCompletion b).leavesMethod = true)
        (defaultBlock b)
  | none, _ => .pure nofun
  | some b, hC => by
    refine Yields.bind (yields_block b hC) fun c hc => ?_
    exact .pure fun h => hc.2 (Bool.and_eq_true_iff.mp h).1

theorem yields_catchBlocks {F : Completion} {p : Place} (names : List Reference) :
    (bs : List Block) → f.Covers (blocksBodies bs) (blocksUses f.env p bs) →
      Yields f p F (· ≤ blocksCompletion bs) (catchBlocks names bs)
  | [], _ => .pure (Completion.le_refl _)
  | b :: bs, hC => by
    obtain ⟨hHead, hRest⟩ := Frame.covers_append.mp hC
    have hBlock := Yields.bind (plain_declareException names.head?).meets fun _ _ =>
      yields_block (F := F) b hHead
    refine Yields.bind hBlock.withScope fun c hc => ?_
    refine Yields.bind (yields_catchBlocks names.tail bs hRest) fun d hd => ?_
    exact .pure (Completion.both_le_both hc hd)

theorem meets_instantiation {F : Completion} {p : Place} :
    (i : Instantiation) → (Node.instantiation i).completion ≤ F →
      f.Covers (Node.instantiation i).bodies ((Node.instantiation i).uses f.env p) →
      Meets f p F (instantiation i)
  | ⟨type, arguments, size, literal, body, token⟩, hF, hC => by
    obtain ⟨hF, hLiteral⟩ := Completion.either_le_iff.mp hF
    obtain ⟨hArguments, hSize⟩ := Completion.either_le_iff.mp hF
    simp only [Node.bodies, Node.uses, Frame.covers_append] at hC
    obtain ⟨⟨⟨hArguments', hSize'⟩, hLiteral'⟩, hBody⟩ := hC
    unfold instantiation
    refine .bind_typeOf ?_
    match size, literal with
    | some size, _ =>
      have hSize := meets_statement size hSize hSize'
      grind
    | none, some ⟨_, _, items, _⟩ =>
      have hItems (element : Constraint) := meets_elementsOf element items hLiteral hLiteral'
      grind
    | none, none =>
      refine (meets_statements arguments hArguments hArguments').bind fun arguments => ?_
      cases hObject : (f.env.typeAt p type).definition.object? with
      | none =>
        rw [hObject] at hBody
        exact (meets_optionBody none type.name body hBody).bind fun _ => .pure _
      | some id =>
        rw [hObject] at hBody
        refine (plain_construct arguments token id _).meets.bind fun _ => ?_
        refine (plain_objectName id).meets.bind fun name => ?_
        exact (meets_optionBody (some id) name body hBody).bind fun _ => .pure _

theorem meets_optionBody {F : Completion} {p : Place} (base : Option Nat) (name : String) :
    (b : Option ObjectBody) → f.Covers (objectBodies b) (objectUses f.env (p.visitingOption base) b) →
      Meets f p F (optionBody base name b)
  | none, _ => .pure _
  | some ⟨_, ms, initializerBlocks, _⟩, hC => by
    obtain ⟨hMembers, hInitializers⟩ := Frame.covers_append.mp hC
    refine Yields.visitingOption ?_
    exact (meets_members _ ms hMembers).bind fun _ =>
      meets_initializers false initializerBlocks hInitializers

theorem meets_classBody {F : Completion} {p : Place} :
    (c : ClassDecl) → (id : Nat) → f.Covers c.bodies (classUses f.env p c) →
      Meets f p F (classBody c id)
  | ⟨modifiers, name, typeParameters, extended, implemented, constructors, ms,
      instanceInitializers, staticInitializers, _, _, token⟩, id, hC => by
    simp only [ClassDecl.bodies, classUses, Frame.covers_append] at hC
    obtain ⟨⟨⟨hConstructors, hMembers⟩, hInstance⟩, hStatic⟩ := hC
    have hRest (owner : Owner) := (meets_methods (F := F) owner constructors hConstructors).bind
      fun _ => (meets_members owner ms hMembers).bind fun _ =>
        (meets_initializers false instanceInitializers hInstance).bind fun _ =>
          meets_initializers true staticInitializers hStatic
    unfold classBody
    refine (plain_checkSupertypes name extended implemented).meets.bind fun _ => ?_
    split
    · exact hRest _
    · exact (plain_checkImplemented name token id).meets.bind fun _ => hRest _

theorem meets_interfaceDecl {F : Completion} {p : Place} :
    (i : InterfaceDecl) → f.Covers i.bodies (i.uses f.env p) → Meets f p F (interfaceDecl i)
  | ⟨_, name, typeParameters, _, ms, _, _⟩, ⟨hC, hU⟩ => by
    unfold interfaceDecl
    refine .bind_declaredObject? ?_
    unfold InterfaceDecl.uses at hU
    cases hObject : f.env.objectAt? p name with
    | none => exact .pure _
    | some id =>
      simp only [hObject] at hU
      exact Yields.withinObject (meets_members ⟨name, true, true⟩ ms ⟨hC, hU⟩)

theorem meets_members {F : Completion} {p : Place} (owner : Owner) :
    (ms : List Member) → f.Covers (membersBodies ms) (membersUses f.env p ms) → Meets f p F (members owner ms)
  | [], _ => .pure _
  | m :: ms, hC => (meets_member owner m (Frame.covers_append.mp hC).1).bind fun _ =>
    meets_members owner ms (Frame.covers_append.mp hC).2

theorem meets_member {F : Completion} {p : Place} (owner : Owner) :
    (m : Member) → f.Covers m.bodies (m.uses f.env p) → Meets f p F (member owner m)
  | .field f, hC => (meets_field owner f hC).attempt
  | .method m, hC => meets_method owner m hC
  | .classDecl c, hC => Meets.classDecl hC fun id => meets_classBody c id
  | .interfaceDecl i, hC => meets_interfaceDecl i hC

theorem meets_methods {F : Completion} {p : Place} (owner : Owner) :
    (ms : List Method) → f.Covers (methodsBodies ms) (methodsUses f.env p ms) → Meets f p F (methods owner ms)
  | [], _ => .pure _
  | m :: ms, hC => (meets_method owner m (Frame.covers_append.mp hC).1).bind fun _ =>
    meets_methods owner ms (Frame.covers_append.mp hC).2

theorem meets_method {F : Completion} {p : Place} (owner : Owner) :
    (m : Method) → f.Covers m.bodies (m.uses f.env p) → Meets f p F (method owner m)
  | ⟨modifiers, typeParameters, type, name, parameters, throws, body, annotations, isConstructor,
      token⟩, hC => by
    unfold method
    refine (plain_checkHeader owner _).meets.bind fun _ => ?_
    match body with
    | none => exact .pure _
    | some b => exact Meets.methodBody (yields_block (F := F) b hC).meets

theorem meets_field {F : Completion} {p : Place} (owner : Owner) :
    (item : Field) → f.Covers item.bodies (item.uses f.env p) → Meets f p F (field owner item)
  | ⟨modifiers, type, name, value, annotations, token⟩, hC => by
    unfold field
    refine (plain_checkAbstractField owner _).meets.bind fun _ => ?_
    match value with
    | none => exact .pure _
    | some s => exact Meets.fieldValue (meets_statement s (Completion.le_refl _) hC)

theorem meets_initializers {F : Completion} {p : Place} (isStatic : Bool) :
    (bs : List Block) → f.Covers (blocksBodies bs) (blocksUses f.env p bs) → Meets f p F (initializers isStatic bs)
  | [], _ => .pure _
  | b :: bs, hC => by
    have hBlock := (yields_block (F := F) b (Frame.covers_append.mp hC).1).meets
    exact (Meets.initializer hBlock).bind fun _ =>
      meets_initializers isStatic bs (Frame.covers_append.mp hC).2

end

theorem meets_classDecl {F : Completion} {p : Place} (c : ClassDecl)
    (hC : f.Covers c.bodies (c.uses f.env p)) : Meets f p F (classDecl c) :=
  Meets.classDecl hC fun id => meets_classBody c id

end Check

end Javascribe
