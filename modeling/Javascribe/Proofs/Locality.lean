/-
# Problems stay in their declaration

The parts of a class, which are its constructors, members and initializers,
are checked one after the other in one context. None of them halts, each
leaves the context as it was but for what it finds, and what it finds does
not depend on what was found before. So checking the class finds what its
parts find alone, one behind the other, whatever is wrong in any of them
(`Check.findings_of_parts`).

A field with a value may declare names that the next part sees, so fields
have none here. The members of types inside the class may have values: these
types have a scope of their own.

Key definitions: `Checker.findings`, `Checker.OnlyFinds`, `Checker.StandsAlone`,
`Check.parts`.
Key theorems: `Checker.OnlyFinds.standsAlone`, `Checker.inOrder_of_standsAlone`,
`Check.findings_of_parts`.
-/
import Javascribe.Proofs.CheckRenaming
import Javascribe.Proofs.DictionaryOrder
import Javascribe.Proofs.MethodFlow

namespace Javascribe

open Javascribe.Tree

/-! ### Checks that only find something -/

theorem Context.rename_refl (context : Context) : rename .refl context = context := by
  have locals (declared : Local) : rename .refl declared = declared :=
    Local.ext rfl (LawfulRenamable.rename_refl _) rfl
  have level (table : Table String Local) : rename .refl table = table := by
    refine congrArg Table.mk (List.map_id'' ?_ table.entries)
    exact fun entry => congrArg (entry.1, ·) (locals entry.2)
  have levels : rename .refl context.scopes.levels = context.scopes.levels :=
    (rename_list _ _).trans (List.map_id'' level _)
  show { context with
    scopes := ⟨rename .refl context.scopes.levels⟩
    objects := rename .refl context.objects
    expected := rename .refl context.expected } = context
  rw [levels, LawfulRenamable.rename_refl, LawfulRenamable.rename_refl]

namespace Checker

variable {α β : Type}

/-- What a check finds in a context where nothing has been found yet. -/
def findings (m : Checker α) (env : Environment) (context : Context) : CheckedFile :=
  match m env (context.withFound .nothing) with
  | .ok _ after | .error _ after => after.found

/-- The check ends and changes nothing but what has been found. -/
def OnlyFinds (m : Checker α) : Prop :=
  ∀ env context, ∃ a found, m env context = .ok a (context.withFound found)

/-- The check ends and adds its findings to any context, whatever has been found
there. -/
def StandsAlone (m : Checker Unit) : Prop :=
  ∀ env context, m env context = .ok () (context.add (m.findings env context))

theorem OnlyFinds.standsAlone {m : Checker Unit} (h : OnlyFinds m) (mirrors : Mirrors .refl m m) :
    StandsAlone m := by
  intro env context
  obtain ⟨⟨⟩, found, run⟩ := h env (context.withFound .nothing)
  have findings_eq : m.findings env context = found := by
    rw [findings, run]
    rfl
  have start : (context.withFound .nothing).shift (.behind context.found) = context := by
    show context.withFound (context.found ++ .nothing) = context
    rw [CheckedFile.append_nothing]
    rfl
  have shifted := mirrors env env ⟨(Dictionary.Permutes.refl env.dictionary).toRenames, rfl⟩
    (.behind context.found) (context.withFound .nothing)
  rw [Context.rename_refl, start, run] at shifted
  rw [shifted, findings_eq]
  exact congrArg (fun after => EStateM.Result.ok () (after.shift (.behind context.found)))
    (Context.rename_refl _)

/-- Checks one after the other. -/
def inOrder : List (Checker Unit) → Checker Unit
  | [] => pure ()
  | part :: parts => do
    part
    inOrder parts

/-- Checks that stand alone find the same one after the other. -/
theorem inOrder_of_standsAlone {parts : List (Checker Unit)} (h : ∀ part ∈ parts, StandsAlone part)
    (env : Environment) (context : Context) :
    inOrder parts env context =
      .ok () (context.add (.concat (parts.map fun part => part.findings env context))) := by
  induction parts generalizing context with
  | nil => exact congrArg (EStateM.Result.ok ()) context.add_nothing.symm
  | cons part parts ih =>
    have first := h part List.mem_cons_self env context
    rw [inOrder, bind_of_ok first, ih fun part mem => h part (List.mem_cons_of_mem _ mem),
      ← Context.add_append]
    rfl

theorem inOrder_append (first second : List (Checker Unit)) :
    inOrder (first ++ second) = (do inOrder first; inOrder second) := by
  induction first with
  | nil => rfl
  | cons part parts ih => rw [List.cons_append, inOrder, inOrder, ih, bind_assoc]

/-! ### Parts that look into no block -/

@[grind ←]
theorem OnlyFinds.bind {m : Checker α} {f : α → Checker β} (hm : OnlyFinds m)
    (hf : ∀ a, OnlyFinds (f a)) : OnlyFinds (m >>= f) := by
  intro env context
  obtain ⟨a, found, run⟩ := hm env context
  rw [bind_of_ok run]
  exact hf a env (context.withFound found)

@[grind ←]
theorem OnlyFinds.pure (a : α) : OnlyFinds (pure a : Checker α) :=
  fun _ context => ⟨a, context.found, rfl⟩

@[grind ←]
theorem OnlyFinds.ask (question : Dictionary → α) : OnlyFinds (ask question) :=
  fun _ context => ⟨_, context.found, rfl⟩

@[grind ←]
theorem OnlyFinds.typeOf (type : TypeRef) : OnlyFinds (typeOf type) :=
  fun _ context => ⟨_, context.found, rfl⟩

@[grind ←]
theorem OnlyFinds.typeName (constraint : Constraint) : OnlyFinds (typeName constraint) :=
  fun _ context => ⟨_, context.found, rfl⟩

@[grind ←]
theorem OnlyFinds.report (token : Nat) (code : Code) (arguments : List String) :
    OnlyFinds (report token code arguments) :=
  fun env context => ⟨(), context.found.note (.problem (env.diagnostic ⟨token, code, arguments⟩)), rfl⟩

@[grind ←]
theorem OnlyFinds.check (condition : Bool) (token : Nat) (code : Code) (arguments : List String) :
    OnlyFinds (check condition token code arguments) := by
  unfold Checker.check
  grind

theorem OnlyFinds.forM {xs : List α} {f : α → Checker PUnit} (hf : ∀ x, OnlyFinds (f x)) :
    OnlyFinds (xs.forM f) := by
  induction xs with
  | nil => exact .pure _
  | cons x xs ih => exact (hf x).bind fun _ => ih

theorem OnlyFinds.mapM {xs : List α} {f : α → Checker β} (hf : ∀ x, OnlyFinds (f x)) :
    OnlyFinds (xs.mapM f) := by
  induction xs with
  | nil => exact .pure _
  | cons x xs ih =>
    rw [List.mapM_cons]
    exact (hf x).bind fun y => ih.bind fun ys => .pure (y :: ys)

theorem onlyFinds_parameter (declared : Variable) : OnlyFinds (parameter declared) :=
  fun _ context => ⟨_, context.found, rfl⟩

theorem OnlyFinds.attempt {m : Checker α} (h : OnlyFinds m) : OnlyFinds (attempt m) := by
  intro env context
  obtain ⟨a, found, run⟩ := h env context
  have recovered : recover m env context = .ok (some a) (context.withFound found) := by
    rw [recover, run]
  rw [Checker.attempt, discard_eq, bind_of_ok recovered]
  exact ⟨_, found, rfl⟩

theorem OnlyFinds.completes {m : Checker α} (h : OnlyFinds m) : Completes m := by
  intro env context
  obtain ⟨a, found, run⟩ := h env context
  exact ⟨a, _, run⟩

theorem onlyFinds_checkHeader (owner : Owner) (method : Method) :
    OnlyFinds (checkHeader owner method) := by
  unfold checkHeader
  grind

theorem onlyFinds_checkConstructorReturns (block : Block) :
    OnlyFinds (checkConstructorReturns block) :=
  .forM fun s => by grind

theorem onlyFinds_resultType (method : Method) : OnlyFinds (resultType method) := by
  unfold resultType
  grind

theorem onlyFinds_checkAbstractField (owner : Owner) (field : Field) :
    OnlyFinds (checkAbstractField owner field) := by
  unfold checkAbstractField
  grind

theorem onlyFinds_checkSupertypes (name : String) (extended implemented : List TypeRef) :
    OnlyFinds (checkSupertypes name extended implemented) := by
  have parents (type : TypeRef) : OnlyFinds (checkExtended name type) := by
    unfold checkExtended
    grind
  have interfaces (type : TypeRef) : OnlyFinds (checkInterface name type) := by
    unfold checkInterface
    grind
  exact (OnlyFinds.forM parents).bind fun _ => .forM interfaces

theorem onlyFinds_checkImplemented (name : String) (token id : Nat) :
    OnlyFinds (checkImplemented name token id) := by
  have declared (member : ObjectMember) : OnlyFinds (declaredName member) := by
    unfold declaredName
    grind
  have owner (id : Nat) : OnlyFinds (objectName id) := .ask _
  exact (OnlyFinds.ask _).bind fun _ => .forM fun _ => by grind

/-! ### Parts that enter and leave -/

theorem OnlyFinds.withGenerics {m : Checker α} (h : OnlyFinds m) (names : List String) :
    OnlyFinds (withGenerics names m) := by
  intro env context
  obtain ⟨a, found, run⟩ := h env { context with generics := context.generics ++ names }
  refine ⟨a, found, ?_⟩
  rw [Checker.withGenerics, bracket, run]
  show EStateM.Result.ok a { context.withFound found with
    generics := (context.generics ++ names).take context.generics.length } = _
  rw [List.take_left]
  rfl

end Checker

/-- The context inside the declaration of an object. -/
def Context.within (context : Context) (id : Nat) (name : String) (typeParameters : List String) :
    Context :=
  { context with
    generics := context.generics ++ typeParameters
    enclosing := context.enclosing ++ [name]
    objects := id :: context.objects
    scopes := context.scopes.enter }

theorem Context.leave_within (context : Context) (name : String) (typeParameters : List String) :
    { context with
      enclosing := (context.enclosing ++ [name]).dropLast
      generics := (context.generics ++ typeParameters).take context.generics.length } = context := by
  rw [List.dropLast_concat, List.take_left]

/-- Flags with nothing more noted are the same. -/
theorem Flags.Adds.eq {before after : Flags} (h : Adds .normal before after) : after = before := by
  obtain ⟨⟨leavesBlock, leavesMethod⟩, le, rfl⟩ := h
  have none : Completion.mk leavesBlock leavesMethod = .normal := by
    cases leavesBlock <;> cases leavesMethod
    · rfl
    · exact nomatch le.2 rfl
    · exact nomatch le.1 rfl
    · exact nomatch le.1 rfl
  rw [none, Completion.either_normal]

/-- When a scope is left, the scopes are those in which it was entered. -/
theorem Context.Grows.exit {f : Frame} {before after : Context} (h : before.Grows f after)
    {scopes : Scopes} (entered : before.scopes = scopes.enter) :
    { after with scopes := after.scopes.exit } =
      { before.withFound after.found with scopes := scopes, flags := after.flags } := by
  have left : after.scopes.exit = scopes := Scopes.Declares.exit (entered ▸ h.scopes)
  rw [left, h.objects, h.expected, h.enclosing, h.generics]
  rfl

namespace Checker

variable {α : Type} {m : Checker α}

theorem bracket_of_ok {enter : Context → Context} {leave : Context → Context → Context}
    {env : Environment} {context after : Context} {a : α} (h : m env (enter context) = .ok a after) :
    bracket enter leave m env context = .ok a (leave context after) := by
  rw [bracket, h]

theorem onlyFinds_expecting (completes : Completes m)
    (meets : ∀ env p, ∃ C U F, Meets ⟨env, C, U⟩ p F m) (change : Flags → Flags) (result : Constraint) :
    OnlyFinds (withFlags change (expecting result (withScope m))) := by
  intro env context
  let entered : Context :=
    { context with
      flags := change context.flags
      expected := result :: context.expected
      scopes := context.scopes.enter }
  obtain ⟨a, after, run⟩ := completes env entered
  obtain ⟨C, U, F, meets⟩ := meets env entered.place
  have grows := meets entered rfl
  simp only [run] at grows
  refine ⟨a, after.found, (bracket_of_ok (bracket_of_ok (bracket_of_ok run))).trans ?_⟩
  show EStateM.Result.ok a { { after with scopes := after.scopes.exit } with
    expected := after.expected.tail, flags := context.flags } = _
  rw [grows.1.exit rfl, grows.1.expected]
  rfl

/-- Inside the declaration of an object nothing is different but for what is
found there. -/
theorem withinObject_of_ok {m : Checker Unit} {env : Environment} {context : Context} {id : Nat}
    {name : String} {typeParameters : List String} {found : CheckedFile}
    (h : m env (context.within id name typeParameters) =
      .ok () ((context.within id name typeParameters).add found)) :
    withinObject id name typeParameters m env context = .ok () (context.add found) := by
  unfold withinObject withGenerics visiting withScope
  rw [bracket_of_ok (bracket_of_ok (bracket_of_ok (bracket_of_ok h)))]
  exact congrArg (EStateM.Result.ok ()) ((context.add found).leave_within name typeParameters)

theorem onlyFinds_withinObject (completes : Completes m)
    (meets : ∀ env p, ∃ C U, Meets ⟨env, C, U⟩ p .normal m) (id : Nat) (name : String)
    (typeParameters : List String) :
    OnlyFinds (withinObject id name typeParameters m) := by
  intro env context
  obtain ⟨a, after, run⟩ := completes env (context.within id name typeParameters)
  obtain ⟨C, U, meets⟩ := meets env (context.within id name typeParameters).place
  have grows := meets (context.within id name typeParameters) rfl
  simp only [run] at grows
  refine ⟨a, after.found, ?_⟩
  unfold withinObject withGenerics visiting withScope
  rw [bracket_of_ok (bracket_of_ok (bracket_of_ok (bracket_of_ok run)))]
  show EStateM.Result.ok a { { after with scopes := after.scopes.exit } with
    objects := after.objects.tail
    enclosing := after.enclosing.dropLast
    generics := after.generics.take context.generics.length } = _
  rw [grows.1.exit rfl, grows.1.objects, grows.1.enclosing, grows.1.generics, grows.2.1.eq]
  exact congrArg (EStateM.Result.ok a) ((context.withFound after.found).leave_within name typeParameters)

end Checker

namespace Check

open Javascribe.Checker

theorem onlyFinds_block (b : Block) : OnlyFinds (block b) := by
  obtain ⟨ss, token⟩ := b
  intro env context
  let entered : Context :=
    { context with flags := context.flags.enterBlock, scopes := context.scopes.enter }
  obtain ⟨⟨⟩, after, run⟩ := completes_lines ss env entered
  have grows := leads_lines (f := ⟨env, ss :: linesBodies ss, linesUses env context.place ss⟩) [] ss
    List.mem_cons_self ⟨List.subset_cons_self ss _, List.Subset.refl _⟩ entered rfl
    (Completion.le_refl .normal)
  simp only [run] at grows
  refine ⟨after.flags.completion, after.found, ?_⟩
  show inBlock (lines ss) env context = _
  rw [inBlock_eq, run]
  show EStateM.Result.ok _ { { after with scopes := after.scopes.exit } with
    flags := context.flags } = _
  rw [grows.1.exit rfl]
  rfl

theorem onlyFinds_method (owner : Owner) (m : Method) : OnlyFinds (method owner m) := by
  cases declared : m.block with
  | none =>
    obtain ⟨_, _, _, _, _, _, body, _, _, _⟩ := m
    cases declared
    exact (onlyFinds_checkHeader owner _).bind fun _ => .pure _
  | some b =>
    have body (locals : List Local) (result : Constraint) :
        OnlyFinds (withFlags (fun _ => methodFlags m) <| expecting result <| withScope do
          locals.forM declare
          block b) :=
      onlyFinds_expecting ((Completes.forM .declare).bind fun _ => completes_block b)
        (fun env p => ⟨_, b.uses env p, .normal,
          (Plain.forM Plain.declare).meets.bind fun _ =>
            (yields_block b (Frame.covers_self _ _ _)).meets⟩) _ _
    have rest (result : Constraint) : OnlyFinds (methodRest m b (block b) result) := by
      have run : OnlyFinds (do
          let locals ← m.parameters.mapM parameter
          let completion ← withFlags (fun _ => methodFlags m) <| expecting result <| withScope do
            locals.forM declare
            block b
          return (result, completion)) := by
        refine (OnlyFinds.mapM onlyFinds_parameter).bind fun locals => ?_
        exact (body locals result).bind fun _ => .pure _
      unfold methodRest
      split
      · exact (onlyFinds_checkConstructorReturns b).bind fun _ => run
      · exact run
    rw [method_of_block declared, methodBody_eq]
    refine (onlyFinds_checkHeader owner m).bind fun _ => ?_
    refine (((onlyFinds_resultType m).bind rest).withGenerics _).bind fun (result, completion) => ?_
    grind

theorem onlyFinds_initializer (isStatic : Bool) (b : Block) :
    OnlyFinds (initializer isStatic (block b)) := by
  intro env context
  obtain ⟨a, found, run⟩ := onlyFinds_block b env { context with flags := { allowsInstance := !isStatic } }
  rw [initializer, discard_eq, withFlags, bind_of_ok (bracket_of_ok run)]
  exact ⟨_, found, rfl⟩

/-! ### Types inside types -/

theorem completes_methods (owner : Owner) (ms : List Method) : Completes (methods owner ms) := by
  induction ms with
  | nil => exact .pure _
  | cons m ms ih => exact (completes_method owner m).bind fun _ => ih

theorem completes_initializers (isStatic : Bool) (bs : List Block) :
    Completes (initializers isStatic bs) := by
  induction bs with
  | nil => exact .pure _
  | cons b bs ih => exact (onlyFinds_initializer isStatic b).completes.bind fun _ => ih

theorem completes_declaredObject? (name : String) : Completes (declaredObject? name) :=
  fun _ _ => ⟨_, _, rfl⟩

mutual

theorem completes_classBody : (c : ClassDecl) → (id : Nat) → Completes (classBody c id)
  | ⟨modifiers, name, typeParameters, extended, implemented, constructors, ms,
      instanceInitializers, staticInitializers, _, _, token⟩, id => by
    have rest (owner : Owner) := (completes_methods owner constructors).bind fun _ =>
      (completes_members owner ms).bind fun _ =>
        (completes_initializers false instanceInitializers).bind fun _ =>
          completes_initializers true staticInitializers
    unfold classBody
    refine (onlyFinds_checkSupertypes name extended implemented).completes.bind fun _ => ?_
    split
    · exact rest _
    · exact (onlyFinds_checkImplemented name token id).completes.bind fun _ => rest _

theorem completes_members (owner : Owner) : (ms : List Member) → Completes (members owner ms)
  | [] => .pure _
  | m :: ms => (completes_member owner m).bind fun _ => completes_members owner ms

theorem completes_member (owner : Owner) : (m : Member) → Completes (member owner m)
  | .field _ => .attempt _
  | .method m => completes_method owner m
  | .classDecl c => by
    have inside := completes_classBody c
    rw [member, classDecl_eq]
    refine (completes_declaredObject? c.name).bind fun object => ?_
    cases object with
    | none => exact .pure _
    | some id => exact .bracket (.bracket (.bracket (.bracket (inside id))))
  | .interfaceDecl ⟨_, name, typeParameters, _, ms, _, _⟩ => by
    have inside := completes_members ⟨name, true, true⟩ ms
    rw [member, interfaceDecl]
    refine (completes_declaredObject? name).bind fun object => ?_
    cases object with
    | none => exact .pure _
    | some id => exact .bracket (.bracket (.bracket (.bracket inside)))

end

theorem onlyFinds_declaredObject? (name : String) : OnlyFinds (declaredObject? name) :=
  fun _ context => ⟨_, context.found, rfl⟩

theorem onlyFinds_classDecl (c : ClassDecl) : OnlyFinds (classDecl c) := by
  rw [classDecl_eq]
  refine (onlyFinds_declaredObject? c.name).bind fun object => ?_
  cases object with
  | none => exact .pure _
  | some id =>
    exact onlyFinds_withinObject (completes_classBody c id) (fun env p =>
      ⟨_, classUses env p c, meets_classBody c id (Frame.covers_self _ _ _)⟩) id c.name c.typeParameters

theorem onlyFinds_interfaceDecl (i : InterfaceDecl) : OnlyFinds (interfaceDecl i) := by
  obtain ⟨_, name, typeParameters, _, ms, _, _⟩ := i
  rw [interfaceDecl]
  refine (onlyFinds_declaredObject? name).bind fun object => ?_
  cases object with
  | none => exact .pure _
  | some id =>
    exact onlyFinds_withinObject (completes_members _ ms) (fun env p =>
      ⟨_, membersUses env p ms, meets_members _ ms (Frame.covers_self _ _ _)⟩) id name typeParameters

theorem onlyFinds_member (owner : Owner) (m : Member)
    (bare : ∀ f, m = .field f → f.value = none) : OnlyFinds (member owner m) := by
  cases m with
  | field f =>
    obtain ⟨_, _, _, value, _, _⟩ := f
    cases bare _ rfl
    rw [member, field]
    exact ((onlyFinds_checkAbstractField owner _).bind fun _ => .pure _).attempt
  | method m =>
    rw [member]
    exact onlyFinds_method owner m
  | classDecl c =>
    rw [member]
    exact onlyFinds_classDecl c
  | interfaceDecl i =>
    rw [member]
    exact onlyFinds_interfaceDecl i

/-! ### Classes -/

/-- The check of what a class is declared as. -/
def heading (c : ClassDecl) (id : Nat) : Checker Unit := do
  checkSupertypes c.name c.extended c.implemented
  unless c.modifiers.isAbstract do checkImplemented c.name c.token id

/-- The checks of the parts of a class, in order: its constructors, members and
initializers. -/
def parts (c : ClassDecl) : List (Checker Unit) :=
  let owner : Owner := ⟨c.name, c.modifiers.isAbstract, false⟩
  c.constructors.map (method owner) ++ c.members.map (member owner)
    ++ c.instanceInitializers.map (fun b => initializer false (block b))
    ++ c.staticInitializers.map (fun b => initializer true (block b))

theorem methods_eq_inOrder (owner : Owner) (ms : List Method) :
    methods owner ms = inOrder (ms.map (method owner)) := by
  induction ms with
  | nil => rfl
  | cons m ms ih => rw [methods, ih, List.map_cons, inOrder]

theorem members_eq_inOrder (owner : Owner) (ms : List Member) :
    members owner ms = inOrder (ms.map (member owner)) := by
  induction ms with
  | nil => rfl
  | cons m ms ih => rw [members, ih, List.map_cons, inOrder]

theorem initializers_eq_inOrder (isStatic : Bool) (bs : List Block) :
    initializers isStatic bs = inOrder (bs.map fun b => initializer isStatic (block b)) := by
  induction bs with
  | nil => rfl
  | cons b bs ih => rw [initializers, ih, List.map_cons, inOrder]

theorem classBody_eq (c : ClassDecl) (id : Nat) :
    classBody c id = (do heading c id; inOrder (parts c)) := by
  simp only [classBody, heading, parts, inOrder_append, methods_eq_inOrder, members_eq_inOrder,
    initializers_eq_inOrder, bind_assoc]
  cases c.modifiers.isAbstract <;> rfl

theorem standsAlone_of_mem_parts {c : ClassDecl}
    (bare : ∀ f, .field f ∈ c.members → f.value = none) {part : Checker Unit}
    (mem : part ∈ parts c) : StandsAlone part := by
  simp only [parts, List.mem_append, List.mem_map] at mem
  obtain ((⟨m, -, rfl⟩ | ⟨m, mem, rfl⟩) | ⟨b, -, rfl⟩) | ⟨b, -, rfl⟩ := mem
  · exact (onlyFinds_method _ m).standsAlone (mirrors_method _ m)
  · exact (onlyFinds_member _ m fun f equal => bare f (equal ▸ mem)).standsAlone (mirrors_member _ m)
  · exact (onlyFinds_initializer false b).standsAlone ((mirrors_block b).initializer false)
  · exact (onlyFinds_initializer true b).standsAlone ((mirrors_block b).initializer true)

theorem standsAlone_heading (c : ClassDecl) (id : Nat) : StandsAlone (heading c id) := by
  have finds : OnlyFinds (heading c id) := by
    unfold heading
    refine (onlyFinds_checkSupertypes _ _ _).bind fun _ => ?_
    split
    · exact .pure _
    · exact onlyFinds_checkImplemented _ _ _
  refine finds.standsAlone ((mirrors_checkSupertypes _ _ _).bind fun _ => .ite (.pure ()) ?_)
  exact mirrors_checkImplemented c.name c.token id

/-- **Problems stay in their declaration.** Where the fields of a class have no
values, each of its parts is checked to the end, alone and in any context, and
adds its findings to what has been found there. One after the other the parts
find what each of them finds alone, one behind the other, and so does the
check of the class, inside of its declaration and behind what it finds about
the supertypes. -/
theorem findings_of_parts (c : ClassDecl) (bare : ∀ f, .field f ∈ c.members → f.value = none)
    (env : Environment) (context : Context) :
    (∀ part ∈ parts c, part env context = .ok () (context.add (part.findings env context))) ∧
    inOrder (parts c) env context =
      .ok () (context.add (.concat ((parts c).map fun part => part.findings env context))) ∧
    classDecl c env context =
      match (env.dictionary.symbol? (env.space.identifier context.enclosing c.name)).bind
        (·.constraint.definition.object?) with
      | none => .ok () context
      | some id =>
        let inside := context.within id c.name c.typeParameters
        .ok () (context.add ((heading c id).findings env inside ++
          .concat ((parts c).map fun part => part.findings env inside))) := by
  have alone : ∀ part ∈ parts c, StandsAlone part := fun _ => standsAlone_of_mem_parts bare
  refine ⟨fun part mem => alone part mem env context, inOrder_of_standsAlone alone env context, ?_⟩
  rw [classDecl_eq]
  have looked : declaredObject? c.name env context =
      .ok ((env.dictionary.symbol? (env.space.identifier context.enclosing c.name)).bind
        (·.constraint.definition.object?)) context := rfl
  rw [bind_of_ok looked]
  split
  · next found =>
    rw [found]
    rfl
  · next id found =>
    rw [found]
    refine withinObject_of_ok ?_
    rw [classBody_eq, bind_of_ok (standsAlone_heading c id env _), inOrder_of_standsAlone alone,
      Context.add_append]
    rfl

/-- A field without a value and two methods, each with a call of something
unknown: both are reported, whichever is checked first. -/
theorem findings_of_parts_unknown :
    let unknown (name : String) (token : Nat) : Method :=
      ⟨{}, [], none, name, [], [], some ⟨[.ofNode (.call ⟨some "unknown", [], [], token⟩) token], token⟩, [],
        false, token⟩
    let c : ClassDecl :=
      ⟨{}, "A", [], [], [], [], [.field ⟨{}, .named "int" 1, "x", none, [], 1⟩, .method (unknown "f" 2),
        .method (unknown "g" 3)], [], [], [], false, 0⟩
    let env : Environment :=
      ⟨"A.java", .link [] 1 "", .empty, .new "A.java", [], false⟩
    (∀ f, .field f ∈ c.members → f.value = none) ∧
      inOrder (parts c) env {} =
        .ok () (Context.add {} (.concat ((parts c).map fun part => part.findings env {}))) ∧
      ((parts c).map fun part => (part.findings env {}).diagnostics.length) = [0, 1, 1] := by
  intro unknown c env
  have bare : ∀ f, .field f ∈ c.members → f.value = none := by
    intro f mem
    simp only [c, List.mem_cons, reduceCtorEq, List.not_mem_nil, or_false, Member.field.injEq] at mem
    rw [mem]
  exact ⟨bare, (findings_of_parts c bare env {}).2.1, by decide +kernel⟩

end Check
end Javascribe
