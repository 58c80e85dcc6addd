/-
# Renaming object types and functions

Object types and functions are known by their numbers, and the numbers come
from the order of the declarations. A renaming gives them other numbers.
Where one dictionary is another with its numbers renamed, everything that is
asked of the two gets the same answer, up to the same renaming: what a
reference means, what is inherited, what fits and what is called. Names in
messages are the same.

Key definitions: `Renaming`, `Renamable`, `Dictionary.Renames`.
Key theorems: `Dictionary.Renames.resolve`, `Dictionary.Renames.allSupertypes`,
`Dictionary.Renames.fits`, `Dictionary.Renames.method`.
-/
import Javascribe.Checking.Declaration
import Javascribe.Proofs.Matching
import Mathlib.Logic.Function.Basic

namespace Javascribe

/-- Other numbers for object types and functions. -/
structure Renaming where
  object : Nat → Nat
  function : Nat → Nat

/-- Things that mention object types and functions by number. A bare number is
the number of an object type. -/
class Renamable (α : Type) where
  /-- The same thing with other numbers. -/
  rename : Renaming → α → α

export Renamable (rename)

/-! ### What is renamed -/

section Instances

variable {α β κ : Type}

instance : Renamable Nat := ⟨Renaming.object⟩

instance : Renamable Bool := ⟨fun _ => id⟩

instance : Renamable String := ⟨fun _ => id⟩

instance : Renamable Unit := ⟨fun _ => id⟩

instance [Renamable α] : Renamable (Option α) := ⟨fun ρ => Option.map (rename ρ)⟩

instance [Renamable α] : Renamable (List α) := ⟨fun ρ => List.map (rename ρ)⟩

instance [Renamable α] [Renamable β] : Renamable (α × β) := ⟨fun ρ => Prod.map (rename ρ) (rename ρ)⟩

/-- Only the values of a table are renamed. -/
instance [Renamable α] : Renamable (Table κ α) :=
  ⟨fun ρ table => ⟨table.entries.map (Prod.map id (rename ρ))⟩⟩

/-- The definition with other numbers. -/
def Definition.rename (ρ : Renaming) : Definition → Definition
  | .object id => .object (ρ.object id)
  | .function id => .function (ρ.function id)
  | .array element ofDefinitions => .array (element.rename ρ) ofDefinitions
  | .simple type => .simple type
  | .unresolved candidates => .unresolved candidates

instance : Renamable Definition := ⟨Definition.rename⟩

instance : Renamable Constraint :=
  ⟨fun ρ constraint => { constraint with definition := rename ρ constraint.definition }⟩

instance : Renamable FunctionType :=
  ⟨fun ρ function =>
    { function with
      parameters := rename ρ function.parameters
      result := rename ρ function.result }⟩

instance : Renamable ObjectMember :=
  ⟨fun ρ member =>
    { member with
      constraint := rename ρ member.constraint
      parent := rename ρ member.parent }⟩

instance : Renamable ObjectType :=
  ⟨fun ρ object =>
    { object with
      constructors := object.constructors.map ρ.function
      supertypes := rename ρ object.supertypes
      members := rename ρ object.members }⟩

instance : Renamable Symbol :=
  ⟨fun ρ symbol => { symbol with constraint := rename ρ symbol.constraint }⟩

instance : Renamable MethodMatch :=
  ⟨fun ρ found =>
    { found with
      member := rename ρ found.member
      result := rename ρ found.result }⟩

instance : Renamable MethodLookup where
  rename ρ
    | .found method => .found (rename ρ method)
    | .invalidArguments => .invalidArguments
    | .notFunction member => .notFunction (rename ρ member)
    | .missing => .missing

end Instances

/-! ### Parts of what is renamed -/

section Parts

variable {α β κ : Type} [Renamable α] [Renamable β] (ρ : Renaming)

@[simp, grind =] theorem rename_nat (id : Nat) : rename ρ id = ρ.object id := rfl

@[simp, grind =] theorem rename_bool (b : Bool) : rename ρ b = b := rfl

@[simp, grind =] theorem rename_string (s : String) : rename ρ s = s := rfl

@[simp, grind =] theorem rename_none : rename ρ (none : Option α) = none := rfl

@[simp, grind =] theorem rename_some (a : α) : rename ρ (some a) = some (rename ρ a) := rfl

@[simp, grind =] theorem rename_nil : rename ρ ([] : List α) = [] := rfl

@[simp, grind =]
theorem rename_cons (a : α) (as : List α) : rename ρ (a :: as) = rename ρ a :: rename ρ as := rfl

@[simp, grind =]
theorem rename_pair (a : α) (b : β) : rename ρ (a, b) = (rename ρ a, rename ρ b) := rfl

theorem rename_list (as : List α) : rename ρ as = as.map (rename ρ) := rfl

@[simp]
theorem rename_strings (names : List String) : rename ρ names = names := List.map_id names

@[simp]
theorem find?_rename [BEq κ] (table : Table κ α) (key : κ) :
    (rename ρ table).find? key = rename ρ (table.find? key) := by
  obtain ⟨entries⟩ := table
  show (entries.map (Prod.map id (rename ρ))).lookup key = (entries.lookup key).map (rename ρ)
  induction entries with
  | nil => rfl
  | cons entry entries ih =>
    rw [List.map_cons, List.lookup_cons, List.lookup_cons]
    show (bif key == entry.1 then _ else _) = _
    cases h : key == entry.1 with
    | true => rfl
    | false => exact ih

@[simp]
theorem values_rename (table : Table κ α) : (rename ρ table).values = rename ρ table.values := by
  simp [Table.values, Renamable.rename, Function.comp_def]

/-- The first answer that the members of a list give. -/
theorem findSome?_rename {f f' : α → Option β} (answers : ∀ a, f' (rename ρ a) = rename ρ (f a))
    (as : List α) : (rename ρ as).findSome? f' = rename ρ (as.findSome? f) := by
  induction as with
  | nil => rfl
  | cons a as ih =>
    rw [rename_cons, List.findSome?_cons, List.findSome?_cons, answers]
    cases f a with
    | none => exact ih
    | some answer => rfl

end Parts

section Types

variable (ρ : Renaming)

@[simp, grind =]
theorem rename_simple (type : SimpleType) :
    rename ρ (Constraint.simple type) = .simple type := rfl

@[simp, grind =] theorem rename_dynamic : rename ρ Constraint.dynamic = .dynamic := rfl

@[simp, grind =]
theorem rename_object (id : Nat) : rename ρ (Constraint.object id) = .object (ρ.object id) := rfl

@[simp, grind =]
theorem rename_objectType (id : Nat) :
    rename ρ (Constraint.objectType id) = .objectType (ρ.object id) := rfl

@[simp, grind =]
theorem rename_function (id : Nat) :
    rename ρ (Constraint.function id) = .function (ρ.function id) := rfl

@[simp, grind =]
theorem rename_unresolved (candidates : List String) :
    rename ρ (Constraint.unresolved candidates) = .unresolved candidates := rfl

@[simp, grind =]
theorem rename_arrayOf (element : Constraint) :
    rename ρ (Constraint.arrayOf element) = .arrayOf (rename ρ element) := rfl

@[simp]
theorem rename_arrayWith (element : Constraint) (dimensions : Nat) :
    rename ρ (element.arrayWith dimensions) = (rename ρ element).arrayWith dimensions := by
  induction dimensions with
  | zero => rfl
  | succ dimensions ih => rw [Constraint.arrayWith, rename_arrayOf, ih, Constraint.arrayWith]

@[simp, grind =]
theorem definition_rename (constraint : Constraint) :
    (rename ρ constraint).definition = rename ρ constraint.definition := rfl

@[simp, grind =]
theorem isDefinition_rename (constraint : Constraint) :
    (rename ρ constraint).isDefinition = constraint.isDefinition := rfl

@[simp, grind =]
theorem object?_rename (definition : Definition) :
    (rename ρ definition).object? = rename ρ definition.object? := by
  cases definition <;> rfl

@[simp, grind =]
theorem function?_rename (definition : Definition) :
    (rename ρ definition).function? = definition.function?.map ρ.function := by
  cases definition <;> rfl

@[simp, grind =]
theorem element?_rename (definition : Definition) :
    (rename ρ definition).element? = rename ρ definition.element? := by
  cases definition <;> rfl

@[simp]
theorem nesting_rename (definition : Definition) :
    (rename ρ definition).nesting = definition.nesting := by
  induction definition with
  | array element _ ih => exact congrArg (· + 1) ih
  | _ => rfl

@[simp]
theorem rename_eq_simple_iff (definition : Definition) (type : SimpleType) :
    rename ρ definition = .simple type ↔ definition = .simple type := by
  cases definition <;> simp [Renamable.rename, Definition.rename]

@[simp, grind =]
theorem isSimple_rename (constraint : Constraint) (type : SimpleType) :
    (rename ρ constraint).isSimple type = constraint.isSimple type := by
  rw [Bool.eq_iff_iff]
  simp [Constraint.isSimple]

@[simp, grind =]
theorem isDynamic_rename (constraint : Constraint) :
    (rename ρ constraint).isDynamic = constraint.isDynamic := isSimple_rename ρ constraint .dynamic

@[simp]
theorem isFunction_rename (constraint : Constraint) :
    (rename ρ constraint).isFunction = constraint.isFunction := by
  simp [Constraint.isFunction]

@[simp]
theorem admitsNull_rename (definition : Definition) :
    (rename ρ definition).admitsNull = definition.admitsNull := by
  cases definition <;> rfl

/-- Types are written with names, which no renaming touches. -/
theorem rename_constraint (space : FileNamespace) (enclosing generics : List String)
    (type : TypeRef) :
    rename ρ (space.constraint enclosing generics type) =
      space.constraint enclosing generics type := by
  have native : rename ρ (Native.type? type.name) = Native.type? type.name := by
    unfold Native.type?
    repeat' split
    all_goals rfl
  unfold FileNamespace.constraint
  rw [rename_arrayWith]
  congr 1
  split
  · rfl
  · split
    · rfl
    · cases h : Native.type? type.name with
      | none => rfl
      | some constraint =>
        rw [h] at native
        exact Option.some.inj native

end Types

/-! ### Members -/

section Members

variable (ρ : Renaming) (object : ObjectType)

@[simp, grind =]
theorem isMethod_rename (member : ObjectMember) :
    (rename ρ member).isMethod = member.isMethod := isFunction_rename ρ member.constraint

@[simp]
theorem ownMember?_rename (name : String) :
    (rename ρ object).ownMember? name = rename ρ (object.ownMember? name) :=
  find?_rename ρ object.members name

@[simp]
theorem ownMembers_rename : (rename ρ object).ownMembers = rename ρ object.ownMembers :=
  values_rename ρ object.members

@[simp]
theorem overloads?_rename (name : String) :
    (rename ρ object).overloads? name = object.overloads? name := rfl

@[simp, grind =]
theorem hasConstructors_rename :
    (rename ρ object).hasConstructors = object.hasConstructors := by
  simp [ObjectType.hasConstructors, Renamable.rename]

end Members

theorem distinctMembers_rename (ρ : Renaming) (members : List (Nat × ObjectMember)) :
    distinctMembers (rename ρ members) = rename ρ (distinctMembers members) := by
  -- the members kept so far are the accumulator of the loop
  suffices ∀ kept : List (Nat × ObjectMember),
      List.eraseDupsBy.loop (fun a b => a.2.name == b.2.name) (rename ρ members) (rename ρ kept) =
        rename ρ (List.eraseDupsBy.loop (fun a b => a.2.name == b.2.name) members kept) from
    this []
  induction members with
  | nil => exact fun kept => List.map_reverse.symm
  | cons member members ih =>
    intro kept
    have known : (rename ρ kept).any (fun other => (rename ρ member).2.name == other.2.name) =
        kept.any (fun other => member.2.name == other.2.name) := List.any_map
    rw [rename_cons, List.eraseDupsBy.loop, List.eraseDupsBy.loop, known]
    split
    · exact ih kept
    · exact ih (member :: kept)

/-! ### Different things stay different -/

/-- Different numbers stay different. -/
structure Renaming.Injective (ρ : Renaming) : Prop where
  object : Function.Injective ρ.object
  function : Function.Injective ρ.function

section Injective

variable {ρ : Renaming} (inj : ρ.Injective)

include inj

theorem Renaming.Injective.rename_definition_iff (a b : Definition) :
    rename ρ a = rename ρ b ↔ a = b := by
  refine ⟨fun h => ?_, congrArg (rename ρ)⟩
  simp only [Renamable.rename] at h
  induction a generalizing b with
  | simple type => cases b <;> simp_all [Definition.rename]
  | object id => cases b <;> simp_all [Definition.rename, inj.object.eq_iff]
  | function id => cases b <;> simp_all [Definition.rename, inj.function.eq_iff]
  | unresolved candidates => cases b <;> simp_all [Definition.rename]
  | array element ofDefinitions ih =>
    cases b with
    | array other ofOther =>
      rw [Definition.rename, Definition.rename, Definition.array.injEq] at h
      rw [ih other h.1, h.2]
    | _ => simp [Definition.rename] at h

theorem Renaming.Injective.contains_rename (ids : List Nat) (id : Nat) :
    (rename ρ ids).contains (ρ.object id) = ids.contains id := by
  rw [Bool.eq_iff_iff]
  simp [rename_list, inj.object.eq_iff]

theorem Renaming.Injective.beq_rename (a b : Nat) : (ρ.object a == ρ.object b) = (a == b) := by
  rw [Bool.eq_iff_iff]
  simp [inj.object.eq_iff]

end Injective

/-! ### Dictionaries -/

namespace Dictionary

/-- The second dictionary is the first with its numbers renamed. Native object
types keep their numbers. -/
structure Renames (ρ : Renaming) (d d' : Dictionary) : Prop where
  injective : ρ.Injective
  native (type : SimpleType) (id : Nat) : Native.boxed? type = some id → ρ.object id = id
  object (id : Nat) : d'.object (ρ.object id) = rename ρ (d.object id)
  function (id : Nat) : d'.function (ρ.function id) = rename ρ (d.function id)
  symbol? (identifier : String) : d'.symbol? identifier = rename ρ (d.symbol? identifier)

namespace Renames

variable {ρ : Renaming} {d d' : Dictionary} (h : d.Renames ρ d')

include h

/-! #### References -/

theorem lookupFirst? (candidates : List String) :
    d'.lookupFirst? candidates = rename ρ (d.lookupFirst? candidates) := by
  have found := findSome?_rename ρ (fun candidate => h.symbol? candidate) candidates
  rwa [rename_strings] at found

theorem resolveCandidatesAt (depth : Nat) (candidates : List String) :
    d'.resolveCandidatesAt depth candidates = rename ρ (d.resolveCandidatesAt depth candidates) := by
  induction depth generalizing candidates with
  | zero => rfl
  | succ depth ih =>
    rw [Dictionary.resolveCandidatesAt, Dictionary.resolveCandidatesAt, h.lookupFirst?]
    cases d.lookupFirst? candidates with
    | none => rfl
    | some symbol =>
      obtain ⟨_, _, ⟨definition, _⟩⟩ := symbol
      cases definition with
      | unresolved next => exact ih next
      | _ => rfl

theorem resolve (constraint : Constraint) :
    d'.resolve (rename ρ constraint) = rename ρ (d.resolve constraint) := by
  obtain ⟨definition, isDefinition⟩ := constraint
  cases definition with
  | unresolved candidates =>
    show Constraint.mk (d'.resolveCandidatesAt _ candidates) isDefinition = _
    rw [h.resolveCandidatesAt]
    rfl
  | _ => rfl

/-! #### Inheritance -/

theorem directSupertypes (id : Nat) :
    d'.directSupertypes (ρ.object id) = rename ρ (d.directSupertypes id) := by
  rw [Dictionary.directSupertypes, h.object]
  show List.filterMap _ ((d.object id).supertypes.map (rename ρ)) = List.map _ (List.filterMap _ _)
  rw [List.filterMap_map, List.map_filterMap]
  congr 1
  funext supertype
  rw [Function.comp_apply, h.resolve, definition_rename, object?_rename]
  rfl

theorem freshIds (seen ids : List Nat) :
    Dictionary.freshIds (rename ρ seen) (rename ρ ids) = rename ρ (Dictionary.freshIds seen ids) := by
  -- the ids kept so far are the accumulator of the fold
  suffices ∀ fresh : List Nat,
      (rename ρ ids).foldl (fun fresh id =>
          if (rename ρ seen).contains id || fresh.contains id then fresh else fresh ++ [id])
        (rename ρ fresh) =
      rename ρ (ids.foldl (fun fresh id =>
          if seen.contains id || fresh.contains id then fresh else fresh ++ [id]) fresh) from
    this []
  induction ids with
  | nil => exact fun _ => rfl
  | cons id ids ih =>
    intro fresh
    rw [rename_cons, List.foldl_cons, List.foldl_cons, rename_nat, h.injective.contains_rename,
      h.injective.contains_rename]
    split
    · exact ih fresh
    · rw [← ih]
      simp [rename_list]

theorem supertypesAbove (levels : Nat) (seen last : List Nat) :
    d'.supertypesAbove levels (rename ρ seen) (rename ρ last) =
      rename ρ (d.supertypesAbove levels seen last) := by
  induction levels generalizing seen last with
  | zero => rfl
  | succ levels ih =>
    have next : (rename ρ last).flatMap d'.directSupertypes =
        rename ρ (last.flatMap d.directSupertypes) := by
      rw [rename_list, rename_list, List.flatMap_map, List.map_flatMap]
      simp only [rename_nat, h.directSupertypes]
      rfl
    rw [Dictionary.supertypesAbove, Dictionary.supertypesAbove, next, h.freshIds]
    simp only [rename_list, List.isEmpty_map, ← List.map_append]
    split
    · rfl
    · exact ih _ _

theorem allSupertypes (id : Nat) :
    d'.allSupertypes (ρ.object id) = rename ρ (d.allSupertypes id) := by
  have above := h.supertypesAbove maxSupertypeDepth [id] [id]
  rw [rename_cons, rename_nil, rename_nat] at above
  rw [Dictionary.allSupertypes, above, Dictionary.allSupertypes, rename_list, rename_list,
    List.map_tail]

theorem ancestry (id : Nat) : d'.ancestry (ρ.object id) = rename ρ (d.ancestry id) := by
  rw [Dictionary.ancestry, h.allSupertypes, Dictionary.ancestry, rename_cons, rename_nat]

theorem member? (id : Nat) (name : String) :
    d'.member? (ρ.object id) name = rename ρ (d.member? id name) := by
  rw [Dictionary.member?, h.ancestry]
  apply findSome?_rename
  intro ancestor
  rw [rename_nat, h.object, ownMember?_rename]

theorem overloads? (id : Nat) (name : String) :
    d'.overloads? (ρ.object id) name = d.overloads? id name := by
  rw [Dictionary.overloads?, h.ancestry, Dictionary.overloads?, rename_list, List.findSome?_map]
  congr 1
  funext ancestor
  rw [Function.comp_apply, rename_nat, h.object, overloads?_rename]

/-! #### Names -/

theorem functionNesting (id : Nat) :
    d'.functionNesting (ρ.function id) = d.functionNesting id := by
  have same (constraint : Constraint) :
      (rename ρ constraint).definition.nesting = constraint.definition.nesting :=
    nesting_rename ρ constraint.definition
  have parameters : (rename ρ (d.function id)).parameters.map (·.definition.nesting) =
      (d.function id).parameters.map (·.definition.nesting) := by
    show ((d.function id).parameters.map (rename ρ)).map _ = _
    rw [List.map_map]
    exact List.map_congr_left fun parameter _ => same parameter
  have result : (rename ρ (d.function id)).result.definition.nesting =
      (d.function id).result.definition.nesting := same _
  simp only [Dictionary.functionNesting, h.function, List.map_cons, parameters, result]

theorem typeDepth (definition : Definition) :
    d'.typeDepth (rename ρ definition) = d.typeDepth definition := by
  induction definition with
  | array element _ ih => exact congrArg (· + 1) ih
  | function id => exact congrArg (· + 2) (h.functionNesting id)
  | _ => rfl

theorem typeReach (constraint : Constraint) :
    d'.typeReach (rename ρ constraint) = d.typeReach constraint := by
  rw [Dictionary.typeReach, Dictionary.typeReach, definition_rename, h.typeDepth]

theorem typeName (constraint : Constraint) :
    d'.typeName (rename ρ constraint) = d.typeName constraint := by
  rw [Dictionary.typeName, Dictionary.typeName, h.typeReach]
  generalize d.typeReach constraint = depth
  induction depth generalizing constraint with
  | zero => rfl
  | succ depth ih =>
    rw [Dictionary.typeNameAt, Dictionary.typeNameAt, h.resolve, definition_rename]
    cases (d.resolve constraint).definition with
    | simple type => rfl
    | object id =>
      show (d'.object (ρ.object id)).name = (d.object id).name
      rw [h.object]
      rfl
    | array element ofDefinitions =>
      show d'.typeNameAt depth (rename ρ ⟨element, ofDefinitions⟩) ++ "[]" = _
      rw [ih]
    | function id =>
      have parameters : (rename ρ (d.function id).parameters).map (d'.typeNameAt depth) =
          (d.function id).parameters.map (d.typeNameAt depth) := by
        rw [rename_list, List.map_map]
        exact List.map_congr_left fun parameter _ => ih parameter
      simp only [Renamable.rename, Definition.rename] at parameters ih ⊢
      rw [h.function]
      simp only [Renamable.rename, parameters, ih]
    | unresolved candidates => rfl

/-! #### Matching -/

theorem isSubtypeOf (source target : Nat) :
    d'.isSubtypeOf (ρ.object source) (ρ.object target) = d.isSubtypeOf source target := by
  rw [Dictionary.isSubtypeOf, h.allSupertypes, h.injective.beq_rename,
    h.injective.contains_rename, Dictionary.isSubtypeOf]

omit h in
theorem allFitBy {matching matching' : Constraint → Constraint → Bool}
    (agree : ∀ a b, matching' (rename ρ a) (rename ρ b) = matching a b)
    (sources targets : List Constraint) :
    Dictionary.allFitBy matching' (rename ρ sources) (rename ρ targets) =
      Dictionary.allFitBy matching sources targets := by
  induction sources generalizing targets with
  | nil => cases targets <;> rfl
  | cons source sources ih =>
    cases targets with
    | nil => rfl
    | cons target targets =>
      rw [rename_cons, rename_cons, Dictionary.allFitBy, Dictionary.allFitBy, agree, ih]

theorem fitsResolved {matching matching' : Constraint → Constraint → Bool}
    (agree : ∀ a b, matching' (rename ρ a) (rename ρ b) = matching a b)
    (source target : Constraint) :
    d'.fitsResolved matching' (rename ρ source) (rename ρ target) =
      d.fitsResolved matching source target := by
  have same : (rename ρ source.definition == rename ρ target.definition) =
      (source.definition == target.definition) := by
    rw [Bool.eq_iff_iff]
    simp [h.injective.rename_definition_iff]
  obtain ⟨a, aIsDefinition⟩ := source
  obtain ⟨b, bIsDefinition⟩ := target
  have functions (f g : Nat) : d'.functionFitsBy matching' (ρ.function f) (ρ.function g) =
      d.functionFitsBy matching f g := by
    simp only [Dictionary.functionFitsBy, h.function]
    rw [← allFitBy agree, ← agree]
    rfl
  have arrays (x y : Definition) (i j : Bool) :
      matching' ⟨x.rename ρ, i⟩ ⟨y.rename ρ, j⟩ = matching ⟨x, i⟩ ⟨y, j⟩ := agree ⟨x, i⟩ ⟨y, j⟩
  unfold Dictionary.fitsResolved
  simp only [definition_rename, isDefinition_rename, isDynamic_rename, isSimple_rename,
    admitsNull_rename, same]
  congr 4
  cases a <;> cases b <;>
    simp only [Renamable.rename, Definition.rename, h.isSubtypeOf, functions, arrays]

theorem fitsAt (depth : Nat) (source target : Constraint) :
    d'.fitsAt depth (rename ρ source) (rename ρ target) = d.fitsAt depth source target := by
  induction depth generalizing source target with
  | zero => rfl
  | succ depth ih =>
    rw [Dictionary.fitsAt, Dictionary.fitsAt, h.resolve, h.resolve]
    exact h.fitsResolved ih _ _

theorem fits (source target : Constraint) :
    d'.fits (rename ρ source) (rename ρ target) = d.fits source target := by
  rw [Bool.eq_iff_iff, fits_iff, fits_iff]
  simp only [h.fitsAt]

theorem allFit (sources targets : List Constraint) :
    d'.allFit (rename ρ sources) (rename ρ targets) = d.allFit sources targets :=
  allFitBy h.fits sources targets

/-! #### Calls -/

theorem acceptsTrailing (rest : Constraint) (trailing : List Constraint) :
    d'.acceptsTrailing (rename ρ rest) (rename ρ trailing) = d.acceptsTrailing rest trailing := by
  have element : ((rename ρ (d.resolve rest).definition).element?).getD (rename ρ (d.resolve rest)) =
      rename ρ (((d.resolve rest).definition.element?).getD (d.resolve rest)) := by
    rw [element?_rename]
    cases (d.resolve rest).definition.element? <;> rfl
  have all (target : Constraint) : (rename ρ trailing).all (d'.fits · (rename ρ target)) =
      trailing.all (d.fits · target) := by
    rw [rename_list, List.all_map]
    simp only [Function.comp_def, h.fits]
  simp only [Dictionary.acceptsTrailing, h.resolve, definition_rename, element, all]
  congr 1
  rcases trailing with _ | ⟨argument, _ | ⟨_, _⟩⟩
  · rfl
  · exact h.fits argument rest
  · rfl

theorem accepts (function : FunctionType) (arguments : List Constraint) :
    d'.accepts (rename ρ function) (rename ρ arguments) = d.accepts function arguments := by
  have last : (rename ρ function).parameters.getLast? =
      function.parameters.getLast?.map (rename ρ) := List.getLast?_map
  have fixed : (rename ρ function).parameters.dropLast = rename ρ function.parameters.dropLast :=
    (List.map_dropLast ..).symm
  unfold Dictionary.accepts
  rw [last, fixed]
  show (if !function.isVariadic then d'.allFit _ (rename ρ function.parameters) else _) = _
  rw [h.allFit]
  congr 1
  cases function.parameters.getLast? with
  | none => simp [rename_list]
  | some rest =>
    have taken (n : Nat) : (rename ρ arguments).take n = rename ρ (arguments.take n) :=
      List.map_take.symm
    have dropped (n : Nat) : (rename ρ arguments).drop n = rename ρ (arguments.drop n) :=
      List.map_drop.symm
    have long (constraints : List Constraint) :
        (rename ρ constraints).length = constraints.length := List.length_map _
    simp only [Option.map_some, long, taken, dropped, h.allFit, h.acceptsTrailing]

theorem callMember? (name : String) (member : ObjectMember) (arguments : List Constraint) :
    d'.callMember? name (rename ρ member) (rename ρ arguments) =
      rename ρ (d.callMember? name member arguments) := by
  have resolved : d'.resolve (rename ρ member).constraint =
      rename ρ (d.resolve member.constraint) := h.resolve member.constraint
  unfold Dictionary.callMember?
  simp only [resolved, definition_rename]
  cases (d.resolve member.constraint).definition with
  | function id =>
    simp only [Renamable.rename, Definition.rename]
    rw [h.function]
    have accepted := h.accepts (d.function id) arguments
    simp only [Renamable.rename] at accepted ⊢
    rw [accepted]
    split <;> rfl
  | simple type => cases type <;> rfl
  | _ => rfl

theorem firstOverload? (id : Nat) (arguments : List Constraint) (names : List String) :
    d'.firstOverload? (ρ.object id) (rename ρ arguments) names =
      rename ρ (d.firstOverload? id arguments names) := by
  suffices d'.firstOverload? (ρ.object id) (rename ρ arguments) (rename ρ names) =
      rename ρ (d.firstOverload? id arguments names) by rwa [rename_strings] at this
  apply findSome?_rename
  intro stored
  rw [rename_string, h.member?]
  cases d.member? id stored with
  | none => rfl
  | some member => exact h.callMember? stored member arguments

theorem method (id : Nat) (name : String) (arguments : List Constraint) :
    d'.method (ρ.object id) name (rename ρ arguments) = rename ρ (d.method id name arguments) := by
  unfold Dictionary.method
  rw [h.overloads?, h.member?]
  cases d.overloads? id name with
  | some names =>
    simp only [h.firstOverload?]
    cases d.firstOverload? id arguments names <;> rfl
  | none =>
    cases d.member? id name with
    | none => rfl
    | some member =>
      simp only [rename_some, h.callMember?, isMethod_rename]
      cases d.callMember? name member arguments with
      | some method => rfl
      | none =>
        simp only [rename_none]
        split <;> rfl

/-- Constructors are chosen by their place, which no renaming changes. -/
theorem constructor? (id : Nat) (arguments : List Constraint) :
    d'.constructor? (ρ.object id) (rename ρ arguments) = d.constructor? id arguments := by
  rw [Dictionary.constructor?, h.object]
  show List.findIdx? _ ((d.object id).constructors.map ρ.function) = _
  rw [List.findIdx?_map]
  simp only [Function.comp_def, h.function, h.accepts]
  rfl

/-! #### Access and implementation -/

theorem reach (enclosing : List Nat) (member : ObjectMember) :
    d'.reach (rename ρ enclosing) (rename ρ member) = d.reach enclosing member := by
  have derived : (rename ρ enclosing).any (d'.isSubtypeOf · (ρ.object member.parent)) =
      enclosing.any (d.isSubtypeOf · member.parent) := by
    rw [rename_list, List.any_map]
    simp only [Function.comp_def, rename_nat, h.isSubtypeOf]
  have visibility : (rename ρ member).visibility = member.visibility := rfl
  have parent : (rename ρ member).parent = ρ.object member.parent := rfl
  rw [Dictionary.reach, visibility, parent, h.injective.contains_rename, derived, Dictionary.reach]

theorem inheritedAbstract (id : Nat) :
    d'.inheritedAbstract (ρ.object id) = rename ρ (d.inheritedAbstract id) := by
  have abstracts (supertype : Nat) :
      ((d'.object (ρ.object supertype)).ownMembers.filter (·.isAbstract)).map
          (ρ.object supertype, ·) =
        rename ρ (((d.object supertype).ownMembers.filter (·.isAbstract)).map (supertype, ·)) := by
    rw [h.object, ownMembers_rename, rename_list, List.filter_map, List.map_map, rename_list,
      List.map_map]
    rfl
  unfold Dictionary.inheritedAbstract
  rw [← distinctMembers_rename, h.allSupertypes]
  congr 1
  rw [rename_list, rename_list, List.flatMap_map, List.map_flatMap]
  simp only [rename_nat, abstracts]
  rfl

theorem implements (id : Nat) (name : String) :
    d'.implements (ρ.object id) name = d.implements id name := by
  rw [Dictionary.implements, h.member?, Dictionary.implements]
  cases d.member? id name <;> rfl

end Renames
end Dictionary
end Javascribe
