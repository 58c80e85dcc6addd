/-
# Identifiers of different files

The name of a file may hold colons, but the names of types are words and hold
none. So the last colon of an identifier ends the name of its file
(`IsIdentifierIn.file_eq`), and what two files declare never has one
identifier (`SourceTree.disjoint_declarations`).

Key definitions: `IsIdentifierIn`, `Collector.Defines`, `SourceTree.IsPlain`.
Key theorems: `IsIdentifierIn.file_eq`, `SourceTree.isPlain_of_ofText?`,
`SourceTree.disjoint_declarations`.
-/
import Javascribe.Proofs.DictionaryOrder
import Javascribe.Proofs.Reading

namespace Javascribe

open Javascribe.Tree

/-- A name without colons. -/
def IsPlainName (name : String) : Prop := ':' ∉ name.toList

/-- The identifier of something in a file: the name of the file, a colon, and
a text without colons. -/
def IsIdentifierIn (file identifier : String) : Prop :=
  ∃ name : List Char, ':' ∉ name ∧ identifier.toList = file.toList ++ ':' :: name

theorem eq_of_append_cons {α : Type} {c : α} {xs xs' ys ys' : List α} (hc : c ∉ ys)
    (hc' : c ∉ ys') (h : xs ++ c :: ys = xs' ++ c :: ys') : xs = xs' := by
  rcases List.append_eq_append_iff.mp h with ⟨zs, rfl, hzs⟩ | ⟨zs, rfl, hzs⟩
  · cases zs with
    | nil => exact (List.append_nil xs).symm
    | cons z zs =>
      rw [List.cons_append, List.cons.injEq] at hzs
      exact absurd (hzs.2 ▸ List.mem_append_right zs (List.mem_cons_self ..)) hc
  · cases zs with
    | nil => exact List.append_nil xs'
    | cons z zs =>
      rw [List.cons_append, List.cons.injEq] at hzs
      exact absurd (hzs.2 ▸ List.mem_append_right zs (List.mem_cons_self ..)) hc'

/-- An identifier belongs to one file. -/
theorem IsIdentifierIn.file_eq {file file' identifier : String} (h : IsIdentifierIn file identifier)
    (h' : IsIdentifierIn file' identifier) : file = file' := by
  obtain ⟨name, plain, h⟩ := h
  obtain ⟨name', plain', h'⟩ := h'
  exact String.toList_injective (eq_of_append_cons plain plain' (h.symm.trans h'))

theorem FileNamespace.isIdentifierIn_identifier (space : FileNamespace) {enclosing : List String}
    {name : String} (hEnclosing : ∀ outer ∈ enclosing, IsPlainName outer)
    (hName : IsPlainName name) :
    IsIdentifierIn space.file (space.identifier enclosing name) := by
  refine ⟨(String.join (enclosing.map (· ++ "."))).toList ++ name.toList, ?_, ?_⟩
  · simp only [String.toList_join, List.mem_append, List.mem_flatMap, List.mem_map, not_or]
    refine ⟨?_, hName⟩
    rintro ⟨_, ⟨outer, mem, rfl⟩, colon⟩
    rw [String.toList_append, List.mem_append] at colon
    exact colon.elim (hEnclosing outer mem) (by decide)
  · simp [identifier]

theorem FileNamespace.file_ofTree (file : String) (tree : SourceTree) :
    (ofTree file tree).file = file := by
  have step (space : FileNamespace) (item : Import) :
      (space.addImport item).file = space.file := by
    unfold addImport
    split <;> rfl
  have all (items : List Import) (space : FileNamespace) :
      (items.foldl addImport space).file = space.file := by
    induction items generalizing space with
    | nil => rfl
    | cons item items ih => rw [List.foldl_cons, ih, step]
  exact all tree.imports (new file)

/-! ### What collecting defines -/

/-- Declarations of the file are collected, inside types with plain names. -/
structure CollectScope.IsIn (file : String) (scope : CollectScope) : Prop where
  file : scope.space.file = file
  enclosing : ∀ outer ∈ scope.enclosing, IsPlainName outer

theorem CollectScope.IsIn.inside {file name : String} {scope : CollectScope} (h : scope.IsIn file)
    (hName : IsPlainName name) (typeParameters : List String) :
    (scope.inside name typeParameters).IsIn file where
  file := h.file
  enclosing := by
    intro outer mem
    rcases List.mem_append.mp mem with mem | mem
    · exact h.enclosing outer mem
    · rw [List.mem_singleton] at mem
      exact mem ▸ hName

namespace Collector

variable {α β : Type} {file : String}

/-- Only identifiers of the file are added to what is defined. -/
def Defines (file : String) (m : Collector α) : Prop :=
  ∀ block : Collection, (∀ s ∈ block.defined, IsIdentifierIn file s.identifier) →
    ∀ s ∈ (m.run block).2.defined, IsIdentifierIn file s.identifier

theorem Defines.bind {m : Collector α} {f : α → Collector β} (hm : Defines file m)
    (hf : ∀ a, Defines file (f a)) : Defines file (m >>= f) :=
  fun block h => hf (m.run block).1 (m.run block).2 (hm block h)

theorem Defines.pure (a : α) : Defines file (pure a : Collector α) := fun _ h => h

theorem Defines.discard {m : Collector α} (hm : Defines file m) : Defines file (discard m) :=
  fun block h => hm block h

theorem Defines.forM {γ : Type} {f : γ → Collector PUnit} {xs : List γ}
    (hf : ∀ x ∈ xs, Defines file (f x)) : Defines file (xs.forM f) := by
  induction xs with
  | nil => exact .pure _
  | cons x xs ih =>
    rw [List.forall_mem_cons] at hf
    exact hf.1.bind fun _ => ih hf.2

theorem defines_addFunction (function : FunctionType) : Defines file (addFunction function) :=
  fun _ h => h

theorem defines_modifyObject (id : Nat) (change : ObjectType → ObjectType) :
    Defines file (modifyObject id change) := fun _ h => h

variable {scope : CollectScope}

theorem defines_define (hScope : scope.IsIn file) {object : ObjectType}
    (hName : IsPlainName object.name) : Defines file (define scope object) := by
  intro block h symbol mem
  rcases List.mem_append.mp mem with mem | mem
  · exact h symbol mem
  · rw [List.mem_singleton] at mem
    rw [mem, ← hScope.file]
    exact scope.space.isIdentifierIn_identifier hScope.enclosing hName

theorem defines_addSupertypes (id : Nat) (types : List TypeRef) :
    Defines file (addSupertypes scope id types) :=
  .forM fun _ _ => defines_modifyObject id _

theorem defines_addConstructors (id : Nat) (constructors : List Method) :
    Defines file (addConstructors scope id constructors) :=
  .forM fun _ _ => (defines_addFunction _).bind fun _ => defines_modifyObject id _

theorem defines_addMethod (id : Nat) (inInterface : Bool) (method : Method) :
    Defines file (addMethod scope id inInterface method) :=
  (defines_addFunction _).bind fun _ => defines_modifyObject id _

mutual

theorem defines_collectClass (scope : CollectScope) (hScope : scope.IsIn file) :
    (c : ClassDecl) → (∀ name ∈ c.declaredNames, IsPlainName name) →
      Defines file (collectClass scope c)
  | ⟨modifiers, name, typeParameters, extended, implemented, constructors, members, _, _, _,
      isEnum, _⟩, hNames => by
    rw [ClassDecl.declaredNames, List.forall_mem_cons] at hNames
    unfold collectClass
    refine (defines_define hScope hNames.1).bind fun id => ?_
    refine (defines_addSupertypes id _).bind fun _ => ?_
    refine (defines_addConstructors id constructors).bind fun _ => ?_
    exact (defines_collectMembers _ (hScope.inside hNames.1 typeParameters) id false members
      hNames.2).bind fun _ => .pure id

theorem defines_collectInterface (scope : CollectScope) (hScope : scope.IsIn file) :
    (i : InterfaceDecl) → (∀ name ∈ i.declaredNames, IsPlainName name) →
      Defines file (collectInterface scope i)
  | ⟨_, name, typeParameters, extended, members, _, _⟩, hNames => by
    rw [InterfaceDecl.declaredNames, List.forall_mem_cons] at hNames
    unfold collectInterface
    refine (defines_define hScope hNames.1).bind fun id => ?_
    refine (defines_addSupertypes id extended).bind fun _ => ?_
    exact (defines_collectMembers _ (hScope.inside hNames.1 typeParameters) id true members
      hNames.2).bind fun _ => .pure id

theorem defines_collectMembers (scope : CollectScope) (hScope : scope.IsIn file) (id : Nat)
    (inInterface : Bool) :
    (ms : List Member) → (∀ name ∈ membersNames ms, IsPlainName name) →
      Defines file (collectMembers scope id inInterface ms)
  | [], _ => .pure ()
  | m :: ms, hNames => by
    rw [membersNames, List.forall_mem_append] at hNames
    unfold collectMembers
    exact (defines_collectMember scope hScope id inInterface m hNames.1).bind fun _ =>
      defines_collectMembers scope hScope id inInterface ms hNames.2

theorem defines_collectMember (scope : CollectScope) (hScope : scope.IsIn file) (id : Nat)
    (inInterface : Bool) :
    (m : Member) → (∀ name ∈ m.declaredNames, IsPlainName name) →
      Defines file (collectMember scope id inInterface m)
  | .field _, _ => defines_modifyObject id _
  | .method m, _ => defines_addMethod id inInterface m
  | .classDecl c, hNames => by
    unfold collectMember
    exact (defines_collectClass scope hScope c hNames).bind fun _ => defines_modifyObject id _
  | .interfaceDecl i, hNames => by
    unfold collectMember
    exact (defines_collectInterface scope hScope i hNames).bind fun _ => defines_modifyObject id _

end

theorem defines_collectItem (hScope : scope.IsIn file) {item : TopLevel}
    (hNames : ∀ name ∈ item.declaredNames, IsPlainName name) :
    Defines file (collectItem scope item) := by
  cases item with
  | importDecl i => exact .pure ()
  | classDecl c => exact (defines_collectClass scope hScope c hNames).discard
  | interfaceDecl i => exact (defines_collectInterface scope hScope i hNames).discard

end Collector

/-! ### Files -/

namespace SourceTree

/-- The types that a file declares have plain names. -/
def IsPlain (tree : SourceTree) : Prop :=
  ∀ item ∈ tree.items, ∀ name ∈ item.declaredNames, IsPlainName name

theorem isIdentifierIn_of_mem_declarations {tree : SourceTree} (plain : tree.IsPlain)
    (file : String) :
    ∀ s ∈ (tree.declarations file).defined, IsIdentifierIn file s.identifier := by
  have hScope : CollectScope.IsIn file ⟨.ofTree file tree, [], []⟩ :=
    ⟨FileNamespace.file_ofTree file tree, nofun⟩
  exact Collector.Defines.forM (fun item mem => Collector.defines_collectItem hScope (plain item mem))
    ⟨.empty, []⟩ nofun

/-- **What two files declare never has one identifier.** -/
theorem disjoint_declarations {tree tree' : SourceTree} (plain : tree.IsPlain)
    (plain' : tree'.IsPlain) {file file' : String} (ne : file ≠ file') :
    (tree.declarations file).Disjoint (tree'.declarations file') := by
  intro s hs t ht equal
  have here := isIdentifierIn_of_mem_declarations plain file s hs
  have there := isIdentifierIn_of_mem_declarations plain' file' t ht
  rw [equal] at here
  exact ne (here.file_eq there)

/-- A source that can be read declares types by words. -/
theorem isPlain_of_ofText? {text : String} {tree : SourceTree} (h : ofText? text = .ok tree) :
    tree.IsPlain := by
  have plain := (fits_of_ofText? h fun _ scanned => TokenStream.spells_of_scan scanned
    (p := fun c => c ≠ ':') ?_ ?_).2.2
  · intro item mem name hName colon
    exact plain name (List.mem_flatMap.mpr ⟨item, mem, hName⟩) _ colon rfl
  · intro c colon
    rw [Decidable.not_not.mp colon]
    decide
  · have known : ("" :: "Object" :: Keyword.values).all (·.toList.all (· != ':')) = true := by decide
    intro s mem c isIn
    exact bne_iff_ne.mp (List.all_eq_true.mp (List.all_eq_true.mp known s mem) c isIn)

end SourceTree

end Javascribe
