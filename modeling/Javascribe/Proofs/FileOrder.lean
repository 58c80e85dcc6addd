/-
# The order of files

Files may be given to a compiler in any order. What a source puts into the
table of files depends on nothing else (`CompilerFile.ofSource?`), and what
it puts into the dictionary is a block of declarations of its own. So two
orders give the same files and, up to a permutation of the numbers, the same
dictionary; and checking a file does not see the numbers.

Key definitions: `Compiler.addSources`, `CompilerFile.ofSource?`.
Key theorems: `Compiler.find?_addSources`, `Compiler.dictionary_addSources`,
`Compiler.compileAll_perm`.
-/
import Javascribe.Compiler
import Javascribe.Proofs.CheckRenaming
import Javascribe.Proofs.Identifiers

namespace Javascribe

/-! ### The native dictionary -/

theorem Native.rename_objectType (τ : Renaming) (name : String) (id constructor : Nat)
    (methods : List (String × Nat)) :
    rename τ (objectType name id constructor methods) =
      objectType name (τ.object id) (τ.function constructor)
        (methods.map fun method => (method.1, τ.function method.2)) := by
  have add (object : ObjectType) :
      rename τ (methods.foldl (fun object method => object.addMember
        { name := method.1, constraint := .function method.2, parent := id }) object) =
      (methods.map fun method => (method.1, τ.function method.2)).foldl
        (fun object method => object.addMember
          { name := method.1, constraint := .function method.2, parent := τ.object id })
        (rename τ object) := by
    induction methods generalizing object with
    | nil => rfl
    | cons method methods ih =>
      rw [List.foldl_cons, ih, rename_addMember]
      rfl
  exact add _

namespace Dictionary

/-- A native name is a symbol for anything. -/
theorem symbol?_native (identifier : String) :
    native.symbol? identifier =
      lastDefined (Native.dynamicGlobals.map fun name => ⟨name, name, .dynamic⟩) identifier := by
  have added := symbol?_addSymbols (Native.dynamicGlobals.map fun name => ⟨name, name, .dynamic⟩)
    { Dictionary.empty with objects := native.objects, functions := native.functions } identifier
  rw [List.foldl_map] at added
  exact added.trans (Option.or_none)

/-- The native types mention only each other. -/
theorem closed_native : native.Closed where
  object τ h id := by
    have object (id : Nat) (lt : id < 2) : τ.object id = id := h.object id lt
    have function (id : Nat) (lt : id < 5) : τ.function id = id := h.function id lt
    obtain _ | _ | id := id
    · refine (Native.rename_objectType τ _ _ _ _).trans ?_
      simp only [List.map_cons, List.map_nil, Native.stringObject, object 0 (by decide),
        function 0 (by decide), function 1 (by decide), function 2 (by decide)]
      rfl
    · refine (Native.rename_objectType τ _ _ _ _).trans ?_
      simp only [List.map_cons, List.map_nil, Native.numberObject, object 1 (by decide),
        function 3 (by decide), function 4 (by decide)]
      rfl
    · rfl
  function τ h id := by
    obtain _ | _ | _ | _ | _ | id := id <;> rfl
  symbol? τ h identifier := by
    rw [symbol?_native, ← lastDefined_rename]
    rfl

end Dictionary

namespace CompilerFile

/-- What a source puts under its name. -/
def ofSource? (name text : String) : Option CompilerFile :=
  match Language.ofPath? ⟨name⟩ with
  | none => none
  | some .java =>
    match SourceTree.ofText? text with
    | .ok tree => some { tree := some tree }
    | .error error => some { diagnostics := [error.diagnostic name] }

/-- What the tree of a file declares. -/
def declarations? (name : String) (file : CompilerFile) : Option Collection :=
  file.tree.map (·.declarations name)

theorem check_renames {ρ : Renaming} {d d' : Dictionary} (h : d.Renames ρ d') (name : String)
    (file : CompilerFile) : file.check name d' = file.check name d := by
  unfold check
  split
  · rw [SourceTree.check_renames h]
  · rfl

end CompilerFile

namespace Compiler

/-- The compiler with sources added to it, one after the other. -/
def addSources (compiler : Compiler) (sources : List (String × String)) : Compiler :=
  sources.foldl (fun compiler source => (compiler.addSource source.1 source.2).1) compiler

theorem addSource_eq (compiler : Compiler) {name text : String}
    (fresh : compiler.files.find? name = none) :
    (compiler.addSource name text).1 =
      match CompilerFile.ofSource? name text with
      | none => compiler
      | some file =>
        { files := compiler.files.insert name file
          dictionary := (file.declarations? name).elim compiler.dictionary compiler.dictionary.append } := by
  unfold addSource CompilerFile.ofSource?
  cases Language.ofPath? ⟨name⟩ with
  | none => rfl
  | some language =>
    cases language
    cases SourceTree.ofText? text with
    | ok tree =>
      show Compiler.mk _ (collectDeclarations (.ofTree name tree) tree _).1 = _
      rw [collectDeclarations_eq]
      rfl
    | error e =>
      show ({ compiler with files := _ } : Compiler) = _
      rw [fresh]
      rfl

/-- A source changes the file of its name only. -/
theorem find?_addSource (compiler : Compiler) {name text : String}
    (fresh : compiler.files.find? name = none) (other : String) :
    (compiler.addSource name text).1.files.find? other =
      if name == other then CompilerFile.ofSource? name text else compiler.files.find? other := by
  rw [addSource_eq compiler fresh]
  cases CompilerFile.ofSource? name text with
  | some file => exact Table.lookup_insertEntry name other file compiler.files.entries
  | none =>
    by_cases h : name = other
    · subst h
      rw [if_pos (beq_self_eq_true name)]
      exact fresh
    · rw [beq_false_of_ne h]
      rfl

/-- What a source declares. -/
def declared? (source : String × String) : Option Collection :=
  (CompilerFile.ofSource? source.1 source.2).bind (·.declarations? source.1)

theorem dictionary_addSource (compiler : Compiler) {name text : String}
    (fresh : compiler.files.find? name = none) :
    (compiler.addSource name text).1.dictionary =
      (declared? (name, text)).elim compiler.dictionary compiler.dictionary.append := by
  rw [addSource_eq compiler fresh, declared?]
  cases CompilerFile.ofSource? name text <;> rfl

/-- Sources with different names, none of which the compiler knows. -/
structure Fresh (compiler : Compiler) (sources : List (String × String)) : Prop where
  distinct : (sources.map Prod.fst).Nodup
  unknown : ∀ source ∈ sources, compiler.files.find? source.1 = none

theorem fresh_new {sources : List (String × String)} (distinct : (sources.map Prod.fst).Nodup) :
    new.Fresh sources :=
  ⟨distinct, fun _ _ => rfl⟩

theorem Fresh.tail {compiler : Compiler} {source : String × String}
    {sources : List (String × String)} (h : compiler.Fresh (source :: sources)) :
    (compiler.addSource source.1 source.2).1.Fresh sources := by
  obtain ⟨distinct, unknown⟩ := h
  rw [List.map_cons, List.nodup_cons] at distinct
  rw [List.forall_mem_cons] at unknown
  refine ⟨distinct.2, fun other mem => ?_⟩
  have ne : source.1 ≠ other.1 := fun same =>
    distinct.1 (same ▸ List.mem_map_of_mem mem)
  rw [find?_addSource compiler unknown.1, beq_false_of_ne ne]
  exact unknown.2 other mem

theorem find?_addSources_of_not_mem {sources : List (String × String)} {name : String}
    (hName : name ∉ sources.map Prod.fst) {compiler : Compiler} (h : compiler.Fresh sources) :
    (compiler.addSources sources).files.find? name = compiler.files.find? name := by
  induction sources generalizing compiler with
  | nil => rfl
  | cons source sources ih =>
    rw [List.map_cons, List.mem_cons, not_or] at hName
    refine (ih hName.2 h.tail).trans ?_
    rw [find?_addSource compiler (h.unknown source (List.mem_cons_self ..)),
      beq_false_of_ne (Ne.symm hName.1)]
    rfl

/-- The file of a source does not depend on the other sources. -/
theorem find?_addSources {sources : List (String × String)} {source : String × String}
    (mem : source ∈ sources) {compiler : Compiler} (h : compiler.Fresh sources) :
    (compiler.addSources sources).files.find? source.1 =
      CompilerFile.ofSource? source.1 source.2 := by
  induction sources generalizing compiler with
  | nil => cases mem
  | cons first sources ih =>
    rcases List.mem_cons.mp mem with rfl | mem
    · have distinct := h.distinct
      rw [List.map_cons, List.nodup_cons] at distinct
      refine (find?_addSources_of_not_mem distinct.1 h.tail).trans ?_
      rw [find?_addSource compiler (h.unknown source (List.mem_cons_self ..)),
        if_pos (beq_self_eq_true _)]
    · exact ih mem h.tail

/-- Every source puts its block behind those before it. -/
theorem dictionary_addSources {sources : List (String × String)} {compiler : Compiler}
    (h : compiler.Fresh sources) :
    (compiler.addSources sources).dictionary =
      (sources.filterMap declared?).foldl Dictionary.append compiler.dictionary := by
  induction sources generalizing compiler with
  | nil => rfl
  | cons source sources ih =>
    refine (ih h.tail).trans ?_
    rw [dictionary_addSource compiler (h.unknown source (List.mem_cons_self ..)),
      List.filterMap_cons]
    cases declared? source <;> rfl

theorem exists_tree_of_mem_declared {source : String × String} {block : Collection}
    (h : block ∈ declared? source) :
    ∃ tree, SourceTree.ofText? source.2 = .ok tree ∧ block = tree.declarations source.1 := by
  unfold declared? CompilerFile.ofSource? at h
  cases hLanguage : Language.ofPath? ⟨source.1⟩ with
  | none =>
    rw [hLanguage] at h
    cases h
  | some language =>
    rw [hLanguage] at h
    cases language
    cases hTree : SourceTree.ofText? source.2 with
    | ok tree =>
      rw [hTree] at h
      cases h
      exact ⟨tree, rfl, rfl⟩
    | error e =>
      rw [hTree] at h
      cases h

theorem isOwn_of_mem_declared {source : String × String} {block : Collection}
    (h : block ∈ declared? source) : block.IsOwn := by
  obtain ⟨tree, _, rfl⟩ := exists_tree_of_mem_declared h
  exact tree.declarations_isOwn source.1

theorem disjoint_of_mem_declared {source source' : String × String} (ne : source.1 ≠ source'.1)
    {block block' : Collection} (h : block ∈ declared? source) (h' : block' ∈ declared? source') :
    block.Disjoint block' := by
  obtain ⟨tree, hTree, rfl⟩ := exists_tree_of_mem_declared h
  obtain ⟨tree', hTree', rfl⟩ := exists_tree_of_mem_declared h'
  exact SourceTree.disjoint_declarations (SourceTree.isPlain_of_ofText? hTree)
    (SourceTree.isPlain_of_ofText? hTree') ne

theorem pairwise_disjoint_declared {sources : List (String × String)}
    (distinct : (sources.map Prod.fst).Nodup) :
    (sources.filterMap declared?).Pairwise Collection.Disjoint := by
  rw [List.pairwise_filterMap]
  refine (List.pairwise_map.mp distinct).imp fun ne block h block' h' => ?_
  exact disjoint_of_mem_declared ne h h'

/-! ### Compiling -/

theorem find?_modifyFiles (compiler : Compiler) (change : String → CompilerFile → CompilerFile)
    (name : String) :
    (compiler.modifyFiles change).files.find? name =
      (compiler.files.find? name).map (change name) := by
  show List.lookup name (compiler.files.entries.map _) = _
  unfold Table.find?
  induction compiler.files.entries with
  | nil => rfl
  | cons entry entries ih =>
    rw [List.map_cons, List.lookup_cons, List.lookup_cons, ih]
    cases h : name == entry.1 with
    | false => rfl
    | true =>
      rw [eq_of_beq h]
      rfl

theorem find?_compileAll (compiler : Compiler) (name : String) :
    compiler.compileAll.files.find? name =
      (compiler.files.find? name).map (·.compile name compiler.dictionary) := by
  rw [compileAll, find?_modifyFiles, checkAll, find?_modifyFiles, Option.map_map]
  rfl

/-- Two orders give the same dictionary up to a permutation of the numbers. -/
theorem exists_permutes_addSources {sources sources' : List (String × String)}
    (perm : sources.Perm sources') (distinct : (sources.map Prod.fst).Nodup) :
    ∃ ρ, (new.addSources sources).dictionary.Permutes ρ (new.addSources sources').dictionary := by
  have distinct' : (sources'.map Prod.fst).Nodup := (perm.map _).nodup_iff.mp distinct
  rw [dictionary_addSources (fresh_new distinct), dictionary_addSources (fresh_new distinct')]
  refine Dictionary.exists_permutes (perm.filterMap declared?) Dictionary.closed_native
    (Nat.le_refl 2) (fun block mem => ?_) (pairwise_disjoint_declared distinct)
  obtain ⟨source, _, h⟩ := List.mem_filterMap.mp mem
  exact isOwn_of_mem_declared h

/-- Two orders give the same files. -/
theorem find?_addSources_perm {sources sources' : List (String × String)}
    (perm : sources.Perm sources') (distinct : (sources.map Prod.fst).Nodup) (name : String) :
    (new.addSources sources').files.find? name = (new.addSources sources).files.find? name := by
  have distinct' : (sources'.map Prod.fst).Nodup := (perm.map _).nodup_iff.mp distinct
  by_cases known : name ∈ sources.map Prod.fst
  · obtain ⟨source, mem, rfl⟩ := List.mem_map.mp known
    rw [find?_addSources mem (fresh_new distinct),
      find?_addSources (perm.mem_iff.mp mem) (fresh_new distinct')]
  · rw [find?_addSources_of_not_mem known (fresh_new distinct),
      find?_addSources_of_not_mem (fun h => known ((perm.map _).mem_iff.mpr h))
        (fresh_new distinct')]

/-- **The order of files does not matter.** Sources with different names, given
to a new compiler in any order, are compiled alike: each file has the same
diagnostics in the same order and the same JavaScript, or none. The
dictionaries are the same up to a permutation of the numbers of object types
and of functions. -/
theorem compileAll_perm {sources sources' : List (String × String)} (perm : sources.Perm sources')
    (distinct : (sources.map Prod.fst).Nodup) :
    let compiled := (new.addSources sources).compileAll
    let compiled' := (new.addSources sources').compileAll
    (∀ name, compiled'.diagnosticsOf name = compiled.diagnosticsOf name ∧
      compiled'.compiled? name = compiled.compiled? name ∧
      compiled'.output? name = compiled.output? name) ∧
    ∃ ρ, compiled.dictionary.Permutes ρ compiled'.dictionary := by
  intro compiled compiled'
  obtain ⟨ρ, h⟩ := exists_permutes_addSources perm distinct
  have same (name : String) : compiled'.files.find? name = compiled.files.find? name := by
    rw [find?_compileAll, find?_compileAll, find?_addSources_perm perm distinct]
    refine congrArg (Option.map · _) (funext fun file => ?_)
    rw [CompilerFile.compile, CompilerFile.check_renames h.toRenames]
    rfl
  refine ⟨fun name => ?_, ρ, h⟩
  have diagnostics : compiled'.diagnosticsOf name = compiled.diagnosticsOf name := by
    rw [diagnosticsOf, same]
    rfl
  have output : compiled'.output? name = compiled.output? name := by
    rw [output?, same]
    rfl
  refine ⟨diagnostics, ?_, output⟩
  rw [compiled?, errorsOf, diagnostics, output]
  rfl

/-- A class before the class that it extends, or after it. -/
theorem compileAll_superclass_first :
    let derived := ("A.java", "class A extends B \x7b int f() \x7b return size(); \x7d \x7d")
    let base := ("B.java", "class B \x7b int size() \x7b return 1; \x7d \x7d")
    let compiled := (new.addSources [derived, base]).compileAll
    let compiled' := (new.addSources [base, derived]).compileAll
    (∀ name, compiled'.diagnosticsOf name = compiled.diagnosticsOf name ∧
      compiled'.compiled? name = compiled.compiled? name ∧
      compiled'.output? name = compiled.output? name) ∧
    ∃ ρ, compiled.dictionary.Permutes ρ compiled'.dictionary :=
  compileAll_perm (.swap ..) (by decide)

end Compiler

end Javascribe
