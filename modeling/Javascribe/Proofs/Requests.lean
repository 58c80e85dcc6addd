/-
# Requests to a compiler

A compiler is given files and diagnostics, and it is asked to check and to
compile, in any order. What a request does to a file depends on that file
only, and a file goes through two steps, each at most once: it is checked,
and then it is written as JavaScript (`CompilerFile.ask`). So the order of
requests does not show in the end (`Compiler.requests_in_any_order`).

A diagnostic may still be added to a file that has been written. Then the
file has errors and its JavaScript is kept, and this is the only way to get
there (`Compiler.output_with_errors_iff`).

Key definitions: `Addition`, `Request`, `Action`, `Compiler.performAll`,
`CompilerFile.ask`.
Key theorems: `Compiler.find?_askAll`, `CompilerFile.compile_askAll`,
`Compiler.requests_in_any_order`, `Compiler.output_with_errors_iff`.
-/
import Javascribe.Proofs.FileOrder
import Mathlib.Data.List.Induction

namespace Javascribe

/-- What can be given to a compiler. -/
inductive Addition where
  | tree (name : String) (tree : SourceTree)
  | source (name text : String)
  | diagnostic (name : String) (diagnostic : Diagnostic)

/-- What a compiler can be asked for. -/
inductive Request where
  | checkAll
  | compileFile (name : String)
  | compileAll

namespace Request

/-- Whether a request compiles a file. -/
def compiles (name : String) : Request → Bool
  | .checkAll => false
  | .compileFile other => other == name
  | .compileAll => true

/-- Whether a request checks a file. -/
def checks (name : String) : Request → Bool
  | .compileFile other => other == name
  | .checkAll | .compileAll => true

end Request

/-- What can be done with a compiler. -/
inductive Action where
  | give (addition : Addition)
  | ask (request : Request)
  | reset

namespace Compiler

/-- The compiler with something added. -/
def give (compiler : Compiler) : Addition → Compiler
  | .tree name tree => compiler.add name tree
  | .source name text => (compiler.addSource name text).1
  | .diagnostic name diagnostic => compiler.addDiagnostic name diagnostic

/-- The compiler after a request. -/
def ask (compiler : Compiler) : Request → Compiler
  | .checkAll => compiler.checkAll
  | .compileFile name => compiler.compileFile name
  | .compileAll => compiler.compileAll

/-- The compiler after an action. -/
def perform (compiler : Compiler) : Action → Compiler
  | .give addition => compiler.give addition
  | .ask request => compiler.ask request
  | .reset => new

/-- The compiler with additions, one after the other. -/
def giveAll (compiler : Compiler) (additions : List Addition) : Compiler :=
  additions.foldl give compiler

/-- The compiler after requests, one after the other. -/
def askAll (compiler : Compiler) (requests : List Request) : Compiler := requests.foldl ask compiler

/-- The compiler after actions, one after the other. -/
def performAll (compiler : Compiler) (actions : List Action) : Compiler :=
  actions.foldl perform compiler

/-- Whether a file has been checked. -/
def isChecked (compiler : Compiler) (name : String) : Bool :=
  (compiler.files.find? name).any (·.resolutions.isSome)

end Compiler

/-! ### What a request does to a file -/

namespace CompilerFile

variable {name : String} {dictionary : Dictionary} (file : CompilerFile)

/-- A file after a request. -/
def ask (name : String) (dictionary : Dictionary) (file : CompilerFile) : Request → CompilerFile
  | .checkAll => file.check name dictionary
  | .compileFile other => if other == name then file.compile name dictionary else file
  | .compileAll => file.compile name dictionary

/-- A file after requests, one after the other. -/
def askAll (name : String) (dictionary : Dictionary) (file : CompilerFile)
    (requests : List Request) : CompilerFile :=
  requests.foldl (ask name dictionary) file

theorem check_of_isSome {file : CompilerFile} (checked : file.resolutions.isSome = true) :
    file.check name dictionary = file := by
  obtain ⟨resolutions, found⟩ := Option.isSome_iff_exists.mp checked
  rw [check, found]

theorem resolutions_emit : file.emit.resolutions = file.resolutions := by
  unfold emit
  split <;> rfl

theorem diagnostics_emit : file.emit.diagnostics = file.diagnostics := by
  unfold emit
  split <;> rfl

theorem output_check : (file.check name dictionary).output = file.output := by
  unfold check
  split <;> rfl

/-- A check leaves nothing to check. -/
theorem check_check :
    (file.check name dictionary).check name dictionary = file.check name dictionary := by
  obtain ⟨tree, diagnostics, resolutions, output⟩ := file
  cases resolutions <;> cases tree <;> rfl

/-- A file with errors is not written. -/
theorem emit_of_hasErrors {file : CompilerFile} (bad : file.hasErrors = true) :
    file.emit = file := by
  unfold emit
  rw [bad]

/-- What has been written is not written again. -/
theorem emit_emit : file.emit.emit = file.emit := by
  cases clean : file.hasErrors with
  | true => rw [emit_of_hasErrors clean, emit_of_hasErrors clean]
  | false =>
    have clean' : file.emit.hasErrors = false := by rw [hasErrors, diagnostics_emit, ← clean, hasErrors]
    obtain ⟨tree, diagnostics, resolutions, output⟩ := file
    unfold emit at clean' ⊢
    rw [clean] at clean' ⊢
    cases output <;> cases tree <;> cases resolutions <;> simp only [clean, clean']

/-- What has been compiled needs no check. -/
theorem check_compile :
    (file.compile name dictionary).check name dictionary = file.compile name dictionary := by
  unfold compile
  cases checked : (file.check name dictionary).resolutions with
  | none =>
    have unwritten : (file.check name dictionary).emit = file.check name dictionary := by
      unfold emit
      rw [checked]
      split
      · contradiction
      · rfl
    rw [unwritten, check_check]
  | some resolutions => exact check_of_isSome (by rw [resolutions_emit, checked]; rfl)

theorem compile_check :
    (file.check name dictionary).compile name dictionary = file.compile name dictionary := by
  rw [compile, check_check, compile]

theorem compile_compile :
    (file.compile name dictionary).compile name dictionary = file.compile name dictionary := by
  rw [compile, check_compile, compile, emit_emit]

theorem ask_eq (request : Request) :
    file.ask name dictionary request =
      if request.compiles name then file.compile name dictionary
      else if request.checks name then file.check name dictionary
      else file := by
  cases request with
  | checkAll | compileAll => rfl
  | compileFile other =>
    show (if other == name then _ else _) = if other == name then _ else if other == name then _ else _
    split <;> rfl

/-- A file is checked by the first request that checks it, and written by the
first that compiles it; the others change nothing. -/
theorem askAll_eq (requests : List Request) :
    file.askAll name dictionary requests =
      if requests.any (·.compiles name) then file.compile name dictionary
      else if requests.any (·.checks name) then file.check name dictionary
      else file := by
  induction requests generalizing file with
  | nil => rfl
  | cons request requests ih =>
    show (file.ask name dictionary request).askAll name dictionary requests = _
    rw [ih, ask_eq, List.any_cons, List.any_cons]
    by_cases compiled : request.compiles name = true
    · rw [compiled, if_pos rfl, compile_compile, check_compile]
      simp
    · by_cases checked : request.checks name = true
      · rw [checked, if_neg compiled, if_pos rfl, compile_check, check_check]
        simp [compiled]
      · simp [compiled, checked]

theorem compile_askAll (requests : List Request) :
    (file.askAll name dictionary requests).compile name dictionary = file.compile name dictionary := by
  rw [askAll_eq]
  split
  · exact compile_compile file
  · split
    · exact compile_check file
    · rfl

/-- Once a file is checked, only a request that compiles it can change it. -/
theorem askAll_of_isSome {file : CompilerFile} (checked : file.resolutions.isSome = true)
    (requests : List Request) :
    file.askAll name dictionary requests =
      if requests.any (·.compiles name) then file.compile name dictionary else file := by
  rw [askAll_eq, check_of_isSome checked, ite_self]

/-- What a check finds in a file is put behind what is there, once. -/
theorem diagnostics_askAll {file : CompilerFile} (unchecked : file.resolutions = none)
    (requests : List Request) :
    let asked := file.askAll name dictionary requests
    asked.diagnostics = file.diagnostics ++
      if asked.resolutions.isSome then
        file.tree.elim [] fun tree => (tree.check name dictionary).diagnostics
      else [] := by
  have check : (file.check name dictionary).diagnostics = file.diagnostics ++
      if (file.check name dictionary).resolutions.isSome then
        file.tree.elim [] fun tree => (tree.check name dictionary).diagnostics
      else [] := by
    obtain ⟨tree, diagnostics, resolutions, output⟩ := file
    subst unchecked
    cases tree with
    | none => exact (List.append_nil diagnostics).symm
    | some tree => rfl
  rw [askAll_eq]
  split
  · simpa only [compile, diagnostics_emit, resolutions_emit] using check
  · split
    · exact check
    · simp [unchecked]

end CompilerFile

/-! ### What requests do to a compiler -/

namespace Compiler

variable (compiler : Compiler) (name : String)

theorem dictionary_ask (request : Request) : (compiler.ask request).dictionary = compiler.dictionary := by
  cases request with
  | checkAll | compileAll => rfl
  | compileFile other =>
    unfold ask compileFile modifyFile
    dsimp only
    split <;> rfl

/-- A request does to a file what it does to that file alone. -/
theorem find?_ask (request : Request) :
    (compiler.ask request).files.find? name =
      (compiler.files.find? name).map (·.ask name compiler.dictionary request) := by
  cases request with
  | checkAll => exact find?_modifyFiles compiler _ name
  | compileAll => exact find?_compileAll compiler name
  | compileFile other =>
    unfold ask compileFile modifyFile CompilerFile.ask
    dsimp only
    cases found : compiler.files.find? other with
    | none =>
      dsimp only
      by_cases same : other = name
      · rw [← same, found]
        rfl
      · rw [beq_false_of_ne same]
        exact Option.map_id'.symm
    | some file =>
      rw [Table.find?_insert]
      by_cases same : other = name
      · subst same
        rw [if_pos rfl, found, beq_self_eq_true]
        rfl
      · rw [if_neg (Ne.symm same), beq_false_of_ne same]
        exact Option.map_id'.symm

theorem find?_askAll (requests : List Request) :
    (compiler.askAll requests).files.find? name =
      (compiler.files.find? name).map (·.askAll name compiler.dictionary requests) := by
  induction requests generalizing compiler with
  | nil => exact Option.map_id'.symm
  | cons request requests ih =>
    show ((compiler.ask request).askAll requests).files.find? name = _
    rw [ih, find?_ask, dictionary_ask, Option.map_map]
    rfl

theorem dictionary_askAll (requests : List Request) :
    (compiler.askAll requests).dictionary = compiler.dictionary := by
  induction requests generalizing compiler with
  | nil => rfl
  | cons request requests ih => exact (ih (compiler.ask request)).trans (dictionary_ask compiler request)

end Compiler

/-! ### What additions do to a compiler -/

namespace Addition

/-- The tree that an addition puts under a name. -/
def tree? (name : String) : Addition → Option SourceTree
  | .tree other parsed => if other = name then some parsed else none
  | .source other text =>
    if other = name then (Language.ofPath? ⟨other⟩).bind fun _ => (SourceTree.ofText? text).toOption
    else none
  | .diagnostic _ _ => none

/-- The diagnostic that an addition records against a name. -/
def diagnostic? (name : String) : Addition → Option Diagnostic
  | .tree _ _ => none
  | .source other text =>
    if other = name then
      (Language.ofPath? ⟨other⟩).bind fun _ =>
        match SourceTree.ofText? text with
        | .ok _ => none
        | .error error => some (error.diagnostic other)
    else none
  | .diagnostic other recorded => if other = name then some recorded else none

/-- What is put in the place of a file brings no diagnostic. -/
theorem diagnostic?_of_tree? {name : String} {addition : Addition} {parsed : SourceTree}
    (h : addition.tree? name = some parsed) : addition.diagnostic? name = none := by
  cases addition with
  | tree _ _ => rfl
  | diagnostic _ _ => cases h
  | source other text =>
    rw [diagnostic?]
    rw [tree?] at h
    split
    · next same =>
      rw [if_pos same] at h
      obtain ⟨_, known, read⟩ := Option.bind_eq_some_iff.mp h
      cases text' : SourceTree.ofText? text with
      | ok _ => rw [known]; rfl
      | error _ => rw [text'] at read; cases read
    · rfl

end Addition

namespace Compiler

variable (compiler : Compiler) (name : String)

theorem find?_add (other : String) (tree : SourceTree) :
    (compiler.add other tree).files.find? name =
      if other = name then some { tree := some tree } else compiler.files.find? name := by
  rw [add, Table.find?_insert]
  simp only [eq_comm]

theorem find?_addDiagnostic (other : String) (diagnostic : Diagnostic) :
    (compiler.addDiagnostic other diagnostic).files.find? name =
      if other = name then
        let file := (compiler.files.find? name).getD {}
        some { file with diagnostics := file.diagnostics ++ [diagnostic] }
      else compiler.files.find? name := by
  rw [addDiagnostic, Table.find?_insert]
  by_cases same : other = name
  · subst same
    simp only [if_true]
  · rw [if_neg same, if_neg (Ne.symm same)]

/-- A tree takes the place of the file; a diagnostic is put behind those of the file. -/
theorem find?_give (addition : Addition) :
    (compiler.give addition).files.find? name =
      match addition.tree? name, addition.diagnostic? name with
      | some tree, _ => some { tree := some tree }
      | none, some diagnostic =>
        let file := (compiler.files.find? name).getD {}
        some { file with diagnostics := file.diagnostics ++ [diagnostic] }
      | none, none => compiler.files.find? name := by
  cases addition with
  | tree other tree =>
    rw [give, find?_add, Addition.tree?]
    split <;> rfl
  | diagnostic other diagnostic =>
    rw [give, find?_addDiagnostic, Addition.diagnostic?]
    split <;> rfl
  | source other text =>
    rw [give, addSource, Addition.tree?, Addition.diagnostic?]
    cases Language.ofPath? ⟨other⟩ with
    | none => simp only [Option.bind_none, ite_self]
    | some language =>
      cases language
      cases SourceTree.ofText? text with
      | ok tree =>
        refine (find?_add compiler name other tree).trans ?_
        split <;> rfl
      | error error =>
        refine (find?_addDiagnostic compiler name other _).trans ?_
        split <;> rfl

/-- What has only been added has neither been checked nor written. -/
theorem unchecked_giveAll (additions : List Addition) {file : CompilerFile}
    (found : (new.giveAll additions).files.find? name = some file) :
    file.resolutions = none ∧ file.output = none := by
  suffices ∀ compiler : Compiler,
      (∀ file, compiler.files.find? name = some file → file.resolutions = none ∧ file.output = none) →
      ∀ file, (compiler.giveAll additions).files.find? name = some file →
        file.resolutions = none ∧ file.output = none from
    this new (fun _ unknown => nomatch unknown) file found
  clear found
  induction additions with
  | nil => exact fun _ fresh => fresh
  | cons addition additions ih =>
    intro compiler fresh
    refine ih (compiler.give addition) fun file found => ?_
    rw [find?_give] at found
    split at found
    · cases found
      exact ⟨rfl, rfl⟩
    · cases found
      cases known : compiler.files.find? name with
      | none => exact ⟨rfl, rfl⟩
      | some file => exact fresh file known
    · exact fresh file found

/-! ### Any order of requests -/

/-- What a check finds in a file. -/
def problemsOf : List Diagnostic :=
  (compiler.tree? name).elim [] fun tree => (tree.check name compiler.dictionary).diagnostics

/-- **Requests may come in any order.** Whatever a new compiler was given and
has been asked for, compiling all its files at last gives every file the
diagnostics and the JavaScript that it has when this is the only request. What
a check finds in a file is recorded once, when the file is checked. A file has
no JavaScript until a request compiles it, and then what compiling all files
gives. Once it is checked its diagnostics stay the same, and so does its
JavaScript but for the first request that compiles it. -/
theorem requests_in_any_order (additions : List Addition) (requests : List Request) :
    let compiler := new.giveAll additions
    let asked := compiler.askAll requests
    (∀ name, asked.compileAll.diagnosticsOf name = compiler.compileAll.diagnosticsOf name ∧
      asked.compileAll.output? name = compiler.compileAll.output? name) ∧
    (∀ name, asked.diagnosticsOf name = compiler.diagnosticsOf name ++
      if asked.isChecked name then compiler.problemsOf name else []) ∧
    (∀ name, asked.output? name =
      if requests.any (·.compiles name) then compiler.compileAll.output? name else none) ∧
    ∀ name later, asked.isChecked name = true →
      (asked.askAll later).diagnosticsOf name = asked.diagnosticsOf name ∧
      (asked.askAll later).output? name =
        if later.any (·.compiles name) then compiler.compileAll.output? name
        else asked.output? name := by
  intro compiler asked
  have file (name : String) : asked.files.find? name =
      (compiler.files.find? name).map (·.askAll name compiler.dictionary requests) :=
    find?_askAll compiler name requests
  refine ⟨fun name => ?_, fun name => ?_, fun name => ?_, fun name later checked => ?_⟩
  · have same : asked.compileAll.files.find? name = compiler.compileAll.files.find? name := by
      rw [find?_compileAll, find?_compileAll, file, Option.map_map, dictionary_askAll]
      exact congrArg (Option.map · _) (funext fun file => file.compile_askAll requests)
    exact ⟨by rw [diagnosticsOf, same, diagnosticsOf], by rw [output?, same, output?]⟩
  · simp only [diagnosticsOf, isChecked, problemsOf, tree?, file]
    cases found : compiler.files.find? name with
    | none => rfl
    | some file =>
      exact CompilerFile.diagnostics_askAll (unchecked_giveAll name additions found).1 requests
  · rw [output?, file, output?, find?_compileAll]
    cases found : compiler.files.find? name with
    | none => exact (ite_self none).symm
    | some file =>
      have unwritten : file.output = none := (unchecked_giveAll name additions found).2
      show (file.askAll name compiler.dictionary requests).output = if _ then _ else none
      rw [CompilerFile.askAll_eq]
      split
      · rfl
      · split
        · rw [CompilerFile.output_check, unwritten]
        · exact unwritten
  · cases found : compiler.files.find? name with
    | none =>
      rw [isChecked, file, found] at checked
      cases checked
    | some first =>
      let current := first.askAll name compiler.dictionary requests
      have here : asked.files.find? name = some current := by
        rw [file, found]
        rfl
      rw [isChecked, here] at checked
      have after : (asked.askAll later).files.find? name = some
          (if later.any (·.compiles name) then current.compile name compiler.dictionary
            else current) := by
        rw [find?_askAll, here, dictionary_askAll]
        exact congrArg some (CompilerFile.askAll_of_isSome checked later)
      have all : compiler.compileAll.files.find? name =
          some (current.compile name compiler.dictionary) := by
        rw [find?_compileAll, found, CompilerFile.compile_askAll]
        rfl
      rw [diagnosticsOf, after, diagnosticsOf, here, output?, after, output?, all, output?, here]
      split
      · refine ⟨?_, rfl⟩
        show (current.check name compiler.dictionary).emit.diagnostics = current.diagnostics
        rw [CompilerFile.diagnostics_emit, CompilerFile.check_of_isSome checked]
      · exact ⟨rfl, rfl⟩

/-- A source that can be compiled, one that cannot be read, and a file that is not there. -/
theorem requests_in_any_order_interleaved :
    let compiler := new.giveAll [.source "A.java" "class A \x7b \x7d", .source "B.java" "class",
      .diagnostic "A.java" (.plain .warning "A.java" 0 0 "" 0)]
    let asked := compiler.askAll [.compileFile "C.java", .checkAll, .compileFile "B.java"]
    asked.isChecked "A.java" = true ∧
    (asked.askAll [.compileAll, .checkAll]).diagnosticsOf "A.java" = asked.diagnosticsOf "A.java" ∧
    (asked.askAll [.compileAll, .checkAll]).output? "A.java" =
      compiler.compileAll.output? "A.java" := by
  intro compiler asked
  have checked : asked.isChecked "A.java" = true := by decide +kernel
  obtain ⟨_, _, _, later⟩ := requests_in_any_order
    [.source "A.java" "class A \x7b \x7d", .source "B.java" "class",
      .diagnostic "A.java" (.plain .warning "A.java" 0 0 "" 0)]
    [.compileFile "C.java", .checkAll, .compileFile "B.java"]
  exact ⟨checked, later "A.java" [.compileAll, .checkAll] checked⟩

/-- A check alone leaves a file without JavaScript, and compiling it later gives it some. -/
theorem output_changes_after_check :
    let checked := (new.giveAll [.source "A.java" "class A \x7b \x7d"]).askAll [.checkAll]
    checked.isChecked "A.java" = true ∧
      (checked.askAll [.compileAll]).output? "A.java" ≠ checked.output? "A.java" := by
  decide +kernel

end Compiler

/-! ### Files with errors -/

/-- Whether an action puts a new file in the place of a name, or removes it. -/
def Action.replaces (name : String) : Action → Bool
  | .give addition => (addition.tree? name).isSome
  | .ask _ => false
  | .reset => true

/-- Whether an action adds an error to a name, by itself and not by a check. -/
def Action.addsError (name : String) : Action → Bool
  | .give addition => (addition.diagnostic? name).any (·.isError)
  | .ask _ | .reset => false

namespace CompilerFile

variable {name : String} {dictionary : Dictionary} (file : CompilerFile)

/-- Whether a file has JavaScript although it has errors. -/
def isStale : Bool := file.output.isSome && file.hasErrors

/-- What has been written has been checked. -/
def IsSettled : Prop := file.output.isSome = true → file.resolutions.isSome = true

variable {file}

theorem IsSettled.check (settled : file.IsSettled) : (file.check name dictionary).IsSettled := by
  unfold CompilerFile.check
  split
  · exact fun _ => rfl
  · exact settled

theorem IsSettled.emit (settled : file.IsSettled) : file.emit.IsSettled := by
  unfold CompilerFile.emit
  split
  · next checked => exact fun _ => checked ▸ rfl
  · exact settled

theorem IsSettled.ask (settled : file.IsSettled) (request : Request) :
    (file.ask name dictionary request).IsSettled := by
  rw [ask_eq]
  split
  · exact settled.check.emit
  · split
    · exact settled.check
    · exact settled

theorem isStale_emit (file : CompilerFile) : file.emit.isStale = file.isStale := by
  cases errors : file.hasErrors with
  | true => rw [emit_of_hasErrors errors]
  | false =>
    have same : file.emit.hasErrors = file.hasErrors := by
      rw [hasErrors, diagnostics_emit, hasErrors]
    rw [isStale, same, isStale, errors, Bool.and_false, Bool.and_false]

theorem IsSettled.isStale_check (settled : file.IsSettled) :
    (file.check name dictionary).isStale = file.isStale := by
  cases written : file.output.isSome with
  | true => rw [check_of_isSome (settled written)]
  | false => rw [isStale, output_check, isStale, written, Bool.false_and, Bool.false_and]

/-- No request gives JavaScript to a file with errors, or errors to a file with JavaScript. -/
theorem IsSettled.isStale_ask (settled : file.IsSettled) (request : Request) :
    (file.ask name dictionary request).isStale = file.isStale := by
  rw [ask_eq]
  split
  · rw [compile, isStale_emit, settled.isStale_check]
  · split
    · exact settled.isStale_check
    · rfl

end CompilerFile

namespace Compiler

variable (compiler : Compiler) (name : String)

/-- Whether a compiler has JavaScript for a file with errors. -/
def isStale : Bool := (compiler.files.find? name).any (·.isStale)

/-- All that has been written has been checked. -/
def IsSettled : Prop := ∀ file ∈ compiler.files.find? name, file.IsSettled

theorem isStale_eq_true_iff : compiler.isStale name = true ↔
    (compiler.output? name).isSome = true ∧ compiler.errorsOf name ≠ [] := by
  rw [isStale, output?, errorsOf, diagnosticsOf]
  cases compiler.files.find? name with
  | none => simp
  | some file => simp [CompilerFile.isStale, CompilerFile.hasErrors]

variable {compiler name}

theorem IsSettled.perform (settled : compiler.IsSettled name) (action : Action) :
    (compiler.perform action).IsSettled name := by
  intro file found
  cases action with
  | reset => cases found
  | ask request =>
    rw [Compiler.perform, find?_ask] at found
    obtain ⟨first, known, rfl⟩ := Option.map_eq_some_iff.mp found
    exact (settled first known).ask request
  | give addition =>
    rw [Compiler.perform, find?_give] at found
    split at found
    · cases found
      exact nofun
    · cases found
      cases known : compiler.files.find? name with
      | none => exact nofun
      | some first => exact settled first known
    · exact settled file found

/-- A file has JavaScript and errors after an action if it had both and stays,
or if it had JavaScript and the action adds an error. -/
theorem IsSettled.isStale_perform (settled : compiler.IsSettled name) (action : Action) :
    (compiler.perform action).isStale name =
      (compiler.isStale name && !action.replaces name ||
        (compiler.output? name).isSome && action.addsError name) := by
  cases action with
  | reset => simp [Compiler.perform, isStale, new, Table.find?, Table.empty, Action.replaces, Action.addsError]
  | ask request =>
    rw [Compiler.perform, isStale, find?_ask, isStale]
    cases known : compiler.files.find? name with
    | none => simp [Action.addsError]
    | some first =>
      simp [Action.replaces, Action.addsError, (settled first known).isStale_ask]
  | give addition =>
    rw [Compiler.perform, isStale, find?_give, Action.replaces, Action.addsError, isStale, output?]
    cases replaced : addition.tree? name with
    | some tree =>
      rw [Addition.diagnostic?_of_tree? replaced]
      simp [CompilerFile.isStale]
    | none =>
      cases addition.diagnostic? name with
      | none => simp
      | some diagnostic =>
        cases compiler.files.find? name with
        | none => rfl
        | some file =>
          simp [CompilerFile.isStale, CompilerFile.hasErrors, Bool.and_or_distrib_left]

variable (name)

theorem isSettled_performAll (actions : List Action) : (new.performAll actions).IsSettled name := by
  induction actions using List.reverseRecOn with
  | nil => exact nofun
  | append_singleton actions action ih =>
    rw [performAll, List.foldl_append]
    exact ih.perform action

/-- **JavaScript is kept for a file with errors in one case only**: an error is
added to a file that has been compiled, be it by itself or since a new source
of the file cannot be read, and after that the file is neither replaced nor
forgotten. In every other compiler that can be reached a file that has
JavaScript has no errors. -/
theorem output_with_errors_iff (actions : List Action) :
    let compiler := new.performAll actions
    (compiler.output? name).isSome = true ∧ compiler.errorsOf name ≠ [] ↔
      ∃ before action after, actions = before ++ action :: after ∧
        ((new.performAll before).output? name).isSome = true ∧
        action.addsError name = true ∧
        ∀ later ∈ after, later.replaces name = false := by
  intro compiler
  rw [← isStale_eq_true_iff]
  induction actions using List.reverseRecOn with
  | nil => simp [compiler, performAll, isStale, new, Table.find?, Table.empty]
  | append_singleton actions action ih =>
    have step := (isSettled_performAll name actions).isStale_perform action
    have last : compiler = (new.performAll actions).perform action := List.foldl_append
    rw [last, step, Bool.or_eq_true, Bool.and_eq_true, Bool.and_eq_true, Bool.not_eq_true']
    constructor
    · rintro (⟨stale, kept⟩ | ⟨written, adds⟩)
      · obtain ⟨before, culprit, after, rfl, written, adds, later⟩ := ih.mp stale
        refine ⟨before, culprit, after ++ [action], by simp, written, adds, ?_⟩
        exact List.forall_mem_append.mpr ⟨later, List.forall_mem_singleton.mpr kept⟩
      · exact ⟨actions, action, [], rfl, written, adds, List.forall_mem_nil _⟩
    · rintro ⟨before, culprit, after, split, written, adds, later⟩
      obtain rfl | ⟨rest, final, rfl⟩ := List.eq_nil_or_concat' after
      · obtain ⟨rfl, same⟩ := List.append_inj' split rfl
        cases same
        exact .inr ⟨written, adds⟩
      · rw [List.forall_mem_append, List.forall_mem_singleton] at later
        rw [← List.cons_append, ← List.append_assoc] at split
        obtain ⟨rfl, same⟩ := List.append_inj' split rfl
        cases same
        exact .inl ⟨ih.mpr ⟨before, culprit, rest, rfl, written, adds, later.1⟩, later.2⟩

end Compiler
end Javascribe
