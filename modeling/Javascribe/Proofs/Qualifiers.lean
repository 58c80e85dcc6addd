/-
# What `this` means in front of a bare name

The check of a file notes for a bare name what it has to be qualified with.
Where that is `this`, the name means an instance member of the innermost
enclosing object that answers for the name, and not always one of the
innermost object of all: among the members of a nested type a member of an
outer type is found too, and is noted in the same way. So `this` denotes an
object that has the member exactly where the innermost object answers for the
name itself (`SourceTree.check_this`).

Key theorems: `SourceTree.takes_of_check`, `SourceTree.check_this`.
-/
import Javascribe.Proofs.CheckFrame

namespace Javascribe

open Javascribe.Tree Javascribe.Checker

/-! ### Files -/

namespace Check

/-- The blocks of what stands at the top of a file. -/
def itemBodies : TopLevel → List (List Statement)
  | .importDecl _ => []
  | .classDecl c => c.bodies
  | .interfaceDecl i => i.bodies

theorem meets_item {f : Frame} (item : TopLevel) (hC : f.Covers (itemBodies item) (item.uses f.env)) :
    Meets f {} .normal (Check.item item) := by
  cases item with
  | importDecl i => exact (plain_checkImport i).meets.attempt
  | classDecl c => exact meets_classDecl c hC
  | interfaceDecl i => exact meets_interfaceDecl i hC

theorem meets_items (env : Environment) (file : File) :
    Meets ⟨env, file.items.flatMap itemBodies, file.uses env⟩ {} .normal
      (file.items.forM Check.item) :=
  Meets.forM fun item mem => meets_item item ⟨fun _ inside => List.mem_flatMap_of_mem mem inside,
    fun _ inside => List.mem_flatMap_of_mem mem inside⟩

/-- What is said of a missing package changes nothing that matters to the rest. -/
theorem file_eq (file : File) (env : Environment) :
    ∃ context : Context, context.place = {} ∧ context.resolutions = {} ∧
      Check.file file env {} = file.items.forM Check.item env context := by
  obtain ⟨_ | package, items⟩ := file <;> exact ⟨_, rfl, rfl, rfl⟩

end Check

namespace SourceTree

/-- Every qualifier that the check of a file notes is that of a bare name of the file. -/
theorem takes_of_check {file : String} {tree : SourceTree} {d : Dictionary} {token : Nat}
    {qualifier : String}
    (noted : (tree.check file d).resolutions.qualifier? token = some qualifier) :
    Use.Takes d (tree.uses file d) token qualifier := by
  obtain ⟨context, place, none, run⟩ := Check.file_eq tree.toFile (.ofTree file tree d)
  have gains := Check.meets_items (.ofTree file tree d) tree.toFile context place
  unfold SourceTree.check at noted
  rw [run] at noted
  cases items : tree.toFile.items.forM Check.item (.ofTree file tree d) context <;>
    simp only [items] at gains noted
  all_goals
    obtain before | takes := gains.1.qualifiers token qualifier noted
    · rw [none] at before
      cases before
    · exact takes

/-- Where `this` is noted for a token, a bare name stands there that means a
member to be qualified with `this`. Whatever instance member that name means,
it is found through the innermost enclosing object that answers for the name,
and it belongs to the innermost object of all, as its own or inherited, if and
only if that object answers for the name. For a call the one direction needs
that the object of the member declares the name that is called: a member can
also have the very name under which an overload of another object is stored. -/
theorem check_this {files : List (FileNamespace × SourceTree)} {file : String}
    {tree : SourceTree} {token : Nat}
    (noted : (tree.check file (.ofFiles files)).resolutions.qualifier? token = some "this") :
    let d := Dictionary.ofFiles files
    ∃ use ∈ tree.uses file d, use.token = token ∧
      (∃ member, use.Finds d member ∧ d.qualifier member = "this") ∧
      ∀ member, use.Finds d member → member.isStatic = false → ∃ innermost through,
        use.objects.head? = some innermost ∧
        use.objects.find? (use.answeredBy d) = some through ∧
        member.parent ∈ d.ancestry through ∧
        (use.answeredBy d innermost = true → member.parent ∈ d.ancestry innermost) ∧
        (use.kind = .value ∨ use.declaredBy d member.parent = true →
          (member.parent ∈ d.ancestry innermost ↔ use.answeredBy d innermost = true)) := by
  intro d
  have wellFormed : d.WellFormed := Dictionary.wellFormed_ofFiles files
  obtain ⟨use, mem, found, here, finds, qualifier⟩ := takes_of_check noted
  refine ⟨use, mem, here, ⟨found, finds, qualifier⟩, fun member finds isInstance => ?_⟩
  obtain ⟨through, first, declared⟩ := finds.exists_through wellFormed isInstance
  obtain ⟨innermost, outer, objects⟩ : ∃ innermost outer, use.objects = innermost :: outer := by
    refine List.exists_cons_of_ne_nil fun none => ?_
    rw [none] at first
    cases first
  have own (answers : use.answeredBy d innermost = true) :
      member.parent ∈ d.ancestry innermost := by
    rw [objects, List.find?_cons_of_pos answers] at first
    exact Option.some.inj first ▸ declared
  refine ⟨innermost, through, by rw [objects]; rfl, first, declared, own, fun byName => ?_⟩
  refine ⟨fun inherited => ?_, own⟩
  have declares : use.declaredBy d member.parent = true :=
    byName.elim (finds.declaredBy_of_value wellFormed) id
  exact List.any_eq_true.mpr ⟨member.parent, inherited, declares⟩

/-- A static class inside of `A` reads a field of `A`, without an error. -/
theorem check_this_nested :
    let result : Statement := ⟨some (.reference ⟨"x", 7⟩), none, none, false, none, [], 7⟩
    let body : Block :=
      ⟨[⟨some (.instruction ⟨.returns, some result, 6⟩), none, none, false, none, [], 6⟩], 5⟩
    let g : Member :=
      .method ⟨{}, [], some (.named "int" 0), "g", [], [], some body, [], false, 4⟩
    let nested : ClassDecl :=
      ⟨{ isStatic := true }, "B", [], [], [], [], [g], [], [], [], false, 3⟩
    let x : Member := .field ⟨{}, .named "int" 0, "x", none, [], 1⟩
    let outer : ClassDecl :=
      ⟨{}, "A", [], [], [], [], [x, .classDecl nested], [], [], [], false, 0⟩
    let tree : SourceTree :=
      { package := some ⟨["p"], 0⟩, items := [.classDecl outer], tokens := .link [] 1 "" }
    let d := Dictionary.ofFiles [(.ofTree "A.java" tree, tree)]
    let use : Use := ⟨.value, "x", 7, [3, 2]⟩
    (tree.check "A.java" d).errors = [] ∧
      (tree.check "A.java" d).resolutions.qualifier? 7 = some "this" ∧
      tree.uses "A.java" d = [use] ∧
      ∃ member, use.Finds d member ∧ member.isStatic = false ∧ member.parent ∉ d.ancestry 3 := by
  intro result body g nested x outer tree d use
  have noted : (tree.check "A.java" d).resolutions.qualifier? 7 = some "this" := by decide +kernel
  have uses : tree.uses "A.java" d = [use] := by decide +kernel
  have silent : use.answeredBy d 3 = false := by decide +kernel
  obtain ⟨found, mem, _, ⟨member, finds, _⟩, meaning⟩ := check_this noted
  rw [uses, List.mem_singleton] at mem
  subst mem
  have isInstance : member.isStatic = false := by
    have found : use.objects.findSome? (d.member? · "x") = some member := finds
    have instances : (use.objects.findSome? (d.member? · "x")).all (!·.isStatic) = true := by
      decide +kernel
    rw [found] at instances
    simpa using instances
  obtain ⟨innermost, _, isHead, _, _, _, exactly⟩ := meaning member finds isInstance
  obtain rfl : 3 = innermost := Option.some.inj isHead
  refine ⟨by decide +kernel, noted, uses, member, finds, isInstance, fun inherited => ?_⟩
  rw [(exactly (.inl rfl)).mp inherited] at silent
  cases silent

end SourceTree
end Javascribe
