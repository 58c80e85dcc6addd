/-
# Classes of a module

The host has no nested classes: a class is written behind the classes nested in
it, with an empty line after each of them (`Emit.classDecl_eq`). So all classes
of a file are declared side by side in the module, under their own names. Two
of them clash where classes of one name are nested in different classes, though
their qualified names differ.

Key definitions: `Tree.PlacedClass`, `SourceTree.placedClasses`, `Layout.IsClass`.
Key theorems: `Emit.classDecl_eq`, `Emit.flatMap_classDecl_eq`,
`SourceTree.declared_nodup_iff`.
-/
import Javascribe.Construct.SourceFile
import Javascribe.Output.Module
import Javascribe.Proofs.Scanning
import Mathlib.Data.List.Forall2
import Mathlib.Data.List.Nodup

namespace Javascribe

namespace Tree

/-- A class with the names of the classes around it. -/
structure PlacedClass where
  enclosing : List String
  name : String
  deriving DecidableEq

/-- The name of a class with those of the classes around it. -/
def PlacedClass.qualifiedName (c : PlacedClass) : List String := c.enclosing ++ [c.name]

mutual

/-- The classes nested in a class, each behind those nested in it, and the class. -/
def ClassDecl.placed (enclosing : List String) : ClassDecl → List PlacedClass
  | ⟨_, name, _, _, _, _, members, _, _, _, _, _⟩ =>
    placedMembers (enclosing ++ [name]) members ++ [⟨enclosing, name⟩]

/-- The classes among members, with those nested in them. -/
def placedMembers (enclosing : List String) : List Member → List PlacedClass
  | [] => []
  | .classDecl c :: ms => c.placed enclosing ++ placedMembers enclosing ms
  | _ :: ms => placedMembers enclosing ms

end

end Tree

/-- The classes of a file, at the top and nested, in the order in which they are written. -/
def SourceTree.placedClasses (tree : SourceTree) : List Tree.PlacedClass :=
  tree.classes.flatMap (·.placed [])

/-- The document declares one class of this name, and then assigns to it only. -/
def Layout.IsClass (name : String) (document : Document) : Prop :=
  ∃ extended members methods nested fields initializers,
    document = classBody name extended members ++ staticSide name methods nested fields initializers

open Document (line)

/-- What stands between two classes. -/
def Layout.classGap : Document := line ++ line

theorem Document.separated_concat (separator d : Document) :
    ∀ ds : List Document, separated separator (ds ++ [d]) = ds.flatMap (· ++ separator) ++ d
  | [] => rfl
  | [_] => by simp [separated]
  | e :: f :: ds => by
    show e ++ separator ++ separated separator (f :: ds ++ [d]) = _
    rw [separated_concat separator d (f :: ds), List.flatMap_cons (x := e)]
    simp only [List.append_assoc]

namespace Emit

open Javascribe.Tree

variable (resolutions : Resolutions)

mutual

/-- A class is written behind the classes nested in it. -/
theorem classDecl_eq (enclosing : List String) : (c : ClassDecl) → ∃ ds d,
    classDecl resolutions c = ds.flatMap (· ++ Layout.classGap) ++ d ∧
      List.Forall₂ (fun placed d => Layout.IsClass placed.name d) (c.placed enclosing) (ds ++ [d])
  | ⟨_, name, _, _, _, _, members, _, _, _, _, _⟩ => by
    obtain ⟨ds, nested, all⟩ := nestedClasses_eq (enclosing ++ [name]) members
    rw [classDecl, nested, List.append_assoc, ClassDecl.placed]
    exact ⟨ds, _, rfl, List.rel_append all (.cons ⟨_, _, _, _, _, _, rfl⟩ .nil)⟩

theorem nestedClasses_eq (enclosing : List String) : (ms : List Member) → ∃ ds,
    nestedClasses resolutions ms = ds.flatMap (· ++ Layout.classGap) ∧
      List.Forall₂ (fun placed d => Layout.IsClass placed.name d) (placedMembers enclosing ms) ds
  | [] => ⟨[], rfl, .nil⟩
  | .classDecl c :: ms => by
    obtain ⟨ds, d, first, all⟩ := classDecl_eq enclosing c
    obtain ⟨ds', others, all'⟩ := nestedClasses_eq enclosing ms
    refine ⟨ds ++ [d] ++ ds', ?_, List.rel_append all all'⟩
    rw [nestedClasses, first, others]
    simp [Layout.classGap]
  | .field _ :: ms | .method _ :: ms | .interfaceDecl _ :: ms => nestedClasses_eq enclosing ms

end

/-- The classes of a module stand side by side. -/
theorem flatMap_classDecl_eq : ∀ cs : List ClassDecl, ∃ units : List (List Document),
    cs.flatMap (fun c => [.unit] ++ classDecl resolutions c) =
        units.flatMap (fun ds => [.unit] ++ Document.separated Layout.classGap ds) ∧
      List.Forall₂ (fun placed d => Layout.IsClass placed.name d) (cs.flatMap (·.placed []))
        units.flatten
  | [] => ⟨[], rfl, .nil⟩
  | c :: cs => by
    obtain ⟨ds, d, first, all⟩ := classDecl_eq resolutions [] c
    obtain ⟨units, others, all'⟩ := flatMap_classDecl_eq cs
    refine ⟨(ds ++ [d]) :: units, ?_, List.rel_append all all'⟩
    rw [List.flatMap_cons, List.flatMap_cons, first, others, Document.separated_concat]

end Emit

namespace SourceTree

open Javascribe.Tree

/-- **Classes clash by their own names.** The classes of a file, nested ones
included, are declared side by side in its module, each under its own name.
When their qualified names are distinct, the declared names are distinct if and
only if no two classes of one name are nested in different classes. -/
theorem declared_nodup_iff (tree : SourceTree) (resolutions : Resolutions)
    (distinct : (tree.placedClasses.map (·.qualifiedName)).Nodup) :
    (∃ units : List (List Document),
      Emit.file resolutions tree = tree.imports.flatMap Emit.importDecl
          ++ units.flatMap (fun ds => [.unit] ++ Document.separated Layout.classGap ds)
          ++ (Emit.exported? tree).elim []
            (fun c => [.unit, .text ("module.exports = " ++ c.name ++ ";")]) ∧
        List.Forall₂ (fun placed d => Layout.IsClass placed.name d) tree.placedClasses
          units.flatten) ∧
      ((tree.placedClasses.map (·.name)).Nodup ↔
        ∀ c ∈ tree.placedClasses, ∀ c' ∈ tree.placedClasses,
          c.name = c'.name → c.enclosing = c'.enclosing) := by
  constructor
  · obtain ⟨units, classes, all⟩ := Emit.flatMap_classDecl_eq resolutions tree.classes
    refine ⟨units, ?_, all⟩
    rw [Emit.file, classes]
    cases Emit.exported? tree <;> rfl
  · refine ⟨fun apart c mem c' mem' same => ?_, fun placed => ?_⟩
    · rw [List.inj_on_of_nodup_map apart mem mem' same]
    · refine List.pairwise_map.mpr ((List.pairwise_map.mp distinct).imp_of_mem ?_)
      intro c c' mem mem' other same
      refine other ?_
      rw [PlacedClass.qualifiedName, placed c mem c' mem' same, same]
      rfl

/-- Two classes of one name in different classes. -/
theorem declared_nodup_iff_clash :
    ∃ tree, ofText? "class A \x7b class X \x7b \x7d \x7d class B \x7b class X \x7b \x7d \x7d" = .ok tree ∧
      (tree.placedClasses.map (·.qualifiedName)).Nodup ∧
      ¬(tree.placedClasses.map (·.name)).Nodup := by
  obtain ⟨tree, accepted, classes⟩ := exists_ok
    (ofText? "class A \x7b class X \x7b \x7d \x7d class B \x7b class X \x7b \x7d \x7d")
    (·.placedClasses = [⟨["A"], "X"⟩, ⟨[], "A"⟩, ⟨["B"], "X"⟩, ⟨[], "B"⟩]) (by decide +kernel)
  have distinct : (tree.placedClasses.map (·.qualifiedName)).Nodup := by
    rw [classes]
    decide
  refine ⟨tree, accepted, distinct, fun apart => ?_⟩
  have placed := (declared_nodup_iff tree {} distinct).2.mp apart
  rw [classes] at placed
  exact absurd (placed ⟨["A"], "X"⟩ (by decide) ⟨["B"], "X"⟩ (by decide) rfl) (by decide)

end SourceTree
end Javascribe
