/-
# What a `try` catches

The host has one `catch` for each `try`. One clause becomes this `catch`
itself; several become a chain of tests in it, up to the first clause that
catches everything, or with what no clause catches thrown again at its end
(`HostCatch`).

A value is for a clause by the types it is an instance of. The tests ask for
classes of the host, and the host has one class for some types of the library
(`hostPath_eq_iff`). So a chain runs the first clause that catches the value if
what is tested for names all the types that share a class
(`Tree.TellsApart`). A single clause is not tested for: it runs for every value,
also for those that it does not catch.

Key definitions: `Thrown`, `SharesClass`, `Tree.CatchClause`, `Handling`,
`HostCatch`.
Key theorems: `hostPath_eq_iff`, `Tree.find?_admits_iff`,
`Handling.outcome_ofClauses`, `Handling.document_ofClauses`,
`Tree.TryCatch.selects_iff`.
-/
import Javascribe.Output.Emit
import Javascribe.Proofs.Reading

namespace Javascribe

open Javascribe.Tree
open Document (text texts line)

/-! ### Types of thrown values -/

/-- The names of a type without its package: from the first capitalized one on,
or all. -/
def ownNames (names : List String) : List String :=
  match names.dropWhile (!isCapitalized ·) with
  | [] => names
  | own => own

/-- The classes of the host that stand for several types of the library. -/
def sharedClasses : List (String × List String) :=
  [("Error", ["Exception", "RuntimeException", "Throwable", "Error", "IllegalArgumentException",
      "IllegalStateException"]),
    ("Number", ["Integer", "Long", "Short", "Byte", "Double", "Float", "Number"]),
    ("String", ["Character", "String"])]

/-- The host has one class for two types, given by their own names. -/
def SharesClass (names others : List String) : Prop :=
  names = others ∨ ∃ shared ∈ sharedClasses, ∃ name ∈ shared.2, ∃ other ∈ shared.2,
    names = [name] ∧ others = [other]

/-- The class of the host for a type of one name. -/
def hostClass (name : String) : String :=
  ((sharedClasses.find? (·.2.contains name)).map (·.1)).getD name

/-- The class of the host for a type, with the classes around it. -/
def hostPath : List String → List String
  | [name] => [hostClass name]
  | names => names

theorem typeNamesOf_eq_ownNames (names : List String) : typeNamesOf names = ownNames names := by
  have dropped : ∀ names : List String, names.dropWhile (!isCapitalized ·) =
      (names.findIdx? isCapitalized).elim [] names.drop := by
    intro names
    induction names with
    | nil => rfl
    | cons name names ih =>
      rw [List.findIdx?_cons, List.dropWhile_cons]
      cases isCapitalized name with
      | true => rfl
      | false => cases found : names.findIdx? isCapitalized <;> simpa [found] using ih
  rw [typeNamesOf, ownNames, dropped]
  cases found : names.findIdx? isCapitalized with
  | none => rfl
  | some index =>
    obtain ⟨lt, -⟩ := List.findIdx?_eq_some_iff_getElem.mp found
    simp only [Option.elim_some]
    split
    · next none => exact absurd (List.drop_eq_nil_iff.mp none) (Nat.not_le.mpr lt)
    · rfl

theorem hostTypeName_eq_hostClass (name : String) : hostTypeName name = hostClass name := by
  cases found : sharedClasses.find? (·.2.contains name) with
  | none =>
    have others := List.find?_eq_none.mp found
    rw [hostClass, found]
    simp [sharedClasses] at others
    simp [hostTypeName, others]
  | some shared =>
    have all : ∀ shared ∈ sharedClasses, ∀ name ∈ shared.2, hostTypeName name = shared.1 := by decide
    rw [hostClass, found]
    exact all shared (List.mem_of_find?_eq_some found) name (by simpa using List.find?_some found)

theorem TypeRef.hostName_eq (type : TypeRef) :
    type.hostName = ".".intercalate (hostPath (ownNames type.names)) := by
  rw [hostName, typeNamesOf_eq_ownNames]
  obtain _ | ⟨name, _ | ⟨second, rest⟩⟩ := ownNames type.names
  · rfl
  · exact (hostTypeName_eq_hostClass name).trans String.intercalate_singleton.symm
  · rfl

/-- Two names have one class only if it is shared. -/
theorem hostClass_eq_iff {name other : String} : hostClass name = hostClass other ↔
    name = other ∨ ∃ shared ∈ sharedClasses, name ∈ shared.2 ∧ other ∈ shared.2 := by
  have isShared (name : String) : hostClass name = name ∨
      ∃ shared ∈ sharedClasses, name ∈ shared.2 ∧ hostClass name = shared.1 := by
    unfold hostClass
    cases found : sharedClasses.find? (·.2.contains name) with
    | none => exact .inl rfl
    | some shared =>
      exact .inr ⟨shared, List.mem_of_find?_eq_some found, by simpa using List.find?_some found, rfl⟩
  have named : ∀ shared ∈ sharedClasses, shared.1 ∈ shared.2 := by decide
  have distinct : ∀ shared ∈ sharedClasses, ∀ shared' ∈ sharedClasses,
      shared.1 = shared'.1 → shared = shared' := by decide
  have class_eq : ∀ shared ∈ sharedClasses, ∀ name ∈ shared.2, hostClass name = shared.1 := by decide
  constructor
  · intro same
    rcases isShared name with own | ⟨shared, mem, isName, hName⟩ <;>
      rcases isShared other with own' | ⟨shared', mem', isOther, hOther⟩
    · exact .inl (own.symm.trans (same.trans own'))
    · exact .inr ⟨shared', mem', own.symm.trans (same.trans hOther) ▸ named shared' mem', isOther⟩
    · exact .inr ⟨shared, mem, isName, own'.symm.trans (same.symm.trans hName) ▸ named shared mem⟩
    · obtain rfl := distinct shared mem shared' mem' (hName.symm.trans (same.trans hOther))
      exact .inr ⟨shared, mem, isName, isOther⟩
  · rintro (rfl | ⟨shared, mem, isName, isOther⟩)
    · rfl
    · rw [class_eq shared mem name isName, class_eq shared mem other isOther]

/-- The host tells types apart but for those of the library that share a class. -/
theorem hostPath_eq_iff {names others : List String} :
    hostPath names = hostPath others ↔ SharesClass names others := by
  unfold hostPath SharesClass
  split <;> split
  · simp [hostClass_eq_iff]
  · grind
  · grind
  · grind

/-- A value that is thrown: the own names of the types it is an instance of. Types
that differ in their packages only are not told apart. -/
structure Thrown where
  types : List (List String)

namespace Thrown

/-- Whether the value is an instance of a type. -/
def isInstance (thrown : Thrown) (type : TypeRef) : Bool :=
  thrown.types.contains (ownNames type.names)

/-- Whether the value is an instance of a class of the host: of one that stands for
a type of the value. -/
def isHostInstance (thrown : Thrown) (path : List String) : Bool :=
  thrown.types.any (hostPath · == path)

end Thrown

namespace Tree

/-- A catch clause. -/
structure CatchClause where
  types : List TypeRef
  name : Reference
  block : Block

namespace CatchClause

/-- Whether one of the types of the clause is one that catches everything. -/
def catchesAll (clause : CatchClause) : Bool :=
  clause.types.any (["Exception", "Throwable", "RuntimeException", "Error"].contains ·.name)

/-- Whether the clause is for a value. -/
def catches (thrown : Thrown) (clause : CatchClause) : Bool :=
  clause.catchesAll || clause.types.any thrown.isInstance

/-- Whether a value passes the test for the types of the clause. -/
def passes (thrown : Thrown) (clause : CatchClause) : Bool :=
  clause.types.any fun type => thrown.isHostInstance (hostPath (ownNames type.names))

/-- Whether the clause of a chain runs for a value if no clause before it does. -/
def admits (thrown : Thrown) (clause : CatchClause) : Bool :=
  clause.catchesAll || clause.passes thrown

theorem admits_of_catches {thrown : Thrown} {clause : CatchClause}
    (h : clause.catches thrown = true) : clause.admits thrown = true := by
  rcases Bool.or_eq_true_iff.mp h with all | some
  · rw [admits, all, Bool.true_or]
  · obtain ⟨type, mem, isInstance⟩ := List.any_eq_true.mp some
    refine Bool.or_eq_true_iff.mpr (.inr (List.any_eq_true.mpr ⟨type, mem, ?_⟩))
    exact List.any_eq_true.mpr ⟨_, List.contains_iff_mem.mp isInstance, beq_self_eq_true _⟩

end CatchClause

/-- Where a clause is tested for, it names every type with the class of one of
its types, or a clause before it does. -/
def TellsApart (clauses : List CatchClause) : Prop :=
  ∀ before clause after, clauses = before ++ clause :: after →
    (before ++ [clause]).any (·.catchesAll) = false →
    ∀ type ∈ clause.types, ∀ names, SharesClass (ownNames type.names) names →
      ∃ other ∈ before ++ [clause], ∃ named ∈ other.types, ownNames named.names = names

/-- The first clause that admits a value is for the value. -/
theorem TellsApart.catches_of_admits {before after : List CatchClause} {clause : CatchClause}
    (h : TellsApart (before ++ clause :: after)) {thrown : Thrown}
    (admits : clause.admits thrown = true)
    (earlier : ∀ other ∈ before, ¬ other.admits thrown = true) : clause.catches thrown = true := by
  cases all : clause.catchesAll with
  | true => rw [CatchClause.catches, all, Bool.true_or]
  | false =>
    rw [CatchClause.admits, all, Bool.false_or] at admits
    have noneAll : (before ++ [clause]).any (·.catchesAll) = false := by
      rw [List.any_append, List.any_cons, List.any_nil, all, Bool.or_false, Bool.or_false]
      exact List.any_eq_false.mpr fun other isBefore catchesAll =>
        earlier other isBefore (Bool.or_eq_true_iff.mpr (.inl catchesAll))
    obtain ⟨type, mem, isInstance⟩ := List.any_eq_true.mp admits
    obtain ⟨names, ofValue, same⟩ := List.any_eq_true.mp isInstance
    obtain ⟨other, isOther, named, mem', rfl⟩ := h before clause after rfl noneAll type mem names
      (hostPath_eq_iff.mp (beq_iff_eq.mp same).symm)
    have catches : other.catches thrown = true := Bool.or_eq_true_iff.mpr
      (.inr (List.any_eq_true.mpr ⟨named, mem', List.contains_iff_mem.mpr ofValue⟩))
    rcases List.mem_append.mp isOther with isBefore | isClause
    · exact absurd (CatchClause.admits_of_catches catches) (earlier other isBefore)
    · rwa [List.mem_singleton.mp isClause] at catches

/-- The first clause that admits a value is the first that is for the value, for
all values, if and only if the types are told apart. -/
theorem find?_admits_iff (clauses : List CatchClause) :
    (∀ thrown, clauses.find? (·.admits thrown) = clauses.find? (·.catches thrown)) ↔
      TellsApart clauses := by
  constructor
  · rintro h before clause after rfl noneAll type mem names shares
    -- the clause admits a value of this one type
    have passes : clause.passes ⟨[names]⟩ = true := by
      refine List.any_eq_true.mpr ⟨type, mem, ?_⟩
      exact List.any_eq_true.mpr ⟨names, List.mem_singleton_self _,
        beq_iff_eq.mpr (hostPath_eq_iff.mpr shares).symm⟩
    obtain ⟨first, found⟩ : ∃ first, (before ++ [clause]).find? (·.admits ⟨[names]⟩) = some first :=
      Option.isSome_iff_exists.mp (List.find?_isSome.mpr
        ⟨clause, by simp, by simp [CatchClause.admits, passes]⟩)
    have right := h ⟨[names]⟩
    rw [List.append_cons, List.find?_append, found, Option.some_or] at right
    have isFirst := List.mem_of_find?_eq_some found
    have catches : first.catches ⟨[names]⟩ = true := List.find?_some right.symm
    rcases Bool.or_eq_true_iff.mp catches with all | one
    · exact absurd all (List.any_eq_false.mp noneAll first isFirst)
    · obtain ⟨named, mem, isInstance⟩ := List.any_eq_true.mp one
      exact ⟨first, isFirst, named, mem, List.mem_singleton.mp (List.contains_iff_mem.mp isInstance)⟩
  · intro tells thrown
    cases found : clauses.find? (·.admits thrown) with
    | none =>
      refine (List.find?_eq_none.mpr fun clause mem catches => ?_).symm
      exact List.find?_eq_none.mp found clause mem (CatchClause.admits_of_catches catches)
    | some clause =>
      obtain ⟨admits, before, after, rfl, earlier⟩ := List.find?_eq_some_iff_append.mp found
      have noneBefore : ∀ other ∈ before, ¬ other.admits thrown = true :=
        fun other isBefore => by simpa using earlier other isBefore
      refine (List.find?_eq_some_iff_append.mpr ⟨tells.catches_of_admits admits noneBefore,
        before, after, rfl, fun other isBefore => ?_⟩).symm
      have other_ne : ¬ other.catches thrown = true :=
        fun catches => noneBefore other isBefore (CatchClause.admits_of_catches catches)
      simpa using other_ne

/-- The clauses of a `try`. -/
def TryCatch.clauses (t : TryCatch) : List CatchClause :=
  (t.exceptionTypes.zip (t.exceptionNames.zip t.catchBlocks)).map
    fun (types, name, block) => ⟨types, name, block⟩

/-- The clauses are all that a `try` in shape has of types, names and blocks. -/
theorem TryCatch.HasShape.clauses {t : TryCatch} (h : t.HasShape) :
    t.clauses.map (·.types) = t.exceptionTypes ∧ t.clauses.map (·.name) = t.exceptionNames ∧
      t.clauses.map (·.block) = t.catchBlocks := by
  have names := h.names
  have blocks := h.blocks
  have pairs : (t.exceptionNames.zip t.catchBlocks).length = t.exceptionTypes.length := by
    rw [List.length_zip, names, blocks, Nat.min_self]
  rw [TryCatch.clauses, List.map_map, List.map_map, List.map_map]
  refine ⟨List.map_fst_zip (by omega), ?_, ?_⟩
  · show List.map (Prod.fst ∘ Prod.snd) _ = _
    rw [← List.map_map, List.map_snd_zip (by omega), List.map_fst_zip (by omega)]
  · show List.map (Prod.snd ∘ Prod.snd) _ = _
    rw [← List.map_map, List.map_snd_zip (by omega), List.map_snd_zip (by omega)]

end Tree

/-! ### Chains of tests -/

/-- What is done with a value that was thrown: a clause runs, the value is thrown
again, or a clause runs if the value is an instance of one of its types. -/
inductive Handling where
  | run (clause : CatchClause)
  | rethrow
  | test (clause : CatchClause) (otherwise : Handling)

namespace Handling

/-- The clause that runs for a value; none if the value is thrown again. -/
def outcome (thrown : Thrown) : Handling → Option CatchClause
  | .run clause => some clause
  | .rethrow => none
  | .test clause otherwise =>
    if clause.passes thrown then some clause else otherwise.outcome thrown

/-- How it is written. -/
def document (resolutions : Resolutions) : Handling → Document
  | .run clause => body clause
  | .rethrow => braces (text "throw error;" ++ line)
  | .test clause otherwise =>
    text "if (" ++ Document.separated (text " || ") (clause.types.map fun type =>
        texts ["error instanceof ", ".".intercalate (hostPath (ownNames type.names))])
      ++ text ") " ++ body clause ++ text " else " ++ otherwise.document resolutions
where
  braces (lines : Document) : Document :=
    text "\x7b" ++ line ++ Document.indented lines ++ text "\x7d"
  body (clause : CatchClause) : Document :=
    braces ((if clause.name.name == "error" then []
      else text ("let " ++ clause.name.name ++ " = error;") ++ line)
      ++ Emit.blockLines resolutions clause.block)

/-- The clauses are tried in order, up to one that catches everything. -/
def ofClauses : List CatchClause → Handling
  | [] => .rethrow
  | clause :: clauses => if clause.catchesAll then .run clause else .test clause (ofClauses clauses)

/-- In a chain the first clause runs that admits the value. -/
theorem outcome_ofClauses (thrown : Thrown) : ∀ clauses : List CatchClause,
    (ofClauses clauses).outcome thrown = clauses.find? (·.admits thrown)
  | [] => rfl
  | clause :: clauses => by
    rw [ofClauses, List.find?_cons, CatchClause.admits]
    cases clause.catchesAll with
    | true => rfl
    | false =>
      rw [if_neg Bool.false_ne_true, outcome, outcome_ofClauses thrown clauses, Bool.false_or]
      cases clause.passes thrown <;> rfl

/-- A chain is written as the tests say, when every clause has a type. -/
theorem document_ofClauses (resolutions : Resolutions) : ∀ clauses : List CatchClause,
    (∀ clause ∈ clauses, clause.types ≠ []) →
      Layout.clauseChain (clauses.map (·.types)) (clauses.map (·.name))
          (Emit.linesOfBlocks resolutions (clauses.map (·.block))) =
        (ofClauses clauses).document resolutions
  | [], _ => rfl
  | clause :: clauses, h => by
    obtain ⟨hasType, others⟩ := List.forall_mem_cons.mp h
    have same : Layout.catchesAll clause.types = clause.catchesAll := by
      rw [Layout.catchesAll, List.isEmpty_eq_false_iff.mpr hasType]
      rfl
    simp only [List.map_cons, Emit.linesOfBlocks, Layout.clauseChain, List.head?_cons, Option.getD_some,
      List.tail_cons, same, ofClauses, document_ofClauses resolutions clauses others,
      Layout.caughtTypes, TypeRef.hostName_eq]
    split <;> rfl

end Handling

/-- The one `catch` that the host has: a clause, or a chain of tests. -/
inductive HostCatch where
  | single (clause : CatchClause)
  | chain (handling : Handling)

namespace HostCatch

/-- The clause that runs for a value; none if the value is thrown again. -/
def outcome (thrown : Thrown) : HostCatch → Option CatchClause
  | .single clause => some clause
  | .chain handling => handling.outcome thrown

/-- How it is written. -/
def document (resolutions : Resolutions) : HostCatch → Document
  | .single clause =>
    texts [" catch (", clause.name.name, ") "] ++ Emit.block resolutions clause.block
  | .chain handling =>
    text " catch (error) " ++ Handling.document.braces (handling.document resolutions ++ line)

/-- What a number of clauses becomes. -/
def ofClauses : List CatchClause → HostCatch
  | [clause] => .single clause
  | clauses => .chain (.ofClauses clauses)

/-- The right clause runs for every value, unless there is a single clause that does
not catch everything, or a test does not tell types apart. -/
theorem outcome_ofClauses_iff (clauses : List CatchClause) :
    (∀ thrown, (ofClauses clauses).outcome thrown = clauses.find? (·.catches thrown)) ↔
      (clauses.length = 1 → clauses.any (·.catchesAll) = true) ∧ TellsApart clauses := by
  have several (chain : ofClauses clauses = .chain (.ofClauses clauses)) (other : clauses.length ≠ 1) :
      (∀ thrown, (ofClauses clauses).outcome thrown = clauses.find? (·.catches thrown)) ↔
        (clauses.length = 1 → clauses.any (·.catchesAll) = true) ∧ TellsApart clauses := by
    rw [chain, ← find?_admits_iff]
    simp only [outcome, Handling.outcome_ofClauses, other, false_implies, true_and]
  obtain _ | ⟨clause, _ | ⟨second, rest⟩⟩ := clauses
  · exact several rfl (by simp)
  · have found (thrown : Thrown) : [clause].find? (·.catches thrown) =
        if clause.catches thrown then some clause else none := List.find?_singleton
    simp only [ofClauses, outcome, found, List.length_singleton, List.any_cons, List.any_nil,
      Bool.or_false, forall_const]
    refine ⟨fun h => ?_, ?_⟩
    · -- a value that is an instance of nothing
      have alien := h ⟨[]⟩
      have all : clause.catchesAll = true := by
        cases all : clause.catchesAll with
        | true => rfl
        | false => simp [CatchClause.catches, Thrown.isInstance, all] at alien
      refine ⟨all, fun before other after same noneAll => ?_⟩
      have isOther : other ∈ [clause] := same ▸ List.mem_append_right _ List.mem_cons_self
      rw [List.mem_singleton.mp isOther, List.any_append, List.any_cons, all, Bool.true_or,
        Bool.or_true] at noneAll
      cases noneAll
    · rintro ⟨all, -⟩ thrown
      rw [CatchClause.catches, all, Bool.true_or, if_pos rfl]
  · exact several rfl (by simp)

/-- The host has one class for two exceptions of the library: what only one of them
is named for is run for the other. -/
example (e : Reference) (b : Block) :
    let clauses : List CatchClause := [⟨[.named "IllegalArgumentException" 0], e, b⟩,
      ⟨[.named "IOException" 0], e, b⟩]
    ((ofClauses clauses).outcome ⟨[["Exception"]]⟩).isSome = true ∧
      (clauses.find? (·.catches ⟨[["Exception"]]⟩)).isSome = false :=
  ⟨rfl, rfl⟩

end HostCatch

/-- A `try` with clauses is written with the one `catch` they become. -/
theorem Emit.node_tryCatch (resolutions : Resolutions) {t : TryCatch} (h : t.HasShape)
    (caught : t.catchBlocks ≠ []) :
    Emit.node resolutions (.tryCatch t) = text "try " ++ Emit.block resolutions t.block
      ++ (HostCatch.ofClauses t.clauses).document resolutions
      ++ t.finallyBlock.elim [] (text " finally " ++ Emit.block resolutions ·) := by
  obtain ⟨types, names, blocks⟩ := h.clauses
  have hasTypes : ∀ clause ∈ t.clauses, clause.types ≠ [] := fun clause mem =>
    h.types _ (types ▸ List.mem_map_of_mem mem)
  have clauses : Layout.catchClauses t.exceptionTypes t.exceptionNames
      (Emit.blocks resolutions t.catchBlocks) (Emit.linesOfBlocks resolutions t.catchBlocks) =
      (HostCatch.ofClauses t.clauses).document resolutions := by
    rw [← types, ← names, ← blocks]
    rw [← blocks] at caught
    generalize t.clauses = clauses at caught hasTypes
    obtain _ | ⟨first, _ | ⟨second, rest⟩⟩ := clauses
    · exact absurd rfl caught
    · rfl
    · rw [HostCatch.ofClauses, HostCatch.document, ← Handling.document_ofClauses resolutions _ hasTypes]
      · rfl
      · simp
  obtain ⟨block, _, _, _, finallyBlock, _⟩ := t
  rw [Emit.node, ← clauses]
  cases finallyBlock <;> rfl

/-! ### Clauses that are read -/

namespace Tree.TryCatch

variable {T : TokenStream} {source : String} {before after : Cursor} {levels : Nat} {t : TryCatch}

theorem hasShape_of_parseAt (scanned : scan source = .ok T) (tokens : before.tokens = T)
    (inside : before.current ≤ T.eof) (trivia : ∀ t ∈ before.trivia, t = .comment)
    (enough : maxParserDepth ≤ before.depth + levels)
    (accepted : parseAt (levels + 1) .tryCatch before = .ok t after) : t.HasShape := by
  have linked := T.isLinked_of_scan scanned
  have plain := T.hasPlainWords_of_scan scanned
  have run := (ends_parseAt (K := True) linked (fun _ => plain) (fun _ => T.spells_true) levels
    before.depth enough).read .tryCatch before.current before
    (.of_comments linked tokens inside trivia) rfl
  rw [accepted] at run
  have ⟨⟨shape, _, _, _, _, _, _⟩, _⟩ := run.2.shaped trivial
  exact shape

end Tree.TryCatch
end Javascribe
