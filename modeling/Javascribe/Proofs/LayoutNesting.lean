/-
# Nesting in layouts

A layout puts brackets around its parts, and indents some of them. When the
parts are balanced, so is the whole; what a layout opens in one text and
closes in another is matched here. The names that it writes must have no
brackets of their own (`Unbracketed`).

Key definitions: `Unbracketed`.
Key theorems: `Layout.isBalanced_braced`, `Layout.isBalanced_clauseChain`,
`Layout.isBalanced_anonymousObject`.
-/
import Javascribe.Output.Layout
import Javascribe.Output.Module
import Javascribe.Proofs.Nesting
import Javascribe.Proofs.Overloads

namespace Javascribe

open Brackets

/-! ### Names -/

/-- A text without brackets. -/
def Unbracketed (s : String) : Prop := Absent s.toList

instance (s : String) : Decidable (Unbracketed s) := inferInstanceAs (Decidable (Absent s.toList))

theorem unbracketed_append {s t : String} (hs : Unbracketed s) (ht : Unbracketed t) :
    Unbracketed (s ++ t) := by
  rw [Unbracketed, Absent, String.toList_append, List.forall_mem_append]
  exact ⟨hs, ht⟩

theorem mem_of_mem_intercalate {α : Type} {x : α} {separator : List α} : {parts : List (List α)} →
    x ∈ separator.intercalate parts → x ∈ separator ∨ ∃ part ∈ parts, x ∈ part
  | [], mem => nomatch mem
  | [part], mem => by
    rw [List.intercalate_singleton] at mem
    exact .inr ⟨part, List.mem_singleton_self part, mem⟩
  | part :: next :: parts, mem => by
    rw [List.intercalate_cons_cons, List.mem_append, List.mem_append] at mem
    rcases mem with (mem | mem) | mem
    · exact .inr ⟨part, List.mem_cons_self .., mem⟩
    · exact .inl mem
    · refine (mem_of_mem_intercalate mem).imp_right fun ⟨other, isOne, mem⟩ => ?_
      exact ⟨other, List.mem_cons_of_mem part isOne, mem⟩

theorem unbracketed_intercalate {separator : String} (h : Unbracketed separator) {names : List String}
    (hNames : ∀ name ∈ names, Unbracketed name) : Unbracketed (separator.intercalate names) := by
  intro c mem
  rw [String.toList_intercalate] at mem
  rcases mem_of_mem_intercalate mem with mem | ⟨cs, isOne, mem⟩
  · exact h c mem
  · obtain ⟨name, isName, rfl⟩ := List.mem_map.mp isOne
    exact hNames name isName c mem

theorem unbracketed_toString (n : Nat) : Unbracketed (toString n) := by
  intro c mem
  rw [Nat.toString_eq_repr, Nat.toList_repr] at mem
  have digit := Nat.isDigit_of_mem_toDigits (by decide) (by decide) mem
  refine Bool.eq_false_iff.mpr fun bracket => ?_
  have noDigit := apply_of_isBracket (fun c => !c.isDigit) (by decide) bracket
  rw [digit] at noDigit
  exact nomatch noDigit

theorem unbracketed_overloadName {name : String} (h : Unbracketed name) (index : Nat) :
    Unbracketed (overloadName name index) :=
  unbracketed_append (unbracketed_append h (by decide))
    (unbracketed_toString index)

theorem unbracketed_of_mem_storedNamesFrom {all earlier names : List String}
    (h : ∀ name ∈ names, Unbracketed name) {stored : String} (mem : stored ∈ storedNamesFrom all earlier names) : Unbracketed stored := by
  induction names generalizing earlier with
  | nil => exact nomatch mem
  | cons name names ih =>
    rw [List.forall_mem_cons] at h
    rw [storedNamesFrom] at mem
    rcases List.mem_cons.mp mem with rfl | mem
    · split
      · exact h.1
      · exact unbracketed_overloadName h.1 _
    · exact ih h.2 mem

theorem unbracketed_hostTypeName {name : String} (h : Unbracketed name) :
    Unbracketed (hostTypeName name) := by
  unfold hostTypeName
  split
  · decide
  split
  · decide
  split
  · decide
  · exact h

theorem unbracketed_hostName {type : TypeRef} (h : ∀ name ∈ type.names, Unbracketed name) :
    Unbracketed type.hostName := by
  have all : ∀ name ∈ typeNamesOf type.names, Unbracketed name := fun name mem => by
    refine h name ?_
    unfold typeNamesOf at mem
    split at mem
    · exact List.mem_of_mem_drop mem
    · exact mem
  unfold TypeRef.hostName
  split
  · next name same => exact unbracketed_hostTypeName (all name (same ▸ List.mem_singleton_self name))
  · exact unbracketed_intercalate (by decide) all

theorem unbracketed_defaultValue (type : TypeRef) : Unbracketed type.defaultValue := by
  unfold TypeRef.defaultValue
  split
  · decide
  split
  · decide
  split
  · decide
  · decide

namespace Document

variable {d : Document}

theorem isBalanced_name {s : String} (h : Unbracketed s) : (text s).IsBalanced :=
  isBalanced_text h

/-- Between two texts, of which one closes what the other opens. -/
theorem IsBalanced.enclosed (h : d.IsBalanced) (expected : List Char) {s t : String}
    (opens : run [] s.toList = some expected) (closes : run expected t.toList = some []) :
    (text s ++ d ++ text t).IsBalanced :=
  ((leads_text opens).append (h.leads expected)).append (leads_text closes)

theorem isBalanced_getD {d? : Option Document} (h : ∀ d ∈ d?, IsBalanced d) : (d?.getD []).IsBalanced := by
  cases d? with
  | none => exact isBalanced_nil
  | some d => exact h d rfl

end Document

/-! ### Expressions -/

namespace Layout

open Document Javascribe.Tree

variable {d e : Document} {ds es : List Document}

theorem isBalanced_parenthesized (isWanted : Bool) (h : d.IsBalanced) :
    (parenthesized isWanted d).IsBalanced := by
  unfold parenthesized
  split
  · exact h.enclosed [')'] rfl rfl
  · exact h

theorem isBalanced_arguments (h : ∀ d ∈ ds, IsBalanced d) : (arguments ds).IsBalanced :=
  (isBalanced_commas h).enclosed [')'] rfl rfl

theorem isBalanced_parameters {declared : List Variable} (h : ∀ d ∈ declared, Unbracketed d.name) :
    (parameters declared).IsBalanced := by
  refine isBalanced_arguments fun d mem => ?_
  obtain ⟨parameter, isOne, rfl⟩ := List.mem_map.mp mem
  refine IsBalanced.append ?_ (isBalanced_name (h parameter isOne))
  split
  · exact leads_text rfl
  · exact isBalanced_nil

theorem isBalanced_qualified {qualifier : Option String} {name : String}
    (hQualifier : ∀ q ∈ qualifier, Unbracketed q) (hName : Unbracketed name) :
    (qualified qualifier name).IsBalanced := by
  unfold qualified
  split
  · next q =>
    refine isBalanced_texts fun s mem => ?_
    simp only [List.mem_cons, List.not_mem_nil, or_false] at mem
    rcases mem with rfl | rfl | rfl
    · exact isBalanced_name (hQualifier _ rfl)
    · exact leads_text rfl
    · exact isBalanced_name hName
  · exact isBalanced_name hName

theorem isBalanced_declaration {declared : Variable} (h : Unbracketed declared.name) (isInitialized : Bool) :
    (declaration declared isInitialized).IsBalanced := by
  refine isBalanced_texts (List.forall_mem_cons.mpr ⟨?_, List.forall_mem_singleton.mpr ?_⟩)
  · split <;> exact leads_text rfl
  · exact isBalanced_name h

theorem isBalanced_hostSymbol (operator : Operator) : (text operator.hostSymbol).IsBalanced :=
  isBalanced_text (by cases operator <;> decide)

theorem isBalanced_operation (hasLeft : Bool) (operation? : Option Operator) {right? : Option Document}
    (h : ∀ d ∈ right?, IsBalanced d) : (operation hasLeft operation? right?).IsBalanced := by
  unfold operation
  split
  · exact isBalanced_getD h
  · next operator =>
    split
    · next right =>
      refine (isBalanced_texts fun s mem => ?_).append (h right rfl)
      simp only [List.mem_cons, List.not_mem_nil, or_false] at mem
      rcases mem with rfl | rfl | rfl
      · exact leads_text rfl
      · exact isBalanced_hostSymbol operator
      · exact leads_text rfl
    · exact isBalanced_hostSymbol operator
    · exact (isBalanced_hostSymbol operator).append (isBalanced_getD h)

theorem isBalanced_braced (h : d.IsBalanced) : (braced d).IsBalanced :=
  (isBalanced_line.append h.indented).enclosed ['\x7d'] rfl rfl

theorem isBalanced_block (h : d.IsBalanced) : (block d).IsBalanced := by
  unfold block
  split
  · exact leads_text rfl
  · exact isBalanced_braced h

/-! ### Control flow -/

theorem isBalanced_branches (hConditions : ∀ d ∈ ds, IsBalanced d) (hBlocks : ∀ d ∈ es, IsBalanced d) :
    (branches ds es).IsBalanced := by
  induction es generalizing ds with
  | nil =>
    rw [branches]
    exact isBalanced_nil
  | cons block blocks ih =>
    rw [List.forall_mem_cons] at hBlocks
    rw [branches]
    refine (IsBalanced.append ?_ hBlocks.1).append ?_
    · split
      · next condition first =>
        exact (hConditions condition (List.mem_of_mem_head? first)).enclosed [')'] rfl rfl
      · exact isBalanced_nil
    · split
      · exact isBalanced_nil
      · exact IsBalanced.append (leads_text rfl)
          (ih (fun d mem => hConditions d (List.mem_of_mem_tail mem)) hBlocks.2)

theorem isBalanced_forEach {declared iterable : Option Document} (hDeclared : ∀ d ∈ declared, IsBalanced d)
    (hIterable : ∀ d ∈ iterable, IsBalanced d) (h : d.IsBalanced) :
    (forEach declared iterable d).IsBalanced := by
  have opens : (text "for (").Leads [] [')'] := leads_text rfl
  have between : (text " of ").IsBalanced := leads_text rfl
  have closes : (text ") ").Leads [')'] [] := leads_text rfl
  exact ((((opens.append ((isBalanced_getD hDeclared).leads _)).append (between.leads _)).append
    ((isBalanced_getD hIterable).leads _)).append closes).append h

theorem isBalanced_forPart {part : Option Document} (h : ∀ d ∈ part, IsBalanced d) :
    (forPart part).IsBalanced := by
  unfold forPart
  split
  · next part => exact IsBalanced.append (leads_text rfl) (h part rfl)
  · exact leads_text rfl

theorem isBalanced_forLoop {initialization condition increment : Option Document}
    (hInitialization : ∀ d ∈ initialization, IsBalanced d) (hCondition : ∀ d ∈ condition, IsBalanced d)
    (hIncrement : ∀ d ∈ increment, IsBalanced d) (h : d.IsBalanced) :
    (forLoop initialization condition increment d).IsBalanced := by
  have opens : (text "for (").Leads [] [')'] := leads_text rfl
  have closes : (text ") ").Leads [')'] [] := leads_text rfl
  exact ((((opens.append ((isBalanced_getD hInitialization).leads _)).append
    ((isBalanced_forPart hCondition).leads _)).append ((isBalanced_forPart hIncrement).leads _)).append
    closes).append h

theorem isBalanced_label (hHead : d.IsBalanced) (hLines : e.IsBalanced) : (label d e).IsBalanced :=
  (hHead.append isBalanced_line).append hLines.indented

theorem isBalanced_switch {cases : List (Document × Document)} {default : Option Document}
    (h : d.IsBalanced) (hCases : ∀ c ∈ cases, IsBalanced c.1 ∧ IsBalanced c.2)
    (hDefault : ∀ lines ∈ default, IsBalanced lines) : (switch d cases default).IsBalanced := by
  have labels : IsBalanced (cases.map fun c =>
      label (text "case " ++ c.1 ++ text ":") c.2).flatten := by
    refine isBalanced_flatMap fun c mem => isBalanced_label ?_ (hCases c mem).2
    exact (hCases c mem).1.enclosed [] rfl rfl
  refine (h.enclosed [')'] rfl rfl).append (isBalanced_braced (labels.append ?_))
  split
  · next lines => exact isBalanced_label (leads_text rfl) (hDefault lines rfl)
  · exact isBalanced_nil

theorem isBalanced_caughtTypes {types : List TypeRef} (h : ∀ type ∈ types, ∀ name ∈ type.names, Unbracketed name) :
    (caughtTypes types).IsBalanced := by
  refine isBalanced_separated (leads_text rfl) fun d mem => ?_
  obtain ⟨type, isOne, rfl⟩ := List.mem_map.mp mem
  refine isBalanced_texts (List.forall_mem_cons.mpr ⟨leads_text rfl, ?_⟩)
  exact List.forall_mem_singleton.mpr (isBalanced_name (unbracketed_hostName (h type isOne)))

theorem unbracketed_caughtName {names : List Reference} (h : ∀ r ∈ names, Unbracketed r.name) :
    Unbracketed (caughtName names) := by
  unfold caughtName
  split
  · next reference first =>
    exact h reference (List.mem_of_mem_head? first)
  · decide

theorem isBalanced_clauseLines {name : String} (hName : Unbracketed name) (h : d.IsBalanced) :
    (clauseLines name d).IsBalanced := by
  unfold clauseLines
  refine IsBalanced.append ?_ h
  split
  · exact isBalanced_nil
  · refine IsBalanced.append ?_ isBalanced_line
    have start : (text "let ").IsBalanced := leads_text rfl
    exact (start.text_append (isBalanced_name hName)).text_append (leads_text rfl)

theorem isBalanced_clauseChain {types : List (List TypeRef)} {names : List Reference}
    (hTypes : ∀ ts ∈ types, ∀ type ∈ ts, ∀ name ∈ type.names, Unbracketed name)
    (hNames : ∀ r ∈ names, Unbracketed r.name) (h : ∀ d ∈ ds, IsBalanced d) :
    (clauseChain types names ds).IsBalanced := by
  induction ds generalizing types names with
  | nil =>
    rw [clauseChain]
    exact isBalanced_braced (IsBalanced.append (leads_text rfl) isBalanced_line)
  | cons lines rest ih =>
    rw [List.forall_mem_cons] at h
    have clause := isBalanced_braced (isBalanced_clauseLines (unbracketed_caughtName hNames) h.1)
    have caught : ∀ type ∈ types.head?.getD [], ∀ name ∈ type.names, Unbracketed name := by
      cases types with
      | nil => exact nofun
      | cons first types => exact hTypes first (List.mem_cons_self ..)
    rw [clauseChain]
    split
    · exact clause
    · exact (((isBalanced_caughtTypes caught).enclosed [')'] rfl rfl).append clause
        |>.append (leads_text rfl)).append (ih (fun ts mem => hTypes ts (List.mem_of_mem_tail mem))
          (fun r mem => hNames r (List.mem_of_mem_tail mem)) h.2)

theorem isBalanced_catchClauses {types : List (List TypeRef)} {names : List Reference}
    (hTypes : ∀ ts ∈ types, ∀ type ∈ ts, ∀ name ∈ type.names, Unbracketed name)
    (hNames : ∀ r ∈ names, Unbracketed r.name) (hBlocks : ∀ d ∈ ds, IsBalanced d)
    (hLines : ∀ d ∈ es, IsBalanced d) : (catchClauses types names ds es).IsBalanced := by
  unfold catchClauses
  split
  · exact isBalanced_nil
  · next block =>
    have name := isBalanced_name (unbracketed_caughtName hNames)
    exact (name.enclosed [')'] rfl rfl).append (hBlocks block (List.mem_singleton_self _))
  · exact IsBalanced.append (leads_text rfl)
      (isBalanced_braced ((isBalanced_clauseChain hTypes hNames hLines).append isBalanced_line))

/-! ### Classes -/

theorem isBalanced_assignment {name : String} (hName : Unbracketed name) (h : d.IsBalanced) :
    (assignment name d).IsBalanced := by
  refine (IsBalanced.append ?_ h).append (leads_text rfl)
  exact (isBalanced_name hName).append (leads_text rfl)

theorem isBalanced_constructorCase {className : String} (h : Unbracketed className) (index : Nat) :
    (constructorCase className index).IsBalanced := by
  have number : (text s!"case {index}:").IsBalanced := by
    have start : (text "case ").IsBalanced := leads_text rfl
    exact (start.text_append (isBalanced_name (unbracketed_toString index))).text_append
      (leads_text rfl)
  have this : (text "this.").IsBalanced := leads_text rfl
  refine isBalanced_label number (((IsBalanced.append ?_ isBalanced_line).append
    (leads_text rfl)).append isBalanced_line)
  exact (this.text_append (isBalanced_name (unbracketed_overloadName h index))).text_append
    (leads_text rfl)

theorem isBalanced_constructorSwitch {className : String} (h : Unbracketed className) (count : Nat) :
    (constructorSwitch className count).IsBalanced := by
  unfold constructorSwitch
  split
  · exact isBalanced_nil
  · refine (IsBalanced.append (leads_text rfl) (isBalanced_braced ?_)).append isBalanced_line
    exact isBalanced_flatMap fun index _ => isBalanced_constructorCase h index

theorem isBalanced_hostConstructor {className : String} (hName : Unbracketed className) (isDerived : Bool)
    (hFields : ∀ d ∈ ds, IsBalanced d) (hInitializers : ∀ d ∈ es, IsBalanced d) (count : Nat) :
    (hostConstructor className isDerived ds es count).IsBalanced := by
  refine (IsBalanced.append (leads_text rfl) (isBalanced_braced ?_)).append isBalanced_line
  refine ((IsBalanced.append ?_ ?_).append ?_).append (isBalanced_constructorSwitch hName count)
  · split
    · exact IsBalanced.append (leads_text rfl) isBalanced_line
    · exact isBalanced_nil
  · exact isBalanced_flatMap fun d mem =>
      (IsBalanced.append (leads_text rfl) (hFields d mem)).append isBalanced_line
  · exact isBalanced_flatMap fun d mem => (hInitializers d mem).append isBalanced_line

theorem isBalanced_classHead {name : String} {extended : List TypeRef} (hName : Unbracketed name)
    (hExtended : ∀ type ∈ extended, ∀ name ∈ type.names, Unbracketed name) : (classHead name extended).IsBalanced := by
  unfold classHead
  split
  · next parent first =>
    have parent := isBalanced_name (unbracketed_hostName (hExtended parent (List.mem_of_mem_head? first)))
    refine isBalanced_texts fun s mem => ?_
    simp only [List.mem_cons, List.not_mem_nil, or_false] at mem
    rcases mem with rfl | rfl | rfl | rfl
    · exact leads_text rfl
    · exact isBalanced_name hName
    · exact leads_text rfl
    · exact parent
  · exact isBalanced_texts (List.forall_mem_cons.mpr ⟨leads_text rfl,
      List.forall_mem_singleton.mpr (isBalanced_name hName)⟩)

theorem isBalanced_classBody {name : String} {extended : List TypeRef} (hName : Unbracketed name)
    (hExtended : ∀ type ∈ extended, ∀ name ∈ type.names, Unbracketed name) (h : ∀ d ∈ ds, IsBalanced d) :
    (classBody name extended ds).IsBalanced :=
  ((isBalanced_classHead hName hExtended).append (leads_text rfl)).append
    (isBalanced_braced (isBalanced_separated isBalanced_line h))

theorem isBalanced_staticSide {name : String} {methods : List (String × Document)} {nested : List String}
    (hName : Unbracketed name) (hMethods : ∀ m ∈ methods, Unbracketed m.1 ∧ IsBalanced m.2)
    (hNested : ∀ other ∈ nested, Unbracketed other) (hFields : ∀ d ∈ ds, IsBalanced d)
    (hInitializers : ∀ d ∈ es, IsBalanced d) : (staticSide name methods nested ds es).IsBalanced := by
  have dot : (text ".").IsBalanced := leads_text rfl
  have prefixed := (isBalanced_name hName).text_append dot
  refine ((IsBalanced.append ?_ ?_).append ?_).append ?_
  · refine isBalanced_flatMap fun m mem => ((isBalanced_line.append ?_).append (hMethods m mem).2).append
      (leads_text rfl)
    exact (prefixed.text_append (isBalanced_name (hMethods m mem).1)).text_append (leads_text rfl)
  · refine isBalanced_flatMap fun other mem => isBalanced_line.append ?_
    have other := isBalanced_name (hNested other mem)
    exact (((prefixed.text_append other).text_append (leads_text rfl)).text_append other).text_append
      (leads_text rfl)
  · exact isBalanced_flatMap fun d mem => (isBalanced_line.append prefixed).append (hFields d mem)
  · refine isBalanced_flatMap fun d mem => ?_
    have opens : (text "(function () ").Leads [] [')'] := leads_text rfl
    have closes : (text ")();").Leads [')'] [] := leads_text rfl
    exact ((Leads.append isBalanced_line opens).append ((hInitializers d mem).leads _)).append closes

theorem isBalanced_anonymousObject {type : String} {methods : List (String × Document)}
    (hType : Unbracketed type) (hFields : ∀ d ∈ ds, IsBalanced d)
    (hMethods : ∀ m ∈ methods, Unbracketed m.1 ∧ IsBalanced m.2) (hInitializers : ∀ d ∈ es, IsBalanced d)
    (h : d.IsBalanced) : (anonymousObject type ds methods es d).IsBalanced := by
  have instance' : (text "instance.").IsBalanced := leads_text rfl
  have body : IsBalanced ((ds.flatMap fun field => text "instance." ++ field ++ line)
      ++ (methods.flatMap fun m =>
        text ("instance." ++ m.1 ++ " = function ") ++ m.2 ++ text ";" ++ line)
      ++ (es.flatMap fun block => text "(function () " ++ block ++ text ").call(instance);" ++ line)
      ++ text "return instance;" ++ line) := by
    refine (((IsBalanced.append ?_ ?_).append ?_).append (leads_text rfl)).append isBalanced_line
    · exact isBalanced_flatMap fun d mem => (instance'.append (hFields d mem)).append isBalanced_line
    · refine isBalanced_flatMap fun m mem => ((IsBalanced.append ?_ (hMethods m mem).2).append
        (leads_text rfl)).append isBalanced_line
      exact (instance'.text_append (isBalanced_name (hMethods m mem).1)).text_append (leads_text rfl)
    · exact isBalanced_flatMap fun d mem =>
        ((hInitializers d mem).enclosed [')'] rfl rfl).append isBalanced_line
  -- the function is called with what it is to work on, in the second text
  have opens : (text "(function (instance) ").Leads [] [')'] := leads_text rfl
  have called : (text (")(typeof " ++ type ++ " === 'function' ? ")).Leads [')'] [')'] := by
    have start : (text ")(typeof ").Leads [')'] [')'] := leads_text rfl
    exact (start.text_append ((isBalanced_name hType).leads _)).text_append (leads_text rfl)
  have closes : (text " : \x7b\x7d)").Leads [')'] [] := leads_text rfl
  exact (((opens.append ((isBalanced_braced body).leads _)).append called).append (h.leads _)).append closes

end Layout
end Javascribe
