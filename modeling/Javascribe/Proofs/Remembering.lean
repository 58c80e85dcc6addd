/-
# Remembering changes no answer

What a dictionary remembers of references is what its symbols say
(`CachedDictionary.Sound`). Asking keeps that, since only what has just been
looked up is added; changing object types and functions keeps it, since
references are resolved by symbols alone; and a new symbol finds nothing
remembered. So each action has the answer and the effect that it has on a
dictionary that looks everything up (`Lookup.Mirrors`), and so has every
session.

Key definitions: `CachedDictionary.Sound`, `Lookup.Answers`, `Lookup.Mirrors`.
Key theorems: `CachedDictionary.answers_resolveCandidates`,
`CachedDictionary.mirrors_perform`, `CachedDictionary.performAll_eq`.
-/
import Javascribe.Proofs.Tables
import Javascribe.Typing.Cache

namespace Javascribe

/-- What is remembered is what the symbols say. -/
def CachedDictionary.Sound (cached : CachedDictionary) : Prop :=
  ∀ candidates meaning, cached.meanings.find? candidates = some meaning →
    meaning = cached.dictionary.resolveCandidates candidates

theorem CachedDictionary.sound_ofDictionary (dictionary : Dictionary) :
    (ofDictionary dictionary).Sound := by
  intro candidates meaning found
  cases found

/-! ### Computations that only ask -/

namespace Lookup

variable {α β : Type}

/-- The computation gives what `answer` says of the dictionary and changes
nothing but what is remembered. -/
def Answers (lookup : Lookup α) (answer : Dictionary → α) : Prop :=
  ∀ cached : CachedDictionary, cached.Sound →
    (lookup cached).1 = answer cached.dictionary ∧
      (lookup cached).2.dictionary = cached.dictionary ∧ (lookup cached).2.Sound

theorem Answers.pure (a : α) : Answers (pure a) fun _ => a :=
  fun _ sound => ⟨rfl, rfl, sound⟩

theorem Answers.bind {lookup : Lookup α} {answer : Dictionary → α} {f : α → Lookup β}
    {g : α → Dictionary → β} (h : Answers lookup answer) (hf : ∀ a, Answers (f a) (g a)) :
    Answers (lookup >>= f) fun dictionary => g (answer dictionary) dictionary := by
  intro cached sound
  obtain ⟨value, same, sound⟩ := h cached sound
  obtain ⟨value', same', sound'⟩ := hf (lookup cached).1 (lookup cached).2 sound
  exact ⟨value'.trans (by rw [value, same]), same'.trans same, sound'⟩

theorem Answers.map {lookup : Lookup α} {answer : Dictionary → α} (h : Answers lookup answer)
    (f : α → β) : Answers (f <$> lookup) fun dictionary => f (answer dictionary) := by
  rw [← bind_pure_comp]
  exact h.bind fun a => .pure (f a)

/-- Of the state, a computation that asks uses the dictionary. -/
theorem Answers.get {f : Dictionary → Lookup α} {g : Dictionary → Dictionary → α}
    (h : ∀ dictionary, Answers (f dictionary) (g dictionary)) :
    Answers (do f (← MonadState.get).dictionary) fun dictionary => g dictionary dictionary :=
  fun cached sound => h cached.dictionary cached sound

theorem Answers.mapM {f : α → Lookup β} {g : α → Dictionary → β} (h : ∀ a, Answers (f a) (g a))
    (as : List α) : Answers (as.mapM f) fun dictionary => as.map (g · dictionary) := by
  induction as with
  | nil => exact .pure []
  | cons a as ih =>
    rw [List.mapM_cons]
    exact (h a).bind fun b => ih.bind fun bs => .pure (b :: bs)

end Lookup

namespace CachedDictionary

open Lookup (Answers)

/-- **What is remembered is what would be found.** -/
theorem answers_resolveCandidates (candidates : List String) :
    Answers (resolveCandidates candidates) (·.resolveCandidates candidates) := by
  intro cached sound
  cases found : cached.meanings.find? candidates with
  | some meaning =>
    have run : resolveCandidates candidates cached = (meaning, cached) := by
      simp only [resolveCandidates, bind, StateT.bind, get, getThe, MonadStateOf.get, StateT.get, pure,
        found]
      rfl
    rw [run]
    exact ⟨sound candidates meaning found, rfl, sound⟩
  | none =>
    have run : resolveCandidates candidates cached =
        (cached.dictionary.resolveCandidates candidates, ⟨cached.dictionary,
          cached.meanings.insert candidates (cached.dictionary.resolveCandidates candidates)⟩) := by
      simp only [resolveCandidates, bind, StateT.bind, get, getThe, MonadStateOf.get, StateT.get, pure,
        found]
      rfl
    rw [run]
    refine ⟨rfl, rfl, fun others meaning found => ?_⟩
    rw [Table.find?_insert] at found
    split at found
    · next same => exact same ▸ (Option.some.inj found).symm
    · exact sound others meaning found

theorem answers_resolve (constraint : Constraint) :
    Answers (resolve constraint) (·.resolve constraint) := by
  obtain ⟨definition, isDefinition⟩ := constraint
  cases definition with
  | unresolved candidates =>
    exact (answers_resolveCandidates candidates).bind fun meaning =>
      .pure (Constraint.mk meaning isDefinition)
  | simple _ | object _ | function _ | array _ _ => exact .pure _

/-! ### Inheritance and names -/

theorem answers_directSupertypes (id : Nat) :
    Answers (directSupertypes id) (·.directSupertypes id) := by
  have direct (dictionary : Dictionary) : dictionary.directSupertypes id =
      ((dictionary.object id).supertypes.map dictionary.resolve).filterMap
        (·.definition.object?) := by
    rw [List.filterMap_map]
    rfl
  simp only [direct]
  exact .get fun dictionary => (Answers.mapM answers_resolve (dictionary.object id).supertypes).bind
    fun supertypes => .pure (supertypes.filterMap (·.definition.object?))

theorem answers_supertypesAbove (levels : Nat) (seen last : List Nat) :
    Answers (supertypesAbove levels seen last) (·.supertypesAbove levels seen last) := by
  induction levels generalizing seen last with
  | zero => exact .pure seen
  | succ levels ih =>
    simp only [Dictionary.supertypesAbove, List.flatMap_def]
    refine (Answers.mapM answers_directSupertypes last).bind
      (g := fun supertypes dictionary =>
        let next := Dictionary.freshIds seen supertypes.flatten
        if next.isEmpty then seen else dictionary.supertypesAbove levels (seen ++ next) next)
      fun supertypes => ?_
    dsimp only
    by_cases finished : (Dictionary.freshIds seen supertypes.flatten).isEmpty
    · simp only [if_pos finished]
      exact .pure seen
    · simp only [if_neg finished]
      exact ih _ _

theorem answers_allSupertypes (id : Nat) :
    Answers (allSupertypes id) (·.allSupertypes id) :=
  (answers_supertypesAbove maxSupertypeDepth [id] [id]).bind fun above => .pure above.tail

/-- The name of a constraint that is no reference, with the types inside it at
most `depth` types deep. -/
def resolvedName (depth : Nat) (resolved : Constraint) (dictionary : Dictionary) : String :=
  match resolved.definition with
  | .simple type => type.name
  | .object id => (dictionary.object id).name
  | .array element ofDefinitions => dictionary.typeNameAt depth ⟨element, ofDefinitions⟩ ++ "[]"
  | .function id =>
    let function := dictionary.function id
    "(" ++ ", ".intercalate (function.parameters.map (dictionary.typeNameAt depth)) ++ ") => "
      ++ dictionary.typeNameAt depth function.result
  | .unresolved _ => SimpleType.dynamic.name

theorem answers_typeNameAt (depth : Nat) (constraint : Constraint) :
    Answers (typeNameAt depth constraint) (·.typeNameAt depth constraint) := by
  induction depth generalizing constraint with
  | zero => exact .pure _
  | succ depth ih =>
    refine (answers_resolve constraint).bind (g := resolvedName depth) fun resolved => ?_
    obtain ⟨definition, isDefinition⟩ := resolved
    cases definition with
    | simple type => exact .pure type.name
    | object id => exact .get fun dictionary => .pure (dictionary.object id).name
    | array element ofDefinitions => exact (ih _).bind fun name => .pure (name ++ "[]")
    | function id =>
      have parts (function : FunctionType) :=
        (Answers.mapM ih function.parameters).bind fun parameters =>
          (ih function.result).bind fun result =>
            Answers.pure ("(" ++ ", ".intercalate parameters ++ ") => " ++ result)
      exact .get fun dictionary => parts (dictionary.function id)
    | unresolved candidates => exact .pure SimpleType.dynamic.name

theorem answers_typeName (constraint : Constraint) :
    Answers (typeName constraint) (·.typeName constraint) := by
  unfold typeName Dictionary.typeName
  exact .get (f := fun dictionary => typeNameAt (dictionary.typeReach constraint) constraint)
    fun dictionary => answers_typeNameAt (dictionary.typeReach constraint) constraint

end CachedDictionary

/-! ### Actions and sessions -/

namespace Lookup

variable {α β : Type}

/-- The computation gives the value and the dictionary that `plain` gives. -/
def Mirrors (lookup : Lookup α) (plain : StateM Dictionary α) : Prop :=
  ∀ cached : CachedDictionary, cached.Sound →
    (lookup cached).1 = (plain cached.dictionary).1 ∧
      (lookup cached).2.dictionary = (plain cached.dictionary).2 ∧ (lookup cached).2.Sound

theorem Mirrors.pure (a : α) : Mirrors (pure a) (pure a) :=
  fun _ sound => ⟨rfl, rfl, sound⟩

theorem Mirrors.bind {lookup : Lookup α} {plain : StateM Dictionary α} {f : α → Lookup β}
    {g : α → StateM Dictionary β} (h : Mirrors lookup plain) (hf : ∀ a, Mirrors (f a) (g a)) :
    Mirrors (lookup >>= f) (plain >>= g) := by
  intro cached sound
  obtain ⟨value, same, sound⟩ := h cached sound
  obtain ⟨value', same', sound'⟩ := hf (lookup cached).1 (lookup cached).2 sound
  exact ⟨value'.trans (by rw [value, same]; rfl), same'.trans (by rw [value, same]; rfl), sound'⟩

theorem Answers.mirrors {lookup : Lookup α} {answer : Dictionary → α} (h : Answers lookup answer)
    (f : α → β) : Mirrors (f <$> lookup) (do return f (answer (← MonadState.get))) :=
  fun cached sound => h.map f cached sound

end Lookup

namespace CachedDictionary

open Lookup (Mirrors)

/-- References are resolved by the symbols alone. -/
theorem resolveCandidates_congr {dictionary other : Dictionary}
    (same : other.symbols = dictionary.symbols) (candidates : List String) :
    other.resolveCandidates candidates = dictionary.resolveCandidates candidates := by
  unfold Dictionary.resolveCandidates
  induction maxResolutionDepth generalizing candidates with
  | zero => rfl
  | succ depth ih =>
    have symbols : other.symbol? = dictionary.symbol? := by
      funext identifier
      rw [Dictionary.symbol?, Dictionary.symbol?, same]
    simp only [Dictionary.resolveCandidatesAt, Dictionary.lookupFirst?, symbols, ih]

/-- A change that leaves the symbols alone leaves what is remembered right. -/
theorem Sound.of_symbols_eq {cached : CachedDictionary} {dictionary : Dictionary}
    (sound : cached.Sound) (same : dictionary.symbols = cached.dictionary.symbols) :
    Sound ⟨dictionary, cached.meanings⟩ := by
  intro candidates meaning found
  rw [resolveCandidates_congr same]
  exact sound candidates meaning found

/-- **One action.** It answers and changes the dictionary as if nothing were
remembered, and what is remembered after it is right again. -/
theorem mirrors_perform (action : DictionaryAction) :
    Mirrors (perform action) (Dictionary.perform action) := by
  cases action with
  | addSymbol symbol => exact fun cached _ => ⟨rfl, rfl, sound_ofDictionary _⟩
  | addObject object => exact fun cached sound => ⟨rfl, rfl, sound.of_symbols_eq rfl⟩
  | addFunction function => exact fun cached sound => ⟨rfl, rfl, sound.of_symbols_eq rfl⟩
  | modifyObject id change => exact fun cached sound => ⟨rfl, rfl, sound.of_symbols_eq rfl⟩
  | resolve constraint => exact (answers_resolve constraint).mirrors DictionaryAnswer.constraint
  | typeName constraint => exact (answers_typeName constraint).mirrors DictionaryAnswer.name
  | directSupertypes id => exact (answers_directSupertypes id).mirrors DictionaryAnswer.objects
  | allSupertypes id => exact (answers_allSupertypes id).mirrors DictionaryAnswer.objects

/-- Any number of actions. -/
theorem mirrors_performAll (actions : List DictionaryAction) :
    Mirrors (performAll actions) (Dictionary.performAll actions) := by
  unfold performAll Dictionary.performAll
  induction actions with
  | nil => exact .pure []
  | cons action actions ih =>
    rw [List.mapM_cons, List.mapM_cons]
    exact (mirrors_perform action).bind fun answer => ih.bind fun answers => .pure _

end CachedDictionary

namespace Dictionary

/-- What a symbol stands for, behind at most `depth` references. -/
def meaningAt (dictionary : Dictionary) (depth : Nat) (symbol : Symbol) : Definition :=
  match symbol.constraint.definition with
  | .unresolved next => dictionary.resolveCandidatesAt depth next
  | definition => definition

theorem performAll_cons (action : DictionaryAction) (later : List DictionaryAction)
    (dictionary : Dictionary) :
    performAll (action :: later) dictionary =
      ((perform action dictionary).1 :: (performAll later (perform action dictionary).2).1,
        (performAll later (perform action dictionary).2).2) := by
  unfold performAll
  rw [List.mapM_cons]
  rfl

theorem performAll_append (actions later : List DictionaryAction) (dictionary : Dictionary) :
    performAll (actions ++ later) dictionary =
      ((performAll actions dictionary).1 ++
          (performAll later (performAll actions dictionary).2).1,
        (performAll later (performAll actions dictionary).2).2) := by
  unfold performAll
  rw [List.mapM_append]
  rfl

/-- A symbol that is added late is the first of the candidates to be defined. -/
theorem lookupFirst?_addSymbol {dictionary : Dictionary} {symbol : Symbol}
    {candidates : List String} (undefined : dictionary.lookupFirst? candidates = none)
    (named : symbol.identifier ∈ candidates) :
    (dictionary.addSymbol symbol).lookupFirst? candidates = some symbol := by
  unfold lookupFirst? at undefined ⊢
  rw [List.findSome?_eq_none_iff] at undefined
  have only (candidate : String) (mem : candidate ∈ candidates) :
      (dictionary.addSymbol symbol).symbol? candidate =
        if candidate = symbol.identifier then some symbol else none := by
    rw [symbol?, addSymbol, Table.find?_insert]
    split
    · rfl
    · exact undefined candidate mem
  clear undefined
  induction candidates with
  | nil => cases named
  | cons candidate candidates ih =>
    rw [List.findSome?_cons, only candidate List.mem_cons_self]
    by_cases same : candidate = symbol.identifier
    · rw [if_pos same]
    · rw [if_neg same]
      have named := (List.mem_cons.mp named).resolve_left fun other => same other.symm
      exact ih named fun other mem => only other (List.mem_cons_of_mem candidate mem)

theorem resolveCandidates_of_undefined {dictionary : Dictionary} {candidates : List String}
    (undefined : dictionary.lookupFirst? candidates = none) :
    dictionary.resolveCandidates candidates = .simple .dynamic := by
  rw [resolveCandidates, maxResolutionDepth, resolveCandidatesAt, undefined]

theorem resolveCandidates_of_lookupFirst? {dictionary : Dictionary} {symbol : Symbol}
    {candidates : List String} (first : dictionary.lookupFirst? candidates = some symbol) :
    dictionary.resolveCandidates candidates =
      dictionary.meaningAt (maxResolutionDepth - 1) symbol := by
  rw [resolveCandidates, maxResolutionDepth, resolveCandidatesAt, first]
  rfl

end Dictionary

namespace CachedDictionary

/-- **Remembering is invisible.** A session answers what a dictionary that
looks everything up answers, and leaves the same dictionary. At every moment
a reference resolves to what the symbols defined then say; one that was
resolved before any of its candidates was defined resolves to the symbol that
is then added; and adding a symbol, a new one or one in place of another,
changes later answers only. -/
theorem performAll_eq (dictionary : Dictionary) (actions : List DictionaryAction) :
    let answers := (performAll actions (ofDictionary dictionary)).1
    let cached := (performAll actions (ofDictionary dictionary)).2
    let plain := (Dictionary.performAll actions dictionary).2
    answers = (Dictionary.performAll actions dictionary).1 ∧
      cached.dictionary = plain ∧
      (∀ candidates isDefinition,
        (resolve ⟨.unresolved candidates, isDefinition⟩ cached).1 =
          ⟨plain.resolveCandidatesAt maxResolutionDepth candidates, isDefinition⟩) ∧
      (∀ symbol candidates isDefinition,
        plain.lookupFirst? candidates = none → symbol.identifier ∈ candidates →
          let ask := DictionaryAction.resolve ⟨.unresolved candidates, isDefinition⟩
          let meaning := (plain.addSymbol symbol).meaningAt (maxResolutionDepth - 1) symbol
          (performAll (actions ++ [ask, .addSymbol symbol, ask]) (ofDictionary dictionary)).1 =
            answers ++ [.constraint ⟨.simple .dynamic, isDefinition⟩, .done,
              .constraint ⟨meaning, isDefinition⟩]) ∧
      ∀ symbol later,
        (performAll (actions ++ .addSymbol symbol :: later) (ofDictionary dictionary)).1 =
          answers ++ .done :: (Dictionary.performAll later (plain.addSymbol symbol)).1 := by
  intro answers cached plain
  obtain ⟨first, same, sound⟩ :=
    mirrors_performAll actions (ofDictionary dictionary) (sound_ofDictionary dictionary)
  have continued (later : List DictionaryAction) :
      (performAll (actions ++ later) (ofDictionary dictionary)).1 =
        answers ++ (Dictionary.performAll later plain).1 := by
    rw [(mirrors_performAll (actions ++ later) _ (sound_ofDictionary dictionary)).1]
    exact (congrArg Prod.fst (Dictionary.performAll_append actions later dictionary)).trans
      (congrArg (· ++ _) first.symm)
  refine ⟨first, same, ?_, ?_, ?_⟩
  · intro candidates isDefinition
    rw [(answers_resolve ⟨.unresolved candidates, isDefinition⟩ cached sound).1, same]
    rfl
  · intro symbol candidates isDefinition undefined named ask meaning
    have before := Dictionary.resolveCandidates_of_undefined undefined
    have after := Dictionary.resolveCandidates_of_lookupFirst?
      (Dictionary.lookupFirst?_addSymbol undefined named)
    rw [continued, ← before, show meaning = _ from after.symm]
    simp only [Dictionary.performAll_cons]
    rfl
  · intro symbol later
    rw [continued, Dictionary.performAll_cons]
    rfl

/-- A reference to a class that is declared late, and then declared anew. -/
theorem performAll_eq_late :
    let ask := DictionaryAction.resolve ⟨.unresolved ["p.Late", "Late"], true⟩
    let late (id : Nat) := DictionaryAction.addSymbol ⟨"Late", "Late", ⟨.object id, true⟩⟩
    (performAll [ask, late 0, ask, ask, late 1, ask] (ofDictionary .empty)).1 =
      [.constraint ⟨.simple .dynamic, true⟩, .done, .constraint ⟨.object 0, true⟩,
        .constraint ⟨.object 0, true⟩, .done, .constraint ⟨.object 1, true⟩] := by
  intro ask late
  rw [(performAll_eq .empty [ask, late 0, ask, ask, late 1, ask]).1]
  decide +kernel

end CachedDictionary
end Javascribe
