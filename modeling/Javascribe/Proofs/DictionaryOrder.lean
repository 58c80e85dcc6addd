/-
# Blocks of declarations in another order

The dictionary of a compilation is made of blocks of declarations, one behind
the other. Where the blocks define different identifiers, putting them in
another order only changes the numbers: the two dictionaries are the same up
to a permutation of the numbers (`Dictionary.exists_permutes`). Two blocks
next to each other are exchanged by moving their numbers past each other
(`Dictionary.permutes_swap`), and the blocks behind them keep theirs
(`Dictionary.Permutes.append`).

Key definitions: `LawfulRenamable`, `Dictionary.Closed`,
`Dictionary.Permutes`, `Collection.Disjoint`, `exchange`.
Key theorems: `Dictionary.permutes_swap`, `Dictionary.Permutes.append`,
`Dictionary.exists_permutes`.
-/
import Javascribe.Proofs.Collecting
import Javascribe.Proofs.Tables
import Mathlib.Data.List.Perm.Basic

namespace Javascribe

/-! ### Renaming twice -/

/-- All numbers stay the same. -/
def Renaming.refl : Renaming := ⟨id, id⟩

/-- One renaming after the other. -/
def Renaming.trans (ρ σ : Renaming) : Renaming :=
  ⟨σ.object ∘ ρ.object, σ.function ∘ ρ.function⟩

/-- Renaming twice is renaming once, and keeping all numbers changes nothing. -/
class LawfulRenamable (α : Type) [Renamable α] : Prop where
  rename_refl (a : α) : rename .refl a = a
  rename_trans (ρ σ : Renaming) (a : α) : rename (ρ.trans σ) a = rename σ (rename ρ a)

export LawfulRenamable (rename_refl rename_trans)

section Lawful

variable {α κ : Type} [Renamable α] [LawfulRenamable α]

instance : LawfulRenamable Nat := ⟨fun _ => rfl, fun _ _ _ => rfl⟩

instance : LawfulRenamable (Option α) where
  rename_refl a := by cases a <;> simp [rename_refl]
  rename_trans ρ σ a := by cases a <;> simp [rename_trans]

instance : LawfulRenamable (List α) where
  rename_refl as := by
    rw [rename_list]
    exact List.map_id'' rename_refl as
  rename_trans ρ σ as := by
    simp [rename_list, rename_trans]

instance : LawfulRenamable (Table κ α) where
  rename_refl table := by
    obtain ⟨entries⟩ := table
    refine congrArg Table.mk (List.map_id'' ?_ entries)
    exact fun entry => congrArg (entry.1, ·) (rename_refl entry.2)
  rename_trans ρ σ table := by
    refine congrArg Table.mk ?_
    show _ = (table.entries.map _).map _
    rw [List.map_map]
    exact List.map_congr_left fun entry _ => congrArg (entry.1, ·) (rename_trans ρ σ entry.2)

instance : LawfulRenamable Definition where
  rename_refl definition := by
    show definition.rename .refl = definition
    induction definition with
    | array element _ ih => rw [Definition.rename, ih]
    | _ => rfl
  rename_trans ρ σ definition := by
    show definition.rename _ = (definition.rename ρ).rename σ
    induction definition with
    | array element _ ih => rw [Definition.rename, ih]; rfl
    | _ => rfl

instance : LawfulRenamable Constraint where
  rename_refl constraint := congrArg (Constraint.mk · _) (rename_refl constraint.definition)
  rename_trans ρ σ constraint :=
    congrArg (Constraint.mk · _) (rename_trans ρ σ constraint.definition)

instance : LawfulRenamable FunctionType where
  rename_refl function := by
    show { function with parameters := rename .refl function.parameters, result := _ } = function
    rw [rename_refl, rename_refl]
  rename_trans ρ σ function := by
    show { function with parameters := rename (ρ.trans σ) function.parameters, result := _ } = _
    rw [rename_trans, rename_trans]
    rfl

instance : LawfulRenamable ObjectMember where
  rename_refl member := congrArg (fun constraint => { member with constraint := constraint })
    (rename_refl member.constraint)
  rename_trans ρ σ member := by
    show { member with constraint := rename (ρ.trans σ) member.constraint, parent := _ } = _
    rw [rename_trans, rename_trans]
    rfl

instance : LawfulRenamable ObjectType where
  rename_refl object := by
    show { object with
      constructors := object.constructors.map id
      supertypes := rename .refl object.supertypes
      members := rename .refl object.members } = object
    rw [rename_refl, rename_refl, List.map_id]
  rename_trans ρ σ object := by
    show { object with
      constructors := object.constructors.map (σ.function ∘ ρ.function)
      supertypes := rename (ρ.trans σ) object.supertypes
      members := rename (ρ.trans σ) object.members } = _
    rw [rename_trans, rename_trans, ← List.map_map]
    rfl

instance : LawfulRenamable Symbol where
  rename_refl symbol := congrArg (Symbol.mk _ _) (rename_refl symbol.constraint)
  rename_trans ρ σ symbol := congrArg (Symbol.mk _ _) (rename_trans ρ σ symbol.constraint)

end Lawful

/-! ### Symbols -/

/-- The last of the symbols with an identifier. -/
def lastDefined (symbols : List Symbol) (identifier : String) : Option Symbol :=
  symbols.reverse.find? (·.identifier == identifier)

theorem lastDefined_cons (symbol : Symbol) (symbols : List Symbol) (identifier : String) :
    lastDefined (symbol :: symbols) identifier =
      (lastDefined symbols identifier).or
        (if symbol.identifier == identifier then some symbol else none) := by
  rw [lastDefined, List.reverse_cons, List.find?_append, lastDefined, List.find?_singleton]

theorem lastDefined_rename (τ : Renaming) (symbols : List Symbol) (identifier : String) :
    lastDefined (rename τ symbols) identifier = rename τ (lastDefined symbols identifier) := by
  rw [lastDefined, rename_list, ← List.map_reverse, List.find?_map]
  rfl

theorem Dictionary.symbol?_addSymbols (symbols : List Symbol) (d : Dictionary)
    (identifier : String) :
    (symbols.foldl Dictionary.addSymbol d).symbol? identifier =
      (lastDefined symbols identifier).or (d.symbol? identifier) := by
  induction symbols generalizing d with
  | nil => rfl
  | cons symbol symbols ih =>
    have added : (d.addSymbol symbol).symbol? identifier =
        if symbol.identifier == identifier then some symbol else d.symbol? identifier :=
      Table.lookup_insertEntry symbol.identifier identifier symbol d.symbols.entries
    rw [List.foldl_cons, ih, added, lastDefined_cons, Option.or_assoc]
    congr 1
    split <;> rfl

/-! ### Blocks behind a dictionary -/

namespace Collection

variable (τ : Renaming) (d : Dictionary) (block : Collection)

theorem object_behind (id : Nat) :
    (block.behind τ d).dictionary.object id =
      if id < d.objects.size then d.object id
      else rename τ (block.dictionary.object (id - d.objects.size)) := by
  show ((d.objects ++ block.dictionary.objects.map (rename τ))[id]?).getD _ = _
  rw [Array.getElem?_append]
  split
  · rfl
  · rw [Array.getElem?_map]
    unfold Dictionary.object
    cases block.dictionary.objects[id - d.objects.size]? <;> rfl

theorem function_behind (id : Nat) :
    (block.behind τ d).dictionary.function id =
      if id < d.functions.size then d.function id
      else rename τ (block.dictionary.function (id - d.functions.size)) := by
  show ((d.functions ++ block.dictionary.functions.map (rename τ))[id]?).getD _ = _
  rw [Array.getElem?_append]
  split
  · rfl
  · rw [Array.getElem?_map]
    unfold Dictionary.function
    cases block.dictionary.functions[id - d.functions.size]? <;> rfl

theorem symbol?_behind (identifier : String) :
    (block.behind τ d).dictionary.symbol? identifier =
      (rename τ (lastDefined block.defined identifier)).or (d.symbol? identifier) := by
  show ((rename τ block.defined).foldl Dictionary.addSymbol d).symbol? identifier = _
  rw [Dictionary.symbol?_addSymbols, lastDefined_rename]

variable {τ d block}

theorem IsOwn.object (h : block.IsOwn) (numbers : d.Numbers τ block.dictionary) (id : Nat) :
    rename τ (block.dictionary.object id) = rename d.numbering (block.dictionary.object id) := by
  have behind : ¬ d.objects.size + id < d.objects.size := by omega
  have same := congrArg (·.dictionary.object (d.objects.size + id)) (h d τ numbers)
  simpa [object_behind, behind] using same

theorem IsOwn.function (h : block.IsOwn) (numbers : d.Numbers τ block.dictionary) (id : Nat) :
    rename τ (block.dictionary.function id) =
      rename d.numbering (block.dictionary.function id) := by
  have behind : ¬ d.functions.size + id < d.functions.size := by omega
  have same := congrArg (·.dictionary.function (d.functions.size + id)) (h d τ numbers)
  simpa [function_behind, behind] using same

theorem IsOwn.lastDefined (h : block.IsOwn) (numbers : d.Numbers τ block.dictionary)
    (identifier : String) :
    rename τ (lastDefined block.defined identifier) =
      rename d.numbering (Javascribe.lastDefined block.defined identifier) := by
  have same : rename τ block.defined = rename d.numbering block.defined :=
    congrArg Collection.defined (h d τ numbers)
  rw [← lastDefined_rename, same, lastDefined_rename]

/-- Blocks that define different identifiers. -/
def Disjoint (a b : Collection) : Prop :=
  ∀ s ∈ a.defined, ∀ t ∈ b.defined, s.identifier ≠ t.identifier

theorem Disjoint.symm {a b : Collection} (h : a.Disjoint b) : b.Disjoint a :=
  fun s hs t ht => (h t ht s hs).symm

theorem Disjoint.lastDefined {a b : Collection} (h : a.Disjoint b) (identifier : String) :
    lastDefined a.defined identifier = none ∨ Javascribe.lastDefined b.defined identifier = none := by
  rw [or_iff_not_imp_left]
  intro found
  obtain ⟨s, hs⟩ := Option.ne_none_iff_exists'.mp found
  have mem := List.mem_of_find?_eq_some hs
  have same := List.find?_some hs
  rw [List.mem_reverse] at mem
  rw [Javascribe.lastDefined, List.find?_eq_none]
  intro t ht equal
  rw [List.mem_reverse] at ht
  exact h s mem t ht (by simp_all)

end Collection

namespace Dictionary

section Append

variable (d : Dictionary) (block : Collection)

theorem object_append (id : Nat) :
    (d.append block).object id =
      if id < d.objects.size then d.object id
      else rename d.numbering (block.dictionary.object (id - d.objects.size)) :=
  Collection.object_behind d.numbering d block id

theorem function_append (id : Nat) :
    (d.append block).function id =
      if id < d.functions.size then d.function id
      else rename d.numbering (block.dictionary.function (id - d.functions.size)) :=
  Collection.function_behind d.numbering d block id

theorem symbol?_append (identifier : String) :
    (d.append block).symbol? identifier =
      (rename d.numbering (lastDefined block.defined identifier)).or (d.symbol? identifier) :=
  Collection.symbol?_behind d.numbering d block identifier

theorem size_objects_append :
    (d.append block).objects.size = d.objects.size + block.dictionary.objects.size := by
  simp [append, Collection.behind]

theorem size_functions_append :
    (d.append block).functions.size = d.functions.size + block.dictionary.functions.size := by
  simp [append, Collection.behind]

end Append

/-! ### Dictionaries that mention only their own numbers -/

/-- The renaming keeps the numbers of what the dictionary holds. -/
structure Fixes (d : Dictionary) (τ : Renaming) : Prop where
  object (id : Nat) : id < d.objects.size → τ.object id = id
  function (id : Nat) : id < d.functions.size → τ.function id = id

/-- A dictionary mentions only numbers of what it holds. -/
structure Closed (d : Dictionary) : Prop where
  object (τ : Renaming) (h : d.Fixes τ) (id : Nat) : rename τ (d.object id) = d.object id
  function (τ : Renaming) (h : d.Fixes τ) (id : Nat) : rename τ (d.function id) = d.function id
  symbol? (τ : Renaming) (h : d.Fixes τ) (identifier : String) :
    rename τ (d.symbol? identifier) = d.symbol? identifier

theorem rename_or {α : Type} [Renamable α] (τ : Renaming) (a b : Option α) :
    rename τ (a.or b) = (rename τ a).or (rename τ b) := by
  cases a <;> rfl

section Closed

variable {d : Dictionary} {block : Collection} {τ : Renaming}

theorem Fixes.of_append (h : (d.append block).Fixes τ) : d.Fixes τ := by
  constructor <;> intro id lt
  · exact h.object id (by rw [size_objects_append]; omega)
  · exact h.function id (by rw [size_functions_append]; omega)

theorem Fixes.numbers (h : (d.append block).Fixes τ) :
    d.Numbers (d.numbering.trans τ) block.dictionary := by
  constructor <;> intro id lt
  · exact h.object _ (by rw [size_objects_append]; exact Nat.add_lt_add_left lt _)
  · exact h.function _ (by rw [size_functions_append]; exact Nat.add_lt_add_left lt _)

theorem Closed.append (h : d.Closed) (own : block.IsOwn) : (d.append block).Closed := by
  refine ⟨fun τ fixes id => ?_, fun τ fixes id => ?_, fun τ fixes identifier => ?_⟩
  · rw [object_append]
    split
    · exact h.object τ fixes.of_append id
    · rw [← rename_trans]
      exact own.object fixes.numbers _
  · rw [function_append]
    split
    · exact h.function τ fixes.of_append id
    · rw [← rename_trans]
      exact own.function fixes.numbers _
  · rw [symbol?_append, rename_or, h.symbol? τ fixes.of_append, ← rename_trans,
      own.lastDefined fixes.numbers]

end Closed

/-! ### Dictionaries with their numbers permuted -/

/-- The second dictionary is the first with the numbers of what it holds permuted. -/
structure Permutes (ρ : Renaming) (d d' : Dictionary) : Prop extends d.Renames ρ d' where
  objects : Function.Bijective ρ.object
  functions : Function.Bijective ρ.function
  size_objects : d'.objects.size = d.objects.size
  size_functions : d'.functions.size = d.functions.size
  object_outside (id : Nat) : d.objects.size ≤ id → ρ.object id = id
  function_outside (id : Nat) : d.functions.size ≤ id → ρ.function id = id

/-- Numbers are exchanged only among those that are not kept. -/
theorem lt_of_outside {f : Nat → Nat} (injective : Function.Injective f) {n : Nat}
    (outside : ∀ id, n ≤ id → f id = id) {id : Nat} (lt : id < n) : f id < n := by
  by_contra h
  have fixed : f id = id := injective (outside (f id) (Nat.le_of_not_lt h))
  omega

namespace Permutes

variable {ρ σ : Renaming} {d d' d'' : Dictionary}

theorem refl (d : Dictionary) : d.Permutes .refl d where
  injective := ⟨Function.injective_id, Function.injective_id⟩
  native _ _ _ := rfl
  object id := (rename_refl (d.object id)).symm
  function id := (rename_refl (d.function id)).symm
  symbol? identifier := (rename_refl (d.symbol? identifier)).symm
  objects := Function.bijective_id
  functions := Function.bijective_id
  size_objects := rfl
  size_functions := rfl
  object_outside _ _ := rfl
  function_outside _ _ := rfl

theorem trans (h : d.Permutes ρ d') (h' : d'.Permutes σ d'') : d.Permutes (ρ.trans σ) d'' where
  injective := ⟨h'.injective.object.comp h.injective.object,
    h'.injective.function.comp h.injective.function⟩
  native type id boxed := by
    show σ.object (ρ.object id) = id
    rw [h.native type id boxed, h'.native type id boxed]
  object id := by
    rw [rename_trans, ← h.object, ← h'.object]
    rfl
  function id := by
    rw [rename_trans, ← h.function, ← h'.function]
    rfl
  symbol? identifier := by rw [rename_trans, ← h.symbol?, ← h'.symbol?]
  objects := h'.objects.comp h.objects
  functions := h'.functions.comp h.functions
  size_objects := h'.size_objects.trans h.size_objects
  size_functions := h'.size_functions.trans h.size_functions
  object_outside id le := by
    show σ.object (ρ.object id) = id
    rw [h.object_outside id le, h'.object_outside id (h.size_objects ▸ le)]
  function_outside id le := by
    show σ.function (ρ.function id) = id
    rw [h.function_outside id le, h'.function_outside id (h.size_functions ▸ le)]

/-- Blocks behind the permuted numbers keep theirs. -/
theorem append (h : d.Permutes ρ d') (block : Collection) :
    (d.append block).Permutes ρ (d'.append block) := by
  have numbering : d'.numbering = d.numbering := by
    rw [Dictionary.numbering, Dictionary.numbering, h.size_objects, h.size_functions]
  have kept : d.numbering.trans ρ = d.numbering := by
    have objects : ρ.object ∘ d.numbering.object = d.numbering.object :=
      funext fun id => h.object_outside _ (Nat.le_add_right _ id)
    have functions : ρ.function ∘ d.numbering.function = d.numbering.function :=
      funext fun id => h.function_outside _ (Nat.le_add_right _ id)
    rw [Renaming.trans, objects, functions]
  refine { h with
    object := fun id => ?_
    function := fun id => ?_
    symbol? := fun identifier => ?_
    size_objects := by rw [size_objects_append, size_objects_append, h.size_objects]
    size_functions := by rw [size_functions_append, size_functions_append, h.size_functions]
    object_outside := fun id le => h.object_outside id (by rw [size_objects_append] at le; omega)
    function_outside := fun id le =>
      h.function_outside id (by rw [size_functions_append] at le; omega) }
  · rw [object_append, object_append, h.size_objects, numbering]
    by_cases lt : id < d.objects.size
    · rw [if_pos lt, if_pos (lt_of_outside h.injective.object h.object_outside lt), h.object]
    · rw [if_neg lt, h.object_outside id (Nat.le_of_not_lt lt), if_neg lt, ← rename_trans, kept]
  · rw [function_append, function_append, h.size_functions, numbering]
    by_cases lt : id < d.functions.size
    · rw [if_pos lt, if_pos (lt_of_outside h.injective.function h.function_outside lt), h.function]
    · rw [if_neg lt, h.function_outside id (Nat.le_of_not_lt lt), if_neg lt, ← rename_trans, kept]
  · rw [symbol?_append, symbol?_append, numbering, h.symbol?, rename_or, ← rename_trans, kept]

end Permutes

/-! ### Two blocks exchanged -/

/-- The numbers of two blocks behind `base`, the one with `first` numbers and
the other with `second`, moved past each other. -/
def exchange (base first second id : Nat) : Nat :=
  if id < base then id
  else if id < base + first then id + second
  else if id < base + first + second then id - first
  else id

theorem exchange_exchange (base first second id : Nat) :
    exchange base second first (exchange base first second id) = id := by
  unfold exchange
  split_ifs <;> omega

theorem bijective_exchange (base first second : Nat) :
    Function.Bijective (exchange base first second) :=
  Function.bijective_iff_has_inverse.mpr
    ⟨exchange base second first, exchange_exchange base first second,
      exchange_exchange base second first⟩

/-- Where the second sequence has two blocks the other way round. -/
theorem get_exchange {β : Type} {n k m : Nat} {v : β → β} {base a b a' b' : Nat → β}
    (hBase : ∀ id, v (base id) = base id) (hA : ∀ id, v (a id) = a' id)
    (hB : ∀ id, v (b id) = b' id) (outside : ∀ i j, k ≤ i → m ≤ j → a' i = b' j) (id : Nat) :
    (if exchange n k m id < n + m then
        if exchange n k m id < n then base (exchange n k m id) else b' (exchange n k m id - n)
      else a' (exchange n k m id - (n + m))) =
    v (if id < n + k then if id < n then base id else a (id - n) else b (id - (n + k))) := by
  unfold exchange
  by_cases h : id < n
  · have h' : id < n + k := by omega
    have h'' : id < n + m := by omega
    simp only [if_pos h, if_pos h', if_pos h'', hBase]
  by_cases h' : id < n + k
  · have moved : ¬ id + m < n + m := by omega
    simp only [if_neg h, if_pos h', if_neg moved, hA]
    congr 1
    omega
  by_cases h'' : id < n + k + m
  · have moved : id - k < n + m := by omega
    have moved' : ¬ id - k < n := by omega
    simp only [if_neg h, if_neg h', if_pos h'', if_pos moved, if_neg moved', hB]
    congr 1
    omega
  · have kept : ¬ id < n + m := by omega
    simp only [if_neg h, if_neg h', if_neg h'', if_neg kept, hB]
    exact outside _ _ (by omega) (by omega)

section Swap

variable {d : Dictionary} {a b : Collection}

/-- The numbers of two blocks moved past each other. -/
def exchanging (d : Dictionary) (a b : Collection) : Renaming where
  object := exchange d.objects.size a.dictionary.objects.size b.dictionary.objects.size
  function := exchange d.functions.size a.dictionary.functions.size b.dictionary.functions.size

theorem numbers_exchanging_first :
    (d.append b).Numbers (d.numbering.trans (exchanging d a b)) a.dictionary := by
  constructor <;> intro id lt
  · rw [size_objects_append]
    show exchange _ _ _ (d.objects.size + id) = _
    unfold exchange
    split_ifs <;> omega
  · rw [size_functions_append]
    show exchange _ _ _ (d.functions.size + id) = _
    unfold exchange
    split_ifs <;> omega

theorem numbers_exchanging_second :
    d.Numbers ((d.append a).numbering.trans (exchanging d a b)) b.dictionary := by
  constructor <;> intro id lt
  · show exchange _ _ _ ((d.append a).objects.size + id) = _
    rw [size_objects_append]
    unfold exchange
    split_ifs <;> omega
  · show exchange _ _ _ ((d.append a).functions.size + id) = _
    rw [size_functions_append]
    unfold exchange
    split_ifs <;> omega

theorem object_outside (d : Dictionary) {id : Nat} (h : d.objects.size ≤ id) :
    d.object id = .new "" .classType := by
  rw [object, Array.getElem?_eq_none h]
  rfl

theorem function_outside (d : Dictionary) {id : Nat} (h : d.functions.size ≤ id) :
    d.function id = ⟨"", [], [], .simple .void, false⟩ := by
  rw [function, Array.getElem?_eq_none h]
  rfl

theorem fixes_exchanging : d.Fixes (exchanging d a b) :=
  ⟨fun _ lt => if_pos lt, fun _ lt => if_pos lt⟩

/-- **Two blocks can be exchanged.** -/
theorem permutes_swap (closed : d.Closed) (natives : 2 ≤ d.objects.size) (ownA : a.IsOwn)
    (ownB : b.IsOwn) (disjoint : a.Disjoint b) :
    ((d.append a).append b).Permutes (exchanging d a b) ((d.append b).append a) where
  injective := ⟨(bijective_exchange _ _ _).injective, (bijective_exchange _ _ _).injective⟩
  native type id boxed := by
    have small : id < 2 := by
      cases type <;> simp [Native.boxed?, Native.stringObject, Native.numberObject] at boxed <;>
        omega
    exact fixes_exchanging.object id (by omega)
  object id := by
    rw [object_append, object_append, object_append, object_append, size_objects_append,
      size_objects_append]
    have first (i : Nat) : rename (d.exchanging a b) (rename d.numbering (a.dictionary.object i)) =
        rename (d.append b).numbering (a.dictionary.object i) := by
      rw [← rename_trans]
      exact ownA.object numbers_exchanging_first i
    have second (i : Nat) :
        rename (d.exchanging a b) (rename (d.append a).numbering (b.dictionary.object i)) =
          rename d.numbering (b.dictionary.object i) := by
      rw [← rename_trans]
      exact ownB.object numbers_exchanging_second i
    refine get_exchange (closed.object _ fixes_exchanging) first second (fun i j hi hj => ?_) id
    rw [object_outside _ hi, object_outside _ hj]
    rfl
  function id := by
    rw [function_append, function_append, function_append, function_append, size_functions_append,
      size_functions_append]
    have first (i : Nat) : rename (d.exchanging a b) (rename d.numbering (a.dictionary.function i)) =
        rename (d.append b).numbering (a.dictionary.function i) := by
      rw [← rename_trans]
      exact ownA.function numbers_exchanging_first i
    have second (i : Nat) :
        rename (d.exchanging a b) (rename (d.append a).numbering (b.dictionary.function i)) =
          rename d.numbering (b.dictionary.function i) := by
      rw [← rename_trans]
      exact ownB.function numbers_exchanging_second i
    refine get_exchange (closed.function _ fixes_exchanging) first second (fun i j hi hj => ?_) id
    rw [function_outside _ hi, function_outside _ hj]
    rfl
  symbol? identifier := by
    rw [symbol?_append, symbol?_append, symbol?_append, symbol?_append, rename_or, rename_or,
      closed.symbol? _ fixes_exchanging, ← rename_trans, ← rename_trans,
      ownA.lastDefined numbers_exchanging_first, ownB.lastDefined numbers_exchanging_second]
    have one := disjoint.lastDefined identifier
    cases hA : lastDefined a.defined identifier <;>
      cases hB : lastDefined b.defined identifier <;> simp_all
  objects := bijective_exchange _ _ _
  functions := bijective_exchange _ _ _
  size_objects := by simp only [size_objects_append]; omega
  size_functions := by simp only [size_functions_append]; omega
  object_outside id le := by
    rw [size_objects_append, size_objects_append] at le
    show exchange _ _ _ id = id
    unfold exchange
    split_ifs <;> omega
  function_outside id le := by
    rw [size_functions_append, size_functions_append] at le
    show exchange _ _ _ id = id
    unfold exchange
    split_ifs <;> omega

end Swap

/-! ### Blocks in any order -/

theorem Permutes.appendAll {ρ : Renaming} {d d' : Dictionary} (h : d.Permutes ρ d')
    (blocks : List Collection) :
    (blocks.foldl Dictionary.append d).Permutes ρ (blocks.foldl Dictionary.append d') := by
  induction blocks generalizing d d' with
  | nil => exact h
  | cons block blocks ih => exact ih (h.append block)

/-- **The order of blocks does not matter.** Blocks of declarations that define
different identifiers give, in any order, the same dictionary up to a
permutation of the numbers. -/
theorem exists_permutes {blocks blocks' : List Collection} (perm : blocks.Perm blocks')
    {d : Dictionary} (closed : d.Closed) (natives : 2 ≤ d.objects.size)
    (own : ∀ block ∈ blocks, block.IsOwn) (disjoint : blocks.Pairwise Collection.Disjoint) :
    ∃ ρ, (blocks.foldl append d).Permutes ρ (blocks'.foldl append d) := by
  induction perm generalizing d with
  | nil => exact ⟨_, .refl d⟩
  | cons block perm ih =>
    rw [List.forall_mem_cons] at own
    refine ih (closed.append own.1) ?_ own.2 (List.pairwise_cons.mp disjoint).2
    rw [size_objects_append]
    omega
  | swap a b blocks =>
    rw [List.forall_mem_cons, List.forall_mem_cons] at own
    have differ := (List.pairwise_cons.mp disjoint).1 a (List.mem_cons_self ..)
    exact ⟨_, (permutes_swap closed natives own.1 own.2.1 differ).appendAll blocks⟩
  | trans first second ih ih' =>
    obtain ⟨ρ, h⟩ := ih closed natives own disjoint
    obtain ⟨σ, h'⟩ := ih' closed natives (fun block mem => own block (first.mem_iff.mpr mem))
      (first.pairwise disjoint Collection.Disjoint.symm)
    exact ⟨_, h.trans h'⟩

end Dictionary

end Javascribe
