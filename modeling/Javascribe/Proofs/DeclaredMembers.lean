/-
# No declared member is lost

The members of an object type are in one table, by their names. A method moves
out of the way when a second one of its name comes; a field or a nested type
does not, and takes the place of what is there. So all declarations are kept
exactly when each finds room as it comes (`HasRoom`): a field or nested type
where no other one of its name and not a single method of it is before, a method
where no field or nested type of its name is before, or where at least two
methods of the name are.

Key definitions: `HasRoom`, `AllHaveRoom`, `KeptAs`, `ObjectType.Keeps`.
Key theorems: `ObjectType.Keeps.declare`, `ObjectType.keeps_declareAll`,
`Dictionary.members_kept_iff`.
-/
import Javascribe.Proofs.Overriding
import Mathlib.Data.List.Perm.Basic

namespace Javascribe

/-! ### Room for a name -/

/-- The name of a member, and whether it is one of a method. -/
def ObjectMember.use (member : ObjectMember) : String × Bool := (member.name, member.isMethod)

/-- The name that is declared, and whether it is one of a method. -/
def Tree.Member.use (member : Tree.Member) : String × Bool := (member.name, member.method?.isSome)

/-- After the names before it, a name does not take the place of another. -/
def HasRoom (before : List (String × Bool)) (use : String × Bool) : Prop :=
  if use.2 then (use.1, false) ∈ before → 2 ≤ before.count (use.1, true)
  else (use.1, false) ∉ before ∧ before.count (use.1, true) ≠ 1

instance (before : List (String × Bool)) (use : String × Bool) : Decidable (HasRoom before use) :=
  inferInstanceAs (Decidable (if use.2 then _ else _))

theorem hasRoom_of_isMethod {before : List (String × Bool)} {member : ObjectMember}
    (isMethod : member.isMethod = true) : HasRoom before member.use ↔
      ((member.name, false) ∈ before → 2 ≤ before.count (member.name, true)) :=
  iff_of_eq (if_pos isMethod)

theorem hasRoom_of_not_isMethod {before : List (String × Bool)} {member : ObjectMember}
    (noMethod : ¬ member.isMethod = true) : HasRoom before member.use ↔
      (member.name, false) ∉ before ∧ before.count (member.name, true) ≠ 1 :=
  iff_of_eq (if_neg noMethod)

/-- Each name has room when it comes. -/
def AllHaveRoom (uses : List (String × Bool)) : Prop :=
  ∀ i (h : i < uses.length), HasRoom (uses.take i) uses[i]

instance (uses : List (String × Bool)) : Decidable (AllHaveRoom uses) :=
  inferInstanceAs (Decidable (∀ i (h : i < uses.length), HasRoom (uses.take i) uses[i]))

theorem allHaveRoom_concat {uses : List (String × Bool)} {use : String × Bool} :
    AllHaveRoom (uses ++ [use]) ↔ AllHaveRoom uses ∧ HasRoom uses use := by
  constructor
  · intro all
    constructor
    · intro i lt
      have room := all i (by rw [List.length_append]; omega)
      rwa [List.take_append_of_le_length (Nat.le_of_lt lt), List.getElem_append_left lt] at room
    · have room := all uses.length (by simp)
      rwa [List.take_left, List.getElem_concat_length rfl] at room
  · rintro ⟨all, room⟩ i lt
    rw [List.length_append, List.length_singleton] at lt
    by_cases before : i < uses.length
    · rw [List.take_append_of_le_length (Nat.le_of_lt before), List.getElem_append_left before]
      exact all i before
    · obtain rfl : i = uses.length := by omega
      rwa [List.take_left, List.getElem_concat_length rfl]

/-- The name is none under which one of several methods of a name is stored. -/
def IsNoOverload (uses : List (String × Bool)) (name : String) : Prop :=
  ∀ other i, 2 ≤ uses.count (other, true) → i < uses.count (other, true) →
    name ≠ overloadName other i

/-! ### Members under stored names -/

/-- The table holds members, each under the name it is stored as, and nothing else. -/
structure KeptAs (table : Table String ObjectMember) (kept : List (ObjectMember × String)) :
    Prop where
  entries : table.entries.Perm (kept.map fun p => (p.2, { p.1 with name := p.2 }))
  nodup : table.keys.Nodup

namespace KeptAs

variable {table : Table String ObjectMember} {kept kept' : List (ObjectMember × String)}
  {member : ObjectMember} {name : String} {p : ObjectMember × String}

theorem perm (h : KeptAs table kept) (same : kept.Perm kept') : KeptAs table kept' :=
  ⟨h.entries.trans (same.map _), h.nodup⟩

theorem length_keys (h : KeptAs table kept) : table.keys.length = kept.length := by
  rw [Table.keys, List.length_map, h.entries.length_eq, List.length_map]

theorem find?_of_mem (h : KeptAs table kept) (mem : p ∈ kept) :
    table.find? p.2 = some { p.1 with name := p.2 } :=
  Table.find?_of_mem h.nodup (h.entries.mem_iff.mpr (List.mem_map_of_mem mem))

theorem exists_of_find? (h : KeptAs table kept) (found : table.find? name = some member) :
    ∃ p ∈ kept, p.2 = name ∧ member = { p.1 with name := name } := by
  obtain ⟨p, mem, same⟩ := List.mem_map.mp (h.entries.mem_iff.mp (Table.mem_of_find? found))
  obtain ⟨rfl, rfl⟩ := Prod.mk.inj same
  exact ⟨p, mem, rfl, rfl⟩

theorem find?_eq_none (h : KeptAs table kept) (free : ∀ p ∈ kept, p.2 ≠ name) :
    table.find? name = none := by
  rw [Option.eq_none_iff_forall_ne_some]
  intro member found
  obtain ⟨p, mem, same, -⟩ := h.exists_of_find? found
  exact free p mem same

theorem insert (h : KeptAs table kept) (member : ObjectMember) (free : ∀ p ∈ kept, p.2 ≠ name) :
    KeptAs (table.insert name { member with name := name }) ((member, name) :: kept) := by
  have none := h.find?_eq_none free
  refine ⟨?_, (Table.nodup_keys_insert _ none h.nodup).1⟩
  rw [Table.entries_insert_of_find?_eq_none _ none]
  exact (List.perm_append_singleton _ _).trans (h.entries.cons _)

theorem erase (h : KeptAs table ((member, name) :: kept)) : KeptAs (table.erase name) kept := by
  have perm := Table.entries_erase_perm h.nodup (h.entries.mem_iff.mpr List.mem_cons_self)
  have keys := (perm.map Prod.fst).nodup_iff.mpr h.nodup
  exact ⟨(perm.trans h.entries).cons_inv, (List.nodup_cons.mp keys).2⟩

end KeptAs

/-- One of several methods of a name is stored under the name of an overload,
everything else under its own name. -/
def IsPlace (uses : List (String × Bool)) (p : ObjectMember × String) : Prop :=
  if p.1.isMethod = true ∧ 2 ≤ uses.count (p.1.name, true) then
    ∃ i < uses.count (p.1.name, true), p.2 = overloadName p.1.name i
  else p.2 = p.1.name

section Place

variable {uses all : List (String × Bool)} {use : String × Bool} {p : ObjectMember × String}

theorem IsPlace.eq_name (h : IsPlace uses p)
    (alone : p.1.isMethod = true → uses.count (p.1.name, true) < 2) : p.2 = p.1.name := by
  rwa [IsPlace, if_neg fun many => Nat.not_le.mpr (alone many.1) many.2] at h

/-- One more name leaves the others in their places, unless it is that of a
second method. -/
theorem IsPlace.concat (h : IsPlace uses p)
    (kept : use = (p.1.name, true) → p.1.isMethod = true → 2 ≤ uses.count use) :
    IsPlace (uses ++ [use]) p := by
  unfold IsPlace at h ⊢
  rw [List.count_append]
  by_cases same : use = (p.1.name, true)
  · by_cases isMethod : p.1.isMethod = true
    · have many : 2 ≤ uses.count (p.1.name, true) := same ▸ kept same isMethod
      rw [if_pos ⟨isMethod, many⟩] at h
      rw [if_pos ⟨isMethod, by omega⟩]
      obtain ⟨i, lt, stored⟩ := h
      exact ⟨i, by omega, stored⟩
    · rw [if_neg fun many => isMethod many.1] at h ⊢
      exact h
  · have none : [use].count (p.1.name, true) = 0 := List.count_eq_zero.mpr (by simpa using Ne.symm same)
    rwa [none, Nat.add_zero]

/-- What is stored under a name that is none of an overload has that name. -/
theorem IsPlace.of_eq (h : IsPlace uses p) (within : uses.Sublist all) {name : String}
    (noOverload : IsNoOverload all name) (same : p.2 = name) :
    p.1.name = name ∧ (p.1.isMethod = true → uses.count (name, true) < 2) := by
  unfold IsPlace at h
  split at h
  · next many =>
    obtain ⟨i, lt, stored⟩ := h
    have le := within.count_le (p.1.name, true)
    exact absurd (same.symm.trans stored) (noOverload _ i (by omega) (by omega))
  · next alone =>
    obtain rfl : p.1.name = name := h.symm.trans same
    exact ⟨rfl, fun isMethod => Nat.lt_of_not_le fun many => alone ⟨isMethod, many⟩⟩

/-- Where a method is stored as the overload with a number, it is that one. -/
theorem IsPlace.of_eq_overloadName (h : IsPlace uses p) {name : String} {i : Nat}
    (noOverload : p.1.name ≠ overloadName name i) (same : p.2 = overloadName name i) :
    p.1.use = (name, true) ∧ i < uses.count (name, true) := by
  unfold IsPlace at h
  split at h
  · next many =>
    obtain ⟨j, lt, stored⟩ := h
    obtain ⟨rfl, rfl⟩ := overloadName_inj.mp (stored.symm.trans same)
    exact ⟨Prod.ext rfl many.1, lt⟩
  · exact absurd (h.symm.trans same) noOverload

end Place

/-! ### Declaring one after the other -/

namespace ObjectType

/-- The object type has the members, each in its place, and nothing else. -/
structure Keeps (object : ObjectType) (members : List ObjectMember) : Prop where
  kept : ∃ kept, (kept.map Prod.fst).Perm members ∧ KeptAs object.members kept ∧
    ∀ p ∈ kept, IsPlace (members.map (·.use)) p
  overloads (name : String) : (object.overloads? name).map List.length =
    if 2 ≤ (members.map (·.use)).count (name, true) then
      some ((members.map (·.use)).count (name, true))
    else none

variable {object : ObjectType} {members : List ObjectMember} {member : ObjectMember}
  {all : List (String × Bool)}

theorem use_mem (mem : member ∈ members) : member.use ∈ members.map (·.use) :=
  List.mem_map_of_mem mem

theorem keeps_nil (noMembers : object.members = .empty) (noOverloads : object.overloads = .empty) :
    object.Keeps [] where
  kept := ⟨[], .nil, by rw [noMembers]; exact ⟨.nil, .nil⟩, List.forall_mem_nil _⟩
  overloads name := by rw [overloads?, noOverloads]; rfl

namespace Keeps

variable (h : object.Keeps members)
include h

theorem length_keys : object.members.keys.length = members.length := by
  obtain ⟨kept, perm, keptAs, -⟩ := h.kept
  rw [keptAs.length_keys, ← perm.length_eq, List.length_map]

/-- What is not one of several methods is there under its name. -/
theorem ownMember?_name (mem : member ∈ members)
    (alone : member.isMethod = true → (members.map (·.use)).count (member.name, true) < 2) :
    object.ownMember? member.name = some member := by
  obtain ⟨kept, perm, keptAs, places⟩ := h.kept
  obtain ⟨p, there, rfl⟩ := List.mem_map.mp (perm.mem_iff.mpr mem)
  have found := keptAs.find?_of_mem there
  rwa [(places p there).eq_name alone] at found

theorem overloads?_eq_none {name : String} (few : (members.map (·.use)).count (name, true) < 2) :
    object.overloads? name = none := by
  have overloads := h.overloads name
  rw [if_neg (Nat.not_le.mpr few)] at overloads
  exact Option.map_eq_none_iff.mp overloads

variable (within : ((members ++ [member]).map (·.use)).Sublist all)
  (noOverload : ∀ m ∈ members ++ [member], IsNoOverload all m.name)
include within noOverload

/-- What is there under the name of the member has that name and is not one of
several methods. -/
theorem of_ownMember? {old : ObjectMember} (found : object.ownMember? member.name = some old) :
    old ∈ members ∧ old.name = member.name ∧
      (old.isMethod = true → (members.map (·.use)).count (member.name, true) < 2) := by
  obtain ⟨kept, perm, keptAs, places⟩ := h.kept
  obtain ⟨p, mem, same, rfl⟩ := keptAs.exists_of_find? found
  have le : (members.map (·.use)).Sublist all :=
    (List.sublist_append_left _ _).trans (List.map_append ▸ within)
  obtain ⟨name_eq, few⟩ := (places p mem).of_eq le
    (noOverload member (List.mem_append_right _ List.mem_cons_self)) same
  have equal : { p.1 with name := member.name } = p.1 := by rw [← name_eq]
  rw [equal]
  exact ⟨perm.mem_iff.mp (List.mem_map_of_mem mem), name_eq, few⟩

/-- A member takes its own name, where all that have it are overloads. -/
theorem addMember
    (alone : ∀ m ∈ members, m.name = member.name →
      m.isMethod = true ∧ 2 ≤ (members.map (·.use)).count (member.name, true))
    (first : member.isMethod = true → (members.map (·.use)).count (member.name, true) = 0) :
    (object.addMember member).Keeps (members ++ [member]) := by
  have free : object.ownMember? member.name = none := by
    rw [Option.eq_none_iff_forall_ne_some]
    intro old found
    obtain ⟨mem, same, few⟩ := h.of_ownMember? within noOverload found
    obtain ⟨isMethod, many⟩ := alone old mem same
    exact Nat.not_lt.mpr many (few isMethod)
  obtain ⟨kept, perm, keptAs, places⟩ := h.kept
  have counts (name : String) (few : (members.map (·.use)).count (name, true) < 2) :
      ((members ++ [member]).map (·.use)).count (name, true) < 2 := by
    rw [List.map_append, List.count_append, List.map_singleton, List.count_singleton]
    split
    · next same =>
      obtain ⟨rfl, isMethod⟩ := Prod.mk.inj (beq_iff_eq.mp same)
      rw [first isMethod]
      omega
    · exact few
  constructor
  · refine ⟨(member, member.name) :: kept, ?_, ?_, List.forall_mem_cons.mpr ⟨?_, ?_⟩⟩
    · exact (perm.cons member).trans (List.perm_append_singleton member members).symm
    · refine keptAs.insert member fun p mem same => ?_
      have found := keptAs.find?_of_mem mem
      rw [same] at found
      exact Option.some_ne_none _ (found.symm.trans free)
    · rw [IsPlace, if_neg]
      rintro ⟨isMethod, many⟩
      exact Nat.not_le.mpr (counts member.name (by rw [first isMethod]; decide)) many
    · intro p mem
      rw [List.map_append]
      refine (places p mem).concat fun same isMethod => ?_
      -- a method of the name would be there
      obtain ⟨name_eq, memberIsMethod⟩ := Prod.mk.inj same
      have there := use_mem (perm.mem_iff.mp (List.mem_map_of_mem mem))
      rw [ObjectMember.use, isMethod, ← name_eq] at there
      exact absurd there (List.count_eq_zero.mp (first memberIsMethod))
  · intro name
    have overloads : (object.addMember member).overloads? name = object.overloads? name := rfl
    rw [overloads, h.overloads name]
    by_cases few : (members.map (·.use)).count (name, true) < 2
    · rw [if_neg (Nat.not_le.mpr few), if_neg (Nat.not_le.mpr (counts name few))]
    · have other : [member.use].count (name, true) = 0 := by
        refine List.count_eq_zero.mpr fun mem => few ?_
        obtain ⟨rfl, isMethod⟩ := Prod.mk.inj (List.mem_singleton.mp mem)
        rw [first isMethod.symm]
        decide
      rw [List.map_append, List.count_append, List.map_singleton, other, Nat.add_zero]

end Keeps

/-- A method takes the next place among the overloads of its name, when those
before it are stored as overloads. -/
theorem keeps_addOverload {kept : List (ObjectMember × String)} {names : List String}
    (isMethod : member.isMethod = true)
    (within : ((members ++ [member]).map (·.use)).Sublist all)
    (noOverload : ∀ m ∈ members ++ [member], IsNoOverload all m.name)
    (perm : (kept.map Prod.fst).Perm members) (keptAs : KeptAs object.members kept)
    (overloads : object.overloads? member.name = some names)
    (length : names.length = (members.map (·.use)).count (member.name, true))
    (notFirst : 0 < (members.map (·.use)).count (member.name, true))
    (others : ∀ name ≠ member.name, (object.overloads? name).map List.length =
      if 2 ≤ (members.map (·.use)).count (name, true) then
        some ((members.map (·.use)).count (name, true))
      else none)
    (same : ∀ p ∈ kept, p.1.use = (member.name, true) →
      ∃ i < (members.map (·.use)).count (member.name, true), p.2 = overloadName member.name i)
    (apart : ∀ p ∈ kept, p.1.use ≠ (member.name, true) → IsPlace (members.map (·.use)) p) :
    (object.addOverload member).1.Keeps (members ++ [member]) := by
  have use_eq : member.use = (member.name, true) := Prod.ext rfl isMethod
  have uses : (members ++ [member]).map (·.use) = members.map (·.use) ++ [(member.name, true)] := by
    rw [List.map_append, List.map_singleton, use_eq]
  have enough := within.count_le (member.name, true)
  rw [uses, List.count_append, List.count_singleton_self] at enough
  have stored : object.overloads.find? member.name = some names := overloads
  constructor
  · refine ⟨(member, overloadName member.name names.length) :: kept, ?_, ?_,
      List.forall_mem_cons.mpr ⟨?_, ?_⟩⟩
    · exact (perm.cons member).trans (List.perm_append_singleton member members).symm
    · rw [addOverload, stored, Option.getD_some]
      refine keptAs.insert member fun p mem taken => ?_
      by_cases ofName : p.1.use = (member.name, true)
      · obtain ⟨i, lt, place⟩ := same p mem ofName
        have := (overloadName_inj.mp (place.symm.trans taken)).2
        omega
      · have declared := List.mem_append_left [member] (perm.mem_iff.mp (List.mem_map_of_mem mem))
        refine ofName ((apart p mem ofName).of_eq_overloadName ?_ taken).1
        exact noOverload p.1 declared member.name names.length (by omega) (by omega)
    · unfold IsPlace
      dsimp only
      rw [uses, List.count_append, List.count_singleton_self, if_pos ⟨isMethod, by omega⟩]
      exact ⟨names.length, by omega, rfl⟩
    · intro p mem
      rw [uses]
      by_cases ofName : p.1.use = (member.name, true)
      · obtain ⟨i, lt, place⟩ := same p mem ofName
        obtain ⟨name_eq, isMethod'⟩ := Prod.mk.inj ofName
        rw [IsPlace, name_eq, List.count_append, List.count_singleton_self,
          if_pos ⟨isMethod', by omega⟩]
        exact ⟨i, by omega, place⟩
      · refine (apart p mem ofName).concat fun equal isMethod' => absurd ?_ ofName
        rw [equal, ObjectMember.use, isMethod']
  · intro name
    rw [overloads?_addOverload overloads, uses, List.count_append]
    by_cases ofName : name = member.name
    · subst ofName
      rw [if_pos rfl, List.count_singleton_self, if_pos (by omega), Option.map_some,
        List.length_append, List.length_singleton, length]
    · have other : [(member.name, true)].count (name, true) = 0 :=
        List.count_eq_zero.mpr (by simpa using ofName)
      rw [if_neg ofName, others name ofName, other, Nat.add_zero]

namespace Keeps

variable (h : object.Keeps members)
  (within : ((members ++ [member]).map (·.use)).Sublist all)
  (noOverload : ∀ m ∈ members ++ [member], IsNoOverload all m.name)
include h within noOverload

/-- The second method of a name moves the first one. -/
theorem addMethod_second (isMethod : member.isMethod = true)
    (one : (members.map (·.use)).count (member.name, true) = 1) :
    (object.addMethod member).1.Keeps (members ++ [member]) := by
  obtain ⟨kept, perm, keptAs, places⟩ := h.kept
  have pos : 0 < (members.map (·.use)).count (member.name, true) := by omega
  obtain ⟨first, mem, use_eq⟩ := List.mem_map.mp (List.count_pos_iff.mp pos)
  obtain ⟨p, there, rfl⟩ := List.mem_map.mp (perm.mem_iff.mpr mem)
  obtain ⟨name_eq, firstIsMethod⟩ := Prod.mk.inj use_eq
  have stored : p.2 = member.name := by
    rw [(places p there).eq_name fun _ => by rw [name_eq, one]; decide, name_eq]
  have split := List.perm_cons_erase there
  have rest : ∀ q ∈ kept.erase p, q.1.use ≠ (member.name, true) := by
    have counted := (((split.map Prod.fst).symm.trans perm).map (·.use)).count_eq (member.name, true)
    rw [one, List.map_cons, List.map_cons, use_eq, List.count_cons_self] at counted
    intro q mem same
    refine List.count_eq_zero.mp (Nat.succ.inj counted) ?_
    rw [← same]
    exact List.mem_map_of_mem (List.mem_map_of_mem mem)
  have found : object.ownMember? member.name = some p.1 := by
    rw [← name_eq]
    exact h.ownMember?_name mem fun _ => by rw [name_eq, one]; decide
  have moved : (object.addMethod member).1 =
      ((object.renameFirst member.name p.1).addOverload member).1 := by
    rw [ownMember?] at found
    rw [addMethod, found, Option.filter_some, if_pos firstIsMethod]
  rw [moved]
  have enough := within.count_le (member.name, true)
  rw [List.map_append, List.count_append, one, List.map_singleton, ObjectMember.use, isMethod,
    List.count_singleton_self] at enough
  have free : ∀ q ∈ kept.erase p, q.2 ≠ overloadName member.name 0 := by
    intro q mem taken
    have declared := List.mem_append_left [member]
      (perm.mem_iff.mp (List.mem_map_of_mem (List.mem_of_mem_erase mem)))
    have place := places q (List.mem_of_mem_erase mem)
    refine rest q mem (place.of_eq_overloadName ?_ taken).1
    exact noOverload q.1 declared member.name 0 enough (by omega)
  have erased : KeptAs (object.members.erase member.name) (kept.erase p) := by
    rw [← stored]
    exact (keptAs.perm split).erase
  have renamed : KeptAs (object.renameFirst member.name p.1).members
      ((p.1, overloadName member.name 0) :: kept.erase p) := erased.insert p.1 free
  have overloads : (object.renameFirst member.name p.1).overloads? member.name =
      some [overloadName member.name 0] := by
    rw [overloads?_renameFirst, if_pos rfl]
  refine keeps_addOverload isMethod within noOverload ?_ renamed overloads one.symm pos ?_ ?_ ?_
  · exact (split.map Prod.fst).symm.trans perm
  · intro name other
    rw [overloads?_renameFirst, if_neg other]
    exact h.overloads name
  · rw [List.forall_mem_cons]
    exact ⟨fun _ => ⟨0, by omega, rfl⟩, fun q mem same => absurd same (rest q mem)⟩
  · rw [List.forall_mem_cons]
    exact ⟨fun other => absurd use_eq other, fun q mem _ => places q (List.mem_of_mem_erase mem)⟩

/-- Every further one takes the next place. -/
theorem addMethod_next (isMethod : member.isMethod = true)
    (many : 2 ≤ (members.map (·.use)).count (member.name, true)) :
    (object.addMethod member).1.Keeps (members ++ [member]) := by
  have overloads := h.overloads member.name
  rw [if_pos many] at overloads
  obtain ⟨names, stored, length⟩ := Option.map_eq_some_iff.mp overloads
  have noMethod : (object.members.find? member.name).filter (·.isMethod) = none := by
    rw [Option.filter_eq_none_iff]
    intro old found isMethod'
    exact Nat.not_lt.mpr many ((h.of_ownMember? within noOverload found).2.2 isMethod')
  have added : (object.addMethod member).1 = (object.addOverload member).1 := by
    rw [overloads?] at stored
    rw [addMethod, noMethod, Table.contains, stored]
    rfl
  rw [added]
  obtain ⟨kept, perm, keptAs, places⟩ := h.kept
  refine keeps_addOverload isMethod within noOverload perm keptAs stored length (by omega)
    (fun name _ => h.overloads name) ?_ fun p mem _ => places p mem
  intro p mem same
  obtain ⟨name_eq, isMethod'⟩ := Prod.mk.inj same
  have place := places p mem
  rwa [IsPlace, name_eq, if_pos ⟨isMethod', many⟩] at place

/-- **A declaration that has room is kept**, and what was there is too. -/
theorem declare (room : HasRoom (members.map (·.use)) member.use) :
    (object.declare member).Keeps (members ++ [member]) := by
  have data (m : ObjectMember) (mem : m ∈ members) (noMethod : m.isMethod = false)
      (same : m.name = member.name) : (member.name, false) ∈ members.map (·.use) := by
    rw [← same, ← noMethod]
    exact use_mem mem
  have method (m : ObjectMember) (mem : m ∈ members) (isMethod : m.isMethod = true)
      (same : m.name = member.name) : 0 < (members.map (·.use)).count (member.name, true) := by
    rw [List.count_pos_iff, ← same, ← isMethod]
    exact use_mem mem
  unfold ObjectType.declare
  split
  · next isMethod =>
    rw [hasRoom_of_isMethod isMethod] at room
    by_cases first : (members.map (·.use)).count (member.name, true) = 0
    · have added : (object.addMethod member).1 = object.addMember member := by
        have noMethod : (object.members.find? member.name).filter (·.isMethod) = none := by
          rw [Option.filter_eq_none_iff]
          intro old found isMethod'
          obtain ⟨mem, same, -⟩ := h.of_ownMember? within noOverload found
          exact Nat.ne_of_gt (method old mem isMethod' same) first
        have noOverloads : object.overloads.find? member.name = none :=
          h.overloads?_eq_none (by rw [first]; decide)
        rw [addMethod, noMethod, Table.contains, noOverloads]
        rfl
      rw [added]
      refine h.addMember within noOverload (fun m mem same => ?_) fun _ => first
      cases isMethod' : m.isMethod with
      | true => exact absurd first (Nat.ne_of_gt (method m mem isMethod' same))
      | false => exact absurd (first ▸ room (data m mem isMethod' same)) (by decide)
    · by_cases one : (members.map (·.use)).count (member.name, true) = 1
      · exact h.addMethod_second within noOverload isMethod one
      · exact h.addMethod_next within noOverload isMethod (by omega)
  · next noMethod =>
    rw [hasRoom_of_not_isMethod noMethod] at room
    refine h.addMember within noOverload (fun m mem same => ?_) fun isMethod => absurd isMethod noMethod
    cases isMethod' : m.isMethod with
    | true =>
      have pos := method m mem isMethod' same
      exact ⟨rfl, by omega⟩
    | false => exact absurd (data m mem isMethod' same) room.1

omit within noOverload in
/-- A declaration that has no room takes the place of another. -/
theorem length_declare (full : ¬ HasRoom (members.map (·.use)) member.use) :
    (object.declare member).members.keys.length = members.length := by
  -- under its name there is something that stays no longer
  have replaced (old : ObjectMember) (found : object.ownMember? member.name = some old) :
      (object.addMember member).members.keys.length = members.length := by
    rw [ObjectType.addMember, Table.keys_insert_of_mem _ (List.mem_map_of_mem (Table.mem_of_find? found)),
      h.length_keys]
  have data (mem : (member.name, false) ∈ members.map (·.use)) :
      ∃ old, object.ownMember? member.name = some old ∧ old.isMethod = false := by
    obtain ⟨old, there, same⟩ := List.mem_map.mp mem
    obtain ⟨name_eq, noMethod⟩ := Prod.mk.inj same
    refine ⟨old, name_eq ▸ h.ownMember?_name there fun isMethod => ?_, noMethod⟩
    cases noMethod.symm.trans isMethod
  unfold ObjectType.declare
  split
  · next isMethod =>
    rw [hasRoom_of_isMethod isMethod, Classical.not_imp, Nat.not_le] at full
    obtain ⟨old, found, noMethod⟩ := data full.1
    have noOverloads : object.overloads.find? member.name = none := h.overloads?_eq_none full.2
    have found' : object.members.find? member.name = some old := found
    rw [addMethod, found', Option.filter_some, if_neg (by rw [noMethod]; decide), Table.contains,
      noOverloads]
    exact replaced old found
  · next noMethod =>
    rw [hasRoom_of_not_isMethod noMethod, Classical.not_and_iff_not_or_not, not_not, not_not] at full
    rcases full with mem | one
    · obtain ⟨old, found, -⟩ := data mem
      exact replaced old found
    · obtain ⟨old, there, same⟩ := List.mem_map.mp
        (List.count_pos_iff.mp (Nat.lt_of_lt_of_eq Nat.one_pos one.symm))
      obtain ⟨name_eq, -⟩ := Prod.mk.inj same
      refine replaced old (name_eq ▸ h.ownMember?_name there fun _ => ?_)
      rw [name_eq, one]
      decide

end Keeps

theorem length_declare_le (object : ObjectType) (member : ObjectMember) :
    (object.declare member).members.keys.length ≤ object.members.keys.length + 1 := by
  unfold declare addMethod
  split
  · split
    · next first found =>
      have erased := Table.length_keys_erase_lt (Option.filter_eq_some_iff.mp found).1
      have renamed := Table.length_keys_insert_le (object.members.erase member.name)
        (overloadName member.name 0) { first with name := overloadName member.name 0 }
      refine Nat.le_trans (Table.length_keys_insert_le _ _ _) ?_
      dsimp only [renameFirst]
      omega
    · split
      · exact Table.length_keys_insert_le _ _ _
      · exact Table.length_keys_insert_le _ _ _
  · exact Table.length_keys_insert_le _ _ _

/-- **All declarations are kept, or there are fewer members than declarations.** -/
theorem keeps_declareAll (noMembers : object.members = .empty)
    (noOverloads : object.overloads = .empty) (members : List ObjectMember)
    (within : (members.map (·.use)).Sublist all)
    (noOverload : ∀ m ∈ members, IsNoOverload all m.name) :
    (AllHaveRoom (members.map (·.use)) → (object.declareAll members).Keeps members) ∧
    (¬ AllHaveRoom (members.map (·.use)) →
      (object.declareAll members).members.keys.length < members.length) := by
  induction members using List.reverseRecOn with
  | nil => exact ⟨fun _ => keeps_nil noMembers noOverloads, fun some => absurd (by decide) some⟩
  | append_singleton members member ih =>
    have before : (members.map (·.use)).Sublist all :=
      (List.sublist_append_left _ _).trans (List.map_append ▸ within)
    obtain ⟨keeps, fewer⟩ := ih before fun m mem => noOverload m (List.mem_append_left _ mem)
    rw [declareAll_concat, List.map_append, List.map_singleton, allHaveRoom_concat,
      List.length_append, List.length_singleton]
    refine ⟨fun room => (keeps room.1).declare within noOverload room.2, fun full => ?_⟩
    by_cases all : AllHaveRoom (members.map (·.use))
    · rw [(keeps all).length_declare fun room => full ⟨all, room⟩]
      exact Nat.lt_succ_self _
    · exact Nat.lt_of_le_of_lt (length_declare_le _ _) (Nat.succ_lt_succ (fewer all))

end ObjectType

/-! ### Types in types -/

theorem membersTypes_eq_flatMap (scope : CollectScope) (members : List Tree.Member) :
    membersTypes scope members = members.flatMap (memberTypes scope) := by
  induction members with
  | nil => rw [membersTypes, List.flatMap_nil]
  | cons member members ih => rw [membersTypes, List.flatMap_cons, ih]

/-- Each type is followed by the types in it. -/
def Nests (bodies : List TypeBody) : Prop :=
  ∀ (k : Nat) (body : TypeBody), bodies[k]? = some body →
    membersTypes body.scope body.members <+: bodies.drop (k + 1)

theorem Nests.append {bodies bodies' : List TypeBody} (h : Nests bodies) (h' : Nests bodies') :
    Nests (bodies ++ bodies') := by
  intro k body found
  rw [List.drop_append]
  by_cases before : k < bodies.length
  · rw [List.getElem?_append_left before] at found
    exact (h k body found).trans (List.prefix_append _ _)
  · rw [List.getElem?_append_right (Nat.not_lt.mp before)] at found
    rw [List.drop_eq_nil_of_le (by omega), List.nil_append,
      Nat.sub_add_comm (Nat.not_lt.mp before)]
    exact h' _ body found

theorem Nests.cons {scope : CollectScope} {members : List Tree.Member} (name : String)
    (h : Nests (membersTypes scope members)) :
    Nests (⟨scope, name, members⟩ :: membersTypes scope members) := by
  intro k body found
  cases k with
  | zero =>
    cases found
    exact List.prefix_rfl
  | succ k => exact h k body found

theorem Nests.flatMap {α : Type} {f : α → List TypeBody} (h : ∀ a, Nests (f a)) (as : List α) :
    Nests (as.flatMap f) := by
  induction as with
  | nil => intro k body found; cases found
  | cons a as ih => exact (h a).append ih

mutual

theorem nests_classTypes (scope : CollectScope) : (c : Tree.ClassDecl) → Nests (classTypes scope c)
  | ⟨_, name, typeParameters, _, _, _, members, _, _, _, _, _⟩ => by
    rw [classTypes]
    exact (nests_membersTypes (scope.inside name typeParameters) members).cons name

theorem nests_interfaceTypes (scope : CollectScope) : (i : Tree.InterfaceDecl) →
    Nests (interfaceTypes scope i)
  | ⟨_, name, typeParameters, _, members, _, _⟩ => by
    rw [interfaceTypes]
    exact (nests_membersTypes (scope.inside name typeParameters) members).cons name

theorem nests_membersTypes (scope : CollectScope) : (members : List Tree.Member) →
    Nests (membersTypes scope members)
  | [] => fun _ _ found => by rw [membersTypes] at found; cases found
  | member :: members => by
    rw [membersTypes]
    exact (nests_memberTypes scope member).append (nests_membersTypes scope members)

theorem nests_memberTypes (scope : CollectScope) : (member : Tree.Member) →
    Nests (memberTypes scope member)
  | .field _ | .method _ => fun _ _ found => by rw [memberTypes] at found; cases found
  | .classDecl c => by
    rw [memberTypes]
    exact nests_classTypes scope c
  | .interfaceDecl i => by
    rw [memberTypes]
    exact nests_interfaceTypes scope i

end

theorem nests_typeBodies (files : List (FileNamespace × SourceTree)) : Nests (typeBodies files) := by
  refine Nests.flatMap (fun file => Nests.flatMap (fun item => ?_) _) files
  cases item with
  | importDecl i => intro k body found; cases found
  | classDecl c => exact nests_classTypes _ c
  | interfaceDecl i => exact nests_interfaceTypes _ i

/-- The types of a declaration come after those of the declarations before it. -/
theorem getElem?_typeBodies_nested {files : List (FileNamespace × SourceTree)} {k i : Nat}
    {body nested : TypeBody} {declaration : Tree.Member} (h : (typeBodies files)[k]? = some body)
    (declared : body.members[i]? = some declaration)
    (first : (memberTypes body.scope declaration).head? = some nested) :
    (typeBodies files)[k + 1 + (membersTypes body.scope (body.members.take i)).length]? =
      some nested := by
  obtain ⟨rest, split⟩ := nests_typeBodies files k body h
  obtain ⟨lt, rfl⟩ := List.getElem?_eq_some_iff.mp declared
  rw [← List.getElem?_drop, ← split]
  nth_rewrite 1 [← List.take_append_drop i body.members]
  rw [List.drop_eq_getElem_cons lt, membersTypes_eq_flatMap, membersTypes_eq_flatMap,
    List.flatMap_append, List.flatMap_cons, List.append_assoc, List.append_assoc,
    List.getElem?_append_right (Nat.le_refl _), Nat.sub_self, List.getElem?_append_left,
    ← List.head?_eq_getElem?]
  · exact first
  · rw [List.length_pos_iff]
    intro none
    rw [none] at first
    cases first

/-! ### The members of a body -/

namespace Dictionary

/-- The member of object `id` stands for a declaration: it has the type that is
declared, and a nested type is the one that comes in with it. -/
structure StandsFor (files : List (FileNamespace × SourceTree)) (id : Nat) (scope : CollectScope)
    (declaration : Tree.Member) (member : ObjectMember) : Prop where
  parent_eq : member.parent = id
  means : (ofFiles files).Means scope declaration member.constraint
  nested (body : TypeBody) : (memberTypes scope declaration).head? = some body →
    ∃ j, (typeBodies files)[j]? = some body ∧ member.constraint = .objectType (firstDeclared + j)

theorem map_use_of_declares {d : Dictionary} {scope : CollectScope} {id : Nat}
    {declarations : List Tree.Member} {members : List ObjectMember}
    (h : List.Forall₂ (d.Declares scope id) declarations members) :
    members.map (·.use) = declarations.map (·.use) := by
  induction h with
  | nil => rfl
  | cons declared _ ih =>
    rw [List.map_cons, List.map_cons, ih]
    exact congrArg (· :: _) (Prod.ext declared.name_eq declared.isMethod)

/-- **No declared member is lost, exactly when each has room.** For a type that
files declare, in whose body no name is taken that an overload is stored under:
there is one own member of the type for each declaration, with the type that is
declared, and no other, if and only if every declaration has room when it comes. -/
theorem members_kept_iff {files : List (FileNamespace × SourceTree)} {k : Nat} {body : TypeBody}
    (h : (typeBodies files)[k]? = some body)
    (noOverload : ∀ m ∈ body.members, IsNoOverload (body.members.map (·.use)) m.name) :
    (∃ stored, stored.Perm ((ofFiles files).object (firstDeclared + k)).ownMembers ∧
      List.Forall₂ (StandsFor files (firstDeclared + k) body.scope) body.members stored) ↔
    AllHaveRoom (body.members.map (·.use)) := by
  obtain ⟨base, members, found, -, noMembers, noOverloads, declared, numbers⟩ := holds_ofFiles h
  have uses := map_use_of_declares declared
  have noOverload' : ∀ m ∈ members, IsNoOverload (body.members.map (·.use)) m.name := by
    intro m mem
    have same : m.use ∈ body.members.map (·.use) := uses ▸ List.mem_map_of_mem mem
    obtain ⟨declaration, mem', equal⟩ := List.mem_map.mp same
    have name_eq : declaration.name = m.name := congrArg Prod.fst equal
    exact name_eq ▸ noOverload declaration mem'
  obtain ⟨keeps, fewer⟩ := ObjectType.keeps_declareAll noMembers noOverloads members
    (uses ▸ List.Sublist.refl _) noOverload'
  rw [object, found, Option.getD_some, ← uses]
  constructor
  · rintro ⟨stored, perm, stands⟩
    by_contra full
    have lt := fewer full
    have length := perm.length_eq
    rw [ObjectType.ownMembers, Table.values, List.length_map, ← stands.length_eq] at length
    rw [Table.keys, List.length_map, ← length, declared.length_eq] at lt
    exact Nat.lt_irrefl _ lt
  · intro room
    obtain ⟨kept, perm, keptAs, -⟩ := (keeps room).kept
    -- the members in the order of their declarations
    have ordered : Relation.Comp (fun a b => a = List.map Prod.fst b) List.Perm members kept := by
      rw [List.eq_map_comp_perm]
      exact perm.symm
    obtain ⟨kept, rfl, same⟩ := ordered
    refine ⟨kept.map fun p => { p.1 with name := p.2 }, ?_, ?_⟩
    · have values := ((keptAs.perm same.symm).entries.map (·.2)).symm
      rwa [List.map_map] at values
    · rw [List.forall₂_map_right_iff, List.forall₂_iff_get] at declared ⊢
      refine ⟨declared.1, fun i lt lt' => ?_⟩
      have declares := declared.2 i lt lt'
      refine ⟨declares.parent_eq, declares.means, fun nested first => ?_⟩
      refine ⟨_, getElem?_typeBodies_nested h (List.getElem?_eq_getElem lt) first, ?_⟩
      rw [← Nat.add_assoc, ← Nat.add_assoc]
      refine numbers i _ kept[i].1 (List.getElem?_eq_getElem lt) ?_ fun none => ?_
      · rw [List.getElem?_map, List.getElem?_eq_getElem lt', Option.map_some]
      · rw [List.get_eq_getElem, none] at first
        cases first

/-- Two methods, a field of their name after them, and a nested class: all are kept. -/
theorem members_kept_iff_shared :
    let f (type : String) : Tree.Member := .method ⟨{}, [], some (.named "int" 0), "f",
      [⟨false, .named type 0, "x", false, 0⟩], [], none, [], false, 0⟩
    let field : Tree.Member := .field ⟨{}, .named "int" 0, "f", none, [], 0⟩
    let nested : Tree.ClassDecl := ⟨{}, "B", [], [], [], [], [], [], [], [], false, 0⟩
    let members := [f "int", f "String", field, .classDecl nested]
    let tree : SourceTree :=
      { package := none
        items := [.classDecl ⟨{}, "A", [], [], [], [], members, [], [], [], false, 0⟩]
        tokens := .link [] 1 "" }
    let files := [(.new "A.java", tree)]
    let scope := CollectScope.inside ⟨.new "A.java", [], []⟩ "A" []
    (∀ m ∈ members, IsNoOverload (members.map (·.use)) m.name) ∧
      AllHaveRoom (members.map (·.use)) ∧
      ∃ stored, stored.Perm ((ofFiles files).object (firstDeclared + 0)).ownMembers ∧
        List.Forall₂ (StandsFor files (firstDeclared + 0) scope) members stored := by
  intro f field nested members tree files scope
  have noOverload : ∀ m ∈ members, IsNoOverload (members.map (·.use)) m.name := by
    have noDigit : ∀ m ∈ members, m.name.toList.getLast?.all (!·.isDigit) = true := by decide
    intro m mem other i _ _
    refine ne_overloadName_of_getLast? (fun c last => ?_) other i
    have digit := noDigit m mem
    rw [Option.mem_def.mp last] at digit
    simpa using digit
  have room : AllHaveRoom (members.map (·.use)) := by decide
  have declared : (typeBodies files)[0]? = some ⟨scope, "A", members⟩ := rfl
  exact ⟨noOverload, room, (members_kept_iff declared noOverload).mpr room⟩

/-- The overloads of `f` are stored as `f_0` and `f_1`. A field `f_0` behind them has
room for its own name, and takes the place of the first: that is why no declared
name may be one that an overload is stored under. -/
example :
    let f (type : String) : Tree.Member := .method ⟨{}, [], some (.named "int" 0), "f",
      [⟨false, .named type 0, "x", false, 0⟩], [], none, [], false, 0⟩
    let members := [f "int", f "String", .field ⟨{}, .named "int" 0, "f_0", none, [], 0⟩]
    let tree : SourceTree :=
      { package := none
        items := [.classDecl ⟨{}, "A", [], [], [], [], members, [], [], [], false, 0⟩]
        tokens := .link [] 1 "" }
    AllHaveRoom (members.map (·.use)) ∧
      ((ofFiles [(.new "A.java", tree)]).object firstDeclared).ownMembers.map
        (fun m => (m.name, m.isMethod)) = [("f_0", false), ("f_1", true)] := by
  decide +kernel

/-- A field and a method may have one name, and then the field is lost. -/
theorem field_lost_to_method :
    let field : Tree.Member := .field ⟨{}, .named "int" 0, "size", none, [], 0⟩
    let method : Tree.Member :=
      .method ⟨{}, [], some (.named "int" 0), "size", [], [], none, [], false, 0⟩
    let tree : SourceTree :=
      { package := none
        items := [.classDecl ⟨{}, "A", [], [], [], [], [field, method], [], [], [], false, 0⟩]
        tokens := .link [] 1 "" }
    let files := [(.new "A.java", tree)]
    let scope := CollectScope.inside ⟨.new "A.java", [], []⟩ "A" []
    (typeBodies files)[0]? = some ⟨scope, "A", [field, method]⟩ ∧
      ((ofFiles files).object firstDeclared).ownMembers.map (fun m => (m.name, m.isMethod)) =
        [("size", true)] ∧
      ¬ ∃ stored, stored.Perm ((ofFiles files).object firstDeclared).ownMembers ∧
        List.Forall₂ (StandsFor files firstDeclared scope) [field, method] stored := by
  intro field method tree files scope
  have own : ((ofFiles files).object firstDeclared).ownMembers.map
      (fun m => (m.name, m.isMethod)) = [("size", true)] := by decide +kernel
  refine ⟨rfl, own, ?_⟩
  rintro ⟨stored, perm, stands⟩
  have one := congrArg List.length own
  rw [List.length_map, ← perm.length_eq, ← stands.length_eq] at one
  cases one

end Dictionary

end Javascribe
