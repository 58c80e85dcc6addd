/-
# Inheritance

The supertypes of an object are found level by level: each level holds the
declared supertypes of the level before that have not been seen yet. So a level
holds what is exactly as many declarations above the object, by the shortest
way, as levels have been followed (`Dictionary.Explored`). The supertypes are
then the other objects at most as far away as levels are followed, the nearer
ones first (`Dictionary.allSupertypes_by_distance`). Cycles and diamonds make no
difference.

A dictionary is shallow when nothing is out of reach of these levels. There,
being a subtype is transitive.

Key definitions: `Dictionary.Climbs`, `Dictionary.IsDistance`,
`Dictionary.Explored`, `Dictionary.IsShallow`.
Key theorems: `Dictionary.Explored.next`, `Dictionary.explored_ancestry`,
`Dictionary.allSupertypes_by_distance`, `Dictionary.isSubtypeOf_iff`,
`Dictionary.IsShallow.isSubtypeOf_trans`.
-/
import Javascribe.Typing.Matching
import Mathlib.Data.List.Nodup

namespace Javascribe
namespace Dictionary

/-- The number of declarations that lead from an object up to another one. -/
inductive Climbs (d : Dictionary) : Nat → Nat → Nat → Prop where
  | refl (id : Nat) : Climbs d 0 id id
  | step {n id direct ancestor : Nat} (declared : direct ∈ d.directSupertypes id)
      (above : Climbs d n direct ancestor) : Climbs d (n + 1) id ancestor

/-- What is above an object is at most as many declarations above it as levels
of supertypes are followed. -/
def IsShallow (d : Dictionary) : Prop :=
  ∀ n id ancestor, d.Climbs n id ancestor → ∃ m ≤ maxSupertypeDepth, d.Climbs m id ancestor

variable {d : Dictionary}

theorem Climbs.trans {m n a b c : Nat} (h : d.Climbs m a b) (h' : d.Climbs n b c) :
    d.Climbs (m + n) a c := by
  induction h with
  | refl _ => rwa [Nat.zero_add]
  | step declared _ ih =>
    rw [Nat.add_right_comm]
    exact .step declared (ih h')

/-! ### Distances -/

/-- The shortest way from an object up to another one has `n` declarations. -/
structure IsDistance (d : Dictionary) (n id ancestor : Nat) : Prop where
  climbs : d.Climbs n id ancestor
  le {m : Nat} (other : d.Climbs m id ancestor) : n ≤ m

theorem isDistance_zero_iff {id ancestor : Nat} : d.IsDistance 0 id ancestor ↔ ancestor = id := by
  constructor
  · rintro ⟨_ | _, -⟩
    rfl
  · rintro rfl
    exact ⟨.refl _, fun _ => Nat.zero_le _⟩

theorem Climbs.exists_isDistance {n id ancestor : Nat} (h : d.Climbs n id ancestor) :
    ∃ m ≤ n, d.IsDistance m id ancestor := by
  induction n using Nat.strongRecOn with
  | ind n ih =>
    by_cases shorter : ∃ m < n, d.Climbs m id ancestor
    · obtain ⟨m, lt, up⟩ := shorter
      obtain ⟨k, le, distance⟩ := ih m lt up
      exact ⟨k, by omega, distance⟩
    · exact ⟨n, Nat.le_refl n, h, fun other => Nat.not_lt.mp fun lt => shorter ⟨_, lt, other⟩⟩

/-- Within a number of levels, the ways up are as good as the shortest ones. -/
theorem exists_isDistance_iff {k id ancestor : Nat} :
    (∃ n ≤ k, d.IsDistance n id ancestor) ↔ ∃ n ≤ k, d.Climbs n id ancestor := by
  constructor
  · rintro ⟨n, le, distance⟩
    exact ⟨n, le, distance.climbs⟩
  · rintro ⟨n, le, up⟩
    obtain ⟨m, le', distance⟩ := up.exists_isDistance
    exact ⟨m, Nat.le_trans le' le, distance⟩

theorem Climbs.exists_last {n id ancestor : Nat} (h : d.Climbs (n + 1) id ancestor) :
    ∃ b, d.Climbs n id b ∧ ancestor ∈ d.directSupertypes b := by
  induction n generalizing id with
  | zero =>
    obtain _ | ⟨declared, _ | _⟩ := h
    exact ⟨id, .refl id, declared⟩
  | succ n ih =>
    obtain _ | ⟨declared, above⟩ := h
    obtain ⟨b, up, last⟩ := ih above
    exact ⟨b, .step declared up, last⟩

/-- A shortest way up is one to each object that it passes. -/
theorem IsDistance.exists_last {n id ancestor : Nat} (h : d.IsDistance (n + 1) id ancestor) :
    ∃ b, d.IsDistance n id b ∧ ancestor ∈ d.directSupertypes b := by
  obtain ⟨b, up, declared⟩ := h.climbs.exists_last
  refine ⟨b, ⟨up, fun other => ?_⟩, declared⟩
  exact Nat.le_of_succ_le_succ (h.le (other.trans (.step declared (.refl ancestor))))

/-! ### Level by level -/

theorem mem_freshIds_iff {seen ids : List Nat} {id : Nat} :
    id ∈ freshIds seen ids ↔ id ∈ ids ∧ id ∉ seen := by
  suffices ∀ fresh : List Nat, id ∈ ids.foldl (fun fresh id =>
      if seen.contains id || fresh.contains id then fresh else fresh ++ [id]) fresh ↔
      id ∈ fresh ∨ id ∈ ids ∧ id ∉ seen from
    (this []).trans (or_iff_right List.not_mem_nil)
  induction ids with
  | nil => intro fresh; simp
  | cons first ids ih =>
    intro fresh
    rw [List.foldl_cons, ih]
    split
    · next known =>
      rw [Bool.or_eq_true, List.contains_iff_mem, List.contains_iff_mem] at known
      grind
    · next new =>
      rw [Bool.or_eq_true, List.contains_iff_mem, List.contains_iff_mem] at new
      grind

theorem nodup_freshIds (seen ids : List Nat) : (freshIds seen ids).Nodup := by
  unfold freshIds
  refine List.foldlRecOn ids _ List.nodup_nil fun fresh nodup id _ => ?_
  split
  · exact nodup
  · next new =>
    rw [Bool.or_eq_true, List.contains_iff_mem, List.contains_iff_mem, not_or] at new
    exact List.nodup_append.mpr ⟨nodup, List.nodup_singleton id, fun a mem b mem' same =>
      new.2 (List.mem_singleton.mp mem' ▸ same ▸ mem)⟩

/-- From an object, the way up to `a` is not longer than the one to `b`. -/
def IsNoFarther (d : Dictionary) (id a b : Nat) : Prop :=
  ∀ m n, d.IsDistance m id a → d.IsDistance n id b → m ≤ n

/-- What has been seen `k` levels above an object, and the last level of it. -/
structure Explored (d : Dictionary) (id k : Nat) (seen last : List Nat) : Prop where
  mem_seen_iff {a : Nat} : a ∈ seen ↔ ∃ n ≤ k, d.IsDistance n id a
  mem_last_iff {a : Nat} : a ∈ last ↔ d.IsDistance k id a
  nodup : seen.Nodup
  ordered : seen.Pairwise (d.IsNoFarther id)
  first : seen.head? = some id

theorem explored_zero (d : Dictionary) (id : Nat) : d.Explored id 0 [id] [id] where
  mem_seen_iff := by simp [isDistance_zero_iff]
  mem_last_iff := by simp [isDistance_zero_iff]
  nodup := List.nodup_singleton id
  ordered := List.pairwise_singleton _ id
  first := rfl

namespace Explored

variable {id k : Nat} {seen last : List Nat} (h : d.Explored id k seen last)
include h

/-- What is new one level up is one declaration further away. -/
theorem mem_freshIds_iff {a : Nat} :
    a ∈ freshIds seen (last.flatMap d.directSupertypes) ↔ d.IsDistance (k + 1) id a := by
  rw [Dictionary.mem_freshIds_iff, List.mem_flatMap, h.mem_seen_iff, exists_isDistance_iff]
  constructor
  · rintro ⟨⟨b, mem, declared⟩, far⟩
    have below := h.mem_last_iff.mp mem
    refine ⟨below.climbs.trans (.step declared (.refl a)), fun {m} other => ?_⟩
    exact Nat.lt_of_not_le fun le => far ⟨m, le, other⟩
  · intro distance
    obtain ⟨b, below, declared⟩ := distance.exists_last
    refine ⟨⟨b, h.mem_last_iff.mpr below, declared⟩, ?_⟩
    rintro ⟨n, le, up⟩
    exact Nat.not_succ_le_self k (Nat.le_trans (distance.le up) le)

/-- **One more level is followed.** -/
theorem next :
    d.Explored id (k + 1) (seen ++ freshIds seen (last.flatMap d.directSupertypes))
      (freshIds seen (last.flatMap d.directSupertypes)) where
  mem_seen_iff {a} := by
    rw [List.mem_append, h.mem_seen_iff, h.mem_freshIds_iff]
    constructor
    · rintro (⟨n, le, distance⟩ | distance)
      · exact ⟨n, by omega, distance⟩
      · exact ⟨k + 1, Nat.le_refl _, distance⟩
    · rintro ⟨n, le, distance⟩
      obtain rfl | lt := Nat.eq_or_lt_of_le le
      · exact .inr distance
      · exact .inl ⟨n, Nat.le_of_lt_succ lt, distance⟩
  mem_last_iff := h.mem_freshIds_iff
  nodup := by
    refine List.nodup_append.mpr ⟨h.nodup, nodup_freshIds _ _, fun a mem b mem' same => ?_⟩
    exact (Dictionary.mem_freshIds_iff.mp mem').2 (same ▸ mem)
  ordered := by
    refine List.pairwise_append.mpr ⟨h.ordered, ?_, ?_⟩
    · refine List.pairwise_of_forall_mem_list fun a mem b mem' m n da db => ?_
      exact Nat.le_trans (da.le (h.mem_freshIds_iff.mp mem).climbs)
        ((h.mem_freshIds_iff.mp mem').le db.climbs)
    · intro a mem b mem' m n da db
      obtain ⟨j, le, distance⟩ := h.mem_seen_iff.mp mem
      have near := da.le distance.climbs
      have far := (h.mem_freshIds_iff.mp mem').le db.climbs
      omega
  first := by rw [List.head?_append, h.first, Option.some_or]

/-- When a level adds nothing, no further one does. -/
theorem idle (nothing : freshIds seen (last.flatMap d.directSupertypes) = []) (more : Nat) :
    d.Explored id (k + 1 + more) seen [] := by
  have nowhere (more a : Nat) : ¬ d.IsDistance (k + 1 + more) id a := by
    induction more generalizing a with
    | zero => exact fun distance => List.not_mem_nil (nothing ▸ h.mem_freshIds_iff.mpr distance)
    | succ more ih =>
      intro distance
      obtain ⟨b, below, -⟩ := distance.exists_last
      exact ih b below
  refine { h with mem_seen_iff := ?_, mem_last_iff := ?_ }
  · intro a
    rw [h.mem_seen_iff]
    constructor
    · rintro ⟨n, le, distance⟩
      exact ⟨n, by omega, distance⟩
    · rintro ⟨n, -, distance⟩
      refine ⟨n, Nat.le_of_not_lt fun lt => ?_, distance⟩
      obtain ⟨j, rfl⟩ := Nat.exists_eq_add_of_le lt
      exact nowhere j a distance
  · exact fun {a} => iff_of_false List.not_mem_nil (nowhere more a)

/-- **All levels are followed.** -/
theorem supertypesAbove (levels : Nat) :
    ∃ last', d.Explored id (k + levels) (d.supertypesAbove levels seen last) last' := by
  induction levels generalizing k seen last with
  | zero => exact ⟨last, h⟩
  | succ levels ih =>
    unfold Dictionary.supertypesAbove
    dsimp only
    have same : k + (levels + 1) = k + 1 + levels := by omega
    rw [same]
    split
    · next nothing => exact ⟨[], h.idle (List.isEmpty_iff.mp nothing) levels⟩
    · exact ih h.next

end Explored

/-! ### Supertypes -/

theorem explored_ancestry (d : Dictionary) (id : Nat) :
    ∃ last, d.Explored id maxSupertypeDepth (d.ancestry id) last := by
  obtain ⟨last, explored⟩ := (d.explored_zero id).supertypesAbove maxSupertypeDepth
  rw [Nat.zero_add] at explored
  have same : d.supertypesAbove maxSupertypeDepth [id] [id] = d.ancestry id :=
    (List.cons_head?_tail explored.first).symm
  exact ⟨last, same ▸ explored⟩

/-- No type is a supertype of itself. -/
theorem notMem_allSupertypes (d : Dictionary) (id : Nat) : id ∉ d.allSupertypes id :=
  (d.explored_ancestry id).elim fun _ explored => (List.nodup_cons.mp explored.nodup).1

theorem mem_ancestry_iff {id ancestor : Nat} :
    ancestor ∈ d.ancestry id ↔ ∃ n ≤ maxSupertypeDepth, d.IsDistance n id ancestor :=
  (d.explored_ancestry id).elim fun _ explored => explored.mem_seen_iff

theorem isSubtypeOf_iff {source target : Nat} :
    d.isSubtypeOf source target = true ↔
      ∃ n ≤ maxSupertypeDepth, d.Climbs n source target := by
  rw [isSubtypeOf, Bool.or_eq_true, beq_iff_eq, List.contains_iff_mem, ← exists_isDistance_iff,
    ← mem_ancestry_iff, ancestry, List.mem_cons, eq_comm]

/-- The member of an object is declared by a nearest one of those that declare
one of its name. -/
theorem exists_nearest_of_member? {id : Nat} {name : String} {member : ObjectMember}
    (found : d.member? id name = some member) :
    ∃ n ≤ maxSupertypeDepth, ∃ a, d.IsDistance n id a ∧
      (d.object a).ownMember? name = some member ∧
      ∀ m b, d.IsDistance m id b → (d.object b).ownMember? name ≠ none → n ≤ m := by
  obtain ⟨last, explored⟩ := d.explored_ancestry id
  obtain ⟨before, a, after, split, own, none⟩ := List.findSome?_eq_some_iff.mp found
  have ordered := explored.ordered
  obtain ⟨n, le, distance⟩ := explored.mem_seen_iff.mp
    (split ▸ List.mem_append_right before List.mem_cons_self)
  refine ⟨n, le, a, distance, own, fun m b distance' declares => ?_⟩
  by_cases near : m ≤ maxSupertypeDepth
  · have mem := explored.mem_seen_iff.mpr ⟨m, near, distance'⟩
    rw [split, List.mem_append, List.mem_cons] at mem
    rw [split] at ordered
    rcases mem with mem | rfl | mem
    · exact absurd (none b mem) declares
    · exact distance.le distance'.climbs
    · have later := (List.pairwise_cons.mp (List.pairwise_append.mp ordered).2.1).1 b mem
      exact later n m distance distance'
  · omega

/-- **The supertypes of an object are what is above it, by distance.** Whatever
cycles and diamonds there are, each object that declarations lead up to is
listed once, unless it is the object itself or out of reach, and a nearer one
before one that is farther away. So a member is that of a nearest object that
declares it, and being a subtype is transitive as far as the distances together
are in reach. -/
theorem allSupertypes_by_distance (d : Dictionary) (id : Nat) :
    (d.allSupertypes id).Nodup ∧ id ∉ d.allSupertypes id ∧
    (∀ a, a ∈ d.allSupertypes id ↔ ∃ n, 1 ≤ n ∧ n ≤ maxSupertypeDepth ∧ d.IsDistance n id a) ∧
    (d.allSupertypes id).Pairwise (d.IsNoFarther id) ∧
    (∀ name,
      (d.member? id name = none ↔
        ∀ n ≤ maxSupertypeDepth, ∀ a, d.IsDistance n id a → (d.object a).ownMember? name = none) ∧
      ∀ member, d.member? id name = some member →
        ∃ n ≤ maxSupertypeDepth, ∃ a, d.IsDistance n id a ∧
          (d.object a).ownMember? name = some member ∧
          ∀ m b, d.IsDistance m id b → (d.object b).ownMember? name ≠ none → n ≤ m) ∧
    ∀ b c m n, d.IsDistance m id b → d.IsDistance n b c → m + n ≤ maxSupertypeDepth →
      d.isSubtypeOf id b = true ∧ d.isSubtypeOf b c = true ∧ d.isSubtypeOf id c = true := by
  obtain ⟨last, explored⟩ := d.explored_ancestry id
  have other := d.notMem_allSupertypes id
  refine ⟨(List.nodup_cons.mp explored.nodup).2, other, fun a => ?_,
    (List.pairwise_cons.mp explored.ordered).2, fun name => ⟨?_, ?_⟩, ?_⟩
  · constructor
    · intro mem
      obtain ⟨n, le, distance⟩ := mem_ancestry_iff.mp (List.mem_cons_of_mem id mem)
      refine ⟨n, Nat.pos_of_ne_zero ?_, le, distance⟩
      rintro rfl
      exact other (isDistance_zero_iff.mp distance ▸ mem)
    · rintro ⟨n, pos, le, distance⟩
      refine (List.mem_cons.mp (mem_ancestry_iff.mpr ⟨n, le, distance⟩)).resolve_left ?_
      rintro rfl
      exact Nat.not_succ_le_zero 0 (Nat.le_trans pos (distance.le (.refl a)))
  · rw [member?, List.findSome?_eq_none_iff]
    constructor
    · exact fun none n le a distance => none a (mem_ancestry_iff.mpr ⟨n, le, distance⟩)
    · intro none a mem
      obtain ⟨n, le, distance⟩ := mem_ancestry_iff.mp mem
      exact none n le a distance
  · exact fun member found => exists_nearest_of_member? found
  · intro b c m n above above' le
    refine ⟨isSubtypeOf_iff.mpr ⟨m, by omega, above.climbs⟩,
      isSubtypeOf_iff.mpr ⟨n, by omega, above'.climbs⟩,
      isSubtypeOf_iff.mpr ⟨m + n, le, above.climbs.trans above'.climbs⟩⟩

/-- A diamond whose top extends its bottom, with a supertype that means nothing. -/
theorem allSupertypes_by_distance_diamond :
    let d : Dictionary :=
      { symbols := .empty
        objects := #[{ ObjectType.new "Top" .classType with supertypes := [.object 3] },
          { ObjectType.new "Left" .interfaceType with supertypes := [.object 0] },
          { ObjectType.new "Right" .interfaceType with supertypes := [.object 0] },
          { ObjectType.new "Bottom" .classType with
            supertypes := [.object 1, .unresolved ["Missing"], .object 2] }]
        functions := #[] }
    d.allSupertypes 3 = [1, 2, 0] ∧ d.IsDistance 1 3 1 ∧ d.IsDistance 1 1 0 ∧
      d.isSubtypeOf 3 0 = true := by
  intro d
  have one {id above : Nat} (declared : above ∈ d.directSupertypes id) (other : id ≠ above) :
      d.IsDistance 1 id above := by
    refine ⟨.step declared (.refl above), fun {m} up => Nat.pos_of_ne_zero ?_⟩
    rintro rfl
    cases up
    exact other rfl
  have left : d.IsDistance 1 3 1 := one (by decide) (by decide)
  have top : d.IsDistance 1 1 0 := one (by decide) (by decide)
  have follows := (allSupertypes_by_distance d 3).2.2.2.2.2 1 0 1 1 left top (by decide)
  exact ⟨by decide +kernel, left, top, follows.2.2⟩

/-- Nothing above a supertype is missing, when nothing is out of reach. -/
theorem IsShallow.isSubtypeOf_trans (h : d.IsShallow) {a b c : Nat}
    (ab : d.isSubtypeOf a b = true) (bc : d.isSubtypeOf b c = true) : d.isSubtypeOf a c = true := by
  obtain ⟨m, -, up⟩ := isSubtypeOf_iff.mp ab
  obtain ⟨n, -, up'⟩ := isSubtypeOf_iff.mp bc
  exact isSubtypeOf_iff.mpr (h _ _ _ (up.trans up'))

/-- A dictionary is shallow if it is small and every object is above later ones
only. -/
theorem isShallow_of_descends
    (descends : ∀ id < d.objects.size, ∀ direct ∈ d.directSupertypes id, direct < id)
    (small : d.objects.size ≤ maxSupertypeDepth) : d.IsShallow := by
  intro n id ancestor up
  refine ⟨n, ?_, up⟩
  have bounded : n + ancestor ≤ id ∧ (0 < n → id < d.objects.size) := by
    induction up with
    | refl id => exact ⟨Nat.le_of_eq (Nat.zero_add id), fun pos => absurd pos (Nat.lt_irrefl 0)⟩
    | @step n id direct ancestor declared _ ih =>
      have known : id < d.objects.size := by
        by_contra unknown
        rw [directSupertypes, object, Array.getElem?_eq_none (Nat.le_of_not_lt unknown)] at declared
        cases declared
      have lower := descends id known direct declared
      exact ⟨by omega, fun _ => known⟩
  omega

end Dictionary
end Javascribe
