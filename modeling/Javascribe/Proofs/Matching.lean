/-
# Comparing types

Types are compared round by round, and a round compares the types inside by
the round before. More rounds find more types that fit. What can be met inside
two types is written in them or in the dictionary, so there are only so many
pairs; once a round finds no new one among them, no later round does. Hence
`Dictionary.fits` follows types far enough: it finds what any number of rounds
finds (`Dictionary.fits_iff`), and comparing the types inside by itself gives
the same answer (`Dictionary.fits_eq_fitsBy`).

Away from dynamic types and functions, fitting is a preorder
(`Dictionary.fits_preorder`). A dynamic type has to be left out, since
everything fits it and it fits everything.

Key definitions: `Dictionary.inner`, `Dictionary.fitsBy`, `Dictionary.Met`.
Key theorems: `Dictionary.fits_iff`, `Dictionary.fits_eq_fitsBy`,
`Dictionary.fits_preorder`.
-/
import Javascribe.Proofs.Inheritance
import Javascribe.Proofs.Tables
import Mathlib.Data.Finset.Prod
import Mathlib.Logic.Function.Iterate
import Mathlib.Order.Monotone.Basic

namespace Javascribe

/-! ### Types inside types -/

theorem Definition.elements_subset {definition : Definition} {constraint : Constraint}
    (mem : constraint ∈ definition.elements) :
    constraint.definition.elements ⊆ definition.elements := by
  induction definition with
  | array element _ ih =>
    rcases List.mem_cons.mp mem with rfl | mem
    · exact List.subset_cons_self _ _
    · exact List.Subset.trans (ih mem) (List.subset_cons_self _ _)
  | _ => cases mem

namespace Dictionary

/-- The types that are met directly inside a type. -/
def inner (d : Dictionary) (constraint : Constraint) : List Constraint :=
  match (d.resolve constraint).definition with
  | .array element ofDefinitions => [⟨element, ofDefinitions⟩]
  | .function id => (d.function id).result :: (d.function id).parameters
  | _ => []

theorem elements_subset_types {d : Dictionary} {constraint : Constraint} (mem : constraint ∈ d.types) :
    constraint.definition.elements ⊆ d.types := by
  simp only [types, List.mem_append, List.mem_flatMap, List.mem_singleton] at mem
  intro element inside
  rcases mem with (⟨symbol, known, mem⟩ | ⟨function, known, part, written, mem⟩) | rfl
  · refine List.mem_append_left _ (List.mem_append_left _ (List.mem_flatMap.mpr ⟨symbol, known, ?_⟩))
    exact Definition.elements_subset mem inside
  · refine List.mem_append_left _ (List.mem_append_right _ (List.mem_flatMap.mpr ⟨function, known, ?_⟩))
    refine List.mem_flatMap.mpr ⟨part, written, List.mem_cons_of_mem _ ?_⟩
    rcases List.mem_cons.mp mem with rfl | mem
    · exact inside
    · exact Definition.elements_subset mem inside
  · cases inside

theorem mem_types_of_mem_function {d : Dictionary} {id : Nat} {constraint : Constraint}
    (mem : constraint ∈ (d.function id).result :: (d.function id).parameters) :
    constraint ∈ d.types := by
  unfold function at mem
  cases found : d.functions[id]? with
  | none =>
    rw [found] at mem
    exact List.mem_append_right _ mem
  | some function =>
    rw [found] at mem
    have known := (Array.mem_toList_iff).mpr (Array.mem_of_getElem? found)
    exact List.mem_append_left _ (List.mem_append_right _ (List.mem_flatMap.mpr
      ⟨function, known, List.mem_flatMap.mpr ⟨constraint, mem, List.mem_cons_self⟩⟩))

/-- What a reference means is dynamic or the definition of a symbol. -/
theorem resolveCandidates_written (d : Dictionary) (candidates : List String) :
    d.resolveCandidates candidates = .simple .dynamic ∨
      ∃ symbol ∈ d.symbols.values, d.resolveCandidates candidates = symbol.constraint.definition := by
  unfold resolveCandidates
  generalize maxResolutionDepth = depth
  induction depth generalizing candidates with
  | zero => exact .inl rfl
  | succ depth ih =>
    unfold resolveCandidatesAt
    split
    · exact .inl rfl
    · next symbol found =>
      split
      · exact ih _
      · obtain ⟨candidate, -, known⟩ := List.exists_of_findSome?_eq_some found
        exact .inr ⟨symbol, List.mem_map_of_mem (Table.mem_of_find? known), rfl⟩

theorem mem_typesMet_of_mem_inner {d : Dictionary} {constraint type part : Constraint}
    (mem : type ∈ d.typesMet constraint) (inside : part ∈ d.inner type) :
    part ∈ d.typesMet constraint := by
  have elements : type.definition.elements ⊆ d.typesMet constraint := by
    rcases List.mem_append.mp mem with mem | mem
    · rcases List.mem_cons.mp mem with rfl | mem
      · exact fun _ inside => List.mem_append_left _ (List.mem_cons_of_mem _ inside)
      · exact fun _ inside => List.mem_append_left _
          (List.mem_cons_of_mem _ (Definition.elements_subset mem inside))
    · exact fun _ inside => List.mem_append_right _ (elements_subset_types mem inside)
  obtain ⟨definition, isDefinition⟩ := type
  unfold inner at inside
  cases definition with
  | array element ofDefinitions =>
    cases List.mem_singleton.mp inside
    exact elements List.mem_cons_self
  | function id => exact List.mem_append_right _ (mem_types_of_mem_function inside)
  | unresolved candidates =>
    dsimp only [resolve] at inside
    rcases d.resolveCandidates_written candidates with dynamic | ⟨symbol, known, meaning⟩
    · rw [dynamic] at inside
      cases inside
    · refine List.mem_append_right _ ?_
      cases shape : d.resolveCandidates candidates with
      | array element ofDefinitions =>
        rw [shape] at inside meaning
        cases List.mem_singleton.mp inside
        refine List.mem_append_left _ (List.mem_append_left _ (List.mem_flatMap.mpr
          ⟨symbol, known, ?_⟩))
        rw [← meaning]
        exact List.mem_cons_self
      | function id =>
        rw [shape] at inside
        exact mem_types_of_mem_function inside
      | _ =>
        rw [shape] at inside
        cases inside
  | _ => cases inside

/-! ### Rounds -/

/-- One round of comparing types, where `matching` compares the types inside. -/
def fitsBy (d : Dictionary) (matching : Constraint → Constraint → Bool)
    (source target : Constraint) : Bool :=
  d.fitsResolved matching (d.resolve source) (d.resolve target)

theorem fitsAt_eq_iterate (d : Dictionary) (depth : Nat) :
    d.fitsAt depth = d.fitsBy^[depth] fun _ _ => false := by
  induction depth with
  | zero => rfl
  | succ depth ih =>
    rw [Function.iterate_succ_apply', ← ih]
    rfl

theorem allFitBy_mono {matching matching' : Constraint → Constraint → Bool}
    {sources targets : List Constraint}
    (more : ∀ s ∈ sources, ∀ t ∈ targets, matching s t = true → matching' s t = true)
    (h : allFitBy matching sources targets = true) : allFitBy matching' sources targets = true := by
  induction sources generalizing targets with
  | nil => cases targets <;> exact h
  | cons source sources ih =>
    cases targets with
    | nil => exact h
    | cons target targets =>
      rw [allFitBy, Bool.and_eq_true] at h ⊢
      exact ⟨more _ List.mem_cons_self _ List.mem_cons_self h.1,
        ih (fun s hs t ht => more s (List.mem_cons_of_mem _ hs) t (List.mem_cons_of_mem _ ht)) h.2⟩

/-- The more types inside fit, the more types fit. -/
theorem fitsBy_mono {d : Dictionary} {matching matching' : Constraint → Constraint → Bool}
    {source target : Constraint}
    (more : ∀ s ∈ d.inner source, ∀ t ∈ d.inner target, matching s t = true → matching' s t = true)
    (h : d.fitsBy matching source target = true) : d.fitsBy matching' source target = true := by
  unfold inner at more
  unfold fitsBy fitsResolved at h ⊢
  split
  · next same => rwa [if_pos same] at h
  next other =>
  rw [if_neg other] at h
  split
  · rfl
  next known =>
  rw [if_neg known] at h
  split
  · next null => rwa [if_pos null] at h
  next notNull =>
  rw [if_neg notNull] at h
  split
  · next unlike => rwa [if_pos unlike] at h
  next alike =>
  rw [if_neg alike] at h
  split at h
  · exact h
  · next hs ht =>
    simp only [hs, ht] at more
    unfold functionFitsBy at h ⊢
    dsimp only at h ⊢
    rw [Bool.and_eq_true] at h ⊢
    exact ⟨more _ List.mem_cons_self _ List.mem_cons_self h.1,
      allFitBy_mono (fun s ms t mt => more s (List.mem_cons_of_mem _ ms) t
        (List.mem_cons_of_mem _ mt)) h.2⟩
  · next hs ht =>
    simp only [hs, ht] at more
    exact more _ List.mem_cons_self _ List.mem_cons_self h
  · exact nomatch h

theorem fitsBy_congr (d : Dictionary) {matching matching' : Constraint → Constraint → Bool}
    {source target : Constraint}
    (agree : ∀ s ∈ d.inner source, ∀ t ∈ d.inner target, matching s t = matching' s t) :
    d.fitsBy matching source target = d.fitsBy matching' source target :=
  Bool.eq_iff_iff.mpr ⟨fitsBy_mono fun s hs t ht h => agree s hs t ht ▸ h,
    fitsBy_mono fun s hs t ht h => agree s hs t ht ▸ h⟩

theorem fitsAt_succ_of_fitsAt {d : Dictionary} {n : Nat} {source target : Constraint}
    (h : d.fitsAt n source target = true) : d.fitsAt (n + 1) source target = true := by
  induction n generalizing source target with
  | zero => exact nomatch h
  | succ n ih => exact fitsBy_mono (fun _ _ _ _ => ih) h

theorem fitsAt_mono {d : Dictionary} {m n : Nat} {source target : Constraint} (le : m ≤ n)
    (h : d.fitsAt m source target = true) : d.fitsAt n source target = true := by
  induction le with
  | refl => exact h
  | step _ ih => exact fitsAt_succ_of_fitsAt ih

/-! ### The last round -/

/-- The pairs that can be met in a comparison and fit after `n` rounds. -/
def fittingPairs (d : Dictionary) (source target : Constraint) (n : Nat) :
    Finset (Constraint × Constraint) :=
  ((d.typesMet source).toFinset ×ˢ (d.typesMet target).toFinset).filter
    fun pair => d.fitsAt n pair.1 pair.2 = true

theorem mem_fittingPairs {d : Dictionary} {source target s t : Constraint} {n : Nat}
    (hs : s ∈ d.typesMet source) (ht : t ∈ d.typesMet target) :
    (s, t) ∈ d.fittingPairs source target n ↔ d.fitsAt n s t = true := by
  simp [fittingPairs, hs, ht]

theorem fittingPairs_subset_succ (d : Dictionary) (source target : Constraint) (n : Nat) :
    d.fittingPairs source target n ⊆ d.fittingPairs source target (n + 1) :=
  Finset.monotone_filter_right _ fun _ _ h => fitsAt_succ_of_fitsAt h

theorem card_fittingPairs_le (d : Dictionary) (source target : Constraint) (n : Nat) :
    (d.fittingPairs source target n).card ≤ d.pairsMet source target := by
  refine (Finset.card_filter_le _ _).trans ?_
  rw [Finset.card_product]
  exact Nat.mul_le_mul (List.toFinset_card_le _) (List.toFinset_card_le _)

/-- Where a round finds no new pair, the next one finds none either. -/
theorem fittingPairs_succ_of_eq {d : Dictionary} {source target : Constraint} {n : Nat}
    (same : d.fittingPairs source target n = d.fittingPairs source target (n + 1)) :
    d.fittingPairs source target (n + 1) = d.fittingPairs source target (n + 2) := by
  refine Finset.filter_congr fun pair mem => ?_
  rw [Finset.mem_product, List.mem_toFinset, List.mem_toFinset] at mem
  refine Bool.eq_iff_iff.mp (d.fitsBy_congr fun s hs t ht => ?_)
  have hs := mem_typesMet_of_mem_inner mem.1 hs
  have ht := mem_typesMet_of_mem_inner mem.2 ht
  rw [Bool.eq_iff_iff, ← mem_fittingPairs hs ht, ← mem_fittingPairs hs ht, same]

/-- After as many rounds as there are pairs, no round finds a new one. -/
theorem fitsAt_of_le {d : Dictionary} {source target s t : Constraint} {n : Nat}
    (enough : d.pairsMet source target ≤ n)
    (hs : s ∈ d.typesMet source) (ht : t ∈ d.typesMet target) :
    d.fitsAt n s t = d.fitsAt (d.pairsMet source target) s t := by
  have grows : Monotone fun n => (d.fittingPairs source target n).card :=
    monotone_nat_of_le_succ fun n => Finset.card_le_card (d.fittingPairs_subset_succ source target n)
  have stable : (d.fittingPairs source target n).card =
      (d.fittingPairs source target (d.pairsMet source target)).card := by
    refine Nat.stabilises_of_monotone grows (d.card_fittingPairs_le source target) ?_ enough
    intro m same
    have equal := Finset.eq_of_subset_of_card_le (d.fittingPairs_subset_succ source target m)
      (Nat.le_of_eq same.symm)
    exact congrArg Finset.card (fittingPairs_succ_of_eq equal)
  have subset : d.fittingPairs source target (d.pairsMet source target) ⊆
      d.fittingPairs source target n :=
    Finset.monotone_filter_right _ fun _ _ h => fitsAt_mono enough h
  have equal := Finset.eq_of_subset_of_card_le subset (Nat.le_of_eq stable)
  rw [Bool.eq_iff_iff, ← mem_fittingPairs hs ht, ← mem_fittingPairs hs ht, equal]

theorem fitsAt_pairsMet {d : Dictionary} {source target s t : Constraint} {n : Nat}
    (hs : s ∈ d.typesMet source) (ht : t ∈ d.typesMet target) (h : d.fitsAt n s t = true) :
    d.fitsAt (d.pairsMet source target) s t = true := by
  have later := fitsAt_mono (Nat.le_max_left n (d.pairsMet source target)) h
  rwa [fitsAt_of_le (Nat.le_max_right _ _) hs ht] at later

/-- **Types are followed far enough**: what fits after any number of rounds
fits. -/
theorem fits_iff {d : Dictionary} {source target : Constraint} :
    d.fits source target = true ↔ ∃ n, d.fitsAt n source target = true :=
  ⟨fun h => ⟨_, h⟩, fun ⟨_, h⟩ => fitsAt_pairsMet List.mem_cons_self List.mem_cons_self h⟩

theorem fits_eq_fitsAt {d : Dictionary} {source target : Constraint} {n : Nat}
    (enough : d.pairsMet source target ≤ n) : d.fits source target = d.fitsAt n source target :=
  (fitsAt_of_le enough List.mem_cons_self List.mem_cons_self).symm

/-- The types inside are compared in the same way. -/
theorem fits_eq_fitsBy (d : Dictionary) (source target : Constraint) :
    d.fits source target = d.fitsBy d.fits source target := by
  rw [fits_eq_fitsAt (Nat.le_succ _)]
  refine d.fitsBy_congr fun s hs t ht => Bool.eq_iff_iff.mpr ⟨fun h => fits_iff.mpr ⟨_, h⟩, ?_⟩
  intro h
  obtain ⟨n, h⟩ := fits_iff.mp h
  exact fitsAt_pairsMet (mem_typesMet_of_mem_inner List.mem_cons_self hs)
    (mem_typesMet_of_mem_inner List.mem_cons_self ht) h

/-! ### A preorder -/

/-- The types that are met in a type, with references replaced by what they
mean: itself, and what is met in the elements of an array. -/
inductive Met (d : Dictionary) : Constraint → Constraint → Prop where
  | self (constraint : Constraint) : Met d constraint (d.resolve constraint)
  | element {constraint type : Constraint} {element : Definition} {ofDefinitions : Bool}
      (array : (d.resolve constraint).definition = .array element ofDefinitions)
      (inside : Met d ⟨element, ofDefinitions⟩ type) : Met d constraint type

/-- No function is met in a type. -/
def IsFunctionFree (d : Dictionary) (constraint : Constraint) : Prop :=
  ∀ type, d.Met constraint type → type.isFunction = false

/-- No dynamic type is met in a type. -/
def IsDynamicFree (d : Dictionary) (constraint : Constraint) : Prop :=
  ∀ type, d.Met constraint type → type.isDynamic = false

/-- How different definitions of one kind fit, apart from simple types. -/
inductive FitsInside (d : Dictionary) (matching : Constraint → Constraint → Bool) :
    Definition → Definition → Prop where
  | object {source target : Nat} (subtype : d.isSubtypeOf source target = true) :
      FitsInside d matching (.object source) (.object target)
  | function {source target : Nat} (fits : d.functionFitsBy matching source target = true) :
      FitsInside d matching (.function source) (.function target)
  | array {source target : Definition} {ofSources ofTargets : Bool}
      (fits : matching ⟨source, ofSources⟩ ⟨target, ofTargets⟩ = true) :
      FitsInside d matching (.array source ofSources) (.array target ofTargets)

/-- The rules by which types fit that are not dynamic. The order in which they
are tried matters for null only, which is compared with itself by the first. -/
theorem fitsResolved_iff {d : Dictionary} {matching : Constraint → Constraint → Bool}
    {source target : Constraint} (known : source.isDynamic = false)
    (known' : target.isDynamic = false) :
    d.fitsResolved matching source target = true ↔
      source.definition = target.definition ∧ (source.isDefinition = true → target.isDefinition = true) ∨
      source.isSimple .null = true ∧ target.isSimple .null = false ∧
        target.definition.admitsNull = true ∨
      (source.isDefinition = true → target.isDefinition = true) ∧
        d.FitsInside matching source.definition target.definition := by
  obtain ⟨a, i⟩ := source
  obtain ⟨b, j⟩ := target
  have flags : (!i || j) = true ↔ (i = true → j = true) := by cases i <;> simp
  rw [fitsResolved, known, known']
  by_cases same : a = b
  · subst same
    simp only [BEq.rfl, if_true, flags]
    grind [Constraint.isSimple]
  · simp only [beq_eq_false_iff_ne.mpr same, Bool.false_eq_true, if_false, Bool.or_self, same,
      false_and, false_or, Constraint.isSimple]
    cases null : a == .simple .null with
    | true =>
      have distinct : (b == .simple .null) = false :=
        beq_eq_false_iff_ne.mpr fun equal => same (beq_iff_eq.mp null ▸ equal.symm)
      have outside : ¬d.FitsInside matching a b := by
        rw [beq_iff_eq.mp null]
        exact nofun
      simp [distinct, outside]
    | false =>
      have alike : (i = true → j = true) ↔ (i && !j) = false := by cases i <;> simp
      simp only [Bool.false_eq_true, if_false, false_and, false_or, alike]
      cases i && !j with
      | true => exact ⟨nofun, fun h => nomatch h.1⟩
      | false =>
        simp only [Bool.false_eq_true, if_false, true_and]
        constructor
        · intro h
          split at h
          · exact .object h
          · exact .function h
          · exact .array h
          · exact nomatch h
        · rintro (h | h | h) <;> exact h

theorem fitsResolved_of_isDynamic {d : Dictionary} {matching : Constraint → Constraint → Bool}
    {source target : Constraint} (known : source.isDynamic = false)
    (dynamic : target.isDynamic = true) : d.fitsResolved matching source target = true := by
  have other : (source.definition == target.definition) = false := by
    refine beq_eq_false_iff_ne.mpr fun same => ?_
    rw [Constraint.isDynamic, Constraint.isSimple, ← same] at dynamic
    exact nomatch known.symm.trans dynamic
  rw [fitsResolved, other, dynamic]
  rfl

theorem fits_refl (d : Dictionary) (constraint : Constraint) :
    d.fits constraint constraint = true := by
  rw [fits_eq_fitsBy, fitsBy, fitsResolved, if_pos BEq.rfl]
  cases (d.resolve constraint).isDefinition <;> rfl

namespace FitsInside

variable {d : Dictionary} {matching matching' : Constraint → Constraint → Bool}
  {a b c : Definition}

theorem admitsNull (h : d.FitsInside matching a b) : b ≠ .simple .null ∧ b.admitsNull = true := by
  cases h <;> exact ⟨nofun, rfl⟩

theorem mono (h : d.FitsInside matching a b) (data : a.function? = none)
    (elements : ∀ s t, matching s t = true → matching' s t = true) :
    d.FitsInside matching' a b := by
  cases h with
  | object subtype => exact .object subtype
  | function _ => cases data
  | array fits => exact .array (elements _ _ fits)

/-- Fitting inside is transitive, as far as it is for the elements of arrays. -/
theorem trans (shallow : d.IsShallow) (first : d.FitsInside matching a b)
    (second : d.FitsInside matching' b c) (data : a.function? = none)
    (elements : ∀ x y z i j k, a = .array x i → b = .array y j → matching ⟨x, i⟩ ⟨y, j⟩ = true →
      matching' ⟨y, j⟩ ⟨z, k⟩ = true → matching' ⟨x, i⟩ ⟨z, k⟩ = true) :
    d.FitsInside matching' a c := by
  cases first with
  | object subtype =>
    cases second with
    | object subtype' => exact .object (shallow.isSubtypeOf_trans subtype subtype')
  | function _ => cases data
  | array fits =>
    cases second with
    | array fits' => exact .array (elements _ _ _ _ _ _ rfl rfl fits fits')

end FitsInside

/-- One after the other, types fit where the first two meet nothing dynamic. -/
theorem fits_trans_of_fitsAt {d : Dictionary} (shallow : d.IsShallow) {n : Nat}
    {source middle target : Constraint} (data : d.IsFunctionFree source)
    (known : d.IsDynamicFree source) (known' : d.IsDynamicFree middle)
    (first : d.fitsAt n source middle = true) (second : d.fits middle target = true) :
    d.fits source target = true := by
  induction n generalizing source middle target with
  | zero => exact nomatch first
  | succ n ih =>
    have hs := known _ (.self source)
    have hm := known' _ (.self middle)
    have noFunction : (d.resolve source).definition.function? = none :=
      Option.isSome_eq_false_iff.mp (data _ (.self source)) |> Option.isNone_iff_eq_none.mp
    have elements (x y z : Definition) (i j k : Bool)
        (array : (d.resolve source).definition = .array x i)
        (array' : (d.resolve middle).definition = .array y j)
        (first : d.fitsAt n ⟨x, i⟩ ⟨y, j⟩ = true) (second : d.fits ⟨y, j⟩ ⟨z, k⟩ = true) :
        d.fits ⟨x, i⟩ ⟨z, k⟩ = true :=
      ih (fun _ met => data _ (.element array met)) (fun _ met => known _ (.element array met))
        (fun _ met => known' _ (.element array' met)) first second
    rw [fits_eq_fitsBy, fitsBy] at second ⊢
    rw [fitsAt] at first
    cases ht : (d.resolve target).isDynamic with
    | true => exact fitsResolved_of_isDynamic hs ht
    | false =>
      rw [fitsResolved_iff hs hm] at first
      rw [fitsResolved_iff hm ht] at second
      rw [fitsResolved_iff hs ht]
      simp only [Constraint.isSimple, beq_iff_eq, beq_eq_false_iff_ne] at first second ⊢
      rcases first with ⟨same, flag⟩ | ⟨null, notNull, admits⟩ | ⟨flag, inside⟩
      · rw [same]
        exact second.imp (.imp_right (· ∘ flag)) (.imp_right (.imp_left (· ∘ flag)))
      · refine .inr (.inl ⟨null, ?_⟩)
        rcases second with ⟨same, -⟩ | ⟨null', -⟩ | ⟨-, inside⟩
        · exact same ▸ ⟨notNull, admits⟩
        · exact absurd null' notNull
        · exact inside.admitsNull
      · rcases second with ⟨same, flag'⟩ | ⟨null, -⟩ | ⟨flag', inside'⟩
        · refine .inr (.inr ⟨flag' ∘ flag, same ▸ ?_⟩)
          exact inside.mono noFunction fun _ _ h => fits_iff.mpr ⟨n, h⟩
        · exact absurd null inside.admitsNull.1
        · exact .inr (.inr ⟨flag' ∘ flag, inside.trans shallow inside' noFunction elements⟩)

/-- **Fitting is a preorder away from dynamic types.** In a dictionary where no
supertype is out of reach, every type fits itself, functions and dynamic types
included. A type fits what fits next, where neither it nor the type in between
holds anything dynamic, and it holds no function: values and definitions,
null, arrays of arrays and references all compose. -/
theorem fits_preorder {d : Dictionary} (shallow : d.IsShallow) :
    (∀ constraint, d.fits constraint constraint = true) ∧
    ∀ source middle target, d.IsFunctionFree source → d.IsDynamicFree source →
      d.IsDynamicFree middle → d.fits source middle = true → d.fits middle target = true →
      d.fits source target = true := by
  refine ⟨d.fits_refl, fun source middle target data known known' first second => ?_⟩
  obtain ⟨n, first⟩ := fits_iff.mp first
  exact fits_trans_of_fitsAt shallow data known known' first second

/-- Three classes one above the other, in arrays, and the second one by a
reference that could mean another. -/
theorem fits_preorder_arrays :
    let d : Dictionary :=
      { symbols := .empty
        objects := #[.new "A" .classType,
          { ObjectType.new "B" .classType with supertypes := [.object 0] },
          { ObjectType.new "C" .classType with supertypes := [.object 1] }]
        functions := #[] }
    let d := d.addSymbol ⟨"B", "B", .objectType 1⟩
    let source := Constraint.arrayOf (.object 2)
    let middle := Constraint.arrayOf (.unresolved ["p.B", "B"])
    let target := Constraint.arrayOf (.object 0)
    d.IsShallow ∧ d.IsFunctionFree source ∧ d.IsDynamicFree source ∧ d.IsDynamicFree middle ∧
      d.fits source middle = true ∧ d.fits middle target = true ∧ d.fits source target = true := by
  intro d₀ d source middle target
  have shallow : d.IsShallow := isShallow_of_descends (by decide) (by decide)
  have met (element : Constraint) (id : Nat) (meaning : d.resolve element = .object id)
      (type : Constraint) (met : d.Met (.arrayOf element) type) :
      type = .arrayOf element ∨ type = .object id := by
    rcases met with _ | ⟨array, inside⟩
    · exact .inl rfl
    · cases array
      rcases inside with _ | ⟨array, _⟩
      · exact .inr meaning
      · cases (congrArg Constraint.definition meaning).symm.trans array
  have data : d.IsFunctionFree source := fun type inside => by
    rcases met (.object 2) 2 rfl type inside with rfl | rfl <;> rfl
  have known : d.IsDynamicFree source := fun type inside => by
    rcases met (.object 2) 2 rfl type inside with rfl | rfl <;> rfl
  have known' : d.IsDynamicFree middle := fun type inside => by
    rcases met (.unresolved ["p.B", "B"]) 1 (by decide) type inside with rfl | rfl <;> rfl
  have first : d.fits source middle = true := by decide +kernel
  have second : d.fits middle target = true := by decide +kernel
  exact ⟨shallow, data, known, known', first, second,
    (fits_preorder shallow).2 source middle target data known known' first second⟩

end Dictionary
end Javascribe
