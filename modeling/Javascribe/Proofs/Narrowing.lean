/-
# Narrower arguments

An argument may be replaced by one that fits it: what accepts the first accepts
the second. For a single parameter this is transitivity of fitting. It carries
over to a call: the fixed parameters take their arguments one by one, and the
last parameter of a variadic function takes the rest in the way it did before,
as one array or as elements. Narrower arguments may in addition be accepted in
the other way or by an earlier constructor.

Key definitions: `Dictionary.Narrows`.
Key theorems: `Dictionary.accepts_of_narrows`,
`Dictionary.constructor?_of_narrows`.
-/
import Javascribe.Proofs.Matching
import Javascribe.Typing.Overload
import Mathlib.Data.List.Forall2

namespace Javascribe
namespace Dictionary

/-- A type fits another one, and both are free of functions and of anything
dynamic. -/
structure Narrows (d : Dictionary) (narrow wide : Constraint) : Prop where
  fits : d.fits narrow wide = true
  data : d.IsFunctionFree narrow ∧ d.IsFunctionFree wide
  known : d.IsDynamicFree narrow ∧ d.IsDynamicFree wide

section Shallow

variable {d : Dictionary} (shallow : d.IsShallow)
include shallow

theorem Narrows.fits_trans {narrow wide target : Constraint} (h : d.Narrows narrow wide)
    (fits : d.fits wide target = true) : d.fits narrow target = true := by
  obtain ⟨n, first⟩ := fits_iff.mp h.fits
  exact fits_trans_of_fitsAt shallow h.data.1 h.known.1 h.known.2 first fits

/-! ### One function -/

variable {narrow wide : List Constraint} (h : List.Forall₂ d.Narrows narrow wide)
include h

theorem allFit_of_narrows {targets : List Constraint} (fit : d.allFit wide targets = true) :
    d.allFit narrow targets = true := by
  induction h generalizing targets with
  | nil => exact fit
  | cons first _ ih =>
    cases targets with
    | nil => cases fit
    | cons target targets =>
      rw [allFit, allFitBy, Bool.and_eq_true] at fit ⊢
      exact ⟨first.fits_trans shallow fit.1, ih fit.2⟩

theorem all_fits_of_narrows {element : Constraint}
    (fit : wide.all (d.fits · element) = true) : narrow.all (d.fits · element) = true := by
  induction h with
  | nil => rfl
  | cons first _ ih =>
    rw [List.all_cons, Bool.and_eq_true] at fit ⊢
    exact ⟨first.fits_trans shallow fit.1, ih fit.2⟩

/-- The rest of the arguments is still one array, or still elements. -/
theorem acceptsTrailing_of_narrows {rest : Constraint}
    (accepted : d.acceptsTrailing rest wide = true) : d.acceptsTrailing rest narrow = true := by
  unfold acceptsTrailing at accepted ⊢
  rw [Bool.or_eq_true] at accepted ⊢
  refine accepted.imp (fun array => ?_) (all_fits_of_narrows shallow h)
  obtain _ | ⟨first, _ | _⟩ := h
  · cases array
  · exact first.fits_trans shallow array
  · cases array

theorem accepts_of_narrows (function : FunctionType) (accepted : d.accepts function wide = true) :
    d.accepts function narrow = true := by
  unfold accepts at accepted ⊢
  split
  · next fixed =>
    rw [if_pos fixed] at accepted
    exact allFit_of_narrows shallow h accepted
  · next variadic =>
    rw [if_neg variadic] at accepted
    split
    · next none =>
      rw [none] at accepted
      cases h with
      | nil => rfl
      | cons _ _ => cases accepted
    · next rest last =>
      simp only [last, Bool.and_eq_true, decide_eq_true_eq] at accepted ⊢
      obtain ⟨⟨enough, fit⟩, trailing⟩ := accepted
      exact ⟨⟨h.length_eq ▸ enough, allFit_of_narrows shallow (List.forall₂_take _ h) fit⟩,
        acceptsTrailing_of_narrows shallow (List.forall₂_drop _ h) trailing⟩

/-! ### The first of several constructors -/

theorem constructor?_of_narrows (id : Nat) {i : Nat} (chosen : d.constructor? id wide = some i) :
    ∃ j ≤ i, d.constructor? id narrow = some j := by
  obtain ⟨lt, accepted, -⟩ := List.findIdx?_eq_some_iff_getElem.mp chosen
  have accepts := accepts_of_narrows shallow h _ accepted
  cases found : d.constructor? id narrow with
  | none =>
    have refused := List.findIdx?_eq_none_iff.mp found _ (List.getElem_mem lt)
    exact absurd accepts (Bool.eq_false_iff.mp refused)
  | some j =>
    obtain ⟨_, _, before⟩ := List.findIdx?_eq_some_iff_getElem.mp found
    exact ⟨j, Nat.le_of_not_lt fun later => before i later accepts, rfl⟩

end Shallow

/-- **Narrower arguments are safe.** Where no supertype is out of reach, let each
argument be replaced by one that fits it. Then every function, variadic or not,
that accepted the arguments accepts the new ones, and the constructor that is
chosen for them is the same one or an earlier one. -/
theorem accepts_narrower {d : Dictionary} (shallow : d.IsShallow) (narrow wide : List Constraint)
    (h : List.Forall₂ d.Narrows narrow wide) :
    (∀ function, d.accepts function wide = true → d.accepts function narrow = true) ∧
    ∀ id i, d.constructor? id wide = some i → ∃ j ≤ i, d.constructor? id narrow = some j :=
  ⟨accepts_of_narrows shallow h, fun id _ => constructor?_of_narrows shallow h id⟩

/-- A class and one below it. The class needs the variadic constructor, the one
below it is accepted by the constructor before. -/
theorem accepts_narrower_variadic :
    let d : Dictionary :=
      { symbols := .empty
        objects := #[{ ObjectType.new "A" .classType with constructors := [0, 1] },
          { ObjectType.new "B" .classType with supertypes := [.object 0] }]
        functions := #[⟨"A", [], [.object 1], .simple .void, false⟩,
          ⟨"A", [], [.arrayOf (.object 0)], .simple .void, true⟩] }
    d.IsShallow ∧ List.Forall₂ d.Narrows [.object 1] [.object 0] ∧
      d.constructor? 0 [.object 0] = some 1 ∧ d.constructor? 0 [.object 1] = some 0 ∧
      ∃ j ≤ 1, d.constructor? 0 [.object 1] = some j := by
  intro d
  have shallow : d.IsShallow := isShallow_of_descends (by decide) (by decide)
  have free (id : Nat) (type : Constraint) (met : d.Met (.object id) type) : type = .object id := by
    rcases met with _ | ⟨array, _⟩
    · rfl
    · cases array
  have narrows : d.Narrows (.object 1) (.object 0) :=
    ⟨by decide +kernel,
      ⟨fun type met => free 1 type met ▸ rfl, fun type met => free 0 type met ▸ rfl⟩,
      ⟨fun type met => free 1 type met ▸ rfl, fun type met => free 0 type met ▸ rfl⟩⟩
  have wide : d.constructor? 0 [.object 0] = some 1 := by decide +kernel
  exact ⟨shallow, .cons narrows .nil, wide, by decide +kernel,
    (accepts_narrower shallow _ _ (.cons narrows .nil)).2 0 1 wide⟩

end Dictionary
end Javascribe
