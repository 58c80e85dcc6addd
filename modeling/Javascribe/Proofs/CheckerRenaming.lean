/-
# Checks and renaming

A check of the same construct, in the context and against the dictionary of
another check with the numbers of object types and functions renamed, gives
the renamed answer: it ends or halts in the same way, reports the same
problems and finds out the same about names (`Checker.Mirrors`). What was
found before makes no difference, so the two checks may start with different
findings. This is closed under sequence, recovery and every way of entering
and leaving.

Key definitions: `Environment.Renames`, `Checker.MirrorsBy`, `Checker.Mirrors`.
Key theorems: `Checker.Mirrors.bind`, `Checker.Mirrors.ask`,
`Checker.Mirrors.recover`, `Checker.Mirrors.withinObject`.
-/
import Javascribe.Proofs.Findings
import Javascribe.Proofs.Renaming

namespace Javascribe

/-! ### Contexts -/

instance : Renamable Completion := ⟨fun _ => id⟩

instance : Renamable Flags := ⟨fun _ => id⟩

instance : Renamable Reach := ⟨fun _ => id⟩

instance isSettled_rename (ρ : Renaming) (c : Constraint) [settled : c.IsSettled] :
    (rename ρ c).IsSettled := by
  obtain ⟨definition, isDefinition⟩ := c
  cases definition with
  | unresolved candidates => exact absurd rfl (settled.ne_unresolved candidates)
  | _ => exact ⟨fun _ => Definition.noConfusion⟩

instance : Renamable Local :=
  ⟨fun ρ declared =>
    have := declared.settled
    ⟨declared.name, rename ρ declared.constraint, declared.isConstant⟩⟩

instance : Renamable Scopes := ⟨fun ρ scopes => ⟨rename ρ scopes.levels⟩⟩

/-- Diagnostics and resolutions mention no numbers of types. -/
instance : Renamable Context :=
  ⟨fun ρ context =>
    { context with
      scopes := rename ρ context.scopes
      objects := rename ρ context.objects
      expected := rename ρ context.expected }⟩

instance : Renamable Checker.Link :=
  ⟨fun ρ link => ⟨rename ρ link.constraint, rename ρ link.member⟩⟩

section Parts

variable {α κ : Type} [Renamable α] [BEq κ] (ρ : Renaming)

@[simp]
theorem rename_insert (table : Table κ α) (key : κ) (value : α) :
    rename ρ (table.insert key value) = (rename ρ table).insert key (rename ρ value) := by
  obtain ⟨entries⟩ := table
  show Table.mk (List.map _ (Table.insertEntry key value entries)) = ⟨_⟩
  congr 1
  induction entries with
  | nil => rfl
  | cons entry entries ih =>
    obtain ⟨other, old⟩ := entry
    show List.map _ (if other == key then _ else _) = if other == key then _ else _
    split
    · rfl
    · exact congrArg _ ih

@[simp]
theorem find?_rename_scopes (scopes : Scopes) (name : String) :
    (rename ρ scopes).find? name = rename ρ (scopes.find? name) := by
  apply findSome?_rename
  exact fun level => find?_rename ρ level name

@[simp]
theorem rename_declare (scopes : Scopes) (declared : Local) :
    rename ρ (scopes.declare declared) = (rename ρ scopes).declare (rename ρ declared) := by
  obtain ⟨levels⟩ := scopes
  cases levels with
  | nil => rfl
  | cons level levels =>
    show Scopes.mk (rename ρ (level.insert declared.name declared) :: rename ρ levels) = _
    rw [rename_insert]
    rfl

end Parts

/-- The same file, checked against a renamed dictionary. -/
structure Environment.Renames (ρ : Renaming) (env env' : Environment) : Prop where
  dictionary : env.dictionary.Renames ρ env'.dictionary
  rest : env' = { env with dictionary := env'.dictionary }

namespace Environment.Renames

variable {ρ : Renaming} {env env' : Environment} (h : env.Renames ρ env')

include h

theorem diagnostic (halt : Halt) : env'.diagnostic halt = env.diagnostic halt := by
  rw [h.rest]
  rfl

theorem space : env'.space = env.space := by
  rw [h.rest]

theorem file : env'.file = env.file := by
  rw [h.rest]

end Environment.Renames

/-! ### Checks -/

namespace Checker

variable {α β : Type} (ρ : Renaming)

/-- What a check gives, and the context it leaves, renamed and with other
findings. -/
def renameResult (shift : CheckedFile.Shift) (v : α → β) :
    EStateM.Result Halt Context α → EStateM.Result Halt Context β
  | .ok a context => .ok (v a) ((rename ρ context).shift shift)
  | .error halt context => .error halt ((rename ρ context).shift shift)

/-- Where the numbers are renamed and other things were found before, the second
check does what the first does without, and gives the same up to `v`. -/
def MirrorsBy (v : α → β) (m : Checker α) (m' : Checker β) : Prop :=
  ∀ env env', env.Renames ρ env' → ∀ shift context,
    m' env' ((rename ρ context).shift shift) = renameResult ρ shift v (m env context)

/-- Where the numbers are renamed, the second check does what the first does
without, and gives the same, renamed. -/
def Mirrors [Renamable α] (m m' : Checker α) : Prop := MirrorsBy ρ (rename ρ) m m'

/-- Where the numbers are renamed, a check does what it does without. -/
abbrev Mirrored [Renamable α] (m : Checker α) : Prop := Mirrors ρ m m

/-! ### Sequence -/

variable {ρ}

theorem MirrorsBy.bind {γ δ : Type} {v : α → γ} {w : β → δ} {m : Checker α} {m' : Checker γ}
    {f : α → Checker β} {f' : γ → Checker δ} (hm : MirrorsBy ρ v m m')
    (hf : ∀ a, MirrorsBy ρ w (f a) (f' (v a))) : MirrorsBy ρ w (m >>= f) (m' >>= f') := by
  intro env env' h shift context
  change EStateM.bind (m' env') (fun a => f' a env') ((rename ρ context).shift shift) =
    renameResult ρ shift w (EStateM.bind (m env) (fun a => f a env) context)
  rw [EStateM.bind, EStateM.bind, hm env env' h shift context]
  cases m env context with
  | error halt after => rfl
  | ok a after => exact hf a env env' h shift after

variable [Renamable α] [Renamable β]

theorem Mirrors.bind {m m' : Checker α} {f f' : α → Checker β} (hm : Mirrors ρ m m')
    (hf : ∀ a, Mirrors ρ (f a) (f' (rename ρ a))) : Mirrors ρ (m >>= f) (m' >>= f') :=
  MirrorsBy.bind hm hf

theorem Mirrors.pure (a : α) : Mirrors ρ (pure a) (pure (rename ρ a)) := fun _ _ _ _ _ => rfl

theorem Mirrors.discard {m m' : Checker α} (h : Mirrors ρ m m') :
    Mirrors ρ (discard m) (discard m') := by
  intro env env' hEnv shift context
  change EStateM.map _ (m' env') ((rename ρ context).shift shift) =
    renameResult ρ shift _ (EStateM.map _ (m env) context)
  rw [EStateM.map, EStateM.map, h env env' hEnv shift context]
  cases m env context <;> rfl

theorem Mirrors.ite {c : Prop} [Decidable c] {m m' n n' : Checker α} (hm : Mirrors ρ m m')
    (hn : Mirrors ρ n n') : Mirrors ρ (if c then m else n) (if c then m' else n') := by
  split
  · exact hm
  · exact hn

theorem Mirrors.orM {m m' n n' : Checker Bool} (hm : Mirrors ρ m m') (hn : Mirrors ρ n n') :
    Mirrors ρ (m <||> n) (m' <||> n') := by
  refine hm.bind fun b => ?_
  cases b
  · exact hn
  · exact .pure true

theorem Mirrors.andM {m m' n n' : Checker Bool} (hm : Mirrors ρ m m') (hn : Mirrors ρ n n') :
    Mirrors ρ (m <&&> n) (m' <&&> n') := by
  refine hm.bind fun b => ?_
  cases b
  · exact .pure false
  · exact hn

theorem Mirrors.forM {γ : Type} {f f' : γ → Checker PUnit} (hf : ∀ x, Mirrors ρ (f x) (f' x))
    (xs : List γ) : Mirrors ρ (xs.forM f) (xs.forM f') := by
  induction xs with
  | nil => exact .pure _
  | cons x xs ih => exact (hf x).bind fun _ => ih

theorem Mirrors.forM_rename {f f' : α → Checker PUnit}
    (hf : ∀ x, Mirrors ρ (f x) (f' (rename ρ x))) (xs : List α) :
    Mirrors ρ (xs.forM f) ((rename ρ xs).forM f') := by
  induction xs with
  | nil => exact .pure _
  | cons x xs ih => exact (hf x).bind fun _ => ih

theorem Mirrors.mapM {γ : Type} {f f' : γ → Checker β} (hf : ∀ x, Mirrors ρ (f x) (f' x))
    (xs : List γ) : Mirrors ρ (xs.mapM f) (xs.mapM f') := by
  induction xs with
  | nil => exact .pure []
  | cons x xs ih =>
    rw [List.mapM_cons, List.mapM_cons]
    exact (hf x).bind fun y => ih.bind fun ys => .pure (y :: ys)

theorem Mirrors.mapM_rename {f f' : α → Checker β}
    (hf : ∀ x, Mirrors ρ (f x) (f' (rename ρ x))) (xs : List α) :
    Mirrors ρ (xs.mapM f) ((rename ρ xs).mapM f') := by
  induction xs with
  | nil => exact .pure []
  | cons x xs ih =>
    rw [rename_cons, List.mapM_cons, List.mapM_cons]
    exact (hf x).bind fun y => ih.bind fun ys => .pure (y :: ys)

theorem Mirrors.allM_rename {f f' : α → Checker Bool}
    (hf : ∀ x, Mirrors ρ (f x) (f' (rename ρ x))) (xs : List α) :
    Mirrors ρ (xs.allM f) ((rename ρ xs).allM f') := by
  induction xs with
  | nil => exact .pure true
  | cons x xs ih =>
    refine (hf x).bind fun b => ?_
    cases b
    · exact .pure false
    · exact ih

/-! ### The dictionary and the context -/

theorem MirrorsBy.ask {γ δ : Type} {v : γ → δ} {question : Dictionary → γ}
    {question' : Dictionary → δ}
    (h : ∀ d d', d.Renames ρ d' → question' d' = v (question d)) :
    MirrorsBy ρ v (ask question) (ask question') := by
  intro env env' hEnv shift context
  change EStateM.Result.ok (question' env'.dictionary) _ = _
  rw [h _ _ hEnv.dictionary]
  rfl

theorem Mirrors.ask {question question' : Dictionary → α}
    (h : ∀ d d', d.Renames ρ d' → question' d' = rename ρ (question d)) :
    Mirrors ρ (ask question) (ask question') := MirrorsBy.ask h

/-- What goes on with the context must not look at what was found. -/
theorem Mirrors.get {f f' : Context → Checker β}
    (h : ∀ shift context, Mirrors ρ (f context) (f' ((rename ρ context).shift shift))) :
    Mirrors ρ (get >>= f) (get >>= f') :=
  fun env env' hEnv shift context => h shift context env env' hEnv shift context

/-- A change of the context that looks neither at numbers nor at findings. -/
theorem Mirrors.modify {change change' : Context → Context}
    (h : ∀ shift context,
      change' ((rename ρ context).shift shift) = (rename ρ (change context)).shift shift) :
    Mirrors ρ (modify change : Checker PUnit) (modify change') := by
  intro env env' _ shift context
  change EStateM.Result.ok PUnit.unit (change' ((rename ρ context).shift shift)) = _
  rw [h]
  rfl

theorem mirrors_note (finding : Finding) :
    Mirrors ρ (modify (·.note finding) : Checker PUnit) (modify (·.note finding)) :=
  Mirrors.modify fun shift context => (Context.shift_note (rename ρ context) shift finding).symm

theorem Mirrors.flags : Mirrored ρ flags := fun _ _ _ _ _ => rfl

theorem Mirrors.complete (completion : Completion) :
    Mirrored ρ (complete completion) := Mirrors.modify fun _ _ => rfl

theorem Mirrors.declare (declared : Local) :
    Mirrors ρ (declare declared) (declare (rename ρ declared)) :=
  Mirrors.modify fun shift context => by
    show { (rename ρ context).shift shift with
      scopes := (rename ρ context.scopes).declare (rename ρ declared) } = _
    rw [← rename_declare]
    rfl

theorem Mirrors.local? (name : String) : Mirrored ρ (local? name) := by
  intro env env' _ shift context
  change EStateM.Result.ok ((rename ρ context.scopes).find? name) _ = _
  rw [find?_rename_scopes]
  rfl

/-! ### Problems -/

theorem Mirrors.report (token : Nat) (code : Code) (arguments : List String) :
    Mirrored ρ (report token code arguments) := by
  intro env env' h shift context
  change EStateM.Result.ok PUnit.unit
    (((rename ρ context).shift shift).note (.problem (env'.diagnostic ⟨token, code, arguments⟩))) = _
  rw [h.diagnostic, ← Context.shift_note]
  rfl

theorem Mirrors.check (condition : Bool) (token : Nat) (code : Code) (arguments : List String) :
    Mirrored ρ (check condition token code arguments) :=
  .ite (.pure _) (.report token code arguments)

theorem Mirrors.halt (token : Nat) (code : Code) (arguments : List String) :
    Mirrors ρ (halt token code arguments : Checker α) (halt token code arguments) :=
  fun _ _ _ _ _ => rfl

theorem Mirrors.require (condition : Bool) (token : Nat) (code : Code) (arguments : List String) :
    Mirrored ρ (require condition token code arguments) :=
  .ite (.pure _) (.halt token code arguments)

theorem Mirrors.recover {m m' : Checker α} (h : Mirrors ρ m m') :
    Mirrors ρ (recover m) (recover m') := by
  intro env env' hEnv shift context
  rw [Checker.recover, Checker.recover, h env env' hEnv shift context]
  cases m env context with
  | ok a after => rfl
  | error halt after =>
    show EStateM.Result.ok none (((rename ρ after).shift shift).note (.problem (env'.diagnostic halt))) = _
    rw [hEnv.diagnostic, ← Context.shift_note]
    rfl

theorem Mirrors.attempt {m m' : Checker α} (h : Mirrors ρ m m') :
    Mirrors ρ (attempt m) (attempt m') := h.recover.discard

/-! ### Entering and leaving -/

theorem Mirrors.bracket {enter enter' : Context → Context}
    {leave leave' : Context → Context → Context} {m m' : Checker α} (h : Mirrors ρ m m')
    (hEnter : ∀ shift context,
      enter' ((rename ρ context).shift shift) = (rename ρ (enter context)).shift shift)
    (hLeave : ∀ shift before after,
      leave' ((rename ρ before).shift shift) ((rename ρ after).shift shift) =
        (rename ρ (leave before after)).shift shift) :
    Mirrors ρ (bracket enter leave m) (bracket enter' leave' m') := by
  intro env env' hEnv shift context
  rw [Checker.bracket, Checker.bracket, hEnter, h env env' hEnv shift (enter context)]
  cases m env (enter context) with
  | ok a after => exact congrArg (EStateM.Result.ok (rename ρ a)) (hLeave shift context after)
  | error halt after => exact congrArg (EStateM.Result.error halt) (hLeave shift context after)

variable {m m' : Checker α} (h : Mirrors ρ m m')

include h

theorem Mirrors.withFlags (change : Flags → Flags) :
    Mirrors ρ (withFlags change m) (withFlags change m') :=
  h.bracket (fun _ _ => rfl) fun _ _ _ => rfl

theorem Mirrors.withScope : Mirrors ρ (withScope m) (withScope m') :=
  h.bracket (fun _ _ => rfl) fun shift _ after => by
    show { (rename ρ after).shift shift with scopes := ⟨(rename ρ after.scopes.levels).tail⟩ } = _
    rw [rename_list, ← List.map_tail]
    rfl

theorem Mirrors.withGenerics (names : List String) :
    Mirrors ρ (withGenerics names m) (withGenerics names m') :=
  h.bracket (fun _ _ => rfl) fun _ _ _ => rfl

theorem Mirrors.visiting (id : Nat) :
    Mirrors ρ (visiting id m) (visiting (ρ.object id) m') :=
  h.withScope.bracket (fun _ _ => rfl) fun shift _ after => by
    show { (rename ρ after).shift shift with objects := (rename ρ after.objects).tail } = _
    rw [rename_list, ← List.map_tail]
    rfl

theorem Mirrors.visitingOption (id : Option Nat) :
    Mirrors ρ (visitingOption id m) (visitingOption (rename ρ id) m') := by
  cases id with
  | none => exact h.withScope
  | some id => exact h.visiting id

theorem Mirrors.withinObject (id : Nat) (name : String) (typeParameters : List String) :
    Mirrors ρ (withinObject id name typeParameters m)
      (withinObject (ρ.object id) name typeParameters m') := by
  apply Mirrors.withGenerics
  exact (h.visiting id).bracket (fun _ _ => rfl) fun _ _ _ => rfl

theorem Mirrors.expecting (expected : Constraint) :
    Mirrors ρ (expecting expected m) (expecting (rename ρ expected) m') :=
  h.bracket (fun _ _ => rfl) fun shift _ after => by
    show { (rename ρ after).shift shift with expected := (rename ρ after.expected).tail } = _
    rw [rename_list, ← List.map_tail]
    rfl

omit h in
theorem Mirrors.inBlock {body body' : Checker Unit} (h : Mirrors ρ body body') :
    Mirrors ρ (inBlock body) (inBlock body') :=
  .withFlags (.withScope (h.bind fun _ => Mirrors.flags.bind fun flags => .pure flags.completion)) _

end Checker
end Javascribe
