/-
# Checks leave their context balanced

What a check enters it leaves, on every way out of it. After the check of a
construct, whether it ended or halted, the enclosing objects and types, the
type parameters and the expected results are those of before; the scopes
around the innermost one are untouched, and the innermost one has at most
more names or other meanings for them; the flags say at most more about how
control leaves; and the problems found before come first
(`Context.Balanced`). The frame that carries this through the trees is the
one of the checks themselves (`Checker.Meets`); here it is read off for every
kind of construct.

Key definitions: `Scopes.Extends`, `Context.Balanced`, `Checker.Balances`.
Key theorems: `Scopes.extends_foldl_declare`, `Check.check_balances`.
-/
import Javascribe.Checking.SourceFile
import Javascribe.Proofs.CheckFrame

namespace Javascribe

open Javascribe.Tree

/-! ### Scopes -/

/-- The scopes are the same but for the innermost one, which may have gained
names, behind those it had, and other meanings for the names it had. -/
def Scopes.Extends (before after : Scopes) : Prop :=
  match before.levels, after.levels with
  | [], [] => True
  | level :: outer, level' :: outer' => level.keys <+: level'.keys ∧ outer' = outer
  | _, _ => False

theorem Table.keys_prefix_insertEntry {κ α : Type} [BEq κ] [LawfulBEq κ] (key : κ) (value : α) :
    ∀ entries : List (κ × α),
      entries.map (·.1) <+: (insertEntry key value entries).map (·.1)
  | [] => List.nil_prefix
  | (other, old) :: entries => by
    rw [insertEntry]
    split
    case isTrue same =>
      rw [eq_of_beq same]
      exact List.prefix_refl _
    case isFalse => exact (List.prefix_cons_inj other).mpr (keys_prefix_insertEntry key value entries)

namespace Scopes.Extends

variable {a b c : Scopes}

theorem refl : ∀ a : Scopes, a.Extends a
  | ⟨[]⟩ => trivial
  | ⟨level :: _⟩ => ⟨List.prefix_refl level.keys, rfl⟩

theorem trans (h : a.Extends b) (h' : b.Extends c) : a.Extends c := by
  obtain ⟨as⟩ := a
  obtain ⟨bs⟩ := b
  obtain ⟨cs⟩ := c
  cases as <;> cases bs <;> cases cs <;> try contradiction
  · trivial
  · exact ⟨h.1.trans h'.1, h'.2.trans h.2⟩

theorem declare (scopes : Scopes) (declared : Local) : scopes.Extends (scopes.declare declared) := by
  obtain ⟨levels⟩ := scopes
  cases levels with
  | nil => trivial
  | cons level outer =>
    exact ⟨Table.keys_prefix_insertEntry declared.name declared level.entries, rfl⟩

/-- As many scopes as before. -/
theorem depth_eq (h : a.Extends b) : b.depth = a.depth := by
  obtain ⟨as⟩ := a
  obtain ⟨bs⟩ := b
  cases as <;> cases bs <;> try contradiction
  · rfl
  · exact congrArg (·.length + 1) h.2

end Scopes.Extends

theorem Scopes.extends_foldl_declare (locals : List Local) (scopes : Scopes) :
    scopes.Extends (locals.foldl Scopes.declare scopes) := by
  induction locals generalizing scopes with
  | nil => exact .refl scopes
  | cons declared locals ih => exact (Extends.declare scopes declared).trans (ih _)

/-! ### Contexts -/

/-- What is the same in two contexts, and what the second may have more of. -/
structure Context.Balanced (before after : Context) : Prop where
  objects : after.objects = before.objects
  expected : after.expected = before.expected
  enclosing : after.enclosing = before.enclosing
  generics : after.generics = before.generics
  depth : after.scopes.depth = before.scopes.depth
  scopes : before.scopes.Extends after.scopes
  flags : ∃ completion, after.flags =
    { before.flags with completion := before.flags.completion.either completion }
  diagnostics : before.diagnostics <+: after.diagnostics

namespace Context.Balanced

variable {a b c : Context}

theorem refl (a : Context) : a.Balanced a where
  objects := rfl
  expected := rfl
  enclosing := rfl
  generics := rfl
  depth := rfl
  scopes := .refl a.scopes
  flags := ⟨.normal, by simp⟩
  diagnostics := List.prefix_refl _

theorem trans (h : a.Balanced b) (h' : b.Balanced c) : a.Balanced c where
  objects := h'.objects.trans h.objects
  expected := h'.expected.trans h.expected
  enclosing := h'.enclosing.trans h.enclosing
  generics := h'.generics.trans h.generics
  depth := h'.depth.trans h.depth
  scopes := h.scopes.trans h'.scopes
  flags := by
    obtain ⟨first, hFirst⟩ := h.flags
    obtain ⟨second, hSecond⟩ := h'.flags
    refine ⟨first.either second, ?_⟩
    rw [hSecond, hFirst]
    simp only [Completion.either_assoc]
  diagnostics := h.diagnostics.trans h'.diagnostics

/-- What grows in its frame, and notes no more than a completion, is balanced. -/
theorem of_grows {f : Frame} {F : Completion} (hGrows : a.Grows f b)
    (hAdds : a.flags.Adds F b.flags) : a.Balanced b := by
  obtain ⟨locals, hLocals⟩ := hGrows.scopes
  obtain ⟨halts, hHalts, -⟩ := hGrows.diagnostics
  obtain ⟨completion, -, hFlags⟩ := hAdds
  have hScopes : a.scopes.Extends b.scopes := hLocals ▸ Scopes.extends_foldl_declare locals a.scopes
  exact ⟨hGrows.objects, hGrows.expected, hGrows.enclosing, hGrows.generics, hScopes.depth_eq,
    hScopes, ⟨completion, hFlags⟩, ⟨_, hHalts.symm⟩⟩

end Context.Balanced

/-! ### Checks -/

namespace Checker

variable {α β : Type}

/-- The check leaves every context balanced, whether it ends or halts. -/
def Balances (m : Checker α) : Prop :=
  ∀ env before, match m env before with
    | .ok _ after => before.Balanced after
    | .error _ after => before.Balanced after

theorem Balances.of_meets {m : Checker α} (h : ∀ env p, ∃ C U F, Meets ⟨env, C, U⟩ p F m) :
    Balances m := by
  intro env before
  obtain ⟨C, U, F, hMeets⟩ := h env before.place
  have hRun := hMeets before rfl
  cases hm : m env before <;> simp only [hm] at hRun ⊢ <;> exact .of_grows hRun.1 hRun.2.1

theorem Balances.bind {m : Checker α} {f : α → Checker β} (hm : Balances m)
    (hf : ∀ a, Balances (f a)) : Balances (m >>= f) := by
  intro env before
  have hFirst := hm env before
  change match EStateM.bind (m env) (fun a => f a env) before with
    | .ok _ after => before.Balanced after
    | .error _ after => before.Balanced after
  rw [EStateM.bind]
  cases hm : m env before with
  | error halt after => simpa only [hm] using hFirst
  | ok a between =>
    simp only [hm] at hFirst
    have hSecond := hf a env between
    cases hf : f a env between <;> simp only [hf] at hSecond ⊢ <;> exact hFirst.trans hSecond

theorem Balances.forM {f : α → Checker PUnit} (hf : ∀ x, Balances (f x)) (xs : List α) :
    Balances (xs.forM f) := by
  induction xs with
  | nil => exact fun _ before => .refl before
  | cons x xs ih => exact (hf x).bind fun _ => ih

end Checker

namespace Check

open Javascribe.Checker

theorem balances_item (item : TopLevel) : Balances (Check.item item) := by
  cases item with
  | importDecl i =>
    exact .of_meets fun _ _ => ⟨[], [], .normal, (plain_checkImport i).meets.attempt⟩
  | classDecl c =>
    exact .of_meets fun env p =>
      ⟨_, c.uses env p, .normal, meets_classDecl c (Frame.covers_self _ _ _)⟩
  | interfaceDecl i =>
    exact .of_meets fun env p =>
      ⟨_, i.uses env p, .normal, meets_interfaceDecl i (Frame.covers_self _ _ _)⟩

theorem balances_package (package : Option Package) : Balances (Check.package package) := by
  intro env before
  cases package with
  | some _ => exact .refl before
  | none => exact { Context.Balanced.refl before with diagnostics := List.prefix_append _ _ }

/-- **Every check leaves its context balanced**, on success and on failure:
expressions, what is assigned to, nodes of every kind, calls, chains,
instantiations with the body of an anonymous object, lambdas, blocks,
methods, fields, initializers, classes, interfaces and whole files. -/
theorem check_balances :
    (∀ s, Balances (statement s)) ∧
    (∀ isAssignment n, Balances (assignmentTarget isAssignment n)) ∧
    (∀ n, Balances (node n)) ∧
    (∀ c, Balances (functionCall c)) ∧
    (∀ token links, Balances (chain token links)) ∧
    (∀ i, Balances (instantiation i)) ∧
    (∀ base name body, Balances (optionBody base name body)) ∧
    (∀ parameters body, Balances (Checker.lambda parameters (lambdaBody body))) ∧
    (∀ s, Balances (Checker.condition s.token (statement s))) ∧
    (∀ b, Balances (block b)) ∧
    (∀ owner m, Balances (method owner m)) ∧
    (∀ owner f, Balances (field owner f)) ∧
    (∀ isStatic bs, Balances (initializers isStatic bs)) ∧
    (∀ owner ms, Balances (members owner ms)) ∧
    (∀ c, Balances (classDecl c)) ∧
    (∀ i, Balances (interfaceDecl i)) ∧
    (∀ file, Balances (Check.file file)) := by
  have all := Frame.covers_self
  have most (F : Completion) : F ≤ F := Completion.le_refl F
  refine ⟨fun s => .of_meets fun env p => ⟨_, s.uses env p, _, meets_statement s (most _) (all _ _ _)⟩,
    fun isAssignment n => .of_meets fun env p =>
      ⟨_, n.uses env p, _, meets_assignmentTarget isAssignment n (most _) (all _ _ _)⟩,
    fun n => .of_meets fun env p => ⟨_, n.uses env p, _, meets_node n (most _) (all _ _ _)⟩,
    fun c => .of_meets fun env p =>
      ⟨_, (Node.call c).uses env p, _, meets_functionCall c (most _) (all _ _ _)⟩,
    fun token links => .of_meets fun env p =>
      ⟨_, chainUses env p links, _, meets_chain token links (most _) (all _ _ _)⟩,
    fun i => .of_meets fun env p =>
      ⟨_, (Node.instantiation i).uses env p, _, meets_instantiation i (most _) (all _ _ _)⟩,
    fun base name body => .of_meets fun env p => ⟨_, objectUses env (p.visitingOption base) body,
      .normal, meets_optionBody base name body (all _ _ _)⟩,
    fun parameters body => .of_meets fun env p =>
      let ⟨_, hBody⟩ := exists_meets_lambdaBody body (all env body.bodies (body.uses env p))
      ⟨_, _, .normal, hBody.lambda⟩,
    fun s => .of_meets fun env p =>
      ⟨_, s.uses env p, _, (meets_statement s (most _) (all _ _ _)).condition⟩,
    fun b => .of_meets fun env p =>
      ⟨_, b.uses env p, .normal, (yields_block b (all _ _ _)).meets⟩,
    fun owner m => .of_meets fun env p =>
      ⟨_, m.uses env p, .normal, meets_method owner m (all _ _ _)⟩,
    fun owner f => .of_meets fun env p =>
      ⟨_, f.uses env p, .normal, meets_field owner f (all _ _ _)⟩,
    fun isStatic bs => .of_meets fun env p =>
      ⟨_, blocksUses env p bs, .normal, meets_initializers isStatic bs (all _ _ _)⟩,
    fun owner ms => .of_meets fun env p =>
      ⟨_, membersUses env p ms, .normal, meets_members owner ms (all _ _ _)⟩,
    fun c => .of_meets fun env p => ⟨_, c.uses env p, .normal, meets_classDecl c (all _ _ _)⟩,
    fun i => .of_meets fun env p => ⟨_, i.uses env p, .normal, meets_interfaceDecl i (all _ _ _)⟩,
    fun file => (balances_package file.package).bind fun _ => .forM balances_item file.items⟩

end Check
end Javascribe
