/-
# Unreachable code is reported once in a block

A block looks, before each statement that is not empty, at whether control has
left it. The check of a statement, with all that is nested in it, never takes
back that control has left, and leaves the note that unreachable code has been
reported as it is. So up to the first statement behind which control has left
all are checked as if nobody looked, there the report is made, and from there
on nobody looks any more.

Key definitions: `Check.ownCheck`, `Check.announce`, `Check.Checks`,
`Check.Splits`.
Key theorem: `Check.unreachable_reported_once`.
-/
import Javascribe.Proofs.MethodFlow

namespace Javascribe

open Javascribe.Tree Javascribe.Checker

namespace Check

/-- The check of a statement of a block, whether control reaches it or not. -/
def ownCheck (s : Statement) : Checker Unit :=
  unless s.isEmpty do
    attempt do
      check s.isStandalone s.token .invalidExpression []
      statement s

/-- Whether control has left behind statements that are checked in a context. -/
def hasLeft (env : Environment) (context : Context) (ss : List Statement) : Bool :=
  match ss.forM ownCheck env context with
  | .ok _ next | .error _ next => next.flags.completion.leavesBlock

/-- What a block finds itself: control does not reach the first of the
statements that are left. -/
def unreached (others : List Statement) : List Halt :=
  others.head?.toList.map fun s => ⟨s.token, .unreachableCode, []⟩

/-- The context in which the statements that are left are checked. -/
def announce (env : Environment) (others : List Statement) (context : Context) : Context :=
  { context with
    diagnostics := context.diagnostics ++ (unreached others).map env.diagnostic
    flags := { context.flags with
      reportedUnreachable := !others.isEmpty || context.flags.reportedUnreachable } }

theorem announce_nil (env : Environment) (context : Context) : announce env [] context = context := by
  simp [announce, unreached]

variable {s : Statement} {ss : List Statement} {env : Environment} {context next : Context}

theorem meets_ownCheck {f : Frame} {p : Place} {F : Completion} (s : Statement)
    (leaves : s.completion ≤ F) (covers : f.Covers s.bodies (s.uses f.env p)) :
    Meets f p F (ownCheck s) := by
  have value := meets_statement s leaves covers
  unfold ownCheck
  grind

theorem meets_ownChecks {f : Frame} {p : Place} {F : Completion} : (ss : List Statement) →
    linesCompletion ss ≤ F → f.Covers (linesBodies ss) (linesUses f.env p ss) →
      Meets f p F (ss.forM ownCheck)
  | [], _, _ => .pure _
  | s :: ss, leaves, covers =>
    (meets_ownCheck s (Completion.either_le_iff.mp leaves).1 (Frame.covers_append.mp covers).1).bind
      fun _ => meets_ownChecks ss (Completion.either_le_iff.mp leaves).2
        (Frame.covers_append.mp covers).2

theorem completes_ownCheck (s : Statement) : Completes (ownCheck s) := by
  unfold ownCheck
  grind

/-- The check of a statement ends. What it notes in the flags is how control
leaves, and nothing else. -/
theorem runs_ownCheck (s : Statement) (env : Environment) (context : Context) :
    ∃ next, ownCheck s env context = .ok () next ∧
      next.flags.reportedUnreachable = context.flags.reportedUnreachable ∧
      (context.flags.completion.leavesBlock = true → next.flags.completion.leavesBlock = true) := by
  obtain ⟨⟨⟩, next, run⟩ := completes_ownCheck s env context
  have frame := meets_ownCheck s (Completion.le_refl _)
    (Frame.covers_self env s.bodies (s.uses env context.place)) context rfl
  rw [run] at frame
  obtain ⟨-, ⟨completion, -, flags⟩, -⟩ := frame
  refine ⟨next, run, ?_⟩
  rw [flags]
  exact ⟨rfl, (Completion.le_either_left _ completion).1⟩

/-- Statements are checked one after the other. What their checks find is
recorded, and what they find unreachable is in a body nested in a statement. -/
structure Checks (env : Environment) (before : Context) (ss : List Statement) (found : List Halt)
    (after : Context) : Prop where
  run : ss.forM ownCheck env before = .ok () after
  diagnostics : after.diagnostics = before.diagnostics ++ found.map env.diagnostic
  nested : ∀ halt ∈ found, UnreachableAt (linesBodies ss) halt

theorem exists_checks (env : Environment) (before : Context) (ss : List Statement) :
    ∃ found after, Checks env before ss found after := by
  have completes : Completes (ss.forM ownCheck) := .forM completes_ownCheck
  obtain ⟨⟨⟩, after, run⟩ := completes env before
  have frame := meets_ownChecks ss (Completion.le_refl _)
    (Frame.covers_self env (linesBodies ss) (linesUses env before.place ss)) before rfl
  rw [run] at frame
  obtain ⟨found, diagnostics, nested⟩ := frame.1.diagnostics
  exact ⟨found, after, run, diagnostics, nested⟩

theorem forM_cons (run : ownCheck s env context = .ok () next) (ss : List Statement) :
    (s :: ss).forM ownCheck env context = ss.forM ownCheck env next :=
  bind_of_ok run

/-- A statement that is empty or reached, or comes after the report, is just checked. -/
theorem lines_cons (quiet : s.isEmpty = true ∨ context.flags.completion.leavesBlock = false ∨
      context.flags.reportedUnreachable = true)
    (run : ownCheck s env context = .ok () next) (ss : List Statement) :
    lines (s :: ss) env context = lines ss env next := by
  rw [lines]
  by_cases empty : s.isEmpty = true
  · rw [ownCheck, if_pos empty] at run
    rw [if_pos empty]
    cases run
    rfl
  · rw [ownCheck, if_neg empty] at run
    have looks : checkReachable s.token env context = .ok () context := by
      rw [checkReachable_eq, if_neg]
      rcases quiet.resolve_left empty with quiet | quiet <;> simp [quiet]
    rw [if_neg empty]
    exact bind_of_ok ((bind_of_ok looks).trans run)

theorem lines_of_reported (reported : context.flags.reportedUnreachable = true) :
    lines ss env context = ss.forM ownCheck env context := by
  induction ss generalizing context with
  | nil =>
    rw [lines]
    rfl
  | cons s ss ih =>
    obtain ⟨next, run, kept, -⟩ := runs_ownCheck s env context
    rw [lines_cons (.inr (.inr reported)) run, forM_cons run, ih (kept.trans reported)]

/-- The first statement behind which control has left is reported. -/
theorem lines_of_left (nonempty : s.isEmpty = false)
    (left : context.flags.completion.leavesBlock = true)
    (unreported : context.flags.reportedUnreachable = false) :
    lines (s :: ss) env context =
      (s :: ss).forM ownCheck env (announce env (s :: ss) context) := by
  have looks : checkReachable s.token env context = .ok () (announce env (s :: ss) context) := by
    rw [checkReachable_eq, if_pos (by rw [left, unreported]; rfl)]
    rfl
  obtain ⟨next, run, kept, -⟩ := runs_ownCheck s env (announce env (s :: ss) context)
  rw [forM_cons run, ← lines_of_reported kept, lines, if_neg (Bool.eq_false_iff.mp nonempty)]
  rw [ownCheck, if_neg (Bool.eq_false_iff.mp nonempty)] at run
  exact bind_of_ok ((bind_of_ok looks).trans run)

/-- Control has not left before any of the statements that are reached, if it is
not empty, and has left before the first of the others. -/
structure Splits (env : Environment) (context : Context) (reached others : List Statement) :
    Prop where
  reaches : ∀ before s behind, reached = before ++ s :: behind → s.isEmpty = false →
    hasLeft env context before = false
  leaves : ∀ s ∈ others.head?, s.isEmpty = false ∧ hasLeft env context reached = true

theorem lines_split (ss : List Statement) (env : Environment) (context : Context)
    (unreported : context.flags.reportedUnreachable = false) :
    ∃ reached others middle, ss = reached ++ others ∧ Splits env context reached others ∧
      reached.forM ownCheck env context = .ok () middle ∧
      lines ss env context = others.forM ownCheck env (announce env others middle) := by
  induction ss generalizing context with
  | nil =>
    refine ⟨[], [], context, rfl, ⟨by simp, nofun⟩, rfl, ?_⟩
    rw [lines, announce_nil]
    rfl
  | cons s ss ih =>
    by_cases stops : s.isEmpty = false ∧ context.flags.completion.leavesBlock = true
    · refine ⟨[], s :: ss, context, rfl, ⟨by simp, ?_⟩, rfl,
        lines_of_left stops.1 stops.2 unreported⟩
      rintro _ ⟨⟩
      exact stops
    · have quiet : s.isEmpty = true ∨ context.flags.completion.leavesBlock = false := by
        simpa [Classical.or_iff_not_imp_left] using stops
      obtain ⟨next, run, kept, -⟩ := runs_ownCheck s env context
      obtain ⟨reached, others, middle, rfl, splits, reaches, runs⟩ := ih next (kept.trans unreported)
      have hasLeft_cons (ts : List Statement) :
          hasLeft env context (s :: ts) = hasLeft env next ts := by
        rw [hasLeft, hasLeft, forM_cons run]
      refine ⟨s :: reached, others, middle, rfl, ⟨fun before t behind same nonempty => ?_, ?_⟩,
        (forM_cons run reached).trans reaches, ?_⟩
      · cases before with
        | nil => exact quiet.resolve_left (by simp [(List.cons.inj same).1, nonempty])
        | cons _ before =>
          obtain ⟨rfl, tail⟩ := List.cons.inj same
          rw [hasLeft_cons]
          exact splits.reaches before t behind tail nonempty
      · rw [hasLeft_cons]
        exact splits.leaves
      · rw [lines_cons (quiet.imp_right .inl) run, runs]

/-- **Unreachable code is reported once in a block.** The check of a block ends.
What it records is what the checks of the statements find that control reaches,
then one report of unreachable code, then what the checks of the others find.
The report is at the first of the others: the first statement that is not empty
and behind one whose check has left control gone; there is none if there is no
such statement. What the checks of the statements themselves find unreachable is
in bodies nested in them, and has no part in it: they leave the note of the
report as it is, and so the one that control has left. -/
theorem unreachable_reported_once (b : Block) (env : Environment) (context : Context) :
    (∃ reached others first second middle last after,
      b.statements = reached ++ others ∧
      Splits env { context with flags := context.flags.enterBlock, scopes := context.scopes.enter }
        reached others ∧
      Checks env { context with flags := context.flags.enterBlock, scopes := context.scopes.enter }
        reached first middle ∧
      Checks env (announce env others middle) others second last ∧
      block b env context = .ok last.flags.completion after ∧
      after.diagnostics = context.diagnostics ++ first.map env.diagnostic ++
        others.head?.toList.map (fun s => env.diagnostic ⟨s.token, .unreachableCode, []⟩) ++
        second.map env.diagnostic) ∧
    ∀ s inside, ∃ next, ownCheck s env inside = .ok () next ∧
      next.flags.reportedUnreachable = inside.flags.reportedUnreachable ∧
      (inside.flags.completion.leavesBlock = true → next.flags.completion.leavesBlock = true) := by
  obtain ⟨ss, token⟩ := b
  refine ⟨?_, fun s inside => runs_ownCheck s env inside⟩
  obtain ⟨reached, others, middle, same, splits, reaches, runs⟩ := lines_split ss env
    { context with flags := context.flags.enterBlock, scopes := context.scopes.enter } rfl
  obtain ⟨first, middle', checked⟩ := exists_checks env
    { context with flags := context.flags.enterBlock, scopes := context.scopes.enter } reached
  obtain rfl : middle' = middle := by
    have ends := checked.run.symm.trans reaches
    injection ends
  obtain ⟨second, last, rest⟩ := exists_checks env (announce env others middle') others
  refine ⟨reached, others, first, second, middle', last,
    { last with scopes := last.scopes.exit, flags := context.flags },
    same, splits, checked, rest, ?_, ?_⟩
  · rw [block, inBlock_eq, runs, rest.run]
  · change last.diagnostics = _
    rw [rest.diagnostics, announce, checked.diagnostics]
    simp [unreached, Function.comp_def]

end Check
end Javascribe
