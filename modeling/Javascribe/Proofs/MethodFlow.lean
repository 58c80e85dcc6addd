/-
# Control flow of methods

The check of a method ends, and says two things about the paths through its
block. A method that has to give something is reported unless control is
taken to leave it, and statements are reported as unreachable where control
is taken to leave before them. Both are right wherever no switch that is
taken to leave the method goes on, be it by a `break` on some path of a case
or because its last block is empty; and they are right of every statement
only there.

Key definitions: `Checker.Completes`, `Checker.resultIn`.
Key theorem: `Check.method_flow`.
-/
import Javascribe.Proofs.CheckFrame

namespace Javascribe

open Javascribe.Tree

/-! ### Checks that never halt -/

namespace Checker

/-- A check that never halts. -/
def Completes {α : Type} (m : Checker α) : Prop :=
  ∀ env before, ∃ a after, m env before = .ok a after

variable {α β : Type}

theorem bind_of_ok {m : Checker α} {f : α → Checker β} {env : Environment}
    {before after : Context} {a : α} (h : m env before = .ok a after) :
    (m >>= f) env before = f a env after := by
  change EStateM.bind (m env) (fun a => f a env) before = _
  rw [EStateM.bind, h]

@[grind ←]
theorem Completes.bind {m : Checker α} {f : α → Checker β} (hm : Completes m)
    (hf : ∀ a, Completes (f a)) : Completes (m >>= f) := by
  intro env before
  obtain ⟨a, between, h⟩ := hm env before
  rw [bind_of_ok h]
  exact hf a env between

@[grind ←]
theorem Completes.pure (a : α) : Completes (pure a : Checker α) := fun _ _ => ⟨_, _, rfl⟩

@[grind ←]
theorem Completes.report (token : Nat) (code : Code) (arguments : List String) :
    Completes (report token code arguments) := fun _ _ => ⟨_, _, rfl⟩

@[grind ←]
theorem Completes.check (condition : Bool) (token : Nat) (code : Code) (arguments : List String) :
    Completes (check condition token code arguments) := by
  unfold Checker.check
  grind

@[grind ←]
theorem Completes.localOf (name : String) (type : TypeRef) (isConstant : Bool) :
    Completes (localOf name type isConstant) := fun _ _ => ⟨_, _, rfl⟩

@[grind ←]
theorem Completes.declare (declared : Local) : Completes (declare declared) :=
  fun _ _ => ⟨_, _, rfl⟩

/-- A halt is reported instead. -/
@[grind ←]
theorem Completes.attempt (m : Checker α) : Completes (attempt m) := by
  intro env before
  have hRecover : ∃ a after, recover m env before = .ok a after := by
    rw [recover]
    cases m env before <;> exact ⟨_, _, rfl⟩
  obtain ⟨a, after, h⟩ := hRecover
  rw [Checker.attempt, discard_eq, bind_of_ok h]
  exact ⟨_, _, rfl⟩

@[grind ←]
theorem Completes.bracket {enter : Context → Context} {leave : Context → Context → Context}
    {m : Checker α} (h : Completes m) : Completes (bracket enter leave m) := by
  intro env before
  obtain ⟨a, after, hm⟩ := h env (enter before)
  rw [Checker.bracket, hm]
  exact ⟨_, _, rfl⟩

theorem Completes.forM {xs : List α} {f : α → Checker PUnit} (hf : ∀ x, Completes (f x)) :
    Completes (xs.forM f) := by
  induction xs with
  | nil => exact .pure _
  | cons x xs ih => exact (hf x).bind fun _ => ih

theorem Completes.mapM {xs : List α} {f : α → Checker β} (hf : ∀ x, Completes (f x)) :
    Completes (xs.mapM f) := by
  induction xs with
  | nil => exact .pure _
  | cons x xs ih =>
    rw [List.mapM_cons]
    exact (hf x).bind fun y => ih.bind fun ys => .pure (y :: ys)

theorem completes_standalone (s : Statement) (value : Checker Constraint) :
    Completes (standalone s value) := by
  refine Completes.bind (fun env before => ?_) fun _ => .attempt _
  rw [checkReachable_eq]
  split <;> exact ⟨_, _, rfl⟩

@[grind ←]
theorem completes_checkHeader (owner : Owner) (method : Method) :
    Completes (checkHeader owner method) := by
  unfold checkHeader
  grind

@[grind ←]
theorem completes_checkConstructorReturns (block : Block) :
    Completes (checkConstructorReturns block) :=
  .forM fun s => by grind

@[grind ←]
theorem completes_parameter (declared : Variable) : Completes (parameter declared) := by
  unfold parameter
  grind

end Checker

namespace Check

open Javascribe.Checker

theorem completes_lines (ss : List Statement) : Completes (lines ss) := by
  induction ss with
  | nil => exact .pure _
  | cons s ss ih =>
    rw [lines]
    split
    · exact ih
    · exact (completes_standalone s _).bind fun _ => ih

theorem completes_block (b : Block) : Completes (block b) := by
  obtain ⟨ss, token⟩ := b
  exact .bracket (.bracket ((completes_lines ss).bind fun _ => fun _ _ => ⟨_, _, rfl⟩))

end Check

/-! ### The result of a method -/

namespace Checker

/-- What a method has to give, where it is declared. -/
def resultIn (env : Environment) (context : Context) (method : Method) : Constraint :=
  match method.type with
  | some type =>
    if method.isConstructor then Native.void
    else
      env.dictionary.resolve (env.space.constraint context.enclosing
        (context.generics ++ method.typeParameters.map TypeRef.name) type)
  | none => Native.void

theorem resultType_eq (env : Environment) (context : Context) (method : Method) :
    resultType method env
        { context with generics := context.generics ++ method.typeParameters.map TypeRef.name } =
      .ok (resultIn env context method)
        { context with generics := context.generics ++ method.typeParameters.map TypeRef.name } := by
  rw [resultType, resultIn]
  cases method.type with
  | none => rfl
  | some type => cases method.isConstructor <;> rfl

/-- What is checked of a method once its result is known. -/
def methodRest (method : Method) (block : Block) (body : Checker Completion)
    (result : Constraint) : Checker (Constraint × Completion) := do
  if method.isConstructor then checkConstructorReturns block
  let parameters ← method.parameters.mapM parameter
  let completion ← withFlags (fun _ => methodFlags method) <| expecting result <| withScope do
    parameters.forM declare
    body
  return (result, completion)

theorem methodBody_eq (owner : Owner) (method : Method) (block : Block)
    (body : Checker Completion) :
    methodBody owner method block body = (do
      let (result, completion) ← withGenerics (method.typeParameters.map TypeRef.name) do
        methodRest method block body (← resultType method)
      unless result.isSimple .void || completion.leavesMethod do
        report method.token .methodMustReturnValue
          [s!"{owner.name}.{method.name}", ← typeName result]) := rfl

/-- The rest of a method's check gives its result, and how control leaves the block. -/
theorem yields_methodRest {f : Frame} {p : Place} {G c : Completion} {body : Checker Completion}
    (h : Yields f p G (· ≤ c) body) (method : Method) (block : Block) (result : Constraint) :
    Yields f p .normal (fun r => r.1 = result ∧ r.2 ≤ c) (methodRest method block body result) := by
  have hRun : Yields f p .normal (fun r => r.1 = result ∧ r.2 ≤ c) (do
      let locals ← method.parameters.mapM parameter
      let completion ← withFlags (fun _ => methodFlags method) <| expecting result <| withScope do
        locals.forM declare
        body
      return (result, completion)) := by
    refine Yields.bind (Plain.mapM plain_parameter).meets fun locals _ => ?_
    have hBody : Yields f p G (· ≤ c) (do locals.forM declare; body) :=
      Yields.bind (Plain.forM Plain.declare).meets fun _ _ => h
    exact hBody.withScope.expecting.withFlags.bind fun _ hLe => .pure ⟨rfl, hLe⟩
  unfold methodRest
  split
  · exact Yields.bind (plain_checkConstructorReturns block).meets fun _ _ => hRun
  · exact hRun

theorem completes_methodRest {body : Checker Completion} (h : Completes body) (method : Method)
    (block : Block) (result : Constraint) : Completes (methodRest method block body result) := by
  have hRun (locals : List Local) : Completes
      (withFlags (fun _ => methodFlags method) <| expecting result <| withScope do
        locals.forM declare
        body) :=
    .bracket (.bracket (.bracket ((Completes.forM .declare).bind fun _ => h)))
  have hParameters : Completes (method.parameters.mapM parameter) := .mapM completes_parameter
  have hRest := hParameters.bind fun locals =>
    (hRun locals).bind fun completion => Completes.pure (result, completion)
  unfold methodRest
  split
  · exact (completes_checkConstructorReturns block).bind fun _ => hRest
  · exact hRest

/-- A method with a block is checked to the end. When nothing is reported, it
gives nothing or control is taken to leave it. -/
theorem methodBody_runs {G c : Completion} {body : Checker Completion}
    (hYields : ∀ env p, ∃ C U, Yields ⟨env, C, U⟩ p G (· ≤ c) body) (hCompletes : Completes body)
    (owner : Owner) (method : Method) (block : Block) (env : Environment) (before : Context) :
    ∃ after, methodBody owner method block body env before = .ok () after ∧
      before.diagnostics <+: after.diagnostics ∧
      (after.diagnostics = before.diagnostics →
        (resultIn env before method).isSimple .void = false → c.leavesMethod = true) := by
  let result := resultIn env before method
  let entered : Context :=
    { before with generics := before.generics ++ method.typeParameters.map TypeRef.name }
  obtain ⟨⟨given, completion⟩, inner, hInner⟩ :=
    completes_methodRest hCompletes method block result env entered
  obtain ⟨C, U, hYields⟩ := hYields env entered.place
  have hRest := yields_methodRest hYields method block result entered rfl
  simp only [hInner] at hRest
  obtain ⟨hGrows, -, hResult, hCompletion⟩ := hRest
  obtain ⟨halts, hHalts, -⟩ := hGrows.diagnostics
  let left : Context := { inner with generics := inner.generics.take before.generics.length }
  have hLeft : (withGenerics (method.typeParameters.map TypeRef.name) do
      methodRest method block body (← resultType method)) env before =
        .ok (given, completion) left := by
    rw [withGenerics, bracket, bind_of_ok (resultType_eq env before method), hInner]
  rw [methodBody_eq, bind_of_ok hLeft]
  simp only at hResult hCompletion ⊢
  subst hResult
  by_cases hGives : result.isSimple .void || completion.leavesMethod
  · rw [if_pos hGives]
    refine ⟨left, rfl, ⟨_, hHalts.symm⟩, fun _ hVoid => hCompletion.2 ?_⟩
    simpa [result, hVoid] using hGives
  · rw [if_neg hGives]
    refine ⟨_, rfl, List.IsPrefix.trans ⟨_, hHalts.symm⟩ (List.prefix_append _ _), fun hNone => ?_⟩
    -- the report stands behind all that was reported before
    have hLength : (inner.diagnostics ++ [_]).length = before.diagnostics.length :=
      congrArg List.length hNone
    rw [hHalts] at hLength
    simp only [List.length_append, List.length_singleton, entered] at hLength
    omega

end Checker

/-! ### Paths through a method -/

/-- A problem with the number of unreachable code is one. -/
theorem Code.eq_unreachableCode {code : Code} (h : code.number = Code.unreachableCode.number) :
    code = .unreachableCode := by
  cases code <;> first | rfl | exact absurd h (by decide)

namespace Check

open Javascribe.Checker

/-- The check of a method with a block is that of its header and its block. -/
theorem method_of_block {owner : Owner} {m : Method} {b : Block} (h : m.block = some b) :
    method owner m = (do checkHeader owner m; methodBody owner m b (block b)) := by
  obtain ⟨_, _, _, _, _, _, body, _, _, _⟩ := m
  cases h
  rfl

theorem yields_anyBlock (b : Block) (env : Environment) (p : Place) :
    ∃ C U, Yields ⟨env, C, U⟩ p .normal (· ≤ b.completion) (block b) :=
  ⟨_, b.uses env p, yields_block b (Frame.covers_self _ _ _)⟩

theorem completes_method (owner : Owner) (m : Method) : Completes (method owner m) := by
  cases hBlock : m.block with
  | none =>
    obtain ⟨_, _, _, _, _, _, body, _, _, _⟩ := m
    cases hBlock
    exact (completes_checkHeader owner _).bind fun _ => .pure _
  | some b =>
    rw [method_of_block hBlock]
    refine (completes_checkHeader owner m).bind fun _ env before => ?_
    obtain ⟨after, hRun, -⟩ :=
      methodBody_runs (yields_anyBlock b) (completes_block b) owner m b env before
    exact ⟨(), after, hRun⟩

theorem resultIn_of_grows {f : Frame} {env : Environment} {before after : Context}
    (h : before.Grows f after) (m : Method) : resultIn env after m = resultIn env before m := by
  rw [resultIn, resultIn, h.enclosing, h.generics]

/-- A method for which nothing is reported gives nothing, or control is taken to leave it. -/
theorem leavesMethod_of_silent {owner : Owner} {m : Method} {b : Block} (hBlock : m.block = some b)
    {env : Environment} {before after : Context} (hRun : method owner m env before = .ok () after)
    (hSilent : after.diagnostics = before.diagnostics)
    (hResult : (resultIn env before m).isSimple .void = false) :
    b.completion.leavesMethod = true := by
  obtain ⟨_, between, hHeader⟩ := completes_checkHeader owner m env before
  have hFirst := (plain_checkHeader owner m).meets (f := ⟨env, [], []⟩) (F := .normal) before rfl
  simp only [hHeader] at hFirst
  obtain ⟨halts, hHalts, -⟩ := hFirst.1.diagnostics
  obtain ⟨_, hBody, hPrefix, hLeaves⟩ :=
    methodBody_runs (yields_anyBlock b) (completes_block b) owner m b env between
  rw [method_of_block hBlock, bind_of_ok hHeader, hBody] at hRun
  cases hRun
  refine hLeaves ?_ (by rwa [resultIn_of_grows hFirst.1])
  -- what is reported only grows, so nothing was reported in between
  have hSame : between.diagnostics = before.diagnostics := by
    rw [hSilent] at hPrefix
    exact hPrefix.eq_of_length_le (hHalts ▸ (List.prefix_append _ _).length_le)
  rw [hSilent, hSame]

/-- A path through faithful code does not run to the end of statements that
are taken to leave. -/
theorem not_runs_of_leavesBlock {b : Block} (hFaithful : AllFaithful b.bodies)
    {preceding following : List Statement} (hBody : preceding ++ following ∈ b.bodies)
    (hLeaves : (linesCompletion preceding).leavesBlock = true) :
    ¬ Runs (.lines preceding) .normal := by
  intro hRuns
  have hLines : AllFaithful (preceding :: linesBodies preceding) := by
    intro ss hss
    rcases List.mem_cons.mp hss with rfl | hss
    · exact fun s hs => hFaithful _ hBody s (List.mem_append_left _ hs)
    · refine hFaithful ss (b.closed_bodies _ hBody ?_)
      rw [linesBodies_append]
      exact List.mem_append_left _ hss
  have hGoesOn : (linesCompletion preceding).leavesBlock = false := hRuns.goesOn hLines rfl
  rw [hGoesOn] at hLeaves
  cases hLeaves

/-- **Control flow of methods.** The check of a method ends. In structured
code it is right about each statement just where no switch that it takes to
leave goes on; and there, a method that gives a value and for which nothing
is reported is never left at its end, and no path reaches a statement that is
reported as unreachable. -/
theorem method_flow (owner : Owner) (m : Method) (b : Block) (hBlock : m.block = some b)
    (hStructured : ∀ ss ∈ b.bodies, ∀ s ∈ ss, s.Structured) (env : Environment)
    (before : Context) :
    ((∀ ss ∈ b.bodies, ∀ s ∈ ss,
        s.completion.leavesBlock = true → ¬ Runs (.statement s) .normal) ↔
      ∀ ss ∈ b.bodies, ∀ s ∈ ss, s.SwitchNeverEnds) ∧
    ∃ after new, method owner m env before = .ok () after ∧
      after.diagnostics = before.diagnostics ++ new ∧
      ((∀ ss ∈ b.bodies, ∀ s ∈ ss, s.SwitchNeverEnds) →
        (new = [] → (resultIn env before m).isSimple .void = false →
          ¬ Runs (.lines b.statements) .normal) ∧
        ∀ d ∈ new, d.code = Code.unreachableCode.number →
          ∃ preceding s following, preceding ++ s :: following ∈ b.bodies ∧
            d = env.diagnostic ⟨s.token, .unreachableCode, []⟩ ∧
            ¬ Runs (.lines preceding) .normal) := by
  refine ⟨sound_iff_switchNeverEnds hStructured, ?_⟩
  have hBodies : m.bodies = b.bodies := by
    obtain ⟨_, _, _, _, _, _, body, _, _, _⟩ := m
    cases hBlock
    rfl
  obtain ⟨_, after, hRun⟩ := completes_method owner m env before
  have hGrows := meets_method (F := .normal) owner m
    (Frame.covers_self env _ (m.uses env before.place)) before rfl
  simp only [hRun, hBodies] at hGrows
  obtain ⟨halts, hHalts, hAt⟩ := hGrows.1.diagnostics
  refine ⟨after, halts.map env.diagnostic, hRun, hHalts, fun hSwitches => ?_⟩
  have hFaithful : AllFaithful b.bodies := fun ss hss s hs =>
    ⟨hStructured ss hss s hs, hSwitches ss hss s hs⟩
  constructor
  · intro hNone hResult
    have hLeaves := b.coherent_completion
      (leavesMethod_of_silent hBlock hRun (by rw [hHalts, hNone, List.append_nil]) hResult)
    rw [Block.completion_eq] at hLeaves
    have hBody : b.statements ++ [] ∈ b.bodies := by
      rw [List.append_nil, Block.bodies_eq]
      exact List.mem_cons_self
    exact not_runs_of_leavesBlock hFaithful hBody hLeaves
  · intro d hd hCode
    obtain ⟨halt, hHalt, rfl⟩ := List.mem_map.mp hd
    obtain ⟨preceding, s, following, hBody, hLeaves, hEq⟩ :=
      hAt halt hHalt (Code.eq_unreachableCode hCode)
    exact ⟨preceding, s, following, hBody, by rw [hEq],
      not_runs_of_leavesBlock hFaithful hBody hLeaves⟩

/-- `0` -/
def zero (token : Nat) : Statement := .ofNode (.literal ⟨.number, "0", [], token⟩) token

/-- `return 0;` or the like. -/
def leavingInstruction (kind : InstructionKind) (token : Nat) : Statement :=
  .ofNode (.instruction ⟨kind, some (zero token), token⟩) token

/-- `switch (0) { case 0: return 0; default: throw 0; }` -/
def leavingSwitch : Switch :=
  ⟨zero 3, [zero 5], [⟨[leavingInstruction .returns 7], 6⟩],
    some ⟨[leavingInstruction .throws 10], 9⟩, 2⟩

/-- The switch and then `rest`. -/
def leavingBlock (rest : List Statement) : Block := ⟨.ofNode (.switch leavingSwitch) 2 :: rest, 1⟩

theorem runs_leavingInstruction {kind : InstructionKind} {token : Nat} {o : Outcome}
    (h : Runs (.lines [leavingInstruction kind token]) o) : o = kind.outcome := by
  have hControl : (leavingInstruction kind token).control? =
      some (.instruction ⟨kind, some (zero token), token⟩) := rfl
  cases h with
  | cons hHead _ => cases kind <;> cases hHead.outcome_of_instruction hControl
  | exit hHead _ => exact hHead.outcome_of_instruction hControl

theorem neverEnds_leavingSwitch : leavingSwitch.NeverEnds := by
  constructor
  · intro b hb hBreaks
    rcases (List.mem_pair.mp hb : b = _ ∨ b = _) with rfl | rfl <;>
      cases runs_leavingInstruction hBreaks
  · rintro b ⟨⟩
    rfl

theorem switchNeverEnds_leavingBlock {rest : List Statement}
    (hRest : rest = [] ∨ rest = [leavingInstruction .returns 12]) :
    ∀ ss ∈ (leavingBlock rest).bodies, ∀ s ∈ ss, s.SwitchNeverEnds := by
  have hBodies : (leavingBlock rest).bodies = [.ofNode (.switch leavingSwitch) 2 :: rest,
      [leavingInstruction .returns 7], [leavingInstruction .throws 10]] := by
    rcases hRest with rfl | rfl <;> rfl
  intro ss hss s hs w hControl _
  have hKnown : s = .ofNode (.switch leavingSwitch) 2 ∨
      ∃ kind token, s = leavingInstruction kind token := by
    rw [hBodies] at hss
    grind
  rcases hKnown with rfl | ⟨kind, token, rfl⟩ <;> cases hControl
  exact neverEnds_leavingSwitch

/-- `int f() { switch (0) { case 0: return 0; default: throw 0; } rest }` -/
def leavingMethod (rest : List Statement) : Method :=
  ⟨{}, [], some (.named "int" 0), "f", [], [], some (leavingBlock rest), [], false, 0⟩

/-- For the method that does nothing but switch nothing is reported, and no path
runs to its end. With one more statement that is reported, and no path runs up
to it. -/
theorem method_flow_leavingMethod :
    let env : Environment := ⟨"A.java", .link [] 1 "", .empty, .new "A.java", [], false⟩
    let last := leavingInstruction .returns 12
    (∃ after, method ⟨"A", false, false⟩ (leavingMethod []) env {} = .ok () after ∧
      after.diagnostics = [] ∧ ¬ Runs (.lines (leavingBlock []).statements) .normal) ∧
    ∃ after, method ⟨"A", false, false⟩ (leavingMethod [last]) env {} = .ok () after ∧
      after.diagnostics = [env.diagnostic ⟨12, .unreachableCode, []⟩] ∧
      ∃ preceding s following, preceding ++ s :: following ∈ (leavingBlock [last]).bodies ∧
        env.diagnostic ⟨12, .unreachableCode, []⟩ = env.diagnostic ⟨s.token, .unreachableCode, []⟩ ∧
        ¬ Runs (.lines preceding) .normal := by
  intro env last
  have hExits : ∀ rest ∈ [[], [last]], ∀ ss ∈ (leavingBlock rest).bodies, ∀ s ∈ ss,
      s.hasExit = true := by decide
  have hStructured (rest : List Statement) (hRest : rest ∈ [[], [last]]) :
      ∀ ss ∈ (leavingBlock rest).bodies, ∀ s ∈ ss, s.Structured :=
    fun ss hss s hs _ => hExits rest hRest ss hss s hs
  constructor
  · obtain ⟨silent, hSilent, hNone⟩ : ∃ after, method ⟨"A", false, false⟩ (leavingMethod []) env {} =
        .ok () after ∧ after.diagnostics = [] := ⟨_, rfl, rfl⟩
    obtain ⟨-, after, new, hRun, hNew, hRest⟩ := method_flow ⟨"A", false, false⟩ (leavingMethod [])
      (leavingBlock []) rfl (hStructured _ List.mem_cons_self) env {}
    obtain rfl : after = silent := by cases hRun.symm.trans hSilent; rfl
    have hFlow := (hRest (switchNeverEnds_leavingBlock (.inl rfl))).1
    exact ⟨after, hRun, hNone, hFlow (hNew.symm.trans hNone) rfl⟩
  · obtain ⟨reported, hReported, hOne⟩ : ∃ after, method ⟨"A", false, false⟩ (leavingMethod [last])
        env {} = .ok () after ∧ after.diagnostics = [env.diagnostic ⟨12, .unreachableCode, []⟩] :=
      ⟨_, rfl, rfl⟩
    obtain ⟨-, after, new, hRun, hNew, hRest⟩ := method_flow ⟨"A", false, false⟩ (leavingMethod [last])
      (leavingBlock [last]) rfl (hStructured _ (List.mem_cons_of_mem _ List.mem_cons_self)) env {}
    obtain rfl : after = reported := by cases hRun.symm.trans hReported; rfl
    obtain rfl : new = [env.diagnostic ⟨12, .unreachableCode, []⟩] := hNew.symm.trans hOne
    have hFlow := (hRest (switchNeverEnds_leavingBlock (.inr rfl))).2
    exact ⟨after, hRun, hOne, hFlow _ List.mem_cons_self rfl⟩

end Check
end Javascribe
