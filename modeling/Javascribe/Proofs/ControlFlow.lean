/-
# Paths through blocks

A path runs through the statements of a block. Which branch it takes, how
often a loop repeats, which case of a switch it enters and whether a guarded
block throws is left open. The blocks of a switch are run in the order of the
source, the default in its place, each into the next. A path ends normally,
by `break`, by `continue`, or by leaving the method (`Runs`). Expressions are
not looked into: they are evaluated and control goes on.

The check sums up how control leaves (`Statement.completion`): it takes a
statement to leave its block when a `return`, `throw`, `break` or `continue`
in it does, when all branches of a chain with an `else` do, when the guarded
block and all clauses do, and when all blocks of a switch with a default
leave the method. The last is wrong where a path through one of the blocks
ends by `break`, and where the last block is empty: then control goes on
behind the switch (`runs_switch`). Apart from these switches, and from
instructions inside expressions, the check is right: what it takes to leave
is never left normally (`Runs.goesOn`).

Key definitions: `Tree.Outcome`, `Tree.Stretch`, `Tree.Runs`,
`Tree.Statement.completion`, `Tree.Statement.bodies`, `Tree.Statement.Faithful`.
Key theorems: `Tree.runs_switch`, `Tree.sound_iff_switchNeverEnds`.
-/
import Javascribe.Checking.Flow
import Mathlib.Data.List.Basic

namespace Javascribe
namespace Tree

/-! ### Paths -/

/-- How a path ends. -/
inductive Outcome where
  | normal
  | breaks
  | continues
  | leaves
  deriving DecidableEq, Repr

/-- How a path ends at an instruction. -/
def InstructionKind.outcome : InstructionKind → Outcome
  | .returns | .throws => .leaves
  | .continues => .continues
  | .breaks => .breaks

/-- How a path ends that leaves a switch: a `break` goes no further. -/
def Outcome.behindSwitch : Outcome → Outcome
  | .breaks => .normal
  | outcome => outcome

/-- Whether a node says where control goes next. -/
def Node.isControl : Node → Bool
  | .instruction _ | .ifElse _ | .forLoop _ | .whileLoop _ | .doWhileLoop _ | .switch _
  | .tryCatch _ => true
  | _ => false

/-- What a statement is, when it says where control goes next. -/
def Statement.control? (s : Statement) : Option Node :=
  if s.operator.isNone then s.left.filter Node.isControl else none

/-- The blocks of a switch in the order of the source: the default stands
before the first block that starts behind it. -/
def Switch.sourceBlocks (w : Switch) : List Block :=
  match w.default with
  | none => w.blocks
  | some b => w.blocks.takeWhile (·.token < b.token) ++ b :: w.blocks.dropWhile (·.token < b.token)

/-- What a path can run through: statements, one statement, the rounds of a
loop, the blocks of a switch from one on, and what a `try` guards with its
clauses. -/
inductive Stretch where
  | lines (statements : List Statement)
  | statement (statement : Statement)
  | rounds (body : Block)
  | cases (blocks : List Block)
  | guarded (tryCatch : TryCatch)

/-- A path through a piece of code ends in a way. -/
inductive Runs : Stretch → Outcome → Prop
  | nil : Runs (.lines []) .normal
  | cons {s : Statement} {ss : List Statement} {o : Outcome} :
      Runs (.statement s) .normal → Runs (.lines ss) o → Runs (.lines (s :: ss)) o
  | exit {s : Statement} {ss : List Statement} {o : Outcome} :
      Runs (.statement s) o → o ≠ .normal → Runs (.lines (s :: ss)) o
  | plain {s : Statement} : s.control? = none → Runs (.statement s) .normal
  | instruction {s : Statement} {i : Instruction} :
      s.control? = some (.instruction i) → Runs (.statement s) i.kind.outcome
  | branch {s : Statement} {i : IfElse} {b : Block} {o : Outcome} :
      s.control? = some (.ifElse i) → b ∈ i.blocks → Runs (.lines b.statements) o →
      Runs (.statement s) o
  | noBranch {s : Statement} {i : IfElse} :
      s.control? = some (.ifElse i) → i.blocks.length ≤ i.conditions.length →
      Runs (.statement s) .normal
  | forLoop {s : Statement} {l : ForLoop} {o : Outcome} :
      s.control? = some (.forLoop l) → Runs (.rounds l.block) o → Runs (.statement s) o
  | whileLoop {s : Statement} {l : WhileLoop} {o : Outcome} :
      s.control? = some (.whileLoop l) → Runs (.rounds l.block) o → Runs (.statement s) o
  | doWhileLoop {s : Statement} {l : DoWhileLoop} {o o' : Outcome} :
      s.control? = some (.doWhileLoop l) → Runs (.lines l.block.statements) o →
      o = .normal ∨ o = .continues → Runs (.rounds l.block) o' → Runs (.statement s) o'
  | doWhileBreak {s : Statement} {l : DoWhileLoop} :
      s.control? = some (.doWhileLoop l) → Runs (.lines l.block.statements) .breaks →
      Runs (.statement s) .normal
  | doWhileLeave {s : Statement} {l : DoWhileLoop} :
      s.control? = some (.doWhileLoop l) → Runs (.lines l.block.statements) .leaves →
      Runs (.statement s) .leaves
  | noRound {b : Block} : Runs (.rounds b) .normal
  | round {b : Block} {o o' : Outcome} :
      Runs (.lines b.statements) o → o = .normal ∨ o = .continues → Runs (.rounds b) o' →
      Runs (.rounds b) o'
  | roundBreak {b : Block} : Runs (.lines b.statements) .breaks → Runs (.rounds b) .normal
  | roundLeave {b : Block} : Runs (.lines b.statements) .leaves → Runs (.rounds b) .leaves
  | switch {s : Statement} {w : Switch} {before after : List Block} {b : Block} {o : Outcome} :
      s.control? = some (.switch w) → w.sourceBlocks = before ++ b :: after →
      Runs (.cases (b :: after)) o → Runs (.statement s) o.behindSwitch
  | noCase {s : Statement} {w : Switch} :
      s.control? = some (.switch w) → w.default = none → Runs (.statement s) .normal
  | casesEnd : Runs (.cases []) .normal
  | casesFall {b : Block} {bs : List Block} {o : Outcome} :
      Runs (.lines b.statements) .normal → Runs (.cases bs) o → Runs (.cases (b :: bs)) o
  | casesExit {b : Block} {bs : List Block} {o : Outcome} :
      Runs (.lines b.statements) o → o ≠ .normal → Runs (.cases (b :: bs)) o
  | tryCatch {s : Statement} {t : TryCatch} {o : Outcome} :
      s.control? = some (.tryCatch t) → t.finallyBlock = none → Runs (.guarded t) o →
      Runs (.statement s) o
  | tryFinally {s : Statement} {t : TryCatch} {b : Block} {o : Outcome} :
      s.control? = some (.tryCatch t) → t.finallyBlock = some b → Runs (.guarded t) o →
      Runs (.lines b.statements) .normal → Runs (.statement s) o
  | finallyExit {s : Statement} {t : TryCatch} {b : Block} {o : Outcome} :
      s.control? = some (.tryCatch t) → t.finallyBlock = some b →
      Runs (.lines b.statements) o → o ≠ .normal → Runs (.statement s) o
  | guarded {t : TryCatch} {o : Outcome} : Runs (.lines t.block.statements) o → Runs (.guarded t) o
  | caught {t : TryCatch} {b : Block} {o : Outcome} :
      b ∈ t.catchBlocks → Runs (.lines b.statements) o → Runs (.guarded t) o
  | uncaught {t : TryCatch} : Runs (.guarded t) .leaves

/-! ### What the check takes to leave -/

mutual

/-- How the check takes control to leave by a statement: by anything in it. -/
def Statement.completion : Statement → Completion
  | ⟨left, none, _, _, _, _, _⟩ => leftCompletion left
  | ⟨left, some _, right, _, _, _, _⟩ => (leftCompletion left).either (optionCompletion right)

/-- How control is taken to leave by a left side. -/
def leftCompletion : Option Node → Completion
  | none => .normal
  | some n => n.completion

/-- How control is taken to leave by a statement that may be absent. -/
def optionCompletion : Option Statement → Completion
  | none => .normal
  | some s => s.completion

/-- How control is taken to leave by some of the statements. -/
def linesCompletion : List Statement → Completion
  | [] => .normal
  | s :: ss => s.completion.either (linesCompletion ss)

/-- How control is taken to leave by a block. -/
def Block.completion : Block → Completion
  | ⟨ss, _⟩ => linesCompletion ss

/-- How control is taken to leave by each of the blocks. -/
def blocksCompletion : List Block → Completion
  | [] => .method
  | b :: bs => b.completion.both (blocksCompletion bs)

/-- How control is taken to leave by a block that may be absent. -/
def optionBlockCompletion : Option Block → Completion
  | none => .normal
  | some b => b.completion

/-- Whether the method is taken to be left by each of the blocks with statements. -/
def casesLeave : List Block → Bool
  | [] => true
  | b :: bs => (b.isEmpty || b.completion.leavesMethod) && casesLeave bs

/-- How control is taken to leave by a node. -/
def Node.completion : Node → Completion
  | .statement s => s.completion
  | .instruction ⟨kind, value, _⟩ => (Checker.leaving kind).either (optionCompletion value)
  | .assertion ⟨test, message, _⟩ => test.completion.either (optionCompletion message)
  | .literal l => l.completion
  | .call ⟨_, _, arguments, _⟩ => linesCompletion arguments
  | .instantiation ⟨_, arguments, size, literal, _, _⟩ =>
    ((linesCompletion arguments).either (optionCompletion size)).either
      (literalCompletion literal)
  | .ifElse ⟨tests, branches, _⟩ =>
    (linesCompletion tests).either
      (if tests.length < branches.length then blocksCompletion branches else .normal)
  | .forLoop ⟨initialization, test, increment, iterable, _, _, _⟩ =>
    ((optionCompletion initialization).either (optionCompletion test)).either
      ((optionCompletion increment).either (optionCompletion iterable))
  | .whileLoop ⟨test, _, _⟩ => test.completion
  | .doWhileLoop ⟨_, test, _⟩ => test.completion
  | .switch ⟨value, cases, bodies, default, _⟩ =>
    (value.completion.either (linesCompletion cases)).either
      (if casesLeave bodies && (optionBlockCompletion default).leavesMethod then .method
        else .normal)
  | .tryCatch ⟨body, _, _, clauses, finallyBlock, _⟩ =>
    (body.completion.both (blocksCompletion clauses)).either (optionBlockCompletion finallyBlock)
  | .chain ⟨properties, _⟩ => linksCompletion properties
  | .ternary ⟨test, left, right, _⟩ =>
    test.completion.either (left.completion.either right.completion)
  | .lambda _ | .reference _ | .classDecl _ | .declaration _ => .normal

/-- How control is taken to leave by the elements of an array. -/
def Literal.completion : Literal → Completion
  | ⟨_, _, items, _⟩ => linesCompletion items

/-- How control is taken to leave by a literal that may be absent. -/
def literalCompletion : Option Literal → Completion
  | none => .normal
  | some l => l.completion

/-- How control is taken to leave by the links of a chain. -/
def linksCompletion : List Property → Completion
  | [] => .normal
  | .reference _ :: ps => linksCompletion ps
  | .call ⟨_, _, arguments, _⟩ :: ps => (linesCompletion arguments).either (linksCompletion ps)
  | .type _ :: ps => linksCompletion ps
  | .index s :: ps => s.completion.either (linksCompletion ps)
  | .head n :: ps => n.completion.either (linksCompletion ps)

end

/-! ### The blocks of a construct -/

mutual

/-- The statements of each block that is checked as a part of a statement, at any depth. -/
def Statement.bodies : Statement → List (List Statement)
  | ⟨left, none, _, _, _, _, _⟩ => leftBodies left
  | ⟨left, some _, right, _, _, _, _⟩ => leftBodies left ++ optionBodies right

/-- The blocks of a left side. -/
def leftBodies : Option Node → List (List Statement)
  | none => []
  | some n => n.bodies

/-- The blocks of a statement that may be absent. -/
def optionBodies : Option Statement → List (List Statement)
  | none => []
  | some s => s.bodies

/-- The blocks inside of statements. -/
def linesBodies : List Statement → List (List Statement)
  | [] => []
  | s :: ss => s.bodies ++ linesBodies ss

/-- A block and the blocks inside of it. -/
def Block.bodies : Block → List (List Statement)
  | ⟨ss, _⟩ => ss :: linesBodies ss

/-- Blocks and the blocks inside of them. -/
def blocksBodies : List Block → List (List Statement)
  | [] => []
  | b :: bs => b.bodies ++ blocksBodies bs

/-- A block that may be absent. -/
def optionBlockBodies : Option Block → List (List Statement)
  | none => []
  | some b => b.bodies

/-- The blocks of a node. A class declared in a block is not checked. -/
def Node.bodies : Node → List (List Statement)
  | .statement s => s.bodies
  | .instruction ⟨_, value, _⟩ => optionBodies value
  | .assertion ⟨test, message, _⟩ => test.bodies ++ optionBodies message
  | .literal l => l.bodies
  | .lambda ⟨_, body, _⟩ => body.bodies
  | .call ⟨_, _, arguments, _⟩ => linesBodies arguments
  | .instantiation ⟨_, arguments, size, literal, body, _⟩ =>
    linesBodies arguments ++ optionBodies size ++ literalBodies literal ++ objectBodies body
  | .ifElse ⟨tests, branches, _⟩ => linesBodies tests ++ blocksBodies branches
  | .forLoop ⟨initialization, test, increment, iterable, _, body, _⟩ =>
    optionBodies initialization ++ optionBodies test ++ optionBodies increment ++
      optionBodies iterable ++ body.bodies
  | .whileLoop ⟨test, body, _⟩ => test.bodies ++ body.bodies
  | .doWhileLoop ⟨body, test, _⟩ => body.bodies ++ test.bodies
  | .switch ⟨value, cases, bodies, default, _⟩ =>
    value.bodies ++ linesBodies cases ++ blocksBodies bodies ++ optionBlockBodies default
  | .tryCatch ⟨body, _, _, clauses, finallyBlock, _⟩ =>
    body.bodies ++ blocksBodies clauses ++ optionBlockBodies finallyBlock
  | .chain ⟨properties, _⟩ => linksBodies properties
  | .ternary ⟨test, left, right, _⟩ => test.bodies ++ left.bodies ++ right.bodies
  | .reference _ | .classDecl _ | .declaration _ => []

/-- The blocks of a literal. -/
def Literal.bodies : Literal → List (List Statement)
  | ⟨_, _, items, _⟩ => linesBodies items

/-- The blocks of a literal that may be absent. -/
def literalBodies : Option Literal → List (List Statement)
  | none => []
  | some l => l.bodies

/-- The blocks of the body of a lambda. -/
def LambdaBody.bodies : LambdaBody → List (List Statement)
  | .block b => b.bodies
  | .statement s => s.bodies

/-- The blocks of the links of a chain. -/
def linksBodies : List Property → List (List Statement)
  | [] => []
  | p :: ps => p.bodies ++ linksBodies ps

/-- The blocks of a link. -/
def Property.bodies : Property → List (List Statement)
  | .reference _ | .type _ => []
  | .call ⟨_, _, arguments, _⟩ => linesBodies arguments
  | .index s => s.bodies
  | .head n => n.bodies

/-- The blocks of an anonymous object. -/
def objectBodies : Option ObjectBody → List (List Statement)
  | none => []
  | some ⟨_, ms, initializers, _⟩ => membersBodies ms ++ blocksBodies initializers

/-- The blocks of members. -/
def membersBodies : List Member → List (List Statement)
  | [] => []
  | m :: ms => m.bodies ++ membersBodies ms

/-- The blocks of a member. -/
def Member.bodies : Member → List (List Statement)
  | .field f => f.bodies
  | .method m => m.bodies
  | .classDecl c => c.bodies
  | .interfaceDecl i => i.bodies

/-- The blocks of methods. -/
def methodsBodies : List Method → List (List Statement)
  | [] => []
  | m :: ms => m.bodies ++ methodsBodies ms

/-- The blocks of a method. -/
def Method.bodies : Method → List (List Statement)
  | ⟨_, _, _, _, _, _, body, _, _, _⟩ => optionBlockBodies body

/-- The blocks of a field. -/
def Field.bodies : Field → List (List Statement)
  | ⟨_, _, _, value, _, _⟩ => optionBodies value

/-- The blocks of a class. -/
def ClassDecl.bodies : ClassDecl → List (List Statement)
  | ⟨_, _, _, _, _, constructors, ms, instanceInitializers, staticInitializers, _, _, _⟩ =>
    methodsBodies constructors ++ membersBodies ms ++ blocksBodies instanceInitializers ++
      blocksBodies staticInitializers

/-- The blocks of an interface. -/
def InterfaceDecl.bodies : InterfaceDecl → List (List Statement)
  | ⟨_, _, _, _, ms, _, _⟩ => membersBodies ms

end

/-! ### Blocks inside of blocks -/

/-- With each body, the bodies inside of it. -/
def Closed (bodies : List (List Statement)) : Prop := ∀ ss ∈ bodies, linesBodies ss ⊆ bodies

theorem Closed.nil : Closed [] := nofun

theorem Closed.append {C D : List (List Statement)} (hC : Closed C) (hD : Closed D) :
    Closed (C ++ D) := by
  intro ss hss
  rcases List.mem_append.mp hss with hss | hss
  · exact List.Subset.trans (hC ss hss) (List.subset_append_left C D)
  · exact List.Subset.trans (hD ss hss) (List.subset_append_right C D)

theorem Closed.cons {ss : List Statement} (h : Closed (linesBodies ss)) :
    Closed (ss :: linesBodies ss) := by
  intro ts hts
  rcases List.mem_cons.mp hts with rfl | hts
  · exact List.subset_cons_self _ _
  · exact List.Subset.trans (h ts hts) (List.subset_cons_self _ _)

mutual

theorem Statement.closed_bodies : (s : Statement) → Closed s.bodies
  | ⟨left, none, _, _, _, _, _⟩ => closed_leftBodies left
  | ⟨left, some _, right, _, _, _, _⟩ =>
    (closed_leftBodies left).append (closed_optionBodies right)

theorem closed_leftBodies : (left : Option Node) → Closed (leftBodies left)
  | none => .nil
  | some n => n.closed_bodies

theorem closed_optionBodies : (s : Option Statement) → Closed (optionBodies s)
  | none => .nil
  | some s => s.closed_bodies

theorem closed_linesBodies : (ss : List Statement) → Closed (linesBodies ss)
  | [] => .nil
  | s :: ss => s.closed_bodies.append (closed_linesBodies ss)

theorem Block.closed_bodies : (b : Block) → Closed b.bodies
  | ⟨ss, _⟩ => (closed_linesBodies ss).cons

theorem closed_blocksBodies : (bs : List Block) → Closed (blocksBodies bs)
  | [] => .nil
  | b :: bs => b.closed_bodies.append (closed_blocksBodies bs)

theorem closed_optionBlockBodies : (b : Option Block) → Closed (optionBlockBodies b)
  | none => .nil
  | some b => b.closed_bodies

theorem Node.closed_bodies : (n : Node) → Closed n.bodies
  | .statement s => s.closed_bodies
  | .instruction ⟨_, value, _⟩ => closed_optionBodies value
  | .assertion ⟨test, message, _⟩ => test.closed_bodies.append (closed_optionBodies message)
  | .literal l => l.closed_bodies
  | .lambda ⟨_, body, _⟩ => body.closed_bodies
  | .call ⟨_, _, arguments, _⟩ => closed_linesBodies arguments
  | .instantiation ⟨_, arguments, size, literal, body, _⟩ =>
    (((closed_linesBodies arguments).append (closed_optionBodies size)).append
      (closed_literalBodies literal)).append (closed_objectBodies body)
  | .ifElse ⟨tests, branches, _⟩ => (closed_linesBodies tests).append (closed_blocksBodies branches)
  | .forLoop ⟨initialization, test, increment, iterable, _, body, _⟩ =>
    ((((closed_optionBodies initialization).append (closed_optionBodies test)).append
      (closed_optionBodies increment)).append (closed_optionBodies iterable)).append
      body.closed_bodies
  | .whileLoop ⟨test, body, _⟩ => test.closed_bodies.append body.closed_bodies
  | .doWhileLoop ⟨body, test, _⟩ => body.closed_bodies.append test.closed_bodies
  | .switch ⟨value, cases, bodies, default, _⟩ =>
    ((value.closed_bodies.append (closed_linesBodies cases)).append
      (closed_blocksBodies bodies)).append (closed_optionBlockBodies default)
  | .tryCatch ⟨body, _, _, clauses, finallyBlock, _⟩ =>
    (body.closed_bodies.append (closed_blocksBodies clauses)).append
      (closed_optionBlockBodies finallyBlock)
  | .chain ⟨properties, _⟩ => closed_linksBodies properties
  | .ternary ⟨test, left, right, _⟩ =>
    (test.closed_bodies.append left.closed_bodies).append right.closed_bodies
  | .reference _ | .classDecl _ | .declaration _ => .nil

theorem Literal.closed_bodies : (l : Literal) → Closed l.bodies
  | ⟨_, _, items, _⟩ => closed_linesBodies items

theorem closed_literalBodies : (l : Option Literal) → Closed (literalBodies l)
  | none => .nil
  | some l => l.closed_bodies

theorem LambdaBody.closed_bodies : (b : LambdaBody) → Closed b.bodies
  | .block b => b.closed_bodies
  | .statement s => s.closed_bodies

theorem closed_linksBodies : (ps : List Property) → Closed (linksBodies ps)
  | [] => .nil
  | p :: ps => p.closed_bodies.append (closed_linksBodies ps)

theorem Property.closed_bodies : (p : Property) → Closed p.bodies
  | .reference _ | .type _ => .nil
  | .call ⟨_, _, arguments, _⟩ => closed_linesBodies arguments
  | .index s => s.closed_bodies
  | .head n => n.closed_bodies

theorem closed_objectBodies : (b : Option ObjectBody) → Closed (objectBodies b)
  | none => .nil
  | some ⟨_, ms, initializers, _⟩ =>
    (closed_membersBodies ms).append (closed_blocksBodies initializers)

theorem closed_membersBodies : (ms : List Member) → Closed (membersBodies ms)
  | [] => .nil
  | m :: ms => m.closed_bodies.append (closed_membersBodies ms)

theorem Member.closed_bodies : (m : Member) → Closed m.bodies
  | .field f => f.closed_bodies
  | .method m => m.closed_bodies
  | .classDecl c => c.closed_bodies
  | .interfaceDecl i => i.closed_bodies

theorem closed_methodsBodies : (ms : List Method) → Closed (methodsBodies ms)
  | [] => .nil
  | m :: ms => m.closed_bodies.append (closed_methodsBodies ms)

theorem Method.closed_bodies : (m : Method) → Closed m.bodies
  | ⟨_, _, _, _, _, _, body, _, _, _⟩ => closed_optionBlockBodies body

theorem Field.closed_bodies : (f : Field) → Closed f.bodies
  | ⟨_, _, _, value, _, _⟩ => closed_optionBodies value

theorem ClassDecl.closed_bodies : (c : ClassDecl) → Closed c.bodies
  | ⟨_, _, _, _, _, constructors, ms, instanceInitializers, staticInitializers, _, _, _⟩ =>
    (((closed_methodsBodies constructors).append (closed_membersBodies ms)).append
      (closed_blocksBodies instanceInitializers)).append (closed_blocksBodies staticInitializers)

theorem InterfaceDecl.closed_bodies : (i : InterfaceDecl) → Closed i.bodies
  | ⟨_, _, _, _, ms, _, _⟩ => closed_membersBodies ms

end

theorem linesBodies_append (ss ts : List Statement) :
    linesBodies (ss ++ ts) = linesBodies ss ++ linesBodies ts := by
  induction ss with
  | nil => rfl
  | cons s ss ih => rw [List.cons_append, linesBodies, ih, linesBodies, List.append_assoc]

/-- The bodies inside of a statement of a body are among the bodies. -/
theorem Closed.statement {C : List (List Statement)} (h : Closed C) {ss : List Statement}
    (hss : ss ∈ C) {s : Statement} (hs : s ∈ ss) : s.bodies ⊆ C := by
  obtain ⟨before, after, rfl⟩ := List.append_of_mem hs
  refine List.Subset.trans ?_ (h _ hss)
  rw [linesBodies_append]
  exact List.Subset.trans (List.subset_append_left _ _) (List.subset_append_right _ _)

/-! ### What the check may be trusted with -/

/-- All blocks of a switch with statements, and its default, are taken to leave the method. -/
def Switch.isTakenToLeave (w : Switch) : Bool :=
  casesLeave w.blocks && (optionBlockCompletion w.default).leavesMethod

/-- Control never goes on behind a switch by a `break`, nor out of an empty last block. -/
def Switch.NeverEnds (w : Switch) : Prop :=
  (∀ b ∈ w.sourceBlocks, ¬ Runs (.lines b.statements) .breaks) ∧
    ∀ b, w.sourceBlocks.getLast? = some b → b.isEmpty = false

/-- All branches of a chain with an `else` are taken to leave. -/
def IfElse.isTakenToLeave (i : IfElse) : Bool :=
  decide (i.conditions.length < i.blocks.length) && (blocksCompletion i.blocks).leavesBlock

/-- Whether control may leave by a statement: an instruction, a `try`, or
branches or cases that are all taken to leave. -/
def Statement.hasExit (s : Statement) : Bool :=
  match s.control? with
  | some (.instruction _) | some (.tryCatch _) => true
  | some (.ifElse i) => i.isTakenToLeave
  | some (.switch w) => w.isTakenToLeave
  | _ => false

/-- A statement is taken to leave its block for such a reason only, and not
for an instruction inside of an expression. -/
def Statement.Structured (s : Statement) : Prop :=
  s.completion.leavesBlock = true → s.hasExit = true

/-- Control never goes on behind a switch that is taken to leave. -/
def Statement.SwitchNeverEnds (s : Statement) : Prop :=
  ∀ w, s.control? = some (.switch w) → w.isTakenToLeave = true → w.NeverEnds

/-- A statement for which the check can be trusted. -/
def Statement.Faithful (s : Statement) : Prop := s.Structured ∧ s.SwitchNeverEnds

/-- All statements of the bodies are faithful. -/
def AllFaithful (bodies : List (List Statement)) : Prop :=
  ∀ ss ∈ bodies, ∀ s ∈ ss, s.Faithful

/-! ### Leaving the method is leaving the block -/

end Tree

/-- What leaves the method leaves the block. -/
def Completion.Coherent (c : Completion) : Prop := c.leavesMethod = true → c.leavesBlock = true

namespace Completion

theorem coherent_normal : Coherent .normal := by simp [Coherent, normal]

theorem coherent_method : Coherent .method := by simp [Coherent, method]

theorem Coherent.either {a b : Completion} (ha : a.Coherent) (hb : b.Coherent) :
    (a.either b).Coherent := by
  simp only [Coherent, Completion.either, Bool.or_eq_true] at *
  exact Or.imp ha hb

theorem Coherent.both {a b : Completion} (ha : a.Coherent) (hb : b.Coherent) :
    (a.both b).Coherent := by
  simp only [Coherent, Completion.both, Bool.and_eq_true] at *
  exact And.imp ha hb

theorem coherent_leaving (kind : Tree.InstructionKind) : (Checker.leaving kind).Coherent := by
  cases kind <;> simp [Checker.leaving, Coherent, block, method]

@[simp]
theorem leavesBlock_either (a b : Completion) :
    (a.either b).leavesBlock = (a.leavesBlock || b.leavesBlock) := rfl

@[simp]
theorem leavesBlock_both (a b : Completion) :
    (a.both b).leavesBlock = (a.leavesBlock && b.leavesBlock) := rfl

@[simp]
theorem leavesBlock_normal : normal.leavesBlock = false := rfl

end Completion

namespace Tree

mutual

theorem Statement.coherent_completion : (s : Statement) → s.completion.Coherent
  | ⟨left, none, _, _, _, _, _⟩ => coherent_leftCompletion left
  | ⟨left, some _, right, _, _, _, _⟩ =>
    (coherent_leftCompletion left).either (coherent_optionCompletion right)

theorem coherent_leftCompletion : (left : Option Node) → (leftCompletion left).Coherent
  | none => Completion.coherent_normal
  | some n => n.coherent_completion

theorem coherent_optionCompletion : (s : Option Statement) → (optionCompletion s).Coherent
  | none => Completion.coherent_normal
  | some s => s.coherent_completion

theorem coherent_linesCompletion : (ss : List Statement) → (linesCompletion ss).Coherent
  | [] => Completion.coherent_normal
  | s :: ss => s.coherent_completion.either (coherent_linesCompletion ss)

theorem Block.coherent_completion : (b : Block) → b.completion.Coherent
  | ⟨ss, _⟩ => coherent_linesCompletion ss

theorem coherent_blocksCompletion : (bs : List Block) → (blocksCompletion bs).Coherent
  | [] => Completion.coherent_method
  | b :: bs => b.coherent_completion.both (coherent_blocksCompletion bs)

theorem coherent_optionBlockCompletion : (b : Option Block) → (optionBlockCompletion b).Coherent
  | none => Completion.coherent_normal
  | some b => b.coherent_completion

theorem Node.coherent_completion : (n : Node) → n.completion.Coherent
  | .statement s => s.coherent_completion
  | .instruction ⟨kind, value, _⟩ =>
    (Completion.coherent_leaving kind).either (coherent_optionCompletion value)
  | .assertion ⟨test, message, _⟩ =>
    test.coherent_completion.either (coherent_optionCompletion message)
  | .literal l => l.coherent_completion
  | .call ⟨_, _, arguments, _⟩ => coherent_linesCompletion arguments
  | .instantiation ⟨_, arguments, size, literal, _, _⟩ =>
    ((coherent_linesCompletion arguments).either (coherent_optionCompletion size)).either
      (coherent_literalCompletion literal)
  | .ifElse ⟨tests, branches, _⟩ => by
    refine (coherent_linesCompletion tests).either ?_
    split
    · exact coherent_blocksCompletion branches
    · exact Completion.coherent_normal
  | .forLoop ⟨initialization, test, increment, iterable, _, _, _⟩ =>
    ((coherent_optionCompletion initialization).either (coherent_optionCompletion test)).either
      ((coherent_optionCompletion increment).either (coherent_optionCompletion iterable))
  | .whileLoop ⟨test, _, _⟩ => test.coherent_completion
  | .doWhileLoop ⟨_, test, _⟩ => test.coherent_completion
  | .switch ⟨value, cases, _, _, _⟩ => by
    refine (value.coherent_completion.either (coherent_linesCompletion cases)).either ?_
    split
    · exact Completion.coherent_method
    · exact Completion.coherent_normal
  | .tryCatch ⟨body, _, _, clauses, finallyBlock, _⟩ =>
    (body.coherent_completion.both (coherent_blocksCompletion clauses)).either
      (coherent_optionBlockCompletion finallyBlock)
  | .chain ⟨properties, _⟩ => coherent_linksCompletion properties
  | .ternary ⟨test, left, right, _⟩ =>
    test.coherent_completion.either (left.coherent_completion.either right.coherent_completion)
  | .lambda _ | .reference _ | .classDecl _ | .declaration _ => Completion.coherent_normal

theorem Literal.coherent_completion : (l : Literal) → l.completion.Coherent
  | ⟨_, _, items, _⟩ => coherent_linesCompletion items

theorem coherent_literalCompletion : (l : Option Literal) → (literalCompletion l).Coherent
  | none => Completion.coherent_normal
  | some l => l.coherent_completion

theorem coherent_linksCompletion : (ps : List Property) → (linksCompletion ps).Coherent
  | [] => Completion.coherent_normal
  | .reference _ :: ps => coherent_linksCompletion ps
  | .call ⟨_, _, arguments, _⟩ :: ps =>
    (coherent_linesCompletion arguments).either (coherent_linksCompletion ps)
  | .type _ :: ps => coherent_linksCompletion ps
  | .index s :: ps => s.coherent_completion.either (coherent_linksCompletion ps)
  | .head n :: ps => n.coherent_completion.either (coherent_linksCompletion ps)

end

/-! ### Soundness -/

theorem Statement.left_of_control {s : Statement} {n : Node} (h : s.control? = some n) :
    s.operator = none ∧ s.left = some n := by
  rw [Statement.control?] at h
  split at h
  · rename_i hOperator
    exact ⟨Option.isNone_iff_eq_none.mp hOperator, (Option.filter_eq_some_iff.mp h).1⟩
  · cases h

theorem Statement.completion_of_control {s : Statement} {n : Node} (h : s.control? = some n) :
    s.completion = n.completion := by
  obtain ⟨hOperator, hLeft⟩ := Statement.left_of_control h
  obtain ⟨left, operator, right, _, _, _, _⟩ := s
  subst hOperator hLeft
  rfl

theorem Statement.bodies_of_control {s : Statement} {n : Node} (h : s.control? = some n) :
    s.bodies = n.bodies := by
  obtain ⟨hOperator, hLeft⟩ := Statement.left_of_control h
  obtain ⟨left, operator, right, _, _, _, _⟩ := s
  subst hOperator hLeft
  rfl

theorem Block.completion_eq (b : Block) : b.completion = linesCompletion b.statements := by
  cases b
  rfl

theorem Block.bodies_eq (b : Block) : b.bodies = b.statements :: linesBodies b.statements := by
  cases b
  rfl

theorem Node.bodies_ifElse (i : IfElse) :
    (Node.ifElse i).bodies = linesBodies i.conditions ++ blocksBodies i.blocks := by
  cases i
  rfl

theorem Node.bodies_switch (w : Switch) :
    (Node.switch w).bodies =
      w.value.bodies ++ linesBodies w.cases ++ blocksBodies w.blocks ++
        optionBlockBodies w.default := by
  cases w
  rfl

theorem Node.completion_switch (w : Switch) :
    (Node.switch w).completion =
      (w.value.completion.either (linesCompletion w.cases)).either
        (if w.isTakenToLeave then .method else .normal) := by
  cases w
  rfl

theorem Node.bodies_tryCatch (t : TryCatch) :
    (Node.tryCatch t).bodies =
      t.block.bodies ++ blocksBodies t.catchBlocks ++ optionBlockBodies t.finallyBlock := by
  cases t
  rfl

theorem Node.completion_tryCatch (t : TryCatch) :
    (Node.tryCatch t).completion =
      (t.block.completion.both (blocksCompletion t.catchBlocks)).either
        (optionBlockCompletion t.finallyBlock) := by
  cases t
  rfl

theorem AllFaithful.append_iff {xs ys : List (List Statement)} :
    AllFaithful (xs ++ ys) ↔ AllFaithful xs ∧ AllFaithful ys := by
  simp only [AllFaithful, List.mem_append, or_imp, forall_and]

theorem allFaithful_blocksBodies {bs : List Block} :
    AllFaithful (blocksBodies bs) ↔ ∀ b ∈ bs, AllFaithful b.bodies := by
  induction bs with
  | nil => simp [blocksBodies, AllFaithful]
  | cons b bs ih => simp [blocksBodies, AllFaithful.append_iff, ih]

theorem leavesBlock_of_mem {bs : List Block} (h : (blocksCompletion bs).leavesBlock = true)
    {b : Block} (hb : b ∈ bs) : b.completion.leavesBlock = true := by
  induction bs with
  | nil => cases hb
  | cons c bs ih =>
    simp only [blocksCompletion, Completion.leavesBlock_both, Bool.and_eq_true] at h
    rcases List.mem_cons.mp hb with rfl | hb
    · exact h.1
    · exact ih h.2 hb

theorem leavesMethod_of_mem {bs : List Block} (h : casesLeave bs = true) {b : Block}
    (hb : b ∈ bs) (hEmpty : b.isEmpty = false) : b.completion.leavesMethod = true := by
  induction bs with
  | nil => cases hb
  | cons c bs ih =>
    simp only [casesLeave, Bool.and_eq_true, Bool.or_eq_true] at h
    rcases List.mem_cons.mp hb with rfl | hb
    · exact h.1.resolve_left (by simp [hEmpty])
    · exact ih h.2 hb

theorem Switch.mem_sourceBlocks {w : Switch} {b : Block} :
    b ∈ w.sourceBlocks ↔ b ∈ w.blocks ∨ w.default = some b := by
  rw [Switch.sourceBlocks]
  cases hDefault : w.default with
  | none => simp
  | some d =>
    have hSplit := List.takeWhile_append_dropWhile (p := (·.token < d.token)) (l := w.blocks)
    constructor
    · intro h
      rw [← hSplit]
      simp only [List.mem_append, List.mem_cons] at h ⊢
      grind
    · intro h
      rw [← hSplit] at h
      simp only [List.mem_append, List.mem_cons] at h ⊢
      grind

/-- A block of a switch that is taken to leave the method is empty or taken to leave. -/
theorem Switch.leavesBlock_of_mem {w : Switch} (h : w.isTakenToLeave = true) {b : Block}
    (hb : b ∈ w.sourceBlocks) (hEmpty : b.isEmpty = false) : b.completion.leavesBlock = true := by
  rw [Switch.isTakenToLeave, Bool.and_eq_true] at h
  apply b.coherent_completion
  rcases Switch.mem_sourceBlocks.mp hb with hb | hb
  · exact leavesMethod_of_mem h.1 hb hEmpty
  · rw [hb] at h
    exact h.2

/-- The blocks that a path through a switch can run through. -/
theorem allFaithful_sourceBlocks {w : Switch} (h : AllFaithful (Node.switch w).bodies) :
    ∀ b ∈ w.sourceBlocks, AllFaithful b.bodies := by
  simp only [Node.bodies_switch, AllFaithful.append_iff] at h
  obtain ⟨⟨-, hBlocks⟩, hDefault⟩ := h
  intro b hb
  rcases Switch.mem_sourceBlocks.mp hb with hb | hb
  · exact allFaithful_blocksBodies.mp hBlocks b hb
  · rw [hb] at hDefault
    exact hDefault

/-- A path through blocks that ends by `break` does so in one of them. -/
theorem Runs.cases_breaks {c : Stretch} {o : Outcome} (h : Runs c o) :
    ∀ bs, c = .cases bs → o = .breaks → ∃ b ∈ bs, Runs (.lines b.statements) .breaks := by
  induction h with
  | casesFall hb hbs _ ih =>
    rintro _ ⟨⟩ rfl
    obtain ⟨b, hb, hBreaks⟩ := ih _ rfl rfl
    exact ⟨b, List.mem_cons_of_mem _ hb, hBreaks⟩
  | casesExit hb _ _ =>
    rintro _ ⟨⟩ rfl
    exact ⟨_, List.mem_cons_self, hb⟩
  | _ => rintro _ ⟨⟩ <;> nofun

/-- What the soundness of the check supposes of a piece of code. -/
def Stretch.Faithful : Stretch → Prop
  | .lines ss => AllFaithful (ss :: linesBodies ss)
  | .statement s => s.Faithful ∧ AllFaithful s.bodies
  | .rounds _ => True
  | .cases bs => ∀ b ∈ bs, AllFaithful b.bodies
  | .guarded t => AllFaithful t.block.bodies ∧ ∀ b ∈ t.catchBlocks, AllFaithful b.bodies

/-- A piece of code is not taken to leave, where it can be left normally. -/
def Stretch.GoesOn : Stretch → Prop
  | .lines ss => (linesCompletion ss).leavesBlock = false
  | .statement s => s.completion.leavesBlock = false
  | .rounds _ => True
  | .cases bs => ∀ b ∈ bs, b.completion.leavesBlock = false
  | .guarded t => (t.block.completion.both (blocksCompletion t.catchBlocks)).leavesBlock = false

theorem Stretch.Faithful.block {b : Block} (h : AllFaithful b.bodies) :
    (Stretch.lines b.statements).Faithful := by
  rw [Block.bodies_eq] at h
  exact h

theorem Stretch.GoesOn.block {b : Block} (h : (Stretch.lines b.statements).GoesOn) :
    b.completion.leavesBlock = false := by
  rw [Block.completion_eq]
  exact h

/-- A chain of conditions goes on where one of its branches does. -/
theorem goesOn_ifElse {s : Statement} {i : IfElse} {b : Block}
    (hControl : s.control? = some (.ifElse i)) (hFaithful : s.Faithful) (hb : b ∈ i.blocks)
    (hGoesOn : b.completion.leavesBlock = false) : s.completion.leavesBlock = false := by
  by_contra hLeaves
  have hTaken := hFaithful.1 (by simpa using hLeaves)
  simp only [Statement.hasExit, hControl, IfElse.isTakenToLeave, Bool.and_eq_true] at hTaken
  rw [leavesBlock_of_mem hTaken.2 hb] at hGoesOn
  cases hGoesOn

/-- A switch goes on where a path through its blocks reaches the end or a `break`. -/
theorem goesOn_switch {s : Statement} {w : Switch} {before after : List Block} {b : Block}
    {o : Outcome} (hControl : s.control? = some (.switch w)) (hFaithful : s.Faithful)
    (hBlocks : w.sourceBlocks = before ++ b :: after) (hRuns : Runs (.cases (b :: after)) o)
    (hNormal : o.behindSwitch = .normal)
    (hGoesOn : o = .normal → ∀ c ∈ b :: after, c.completion.leavesBlock = false) :
    s.completion.leavesBlock = false := by
  by_contra hLeaves
  have hTaken := hFaithful.1 (by simpa using hLeaves)
  simp only [Statement.hasExit, hControl] at hTaken
  obtain ⟨hNoBreak, hLast⟩ := hFaithful.2 w hControl hTaken
  cases o with
  | normal =>
    -- the last block is run to its end, but it has statements and is taken to leave
    obtain ⟨c, hc⟩ : ∃ c, (b :: after).getLast? = some c := ⟨_, List.getLast?_cons⟩
    have hSource : w.sourceBlocks.getLast? = some c := by
      rw [hBlocks, List.getLast?_append_of_ne_nil _ (List.cons_ne_nil b after), hc]
    have hOpen := hGoesOn rfl c (List.mem_of_getLast? hc)
    rw [Switch.leavesBlock_of_mem hTaken (List.mem_of_getLast? hSource) (hLast c hSource)] at hOpen
    cases hOpen
  | breaks =>
    obtain ⟨c, hc, hBreaks⟩ := hRuns.cases_breaks _ rfl rfl
    exact hNoBreak c (hBlocks ▸ List.mem_append_right _ hc) hBreaks
  | continues | leaves => cases hNormal

/-- A `try` goes on where what it guards does, and its `finally` too. -/
theorem goesOn_tryCatch {s : Statement} {t : TryCatch}
    (hControl : s.control? = some (.tryCatch t)) (hGuarded : (Stretch.guarded t).GoesOn)
    (hFinally : (optionBlockCompletion t.finallyBlock).leavesBlock = false) :
    s.completion.leavesBlock = false := by
  rw [Statement.completion_of_control hControl, Node.completion_tryCatch,
    Completion.leavesBlock_either, hFinally, Bool.or_false]
  exact hGuarded

/-- A statement is not taken to leave where its kind gives no reason to. -/
theorem Statement.Faithful.not_leavesBlock {s : Statement} (h : s.Faithful)
    (hExit : s.hasExit = false) : s.completion.leavesBlock = false := by
  by_contra hLeaves
  rw [h.1 (by simpa using hLeaves)] at hExit
  cases hExit

theorem Stretch.Faithful.tryCatch {t : TryCatch} (h : AllFaithful (Node.tryCatch t).bodies) :
    (Stretch.guarded t).Faithful := by
  simp only [Node.bodies_tryCatch, AllFaithful.append_iff, allFaithful_blocksBodies] at h
  exact h.1

/-- **Soundness of the check.** Where a path through faithful code ends
normally, the check does not take control to leave. The induction is on the
path. -/
theorem Runs.goesOn {c : Stretch} {o : Outcome} (h : Runs c o) :
    c.Faithful → o = .normal → c.GoesOn := by
  induction h with
  | nil => exact fun _ _ => rfl
  | @cons s ss o _ _ ihHead ihRest =>
    intro hFaithful hNormal
    have hBodies := AllFaithful.append_iff.mp fun xs hxs => hFaithful xs (List.mem_cons_of_mem _ hxs)
    have hHead : s.completion.leavesBlock = false :=
      ihHead ⟨hFaithful _ List.mem_cons_self s List.mem_cons_self, hBodies.1⟩ rfl
    have hRest : (linesCompletion ss).leavesBlock = false := by
      refine ihRest (fun xs hxs => ?_) hNormal
      rcases List.mem_cons.mp hxs with rfl | hxs
      · exact fun t ht => hFaithful _ List.mem_cons_self t (List.mem_cons_of_mem _ ht)
      · exact hBodies.2 xs hxs
    simp [Stretch.GoesOn, linesCompletion, hHead, hRest]
  | exit _ hExit _ => exact fun _ hNormal => absurd hNormal hExit
  | plain hControl => exact fun hFaithful _ => hFaithful.1.not_leavesBlock (by simp [Statement.hasExit, hControl])
  | @instruction s i _ =>
    intro _ hNormal
    cases hKind : i.kind <;> simp [hKind, InstructionKind.outcome] at hNormal
  | branch hControl hb _ ih =>
    intro ⟨hFaithful, hBodies⟩ hNormal
    rw [Statement.bodies_of_control hControl, Node.bodies_ifElse, AllFaithful.append_iff,
      allFaithful_blocksBodies] at hBodies
    exact goesOn_ifElse hControl hFaithful hb
      (Stretch.GoesOn.block (ih (.block (hBodies.2 _ hb)) hNormal))
  | noBranch hControl hLength =>
    refine fun hFaithful _ => hFaithful.1.not_leavesBlock ?_
    simp [Statement.hasExit, hControl, IfElse.isTakenToLeave, Nat.not_lt.mpr hLength]
  | forLoop hControl _ _ => exact fun h _ => h.1.not_leavesBlock (by simp [Statement.hasExit, hControl])
  | whileLoop hControl _ _ => exact fun h _ => h.1.not_leavesBlock (by simp [Statement.hasExit, hControl])
  | doWhileLoop hControl _ _ _ _ _ => exact fun h _ => h.1.not_leavesBlock (by simp [Statement.hasExit, hControl])
  | doWhileBreak hControl _ _ => exact fun h _ => h.1.not_leavesBlock (by simp [Statement.hasExit, hControl])
  | doWhileLeave _ _ _ => nofun
  | noRound | round _ _ _ _ _ | roundBreak _ _ | roundLeave _ _ => exact fun _ _ => trivial
  | switch hControl hBlocks hRuns ih =>
    intro ⟨hFaithful, hBodies⟩ hNormal
    rw [Statement.bodies_of_control hControl] at hBodies
    refine goesOn_switch hControl hFaithful hBlocks hRuns hNormal (ih fun c hc => ?_)
    exact allFaithful_sourceBlocks hBodies c (hBlocks ▸ List.mem_append_right _ hc)
  | noCase hControl hDefault =>
    refine fun hFaithful _ => hFaithful.1.not_leavesBlock ?_
    simp [Statement.hasExit, hControl, Switch.isTakenToLeave, hDefault, optionBlockCompletion, Completion.normal]
  | casesEnd => exact fun _ _ => nofun
  | casesFall _ _ ihBlock ihRest =>
    intro hFaithful hNormal
    refine List.forall_mem_cons.mpr ⟨?_, ?_⟩
    · exact Stretch.GoesOn.block (ihBlock (.block (hFaithful _ List.mem_cons_self)) rfl)
    · exact ihRest (fun c hc => hFaithful c (List.mem_cons_of_mem _ hc)) hNormal
  | casesExit _ hExit _ => exact fun _ hNormal => absurd hNormal hExit
  | tryCatch hControl hFinally _ ih =>
    intro ⟨_, hBodies⟩ hNormal
    rw [Statement.bodies_of_control hControl] at hBodies
    refine goesOn_tryCatch hControl (ih (Stretch.Faithful.tryCatch hBodies) hNormal) ?_
    rw [hFinally]
    rfl
  | tryFinally hControl hFinally _ _ ihGuarded ihFinally =>
    intro ⟨_, hBodies⟩ hNormal
    rw [Statement.bodies_of_control hControl] at hBodies
    refine goesOn_tryCatch hControl (ihGuarded (Stretch.Faithful.tryCatch hBodies) hNormal) ?_
    rw [Node.bodies_tryCatch, hFinally, AllFaithful.append_iff] at hBodies
    rw [hFinally]
    exact Stretch.GoesOn.block (ihFinally (.block hBodies.2) rfl)
  | finallyExit _ _ _ hExit _ => exact fun _ hNormal => absurd hNormal hExit
  | guarded _ ih =>
    intro hFaithful hNormal
    have hBlock := Stretch.GoesOn.block (ih (.block hFaithful.1) hNormal)
    simp [Stretch.GoesOn, hBlock]
  | caught hb _ ih =>
    intro hFaithful hNormal
    have hBlock := Stretch.GoesOn.block (ih (.block (hFaithful.2 _ hb)) hNormal)
    have hClauses := mt (leavesBlock_of_mem · hb) (Bool.eq_false_iff.mp hBlock)
    simp [Stretch.GoesOn, Bool.eq_false_iff.mpr hClauses]
  | uncaught => nofun

/-- A path ends at an instruction in one way. -/
theorem Runs.outcome_of_instruction {s : Statement} {i : Instruction} {o : Outcome}
    (h : Runs (.statement s) o) (hControl : s.control? = some (.instruction i)) :
    o = i.kind.outcome := by
  cases h <;> simp_all

/-- Through empty statements a path runs normally. -/
theorem runs_of_isEmpty {b : Block} (h : b.isEmpty = true) : Runs (.lines b.statements) .normal := by
  rw [Block.isEmpty, List.all_eq_true] at h
  generalize b.statements = ss at h
  induction ss with
  | nil => exact .nil
  | cons s ss ih =>
    obtain ⟨hs, hss⟩ := List.forall_mem_cons.mp h
    refine .cons (.plain ?_) (ih hss)
    simp only [Statement.isEmpty, Bool.and_eq_true, Option.isNone_iff_eq_none] at hs
    simp [Statement.control?, hs.1.1]

/-- A switch that is taken to leave is left normally by a `break`, and out of an
empty last block. -/
theorem runs_switch {s : Statement} {w : Switch} (hControl : s.control? = some (.switch w))
    (hEnds : ¬ w.NeverEnds) : Runs (.statement s) .normal := by
  rw [Switch.NeverEnds, not_and_or] at hEnds
  rcases hEnds with hBreak | hLast
  · simp only [not_forall, not_not] at hBreak
    obtain ⟨b, hb, hBreak⟩ := hBreak
    obtain ⟨before, after, hBlocks⟩ := List.append_of_mem hb
    exact .switch hControl hBlocks (.casesExit hBreak nofun)
  · simp only [not_forall] at hLast
    obtain ⟨b, hb, hEmpty⟩ := hLast
    obtain ⟨before, hBlocks⟩ := List.getLast?_eq_some_iff.mp hb
    exact .switch hControl hBlocks (.casesFall (runs_of_isEmpty (by simpa using hEmpty)) .casesEnd)

/-- **The exact condition.** In structured code, the check is right about every
statement just where control never goes on behind a switch that it takes to
leave. -/
theorem sound_iff_switchNeverEnds {b : Block}
    (hStructured : ∀ ss ∈ b.bodies, ∀ s ∈ ss, s.Structured) :
    (∀ ss ∈ b.bodies, ∀ s ∈ ss,
        s.completion.leavesBlock = true → ¬ Runs (.statement s) .normal) ↔
      ∀ ss ∈ b.bodies, ∀ s ∈ ss, s.SwitchNeverEnds := by
  constructor
  · intro hSound ss hss s hs w hControl hTaken
    by_contra hEnds
    refine hSound ss hss s hs ?_ (runs_switch hControl hEnds)
    rw [Statement.completion_of_control hControl, Node.completion_switch]
    simp [hTaken, Completion.method]
  · intro hSwitches ss hss s hs hLeaves hRuns
    have hFaithful : AllFaithful b.bodies := fun ss hss s hs =>
      ⟨hStructured ss hss s hs, hSwitches ss hss s hs⟩
    have hBodies := b.closed_bodies.statement hss hs
    have hGoesOn : s.completion.leavesBlock = false :=
      hRuns.goesOn ⟨hFaithful ss hss s hs, fun ts hts => hFaithful ts (hBodies hts)⟩ rfl
    rw [hGoesOn] at hLeaves
    cases hLeaves

end Tree
end Javascribe
