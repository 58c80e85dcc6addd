/-
# The checker's state

Checking a file runs in a context: the local names, the objects and types
that enclose the place being checked, the types that `return` has to give,
and flags about the flow of control. A problem is either reported, and
checking goes on, or it halts the construct being checked; the nearest
`recover` reports the halt and goes on with the next construct. What is
entered is left again in both cases.

Key definitions: `Flags`, `Context`, `Checker`, `Checker.report`,
`Checker.halt`, `Checker.recover`, `Checker.withScope`,
`Checker.withinObject`.
-/
import Javascribe.Checking.Reach
import Javascribe.Checking.Scope
import Javascribe.Diagnostic
import Javascribe.Resolutions
import Javascribe.Typing.Collect
import Javascribe.Typing.Overload

namespace Javascribe

/-! ### Flow of control -/

/-- How control leaves a piece of code: it never goes on behind it in its
block, and it leaves the whole method. -/
structure Completion where
  leavesBlock : Bool := false
  leavesMethod : Bool := false
  deriving DecidableEq, Repr

namespace Completion

/-- Control goes on. -/
def normal : Completion := {}

/-- Control leaves the block. -/
def block : Completion := { leavesBlock := true }

/-- Control leaves the method. -/
def method : Completion := { leavesBlock := true, leavesMethod := true }

/-- What both say. -/
def both (a b : Completion) : Completion :=
  ⟨a.leavesBlock && b.leavesBlock, a.leavesMethod && b.leavesMethod⟩

/-- What either says. -/
def either (a b : Completion) : Completion :=
  ⟨a.leavesBlock || b.leavesBlock, a.leavesMethod || b.leavesMethod⟩

end Completion

/-- What holds at the place being checked. -/
structure Flags where
  /-- `return` may stand here. -/
  mayReturn : Bool := false
  /-- `this` and instance members may be used here. -/
  allowsInstance : Bool := false
  /-- The place is in a constructor. -/
  inConstructor : Bool := false
  /-- How control has left the block so far. -/
  completion : Completion := .normal
  /-- Unreachable code has been reported in the block. -/
  reportedUnreachable : Bool := false
  deriving DecidableEq, Repr

/-- The flags at the start of a block. -/
def Flags.enterBlock (flags : Flags) : Flags :=
  { flags with completion := .normal, reportedUnreachable := false }

/-- The flags at the start of a lambda's body. -/
def Flags.enterLambda (flags : Flags) : Flags :=
  { mayReturn := true, allowsInstance := flags.allowsInstance }

/-! ### Context -/

/-- What stays the same while a file is checked. -/
structure Environment where
  file : String
  tokens : TokenStream
  dictionary : Dictionary
  space : FileNamespace
  /-- The members named by static imports. -/
  staticImports : List String
  /-- All members of some class are imported. -/
  hasStaticWildcard : Bool

/-- The environment of a file. -/
def Environment.ofTree (file : String) (tree : SourceTree) (dictionary : Dictionary) :
    Environment :=
  let (wildcards, named) := (tree.imports.filter (·.isStatic)).partition (·.isWildcard)
  { file := file
    tokens := tree.tokens
    dictionary := dictionary
    space := .ofTree file tree
    staticImports := named.filterMap (·.names.getLast?)
    hasStaticWildcard := !wildcards.isEmpty }

/-- A problem that ends the check of a construct, and where it is. -/
structure Halt where
  token : Nat
  code : Code
  arguments : List String
  deriving DecidableEq, Repr

/-- The state of a check. -/
structure Context where
  scopes : Scopes := .empty
  /-- The objects being checked, the innermost first. -/
  objects : List Nat := []
  /-- What `return` has to give, for the innermost method or lambda first. -/
  expected : List Constraint := []
  /-- The names of the enclosing types, the outermost first. -/
  enclosing : List String := []
  /-- The type parameters that can be used. -/
  generics : List String := []
  flags : Flags := {}
  /-- The problems found so far. -/
  diagnostics : List Diagnostic := []
  resolutions : Resolutions := .empty

/-- The diagnostic of a problem at a token. -/
def Environment.diagnostic (env : Environment) (halt : Halt) : Diagnostic :=
  let token := env.tokens.get halt.token
  { file := env.file
    start := token.start
    length := token.value.utf8ByteSize
    line := some token.line
    message := halt.code.message halt.arguments
    severity := halt.code.severity
    code := halt.code.number }

/-- The context with one more diagnostic. -/
def Context.record (context : Context) (diagnostic : Diagnostic) : Context :=
  { context with diagnostics := context.diagnostics ++ [diagnostic] }

/-- Steps of a check. The context survives a halt. -/
abbrev Checker := ReaderT Environment (EStateM Halt Context)

namespace Checker

variable {α : Type}

/-! ### Problems -/

/-- Reports a problem and goes on. -/
def report (token : Nat) (code : Code) (arguments : List String) : Checker Unit := do
  let diagnostic := (← read).diagnostic ⟨token, code, arguments⟩
  modify (·.record diagnostic)

/-- Reports a problem unless a condition holds. -/
def check (condition : Bool) (token : Nat) (code : Code) (arguments : List String) :
    Checker Unit :=
  if condition then pure () else report token code arguments

/-- Halts the construct being checked. -/
def halt (token : Nat) (code : Code) (arguments : List String) : Checker α :=
  throw ⟨token, code, arguments⟩

/-- Halts unless a condition holds. -/
def require (condition : Bool) (token : Nat) (code : Code) (arguments : List String) :
    Checker Unit :=
  if condition then pure () else halt token code arguments

/-- Runs a check of a construct; a halt is reported and gives nothing. -/
def recover (body : Checker α) : Checker (Option α) := fun env context =>
  match body env context with
  | .ok value context => .ok (some value) context
  | .error halt context => .ok none (context.record (env.diagnostic halt))

/-- Runs a check of a construct for its problems only. -/
def attempt (body : Checker α) : Checker Unit := discard (recover body)

/-! ### Entering and leaving -/

/-- Runs `body` in the context changed by `enter`, and then changes the
context by `leave`, which also sees the context of the start. -/
def bracket (enter : Context → Context) (leave : Context → Context → Context)
    (body : Checker α) : Checker α := fun env context =>
  match body env (enter context) with
  | .ok value after => .ok value (leave context after)
  | .error halt after => .error halt (leave context after)

/-- Runs `body` with other flags. -/
def withFlags (change : Flags → Flags) : Checker α → Checker α :=
  bracket (fun context => { context with flags := change context.flags })
    (fun before after => { after with flags := before.flags })

/-- Runs `body` in a scope of its own. -/
def withScope : Checker α → Checker α :=
  bracket (fun context => { context with scopes := context.scopes.enter })
    (fun _ after => { after with scopes := after.scopes.exit })

/-- Runs `body` with more type parameters. -/
def withGenerics (names : List String) : Checker α → Checker α :=
  bracket (fun context => { context with generics := context.generics ++ names })
    (fun before after => { after with generics := after.generics.take before.generics.length })

/-- Runs `body` among the members of an object, in a scope of its own. -/
def visiting (id : Nat) (body : Checker α) : Checker α :=
  bracket (fun context => { context with objects := id :: context.objects })
    (fun _ after => { after with objects := after.objects.tail })
    (withScope body)

/-- Runs `body` among the members of an object, if it is known. -/
def visitingOption (id : Option Nat) (body : Checker α) : Checker α :=
  match id with
  | some id => visiting id body
  | none => withScope body

/-- Runs `body` inside the declaration of an object. -/
def withinObject (id : Nat) (name : String) (typeParameters : List String)
    (body : Checker α) : Checker α :=
  withGenerics typeParameters <|
    bracket (fun context => { context with enclosing := context.enclosing ++ [name] })
      (fun _ after => { after with enclosing := after.enclosing.dropLast })
      (visiting id body)

/-- Runs `body` where `return` has to give `expected`. -/
def expecting (expected : Constraint) : Checker α → Checker α :=
  bracket (fun context => { context with expected := expected :: context.expected })
    (fun _ after => { after with expected := after.expected.tail })

/-! ### The dictionary -/

/-- What the dictionary says. -/
def ask (question : Dictionary → α) : Checker α := do
  return question (← read).dictionary

/-- The constraint with a reference replaced by what it means. -/
def resolve (constraint : Constraint) : Checker Constraint := ask (·.resolve constraint)

/-- What a written type means here. -/
def typeOf (type : TypeRef) : Checker Constraint := do
  let env ← read
  let context ← get
  resolve (env.space.constraint context.enclosing context.generics type)

/-- A local name of a written type. -/
def localOf (name : String) (type : TypeRef) (isConstant : Bool) : Checker Local := do
  let env ← read
  let context ← get
  let reference := env.space.constraint context.enclosing context.generics type
  return ⟨name, env.dictionary.resolve reference, isConstant⟩

/-- The name of a constraint in messages. -/
def typeName (constraint : Constraint) : Checker String := ask (·.typeName constraint)

/-- Whether a value of `source` may stand where `target` is expected. -/
def fits (source target : Constraint) : Checker Bool := ask (·.fits source target)

/-- Whether a constraint is exactly a simple type. -/
def isExactly (constraint : Constraint) (type : SimpleType) : Checker Bool := do
  return (← resolve constraint).isSimple type

/-- Reports a value of `source` where `target` is expected, unless it fits. -/
def checkAssignable (source target : Constraint) (token : Nat) : Checker Unit := do
  unless ← fits source target do
    report token .typeIsNotAssignableToType [← typeName source, ← typeName target]

/-- The object declared under a name here. -/
def declaredObject? (name : String) : Checker (Option Nat) := do
  let env ← read
  let identifier := env.space.identifier (← get).enclosing name
  return (env.dictionary.symbol? identifier).bind (·.constraint.definition.object?)

/-! ### The context -/

/-- The flags. -/
def flags : Checker Flags := return (← get).flags

/-- Notes that control leaves. -/
def complete (completion : Completion) : Checker Unit :=
  modify fun context =>
    { context with
      flags := { context.flags with
        completion := context.flags.completion.either completion } }

/-- Runs `body` as a block and says how control leaves it. -/
def inBlock (body : Checker Unit) : Checker Completion :=
  withFlags (·.enterBlock) <| withScope do
    body
    return (← flags).completion

/-- Declares a local name. -/
def declare (declared : Local) : Checker Unit :=
  modify fun context => { context with scopes := context.scopes.declare declared }

/-- What a local name means. -/
def local? (name : String) : Checker (Option Local) := return (← get).scopes.find? name

/-- Changes the resolutions. -/
def resolution (change : Resolutions → Resolutions) : Checker Unit :=
  modify fun context => { context with resolutions := change context.resolutions }

end Checker
end Javascribe
