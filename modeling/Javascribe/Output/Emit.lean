/-
# Writing trees

Every construct as a document. Casts and annotations are left out, and so
are interfaces. Empty statements are not written, nor is a call of a parent
constructor that does nothing.

Key definitions: `Emit.statement`, `Emit.block`, `Emit.classDecl`.
-/
import Javascribe.Output.Layout
import Javascribe.Resolutions
import Javascribe.Typing.Collect

namespace Javascribe
namespace Emit

open Javascribe.Tree
open Document (text texts line)

variable (resolutions : Resolutions)

/-- Whether a statement in a block is written. -/
def isWritten (statement : Statement) : Bool :=
  !statement.isEmpty
    && match statement.left with
      | some (.call c) =>
        !statement.isSimple || c.name != some "super" || (resolutions.callName? c.token).isSome
      | _ => true

/-- A bare name. -/
def reference (r : Reference) : Document :=
  Layout.qualified (resolutions.qualifier? r.token) r.name

/-- What a call at the start of an expression calls. -/
def callHead (name : Option String) (token : Nat) : Document :=
  let stored := resolutions.callName? token
  match name with
  | none => []
  | some name =>
    if name == "this" || name == "super" then
      match stored with
      | some stored => texts [name, ".", stored]
      | none => text name
    else Layout.qualified (resolutions.qualifier? token) (stored.getD name)

/-- What a call later in a chain calls. -/
def callLink (name : Option String) (token : Nat) : Document :=
  match name with
  | none => []
  | some name => texts [".", (resolutions.callName? token).getD name]

/-- What `System.out.println` and its like are written as. -/
def consoleFunction? : List Property → Option String
  | [.reference system, .reference stream, .call ⟨name, _, _, _⟩] =>
    if system.name == "System" && (name == some "println" || name == some "print") then
      match stream.name with
      | "out" => some "console.log"
      | "err" => some "console.error"
      | _ => none
    else none
  | _ => none

/-- The start of `new T(…)`: the class, and which constructor to call. -/
def instantiationHead (type : TypeRef) (token : Nat) (hasArguments : Bool) : Document :=
  let index := match resolutions.constructor? token with
    | some index => text (toString index) ++ if hasArguments then text ", " else []
    | none => []
  texts ["new ", type.hostName, "("] ++ index

mutual

/-- A statement or expression. -/
def statement : Statement → Document
  | ⟨left, operator, right, isParenthesized, _, _, _⟩ =>
    let operation := operator.map (·.operation)
    Layout.parenthesized isParenthesized
      (leftSide (operation == some .assign) left
        ++ Layout.operation left.isSome operation (optionStatement right))

/-- The left side of a statement, if there is one. -/
def leftSide (isInitialized : Bool) : Option Node → Document
  | none => []
  | some (.declaration d) => Layout.declaration d isInitialized
  | some n => node n

/-- A statement that may be absent. -/
def optionStatement : Option Statement → Option Document
  | none => none
  | some s => some (statement s)

/-- Statements in expression position. -/
def statements : List Statement → List Document
  | [] => []
  | s :: ss => statement s :: statements ss

/-- The statements of a block, one on a line. -/
def lines : List Statement → Document
  | [] => []
  | s :: ss =>
    (if isWritten resolutions s then
        statement s ++ (if Layout.needsSemicolon s then text ";" else []) ++ line
      else [])
      ++ lines ss

/-- The statements of a block without its braces. -/
def blockLines : Block → Document
  | ⟨ss, _⟩ => lines ss

/-- A block. -/
def block : Block → Document
  | ⟨ss, _⟩ => Layout.block (lines ss)

/-- Blocks. -/
def blocks : List Block → List Document
  | [] => []
  | b :: bs => block b :: blocks bs

/-- The statements of blocks. -/
def linesOfBlocks : List Block → List Document
  | [] => []
  | b :: bs => blockLines b :: linesOfBlocks bs

/-- A block that may be absent. -/
def optionBlock : Option Block → Option Document
  | none => none
  | some b => some (block b)

/-- The statements of a block that may be absent. -/
def optionLines : Option Block → Option Document
  | none => none
  | some b => some (blockLines b)

/-- A node. -/
def node : Node → Document
  | .statement s => statement s
  | .instruction ⟨kind, value, _⟩ =>
    match optionStatement value with
    | some value => texts [kind.keyword, " "] ++ value
    | none => text kind.keyword
  | .assertion ⟨condition, message, _⟩ =>
    text "console.assert("
      ++ Document.commas (statement condition :: (optionStatement message).toList) ++ text ")"
  | .literal l => literal l
  | .lambda ⟨parameters, body, _⟩ =>
    Layout.arguments (parameters.map fun parameter => text parameter.name) ++ text " => "
      ++ lambdaBody body
  | .reference r => reference resolutions r
  | .call c => call c
  | .instantiation i => instantiation i
  | .classDecl c => classDecl c
  | .declaration d => Layout.declaration d false
  | .ifElse ⟨conditions, branches, _⟩ => Layout.branches (statements conditions) (blocks branches)
  | .forLoop ⟨initialization, condition, increment, iterable, isEnhanced, body, _⟩ =>
    if isEnhanced then
      Layout.forEach (optionStatement initialization) (optionStatement iterable) (block body)
    else
      Layout.forLoop (optionStatement initialization) (optionStatement condition)
        (optionStatement increment) (block body)
  | .whileLoop ⟨condition, body, _⟩ =>
    text "while (" ++ statement condition ++ text ") " ++ block body
  | .doWhileLoop ⟨body, condition, _⟩ =>
    text "do " ++ block body ++ text " while (" ++ statement condition ++ text ")"
  | .switch ⟨value, cases, bodies, default, _⟩ =>
    Layout.switch (statement value) ((statements cases).zip (linesOfBlocks bodies))
      (optionLines default)
  | .tryCatch ⟨body, types, names, clauses, finallyBlock, _⟩ =>
    text "try " ++ block body
      ++ Layout.catchClauses types names (blocks clauses) (linesOfBlocks clauses)
      ++ match optionBlock finallyBlock with
        | some last => text " finally " ++ last
        | none => []
  | .chain ⟨properties, _⟩ =>
    match consoleFunction? properties with
    | some function => text function ++ lastArguments properties
    | none => firstLink properties
  | .ternary ⟨condition, left, right, _⟩ =>
    statement condition ++ text " ? " ++ statement left ++ text " : " ++ statement right

/-- A literal. -/
def literal : Literal → Document
  | ⟨kind, value, elements, _⟩ =>
    match kind with
    | .array => text "[" ++ Document.commas (statements elements) ++ text "]"
    | .string => [.verbatim value]
    | .keyword | .number => text value

/-- A literal that may be absent. -/
def optionLiteral : Option Literal → Option Document
  | none => none
  | some l => some (literal l)

/-- The body of a lambda. -/
def lambdaBody : LambdaBody → Document
  | .block b => block b
  | .statement s => statement s

/-- A call at the start of an expression. -/
def call : Call → Document
  | ⟨name, _, arguments, token⟩ =>
    callHead resolutions name token ++ Layout.arguments (statements arguments)

/-- The first link of a chain, and the others. -/
def firstLink : List Property → Document
  | [] => []
  | .reference r :: ps => reference resolutions r ++ links ps
  | .call c :: ps => call c ++ links ps
  | .type t :: ps => text (".".intercalate t.names) ++ links ps
  | .index s :: ps => text "[" ++ statement s ++ text "]" ++ links ps
  | .head n :: ps => node n ++ links ps

/-- The links of a chain after the first. -/
def links : List Property → Document
  | [] => []
  | .reference r :: ps => texts [".", r.name] ++ links ps
  | .call ⟨name, _, arguments, token⟩ :: ps =>
    callLink resolutions name token ++ Layout.arguments (statements arguments) ++ links ps
  | .type t :: ps => texts [".", ".".intercalate t.names] ++ links ps
  | .index s :: ps => text "[" ++ statement s ++ text "]" ++ links ps
  | .head n :: ps => node n ++ links ps

/-- The arguments of the call that ends a chain. -/
def lastArguments : List Property → Document
  | [] => []
  | [.call ⟨_, _, arguments, _⟩] => Layout.arguments (statements arguments)
  | _ :: ps => lastArguments ps

/-- An instantiation. -/
def instantiation : Instantiation → Document
  | ⟨type, arguments, arraySize, arrayLiteral, body, token⟩ =>
    let constructed := instantiationHead resolutions type token (!arguments.isEmpty)
      ++ Document.commas (statements arguments) ++ text ")"
    match optionStatement arraySize, optionLiteral arrayLiteral,
        optionBody type.hostName constructed body with
    | some size, _, _ =>
      text "new Array(" ++ size ++ text (").fill(" ++ type.defaultValue ++ ")")
    | none, some elements, _ => elements
    | none, none, some object => object
    | none, none, none => constructed

/-- An object with a body of its own, if there is one. -/
def optionBody (type : String) (constructed : Document) : Option ObjectBody → Option Document
  | none => none
  | some ⟨_, members, initializers, _⟩ =>
    let names := storedMethodNames (members.filterMap Member.method?)
    some (Layout.anonymousObject type (fields (fun _ => true) members)
      (methods (fun _ => true) names members) (blocks initializers) constructed)

/-- The assignments of the fields whose modifiers are wanted. -/
def fields (isWanted : Modifiers → Bool) : List Member → List Document
  | [] => []
  | .field ⟨modifiers, type, name, value, _, _⟩ :: ms =>
    let value := (optionStatement value).getD (text type.defaultValue)
    let rest := fields isWanted ms
    if isWanted modifiers then Layout.assignment name value :: rest else rest
  | _ :: ms => fields isWanted ms

/-- Parameters and block of a method that has one. -/
def methodBody : Method → Option Document
  | ⟨_, _, _, _, parameters, _, body, _, _, _⟩ =>
    (optionBlock body).map fun body => Layout.parameters parameters ++ text " " ++ body

/-- The methods with a block whose modifiers are wanted, by stored name. -/
def methods (isWanted : Modifiers → Bool) (names : List String) :
    List Member → List (String × Document)
  | [] => []
  | .method m :: ms =>
    let rest := methods isWanted names.tail ms
    match isWanted m.modifiers, methodBody m with
    | true, some body => (names.head?.getD m.name, body) :: rest
    | _, _ => rest
  | _ :: ms => methods isWanted names ms

/-- Constructors as methods of the class `name`, from number `index` on. -/
def constructors (name : String) (index : Nat) : List Method → List Document
  | [] => []
  | m :: ms =>
    let body := (methodBody m).getD (Layout.parameters m.parameters ++ text " \x7b\x7d")
    (texts [overloadName name index, " "] ++ body ++ line) :: constructors name (index + 1) ms

/-- The nested classes, before the class they are in. -/
def nestedClasses : List Member → Document
  | [] => []
  | .classDecl c :: ms => classDecl c ++ line ++ line ++ nestedClasses ms
  | _ :: ms => nestedClasses ms

/-- A class, with what belongs to it before and after. -/
def classDecl : ClassDecl → Document
  | ⟨_, name, _, extended, _, ctors, members, initializers, staticInitializers, _, _, _⟩ =>
    let names := storedMethodNames (members.filterMap Member.method?)
    let ownFields := fields (fun modifiers => !modifiers.isStatic) members
    let start :=
      if ownFields.isEmpty && initializers.isEmpty && ctors.isEmpty then []
      else [Layout.hostConstructor name (!extended.isEmpty) ownFields (blocks initializers)
        ctors.length]
    let ownMethods := (methods (fun modifiers => !modifiers.isStatic) names members).map
      fun (stored, body) => texts [stored, " "] ++ body ++ line
    nestedClasses members
      ++ Layout.classBody name extended (start ++ constructors name 0 ctors ++ ownMethods)
      ++ Layout.staticSide name (methods (·.isStatic) names members)
        (members.filterMap fun m => match m with
          | .classDecl c => some c.name
          | _ => none)
        (fields (·.isStatic) members) (blocks staticInitializers)

end

end Emit
end Javascribe
