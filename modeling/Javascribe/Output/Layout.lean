/-
# Layout of constructs

How a construct is laid out when its parts are already documents.

Key definitions: `Layout.block`, `Layout.branches`, `Layout.switch`,
`Layout.catchClauses`, `Layout.classBody`, `Layout.staticSide`.
-/
import Javascribe.Output.Document
import Javascribe.Output.Names
import Javascribe.Tree.Basic
import Javascribe.Typing.Object

namespace Javascribe
namespace Layout

open Document (text texts line indented)

/-- A document in parentheses if `isWanted`. -/
def parenthesized (isWanted : Bool) (document : Document) : Document :=
  if isWanted then text "(" ++ document ++ text ")" else document

/-- Arguments in parentheses. -/
def arguments (documents : List Document) : Document :=
  text "(" ++ Document.commas documents ++ text ")"

/-- Parameters in parentheses. -/
def parameters (parameters : List Tree.Variable) : Document :=
  arguments (parameters.map fun parameter =>
    (if parameter.isVariadic then text "..." else []) ++ text parameter.name)

/-- A name after what it has to be qualified with. -/
def qualified (qualifier : Option String) (name : String) : Document :=
  match qualifier with
  | some qualifier => texts [qualifier, ".", name]
  | none => text name

/-- A declaration. A final variable with its value is a constant. -/
def declaration (declared : Tree.Variable) (isInitialized : Bool) : Document :=
  texts [if declared.isFinal && isInitialized then "const " else "let ", declared.name]

/-- An operator and what stands right of it, after or without a left side. -/
def operation (hasLeft : Bool) (operation? : Option Operator) (right? : Option Document) :
    Document :=
  match operation? with
  | none => right?.getD []
  | some operation =>
    match hasLeft, right? with
    | true, some right => texts [" ", operation.hostSymbol, " "] ++ right
    | true, none => text operation.hostSymbol
    | false, right? => text operation.hostSymbol ++ right?.getD []

/-- Lines in braces, indented. -/
def braced (lines : Document) : Document := text "\x7b" ++ line ++ indented lines ++ text "\x7d"

/-- A block. -/
def block (lines : Document) : Document := if lines.isEmpty then text "\x7b\x7d" else braced lines

/-- Whether a statement in a block ends in a semicolon. -/
def needsSemicolon (statement : Tree.Statement) : Bool :=
  statement.operator.isSome
    || match statement.left with
      | some (.ifElse _) | some (.forLoop _) | some (.whileLoop _) | some (.switch _)
      | some (.tryCatch _) | some (.classDecl _) => false
      | _ => true

/-! ### Control flow -/

/-- `if` and `else`, as many conditions as there are. -/
def branches : List Document → List Document → Document
  | _, [] => []
  | conditions, block :: blocks =>
    let guard := match conditions.head? with
      | some condition => text "if (" ++ condition ++ text ") "
      | none => []
    let rest := branches conditions.tail blocks
    guard ++ block ++ if blocks.isEmpty then [] else text " else " ++ rest

/-- A `for` loop over the elements of something. -/
def forEach (declared iterable : Option Document) (block : Document) : Document :=
  text "for (" ++ declared.getD [] ++ text " of " ++ iterable.getD [] ++ text ") " ++ block

/-- A part of the head of a `for` loop, after its semicolon. -/
def forPart (part : Option Document) : Document :=
  match part with
  | some part => text "; " ++ part
  | none => text ";"

/-- A `for` loop. -/
def forLoop (initialization condition increment : Option Document) (block : Document) :
    Document :=
  text "for (" ++ initialization.getD [] ++ forPart condition ++ forPart increment ++ text ") "
    ++ block

/-- A label of a switch with its lines. -/
def label (head lines : Document) : Document := head ++ line ++ indented lines

/-- A switch: the cases with their lines, then the default. -/
def switch (value : Document) (cases : List (Document × Document)) (default : Option Document) :
    Document :=
  let labels := cases.map fun (value, lines) => label (text "case " ++ value ++ text ":") lines
  let last := match default with
    | some lines => label (text "default:") lines
    | none => []
  text "switch (" ++ value ++ text ") " ++ braced (labels.flatten ++ last)

/-- The test for a value of one of the types of a clause. -/
def caughtTypes (types : List TypeRef) : Document :=
  Document.separated (text " || ")
    (types.map fun type => texts ["error instanceof ", type.hostName])

/-- Whether a clause catches everything. -/
def catchesAll (types : List TypeRef) : Bool :=
  types.isEmpty || types.any fun type => isCatchAll type.name

/-- The name that a clause gives to what it catches. -/
def caughtName (names : List Tree.Reference) : String :=
  match names.head? with
  | some reference => reference.name
  | none => "error"

/-- The lines of a clause, with what is caught under the clause's own name. -/
def clauseLines (name : String) (lines : Document) : Document :=
  (if name == "error" then [] else text ("let " ++ name ++ " = error;") ++ line) ++ lines

/-- Clauses tried in order. After the first that catches everything none is
tried; without one, what no clause catches is thrown again. -/
def clauseChain : List (List TypeRef) → List Tree.Reference → List Document → Document
  | _, _, [] => braced (text "throw error;" ++ line)
  | types, names, lines :: rest =>
    let caught := types.head?.getD []
    let clause := braced (clauseLines (caughtName names) lines)
    if catchesAll caught then clause
    else
      text "if (" ++ caughtTypes caught ++ text ") " ++ clause ++ text " else "
        ++ clauseChain types.tail names.tail rest

/-- The clauses of a `try`: nothing, the one there is, or a chain in one clause. -/
def catchClauses (types : List (List TypeRef)) (names : List Tree.Reference)
    (blocks lines : List Document) : Document :=
  match blocks with
  | [] => []
  | [block] => texts [" catch (", caughtName names, ") "] ++ block
  | _ => text " catch (error) " ++ braced (clauseChain types names lines ++ line)

/-! ### Classes -/

/-- `name = value;` -/
def assignment (name : String) (value : Document) : Document :=
  texts [name, " = "] ++ value ++ text ";"

/-- One constructor in the switch between them. -/
def constructorCase (className : String) (index : Nat) : Document :=
  label (text s!"case {index}:")
    (text ("this." ++ overloadName className index ++ "(...args);") ++ line
      ++ text "break;" ++ line)

/-- The switch between the constructors of a class. -/
def constructorSwitch (className : String) (count : Nat) : Document :=
  if count == 0 then []
  else
    text "switch (overloadIndex) "
      ++ braced ((List.range count).flatMap (constructorCase className)) ++ line

/-- The function that runs when an object is made: it sets the fields, runs
the initializers and calls the constructor that was chosen. -/
def hostConstructor (className : String) (isDerived : Bool) (fields initializers : List Document)
    (constructorCount : Nat) : Document :=
  let start := if isDerived then text "super();" ++ line else []
  let body := start ++ (fields.flatMap fun field => text "this." ++ field ++ line)
    ++ (initializers.flatMap fun initializer => initializer ++ line)
    ++ constructorSwitch className constructorCount
  text "constructor (overloadIndex, ...args) " ++ braced body ++ line

/-- The name of a class and its parent. -/
def classHead (name : String) (extended : List TypeRef) : Document :=
  match extended.head? with
  | some parent => texts ["class ", name, " extends ", parent.hostName]
  | none => texts ["class ", name]

/-- A class with its members. -/
def classBody (name : String) (extended : List TypeRef) (members : List Document) : Document :=
  classHead name extended ++ text " " ++ braced (Document.separated line members)

/-- What is assigned to a class after it, each on a line of its own. -/
def staticSide (name : String) (methods : List (String × Document)) (nested : List String)
    (fields initializers : List Document) : Document :=
  (methods.flatMap fun (stored, method) =>
    line ++ text (name ++ "." ++ stored ++ " = function ") ++ method ++ text ";")
    ++ (nested.flatMap fun other =>
      line ++ text (name ++ "." ++ other ++ " = " ++ other ++ ";"))
    ++ (fields.flatMap fun field => line ++ text (name ++ ".") ++ field)
    ++ (initializers.flatMap fun block => line ++ text "(function () " ++ block ++ text ")();")

/-- An object with members of its own: an instance of the type when that is a
class, otherwise a plain object. -/
def anonymousObject (type : String) (fields : List Document) (methods : List (String × Document))
    (initializers : List Document) (constructed : Document) : Document :=
  let body := (fields.flatMap fun field => text "instance." ++ field ++ line)
    ++ (methods.flatMap fun (name, method) =>
      text ("instance." ++ name ++ " = function ") ++ method ++ text ";" ++ line)
    ++ (initializers.flatMap fun block =>
      text "(function () " ++ block ++ text ").call(instance);" ++ line)
    ++ text "return instance;" ++ line
  text "(function (instance) " ++ braced body
    ++ text (")(typeof " ++ type ++ " === 'function' ? ") ++ constructed ++ text " : \x7b\x7d)"

end Layout
end Javascribe
