/-
# Classes, interfaces and enums

An enum is a class: each constant is a public static final field whose
value instantiates the enum. Modifiers and annotations in a body are
collected and go to the member that follows them.

Key definitions: `Construct.classDecl`, `Construct.interfaceDecl`,
`Construct.enumDecl`, `Construct.body`, `Construct.member`.
-/
import Javascribe.Construct.TypeRef

namespace Javascribe
namespace Construct

open Javascribe.Parser

/-- `@Name(arguments)` -/
def annotationUse (parse : Family) : Parser Tree.AnnotationUse := construct fun token => do
  eat "@"
  let name ← eatWord
  let arguments ← if ← allow "(" then listUpTo (parse .statement) ")" else pure []
  return ⟨name, arguments, token⟩

/-- The modifiers before a declaration. -/
def modifiers : Parser Modifiers :=
  iterate ({} : Modifiers) fun modifiers => do
    match modifiers.add? (← get).value with
    | none => return .inr modifiers
    | some modifiers =>
      next
      return .inl modifiers

/-- The type parameters of a declaration, if there are any. -/
def optionalTypeParameters (parse : Family) : Parser (List String) := do
  if ← isAt "<" then typeParameters parse else return []

/-- The types after a keyword, up to a token that ends them; none without the keyword. -/
def typesAfter (parse : Family) (keyword : String) (ends : Matcher) : Parser (List TypeRef) := do
  if ← allow keyword then sequence (parse .typeRef) (.literal ",") ends else return []

/-- The base class, if there is one. -/
def baseClass (parse : Family) (name : String) : Parser (List TypeRef) := do
  if ← allow "extends" then
    let types ← sequence (parse .typeRef) (.literal ",") (.anyOf ["implements", "\x7b"])
    ensureElse (types.length == 1) (.baseClasses name types.length)
    return types
  else return []

/-- A class. -/
def classDecl (parse : Family) : Parser Tree.ClassDecl := construct fun token => do
  let modifiers ← modifiers
  eat "class"
  let name ← eatWord
  let typeParameters ← optionalTypeParameters parse
  let extended ← baseClass parse name
  let implemented ← typesAfter parse "implements" (.literal "\x7b")
  eat "\x7b"
  let body ← parse .body
  return { Tree.ClassDecl.empty token with
    modifiers, name, typeParameters, extended, implemented }.absorb body

/-- An interface, which has nothing to run. -/
def interfaceDecl (parse : Family) : Parser Tree.InterfaceDecl := construct fun token => do
  let modifiers ← modifiers
  eat "interface"
  let name ← eatWord
  let typeParameters ← optionalTypeParameters parse
  let extended ← typesAfter parse "extends" (.literal "\x7b")
  eat "\x7b"
  let body ← parse .body
  ensureElse (body.constructors.isEmpty && body.instanceInitializers.isEmpty
    && body.staticInitializers.isEmpty) (.interfaceCode name)
  return ⟨modifiers, name, typeParameters, extended, body.members, [], token⟩

/-- The field that stands for a constant of the enum `name`. -/
def constantField (name constant : String) (arguments : List Tree.Statement) (token : Nat) :
    Tree.Member :=
  let type := TypeRef.named name token
  let value : Tree.Node := .instantiation ⟨type, arguments, none, none, none, token⟩
  .field ⟨⟨.everyone, true, true, false⟩, type, constant, some (.ofNode value token), [], token⟩

/-- One constant of the enum `name`. -/
def enumConstant (parse : Family) (name : String) : Parser Tree.Member := do
  let token := (← get).current
  let constant ← eatWord
  let arguments ← if ← allow "(" then listUpTo (parse .statement) ")" else pure []
  return constantField name constant arguments token

/-- The constants of the enum `name`, up to a closing brace or a semicolon. -/
def enumConstants (parse : Family) (name : String) : Parser (List Tree.Member) :=
  iterate [] fun constants => do
    let cursor ← get
    if cursor.is "\x7d" || cursor.is ";" then return .inr constants.reverse
    let constant ← enumConstant parse name
    if !(← allow ",") then
      let cursor ← get
      ensure (cursor.is "\x7d" || cursor.is ";")
    return .inl (constant :: constants)

/-- An enum. A semicolon after its constants starts the rest of its body. -/
def enumDecl (parse : Family) : Parser Tree.ClassDecl := construct fun token => do
  let modifiers ← modifiers
  eat "enum"
  let name ← eatWord
  let implemented ← typesAfter parse "implements" (.literal "\x7b")
  eat "\x7b"
  let members ← enumConstants parse name
  let enumeration :=
    { Tree.ClassDecl.empty token with modifiers, name, implemented, members, isEnum := true }
  if ← allow "\x7d" then return enumeration
  next
  return enumeration.absorb (← parse .body)

/-! ### Bodies -/

/-- What has been read of a body, and what is to go to the next member. -/
structure BodyDraft where
  body : Tree.ObjectBody
  modifiers : Modifiers
  annotations : List Tree.AnnotationUse
  isClosed : Bool

/-- The draft after its modifiers and annotations have gone to a member of `body`. -/
def BodyDraft.withBody (draft : BodyDraft) (body : Tree.ObjectBody) : BodyDraft :=
  { draft with body := body, modifiers := {}, annotations := [] }

/-- A constructor. -/
def constructor (parse : Family) : Handler BodyDraft := fun draft => do
  let token := (← get).current
  let name ← eatWord
  let signature ← parse .signature
  ensure signature.block.isSome
  let method : Tree.Method :=
    { modifiers := draft.modifiers
      typeParameters := []
      type := none
      name := name
      parameters := signature.parameters
      throws := signature.throws
      block := signature.block
      annotations := draft.annotations
      isConstructor := true
      token := token }
  proceed (draft.withBody { draft.body with constructors := draft.body.constructors ++ [method] })

/-- An initializer. -/
def initializer (parse : Family) : Handler BodyDraft := fun draft => do
  ensureElse draft.annotations.isEmpty .annotatedInitializer
  let hasKeyword ← allow "static"
  let block ← parse .block
  let body := draft.body
  if draft.modifiers.isStatic || hasKeyword then
    proceed (draft.withBody
      { body with staticInitializers := body.staticInitializers ++ [block] })
  else
    proceed (draft.withBody
      { body with instanceInitializers := body.instanceInitializers ++ [block] })

/-- The parts of a body. -/
def bodyGrammar (parse : Family) : Grammar BodyDraft Tree.ObjectBody where
  begin := fun _ => ⟨.empty, {}, [], false⟩
  rules := [
    ⟨.literal "@", fun draft => do
      let noted ← parse .annotationUse
      proceed { draft with annotations := draft.annotations ++ [noted] }⟩,
    ⟨.literal "\x7d", fun draft => finish { draft with isClosed := true }⟩,
    ⟨.literal ";", proceed⟩,
    ⟨.predicate TokenStream.startsConstructor, constructor parse⟩,
    ⟨.predicate TokenStream.startsInitializer, initializer parse⟩,
    ⟨.predicate TokenStream.isModifier, fun draft => do
      let modifiers := draft.modifiers.add? (← get).value
      proceed { draft with modifiers := modifiers.getD draft.modifiers }⟩,
    ⟨.anyText, fun draft => do
      let member ← parse .member
      let member := member.withPending draft.modifiers draft.annotations
      proceed (draft.withBody { draft.body with members := draft.body.members ++ [member] })⟩]
  complete := fun draft => do
    ensure draft.isClosed
    return draft.body

/-- What stands between the braces of a class, from past the opening brace to
past the closing one. -/
def body (parse : Family) : Parser Tree.ObjectBody := (bodyGrammar parse).parse

/-! ### Members -/

/-- The value of a field, up to its semicolon. -/
def fieldValue (parse : Family) : Parser Tree.Statement := do
  let value ← parse .statement
  ensure ((← isAt ";") && !value.isEmpty)
  return value

/-- A field, method or nested type, without modifiers and annotations. -/
def member (parse : Family) : Parser Tree.Member := construct fun token => do
  let cursor ← get
  if cursor.is "class" then return .classDecl (← parse .classDecl)
  if cursor.is "interface" then return .interfaceDecl (← parse .interfaceDecl)
  if cursor.is "enum" then return .classDecl (← parse .enumDecl)
  let typeParameters ← optionalTypeArguments parse
  ensure (← get).isWord
  let declaration ← parse .declaration
  let field (value : Option Tree.Statement) : Tree.Member :=
    .field ⟨{}, declaration.type, declaration.name, value, [], token⟩
  if ← allow "=" then
    let value ← fieldValue parse
    ensure typeParameters.isEmpty
    next
    return field (some value)
  else if ← isAt ";" then
    ensure typeParameters.isEmpty
    next
    return field none
  else
    ensure (← isAt "(")
    let signature ← parse .signature
    return .method
      { modifiers := {}
        typeParameters := typeParameters
        type := some declaration.type
        name := declaration.name
        parameters := signature.parameters
        throws := signature.throws
        block := signature.block
        annotations := []
        isConstructor := false
        token := token }

/-- Parameters, thrown types and block. A semicolon in place of the block
ends a method that has none. -/
def signature (parse : Family) : Parser Tree.Signature := construct fun _ => do
  eat "("
  let parameters ← listUpTo (parse .declaration) ")"
  let throws ← typesAfter parse "throws" (.anyOf [";", "\x7b"])
  if ← isAt "\x7b" then return ⟨parameters, throws, some (← parse .block)⟩
  else
    eat ";"
    return ⟨parameters, throws, none⟩

end Construct
end Javascribe
