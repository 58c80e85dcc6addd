/-
# Packages and imports

Both stand on one line and end in a semicolon.

Key definitions: `Construct.package`, `Construct.importDecl`.
-/
import Javascribe.Parser.Production

namespace Javascribe
namespace Construct

open Javascribe.Parser

/-- What has been read of a package. -/
structure PackageDraft where
  names : List String
  isTerminated : Bool
  token : Nat

/-- The parts of a package. -/
def packageGrammar : Grammar PackageDraft Tree.Package where
  begin := fun token => ⟨[], false, token⟩
  steps := [.eat (.literal "package") proceed]
  rules := [
    ⟨.literal ".", fun draft => do
      let cursor ← get
      ensure (!draft.names.isEmpty && cursor.tokens.isWord cursor.peek)
      proceed draft⟩,
    ⟨.literal ";", fun draft => do
      ensure (!draft.names.isEmpty)
      finish { draft with isTerminated := true }⟩,
    ⟨.word, fun draft => do
      let cursor ← get
      ensure (draft.names.isEmpty || cursor.follows ["."])
      proceed { draft with names := draft.names ++ [cursor.value] }⟩]
  isSingleLine := true
  complete := fun draft => do
    ensure draft.isTerminated
    return ⟨draft.names, draft.token⟩

/-- `package a.b.c;` -/
def package : Parser Tree.Package := packageGrammar.parse

/-- What has been read of an import. The name being read is kept apart. -/
structure ImportDraft where
  names : List String
  part : String
  group : List String
  isStatic : Bool
  isWildcard : Bool
  isTerminated : Bool
  token : Nat

namespace ImportDraft

/-- The draft with the name being read added to the names. -/
def savePart (draft : ImportDraft) : ImportDraft :=
  if draft.part.isEmpty then draft
  else { draft with names := draft.names ++ [draft.part], part := "" }

/-- The name that the import makes known. -/
def default (draft : ImportDraft) : Option String :=
  if !draft.group.isEmpty || draft.isWildcard then none
  else if draft.isStatic then draft.names.reverse[1]?
  else draft.names.getLast?

end ImportDraft

/-- A word in an import. -/
def importWord : Handler ImportDraft := fun draft => do
  ensure (draft.group.isEmpty && !draft.isWildcard)
  proceed { draft with part := draft.part ++ (← get).value }

/-- A dot in an import: after a name, and only one. -/
def importDot : Handler ImportDraft := fun draft => do
  let cursor ← get
  ensure (!draft.part.isEmpty && !cursor.followsRaw "." && !cursor.nextRawIs ".")
  proceed draft.savePart

/-- The names of a group, up to the closing brace. -/
def importGroup (parse : Family) : Handler ImportDraft := fun draft => do
  ensureElse (!draft.isStatic) .staticGroup
  ensure (draft.part.isEmpty && !draft.names.isEmpty)
  next
  let group ← commaList (parse .reference) "\x7d"
  proceed { draft with group := group.map (·.name) }

/-- The star of a wildcard import. -/
def importStar : Handler ImportDraft := fun draft => do
  ensure (draft.part.isEmpty && draft.group.isEmpty && (← get).nextRawIs ";")
  proceed { draft with isWildcard := true }

/-- The parts of an import. -/
def importGrammar (parse : Family) : Grammar ImportDraft Tree.Import where
  begin := fun token => ⟨[], "", [], false, false, false, token⟩
  steps := [
    .eat (.literal "import") proceed,
    .allow (.literal "static") fun draft => proceed { draft with isStatic := true },
    .eat .word importWord]
  rules := [
    ⟨.literal ".", importDot⟩,
    ⟨.literal "\x7b", importGroup parse⟩,
    ⟨.literal "\x7d", fun draft => do
      ensure (!draft.group.isEmpty)
      proceed draft⟩,
    ⟨.literal "*", importStar⟩,
    ⟨.literal ";", fun draft => do
      let draft := draft.savePart
      ensure (!draft.names.isEmpty)
      finish { draft with isTerminated := true }⟩,
    ⟨.word, importWord⟩]
  isSingleLine := true
  complete := fun draft => do
    ensure draft.isTerminated
    return ⟨draft.names, draft.default, draft.group, draft.isWildcard, draft.isStatic, draft.token⟩

/-- An import. -/
def importDecl (parse : Family) : Parser Tree.Import := (importGrammar parse).parse

end Construct
end Javascribe
