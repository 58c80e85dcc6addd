/-
# Paths

A path is a text of segments between slashes. Empty segments and `.` mean
nothing, apart from a slash or `.` at the very start; what remains are the
path's components. The text is kept as it was written, so that a path is
shown in messages the way it was given.

Key definitions: `Path`, `Path.components`, `Path.join`, `Path.extension?`,
`Path.withExtension`, `Path.relativeTo`.
-/

namespace Javascribe

/-- A path as it is written. -/
structure Path where
  text : String
  deriving DecidableEq, Repr

namespace Path

/-- What a path is made of. -/
inductive Component where
  | root
  | current
  | parent
  | name (text : String)
  deriving DecidableEq, Repr

/-- A component as it is written. -/
def Component.text : Component → String
  | .root => "/"
  | .current => "."
  | .parent => ".."
  | .name text => text

/-- The characters between slashes; `segment` is what has been read of the first, reversed. -/
def splitSegments (segment : List Char) : List Char → List String
  | [] => [String.ofList segment.reverse]
  | '/' :: cs => String.ofList segment.reverse :: splitSegments [] cs
  | c :: cs => splitSegments (c :: segment) cs

/-- The texts between the slashes of a path. -/
def segments (path : Path) : List String := splitSegments [] path.text.toList

/-- Whether a segment means nothing inside a path. -/
def isFiller (segment : String) : Bool := segment == "" || segment == "."

/-- Whether a path starts at the root. -/
def isAbsolute (path : Path) : Bool := path.text.toList.head? == some '/'

/-- The component of a segment that means something. -/
def Component.ofSegment (segment : String) : Component :=
  if segment == ".." then .parent else .name segment

/-- The components of a path. -/
def components (path : Path) : List Component :=
  let start :=
    match path.segments with
    | "" :: _ :: _ => [.root]
    | "." :: _ => [.current]
    | _ => []
  start ++ (path.segments.filter (!isFiller ·)).map .ofSegment

/-- A path below another; an absolute path stands for itself. -/
def join (base path : Path) : Path :=
  if path.isAbsolute || base.text.isEmpty then path
  else if base.text.toList.getLast? == some '/' then ⟨base.text ++ path.text⟩
  else ⟨base.text ++ "/" ++ path.text⟩

/-! ### File names -/

/-- A path cut at its last component: the segments before it, the component's
own segment, and the segments behind it. -/
structure Cut where
  before : List String
  last : String
  after : List String

/-- A path cut at its last component, when there is one apart from the start. -/
def cut? (path : Path) : Option Cut :=
  match path.segments.reverse.span isFiller with
  | (after, last :: before) => some ⟨before.reverse, last, after.reverse⟩
  | (_, []) => none

/-- The text of segments that end with a slash. -/
def headText (segments : List String) : String := String.join (segments.map (· ++ "/"))

/-- The file that a path names. -/
def fileName? (path : Path) : Option String :=
  (path.cut?.map (·.last)).filter (· != "..")

/-- A file name cut at its last dot. A dot at the start does not count. -/
def splitName (name : String) : String × Option String :=
  match name.toList.reverse.span (· != '.') with
  | (_, []) | (_, ['.']) => (name, none)
  | (suffix, _ :: stem) => (String.ofList stem.reverse, some (String.ofList suffix.reverse))

/-- What stands behind the last dot of the file name. -/
def extension? (path : Path) : Option String := path.fileName?.bind fun name => (splitName name).2

/-- The path with another extension. The stem `.` with nothing behind its file
name leads to the parent, which has no extension. -/
def withExtension (path : Path) (extension : String) : Path :=
  match path.cut? with
  | none => path
  | some ⟨before, last, after⟩ =>
    if last == ".." then path
    else
      match splitName last with
      | (".", some _) =>
        if after.isEmpty then ⟨headText before ++ ".."⟩
        else ⟨headText before ++ ".." ++ extension⟩
      | (stem, _) => ⟨headText before ++ stem ++ "." ++ extension⟩

/-- The path without its last component. -/
def parent? (path : Path) : Option Path :=
  match path.cut? with
  | none => if path.components.isEmpty || path.isAbsolute then none else some ⟨""⟩
  | some ⟨before, _, _⟩ =>
    match before with
    | [] => some ⟨""⟩
    | first :: rest =>
      match (rest.reverse.dropWhile isFiller).reverse with
      | [] => some ⟨if first == "" then "/" else first⟩
      | rest => some ⟨"/".intercalate (first :: rest)⟩

/-! ### Relative names -/

/-- What follows `start` in a list that begins with it. -/
def after? {α : Type} [BEq α] : List α → List α → Option (List α)
  | [], items => some items
  | _ :: _, [] => none
  | first :: start, item :: items => if first == item then after? start items else none

/-- The components of a path below a directory, joined by slashes; all of
them when it is not below it. -/
def relativeTo (path directory : Path) : String :=
  let rest := (after? directory.components path.components).getD path.components
  "/".intercalate (rest.map (·.text))

end Path
end Javascribe
