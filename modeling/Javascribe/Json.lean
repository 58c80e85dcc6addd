/-
# Reading JSON

Configuration files are JSON. Numbers are checked and then forgotten. A text
with half of a surrogate pair is valid JSON but not valid text; it is kept
without its characters. Entries of an object are kept in order, also when a
key is repeated.

Key definitions: `Json`, `Json.ofText?`.
-/

namespace Javascribe

/-- A JSON value. -/
inductive Json where
  | null
  | bool (value : Bool)
  | number
  | string (text : Option String)
  | array (items : List Json)
  | object (entries : List (Option String × Json))

namespace Json

/-- Whether a character separates the parts of a value. -/
def isSpace (c : Char) : Bool := c == ' ' || c == '\n' || c == '\t' || c == '\r'

/-- The characters after white space. -/
def skipSpace (cs : List Char) : List Char := cs.dropWhile isSpace

/-! ### Strings -/

/-- The value of a hexadecimal digit. -/
def hexDigit? (c : Char) : Option Nat :=
  if '0' ≤ c && c ≤ '9' then some (c.toNat - 48)
  else if 'a' ≤ c && c ≤ 'f' then some (c.toNat - 87)
  else if 'A' ≤ c && c ≤ 'F' then some (c.toNat - 55)
  else none

/-- The number of four hexadecimal digits. -/
def hexNumber? (a b c d : Char) : Option Nat := do
  return (((← hexDigit? a) * 16 + (← hexDigit? b)) * 16 + (← hexDigit? c)) * 16 + (← hexDigit? d)

/-- The character that stands for another after a backslash. -/
def escape? : Char → Option Char
  | '"' => some '"'
  | '\\' => some '\\'
  | '/' => some '/'
  | 'b' => some '\x08'
  | 'f' => some '\x0c'
  | 'n' => some '\n'
  | 'r' => some '\r'
  | 't' => some '\t'
  | _ => none

/-- The code points of a string up to its closing quote, halves of surrogate
pairs among them, and the characters behind it. -/
def readUnits : List Char → Option (List Nat × List Char)
  | [] => none
  | '"' :: cs => some ([], cs)
  | '\\' :: 'u' :: a :: b :: c :: d :: cs => do
    let unit ← hexNumber? a b c d
    let (units, rest) ← readUnits cs
    return (unit :: units, rest)
  | '\\' :: c :: cs => do
    let escaped ← escape? c
    let (units, rest) ← readUnits cs
    return (escaped.toNat :: units, rest)
  | c :: cs => do
    if c.toNat < 0x20 || c == '\\' then none
    let (units, rest) ← readUnits cs
    return (c.toNat :: units, rest)

/-- Whether a unit is the first half of a surrogate pair. -/
def isLeading (unit : Nat) : Bool := 0xD800 ≤ unit && unit < 0xDC00

/-- Whether a unit is the second half of a surrogate pair. -/
def isTrailing (unit : Nat) : Bool := 0xDC00 ≤ unit && unit < 0xE000

/-- The characters of units; nothing when half of a pair stands alone. -/
def characters? : List Nat → Option (List Char)
  | [] => some []
  | [unit] => if isLeading unit || isTrailing unit then none else some [Char.ofNat unit]
  | first :: second :: units =>
    if isLeading first then do
      if !isTrailing second then none
      let c := Char.ofNat (0x10000 + (first - 0xD800) * 0x400 + (second - 0xDC00))
      return c :: (← characters? units)
    else if isTrailing first then none
    else do return Char.ofNat first :: (← characters? (second :: units))

/-- The text of a string up to its closing quote, and the characters behind it. -/
def readText (cs : List Char) : Option (Option String × List Char) := do
  let (units, rest) ← readUnits cs
  return ((characters? units).map String.ofList, rest)

/-! ### Numbers -/

/-- The characters after digits, of which there has to be one. -/
def skipDigits (cs : List Char) : Option (List Char) :=
  match cs with
  | c :: cs => if c.isDigit then some (cs.dropWhile Char.isDigit) else none
  | [] => none

/-- The characters after the whole part of a number. A zero stands alone. -/
def skipWhole : List Char → Option (List Char)
  | '0' :: c :: cs => if c.isDigit then none else some (c :: cs)
  | cs => skipDigits cs

/-- The characters after a fraction, if there is one. -/
def skipFraction : List Char → Option (List Char)
  | '.' :: cs => skipDigits cs
  | cs => some cs

/-- The characters after an exponent, if there is one. -/
def skipExponent : List Char → Option (List Char)
  | c :: cs =>
    if c == 'e' || c == 'E' then
      match cs with
      | '+' :: cs | '-' :: cs => skipDigits cs
      | cs => skipDigits cs
    else some (c :: cs)
  | [] => some []

/-- The characters after a number. -/
def skipNumber (cs : List Char) : Option (List Char) := do
  let cs := match cs with
    | '-' :: cs => cs
    | cs => cs
  skipExponent (← skipFraction (← skipWhole cs))

/-! ### Values -/

mutual

/-- A value, and the characters behind it. -/
def readValue : Nat → List Char → Option (Json × List Char)
  | 0, _ => none
  | fuel + 1, cs =>
    match skipSpace cs with
    | 'n' :: 'u' :: 'l' :: 'l' :: cs => some (.null, cs)
    | 't' :: 'r' :: 'u' :: 'e' :: cs => some (.bool true, cs)
    | 'f' :: 'a' :: 'l' :: 's' :: 'e' :: cs => some (.bool false, cs)
    | '"' :: cs => (readText cs).map fun (text, rest) => (.string text, rest)
    | '[' :: cs =>
      match skipSpace cs with
      | ']' :: cs => some (.array [], cs)
      | cs => (readItems fuel cs).map fun (items, rest) => (.array items, rest)
    | '\x7b' :: cs =>
      match skipSpace cs with
      | '\x7d' :: cs => some (.object [], cs)
      | cs => (readEntries fuel cs).map fun (entries, rest) => (.object entries, rest)
    | cs => (skipNumber cs).map fun rest => (.number, rest)

/-- The items of an array up to its end, of which there has to be one. -/
def readItems : Nat → List Char → Option (List Json × List Char)
  | 0, _ => none
  | fuel + 1, cs => do
    let (item, rest) ← readValue fuel cs
    match skipSpace rest with
    | ',' :: rest =>
      let (items, rest) ← readItems fuel rest
      return (item :: items, rest)
    | ']' :: rest => return ([item], rest)
    | _ => none

/-- The entries of an object up to its end, of which there has to be one. -/
def readEntries : Nat → List Char → Option (List (Option String × Json) × List Char)
  | 0, _ => none
  | fuel + 1, cs => do
    let '"' :: rest := skipSpace cs | none
    let (key, rest) ← readText rest
    let ':' :: rest := skipSpace rest | none
    let (value, rest) ← readValue fuel rest
    match skipSpace rest with
    | ',' :: rest =>
      let (entries, rest) ← readEntries fuel rest
      return ((key, value) :: entries, rest)
    | '\x7d' :: rest => return ([(key, value)], rest)
    | _ => none

end

/-- The value that a text holds, with nothing but white space around it. No
value nests deeper than its text is long. -/
def ofText? (text : String) : Option Json := do
  let cs := text.toList
  let (value, rest) ← readValue (2 * cs.length + 2) cs
  if (skipSpace rest).isEmpty then some value else none

end Json
end Javascribe
