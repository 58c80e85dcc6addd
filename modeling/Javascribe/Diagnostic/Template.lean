/-
# Message templates

A template holds placeholders: a number in braces. Filling replaces every
`0` placeholder by the first argument, then every `1` placeholder by the
second, and so on, each time in the text as it is by then. So a placeholder
inside an earlier argument is filled by a later one.

Key definitions: `Template.fill`.
-/

namespace Javascribe
namespace Template

/-- Replaces each occurrence of `pattern` in a text, from left to right. The
counter is the rest of an occurrence that is being passed over. -/
def replaceFrom (pattern replacement : List Char) : List Char → Nat → List Char
  | [], _ => []
  | _ :: cs, skip + 1 => replaceFrom pattern replacement cs skip
  | c :: cs, 0 =>
    if pattern.isPrefixOf (c :: cs) then
      replacement ++ replaceFrom pattern replacement cs (pattern.length - 1)
    else
      c :: replaceFrom pattern replacement cs 0

/-- The placeholder of argument `index`. -/
def placeholder (index : Nat) : List Char :=
  '\x7b' :: Nat.toDigits 10 index ++ ['\x7d']

/-- Fills the placeholders from `index` on. -/
def fillFrom : Nat → List Char → List String → List Char
  | _, text, [] => text
  | index, text, argument :: rest =>
    fillFrom (index + 1) (replaceFrom (placeholder index) argument.toList text 0) rest

/-- `template` with its placeholders replaced by `arguments`. -/
def fill (template : String) (arguments : List String) : String :=
  String.ofList (fillFrom 0 template.toList arguments)

end Template
end Javascribe
