/-
# Limits

Recursion over the user's input stops at these depths.
-/

namespace Javascribe

/-- Nested constructs the parser follows before it gives up. -/
def maxParserDepth : Nat := 400

/-- References followed to resolve one reference; past it the type is dynamic. -/
def maxResolutionDepth : Nat := 64

/-- Steps along supertypes that count as inheritance. -/
def maxSupertypeDepth : Nat := 128

/-- Types that are met one inside the other behind references. Only a type that
holds itself goes on so long. -/
def maxReferenceNesting : Nat := 1000

end Javascribe
