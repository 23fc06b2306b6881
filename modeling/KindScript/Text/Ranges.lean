/-!
# Code point ranges

A character class beyond ASCII is an ascending list of code point ranges. The
test walks the list and stops at the first range that lies above the character.
-/

namespace KindScript.Text

/-- Ranges of code points, both ends included, in ascending order. -/
abbrev Ranges := List (Nat × Nat)

namespace Ranges

def contains : Ranges → Nat → Bool
  | [], _ => false
  | (first, last) :: rest, code => first ≤ code && (code ≤ last || contains rest code)

end Ranges

end KindScript.Text
