import KindScript.Binary
import KindScript.Text.Digits

/-!
# Reading floating-point literals

The texts that name a floating-point number: an optional sign, then a name of
infinity or of no number in any case of its letters, or digits with an optional
point and an optional power of ten. At least one digit stands around the point.
-/

namespace KindScript

namespace Binary

/-- A leading sign taken off a text: whether it was a minus, and what follows it. -/
def takeSign : List Char → Bool × List Char
  | '-' :: rest => (true, rest)
  | '+' :: rest => (false, rest)
  | rest => (false, rest)

/-- The power of ten at the end of a literal. Nothing there is a power of zero. -/
def exponentOf? : List Char → Option Int
  | [] => some 0
  | mark :: rest =>
    if mark = 'e' ∨ mark = 'E' then
      Text.wholeNumber? rest
    else none

/-- The digits after a point, and what follows them. -/
def fractionOf : List Char → List Char × List Char
  | '.' :: rest => rest.span Char.isDigit
  | rest => ([], rest)

/-- The number that an unsigned literal names. -/
def ofUnsigned? (f : Format) (negative : Bool) (s : List Char) : Option (Binary f) :=
  let lower := s.map Char.toLower
  if lower = "inf".toList ∨ lower = "infinity".toList then some (infinity negative)
  else if lower = "nan".toList then some nan
  else
    let (whole, afterWhole) := s.span Char.isDigit
    let (fraction, left) := fractionOf afterWhole
    if whole.isEmpty && fraction.isEmpty then none
    else
      (exponentOf? left).map fun exponent =>
        ofDecimal f negative (Text.decimalValue (whole ++ fraction)) (exponent - fraction.length)

/-- The number that a literal names. -/
def ofText? (f : Format) (text : String) : Option (Binary f) :=
  let (negative, s) := takeSign text.toList
  ofUnsigned? f negative s

end Binary

end KindScript
