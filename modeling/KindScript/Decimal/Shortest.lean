import KindScript.Binary
import KindScript.Decimal

/-!
# Shortest decimal digits

The decimal number of fewest digits that reads back as a given binary one. On
the grid of the numbers with `n` digits only the two neighbours of the value
need a test; of two that read back the nearer one is taken, and at a tie the
caller says which. Whatever is chosen reads back, because it is tested.
-/

namespace KindScript

attribute [local instance (10000)] instPowNat

namespace Decimal

/-- Which of two equally near decimal numbers is taken. -/
inductive Tie where
  | up
  | even
deriving DecidableEq, Repr

/-- The greatest power of ten that is at most a positive quotient. -/
def orderOf (num den : Nat) : Int :=
  if den ≤ num then (Nat.toDigits 10 (num / den)).length - 1
  else
    let places := (Nat.toDigits 10 (den / num)).length
    if den ≤ num * 10 ^ (places - 1) then 1 - (places : Int) else -(places : Int)

/-- A quotient divided by a power of ten, as numerator and denominator. -/
def scaled (num den : Nat) (exponent : Int) : Nat × Nat :=
  (num * 10 ^ (-exponent).toNat, den * 10 ^ exponent.toNat)

/-- The neighbour of a quotient on the grid of multiples of `10 ^ exponent` that
passes a test, the nearer one if both do. -/
def nearest? (tie : Tie) (accepts : Nat → Bool) (num den : Nat) (exponent : Int) : Option Nat :=
  let (num, den) := scaled num den exponent
  let below := num / den
  let above := below + 1
  let left := 2 * (num % den)
  if accepts below then
    if accepts above then
      if left < den then some below
      else if den < left then some above
      else match tie with
        | .up => some above
        | .even => if below % 2 = 0 then some below else some above
    else some below
  else if accepts above then some above
  else none

/-- The first grid, from one digit to seventeen, with a neighbour that reads back as
`x`; the exact value of the quotient is found where there is none. -/
def shortestFrom {f : Format} (tie : Tie) (x : Binary f) (num den : Nat) (order : Int) :
    List Nat → Option Decimal
  | [] => none
  | digits :: more =>
    let exponent := order + 1 - digits
    match nearest? tie (fun n => Binary.ofDecimal f false n exponent = x) num den exponent with
    | some significand => some (normalized significand exponent)
    | none => shortestFrom tie x num den order more

/-- The digits that suffice for every format here. -/
def digitCounts : List Nat :=
  [1, 2, 3, 4, 5, 6, 7, 8, 9, 10, 11, 12, 13, 14, 15, 16, 17]

/-- The shortest decimal number that reads back as a count of units. -/
def shortest {f : Format} (tie : Tie) (units : Nat) (holds : f.Holds units) : Decimal :=
  if units = 0 then ⟨0, 0⟩
  else
    let den := 2 ^ f.fraction
    match shortestFrom tie (.finite false units holds) units den (orderOf units den)
        digitCounts with
    | some d => d
    | none => normalized (units * 5 ^ f.fraction) (-(f.fraction : Int))

end Decimal

namespace Binary

/-- The written form of a number: its shortest digits in a style, a sign in front. -/
def write {f : Format} (tie : Decimal.Tie) (style : Decimal.Style) : Binary f → String
  | nan => "NaN"
  | infinity negative => if negative then "-inf" else "inf"
  | finite negative units holds =>
    let text := (Decimal.shortest tie units holds).write style
    String.ofList (if negative then '-' :: text else text)

/-- The text of a number by itself: positional, whole numbers without a point. -/
def text {f : Format} (x : Binary f) : String :=
  x.write .up ⟨none, false⟩

end Binary

end KindScript
