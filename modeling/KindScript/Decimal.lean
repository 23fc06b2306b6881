/-!
# Decimal numbers

A decimal number is a whole significand and a power of ten. This module has the
two ways in which one is written, positional and scientific, and the choice
between them that a format makes.
-/

namespace KindScript

/-- The number `significand * 10 ^ exponent`. -/
structure Decimal where
  significand : Nat
  exponent : Int
deriving DecidableEq, Repr

namespace Decimal

/-- The same number without zeros at the end of its significand. -/
def normalized (significand : Nat) (exponent : Int) : Decimal :=
  if significand ≠ 0 ∧ significand % 10 = 0 then normalized (significand / 10) (exponent + 1)
  else ⟨significand, exponent⟩
termination_by significand
decreasing_by omega

def digits (d : Decimal) : List Char :=
  Nat.toDigits 10 d.significand

/-- The power of ten of the first digit. -/
def order (d : Decimal) : Int :=
  d.digits.length - 1 + d.exponent

/-- How a format writes its numbers: which orders are written positionally, and
whether a whole number keeps a point and a zero. -/
structure Style where
  positional : Option (Int × Int)
  pointed : Bool

/-- All digits at their places. -/
def positional (d : Decimal) (pointed : Bool) : List Char :=
  let point := d.order + 1
  if 0 ≤ d.exponent then
    d.digits ++ List.replicate d.exponent.toNat '0' ++ (if pointed then ['.', '0'] else [])
  else if 0 < point then d.digits.take point.toNat ++ '.' :: d.digits.drop point.toNat
  else '0' :: '.' :: List.replicate (-point).toNat '0' ++ d.digits

/-- One digit before the point and a signed power of ten. -/
def scientific (d : Decimal) : List Char :=
  let mantissa :=
    match d.digits with
    | [] => []
    | [first] => [first]
    | first :: rest => first :: '.' :: rest
  mantissa ++ 'e' :: (if d.order < 0 then '-' else '+') :: Nat.toDigits 10 d.order.natAbs

def write (style : Style) (d : Decimal) : List Char :=
  match style.positional with
  | none => d.positional style.pointed
  | some (least, greatest) =>
    if least ≤ d.order ∧ d.order ≤ greatest then d.positional style.pointed else d.scientific

end Decimal

end KindScript
