import KindScript.Binary.Literal
import KindScript.Token
import KindScript.Value

/-!
# Number literals

The number that a token of a number kind spells. Whole numbers take at most one
sign, bytes no minus, and none may leave the range of its kind; floating-point
numbers round to the nearest one.
-/

namespace KindScript

namespace Number

def byteOfText? (text : String) : Option UInt8 :=
  match text.toList with
  | '-' :: _ => none
  | s => (Text.wholeNumber? s).bind fun n => if n < 256 then some (UInt8.ofNat n.toNat) else none

def integerOfText? (text : String) : Option Int32 :=
  (Text.wholeNumber? text.toList).bind fun n =>
    if Int32.minValue.toInt ≤ n ∧ n ≤ Int32.maxValue.toInt then some (Int32.ofInt n) else none

def longOfText? (text : String) : Option Int64 :=
  (Text.wholeNumber? text.toList).bind fun n =>
    if Int64.minValue.toInt ≤ n ∧ n ≤ Int64.maxValue.toInt then some (Int64.ofInt n) else none

/-- The number that a token of the given kind and text stands for. -/
def ofToken? (kind : Token.Kind) (text : String) : Option Number :=
  match kind with
  | .byte => (byteOfText? text).map byte
  | .integer => (integerOfText? text).map integer
  | .long => (longOfText? text).map long
  | .float => (Binary.ofText? .single text).map float
  | .double => (Binary.ofText? .double text).map double
  | _ => none

end Number

end KindScript
