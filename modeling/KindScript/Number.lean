import KindScript.Decimal.Shortest

/-!
# Numbers

A number is of one of six kinds. This module has the kinds, the conversions
between the four machine types behind them, and the text of a number.
-/

namespace KindScript

abbrev Single := Binary .single

abbrev Double := Binary .double

namespace Number

inductive Kind where
  | byte
  | integer
  | float
  | long
  | double
  | char
deriving DecidableEq, Repr

namespace Kind

/-- The kinds in the order of the promotion tables. -/
def all : List Kind :=
  [byte, integer, float, long, double, char]

def name : Kind → String
  | byte => "Byte"
  | integer => "Integer"
  | float => "Float"
  | long => "Long"
  | double => "Double"
  | char => "Char"

end Kind

end Number

inductive Number where
  | byte (value : UInt8)
  | integer (value : Int32)
  | float (value : Single)
  | long (value : Int64)
  | double (value : Double)
  | char (value : Char)
deriving DecidableEq

namespace Number

def kind : Number → Kind
  | byte _ => .byte
  | integer _ => .integer
  | float _ => .float
  | long _ => .long
  | double _ => .double
  | char _ => .char

/-- The whole part of a floating-point number, held to 32 bits. -/
def holdInt32 {f : Format} (x : Binary f) : Int32 :=
  Int32.ofInt (x.toIntBetween Int32.minValue.toInt Int32.maxValue.toInt)

/-- The whole part of a floating-point number, held to 64 bits. -/
def holdInt64 {f : Format} (x : Binary f) : Int64 :=
  Int64.ofInt (x.toIntBetween Int64.minValue.toInt Int64.maxValue.toInt)

/-- As 32 bits: long numbers wrap, floating-point ones are held to the range, and a
character is its code point. -/
def toInt32 : Number → Int32
  | byte v => Int32.ofNat v.toNat
  | integer v => v
  | float v => holdInt32 v
  | long v => v.toInt32
  | double v => holdInt32 v
  | char v => Int32.ofNat v.toNat

def toInt64 : Number → Int64
  | long v => v
  | float v => holdInt64 v
  | double v => holdInt64 v
  | n => n.toInt32.toInt64

def toSingle : Number → Single
  | float v => v
  | long v => .ofInt .single v.toInt
  | double v => v.convert .single
  | n => .ofInt .single n.toInt32.toInt

def toDouble : Number → Double
  | float v => v.convert .double
  | long v => .ofInt .double v.toInt
  | double v => v
  | n => .ofInt .double n.toInt32.toInt

/-- The text of a number, as concatenation shows it. -/
def text : Number → String
  | byte v => v.toNat.repr
  | integer v => v.toInt.repr
  | float v => v.text
  | long v => v.toInt.repr
  | double v => v.text
  | char v => v.toString

end Number

end KindScript
