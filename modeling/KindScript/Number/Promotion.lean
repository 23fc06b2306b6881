import KindScript.Number
import KindScript.Operator

/-!
# Promotion

What an operation between two numbers means. Both operands are taken into the
machine type that holds both of them, the operation is carried out there, and
the result is taken into the machine type that a table gives for the two kinds.
The table is not symmetric: a byte added to an integer gives a double, an
integer added to a byte an integer.
-/

namespace KindScript.Number

/-- The machine types in which operations are carried out, the narrowest first. -/
inductive Domain where
  | int
  | long
  | float
  | double
deriving DecidableEq, Repr

namespace Domain

def rank : Domain → Nat
  | int => 0
  | long => 1
  | float => 2
  | double => 3

/-- The wider of two machine types. -/
def join (a b : Domain) : Domain :=
  if a.rank < b.rank then b else a

/-- The kind of the numbers of a machine type. -/
def kind : Domain → Kind
  | int => .integer
  | long => .long
  | float => .float
  | double => .double

end Domain

/-- The machine type of one operand. -/
def Kind.domain : Kind → Domain
  | .byte | .integer | .char => .int
  | .long => .long
  | .float => .float
  | .double => .double

/-- The machine type in which two kinds meet. -/
def domain (left right : Kind) : Domain :=
  left.domain.join right.domain

/-- The machine type of a result, whatever the operator. -/
def resultDomain : Kind → Kind → Domain
  | .byte, .byte => .int
  | .byte, .char => .int
  | .byte, _ => .double
  | .integer, .float => .float
  | .integer, .long => .long
  | .integer, .double => .double
  | .integer, _ => .int
  | .float, .double => .double
  | .float, _ => .float
  | .long, .float => .float
  | .long, .double => .double
  | .long, _ => .long
  | .double, _ => .double
  | .char, .char => .int
  | .char, _ => .double

/-- The machine type of a result. The remainder of a double by a character is an integer. -/
def resultFor (op : ArithmeticOp) (left right : Kind) : Domain :=
  if op = .remainder ∧ left = .double ∧ right = .char then .int else resultDomain left right

/-- The kind of the result of an operation. -/
def resultKind (op : ArithmeticOp) (left right : Kind) : Kind :=
  (resultFor op left right).kind

/-- The number as one of a machine type. -/
def promote (n : Number) : Domain → Number
  | .int => .integer n.toInt32
  | .long => .long n.toInt64
  | .float => .float n.toSingle
  | .double => .double n.toDouble

/-! ## Arithmetic -/

/-- Arithmetic on 32 bits, which wraps. There is no quotient or remainder by zero. -/
def int32Arithmetic? (op : ArithmeticOp) (a b : Int32) : Option Int32 :=
  match op with
  | .add => some (a + b)
  | .subtract => some (a - b)
  | .multiply => some (a * b)
  | .divide => if b = 0 then none else some (a / b)
  | .remainder => if b = 0 then none else some (a % b)

/-- Arithmetic on 64 bits, which wraps. There is no quotient or remainder by zero. -/
def int64Arithmetic? (op : ArithmeticOp) (a b : Int64) : Option Int64 :=
  match op with
  | .add => some (a + b)
  | .subtract => some (a - b)
  | .multiply => some (a * b)
  | .divide => if b = 0 then none else some (a / b)
  | .remainder => if b = 0 then none else some (a % b)

def floatArithmetic {f : Format} (op : ArithmeticOp) (a b : Binary f) : Binary f :=
  match op with
  | .add => a.add b
  | .subtract => a.sub b
  | .multiply => a.mul b
  | .divide => a.div b
  | .remainder => a.rem b

/-- The operation carried out in a machine type. -/
def native? (op : ArithmeticOp) (left right : Number) : Domain → Option Number
  | .int => (int32Arithmetic? op left.toInt32 right.toInt32).map .integer
  | .long => (int64Arithmetic? op left.toInt64 right.toInt64).map .long
  | .float => some (.float (floatArithmetic op left.toSingle right.toSingle))
  | .double => some (.double (floatArithmetic op left.toDouble right.toDouble))

/-- The result of an operation; there is none for a division of whole numbers by zero. -/
def arithmetic? (op : ArithmeticOp) (left right : Number) : Option Number :=
  (native? op left right (domain left.kind right.kind)).map fun result =>
    result.promote (resultFor op left.kind right.kind)

/-! ## Comparison -/

/-- How near two numbers must be to count as equal. -/
inductive Tolerance where
  | exact
  | floatMixed
  | floatSingle
  | doubleMixed
  | doubleSingle
deriving DecidableEq, Repr

namespace Tolerance

/-- The difference below which two numbers count as equal. -/
def epsilon : Tolerance → Double
  | exact => .zero false
  | floatMixed => .ofDecimal .double false 1 (-4)
  | floatSingle => .ofDecimal .double false 1 (-6)
  | doubleMixed => .ofDecimal .double false 1 (-6)
  | doubleSingle => .ofDecimal .double false 1 (-12)

end Tolerance

/-- Doubles among themselves are compared more closely than with other kinds, and
so are floats; whole numbers and characters are compared exactly. -/
def tolerance : Kind → Kind → Tolerance
  | .double, .double => .doubleSingle
  | .double, _ => .doubleMixed
  | _, .double => .doubleMixed
  | .float, .float => .floatSingle
  | .float, _ => .floatMixed
  | _, .float => .floatMixed
  | _, _ => .exact

/-- The difference of two numbers is on one side of a bound: below it where they are
to be equal, above it where they are to differ. -/
def differs {f : Format} (bound x y : Binary f) (equal : Bool) : Bool :=
  if equal then ((x.sub y).abs).lt bound else bound.lt (x.sub y).abs

/-- Whether two numbers are equal, or whether they differ. -/
def equality (left right : Number) (equal : Bool) : Bool :=
  let near := tolerance left.kind right.kind
  match near with
  | .exact =>
    let same :=
      match domain left.kind right.kind with
      | .int => left.toInt32 = right.toInt32
      | _ => left.toInt64 = right.toInt64
    same == equal
  | .floatMixed | .floatSingle =>
    differs (near.epsilon.convert .single) left.toSingle right.toSingle equal
  | .doubleMixed | .doubleSingle => differs near.epsilon left.toDouble right.toDouble equal

/-- The order of two numbers in the machine type in which they meet. -/
def order? (left right : Number) : Option Ordering :=
  match domain left.kind right.kind with
  | .int => some (compare left.toInt32.toInt right.toInt32.toInt)
  | .long => some (compare left.toInt64.toInt right.toInt64.toInt)
  | .float => left.toSingle.compare? right.toSingle
  | .double => left.toDouble.compare? right.toDouble

/-- The answer of a comparison; `is` compares no numbers. -/
def compare? (op : CompareOp) (left right : Number) : Option Bool :=
  match op with
  | .equal => some (equality left right true)
  | .notEqual => some (equality left right false)
  | .greater => some (order? left right = some .gt)
  | .greaterOrEqual => some (order? left right = some .gt ∨ order? left right = some .eq)
  | .less => some (order? left right = some .lt)
  | .lessOrEqual => some (order? left right = some .lt ∨ order? left right = some .eq)
  | .is => none

end KindScript.Number
