/-!
# Operators

The operators of expressions, their symbols in programs and messages, and their
names in dumps.
-/

namespace KindScript

inductive ArithmeticOp where
  | add
  | subtract
  | multiply
  | divide
  | remainder
deriving DecidableEq, Repr

namespace ArithmeticOp

def all : List ArithmeticOp :=
  [add, subtract, multiply, divide, remainder]

def name : ArithmeticOp → String
  | add => "Add"
  | subtract => "Subtract"
  | multiply => "Multiply"
  | divide => "Divide"
  | remainder => "Remainder"

def symbol : ArithmeticOp → String
  | add => "+"
  | subtract => "-"
  | multiply => "*"
  | divide => "/"
  | remainder => "%"

def ofSymbol? : String → Option ArithmeticOp
  | "+" => some add
  | "-" => some subtract
  | "*" => some multiply
  | "/" => some divide
  | "%" => some remainder
  | _ => none

theorem ofSymbol?_symbol (op : ArithmeticOp) : ofSymbol? op.symbol = some op := by
  cases op <;> rfl

/-- Multiplication, division and remainder bind closer than addition and subtraction. -/
def isMultiplicative : ArithmeticOp → Bool
  | add | subtract => false
  | multiply | divide | remainder => true

end ArithmeticOp

inductive CompareOp where
  | equal
  | notEqual
  | greaterOrEqual
  | lessOrEqual
  | greater
  | less
  | is
deriving DecidableEq, Repr

namespace CompareOp

def all : List CompareOp :=
  [equal, notEqual, greaterOrEqual, lessOrEqual, greater, less, is]

def name : CompareOp → String
  | equal => "Equal"
  | notEqual => "NotEqual"
  | greaterOrEqual => "GreaterOrEqual"
  | lessOrEqual => "LessOrEqual"
  | greater => "Greater"
  | less => "Less"
  | is => "Is"

def symbol : CompareOp → String
  | equal => "=="
  | notEqual => "!="
  | greaterOrEqual => ">="
  | lessOrEqual => "<="
  | greater => ">"
  | less => "<"
  | is => "is"

end CompareOp

inductive JointOp where
  | and
  | or
deriving DecidableEq, Repr

namespace JointOp

def all : List JointOp :=
  [and, or]

def name : JointOp → String
  | and => "And"
  | or => "Or"

def symbol : JointOp → String
  | and => "&&"
  | or => "||"

def apply : JointOp → Bool → Bool → Bool
  | and => Bool.and
  | or => Bool.or

end JointOp

end KindScript
