import KindScript.Operator
import KindScript.Value

/-!
# Program trees

Expressions, statements and whole programs. A literal is the value that it
stands for.
-/

namespace KindScript

inductive Expression where
  | literal (value : Value)
  | identifier (name : String)
  | binary (op : ArithmeticOp) (left right : Expression)
  | comparison (op : CompareOp) (left right : Expression)
  | joint (op : JointOp) (left right : Expression)
  | not (operand : Expression)
deriving DecidableEq

/-- The operators on the longest way from the expression to a literal or name, and
that one itself. -/
def Expression.height : Expression → Nat
  | literal _ => 1
  | identifier _ => 1
  | binary _ left right => max left.height right.height + 1
  | comparison _ left right => max left.height right.height + 1
  | joint _ left right => max left.height right.height + 1
  | not operand => operand.height + 1

inductive Statement where
  | block (body : List Statement)
  | declare (name : String) (constant : Bool) (value : Option Expression)
  /-- `name = value`, or `name op= value` where there is an operator. -/
  | assign (name : String) (op : Option ArithmeticOp) (value : Expression)
  | expression (value : Expression)

structure Tree where
  body : List Statement

end KindScript
