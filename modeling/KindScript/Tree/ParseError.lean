import KindScript.Text.Quoted
import KindScript.Token

/-!
# Parse errors

Why a run of tokens is no program, and the token at which it stops being one.
-/

namespace KindScript

namespace Tree

/-- The greatest height of an expression. -/
def maxHeight : Nat := 256

/-- How many parentheses and blocks may be open at once. -/
def maxGroups : Nat := 128

end Tree

namespace ParseError

inductive Cause where
  | expected (kind : Token.Kind)
  | unexpected
  | tooManyGroups
  | tooHigh
  | uninitializedConstant (name : String)
  | unknownAssignment
  | unknownOperator
  | charLength
  | unsignedKind
  | invalidLiteral (text : String)
deriving DecidableEq, Repr

end ParseError

structure ParseError where
  cause : ParseError.Cause
  token : Token
deriving DecidableEq, Repr

namespace ParseError

/-- What is wrong, without the token that was found. -/
def reason (e : ParseError) : String :=
  match e.cause with
  | .expected kind => "Expected [" ++ kind.name ++ "] but found [" ++ e.token.kind.name ++ "]"
  | .unexpected => "Invalid or unimplemented token [" ++ e.token.kind.name ++ "]"
  | .tooManyGroups => "Nesting exceeds the limit of " ++ Tree.maxGroups.repr
  | .tooHigh => "Expression exceeds the depth limit of " ++ Tree.maxHeight.repr
  | .uninitializedConstant name => "Constant '" ++ name ++ "' must be initialized"
  | .unknownAssignment => "Unknown assignment operator"
  | .unknownOperator => "Unknown binary operator"
  | .charLength => "Char literal must hold exactly one character"
  | .unsignedKind => "[" ++ e.token.kind.name ++ "] is not a signed numeric literal"
  | .invalidLiteral text => "Invalid " ++ e.token.kind.name ++ " literal '" ++ text ++ "'"

def message (e : ParseError) : String :=
  e.reason ++ " (found " ++ e.token.kind.name ++ " " ++ Text.quoted e.token.text ++ ")"

end ParseError

end KindScript
