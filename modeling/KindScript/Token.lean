import KindScript.Position

/-!
# Tokens

The words of the language: their kinds, the reserved words among them, and the
stretch of source that each one covers.
-/

namespace KindScript

namespace Token

/-- What a word is. `emptyToken` names the place of a comment and is never handed on. -/
inductive Kind where
  | const
  | var
  | identifier
  | null
  | void
  | byte
  | integer
  | float
  | double
  | long
  | char
  | string
  | boolean
  | equalsOperator
  | binaryOperator
  | assignmentOperator
  | compareOperator
  | jointOperator
  | notOperator
  | atSign
  | dollarSign
  | questionMark
  | ampersand
  | comma
  | dot
  | colon
  | doubleColon
  | semicolon
  | openParen
  | closeParen
  | openBrace
  | closeBrace
  | openBracket
  | closeBracket
  | endOfFile
  | emptyToken
deriving DecidableEq, Repr

/-- The name of a kind in messages and dumps. -/
def Kind.name : Kind → String
  | const => "Const"
  | var => "Var"
  | identifier => "Identifier"
  | null => "Null"
  | void => "Void"
  | byte => "Byte"
  | integer => "Integer"
  | float => "Float"
  | double => "Double"
  | long => "Long"
  | char => "Char"
  | string => "String"
  | boolean => "Boolean"
  | equalsOperator => "EqualsOperator"
  | binaryOperator => "BinaryOperator"
  | assignmentOperator => "AssignmentOperator"
  | compareOperator => "CompareOperator"
  | jointOperator => "JointOperator"
  | notOperator => "NotOperator"
  | atSign => "AtSign"
  | dollarSign => "DollarSign"
  | questionMark => "QuestionMark"
  | ampersand => "Ampersand"
  | comma => "Comma"
  | dot => "Dot"
  | colon => "Colon"
  | doubleColon => "DoubleColon"
  | semicolon => "Semicolon"
  | openParen => "OpenParen"
  | closeParen => "CloseParen"
  | openBrace => "OpenBrace"
  | closeBrace => "CloseBrace"
  | openBracket => "OpenBracket"
  | closeBracket => "CloseBracket"
  | endOfFile => "EndOfFile"
  | emptyToken => "EmptyToken"

/-- Every kind, in the order in which the language lists them. -/
def Kind.all : List Kind :=
  [const, var, identifier, null, void, byte, integer, float, double, long, char, string,
   boolean, equalsOperator, binaryOperator, assignmentOperator, compareOperator, jointOperator,
   notOperator, atSign, dollarSign, questionMark, ampersand, comma, dot, colon, doubleColon,
   semicolon, openParen, closeParen, openBrace, closeBrace, openBracket, closeBracket,
   endOfFile, emptyToken]

theorem Kind.mem_all (kind : Kind) : kind ∈ Kind.all := by
  cases kind <;> decide

/-- The reserved words and the kind that each one has. -/
def keywords : List (String × Kind) :=
  [("const", .const), ("var", .var), ("void", .void), ("null", .null), ("true", .boolean),
   ("false", .boolean), ("and", .jointOperator), ("or", .jointOperator), ("not", .notOperator)]

/-- A word is of its reserved kind, or an identifier. -/
def kindOfWord (word : String) : Kind :=
  (keywords.lookup word).getD .identifier

end Token

/-- A word of the source: `text` is its decoded text and `stop` the place after
its last character. -/
structure Token where
  kind : Token.Kind
  text : String
  start : Position
  stop : Position
deriving DecidableEq, Repr

namespace Token

/-- The mark after the last word. -/
def endOfFile (place : Position) : Token :=
  ⟨.endOfFile, "", place, place⟩

end Token

end KindScript
