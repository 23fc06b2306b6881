import KindScript.Position

/-!
# Scan errors

Why a stretch of source is no word of the language, and the place to which the
error points.
-/

namespace KindScript

namespace ScanError

/-- The two escapes that name a character by its code. -/
inductive CodeForm where
  | unicode
  | hexadecimal
deriving DecidableEq, Repr

/-- The digits that the form takes. -/
def CodeForm.digits : CodeForm → Nat
  | unicode => 4
  | hexadecimal => 2

def CodeForm.name : CodeForm → String
  | unicode => "Unicode"
  | hexadecimal => "Hexadecimal"

inductive Cause where
  | nameOfUnderscores (name : String)
  | byteOutOfRange (digits : String)
  | unclosedString
  | unclosedChar
  | emptyChar
  | controlInChar
  | severalInChar
  | escapeCutOff
  | codeCutOff (form : CodeForm)
  | codeDigit (form : CodeForm)
  | codeOutOfRange (form : CodeForm) (digits : String)
  | loneBar
  | unrecognized (character : Char)
  | unclosedComment
deriving DecidableEq, Repr

def Cause.message : Cause → String
  | nameOfUnderscores name => "Invalid identifier name: '" ++ name ++ "'"
  | byteOutOfRange digits => "Invalid byte value: '" ++ digits ++ "'"
  | unclosedString => "Missing string closing quote"
  | unclosedChar => "Missing char closing quote"
  | emptyChar => "Missing char value"
  | controlInChar => "Invalid character in char literal"
  | severalInChar => "Char literal expects exactly one character"
  | escapeCutOff => "Incomplete escape sequence"
  | codeCutOff form => "Incomplete " ++ form.name ++ " escape sequence"
  | codeDigit form => "Invalid " ++ form.name ++ " escape sequence"
  | codeOutOfRange form digits =>
    "Invalid " ++ form.name ++ " escape sequence '" ++ digits ++ "'"
  | loneBar => "Missing second vertical bar: |"
  | unrecognized character => "Unrecognized character '" ++ character.toString ++ "'"
  | unclosedComment => "Unterminated multi-line comment"

end ScanError

structure ScanError where
  cause : ScanError.Cause
  position : Position
deriving DecidableEq, Repr

def ScanError.message (e : ScanError) : String :=
  e.cause.message

end KindScript
