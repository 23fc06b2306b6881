import KindScript.Text.Printable

/-!
# Quoted text

How error messages show the text of a token: between double quotes, with short
escapes for the usual controls and a braced hexadecimal code for every other
character that would not show.
-/

namespace KindScript.Text

/-- The quoted form of one character. -/
def quotedChar (c : Char) : String :=
  match c with
  | '"' => "\\\""
  | '\\' => "\\\\"
  | '\n' => "\\n"
  | '\r' => "\\r"
  | '\t' => "\\t"
  | _ =>
    if c = Char.ofNat 0 then "\\0"
    else if isPrintable c then c.toString
    else "\\u\x7b" ++ String.ofList (Nat.toDigits 16 c.toNat) ++ "\x7d"

/-- The text between double quotes, each character in its quoted form. -/
def quoted (text : String) : String :=
  "\"" ++ String.join (text.toList.map quotedChar) ++ "\""

end KindScript.Text
