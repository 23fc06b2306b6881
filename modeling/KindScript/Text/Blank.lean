import KindScript.Text.Ranges

/-!
# White space

The Unicode property `White_Space` and the removal of white space at both ends
of a text. The blanks between the words of a program are a smaller set and are
not defined here.
-/

namespace KindScript.Text

/-- The code points that are white space. -/
def whiteSpaceRanges : Ranges :=
  [(9, 13), (32, 32), (133, 133), (160, 160), (5760, 5760), (8192, 8202), (8232, 8233),
   (8239, 8239), (8287, 8287), (12288, 12288)]

def isWhiteSpace (c : Char) : Bool :=
  whiteSpaceRanges.contains c.toNat

/-- The text without the white space at its two ends. -/
def trimmed (cs : List Char) : List Char :=
  (((cs.dropWhile isWhiteSpace).reverse).dropWhile isWhiteSpace).reverse

end KindScript.Text
