import KindScript.Token.Lexeme

/-!
# Scanning

A source text as a list of tokens. A cursor is the part of a source not yet read
and its place; scanning from it stops after the end of the text or after the
first lexeme that fails, and the cursor it leaves can be scanned from again.
-/

namespace KindScript.Token

/-- The characters that separate words. -/
def isBlank (c : Char) : Bool :=
  c = ' ' || c = '\t' || c = '\r' || c = '\n'

/-- What is left of a source, and the place where it begins. -/
structure Cursor where
  place : Position
  rest : List Char
deriving DecidableEq, Repr

/-- The cursor at the begin of a source. -/
def Cursor.ofSource (source : String) : Cursor :=
  ⟨.first, source.toList⟩

/-- The token that a piece becomes between two places. A comment becomes none. -/
def Piece.token? (piece : Piece) (start stop : Position) : Option Token :=
  match piece with
  | .word kind text => some ⟨kind, text, start, stop⟩
  | .comment => none

/-- A fault of the lexeme that begins at `start`. -/
def Fault.locate (fault : Fault) (start : Position) (read : List Char) : ScanError :=
  ⟨fault.cause, start.advance (read.take fault.offset)⟩

/-- All tokens from a place on, the last one marking the end, and the cursor where
scanning stopped. -/
def scanFrom (place : Position) (s : List Char) : Except ScanError (List Token) × Cursor :=
  match s with
  | [] => (.ok [endOfFile place], ⟨place, []⟩)
  | c :: rest =>
    if isBlank c then scanFrom (place.step c) rest
    else
      let after := place.advance (lexeme c rest).read
      match (lexeme c rest).outcome with
      | .error fault =>
        (.error (fault.locate place (lexeme c rest).read), ⟨after, (lexeme c rest).rest⟩)
      | .ok piece =>
        match piece.token? place after with
        | none => scanFrom after (lexeme c rest).rest
        | some token =>
          let later := scanFrom after (lexeme c rest).rest
          (later.1.map (token :: ·), later.2)
termination_by s.length
decreasing_by
  · simp
  · exact lexeme_rest_lt c rest
  · exact lexeme_rest_lt c rest

/-- Scans on from a cursor. -/
def Cursor.scan (cursor : Cursor) : Except ScanError (List Token) × Cursor :=
  scanFrom cursor.place cursor.rest

end KindScript.Token

namespace KindScript

/-- The tokens of a source. -/
def tokenize (source : String) : Except ScanError (List Token) :=
  (Token.Cursor.ofSource source).scan.1

end KindScript
