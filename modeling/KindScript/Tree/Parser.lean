import KindScript.Tree.Parse

/-!
# Parsers

A parser is a list of tokens being read: those before the end, the token that
marks the end, and the room left for groups. It can be asked for an expression
or for a whole program, and asked again after that, also where it failed; the
groups that a failed reading left open stay open.
-/

namespace KindScript.Tree

structure Parser where
  rest : List Token
  marker : Token
  room : Nat
deriving DecidableEq, Repr

namespace Parser

/-- The place after the last of some tokens. -/
def endOf (tokens : List Token) : Position :=
  match tokens.getLast? with
  | some t => t.stop
  | none => .first

/-- The parser of a list of tokens. Nothing after the first end mark is read, and a
list without one gets it after its last token. -/
def ofTokens (tokens : List Token) : Parser :=
  { rest := tokens.takeWhile (·.kind ≠ .endOfFile)
    marker := (tokens.find? (·.kind = .endOfFile)).getD (.endOfFile (endOf tokens))
    room := maxGroups }

/-- What the parser answers, and what it is afterwards. -/
def resume {α : Type} (parser : Parser) (read : Parsed α) : Except ParseError α × Parser :=
  match read with
  | .ok (value, rest) => (.ok value, { parser with rest })
  | .error stop =>
    (.error ⟨stop.cause, stop.token.getD parser.marker⟩,
      { parser with rest := stop.rest, room := parser.room - stop.opened })

/-- Reads one expression. -/
def expression (parser : Parser) : Except ParseError Expression × Parser :=
  parser.resume ((Tree.expression parser.room).run parser.rest)

/-- Reads statements to the end. -/
def tree (parser : Parser) : Except ParseError Tree × Parser :=
  parser.resume
    ((sequence (statement parser.room) (fun _ => false) parser.rest).andThen
      fun body rest => .ok (⟨body⟩, rest))

end Parser

end KindScript.Tree

namespace KindScript

/-- The program that a list of tokens spells. -/
def parse (tokens : List Token) : Except ParseError Tree :=
  (Tree.Parser.ofTokens tokens).tree.1

end KindScript
