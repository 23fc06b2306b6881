import KindScript.Proofs.Parsing.Descent
import KindScript.Proofs.Parsing.Rendering
import Mathlib.Data.List.Basic

/-!
# Programs one after another

A semicolon after a program that does not end in one parts it from whatever follows: the
statements before it are read as they are alone, with all groups closed again, and what
comes after it is read as a program of its own, with its own error if it has one.
-/

namespace KindScript.Grammar

open KindScript.Tree

/-! ## Statements before a semicolon -/

section Sequences

variable {room : Nat} {item : Rule Statement}

theorem Body.ne_nil {ts : List Token} {s : Statement} {more : List Statement}
    (spelled : Body ts (s :: more)) : ts ≠ [] := by
  cases spelled with
  | cons first =>
    obtain ⟨t, us, rfl, _⟩ := first.head
    exact List.cons_ne_nil t _

/-- Statements that end without a semicolon are read alike where one follows, and reading
goes on after it. -/
theorem sequence_append (items : ReadsSentences room item) {ts : List Token}
    {body : List Statement} (fits : BodyFits room ts body) (some : body ≠ [])
    (unended : ∀ t ∈ ts.getLast?, t.kind ≠ .semicolon) {s : Token} (kind : s.kind = .semicolon)
    (rest : List Token) :
    Tree.sequence item (fun _ => false) (ts ++ s :: rest) =
      (Tree.sequence item (fun _ => false) rest).andThen fun later left =>
        .ok (body ++ later, left) := by
  induction body generalizing ts with
  | nil => exact absurd rfl some
  | cons first more ih =>
    cases fits.spelled with
    | @cons reaches read semicolon between _ _ sentence terminator longest spelled =>
    obtain ⟨fits', rests⟩ := (bodyFits_cons_iff sentence terminator longest spelled).mp fits
    have going (after : List Token) :
        ∃ t more, read ++ after = t :: more ∧ (fun _ => false) t = false := by
      obtain ⟨t, us, rfl, _⟩ := sentence.head
      exact ⟨t, us ++ after, rfl, rfl⟩
    cases more with
    | nil =>
      cases spelled
      -- The last statement takes the semicolon, since it has none of its own.
      obtain rfl : semicolon = [] := by
        rcases terminator with rfl | ⟨u, ends, rfl⟩
        · rfl
        · exact absurd ends (unended u (by simp))
      have run : item.run (read ++ ([s] ++ rest)) = .ok (first, rest) :=
        items.complete fits' (.inr ⟨s, kind, rfl⟩) fun none => absurd none (List.cons_ne_nil s [])
      rw [List.append_nil, List.append_nil, sequence_of_step (going (s :: rest)) run]
      rfl
    | cons second more =>
      have never : between ≠ [] := spelled.ne_nil
      have follows : Follows (between ++ s :: rest) :=
        .of_body spelled fun none => absurd none never
      have stops (none : semicolon = []) (ends : reaches = true) :
          Stops .joint (between ++ s :: rest) :=
        (longest none ends).append fun none => absurd none never
      have run := items.complete fits' terminator fun none => ⟨stops none, follows⟩
      have last : (read ++ (semicolon ++ between)).getLast? = between.getLast? := by
        rw [← List.append_assoc, List.getLast?_append_of_ne_nil _ never]
      have later := ih rests (List.cons_ne_nil second more) (last ▸ unended)
      rw [List.append_assoc, List.append_assoc, sequence_of_step (going _) run, later]
      cases Tree.sequence item (fun _ => false) rest <;> rfl

end Sequences

/-! ## Two programs -/

/-- The tokens before the end mark are read as statements, and an error after the last of them
is at the mark. -/
theorem parse_eq (tokens : List Token) :
    parse tokens =
      match Tree.sequence (Tree.statement maxGroups) (fun _ => false)
        (Parser.ofTokens tokens).rest with
      | .ok (body, _) => .ok ⟨body⟩
      | .error stop =>
        .error ⟨stop.cause, stop.token.getD (Parser.ofTokens tokens).marker⟩ := by
  have parser : parse tokens = ((Parser.ofTokens tokens).resume
      ((Tree.sequence (Tree.statement maxGroups) (fun _ => false)
        (Parser.ofTokens tokens).rest).andThen fun body rest => .ok (⟨body⟩, rest))).1 := rfl
  rw [parser]
  cases Tree.sequence (Tree.statement maxGroups) (fun _ => false)
    (Parser.ofTokens tokens).rest <;> rfl

/-- Tokens with a semicolon and others after them are read up to the same end as the others
alone. The end mark is the same too, unless there are no others. -/
theorem ofTokens_append {a : List Token} (plain : ∀ t ∈ a, t.kind ≠ .endOfFile) {s : Token}
    (kind : s.kind = .semicolon) (b : List Token) :
    (Parser.ofTokens (a ++ s :: b)).rest = a ++ s :: (Parser.ofTokens b).rest ∧
      (b ≠ [] → (Parser.ofTokens (a ++ s :: b)).marker = (Parser.ofTokens b).marker) := by
  have going : s.kind ≠ .endOfFile := by rw [kind]; decide
  constructor
  · show (a ++ s :: b).takeWhile (·.kind ≠ .endOfFile) = _
    rw [List.takeWhile_append_of_pos (by simpa using plain), List.takeWhile_cons_of_pos]
    · rfl
    · exact decide_eq_true going
  · intro some
    have none : a.find? (·.kind = .endOfFile) = none := by simpa using plain
    have ended : Parser.endOf (a ++ s :: b) = Parser.endOf b := by
      obtain ⟨t, more, rfl⟩ := List.exists_cons_of_ne_nil some
      rw [Parser.endOf, Parser.endOf, List.getLast?_append_of_ne_nil _ (List.cons_ne_nil s _),
        List.getLast?_cons_cons]
    simp [Parser.ofTokens, List.find?_append, none, going, ended]

/-- After a program that does not end in a semicolon and a semicolon every list of tokens is
parsed as it is alone: for its statements, after those of the program, or with its error. -/
theorem parse_append_semicolon {a : List Token} {first : Tree}
    (plain : ∀ t ∈ a, t.kind ≠ .endOfFile) (parsed : parse a = .ok first)
    (some : first.body ≠ []) (unended : ∀ t ∈ a.getLast?, t.kind ≠ .semicolon) {s : Token}
    (kind : s.kind = .semicolon) (b : List Token) :
    parse (a ++ [s] ++ b) = (parse b).map fun later => ⟨first.body ++ later.body⟩ := by
  have spells := spells_of_parse parsed
  have whole : a.takeWhile (·.kind ≠ .endOfFile) = a :=
    List.takeWhile_eq_self_iff.mpr fun t mem => decide_eq_true (plain t mem)
  have fits : BodyFits maxGroups a first.body := by
    constructor
    · exact whole ▸ spells.body
    · exact spells.low
    · exact whole ▸ spells.groups
  obtain ⟨rest, marker⟩ := ofTokens_append plain kind b
  rw [List.append_assoc, List.singleton_append, parse_eq, parse_eq, rest,
    sequence_append (statement_reads maxGroups) fits some unended kind]
  cases b with
  | nil =>
    have none : (Parser.ofTokens []).rest = [] := rfl
    rw [none, Tree.sequence]
    rfl
  | cons t more =>
    rw [marker (List.cons_ne_nil t more)]
    cases Tree.sequence (Tree.statement maxGroups) (fun _ => false)
      (Parser.ofTokens (t :: more)).rest <;> rfl

/-- A block, and a name that a sign would go on with. -/
private def unended : List Token :=
  [word .openBrace "\x7b", word .closeBrace "\x7d", word .identifier "x"]

private def minusOne : List Token :=
  [word .binaryOperator "-", word .integer "1"]

private def unclosed : List Token :=
  [word .openParen "(", word .identifier "x"]

theorem parse_append_semicolon_sign :
    parse unended = .ok ⟨[.block [], .expression (.identifier "x")]⟩ ∧
      parse minusOne = .ok ⟨[.expression (.literal (.number (.integer (-1))))]⟩ ∧
      parse (unended ++ [word .semicolon ";"] ++ minusOne) =
        .ok ⟨[.block [], .expression (.identifier "x"),
          .expression (.literal (.number (.integer (-1))))]⟩ ∧
      parse (unended ++ [word .semicolon ";"] ++ unclosed) =
        .error ⟨.expected .closeParen, .endOfFile .first⟩ := by
  have first : parse unended = .ok ⟨[.block [], .expression (.identifier "x")]⟩ := by
    have name : Phrase .joint [word .identifier "x"] (.identifier "x") :=
      Phrase.loosen (.name rfl) (by decide)
    have last : Body [word .identifier "x"] [.expression (.identifier "x")] :=
      .cons (.expression name) (.inl rfl) (fun _ _ => .nil) .nil
    exact parse_of_spells
      ⟨.cons (.block rfl .nil rfl) (.inl rfl) (fun _ never => nomatch never) last, by decide,
        by simp [Everywhere, withinAll, within, IsLow, value?, Expression.height, maxHeight]⟩
  have later : parse minusOne = .ok ⟨[.expression (.literal (.number (.integer (-1))))]⟩ := by
    have number : Phrase .joint minusOne (.literal (.number (.integer (-1)))) :=
      Phrase.loosen (.minus rfl rfl (.inl rfl) (by decide +kernel)) (by decide)
    exact parse_of_spells
      ⟨.cons (.expression number) (.inl rfl) (fun _ _ => .nil) .nil, by decide,
        by simp [Everywhere, withinAll, within, IsLow, value?, Expression.height, maxHeight]⟩
  have failed : parse unclosed = .error ⟨.expected .closeParen, .endOfFile .first⟩ := by
    decide +kernel
  have both (b : List Token) := parse_append_semicolon (by decide) first (List.cons_ne_nil _ _)
    (by decide) (rfl : (word .semicolon ";").kind = .semicolon) b
  refine ⟨first, later, ?_, ?_⟩
  · rw [both, later]
    rfl
  · rw [both, failed]
    rfl

end KindScript.Grammar
