import KindScript.Proofs.Scanning.Lookahead
import KindScript.Proofs.Scanning.Offsets

/-!
# Scanning line by line

A newline ends a text as well as its end does: what is scanned before it does not depend
on what follows, and what follows is scanned as a text of its own, further down. A
newline inside a string or a comment is no such place, since the text before it alone
cannot be scanned.
-/

namespace KindScript

/-! ## Places further down -/

/-- The same column some lines further down. -/
def Position.down (n : Nat) (p : Position) : Position :=
  ⟨p.line + n, p.column⟩

/-- The same token some lines further down. -/
def Token.down (n : Nat) (t : Token) : Token :=
  { t with start := t.start.down n, stop := t.stop.down n }

/-- The same error some lines further down. -/
def ScanError.down (n : Nat) (e : ScanError) : ScanError :=
  { e with position := e.position.down n }

theorem Position.shift_down (n : Nat) (p : Position) : (first.down n).shift p = p.down n := by
  have line : 1 + n + p.line - 1 = p.line + n := by omega
  have column : 1 + p.column - 1 = p.column := by omega
  rw [shift, down, down, first, line, column, ite_self]

/-- The first place after a text and a newline. -/
theorem Position.step_advance_first (cs : List Char) :
    (Position.first.advance cs).step '\n' = Position.first.down (cs.count '\n' + 1) := by
  rw [Scanning.advance_first, Scanning.placeAt, List.take_length]
  show Position.mk (1 + cs.count '\n' + 1) 1 = ⟨1 + (cs.count '\n' + 1), 1⟩
  rw [Nat.add_assoc]

namespace Scanning

open Token

/-- A text that begins at the first column is scanned as it is alone, further down. -/
theorem shifted_down (n : Nat) (result : Except ScanError (List Token)) :
    shifted (Position.first.down n) result =
      (result.map (List.map (Token.down n))).mapError (ScanError.down n) := by
  have token : Token.shift (Position.first.down n) = Token.down n := by
    funext t
    rw [Token.shift, Token.down, Position.shift_down, Position.shift_down]
  have error : ScanError.shift (Position.first.down n) = ScanError.down n := by
    funext e
    rw [ScanError.shift, ScanError.down, Position.shift_down]
  rw [shifted, token, error]

/-! ## Two texts -/

/-- A newline ends every lexeme. -/
theorem lexeme_append_newline {c : Char} {s : List Char} {piece : Piece}
    (read : (lexeme c s).outcome = .ok piece) (t : List Char) :
    lexeme c (s ++ '\n' :: t) =
      found piece (lexeme c s).read ((lexeme c s).rest ++ '\n' :: t) := by
  refine settles_lexeme c s _ piece _ read (Alike.append_newline 2 _ t) ?_
  rw [← List.append_assoc, lexeme_split, List.cons_append]

/-- Where the text before a newline can be scanned, its tokens come first, without the end
mark, and what follows the newline is scanned from there on. -/
theorem scanFrom_append_newline {place : Position} {s : List Char} {tokens : List Token}
    (scanned : (scanFrom place s).1 = .ok tokens) (t : List Char) :
    ∃ words, tokens = words ++ [endOfFile (place.advance s)] ∧
      (scanFrom place (s ++ '\n' :: t)).1 =
        (scanFrom ((place.advance s).step '\n') t).1.map (words ++ ·) := by
  fun_induction scanFrom place s generalizing tokens with
  | case1 place =>
    cases scanned
    refine ⟨[], rfl, ?_⟩
    rw [List.nil_append, scanFrom_blank rfl, Position.advance_nil]
    cases (scanFrom (place.step '\n') t).1 <;> rfl
  | case2 place c rest blank ih =>
    obtain ⟨words, split, run⟩ := ih scanned
    refine ⟨words, split, ?_⟩
    rw [List.cons_append, scanFrom_blank blank, run, Position.advance_cons]
  | case3 => cases scanned
  | case4 place c rest notBlank after piece read none =>
    rename_i ih
    obtain ⟨words, split, run⟩ := ih scanned
    have longer := lexeme_append_newline read t
    have advanced : place.advance (c :: rest) = after.advance (lexeme c rest).rest := by
      rw [← Position.advance_append, lexeme_split]
    cases piece with
    | word => cases none
    | comment =>
      refine ⟨words, advanced ▸ split, ?_⟩
      rw [advanced, ← run, List.cons_append, scanFrom, if_neg notBlank]
      simp only [longer, found, Piece.token?]
      rfl
  | case5 place c rest notBlank after piece read token some later =>
    rename_i ih
    obtain ⟨more, done, rfl⟩ := map_eq_ok.mp scanned
    obtain ⟨words, split, run⟩ := ih done
    have longer := lexeme_append_newline read t
    have advanced : place.advance (c :: rest) = after.advance (lexeme c rest).rest := by
      rw [← Position.advance_append, lexeme_split]
    cases piece with
    | comment => cases some
    | word kind text =>
      cases some
      refine ⟨⟨kind, text, place, after⟩ :: words, by rw [split, advanced]; rfl, ?_⟩
      rw [advanced, List.cons_append, scanFrom, if_neg notBlank]
      simp only [longer, found, Piece.token?]
      show ((scanFrom after _).1.map _) = _
      rw [run]
      cases (scanFrom ((after.advance (lexeme c rest).rest).step '\n') t).1 <;> rfl

/-- A text that can be scanned, a newline and any other text are scanned as the two texts
are alone: the tokens of the first one without its end mark and those of the second one, or
the error of the second one, as many lines further down as end before it. -/
theorem tokenize_append_newline {a : String} {tokens : List Token}
    (scanned : tokenize a = .ok tokens) (b : String) :
    ∃ words, tokens = words ++ [endOfFile (Position.first.advance a.toList)] ∧
      (∀ later, tokenize b = .ok later →
        tokenize (a ++ "\n" ++ b) =
          .ok (words ++ later.map (Token.down (a.toList.count '\n' + 1)))) ∧
      ∀ e, tokenize b = .error e →
        ∃ e', tokenize (a ++ "\n" ++ b) = .error e' ∧ e'.message = e.message ∧
          e'.position = e.position.down (a.toList.count '\n' + 1) := by
  rw [tokenize, Cursor.ofSource, Cursor.scan] at scanned
  obtain ⟨words, split, run⟩ := scanFrom_append_newline scanned b.toList
  have text : (a ++ "\n" ++ b).toList = a.toList ++ '\n' :: b.toList := by simp
  have whole : tokenize (a ++ "\n" ++ b) =
      (((tokenize b).map (List.map (Token.down (a.toList.count '\n' + 1)))).mapError
        (ScanError.down (a.toList.count '\n' + 1))).map (words ++ ·) := by
    rw [tokenize, Cursor.ofSource, Cursor.scan, text, run, Position.step_advance_first,
      scanFrom_eq, String.ofList_toList, shifted_down]
  refine ⟨words, split, fun later done => ?_, fun e failed => ?_⟩
  · rw [whole, done]
    rfl
  · rw [whole, failed]
    exact ⟨_, rfl, rfl, rfl⟩

/-- A point and a slash at the end of a line, which would go on if the next one went on there. -/
private def cutLine : String :=
  "1./"

private def cutTokens : List Token :=
  [⟨.integer, "1", ⟨1, 1⟩, ⟨1, 2⟩⟩, ⟨.dot, ".", ⟨1, 2⟩, ⟨1, 3⟩⟩,
    ⟨.binaryOperator, "/", ⟨1, 3⟩, ⟨1, 4⟩⟩, endOfFile ⟨1, 4⟩]

theorem tokenize_append_newline_cut :
    tokenize cutLine = .ok cutTokens ∧
      tokenize (cutLine ++ "\n" ++ "=5") =
        .ok (cutTokens.dropLast ++ [⟨.equalsOperator, "=", ⟨2, 1⟩, ⟨2, 2⟩⟩,
          ⟨.integer, "5", ⟨2, 2⟩, ⟨2, 3⟩⟩, endOfFile ⟨2, 3⟩]) ∧
      ∃ e, tokenize (cutLine ++ "\n" ++ " |") = .error e ∧ e.position = ⟨2, 2⟩ := by
  have scanned : tokenize cutLine = .ok cutTokens := by cbv
  have later : tokenize "=5" = .ok [⟨.equalsOperator, "=", ⟨1, 1⟩, ⟨1, 2⟩⟩,
      ⟨.integer, "5", ⟨1, 2⟩, ⟨1, 3⟩⟩, endOfFile ⟨1, 3⟩] := by cbv
  have failed : tokenize " |" = .error ⟨.loneBar, ⟨1, 2⟩⟩ := by cbv
  obtain ⟨words, split, joined, _⟩ := tokenize_append_newline scanned "=5"
  obtain ⟨_, _, _, refused⟩ := tokenize_append_newline scanned " |"
  have same : cutTokens.dropLast = words := by rw [split, List.dropLast_concat]
  obtain ⟨e, run, _, place⟩ := refused _ failed
  refine ⟨scanned, ?_, e, run, place⟩
  rw [joined _ later, same]
  rfl

end Scanning

end KindScript
