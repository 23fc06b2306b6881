import KindScript.Compile
import KindScript.Proofs.Parsing.Descent
import KindScript.Proofs.Scanning.Faults

/-!
# The places of errors

The place that an error of scanning or parsing reports is in the source. A fault of scanning
is at a character. An error of parsing is at a token that stands neither before a statement
that is being read nor after the token at which the parser stops.
-/

namespace KindScript

open KindScript.Tree Descent Scanning

/-- A statement that begins at the index of its first token is being read when the parser
fails: the parser has come to it, and it is not read to its end. -/
def Unfinished (tokens : List Token) (first : Nat) : Prop :=
  ∃ room ts stop, Comes (program tokens) ⟨.statement, room, ts⟩ ∧
    Goal.outcome ⟨.statement, room, ts⟩ = .error stop ∧
    first + ts.length = (program tokens).tokens.length

/-- The index of the token at which a parser of the tokens stands. -/
def standing (tokens : List Token) (parser : Parser) : Nat :=
  (program tokens).tokens.length - parser.rest.length

/-- The token of the error is one of the tokens of the source. It does not stand before a
statement that is being read, and there is one, nor after the token at which the parser
stands, and it begins at a place of the source. -/
structure Located (source : String) (tokens : List Token) (e : ParseError) : Prop where
  among : e.token ∈ tokens
  begun : ∃ first, Unfinished tokens first
  index : ∀ i, tokens[i]? = some e.token →
    (∀ first, Unfinished tokens first → first ≤ i) ∧
      i ≤ standing tokens (Parser.ofTokens tokens).tree.2
  place : ∃ k ≤ source.toList.length, e.token.start = placeAt source.toList k

/-! ## Errors of the parser -/

section Errors

variable {tokens words : List Token} {mark : Token} {stop : Stop} {e : ParseError}

theorem marker_of_split (split : tokens = words ++ [mark]) (ends : mark.kind = .endOfFile)
    (plain : ∀ t ∈ words, t.kind ≠ .endOfFile) :
    (program tokens).tokens = words ∧ (Parser.ofTokens tokens).marker = mark := by
  have all : ∀ t ∈ words, decide (t.kind ≠ .endOfFile) = true := fun t mem =>
    decide_eq_true (plain t mem)
  subst split
  constructor
  · show (words ++ [mark]).takeWhile _ = words
    rw [List.takeWhile_append_of_pos all]
    simp [ends]
  · show ((words ++ [mark]).find? _).getD _ = mark
    have none : words.find? (·.kind = .endOfFile) = none := by
      rw [List.find?_eq_none]
      intro t mem
      simpa using plain t mem
    rw [List.find?_append, none]
    simp [ends]

/-- A run of statements that fails has come to a statement that fails. -/
theorem exists_statement {inBlock : Bool} {room : Nat} {ts : List Token}
    (failed : Goal.outcome ⟨.body inBlock, room, ts⟩ = .error stop) :
    ∃ us, Comes ⟨.body inBlock, room, ts⟩ ⟨.statement, room, us⟩ ∧
      Goal.outcome ⟨.statement, room, us⟩ = .error stop := by
  obtain ⟨g', calls, failed'⟩ := body_cases failed
  cases calls with
  | first going => exact ⟨_, .single (.first going), failed'⟩
  | next going run =>
    have := (Tree.statement room).moves run
    obtain ⟨us, comes, error⟩ := exists_statement failed'
    exact ⟨us, .head (.next going run) comes, error⟩
termination_by ts.length

/-- The error of a goal that the parser has come to is at one of the goal's own tokens. -/
theorem index_of_comes {g : Goal} (split : tokens = words ++ [mark])
    (words_eq : (program tokens).tokens = words) (comes : Comes (program tokens) g)
    (failed : g.outcome = .error stop) :
    ∃ i, tokens[i]? = some (stop.token.getD mark) ∧
      words.length ≤ i + g.tokens.length ∧ i + stop.rest.length ≤ words.length := by
  obtain ⟨h, comes', _, finds⟩ := exists_finds failed
  obtain ⟨before, whole⟩ := Comes.suffix (comes.trans comes')
  have shorter := comes'.suffix.length_le
  obtain ⟨read, tokens_eq, place⟩ := finds.points
  rw [words_eq, tokens_eq] at whole
  have length := congrArg List.length whole
  have length' := congrArg List.length tokens_eq
  simp only [List.length_append] at length length'
  have split : tokens = before ++ (read ++ (stop.rest ++ [mark])) := by
    rw [split, ← whole]
    simp only [List.append_assoc]
  rcases place with here | ⟨t, mem, same⟩
  · refine ⟨before.length + read.length, ?_, by omega, by omega⟩
    rw [split, here, ← List.append_assoc, ← List.length_append,
      List.getElem?_append_right (Nat.le_refl _), Nat.sub_self]
    cases stop.rest with
    | nil => rfl
    | cons t rest => rfl
  · obtain ⟨j, lt, found⟩ := List.getElem_of_mem mem
    refine ⟨before.length + j, ?_, by omega, by omega⟩
    rw [split, same, List.getElem?_append_right (Nat.le_add_right _ _), Nat.add_sub_cancel_left,
      List.getElem?_append_left lt, List.getElem?_eq_getElem lt, found]
    rfl

theorem located_of_parse {source : String} (scanned : tokenize source = .ok tokens)
    (failed : parse tokens = .error e) : Located source tokens e := by
  have tiles := tiles_of_tokenize scanned
  obtain ⟨words, mark, split, ends, plain⟩ := tiles.exists_words
  obtain ⟨words_eq, marker⟩ := marker_of_split split ends plain
  obtain ⟨stop, outcome, rfl, rest⟩ := exists_stop failed
  obtain ⟨us, comes, error⟩ := exists_statement outcome
  obtain ⟨i, found, _, below⟩ := index_of_comes split words_eq .refl outcome
  rw [marker]
  have among : stop.token.getD mark ∈ tokens := List.mem_of_getElem? found
  -- Each token begins after the one before it, so no two of them are the same.
  have unique {j : Nat} (other : tokens[j]? = some (stop.token.getD mark)) : j = i := by
    obtain ⟨lt, _⟩ := List.getElem?_eq_some_iff.mp other
    exact (List.getElem?_inj lt tiles.nodup).mp (other.trans found.symm)
  constructor
  case among => exact among
  case begun =>
    have shorter : us.length ≤ (program tokens).tokens.length := comes.suffix.length_le
    exact ⟨(program tokens).tokens.length - us.length, _, us, stop, comes, error, by omega⟩
  case index =>
    intro j other
    rw [unique other]
    constructor
    · -- The parser fails with the error of the statement, and so at a token of the statement.
      rintro first ⟨room, ts, stop', comes', error', length⟩
      have same := comes'.fails error'
      rw [outcome] at same
      cases same
      obtain ⟨k, found', above, _⟩ := index_of_comes split words_eq comes' error'
      rw [words_eq] at length
      have same := unique found'
      simp only at above
      omega
    · rw [standing, rest, words_eq]
      omega
  case place =>
    obtain ⟨k, _, most, start⟩ := tiles.start _ among
    exact ⟨k, most, start⟩

end Errors

/-! ## Errors of a compilation -/

/-- The message says in which line and column of the file the place is. -/
def Reports (path : String) (place : Position) (message : String) : Prop :=
  ∃ reason, message = reason ++ ("\n  --> " ++ path ++ ":" ++ place.text)

theorem reports_scanning (path : String) (e : ScanError) :
    Reports path e.position (CompileError.scanning path e).message :=
  ⟨"LexError: " ++ e.message, rfl⟩

theorem reports_parsing (path : String) (e : ParseError) :
    Reports path e.token.start (CompileError.parsing path e).message :=
  ⟨"ParseError: " ++ e.message, rfl⟩

/-- A source that does not compile for another reason than its values cannot be scanned or
cannot be parsed. -/
theorem compileSource_error {path source : String} {e : CompileError}
    (failed : compileSource path source = .error e) :
    (∃ cause, e = .evaluation path cause) ∨
      (∃ fault, tokenize source = .error fault ∧ e = .scanning path fault) ∨
      ∃ tokens refused, tokenize source = .ok tokens ∧ parse tokens = .error refused ∧
        e = .parsing path refused := by
  unfold compileSource at failed
  split at failed
  · rename_i fault error
    exact .inr (.inl ⟨fault, error, (Except.error.inj failed).symm⟩)
  · rename_i tokens scanned
    split at failed
    · rename_i refused error
      exact .inr (.inr ⟨tokens, refused, scanned, error, (Except.error.inj failed).symm⟩)
    · split at failed
      · exact .inl ⟨_, (Except.error.inj failed).symm⟩
      · cases failed

/-- Every error of scanning is at a character, every error of parsing at a token of the
statement that is being read, and the place in the message of either is in the source. -/
theorem error_located (source : String) :
    (∀ e, tokenize source = .error e →
      ∃ i < source.toList.length, e.position = placeAt source.toList i) ∧
    (∀ tokens e, tokenize source = .ok tokens → parse tokens = .error e →
      Located source tokens e) ∧
    ∀ path e, compileSource path source = .error e →
      (∃ cause, e = .evaluation path cause) ∨
      ∃ k ≤ source.toList.length, Reports path (placeAt source.toList k) e.message := by
  refine ⟨fun e => exists_of_tokenize, fun tokens e => located_of_parse, ?_⟩
  intro path e failed
  rcases compileSource_error failed with
    evaluation | ⟨fault, error, rfl⟩ | ⟨tokens, refused, scanned, error, rfl⟩
  · exact .inl evaluation
  · obtain ⟨k, lt, place⟩ := exists_of_tokenize error
    exact .inr ⟨k, Nat.le_of_lt lt, place ▸ reports_scanning path fault⟩
  · obtain ⟨k, le, place⟩ := (located_of_parse scanned error).place
    exact .inr ⟨k, le, place ▸ reports_parsing path refused⟩

/-- A number out of range in a block after another statement. -/
private def outOfRange : String :=
  "a;\n\x7b x = 99999999999 \x7d"

private def outOfRangeTokens : List Token :=
  [⟨.identifier, "a", ⟨1, 1⟩, ⟨1, 2⟩⟩, ⟨.semicolon, ";", ⟨1, 2⟩, ⟨1, 3⟩⟩,
    ⟨.openBrace, "\x7b", ⟨2, 1⟩, ⟨2, 2⟩⟩, ⟨.identifier, "x", ⟨2, 3⟩, ⟨2, 4⟩⟩,
    ⟨.equalsOperator, "=", ⟨2, 5⟩, ⟨2, 6⟩⟩, ⟨.integer, "99999999999", ⟨2, 7⟩, ⟨2, 18⟩⟩,
    ⟨.closeBrace, "\x7d", ⟨2, 19⟩, ⟨2, 20⟩⟩, .endOfFile ⟨2, 20⟩]

private def outOfRangeError : ParseError :=
  ⟨.invalidLiteral "99999999999", ⟨.integer, "99999999999", ⟨2, 7⟩, ⟨2, 18⟩⟩⟩

/-- A code that its string cuts off, on the second line. -/
private def cutOff : String :=
  "a;\n \"\\u12\""

private def cutOffError : ScanError :=
  ⟨.codeDigit .unicode, ⟨2, 3⟩⟩

theorem error_located_samples :
    (tokenize cutOff = .error cutOffError ∧
      ∃ i < cutOff.toList.length, cutOffError.position = placeAt cutOff.toList i) ∧
    (tokenize outOfRange = .ok outOfRangeTokens ∧ parse outOfRangeTokens = .error outOfRangeError ∧
      Located outOfRange outOfRangeTokens outOfRangeError) ∧
    compileSource "a.ks" outOfRange = .error (.parsing "a.ks" outOfRangeError) ∧
      ∃ k ≤ outOfRange.toList.length, Reports "a.ks" (placeAt outOfRange.toList k)
        (CompileError.parsing "a.ks" outOfRangeError).message := by
  have error : tokenize cutOff = .error cutOffError := by cbv
  have scanned : tokenize outOfRange = .ok outOfRangeTokens := by cbv
  have refused : parse outOfRangeTokens = .error outOfRangeError := by decide +kernel
  have failed : compileSource "a.ks" outOfRange = .error (.parsing "a.ks" outOfRangeError) := by
    simp only [compileSource, scanned, refused]
  obtain ⟨scanning, _, _⟩ := error_located cutOff
  obtain ⟨_, parsing, compiling⟩ := error_located outOfRange
  refine ⟨⟨error, scanning _ error⟩, ⟨scanned, refused, parsing _ _ scanned refused⟩, failed, ?_⟩
  rcases compiling _ _ failed with ⟨cause, same⟩ | reported
  · cases same
  · exact reported

end KindScript
