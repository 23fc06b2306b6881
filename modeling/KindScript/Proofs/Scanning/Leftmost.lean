import KindScript.Proofs.Scanning.Faults

/-!
# The leftmost error

A source that cannot be scanned has a first lexeme that is spoiled. What stands before the
lexeme can be scanned, and what begins with it fails for the same reason, so nothing before
it was misread for what follows. The error is at the lexeme, or at the backslash of an escape
in it.
-/

namespace KindScript.Scanning

open Token

/-- At the index `j` is the backslash of an escape in the literal that begins at `i`. -/
structure EscapeAt (text : List Char) (i j : Nat) : Prop where
  after : i < j
  backslash : text[j]? = some '\\'
  literal : (text[i]? = some '"' ∧ ∃ value, Units StringRaw (slice text (i + 1) j) value) ∨
    text[i]? = some '\'' ∧ j = i + 1

/-- The error is that of a lexeme that begins at the index. -/
structure Leftmost (text : List Char) (e : ScanError) (i : Nat) : Prop where
  inside : i < text.length
  before : ∃ tokens, tokenize (String.ofList (text.take i)) = .ok tokens
  after : ∃ e', tokenize (String.ofList (text.drop i)) = .error e' ∧ e'.message = e.message
  start : ¬ e.cause.IsEscape → e.position = placeAt text i
  escape : e.cause.IsEscape → ∃ j, EscapeAt text i j ∧ e.position = placeAt text j
  /-- What is never closed is opened there. -/
  opening : ∀ opening ∈ e.cause.opening?, opening <+: text.drop i

theorem opening?_of_isEscape {cause : ScanError.Cause} (escape : cause.IsEscape) :
    cause.opening? = none := by
  cases cause <;> first | rfl | exact escape.elim

theorem escapeAt_of_literal {before inside tail : List Char} {c : Char}
    (literal : (c = '"' ∧ ∃ value, Units StringRaw inside value) ∨ c = '\'' ∧ inside = []) :
    EscapeAt (before ++ c :: (inside ++ '\\' :: tail)) before.length
      (before.length + 1 + inside.length) := by
  have start : (before ++ c :: (inside ++ '\\' :: tail))[before.length]? = some c := by simp
  constructor
  case after => omega
  case backslash =>
    have place : before.length + 1 + inside.length = (before ++ c :: inside).length := by
      rw [List.length_append, List.length_cons]
      omega
    have split : before ++ c :: (inside ++ '\\' :: tail) =
        (before ++ c :: inside) ++ '\\' :: tail := by simp
    rw [place, split]
    simp
  case literal =>
    have between : slice (before ++ c :: (inside ++ '\\' :: tail)) (before.length + 1)
        (before.length + 1 + inside.length) = inside := by
      have cut := slice_append (before ++ [c]) inside ('\\' :: tail)
      rwa [List.length_append, List.append_assoc] at cut
    rw [start, between]
    rcases literal with ⟨rfl, units⟩ | ⟨rfl, rfl⟩
    · exact .inl ⟨rfl, units⟩
    · exact .inr ⟨rfl, rfl⟩

theorem Failure.leftmost {text before after : List Char} {e : ScanError} {c : Char} {fault : Fault}
    (failure : Failure .first text e before c after fault) : Leftmost text e before.length := by
  obtain ⟨split, notBlank, scanned, failed, rfl⟩ := failure
  have front : text.take before.length = before := by rw [split, List.take_left]
  have back : text.drop before.length = c :: after := by rw [split, List.drop_left]
  constructor
  case inside =>
    rw [split, List.length_append, List.length_cons]
    omega
  case before =>
    rw [front, tokenize_ofList]
    exact scanned
  case after =>
    rw [back, tokenize_ofList]
    exact ⟨_, scanFrom_of_failed notBlank failed .first, rfl⟩
  case start =>
    intro start
    cases spoils_lexeme c after fault failed with
    | start =>
      rw [split, placeAt_append]
      rfl
    | escape escape => exact absurd escape start
  case escape =>
    intro escape
    cases spoils_lexeme c after fault failed with
    | start start => exact absurd escape start
    | @escape cause inside tail more _ literal text reads =>
      subst text
      refine ⟨before.length + 1 + inside.length, split ▸ escapeAt_of_literal literal, ?_⟩
      have passed : (lexeme c (inside ++ '\\' :: tail)).read.take (1 + inside.length) =
          c :: inside := by
        rw [reads, take_quote]
      have upTo : text.take (before.length + 1 + inside.length) = before ++ c :: inside := by
        rw [split, Nat.add_assoc, List.take_length_add_append, take_quote]
      rw [← advance_take, upTo, Position.advance_append]
      exact congrArg (Position.first.advance before).advance passed
  case opening =>
    rw [back]
    cases spoils_lexeme c after fault failed with
    | start _ opening => exact opening
    | escape escape =>
      have none := opening?_of_isEscape escape
      intro o mem
      cases none.symm.trans mem

/-- A scan error is that of the first lexeme that is spoiled. -/
theorem leftmost_of_tokenize {source : String} {e : ScanError}
    (error : tokenize source = .error e) : ∃ i, Leftmost source.toList e i := by
  obtain ⟨before, c, after, fault, failure⟩ := exists_failure error
  exact ⟨before.length, failure.leftmost⟩

/-- After a comment over two lines, a character and a number before a point, the second escape
of a string lacks a digit. -/
private def lacksDigit : String :=
  "/*\n*/'\\t' 1.\"\\x41\n\\u00g\""

theorem leftmost_of_tokenize_lacksDigit :
    tokenize lacksDigit = .error ⟨.codeDigit .unicode, ⟨3, 1⟩⟩ ∧
      ∃ i, Leftmost lacksDigit.toList ⟨.codeDigit .unicode, ⟨3, 1⟩⟩ i := by
  have failed : tokenize lacksDigit = .error ⟨.codeDigit .unicode, ⟨3, 1⟩⟩ := by cbv
  exact ⟨failed, leftmost_of_tokenize failed⟩

end KindScript.Scanning
