import KindScript.Proofs.Scanning.Escapes
import KindScript.Proofs.Scanning.Lookahead
import KindScript.Proofs.Scanning.Places

/-!
# Where scanning fails

A lexeme is spoiled at its first character or, by an escape in a literal, at the backslash of
that escape. So a source that cannot be scanned has a character at the place of its error.
-/

namespace KindScript

/-- The characters that open what the error misses the end of. -/
def ScanError.Cause.opening? : ScanError.Cause → Option (List Char)
  | .unclosedString => some ['"']
  | .unclosedChar => some ['\'']
  | .unclosedComment => some ['/', '*']
  | _ => none

namespace Scanning

open Token

variable {α β : Type}

/-! ## Readings -/

/-- A fault of the reading is at the begin of the text, and what it misses the end of begins
there. -/
def FailsAtStart (text : List Char) (r : Reading α) : Prop :=
  ∀ fault, r.outcome = .error fault →
    fault.offset = 0 ∧ ¬ fault.cause.IsEscape ∧ ∀ o ∈ fault.cause.opening?, o <+: text

namespace FailsAtStart

variable {text read rest : List Char} {r : Reading α}

theorem of_failed {cause : ScanError.Cause} (escape : ¬ cause.IsEscape)
    (opening : ∀ o ∈ cause.opening?, o <+: text) :
    FailsAtStart text (failed (α := α) cause read rest) := by
  intro fault error
  cases error
  exact ⟨rfl, escape, opening⟩

theorem of_plain {cause : ScanError.Cause} (escape : ¬ cause.IsEscape)
    (plain : cause.opening? = none) :
    FailsAtStart text (failed (α := α) cause read rest) := by
  apply of_failed escape
  intro o mem
  rw [plain] at mem
  cases mem

theorem of_found (value : α) : FailsAtStart text (found value read rest) := by
  intro fault error
  cases error

theorem after (fails : FailsAtStart text r) (cs : List Char) : FailsAtStart text (r.after cs) :=
  fails

end FailsAtStart

theorem failsAtStart_suffixed (text digits read rest : List Char) (fractional : Bool) :
    FailsAtStart text (suffixed digits read rest fractional) := by
  unfold suffixed
  simp only
  split
  · exact .of_found _
  · split
    · exact .of_found _
    · split
      · exact .of_plain id rfl
      · exact .of_found _

theorem failsAtStart_number (text s : List Char) : FailsAtStart text (number s) := by
  unfold number
  simp only
  split
  · split <;> exact failsAtStart_suffixed _ _ _ _ _
  · exact failsAtStart_suffixed _ _ _ _ _

theorem failsAtStart_pointed (text s : List Char) : FailsAtStart text (pointed s) := by
  unfold pointed
  simp only
  split
  · exact .of_found _
  · exact failsAtStart_suffixed _ _ _ _ _

theorem failsAtStart_name (text s : List Char) : FailsAtStart text (name s) := by
  unfold name
  simp only
  split
  · exact .of_plain id rfl
  · exact .of_found _

theorem failsAtStart_charEnd (s : List Char) (c : Char) (read rest : List Char) :
    FailsAtStart ('\'' :: s) (charEnd c read rest) := by
  unfold charEnd
  split
  · exact .of_failed id (by simp [ScanError.Cause.opening?])
  · exact .of_found _
  · exact .of_plain id rfl

theorem failsAtStart_blockComment (s t : List Char) :
    FailsAtStart ('/' :: '*' :: t) (blockComment s) := by
  fun_induction blockComment s with
  | case1 => exact .of_failed id (by simp [ScanError.Cause.opening?])
  | case2 => exact .of_found _
  | case3 c rest _ ih => exact ih

theorem failsAtStart_mark (text : List Char) (c : Char) (s : List Char) :
    FailsAtStart text (mark c s) := by
  have single (s : List Char) : FailsAtStart text (singleMark c s) := by
    unfold singleMark
    split
    · exact .of_found _
    · split <;> exact .of_plain id rfl
  unfold mark
  split
  · exact single []
  · split
    · exact .of_found _
    · exact single _

theorem failsAtStart_slashed (s : List Char) : FailsAtStart ('/' :: s) (slashed s) := by
  unfold slashed
  split
  · exact (FailsAtStart.of_found _).after _
  · exact (failsAtStart_blockComment _ _).after _
  · exact failsAtStart_mark _ _ _

/-! ## Lexemes -/

/-- How the lexeme that begins with a character fails. An escape fails in a literal, after the
quote and the units of a string or just after the quote of a character. -/
inductive Spoiled (c : Char) (s read : List Char) : Fault → Prop where
  | start {cause : ScanError.Cause} (escape : ¬ cause.IsEscape)
    (opening : ∀ o ∈ cause.opening?, o <+: c :: s) : Spoiled c s read ⟨cause, 0⟩
  | escape {cause : ScanError.Cause} {inside tail more : List Char} (escape : cause.IsEscape)
    (literal : (c = '"' ∧ ∃ text, Units StringRaw inside text) ∨ c = '\'' ∧ inside = [])
    (text : s = inside ++ '\\' :: tail) (reads : read = c :: (inside ++ '\\' :: more)) :
    Spoiled c s read ⟨cause, 1 + inside.length⟩

def Spoils (c : Char) (s : List Char) (r : Reading α) : Prop :=
  ∀ fault, r.outcome = .error fault → Spoiled c s r.read fault

theorem FailsAtStart.spoils {c : Char} {s : List Char} {r : Reading α}
    (fails : FailsAtStart (c :: s) r) : Spoils c s r := by
  intro fault error
  obtain ⟨cause, offset⟩ := fault
  obtain ⟨rfl, escape, opening⟩ := fails _ error
  exact .start escape opening

theorem spoils_stringLiteral (s : List Char) :
    Spoils '"' s ((stringLiteral s).after ['"']) := by
  intro fault error
  rcases units_cases s with ⟨inside, text, rest, units, rfl⟩ | ⟨inside, breaks⟩ | ⟨text, units⟩
  · have body := stringBody_of_quoted (units_iff_quoted.mp units) 1 rest
    simp only [stringLiteral, body] at error
    cases error
  · obtain ⟨tail, split, _⟩ := breaks.none
    obtain ⟨cause, more, rest, escape, body⟩ := stringBody_of_breaksOff breaks
    simp only [stringLiteral, body] at error ⊢
    cases error
    exact .escape escape (.inl ⟨rfl, breaks.units⟩) split rfl
  · have body := stringBody_of_unclosed units
    simp only [stringLiteral, body] at error ⊢
    cases error
    exact .start id (by simp [ScanError.Cause.opening?])

theorem spoils_charLiteral (s : List Char) : Spoils '\'' s ((charLiteral s).after ['\'']) := by
  have ended (c : Char) (read rest : List Char) :
      Spoils '\'' s ((charEnd c read rest).after ['\'']) :=
    ((failsAtStart_charEnd s c read rest).after _).spoils
  have plain {cause : ScanError.Cause} (escape : ¬ cause.IsEscape)
      (plain : cause.opening? = none) (rest : List Char) :
      Spoils '\'' s ((failed (α := Piece) cause [] rest).after ['\'']) :=
    ((FailsAtStart.of_plain escape plain).after _).spoils
  unfold charLiteral
  split
  · refine FailsAtStart.spoils (.after (.of_failed id ?_) _)
    simp [ScanError.Cause.opening?]
  · exact plain id rfl _
  · rename_i rest
    split
    · rename_i fault escaped
      intro other error
      cases error
      obtain ⟨cause, offset⟩ := fault
      obtain ⟨rfl, escape⟩ := fault_of_escape escaped
      exact .escape escape (.inr ⟨rfl, rfl⟩) rfl rfl
    · exact ended _ _ _
  · split
    · exact plain id rfl _
    · exact ended _ _ _

/-- A lexeme fails at its first character or at the backslash of an escape. -/
theorem spoils_lexeme (c : Char) (s : List Char) : Spoils c s (lexeme c s) := by
  unfold lexeme
  split
  · exact (failsAtStart_number _ _).spoils
  split
  · exact (failsAtStart_name _ _).spoils
  split
  · exact (failsAtStart_pointed _ _).spoils
  split
  · rename_i quote
    rw [quote]
    exact spoils_stringLiteral s
  split
  · rename_i quote
    rw [quote]
    exact spoils_charLiteral s
  split
  · rename_i slash
    rw [slash]
    exact (failsAtStart_slashed s).spoils
  · exact (failsAtStart_mark _ _ _).spoils

/-- The fault of a lexeme is at one of its characters. -/
theorem offset_lt_of_lexeme {c : Char} {s : List Char} {fault : Fault}
    (error : (lexeme c s).outcome = .error fault) : fault.offset < (lexeme c s).read.length := by
  cases spoils_lexeme c s fault error with
  | start => exact List.length_pos_iff.mpr (lexeme_read_ne_nil c s)
  | @escape _ inside _ _ _ _ _ reads =>
    show 1 + inside.length < _
    rw [reads, List.length_cons, List.length_append, List.length_cons]
    omega

/-! ## Sources -/

/-- The text before a lexeme can be scanned, and the lexeme fails with the error. -/
structure Failure (place : Position) (s : List Char) (e : ScanError) (before : List Char)
    (c : Char) (after : List Char) (fault : Fault) : Prop where
  split : s = before ++ c :: after
  notBlank : isBlank c = false
  scanned : ∃ tokens, (scanFrom place before).1 = .ok tokens
  failed : (lexeme c after).outcome = .error fault
  error : e = fault.locate (place.advance before) (lexeme c after).read

theorem Failure.prepend {place : Position} {s before after start : List Char} {e : ScanError}
    {c : Char} {fault : Fault} (failure : Failure (place.advance start) s e before c after fault)
    (scans : ∀ tokens, (scanFrom (place.advance start) before).1 = .ok tokens →
      ∃ tokens, (scanFrom place (start ++ before)).1 = .ok tokens) :
    Failure place (start ++ s) e (start ++ before) c after fault where
  split := by rw [failure.split, List.append_assoc]
  notBlank := failure.notBlank
  scanned := failure.scanned.elim scans
  failed := failure.failed
  error := by rw [failure.error, Position.advance_append]

/-- A lexeme can be scanned with what comes next cut off where that can be scanned. -/
theorem scanFrom_cut {c : Char} {rest before : List Char} {piece : Piece} {tokens : List Token}
    (notBlank : isBlank c = false) (read : (lexeme c rest).outcome = .ok piece)
    (cut : before <+: (lexeme c rest).rest) (place : Position)
    (scanned : (scanFrom (place.advance (lexeme c rest).read) before).1 = .ok tokens) :
    ∃ tokens, (scanFrom place ((lexeme c rest).read ++ before)).1 = .ok tokens := by
  -- The lexeme keeps its first character.
  obtain ⟨t, same⟩ : ∃ t, c :: t = (lexeme c rest).read ++ before := by
    have split := lexeme_split c rest
    obtain ⟨d, more, head⟩ := List.exists_cons_of_ne_nil (lexeme_read_ne_nil c rest)
    rw [head] at split
    rw [head, List.head_eq_of_cons_eq split]
    exact ⟨more ++ before, rfl⟩
  have settled := settles_lexeme c rest t piece before read (.of_cut 2 cut) same
  rw [← same, scanFrom, if_neg (Bool.eq_false_iff.mp notBlank)]
  cases piece with
  | word kind text =>
    simp only [settled, found, Piece.token?, scanned]
    exact ⟨_, rfl⟩
  | comment =>
    simp only [settled, found, Piece.token?, scanned]
    exact ⟨_, rfl⟩

/-- A failure after a lexeme is one after what is scanned with the lexeme before it. -/
theorem Failure.of_rest {place : Position} {d c : Char} {rest before after : List Char}
    {piece : Piece} {e : ScanError} {fault : Fault} (notBlank : isBlank d = false)
    (read : (lexeme d rest).outcome = .ok piece)
    (failure : Failure (place.advance (lexeme d rest).read) (lexeme d rest).rest e before c after
      fault) : Failure place (d :: rest) e ((lexeme d rest).read ++ before) c after fault := by
  have cut : before <+: (lexeme d rest).rest := ⟨_, failure.split.symm⟩
  have whole := failure.prepend fun _ => scanFrom_cut notBlank read cut place
  rwa [lexeme_split] at whole

/-- Scanning fails at the first lexeme that is spoiled. -/
theorem exists_failure {place : Position} {s : List Char} {e : ScanError}
    (error : (scanFrom place s).1 = .error e) :
    ∃ before c after fault, Failure place s e before c after fault := by
  fun_induction scanFrom place s with
  | case1 => cases error
  | case2 place d rest blank ih =>
    obtain ⟨before, c, after, fault, failure⟩ := ih error
    have start : place.step d = place.advance [d] := rfl
    rw [start] at failure
    refine ⟨_, c, after, fault, failure.prepend fun tokens scanned => ⟨tokens, ?_⟩⟩
    rw [List.singleton_append, scanFrom_blank blank]
    exact scanned
  | case3 place c rest blank after fault failed =>
    cases error
    exact ⟨[], c, rest, fault, rfl, Bool.eq_false_iff.mpr blank, ⟨_, by rw [scanFrom]⟩, failed, rfl⟩
  | case4 place d rest blank passed piece read comment ih =>
    obtain ⟨before, c, after, fault, failure⟩ := ih error
    exact ⟨_, c, after, fault, failure.of_rest (Bool.eq_false_iff.mpr blank) read⟩
  | case5 place d rest blank passed piece read token word later ih =>
    obtain ⟨before, c, after, fault, failure⟩ := ih (map_eq_error.mp error)
    exact ⟨_, c, after, fault, failure.of_rest (Bool.eq_false_iff.mpr blank) read⟩

/-- Where scanning fails, the error is at a character of the source. -/
theorem exists_of_tokenize {source : String} {e : ScanError} (error : tokenize source = .error e) :
    ∃ i < source.toList.length, e.position = placeAt source.toList i := by
  obtain ⟨before, c, after, fault, failure⟩ := exists_failure error
  have lt := offset_lt_of_lexeme failure.failed
  have split := lexeme_split c after
  have whole : source.toList = before ++ ((lexeme c after).read ++ (lexeme c after).rest) := by
    rw [split]
    exact failure.split
  refine ⟨before.length + fault.offset, ?_, ?_⟩
  · rw [whole, List.length_append, List.length_append]
    omega
  · rw [← advance_take, whole, List.take_length_add_append,
      List.take_append_of_le_length (Nat.le_of_lt lt), Position.advance_append, failure.error]
    rfl

end Scanning

end KindScript
