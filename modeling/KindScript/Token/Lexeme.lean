import KindScript.Text.Alphabetic
import KindScript.Text.Digits
import KindScript.Text.Numeric
import KindScript.Token
import KindScript.Token.ScanError

/-!
# Lexemes

The longest word or comment at the head of a text. Each reading says what it
found, which characters it read and which it left; the main statement is that
the two lists make up the text again (`lexeme_split`) and that the first one is
never empty (`lexeme_read_ne_nil`), also where reading fails. Places in the
source are not known here: an error gives its distance from the first character.
-/

namespace KindScript.Token

/-- What a lexeme stands for. -/
inductive Piece where
  | word (kind : Kind) (text : String)
  | comment
deriving DecidableEq, Repr

/-- An error and how many characters of the lexeme stand before the place it points to. -/
structure Fault where
  cause : ScanError.Cause
  offset : Nat
deriving DecidableEq, Repr

/-- The result of reading, the characters read and those left. -/
structure Reading (α : Type) where
  outcome : Except Fault α
  read : List Char
  rest : List Char

namespace Reading

variable {α β : Type}

/-- The two lists of the reading make up the text. -/
def Splits (r : Reading α) (text : List Char) : Prop :=
  r.read ++ r.rest = text

/-- The reading of a text whose first characters were read before. -/
def after (before : List Char) (r : Reading α) : Reading α :=
  { r with read := before ++ r.read }

def map (f : α → β) (r : Reading α) : Reading β :=
  ⟨r.outcome.map f, r.read, r.rest⟩

theorem Splits.after {r : Reading α} {text : List Char} (h : r.Splits text)
    (before : List Char) : (r.after before).Splits (before ++ text) := by
  simp only [Splits, Reading.after, List.append_assoc] at *
  rw [h]

theorem Splits.map {r : Reading α} {text : List Char} (h : r.Splits text) (f : α → β) :
    (r.map f).Splits text := h

theorem Splits.rest_le {r : Reading α} {text : List Char} (h : r.Splits text) :
    r.rest.length ≤ text.length := by
  rw [← h, List.length_append]
  omega

end Reading

/-- An error that points to the first character of its lexeme. -/
def failed {α : Type} (cause : ScanError.Cause) (read rest : List Char) : Reading α :=
  ⟨.error ⟨cause, 0⟩, read, rest⟩

def found {α : Type} (value : α) (read rest : List Char) : Reading α :=
  ⟨.ok value, read, rest⟩

/-! ## Names -/

/-- The characters that may continue a name. -/
def isNameChar (c : Char) : Bool :=
  Text.isAlphabetic c || Text.isNumeric c || c = '_'

/-- A name or reserved word. Underscores alone name nothing. -/
def name (s : List Char) : Reading Piece :=
  let read := s.takeWhile isNameChar
  let rest := s.dropWhile isNameChar
  let text := String.ofList read
  if read.all (· = '_') then failed (.nameOfUnderscores text) read rest
  else found (.word (kindOfWord text) text) read rest

/-! ## Numbers -/

/-- The letter after a number that fixes its kind, in either case. -/
def kindOfSuffix? (c : Char) : Option Kind :=
  match c.toLower with
  | 'b' => some .byte
  | 'i' => some .integer
  | 'l' => some .long
  | 'f' => some .float
  | 'd' => some .double
  | _ => none

/-- The digits, possibly with a fraction, spell a whole number below 256. -/
def isByteText (digits : List Char) : Bool :=
  digits.all Char.isDigit && Text.decimalValue digits < 256

/-- A number whose digits are read, with the suffix that may follow. -/
def suffixed (digits read rest : List Char) (fractional : Bool) : Reading Piece :=
  let text := String.ofList digits
  let plain := if fractional then Kind.float else Kind.integer
  match rest with
  | [] => found (.word plain text) read rest
  | c :: left =>
    match kindOfSuffix? c with
    | none => found (.word plain text) read rest
    | some kind =>
      if kind = .byte ∧ !isByteText digits then
        failed (.byteOutOfRange text) (read ++ [c]) left
      else found (.word kind text) (read ++ [c]) left

/-- A number that begins with a digit. -/
def number (s : List Char) : Reading Piece :=
  let whole := s.takeWhile Char.isDigit
  match s.dropWhile Char.isDigit with
  | '.' :: d :: rest =>
    if d.isDigit then
      let fraction := (d :: rest).takeWhile Char.isDigit
      let read := whole ++ '.' :: fraction
      suffixed read read ((d :: rest).dropWhile Char.isDigit) true
    else suffixed whole whole ('.' :: d :: rest) false
  | rest => suffixed whole whole rest false

/-- What begins with a point: a fraction below one, or the point itself. -/
def pointed (s : List Char) : Reading Piece :=
  let fraction := s.takeWhile Char.isDigit
  if fraction.isEmpty then found (.word .dot ".") ['.'] s
  else suffixed ('0' :: '.' :: fraction) ('.' :: fraction) (s.dropWhile Char.isDigit) true

/-! ## Quoted literals -/

/-- The character that hexadecimal digits name. -/
def charOfHex? (digits : List Char) : Option Char := do
  let code ← digits.foldlM (fun n d => (Text.hexValue? d).map (16 * n + ·)) 0
  if code.isValidChar then some (Char.ofNat code) else none

/-- The digits of a character code. `offset` is that of the backslash before them. -/
def charCode (offset : Nat) (form : ScanError.CodeForm) (s : List Char) : Reading Char :=
  let digits := (s.take form.digits).takeWhile Char.isAlphanum
  let rest := s.drop digits.length
  if digits.length = form.digits then
    match charOfHex? digits with
    | some c => found c digits rest
    | none => ⟨.error ⟨.codeOutOfRange form (String.ofList digits), offset⟩, digits, rest⟩
  else if rest.isEmpty then ⟨.error ⟨.codeCutOff form, offset⟩, digits, rest⟩
  else ⟨.error ⟨.codeDigit form, offset⟩, digits, rest⟩

/-- The character that a letter after a backslash stands for: a control, or itself. -/
def escaped (c : Char) : Char :=
  match c with
  | 'n' => '\n'
  | 't' => '\t'
  | 'r' => '\r'
  | '0' => '\x00'
  | 'a' => '\x07'
  | 'b' => '\x08'
  | 'f' => '\x0c'
  | 'v' => '\x0b'
  | 'e' => '\x1b'
  | other => other

/-- What follows a backslash that stands at `offset`. -/
def escape (offset : Nat) : List Char → Reading Char
  | [] => ⟨.error ⟨.escapeCutOff, offset⟩, [], []⟩
  | 'u' :: s => (charCode offset .unicode s).after ['u']
  | 'x' :: s => (charCode offset .hexadecimal s).after ['x']
  | c :: s => found (escaped c) [c] s

theorem charCode_splits (offset : Nat) (form : ScanError.CodeForm) (s : List Char) :
    (charCode offset form s).Splits s := by
  have taken := List.prefix_iff_eq_append.mp
    ((List.takeWhile_prefix (l := s.take form.digits) Char.isAlphanum).trans (List.take_prefix _ s))
  unfold charCode
  simp only [Reading.Splits]
  split
  · split <;> exact taken
  · split <;> exact taken

theorem escape_splits (offset : Nat) (s : List Char) : (escape offset s).Splits s := by
  unfold escape
  split
  · rfl
  · exact (charCode_splits offset .unicode _).after ['u']
  · exact (charCode_splits offset .hexadecimal _).after ['x']
  · rfl

/-- The inside of a string up to its closing quote; `offset` characters of the
literal stand before it. -/
def stringBody (offset : Nat) (s : List Char) : Reading (List Char) :=
  match s with
  | [] => failed .unclosedString [] []
  | '"' :: rest => found [] ['"'] rest
  | '\\' :: rest =>
    match (escape offset rest).outcome with
    | .error fault =>
      ⟨.error fault, '\\' :: (escape offset rest).read, (escape offset rest).rest⟩
    | .ok c =>
      ((stringBody (offset + 1 + (escape offset rest).read.length) (escape offset rest).rest).after
        ('\\' :: (escape offset rest).read)).map (c :: ·)
  | c :: rest => ((stringBody (offset + 1) rest).after [c]).map (c :: ·)
termination_by s.length
decreasing_by
  · have := (escape_splits offset rest).rest_le
    simp only [List.length_cons]
    omega
  · simp

/-- A string whose opening quote is read. -/
def stringLiteral (s : List Char) : Reading Piece :=
  (stringBody 1 s).map fun text => .word .string (String.ofList text)

/-- The end of a character literal that holds `c`. -/
def charEnd (c : Char) (read : List Char) : List Char → Reading Piece
  | [] => failed .unclosedChar read []
  | '\'' :: rest => found (.word .char c.toString) (read ++ ['\'']) rest
  | rest => failed .severalInChar read rest

/-- A character literal whose opening quote is read. -/
def charLiteral : List Char → Reading Piece
  | [] => failed .unclosedChar [] []
  | '\'' :: rest => failed .emptyChar [] ('\'' :: rest)
  | '\\' :: rest =>
    match (escape 1 rest).outcome with
    | .error fault => ⟨.error fault, '\\' :: (escape 1 rest).read, (escape 1 rest).rest⟩
    | .ok c => charEnd c ('\\' :: (escape 1 rest).read) (escape 1 rest).rest
  | c :: rest =>
    if c = '\n' ∨ c = '\r' ∨ c = '\t' then failed .controlInChar [] (c :: rest)
    else charEnd c [c] rest

/-! ## Comments, operators and punctuation -/

/-- A comment up to the end of its line, its two slashes read. -/
def lineComment (s : List Char) : Reading Piece :=
  found .comment (s.takeWhile (· ≠ '\n')) (s.dropWhile (· ≠ '\n'))

/-- A comment up to its end mark, its begin mark read. -/
def blockComment : List Char → Reading Piece
  | [] => failed .unclosedComment [] []
  | '*' :: '/' :: rest => found .comment ['*', '/'] rest
  | c :: rest => (blockComment rest).after [c]

/-- The operators of two characters. -/
def kindOfPair? : Char → Char → Option Kind
  | '=', '=' => some .compareOperator
  | '!', '=' => some .compareOperator
  | '<', '=' => some .compareOperator
  | '>', '=' => some .compareOperator
  | '|', '|' => some .jointOperator
  | '&', '&' => some .jointOperator
  | ':', ':' => some .doubleColon
  | '+', '+' => some .assignmentOperator
  | '+', '=' => some .assignmentOperator
  | '-', '-' => some .assignmentOperator
  | '-', '=' => some .assignmentOperator
  | '*', '=' => some .assignmentOperator
  | '/', '=' => some .assignmentOperator
  | '%', '=' => some .assignmentOperator
  | _, _ => none

/-- The operators and marks of one character. -/
def kindOfSingle? : Char → Option Kind
  | '=' => some .equalsOperator
  | '!' => some .notOperator
  | '<' => some .compareOperator
  | '>' => some .compareOperator
  | '&' => some .ampersand
  | ':' => some .colon
  | '+' => some .binaryOperator
  | '-' => some .binaryOperator
  | '*' => some .binaryOperator
  | '/' => some .binaryOperator
  | '%' => some .binaryOperator
  | '@' => some .atSign
  | '$' => some .dollarSign
  | '?' => some .questionMark
  | ',' => some .comma
  | ';' => some .semicolon
  | '(' => some .openParen
  | ')' => some .closeParen
  | '{' => some .openBrace
  | '}' => some .closeBrace
  | '[' => some .openBracket
  | ']' => some .closeBracket
  | _ => none

/-- A mark of one character, where no longer operator begins. -/
def singleMark (c : Char) (s : List Char) : Reading Piece :=
  match kindOfSingle? c with
  | some kind => found (.word kind c.toString) [c] s
  | none => if c = '|' then failed .loneBar [c] s else failed (.unrecognized c) [c] s

/-- The longest operator or mark that begins with `c`. -/
def mark (c : Char) (s : List Char) : Reading Piece :=
  match s with
  | [] => singleMark c []
  | d :: rest =>
    match kindOfPair? c d with
    | some kind => found (.word kind (String.ofList [c, d])) [c, d] rest
    | none => singleMark c (d :: rest)

/-- The comment or operator that begins with a slash. -/
def slashed : List Char → Reading Piece
  | '/' :: rest => (lineComment rest).after ['/', '/']
  | '*' :: rest => (blockComment rest).after ['/', '*']
  | s => mark '/' s

/-- The lexeme that begins with `c`. -/
def lexeme (c : Char) (s : List Char) : Reading Piece :=
  if c.isDigit then number (c :: s)
  else if Text.isAlphabetic c || c = '_' then name (c :: s)
  else if c = '.' then pointed s
  else if c = '"' then (stringLiteral s).after [c]
  else if c = '\'' then (charLiteral s).after [c]
  else if c = '/' then slashed s
  else mark c s

/-! ## Nothing is lost -/

theorem name_splits (s : List Char) : (name s).Splits s := by
  unfold name
  simp only
  split <;> exact List.takeWhile_append_dropWhile

theorem suffixed_splits (digits read rest : List Char) (fractional : Bool) :
    (suffixed digits read rest fractional).Splits (read ++ rest) := by
  unfold suffixed
  simp only
  split
  · rfl
  · split
    · rfl
    · split <;> simp [Reading.Splits, failed, found]

theorem number_splits (s : List Char) : (number s).Splits s := by
  have whole : s.takeWhile Char.isDigit ++ s.dropWhile Char.isDigit = s :=
    List.takeWhile_append_dropWhile
  unfold number
  simp only
  split
  · rename_i d rest h
    split
    · have h' := suffixed_splits (s.takeWhile Char.isDigit ++ '.' :: (d :: rest).takeWhile Char.isDigit)
        (s.takeWhile Char.isDigit ++ '.' :: (d :: rest).takeWhile Char.isDigit)
        ((d :: rest).dropWhile Char.isDigit) true
      simp only [Reading.Splits, List.append_assoc, List.cons_append,
        List.takeWhile_append_dropWhile] at h' ⊢
      rw [h', ← h, whole]
    · have h' := suffixed_splits (s.takeWhile Char.isDigit) (s.takeWhile Char.isDigit)
        ('.' :: d :: rest) false
      rw [← h, whole] at h'
      rw [← h]
      exact h'
  · have h' := suffixed_splits (s.takeWhile Char.isDigit) (s.takeWhile Char.isDigit)
      (s.dropWhile Char.isDigit) false
    rw [whole] at h'
    exact h'

theorem pointed_splits (s : List Char) : (pointed s).Splits ('.' :: s) := by
  unfold pointed
  simp only
  split
  · rfl
  · have h := suffixed_splits ('0' :: '.' :: s.takeWhile Char.isDigit)
      ('.' :: s.takeWhile Char.isDigit) (s.dropWhile Char.isDigit) true
    simpa only [List.cons_append, List.takeWhile_append_dropWhile] using h

theorem stringBody_splits (offset : Nat) (s : List Char) : (stringBody offset s).Splits s := by
  fun_induction stringBody offset s with
  | case1 => rfl
  | case2 => rfl
  | case3 offset rest fault h =>
    simpa [Reading.Splits] using escape_splits offset rest
  | case4 offset rest c h ih =>
    have h' := escape_splits offset rest
    simp only [Reading.Splits, Reading.after, Reading.map] at *
    rw [List.append_assoc, ih, List.cons_append, h']
  | case5 offset c rest h1 h2 ih => exact (ih.after [c]).map _

theorem charEnd_splits (c : Char) (read rest : List Char) :
    (charEnd c read rest).Splits (read ++ rest) := by
  unfold charEnd
  split <;> simp [Reading.Splits, failed, found]

theorem charLiteral_splits (s : List Char) : (charLiteral s).Splits s := by
  unfold charLiteral
  split
  · rfl
  · rfl
  · rename_i rest
    have h := escape_splits 1 rest
    split
    · simpa [Reading.Splits] using h
    · rename_i c _
      have h' := charEnd_splits c ('\\' :: (escape 1 rest).read) (escape 1 rest).rest
      rw [List.cons_append, h] at h'
      exact h'
  · rename_i c rest _ _
    split
    · rfl
    · exact charEnd_splits c [c] rest

theorem blockComment_splits (s : List Char) : (blockComment s).Splits s := by
  fun_induction blockComment s with
  | case1 => rfl
  | case2 => rfl
  | case3 c rest h ih => exact ih.after [c]

theorem mark_splits (c : Char) (s : List Char) : (mark c s).Splits (c :: s) := by
  unfold mark singleMark
  split
  · split
    · rfl
    · split <;> rfl
  · split
    · rfl
    · split
      · rfl
      · split <;> rfl

theorem slashed_splits (s : List Char) : (slashed s).Splits ('/' :: s) := by
  unfold slashed
  split
  · rename_i rest
    have h : (lineComment rest).Splits rest := List.takeWhile_append_dropWhile
    exact h.after ['/', '/']
  · exact (blockComment_splits _).after ['/', '*']
  · exact mark_splits '/' _

/-- A reading loses no character and invents none. -/
theorem lexeme_split (c : Char) (s : List Char) :
    (lexeme c s).read ++ (lexeme c s).rest = c :: s := by
  change (lexeme c s).Splits (c :: s)
  unfold lexeme
  split
  · exact number_splits _
  split
  · exact name_splits _
  split
  · rename_i h
    subst h
    exact pointed_splits s
  split
  · exact ((stringBody_splits 1 s).map _).after [c]
  split
  · exact (charLiteral_splits s).after [c]
  split
  · rename_i h
    subst h
    exact slashed_splits s
  · exact mark_splits c s

theorem suffixed_read_ne_nil {read : List Char} (h : read ≠ []) (digits rest : List Char)
    (fractional : Bool) : (suffixed digits read rest fractional).read ≠ [] := by
  unfold suffixed
  simp only
  split
  · exact h
  · split
    · exact h
    · split <;> simp [failed, found]

/-- A reading always moves on, whether it succeeds or fails. -/
theorem lexeme_read_ne_nil (c : Char) (s : List Char) : (lexeme c s).read ≠ [] := by
  unfold lexeme
  split
  · rename_i h
    have head : (c :: s).takeWhile Char.isDigit ≠ [] := by simp [h]
    unfold number
    simp only
    split
    · split
      · exact suffixed_read_ne_nil (by simp) _ _ _
      · exact suffixed_read_ne_nil head _ _ _
    · exact suffixed_read_ne_nil head _ _ _
  split
  · rename_i h
    have head : (c :: s).takeWhile isNameChar ≠ [] := by
      have : isNameChar c = true := by
        simp only [isNameChar, Bool.or_eq_true] at h ⊢
        rcases h with h | h <;> simp [h]
      simp [this]
    unfold name
    simp only
    split <;> exact head
  split
  · unfold pointed
    simp only
    split
    · simp [found]
    · exact suffixed_read_ne_nil (by simp) _ _ _
  split
  · simp [Reading.after]
  split
  · simp [Reading.after]
  split
  · unfold slashed
    split
    · simp [Reading.after]
    · simp [Reading.after]
    · unfold mark singleMark
      split <;> (repeat' split) <;> simp [failed, found]
  · unfold mark singleMark
    split <;> (repeat' split) <;> simp [failed, found]

theorem lexeme_rest_lt (c : Char) (s : List Char) :
    (lexeme c s).rest.length < (c :: s).length := by
  have split := congrArg List.length (lexeme_split c s)
  have moved := List.length_pos_iff.mpr (lexeme_read_ne_nil c s)
  rw [List.length_append] at split
  omega

end KindScript.Token
