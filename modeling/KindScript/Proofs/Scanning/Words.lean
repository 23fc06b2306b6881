import KindScript.Token.Lexeme
import KindScript.Token.Scan
import Mathlib.Data.List.TakeWhile

/-!
# Words

The ways in which the words and the comments of a text can be written. Whatever a
reading finds is one of them (`sound_lexeme`).
-/

namespace KindScript.Scanning

open Token

/-! ## Numbers -/

structure IsDigits (ds : List Char) : Prop where
  some : ds ≠ []
  digits : ∀ d ∈ ds, d.isDigit = true

/-- A number without its suffix as it is written, as its text has it, and whether it has
a fraction. A fraction below one may be written without its zero. -/
inductive Numeral : (written text : List Char) → (fractional : Bool) → Prop where
  | whole {ds : List Char} (digits : IsDigits ds) : Numeral ds ds false
  | fraction {ds fs : List Char} (digits : IsDigits ds) (fraction : IsDigits fs) :
    Numeral (ds ++ '.' :: fs) (ds ++ '.' :: fs) true
  | point {fs : List Char} (fraction : IsDigits fs) :
    Numeral ('.' :: fs) ('0' :: '.' :: fs) true

/-- What may follow a numeral and the kind of number that it makes it. -/
inductive Suffix (text : List Char) (fractional : Bool) : List Char → Kind → Prop where
  | none : Suffix text fractional [] (if fractional then .float else .integer)
  | letter {c : Char} {kind : Kind} (names : kindOfSuffix? c = some kind)
    (byte : kind = .byte → isByteText text = true) : Suffix text fractional [c] kind

/-! ## Quoted literals -/

/-- What may follow a backslash, and the character that it stands for. -/
inductive Escape : List Char → Char → Prop where
  | unicode {digits : List Char} {c : Char} (length : digits.length = 4)
    (code : charOfHex? digits = some c) : Escape ('u' :: digits) c
  | hexadecimal {digits : List Char} {c : Char} (length : digits.length = 2)
    (code : charOfHex? digits = some c) : Escape ('x' :: digits) c
  | letter {c : Char} (unicode : c ≠ 'u') (hexadecimal : c ≠ 'x') : Escape [c] (escaped c)

/-- The inside of a string and its text. -/
inductive Quoted : List Char → List Char → Prop where
  | nil : Quoted [] []
  | plain {c : Char} {cs text : List Char} (quote : c ≠ '"') (backslash : c ≠ '\\')
    (more : Quoted cs text) : Quoted (c :: cs) (c :: text)
  | escape {e cs text : List Char} {c : Char} (escape : Escape e c) (more : Quoted cs text) :
    Quoted ('\\' :: (e ++ cs)) (c :: text)

/-- The inside of a character literal and its character. -/
inductive QuotedChar : List Char → Char → Prop where
  | plain {c : Char} (quote : c ≠ '\'') (backslash : c ≠ '\\')
    (control : ¬ (c = '\n' ∨ c = '\r' ∨ c = '\t')) : QuotedChar [c] c
  | escape {e : List Char} {c : Char} (escape : Escape e c) : QuotedChar ('\\' :: e) c

/-! ## Words and comments -/

def startsName (c : Char) : Bool :=
  Text.isAlphabetic c || c = '_'

structure IsName (cs : List Char) : Prop where
  head : ∃ c ∈ cs.head?, startsName c = true
  chars : ∀ c ∈ cs, isNameChar c = true
  named : ∃ c ∈ cs, c ≠ '_'

/-- The characters are a word of the kind and with the text. -/
inductive Word : List Char → Kind → String → Prop where
  | name {cs : List Char} (isName : IsName cs) :
    Word cs (kindOfWord (String.ofList cs)) (String.ofList cs)
  | number {cs text suffix : List Char} {fractional : Bool} {kind : Kind}
    (numeral : Numeral cs text fractional) (suffixed : Suffix text fractional suffix kind) :
    Word (cs ++ suffix) kind (String.ofList text)
  | string {inside text : List Char} (quoted : Quoted inside text) :
    Word ('"' :: (inside ++ ['"'])) .string (String.ofList text)
  | char {inside : List Char} {c : Char} (quoted : QuotedChar inside c) :
    Word ('\'' :: (inside ++ ['\''])) .char c.toString
  | dot : Word ['.'] .dot "."
  | single {c : Char} {kind : Kind} (names : kindOfSingle? c = some kind) :
    Word [c] kind c.toString
  | pair {c d : Char} {kind : Kind} (names : kindOfPair? c d = some kind) :
    Word [c, d] kind (String.ofList [c, d])

/-- The characters that go on with no word before them. -/
def endsWord (c : Char) : Bool :=
  isBlank c || c = ';'

/-- Nothing follows, or a blank or a semicolon does. -/
def Ends (rest : List Char) : Prop :=
  ∀ c ∈ rest.head?, endsWord c = true

theorem Ends.nil : Ends [] := by
  simp [Ends]

/-- What a reading takes for a lexeme, with the characters after it. -/
inductive Lexeme : Piece → (read rest : List Char) → Prop where
  | word {cs rest : List Char} {kind : Kind} {text : String} (word : Word cs kind text) :
    Lexeme (.word kind text) cs rest
  | line {body rest : List Char} (inline : '\n' ∉ body) (ends : ∀ c ∈ rest.head?, c = '\n') :
    Lexeme .comment ('/' :: '/' :: body) rest
  | block {body rest : List Char} (inside : ¬ ['*', '/'] <:+: body) :
    Lexeme .comment ('/' :: '*' :: (body ++ ['*', '/'])) rest

/-- What holds of the kinds of the reserved words and of names holds of the kind of every
word that is read like a name. -/
theorem forall_kindOfWord {P : Kind → Prop} (name : P .identifier)
    (reserved : ∀ entry ∈ keywords, P entry.2) (word : String) : P (kindOfWord word) := by
  rw [kindOfWord]
  cases found : keywords.lookup word with
  | none => exact name
  | some kind =>
    obtain ⟨before, after, split, _⟩ := List.lookup_eq_some_iff.mp found
    refine reserved (word, kind) ?_
    rw [split]
    exact List.mem_append_right before List.mem_cons_self

/-! ## Runs of characters -/

theorem takeWhile_append_of_all {p : Char → Bool} {cs rest : List Char} (all : ∀ c ∈ cs, p c = true)
    (stops : ∀ c ∈ rest.head?, p c = false) : (cs ++ rest).takeWhile p = cs := by
  rw [List.takeWhile_append_of_pos all]
  cases rest with
  | nil => simp
  | cons c rest => simp [stops c rfl]

theorem dropWhile_append_of_all {p : Char → Bool} {cs rest : List Char} (all : ∀ c ∈ cs, p c = true)
    (stops : ∀ c ∈ rest.head?, p c = false) : (cs ++ rest).dropWhile p = rest := by
  rw [List.dropWhile_append_of_pos all]
  cases rest with
  | nil => rfl
  | cons c rest => simp [stops c rfl]

theorem head?_dropWhile {p : Char → Bool} {cs : List Char} :
    ∀ c ∈ (cs.dropWhile p).head?, p c = false := by
  intro c mem
  have stops := List.head?_dropWhile_not p cs
  rw [Option.mem_def.mp mem] at stops
  exact stops

/-! ## What a reading finds is a lexeme -/

/-- Where the reading succeeds, what it has read is a lexeme. -/
def Sound (r : Reading Piece) : Prop :=
  ∀ piece, r.outcome = .ok piece → Lexeme piece r.read r.rest

theorem sound_failed (cause : ScanError.Cause) (read rest : List Char) :
    Sound (failed cause read rest) := by
  intro piece ok
  cases ok

theorem sound_found {kind : Kind} {text : String} {read rest : List Char}
    (word : Word read kind text) : Sound (found (.word kind text) read rest) := by
  intro piece ok
  cases ok
  exact .word word

theorem isDigits_toDigits (n : Nat) : IsDigits (Nat.toDigits 10 n) where
  some := Nat.toDigits_ne_nil
  digits _ mem := Nat.isDigit_of_mem_toDigits (by decide) (by decide) mem

theorem isDigits_takeWhile {cs : List Char} (some : cs.takeWhile Char.isDigit ≠ []) :
    IsDigits (cs.takeWhile Char.isDigit) :=
  ⟨some, fun _ mem => List.mem_takeWhile_imp mem⟩

theorem isDigits_of_head {c : Char} (digit : c.isDigit = true) (cs : List Char) :
    IsDigits ((c :: cs).takeWhile Char.isDigit) :=
  isDigits_takeWhile (by simp [digit])

theorem sound_suffixed {written text rest : List Char} {fractional : Bool}
    (numeral : Numeral written text fractional) :
    Sound (suffixed text written rest fractional) := by
  have plain (rest : List Char) : Sound (found (.word (if fractional then .float else .integer)
      (String.ofList text)) written rest) := by
    have word := Word.number numeral .none
    rw [List.append_nil] at word
    exact sound_found word
  cases rest with
  | nil => exact plain []
  | cons c left =>
    rw [suffixed]
    cases names : kindOfSuffix? c with
    | none => exact plain (c :: left)
    | some kind =>
      simp only
      split
      · exact sound_failed _ _ _
      · rename_i byte
        refine sound_found (.number numeral (.letter names fun same => ?_))
        by_contra outside
        exact byte ⟨same, by simpa using outside⟩

theorem sound_number {c : Char} {s : List Char} (digit : c.isDigit = true) :
    Sound (number (c :: s)) := by
  have whole := isDigits_of_head digit s
  unfold number
  simp only
  split
  · split
    · rename_i digit
      exact sound_suffixed (.fraction whole (isDigits_of_head digit _))
    · exact sound_suffixed (.whole whole)
  · exact sound_suffixed (.whole whole)

theorem sound_pointed (s : List Char) : Sound (pointed s) := by
  unfold pointed
  simp only
  split
  · exact sound_found .dot
  · rename_i some
    exact sound_suffixed (.point (isDigits_takeWhile (by simpa using some)))

theorem sound_name {c : Char} {s : List Char} (starts : startsName c = true) :
    Sound (name (c :: s)) := by
  have nameChar : isNameChar c = true := by
    simp only [startsName, isNameChar, Bool.or_eq_true] at starts ⊢
    rcases starts with letter | underscore
    · exact .inl (.inl letter)
    · exact .inr underscore
  unfold name
  simp only
  split
  · exact sound_failed _ _ _
  · rename_i named
    refine sound_found (.name ⟨⟨c, by simp [nameChar], starts⟩,
      fun d mem => List.mem_takeWhile_imp mem, ?_⟩)
    simpa using named

theorem escape_of_charCode {offset : Nat} {form : ScanError.CodeForm} {s : List Char} {c : Char}
    (ok : (charCode offset form s).outcome = .ok c) :
    (charCode offset form s).read.length = form.digits ∧
      charOfHex? (charCode offset form s).read = some c := by
  unfold charCode at ok ⊢
  simp only at ok ⊢
  split at ok
  · rename_i length
    rw [if_pos length]
    split at ok
    · rename_i code
      cases ok
      exact ⟨length, code⟩
    · cases ok
  · split at ok <;> cases ok

theorem escape_of_ok {offset : Nat} {s : List Char} {c : Char}
    (ok : (Token.escape offset s).outcome = .ok c) : Escape (Token.escape offset s).read c := by
  generalize read : Token.escape offset s = r at ok ⊢
  unfold Token.escape at read
  split at read <;> subst read
  · cases ok
  · obtain ⟨length, code⟩ := escape_of_charCode ok
    exact .unicode length code
  · obtain ⟨length, code⟩ := escape_of_charCode ok
    exact .hexadecimal length code
  · rename_i unicode hexadecimal
    cases ok
    exact .letter unicode hexadecimal

theorem map_eq_ok {ε α β : Type} {x : Except ε α} {f : α → β} {b : β} :
    x.map f = .ok b ↔ ∃ a, x = .ok a ∧ f a = b := by
  cases x <;> simp [Except.map]

theorem map_eq_error {ε α β : Type} {x : Except ε α} {f : α → β} {e : ε} :
    x.map f = .error e ↔ x = .error e := by
  cases x <;> simp [Except.map]

theorem quoted_of_stringBody {offset : Nat} {s text : List Char}
    (ok : (stringBody offset s).outcome = .ok text) :
    ∃ inside, Quoted inside text ∧ (stringBody offset s).read = inside ++ ['"'] := by
  fun_induction stringBody offset s generalizing text with
  | case1 => cases ok
  | case2 =>
    cases ok
    exact ⟨[], .nil, rfl⟩
  | case3 => cases ok
  | case4 offset rest c found ih =>
    obtain ⟨more, body, rfl⟩ := map_eq_ok.mp ok
    obtain ⟨inside, quoted, read⟩ := ih body
    refine ⟨_, .escape (escape_of_ok found) quoted, ?_⟩
    simp [Reading.map, Reading.after, read]
  | case5 offset c rest quote backslash ih =>
    obtain ⟨more, body, rfl⟩ := map_eq_ok.mp ok
    obtain ⟨inside, quoted, read⟩ := ih body
    refine ⟨_, .plain quote backslash quoted, ?_⟩
    simp [Reading.map, Reading.after, read]

theorem sound_stringLiteral (s : List Char) : Sound ((stringLiteral s).after ['"']) := by
  intro piece ok
  obtain ⟨text, body, rfl⟩ := map_eq_ok.mp ok
  obtain ⟨inside, quoted, read⟩ := quoted_of_stringBody body
  have word : ((stringLiteral s).after ['"']).read = '"' :: (inside ++ ['"']) :=
    congrArg ('"' :: ·) read
  rw [word]
  exact .word (.string quoted)

theorem quotedChar_of_charLiteral {s : List Char} {piece : Piece}
    (ok : (charLiteral s).outcome = .ok piece) :
    ∃ inside c, QuotedChar inside c ∧ piece = .word .char c.toString ∧
      (charLiteral s).read = inside ++ ['\''] := by
  have ended {c : Char} {inside rest : List Char}
      (ok : (charEnd c inside rest).outcome = .ok piece) :
      piece = .word .char c.toString ∧ (charEnd c inside rest).read = inside ++ ['\''] := by
    unfold charEnd at ok ⊢
    split at ok <;> cases ok
    exact ⟨rfl, rfl⟩
  unfold charLiteral at ok ⊢
  split at ok
  · cases ok
  · cases ok
  · split at ok
    · cases ok
    · rename_i c code
      exact ⟨_, c, .escape (escape_of_ok code), ended ok⟩
  · rename_i c rest quote backslash
    split at ok
    · cases ok
    · rename_i control
      simp only [if_neg control]
      exact ⟨[c], c, .plain quote backslash control, ended ok⟩

theorem sound_charLiteral (s : List Char) : Sound ((charLiteral s).after ['\'']) := by
  intro piece ok
  obtain ⟨inside, c, quoted, rfl, read⟩ := quotedChar_of_charLiteral ok
  have word : ((charLiteral s).after ['\'']).read = '\'' :: (inside ++ ['\'']) :=
    congrArg ('\'' :: ·) read
  rw [word]
  exact .word (.char quoted)

theorem block_of_blockComment {s : List Char} {piece : Piece}
    (ok : (blockComment s).outcome = .ok piece) :
    piece = .comment ∧ ∃ body, ¬ ['*', '/'] <:+: body ∧
      (blockComment s).read = body ++ ['*', '/'] := by
  fun_induction blockComment s with
  | case1 => cases ok
  | case2 =>
    cases ok
    exact ⟨rfl, [], by simp, rfl⟩
  | case3 c rest unclosed ih =>
    obtain ⟨comment, body, inside, read⟩ := ih ok
    refine ⟨comment, c :: body, ?_, by simp [Reading.after, read]⟩
    rw [List.infix_cons_iff, not_or]
    refine ⟨fun closes => ?_, inside⟩
    obtain ⟨star, slash⟩ := List.cons_prefix_cons.mp closes
    obtain ⟨left, body_eq⟩ := slash
    have split : (blockComment rest).read ++ (blockComment rest).rest = rest :=
      blockComment_splits rest
    rw [read, ← body_eq] at split
    exact unclosed _ star.symm split.symm

theorem sound_mark {c : Char} (s : List Char) : Sound (mark c s) := by
  have single (s : List Char) : Sound (singleMark c s) := by
    unfold singleMark
    split
    · rename_i kind names
      exact sound_found (.single names)
    · split <;> exact sound_failed _ _ _
  unfold mark
  split
  · exact single []
  · split
    · rename_i names
      exact sound_found (.pair names)
    · exact single _

theorem sound_slashed (s : List Char) : Sound (slashed s) := by
  unfold slashed
  split
  · rename_i rest
    intro piece ok
    cases ok
    refine .line (fun mem => ?_) fun c mem => ?_
    · simpa using List.mem_takeWhile_imp mem
    · simpa using head?_dropWhile c mem
  · rename_i rest
    intro piece ok
    obtain ⟨rfl, body, inside, read⟩ := block_of_blockComment ok
    have comment : ((blockComment rest).after ['/', '*']).read =
        '/' :: '*' :: (body ++ ['*', '/']) := by
      rw [Reading.after, read]
      rfl
    rw [comment]
    exact .block inside
  · exact sound_mark _

/-- Reading takes nothing but words for words and comments for comments. -/
theorem sound_lexeme (c : Char) (s : List Char) : Sound (lexeme c s) := by
  unfold lexeme
  split
  · rename_i digit
    exact sound_number digit
  split
  · rename_i starts
    exact sound_name starts
  split
  · exact sound_pointed s
  split
  · rename_i quote
    rw [quote]
    exact sound_stringLiteral s
  split
  · rename_i quote
    rw [quote]
    exact sound_charLiteral s
  split
  · exact sound_slashed s
  · exact sound_mark s

end KindScript.Scanning
