import KindScript.Text.Digits

/-!
# Reading JSON texts

Each reading takes one part of a JSON text off its front and leaves the rest, which is never
longer (`takeString_lt` and its siblings). A text that breaks the grammar is refused with the
reason and with how much of it was not yet read; lines and columns are counted from that only
for the message, and columns count bytes.
-/

namespace KindScript.Json

/-! ## Faults -/

namespace Fault

/-- Why a text is refused. -/
inductive Cause where
  | listCutOff
  | objectCutOff
  | stringCutOff
  | valueCutOff
  | noColon
  | noListEnd
  | noObjectEnd
  | noWord
  | noValue
  | badEscape
  | badNumber
  | numberTooLarge
  | rawControl
  | noKey
  | loneHalf
  | noSecondHalf
  | trailingComma
  | trailingText
  | repeatedField (name : String)
  | wrongType (found expected : String)
deriving DecidableEq, Repr

def Cause.message : Cause → String
  | listCutOff => "EOF while parsing a list"
  | objectCutOff => "EOF while parsing an object"
  | stringCutOff => "EOF while parsing a string"
  | valueCutOff => "EOF while parsing a value"
  | noColon => "expected `:`"
  | noListEnd => "expected `,` or `]`"
  | noObjectEnd => "expected `,` or `\x7d`"
  | noWord => "expected ident"
  | noValue => "expected value"
  | badEscape => "invalid escape"
  | badNumber => "invalid number"
  | numberTooLarge => "number out of range"
  | rawControl => "control character (\\u0000-\\u001F) found while parsing a string"
  | noKey => "key must be a string"
  | loneHalf => "lone leading surrogate in hex escape"
  | noSecondHalf => "unexpected end of hex escape"
  | trailingComma => "trailing comma"
  | trailingText => "trailing characters"
  | repeatedField name => "duplicate field `" ++ name ++ "`"
  | wrongType found expected => "invalid type: " ++ found ++ ", expected " ++ expected

end Fault

/-- A reason, and how many bytes of the text follow the place that it is about. -/
structure Fault where
  cause : Fault.Cause
  left : Nat
deriving DecidableEq, Repr

theorem exists_of_bind_ok {α β : Type} {first : Except Fault α} {more : α → Except Fault β} {b : β}
    (done : first >>= more = .ok b) : ∃ a, first = .ok a ∧ more a = .ok b := by
  cases first with
  | error fault => cases done
  | ok a => exact ⟨a, rfl, done⟩

/-- The length of a text in bytes. -/
def bytes : List Char → Nat
  | [] => 0
  | c :: rest => c.utf8Size + bytes rest

/-- The line and the column after the first `n` bytes of a text, counted on from others. -/
def placeAfter (n line column : Nat) : List Char → Nat × Nat
  | [] => (line, column)
  | c :: rest =>
    if n < c.utf8Size then (line, column + n)
    else if c = '\n' then placeAfter (n - 1) (line + 1) 0 rest
    else placeAfter (n - c.utf8Size) line (column + c.utf8Size) rest

namespace Fault

/-- A fault before what is left. -/
def before (cause : Cause) (rest : List Char) : Fault :=
  ⟨cause, bytes rest⟩

/-- A fault at the next byte of what is left, which is counted as read. -/
def next (cause : Cause) (rest : List Char) : Fault :=
  ⟨cause, bytes rest - 1⟩

/-- The message about a fault of a text. -/
def message (fault : Fault) (text : List Char) : String :=
  let (line, column) := placeAfter (bytes text - fault.left) 1 0 text
  fault.cause.message ++ " at line " ++ line.repr ++ " column " ++ column.repr

end Fault

/-! ## Space and words -/

/-- White space between the parts of a JSON text. -/
def isSpace (c : Char) : Bool :=
  c = ' ' || c = '\t' || c = '\n' || c = '\r'

def skipSpace (s : List Char) : List Char :=
  s.dropWhile isSpace

theorem skipSpace_le (s : List Char) : (skipSpace s).length ≤ s.length :=
  (List.dropWhile_suffix _).length_le

theorem skipSpace_lt {c : Char} {s rest : List Char} (front : skipSpace s = c :: rest) :
    rest.length < s.length := by
  have shorter := skipSpace_le s
  rw [front] at shorter
  exact shorter

/-- Takes the letters of a word. -/
def takeWord : List Char → List Char → Except Fault (List Char)
  | [], s => .ok s
  | _ :: _, [] => .error (.before .valueCutOff [])
  | letter :: more, c :: rest =>
    if c = letter then takeWord more rest else .error (.next .noWord (c :: rest))

theorem takeWord_le {word s rest : List Char} (taken : takeWord word s = .ok rest) :
    rest.length ≤ s.length := by
  induction word generalizing s with
  | nil =>
    cases taken
    exact Nat.le_refl _
  | cons letter more ih =>
    cases s with
    | nil => cases taken
    | cons c s =>
      rw [takeWord] at taken
      split at taken
      · exact Nat.le_succ_of_le (ih taken)
      · cases taken

/-! ## Strings -/

/-- The number of four hexadecimal digits. -/
def codeUnit? (a b c d : Char) : Option Nat := do
  let a ← Text.hexValue? a
  let b ← Text.hexValue? b
  let c ← Text.hexValue? c
  let d ← Text.hexValue? d
  pure (((a * 16 + b) * 16 + c) * 16 + d)

def shortEscape? : Char → Option Char
  | '"' => some '"'
  | '\\' => some '\\'
  | '/' => some '/'
  | 'b' => some '\x08'
  | 'f' => some '\x0c'
  | 'n' => some '\n'
  | 'r' => some '\r'
  | 't' => some '\t'
  | _ => none

/-- The fault of a long escape without its four digits. -/
def badDigits (s : List Char) : Fault :=
  if bytes s < 4 then .before .stringCutOff [] else ⟨.badEscape, bytes s - 4⟩

/-- The fault where the second half of a surrogate pair does not begin. -/
def noHalf : List Char → Fault
  | [] => .before .stringCutOff []
  | s => .next .noSecondHalf s

def isFirstHalf (code : Nat) : Bool :=
  0xD800 ≤ code && code ≤ 0xDBFF

def isSecondHalf (code : Nat) : Bool :=
  0xDC00 ≤ code && code ≤ 0xDFFF

/-- The character of two halves of a surrogate pair. -/
def joinHalves (first second : Nat) : Char :=
  Char.ofNat (0x10000 + (first - 0xD800) * 0x400 + (second - 0xDC00))

/-- One more character before a text. -/
def push (c : Char) : List Char × List Char → List Char × List Char :=
  fun (text, rest) => (c :: text, rest)

/-- Takes a string up to its closing quote. Controls must be escaped. Halves of surrogate pairs
must meet only where the text matters. -/
def takeString (paired : Bool) : List Char → Except Fault (List Char × List Char)
  | [] => .error (.before .stringCutOff [])
  | '"' :: rest => .ok ([], rest)
  | '\\' :: 'u' :: a :: b :: c :: d :: rest =>
    match codeUnit? a b c d with
    | none => .error (badDigits (a :: b :: c :: d :: rest))
    | some code =>
      if paired && isSecondHalf code then .error (.before .loneHalf rest)
      else if paired && isFirstHalf code then
        match rest with
        | '\\' :: 'u' :: a :: b :: c :: d :: rest =>
          match codeUnit? a b c d with
          | none => .error (badDigits (a :: b :: c :: d :: rest))
          | some second =>
            if isSecondHalf second then (takeString paired rest).map (push (joinHalves code second))
            else .error (.before .loneHalf rest)
        | '\\' :: 'u' :: rest => .error (badDigits rest)
        | '\\' :: rest => .error (noHalf rest)
        | rest => .error (noHalf rest)
      else (takeString paired rest).map (push (Char.ofNat code))
  | '\\' :: 'u' :: rest => .error (badDigits rest)
  | '\\' :: c :: rest =>
    match shortEscape? c with
    | none => .error (.next .badEscape (c :: rest))
    | some plain => (takeString paired rest).map (push plain)
  | c :: rest =>
    if c.toNat < 32 then .error (.before .rawControl rest)
    else (takeString paired rest).map (push c)

theorem takeString_lt {paired : Bool} {s text rest : List Char}
    (taken : takeString paired s = .ok (text, rest)) : rest.length < s.length := by
  have pushed {more : List Char} {c : Char} {text rest : List Char}
      (taken : (takeString paired more).map (push c) = .ok (text, rest)) :
      ∃ text, takeString paired more = .ok (text, rest) := by
    cases inner : takeString paired more with
    | error fault =>
      rw [inner] at taken
      cases taken
    | ok pair =>
      rw [inner] at taken
      cases taken
      exact ⟨_, rfl⟩
  fun_induction takeString paired s generalizing text rest with
  | case2 =>
    cases taken
    exact Nat.lt_succ_self _
  | case6 | case11 | case14 | case16 =>
    rename_i ih
    obtain ⟨_, inner⟩ := pushed taken
    have shorter := ih inner
    simp only [List.length_cons]
    omega
  | case1 | case3 | case4 | case5 | case7 | case8 | case9 | case10 | case12 | case13 | case15 =>
    cases taken

/-! ## Numbers -/

/-- Takes digits, of which there must be one. -/
def takeDigits (atEnd : Fault.Cause) : List Char → Except Fault (List Char)
  | [] => .error (.before atEnd [])
  | c :: rest =>
    if c.isDigit then .ok (rest.dropWhile Char.isDigit) else .error (.next .badNumber (c :: rest))

theorem takeDigits_lt {atEnd : Fault.Cause} {s rest : List Char}
    (taken : takeDigits atEnd s = .ok rest) : rest.length < s.length := by
  unfold takeDigits at taken
  split at taken
  · cases taken
  · split at taken
    · cases taken
      exact Nat.lt_succ_of_le (List.dropWhile_suffix _).length_le
    · cases taken

/-- Takes the whole part of a number, which begins with no zero but a single one. -/
def takeWhole (atEnd : Fault.Cause) : List Char → Except Fault (List Char)
  | '0' :: c :: rest =>
    if c.isDigit then .error (.next .badNumber (c :: rest)) else .ok (c :: rest)
  | s => takeDigits atEnd s

/-- Takes the fraction of a number, if it has one. -/
def takeFraction (atEnd : Fault.Cause) : List Char → Except Fault (List Char)
  | '.' :: rest => takeDigits atEnd rest
  | s => .ok s

/-- Takes the exponent of a number, if it has one. -/
def takeExponent (atEnd : Fault.Cause) (s : List Char) : Except Fault (List Char) :=
  match s with
  | [] => .ok []
  | c :: rest =>
    if c = 'e' ∨ c = 'E' then
      match rest with
      | '+' :: rest => takeDigits atEnd rest
      | '-' :: rest => takeDigits atEnd rest
      | rest => takeDigits atEnd rest
    else .ok (c :: rest)

/-- Takes a number. The cause is that of a number which the text cuts off. -/
def takeNumber (atEnd : Fault.Cause) (s : List Char) : Except Fault (List Char) := do
  let unsigned :=
    match s with
    | '-' :: rest => rest
    | rest => rest
  let rest ← takeWhole atEnd unsigned
  let rest ← takeFraction atEnd rest
  takeExponent atEnd rest

theorem takeWhole_lt {atEnd : Fault.Cause} {s rest : List Char}
    (taken : takeWhole atEnd s = .ok rest) : rest.length < s.length := by
  unfold takeWhole at taken
  split at taken
  · split at taken
    · cases taken
    · cases taken
      exact Nat.lt_succ_self _
  · exact takeDigits_lt taken

theorem takeFraction_le {atEnd : Fault.Cause} {s rest : List Char}
    (taken : takeFraction atEnd s = .ok rest) : rest.length ≤ s.length := by
  unfold takeFraction at taken
  split at taken
  · exact Nat.le_succ_of_le (Nat.le_of_lt (takeDigits_lt taken))
  · cases taken
    exact Nat.le_refl _

theorem takeExponent_le {atEnd : Fault.Cause} {s rest : List Char}
    (taken : takeExponent atEnd s = .ok rest) : rest.length ≤ s.length := by
  unfold takeExponent at taken
  split at taken
  · cases taken
    exact Nat.le_refl _
  · split at taken
    · split at taken
      all_goals
        have shorter := takeDigits_lt taken
        simp only [List.length_cons]
        omega
    · cases taken
      exact Nat.le_refl _

theorem takeNumber_lt {atEnd : Fault.Cause} {s rest : List Char}
    (taken : takeNumber atEnd s = .ok rest) : rest.length < s.length := by
  unfold takeNumber at taken
  obtain ⟨afterWhole, whole, taken⟩ := exists_of_bind_ok taken
  obtain ⟨afterFraction, fraction, exponent⟩ := exists_of_bind_ok taken
  have shorter := takeWhole_lt whole
  have least := takeFraction_le fraction
  have last := takeExponent_le exponent
  split at shorter
  · simp only [List.length_cons]
    omega
  · omega

/-! ## Values that do not matter -/

/-- Takes a value that is no array and no object. -/
def takeScalar : List Char → Except Fault (List Char)
  | [] => .error (.before .valueCutOff [])
  | 'n' :: rest => takeWord ['u', 'l', 'l'] rest
  | 't' :: rest => takeWord ['r', 'u', 'e'] rest
  | 'f' :: rest => takeWord ['a', 'l', 's', 'e'] rest
  | '"' :: rest => (takeString false rest).map Prod.snd
  | c :: rest =>
    if c = '-' ∨ c.isDigit then takeNumber .badNumber (c :: rest)
    else .error (.next .noValue (c :: rest))

/-- Takes the colon after a key. -/
def takeColon (s : List Char) : Except Fault (List Char) :=
  match skipSpace s with
  | [] => .error (.before .objectCutOff [])
  | ':' :: rest => .ok rest
  | s => .error (.next .noColon s)

/-- Takes a key and its colon. -/
def skipKey (s : List Char) : Except Fault (List Char) :=
  match skipSpace s with
  | [] => .error (.before .objectCutOff [])
  | '"' :: rest =>
    match takeString false rest with
    | .error fault => .error fault
    | .ok (_, rest) => takeColon rest
  | s => .error (.next .noKey s)

inductive Bracket where
  | square
  | curly
deriving DecidableEq, Repr

theorem takeScalar_lt {s rest : List Char} (taken : takeScalar s = .ok rest) :
    rest.length < s.length := by
  unfold takeScalar at taken
  split at taken
  · cases taken
  · exact Nat.lt_succ_of_le (takeWord_le taken)
  · exact Nat.lt_succ_of_le (takeWord_le taken)
  · exact Nat.lt_succ_of_le (takeWord_le taken)
  · rename_i more
    cases string : takeString false more with
    | error fault =>
      rw [string] at taken
      cases taken
    | ok pair =>
      rw [string] at taken
      cases taken
      exact Nat.lt_succ_of_lt (takeString_lt string)
  · split at taken
    · exact takeNumber_lt taken
    · cases taken

theorem takeColon_lt {s rest : List Char} (taken : takeColon s = .ok rest) :
    rest.length < s.length := by
  unfold takeColon at taken
  split at taken
  · cases taken
  · rename_i front
    cases taken
    exact skipSpace_lt front
  · cases taken

theorem skipKey_lt {s rest : List Char} (taken : skipKey s = .ok rest) :
    rest.length < s.length := by
  unfold skipKey at taken
  split at taken
  · cases taken
  · rename_i front
    split at taken
    · cases taken
    · rename_i string
      exact Nat.lt_trans (takeColon_lt taken)
        (Nat.lt_trans (takeString_lt string) (skipSpace_lt front))
  · cases taken

mutual

/-- Takes a value and everything after it up to the end of the open brackets, the inner ones
first. -/
def skipValue (brackets : List Bracket) (s : List Char) : Except Fault (List Char) :=
  match _ : skipSpace s with
  | '[' :: rest =>
    match _ : skipSpace rest with
    | [] => .error (.before .listCutOff [])
    | ']' :: after => skipRest brackets after
    | _ => skipValue (.square :: brackets) rest
  | '\x7b' :: rest =>
    match _ : skipSpace rest with
    | '\x7d' :: after => skipRest brackets after
    | _ =>
      match _ : skipKey rest with
      | .error fault => .error fault
      | .ok value => skipValue (.curly :: brackets) value
  | front =>
    match _ : takeScalar front with
    | .error fault => .error fault
    | .ok rest => skipRest brackets rest
termination_by s.length
decreasing_by
  · rename_i front inner
    exact Nat.lt_trans (skipSpace_lt inner) (skipSpace_lt front)
  · rename_i front _ _
    exact skipSpace_lt front
  · rename_i front inner
    exact Nat.lt_trans (skipSpace_lt inner) (skipSpace_lt front)
  · rename_i front _ _ key
    exact Nat.lt_trans (skipKey_lt key) (skipSpace_lt front)
  · rename_i front scalar
    exact Nat.lt_of_lt_of_le (takeScalar_lt scalar) (front ▸ skipSpace_le s)

/-- Takes everything after a value up to the end of the open brackets. -/
def skipRest (brackets : List Bracket) (s : List Char) : Except Fault (List Char) :=
  match brackets with
  | [] => .ok s
  | .square :: outer =>
    match _ : skipSpace s with
    | [] => .error (.before .listCutOff [])
    | ']' :: rest => skipRest outer rest
    | ',' :: rest => skipValue brackets rest
    | front => .error (.next .noListEnd front)
  | .curly :: outer =>
    match _ : skipSpace s with
    | [] => .error (.before .objectCutOff [])
    | '\x7d' :: rest => skipRest outer rest
    | ',' :: rest =>
      match _ : skipKey rest with
      | .error fault => .error fault
      | .ok value => skipValue brackets value
    | front => .error (.next .noObjectEnd front)
termination_by s.length
decreasing_by
  · exact skipSpace_lt ‹_›
  · exact skipSpace_lt ‹_›
  · exact skipSpace_lt ‹_›
  · rename_i front key
    exact Nat.lt_trans (skipKey_lt key) (skipSpace_lt front)

end

/-- Taking a value makes a text shorter, and taking what follows one no longer. -/
theorem skip_shortens (n : Nat) : ∀ s : List Char, s.length = n →
    (∀ brackets rest, skipValue brackets s = .ok rest → rest.length < s.length) ∧
      ∀ brackets rest, skipRest brackets s = .ok rest → rest.length ≤ s.length := by
  induction n using Nat.strongRecOn with
  | ind n ih =>
    rintro s rfl
    have value {inner : List Char} (shorter : inner.length < s.length) {brackets rest}
        (taken : skipValue brackets inner = .ok rest) : rest.length < s.length :=
      Nat.lt_trans ((ih _ shorter inner rfl).1 brackets rest taken) shorter
    have more {inner : List Char} (shorter : inner.length < s.length) {brackets rest}
        (taken : skipRest brackets inner = .ok rest) : rest.length < s.length :=
      Nat.lt_of_le_of_lt ((ih _ shorter inner rfl).2 brackets rest taken) shorter
    constructor
    · intro brackets rest taken
      rw [skipValue] at taken
      split at taken
      · rename_i front
        split at taken
        · cases taken
        · rename_i inner
          exact more (Nat.lt_trans (skipSpace_lt inner) (skipSpace_lt front)) taken
        · exact value (skipSpace_lt front) taken
      · rename_i front
        split at taken
        · rename_i inner
          exact more (Nat.lt_trans (skipSpace_lt inner) (skipSpace_lt front)) taken
        · split at taken
          · cases taken
          · rename_i key
            exact value (Nat.lt_trans (skipKey_lt key) (skipSpace_lt front)) taken
      · split at taken
        · cases taken
        · rename_i scalar
          exact more (Nat.lt_of_lt_of_le (takeScalar_lt scalar) (skipSpace_le s)) taken
    · intro brackets rest taken
      rw [skipRest.eq_def] at taken
      split at taken
      · cases taken
        exact Nat.le_refl _
      · split at taken
        · cases taken
        · rename_i front
          exact Nat.le_of_lt (more (skipSpace_lt front) taken)
        · rename_i front
          exact Nat.le_of_lt (value (skipSpace_lt front) taken)
        · cases taken
      · split at taken
        · cases taken
        · rename_i front
          exact Nat.le_of_lt (more (skipSpace_lt front) taken)
        · rename_i front
          split at taken
          · cases taken
          · rename_i key
            exact Nat.le_of_lt (value (Nat.lt_trans (skipKey_lt key) (skipSpace_lt front)) taken)
        · cases taken

theorem skipValue_lt {brackets : List Bracket} {s rest : List Char}
    (taken : skipValue brackets s = .ok rest) : rest.length < s.length :=
  (skip_shortens s.length s rfl).1 brackets rest taken

end KindScript.Json
