import KindScript.Proofs.Scanning.Layout
import Mathlib.Data.Nat.Digits.Defs

/-!
# Quoted literals

The inside of a string or of a character literal is written in units, each of which stands
for one character. A text that begins with a quote begins with a literal exactly where units
and the closing quote follow, and the units spell its text. Where a string fails, its first
bad escape or its opening quote is at fault.
-/

namespace KindScript

/-- The error is that of an escape. -/
def ScanError.Cause.IsEscape : ScanError.Cause → Prop
  | .escapeCutOff | .codeCutOff _ | .codeDigit _ | .codeOutOfRange _ _ => True
  | _ => False

namespace Scanning

open Token

/-! ## Units -/

/-- The letters that stand for controls after a backslash. -/
def controls : List (Char × Char) :=
  [('n', '\n'), ('t', '\t'), ('r', '\r'), ('0', '\x00'), ('a', '\x07'), ('b', '\x08'),
    ('f', '\x0c'), ('v', '\x0b'), ('e', '\x1b')]

/-- The hexadecimal digits of both cases with their values. -/
def hexDigits : List (Char × Nat) :=
  "0123456789abcdef".toList.zipIdx ++ "ABCDEF".toList.zipIdx 10

/-- The digits are hexadecimal and write the number of the character, so the number is that
of a Unicode scalar value. -/
def Names (digits : List Char) (c : Char) : Prop :=
  ∃ values, List.Forall₂ (fun d n => (d, n) ∈ hexDigits) digits values ∧
    Nat.ofDigits 16 values.reverse = c.toNat

/-- One character of a literal as it is written, where some may stand for themselves. -/
inductive QuotedUnit (raw : Char → Prop) : List Char → Char → Prop where
  | raw {c : Char} (plain : raw c) : QuotedUnit raw [c] c
  | control {letter c : Char} (named : (letter, c) ∈ controls) : QuotedUnit raw ['\\', letter] c
  | hexadecimal {digits : List Char} {c : Char} (length : digits.length = 2)
    (names : Names digits c) : QuotedUnit raw ('\\' :: 'x' :: digits) c
  | unicode {digits : List Char} {c : Char} (length : digits.length = 4)
    (names : Names digits c) : QuotedUnit raw ('\\' :: 'u' :: digits) c
  | itself {c : Char} (code : c ≠ 'x' ∧ c ≠ 'u') (control : ∀ named, (c, named) ∉ controls) :
    QuotedUnit raw ['\\', c] c

/-- A sequence of units and the characters that they stand for. -/
inductive Units (raw : Char → Prop) : List Char → List Char → Prop where
  | nil : Units raw [] []
  | cons {u cs text : List Char} {c : Char} (unit : QuotedUnit raw u c)
    (more : Units raw cs text) : Units raw (u ++ cs) (c :: text)

/-- The characters that stand for themselves in a string. -/
def StringRaw (c : Char) : Prop :=
  c ≠ '"' ∧ c ≠ '\\'

/-- The characters that stand for themselves in a character literal. -/
def CharRaw (c : Char) : Prop :=
  c ≠ '\'' ∧ c ≠ '\\' ∧ c ≠ '\n' ∧ c ≠ '\r' ∧ c ≠ '\t'

/-! ## What scanning makes of units -/

/-- What holds of six characters in a row holds of every one between the first and the last. -/
theorem forall_between {P : Char → Prop} {first last d : Char}
    (six : ∀ i < 6, P (Char.ofNat (first.toNat + i))) (few : last.toNat < first.toNat + 6)
    (between : first ≤ d ∧ d ≤ last) : P d := by
  have low : first.toNat ≤ d.toNat := UInt32.le_iff_toNat_le.mp between.1
  have high : d.toNat ≤ last.toNat := UInt32.le_iff_toNat_le.mp between.2
  obtain ⟨i, same⟩ := Nat.exists_eq_add_of_le low
  have holds := six i (by omega)
  rwa [← same, Char.ofNat_toNat] at holds

theorem hexValue?_eq_some_iff {d : Char} {n : Nat} :
    Text.hexValue? d = some n ↔ (d, n) ∈ hexDigits := by
  constructor
  · intro value
    unfold Text.hexValue? at value
    split at value
    · rename_i digit
      cases value
      exact forall_isDigit (P := fun d => (d, d.toNat - 48) ∈ hexDigits) (by decide) digit
    split at value
    · rename_i lower
      cases value
      exact forall_between (P := fun d => (d, d.toNat - 87) ∈ hexDigits) (by decide)
        (by decide) lower
    split at value
    · rename_i upper
      cases value
      exact forall_between (P := fun d => (d, d.toNat - 55) ∈ hexDigits) (by decide)
        (by decide) upper
    · cases value
  · have all : ∀ digit ∈ hexDigits, Text.hexValue? digit.1 = some digit.2 := by decide
    exact all (d, n)

theorem foldlM_hexValue?_eq_some_iff {digits : List Char} {start code : Nat} :
    digits.foldlM (fun n d => (Text.hexValue? d).map (16 * n + ·)) start = some code ↔
      ∃ values, List.Forall₂ (fun d n => (d, n) ∈ hexDigits) digits values ∧
        values.foldl (16 * · + ·) start = code := by
  induction digits generalizing start with
  | nil => simp
  | cons d digits ih =>
    rw [List.foldlM_cons, Option.bind_eq_bind, Option.bind_eq_some_iff]
    constructor
    · rintro ⟨next, first, more⟩
      obtain ⟨n, value, rfl⟩ := Option.map_eq_some_iff.mp first
      obtain ⟨values, named, total⟩ := ih.mp more
      exact ⟨n :: values, .cons (hexValue?_eq_some_iff.mp value) named, total⟩
    · rintro ⟨values, named, total⟩
      cases named with
      | @cons _ n _ values digit named =>
        refine ⟨16 * start + n, ?_, ih.mpr ⟨values, named, total⟩⟩
        rw [hexValue?_eq_some_iff.mpr digit, Option.map_some]

theorem charOfHex?_eq_some_iff {digits : List Char} {c : Char} :
    charOfHex? digits = some c ↔ Names digits c := by
  have number (values : List Nat) :
      Nat.ofDigits 16 values.reverse = values.foldl (16 * · + ·) 0 := by
    rw [Nat.ofDigits_eq_foldr, List.foldr_reverse]
    simp only [Nat.cast_id, Nat.add_comm]
  simp only [Names, number]
  rw [charOfHex?, Option.bind_eq_bind, Option.bind_eq_some_iff]
  constructor
  · rintro ⟨code, read, valid⟩
    obtain ⟨values, named, total⟩ := foldlM_hexValue?_eq_some_iff.mp read
    split at valid
    · rename_i scalar
      cases valid
      refine ⟨values, named, ?_⟩
      rw [total, Char.toNat_ofNat, if_pos scalar]
    · cases valid
  · rintro ⟨values, named, total⟩
    have scalar : c.toNat.isValidChar := c.valid
    refine ⟨c.toNat, foldlM_hexValue?_eq_some_iff.mpr ⟨values, named, total⟩, ?_⟩
    rw [if_pos scalar, Char.ofNat_toNat]

theorem escaped_of_mem {letter c : Char} (named : (letter, c) ∈ controls) :
    escaped letter = c := by
  have all : ∀ control ∈ controls, escaped control.1 = control.2 := by decide
  exact all (letter, c) named

theorem escaped_of_notMem {c : Char} (control : ∀ named, (c, named) ∉ controls) :
    escaped c = c := by
  have cases : (c, escaped c) ∈ controls ∨ escaped c = c := by
    unfold escaped
    split <;> first | exact .inl (by decide) | exact .inr rfl
  exact cases.resolve_left (control _)

theorem escape_iff {raw : Char → Prop} (backslash : ¬ raw '\\') {e : List Char} {c : Char} :
    QuotedUnit raw ('\\' :: e) c ↔ Escape e c := by
  constructor
  · intro unit
    generalize same : '\\' :: e = u at unit
    cases unit with
    | raw plain =>
      cases same
      exact absurd plain backslash
    | @control letter c named =>
      cases same
      have letters : ∀ control ∈ controls, control.1 ≠ 'u' ∧ control.1 ≠ 'x' := by decide
      rw [← escaped_of_mem named]
      exact .letter (letters _ named).1 (letters _ named).2
    | hexadecimal length names =>
      cases same
      exact .hexadecimal length (charOfHex?_eq_some_iff.mpr names)
    | unicode length names =>
      cases same
      exact .unicode length (charOfHex?_eq_some_iff.mpr names)
    | itself code control =>
      cases same
      have letter := Escape.letter code.2 code.1
      rwa [escaped_of_notMem control] at letter
  · intro escapes
    cases escapes with
    | unicode length code => exact .unicode length (charOfHex?_eq_some_iff.mp code)
    | hexadecimal length code => exact .hexadecimal length (charOfHex?_eq_some_iff.mp code)
    | @letter c unicode hexadecimal =>
      by_cases control : ∃ named, (c, named) ∈ controls
      · obtain ⟨named, mem⟩ := control
        rw [escaped_of_mem mem]
        exact .control mem
      · rw [escaped_of_notMem (not_exists.mp control)]
        exact .itself ⟨hexadecimal, unicode⟩ (not_exists.mp control)

theorem QuotedUnit.raw_or_backslash {raw : Char → Prop} {u : List Char} {c : Char}
    (unit : QuotedUnit raw u c) : (u = [c] ∧ raw c) ∨ ∃ e, u = '\\' :: e := by
  cases unit with
  | raw plain => exact .inl ⟨rfl, plain⟩
  | control | hexadecimal | unicode | itself => exact .inr ⟨_, rfl⟩

theorem units_iff_quoted {inside text : List Char} :
    Units StringRaw inside text ↔ Quoted inside text := by
  have backslash : ¬ StringRaw '\\' := fun plain => plain.2 rfl
  constructor
  · intro units
    induction units with
    | nil => exact .nil
    | cons unit _ ih =>
      rcases unit.raw_or_backslash with ⟨rfl, quote, plain⟩ | ⟨e, rfl⟩
      · exact .plain quote plain ih
      · exact .escape ((escape_iff backslash).mp unit) ih
  · intro quoted
    induction quoted with
    | nil => exact .nil
    | plain quote plain _ ih => exact .cons (.raw ⟨quote, plain⟩) ih
    | escape escapes _ ih => exact .cons ((escape_iff backslash).mpr escapes) ih

theorem quotedUnit_iff_quotedChar {inside : List Char} {c : Char} :
    QuotedUnit CharRaw inside c ↔ QuotedChar inside c := by
  have backslash : ¬ CharRaw '\\' := fun plain => plain.2.1 rfl
  constructor
  · intro unit
    rcases unit.raw_or_backslash with ⟨rfl, quote, plain, newline, carriage, tab⟩ | ⟨e, rfl⟩
    · exact .plain quote plain (by simp [newline, carriage, tab])
    · exact .escape ((escape_iff backslash).mp unit)
  · intro quoted
    cases quoted with
    | plain quote plain control =>
      simp only [not_or] at control
      exact .raw ⟨quote, plain, control⟩
    | escape escapes => exact (escape_iff backslash).mpr escapes

/-- After the units comes a backslash with which no unit begins. -/
structure BreaksOff (s inside : List Char) : Prop where
  units : ∃ text, Units StringRaw inside text
  none : ∃ tail, s = inside ++ '\\' :: tail ∧
    ∀ u c, QuotedUnit StringRaw u c → ¬ u <+: '\\' :: tail

/-- The units of a string go on up to a quote, to a backslash that begins none, or to the end
of the text. -/
theorem units_cases (s : List Char) :
    (∃ inside text rest, Units StringRaw inside text ∧ s = inside ++ '"' :: rest) ∨
      (∃ inside, BreaksOff s inside) ∨ ∃ text, Units StringRaw s text := by
  induction length : s.length using Nat.strong_induction_on generalizing s with
  | h n ih =>
    -- Either a unit comes first and the rest is shorter, or none does.
    by_cases unit : ∃ u c, QuotedUnit StringRaw u c ∧ u <+: s
    · obtain ⟨u, c, unit, more, rfl⟩ := unit
      have shorter : more.length < n := by
        have some : 0 < u.length := by
          rcases unit.raw_or_backslash with ⟨rfl, _⟩ | ⟨e, rfl⟩ <;> exact Nat.succ_pos _
        rw [List.length_append] at length
        omega
      rcases ih _ shorter more rfl with
        ⟨inside, text, rest, units, rfl⟩ | ⟨inside, ⟨text, units⟩, tail, rfl, none⟩ | ⟨text, units⟩
      · exact .inl ⟨u ++ inside, c :: text, rest, .cons unit units, by rw [List.append_assoc]⟩
      · exact .inr (.inl ⟨u ++ inside, ⟨c :: text, .cons unit units⟩, tail,
          by rw [List.append_assoc], none⟩)
      · exact .inr (.inr ⟨c :: text, .cons unit units⟩)
    · have none (u : List Char) (c : Char) (begins : QuotedUnit StringRaw u c) : ¬ u <+: s :=
        fun cut => unit ⟨u, c, begins, cut⟩
      cases s with
      | nil => exact .inr (.inr ⟨[], .nil⟩)
      | cons d more =>
        by_cases quote : d = '"'
        · exact .inl ⟨[], [], more, .nil, quote ▸ rfl⟩
        by_cases backslash : d = '\\'
        · subst backslash
          exact .inr (.inl ⟨[], ⟨[], .nil⟩, more, rfl, none⟩)
        -- Any other character is a unit itself.
        · exact absurd (List.prefix_append [d] more) (none [d] d (.raw ⟨quote, backslash⟩))

/-! ## Literals -/

/-- The first word of the text is the token, with the rest of the text behind it. -/
inductive Begins (place : Position) : List Char → Token → List Char → Prop where
  | word {c : Char} {s : List Char} {kind : Kind} {text : String} (notBlank : isBlank c = false)
    (read : (lexeme c s).outcome = .ok (.word kind text)) :
    Begins place (c :: s) ⟨kind, text, place, place.advance (lexeme c s).read⟩ (lexeme c s).rest

theorem Begins.scanFrom_eq {place : Position} {s rest : List Char} {t : Token}
    (begins : Begins place s t rest) :
    (scanFrom place s).1 = (scanFrom t.stop rest).1.map (t :: ·) := by
  cases begins with
  | word notBlank read =>
    rw [scanFrom, if_neg (Bool.eq_false_iff.mp notBlank)]
    simp only [read, Piece.token?]

/-- A text that begins with the quote begins with a word exactly where the quote comes again
after the inside of a literal. The word is of the kind, has the text of the inside, and goes
from the one quote to just after the other. -/
def Decodes (quote : Char) (kind : Kind) (Inside : List Char → List Char → Prop) : Prop :=
  ∀ place s t rest, Begins place (quote :: s) t rest ↔
    ∃ inside text, Inside inside text ∧ s = inside ++ quote :: rest ∧
      t = ⟨kind, String.ofList text, place, place.advance (quote :: (inside ++ [quote]))⟩

theorem decodes_of_lexeme {quote : Char} {kind : Kind} {Inside : List Char → List Char → Prop}
    (notBlank : isBlank quote = false)
    (sound : ∀ s piece, (lexeme quote s).outcome = .ok piece → ∃ inside text,
      Inside inside text ∧ piece = .word kind (String.ofList text) ∧
        (lexeme quote s).read = quote :: (inside ++ [quote]))
    (complete : ∀ inside text rest, Inside inside text →
      lexeme quote (inside ++ quote :: rest) =
        found (.word kind (String.ofList text)) (quote :: (inside ++ [quote])) rest) :
    Decodes quote kind Inside := by
  intro place s t rest
  constructor
  · intro begins
    cases begins with
    | word _ read =>
      obtain ⟨inside, text, fits, piece, same⟩ := sound s _ read
      cases piece
      have split := lexeme_split quote s
      rw [same] at split
      exact ⟨inside, text, fits, by simpa using split.symm, by rw [same]⟩
  · rintro ⟨inside, text, fits, rfl, rfl⟩
    have read := complete inside text rest fits
    have begins : Begins place (quote :: (inside ++ quote :: rest)) _ _ :=
      .word notBlank (congrArg Reading.outcome read)
    rw [read] at begins
    exact begins

theorem decodes_strings : Decodes '"' .string (Units StringRaw) := by
  apply decodes_of_lexeme rfl
  case sound =>
    intro s piece ok
    obtain ⟨text, body, rfl⟩ := map_eq_ok.mp ok
    obtain ⟨inside, quoted, read⟩ := quoted_of_stringBody body
    exact ⟨inside, text, units_iff_quoted.mpr quoted, rfl, congrArg ('"' :: ·) read⟩
  case complete =>
    intro inside text rest units
    have body := stringBody_of_quoted (units_iff_quoted.mp units) 1 rest
    have lexed : lexeme '"' (inside ++ '"' :: rest) =
        (stringLiteral (inside ++ '"' :: rest)).after ['"'] := rfl
    rw [lexed, stringLiteral, body]
    rfl

theorem decodes_chars :
    Decodes '\'' .char (fun inside text => ∃ c, QuotedUnit CharRaw inside c ∧ text = [c]) := by
  apply decodes_of_lexeme rfl
  case sound =>
    intro s piece ok
    obtain ⟨inside, c, quoted, rfl, read⟩ := quotedChar_of_charLiteral ok
    exact ⟨inside, [c], ⟨c, quotedUnit_iff_quotedChar.mpr quoted, rfl⟩, rfl,
      congrArg ('\'' :: ·) read⟩
  case complete =>
    rintro inside text rest ⟨c, unit, rfl⟩
    have literal := charLiteral_of_quoted (quotedUnit_iff_quotedChar.mp unit) rest
    have lexed : lexeme '\'' (inside ++ '\'' :: rest) =
        (charLiteral (inside ++ '\'' :: rest)).after ['\''] := rfl
    rw [lexed, literal]
    rfl

/-! ## Strings that fail -/

/-- An escape that fails does so at its backslash. -/
theorem fault_of_escape {offset : Nat} {s : List Char} {fault : Fault}
    (error : (Token.escape offset s).outcome = .error fault) :
    fault.offset = offset ∧ fault.cause.IsEscape := by
  have code {form : ScanError.CodeForm} {s : List Char}
      (error : (charCode offset form s).outcome = .error fault) :
      fault.offset = offset ∧ fault.cause.IsEscape := by
    unfold charCode at error
    simp only at error
    split at error
    · split at error <;> cases error
      exact ⟨rfl, trivial⟩
    · split at error <;> cases error <;> exact ⟨rfl, trivial⟩
  unfold Token.escape at error
  split at error
  · cases error
    exact ⟨rfl, trivial⟩
  · exact code error
  · exact code error
  · cases error

theorem stringBody_of_breaksOff {s inside : List Char} (breaks : BreaksOff s inside) :
    ∃ cause more rest, cause.IsEscape ∧ stringBody 1 s =
      ⟨.error ⟨cause, 1 + inside.length⟩, inside ++ '\\' :: more, rest⟩ := by
  obtain ⟨text, units⟩ := breaks.units
  obtain ⟨tail, rfl, none⟩ := breaks.none
  have body := stringBody_append (units_iff_quoted.mp units) 1 ('\\' :: tail)
  cases escaped : (Token.escape (1 + inside.length) tail).outcome with
  | ok c =>
    have backslash : ¬ StringRaw '\\' := fun plain => plain.2 rfl
    have unit := (escape_iff backslash).mpr (escape_of_ok escaped)
    have splits : (Token.escape (1 + inside.length) tail).Splits tail := escape_splits _ tail
    -- An escape that is read is a unit, and none begins here.
    exact absurd ⟨_, congrArg ('\\' :: ·) splits⟩ (none _ c unit)
  | error fault =>
    obtain ⟨cause, offset⟩ := fault
    obtain ⟨rfl, escape⟩ := fault_of_escape escaped
    rw [stringBody] at body
    simp only [escaped] at body
    exact ⟨cause, _, _, escape, body⟩

theorem stringBody_of_unclosed {s text : List Char} (units : Units StringRaw s text) :
    stringBody 1 s = failed .unclosedString s [] := by
  have body := stringBody_append (units_iff_quoted.mp units) 1 []
  rw [List.append_nil, stringBody] at body
  rw [body]
  simp [failed, Reading.after, Reading.map, Except.map]

theorem scanFrom_of_stringBody {s read rest : List Char} {fault : Fault}
    (error : stringBody 1 s = ⟨.error fault, read, rest⟩) (place : Position) :
    (scanFrom place ('"' :: s)).1 = .error (fault.locate place ('"' :: read)) := by
  have lexed : lexeme '"' s = ⟨.error fault, '"' :: read, rest⟩ := by
    have literal : lexeme '"' s = (stringLiteral s).after ['"'] := rfl
    rw [literal, stringLiteral, error]
    rfl
  have failed : (lexeme '"' s).outcome = .error fault := congrArg Reading.outcome lexed
  rw [scanFrom_of_failed rfl failed, lexed]

/-- The quote and the units before what comes next. -/
theorem take_quote (quote : Char) (inside more : List Char) :
    (quote :: (inside ++ more)).take (1 + inside.length) = quote :: inside := by
  rw [Nat.add_comm, List.take_succ_cons, List.take_left]

theorem error_of_breaksOff {s inside : List Char} (breaks : BreaksOff s inside)
    (place : Position) : ∃ e, (scanFrom place ('"' :: s)).1 = .error e ∧
      e.position = place.advance ('"' :: inside) := by
  obtain ⟨cause, more, rest, _, body⟩ := stringBody_of_breaksOff breaks
  have passed := take_quote '"' inside ('\\' :: more)
  exact ⟨_, scanFrom_of_stringBody body place, congrArg place.advance passed⟩

/-- A text that begins with a quote and not with a string cannot be scanned. The error is at
the first backslash with which no unit begins, or at the quote if there is none. -/
theorem error_of_string {place : Position} {s : List Char}
    (none : ∀ t rest, ¬ Begins place ('"' :: s) t rest) :
    ∃ e, (scanFrom place ('"' :: s)).1 = .error e ∧
      (∀ inside, BreaksOff s inside → e.position = place.advance ('"' :: inside)) ∧
      ((∀ inside, ¬ BreaksOff s inside) → e.position = place) := by
  have broken {e : ScanError} (failed : (scanFrom place ('"' :: s)).1 = .error e)
      (inside : List Char) (breaks : BreaksOff s inside) :
      e.position = place.advance ('"' :: inside) := by
    obtain ⟨e', failed', position⟩ := error_of_breaksOff breaks place
    cases failed.symm.trans failed'
    exact position
  rcases units_cases s with ⟨inside, text, rest, closed⟩ | ⟨inside, breaks⟩ | ⟨text, units⟩
  · exact absurd ((decodes_strings place s _ rest).mpr ⟨inside, text, closed.1, closed.2, rfl⟩)
      (none _ _)
  · obtain ⟨e, failed, _⟩ := error_of_breaksOff breaks place
    exact ⟨e, failed, broken failed, fun never => absurd breaks (never inside)⟩
  · have failed := scanFrom_of_stringBody (stringBody_of_unclosed units) place
    exact ⟨_, failed, broken failed, fun _ => rfl⟩

/-- How the texts that begin with a quote are scanned. -/
structure DecodesLiterals : Prop where
  strings : Decodes '"' .string (Units StringRaw)
  chars : Decodes '\'' .char fun inside text => ∃ c, QuotedUnit CharRaw inside c ∧ text = [c]
  /-- A text that begins with a word is scanned for it and for what comes after it. -/
  scans : ∀ place s t rest, Begins place s t rest →
    (scanFrom place s).1 = (scanFrom t.stop rest).1.map (t :: ·)
  fails : ∀ place s, (∀ t rest, ¬ Begins place ('"' :: s) t rest) →
    ∃ e, (scanFrom place ('"' :: s)).1 = .error e ∧
      (∀ inside, BreaksOff s inside → e.position = place.advance ('"' :: inside)) ∧
      ((∀ inside, ¬ BreaksOff s inside) → e.position = place)

/-- Quoted literals are decoded by the grammar of their units. -/
theorem decodes_literals : DecodesLiterals := by
  constructor
  case strings => exact decodes_strings
  case chars => exact decodes_chars
  case scans =>
    intro place s t rest
    exact Begins.scanFrom_eq
  case fails =>
    intro place s
    exact error_of_string

end Scanning

end KindScript
