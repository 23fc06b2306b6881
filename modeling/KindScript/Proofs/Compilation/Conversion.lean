import KindScript.Proofs.Parsing.Descent
import KindScript.Proofs.Scanning.Spelling

/-!
# The parser converts what scanning hands on

Scanning and parsing check the literals and the operators each on their own. What scanning
has let through the parser converts, whatever stands around it, but for whole numbers: one
with a fraction or out of the range of its kind is an error as soon as the parser comes to it.
-/

namespace KindScript

open KindScript.Tree Grammar Descent
open Scanning (Word IsDigits Scans forall_kindOfWord takeWhile_append_of_all
  dropWhile_append_of_all)

/-! ## Numerals -/

section Numerals

variable {text : List Char} {fractional : Bool}

theorem numeral_head (numeral : Scanning.Numeral text text fractional) :
    ∃ d more, text = d :: more ∧ d.isDigit = true := by
  have head {ds : List Char} (digits : IsDigits ds) (rest : List Char) :
      ∃ d more, ds ++ rest = d :: more ∧ d.isDigit = true := by
    obtain ⟨d, more, rfl⟩ := List.exists_cons_of_ne_nil digits.some
    exact ⟨d, more ++ rest, rfl, digits.digits d List.mem_cons_self⟩
  cases numeral with
  | whole digits => simpa using head digits []
  | fraction digits fraction => exact head digits _

/-- A numeral is of digits alone, or it has a point. -/
theorem numeral_cases (numeral : Scanning.Numeral text text fractional) :
    IsDigits text ∨ '.' ∈ text := by
  cases numeral with
  | whole digits => exact .inl digits
  | fraction digits fraction => exact .inr (by simp)

theorem decimal?_of_isDigits (digits : IsDigits text) :
    Text.decimal? text = some (Text.decimalValue text) := by
  have nonempty : text.isEmpty = false := List.isEmpty_eq_false_iff.mpr digits.some
  rw [Text.decimal?, nonempty, List.all_eq_true.mpr digits.digits]
  rfl

theorem decimal?_of_point (point : '.' ∈ text) : Text.decimal? text = none := by
  have all : text.all Char.isDigit = false := List.all_eq_false.mpr ⟨'.', point, by decide⟩
  rw [Text.decimal?, all, Bool.and_false]
  rfl

theorem span_of_isDigits {ds : List Char} (digits : IsDigits ds) (rest : List Char)
    (stops : ∀ c ∈ rest.head?, c.isDigit = false) :
    (ds ++ rest).span Char.isDigit = (ds, rest) := by
  rw [List.span_eq_takeWhile_dropWhile, takeWhile_append_of_all digits.digits stops,
    dropWhile_append_of_all digits.digits stops]

/-- Every numeral names a floating-point number. -/
theorem ofUnsigned?_of_numeral (f : Format) (negative : Bool)
    (numeral : Scanning.Numeral text text fractional) :
    ∃ x, Binary.ofUnsigned? f negative text = some x := by
  unfold Binary.ofUnsigned?
  simp only
  split
  · exact ⟨_, rfl⟩
  split
  · exact ⟨_, rfl⟩
  cases numeral with
  | whole digits =>
    have read := span_of_isDigits digits [] (by simp)
    rw [List.append_nil] at read
    have nonempty : text.isEmpty = false := List.isEmpty_eq_false_iff.mpr digits.some
    rw [read, Binary.fractionOf, nonempty]
    exact ⟨_, rfl⟩
    nofun
  | @fraction ds fs digits fraction =>
    have read := span_of_isDigits digits ('.' :: fs) (by simp)
    have read' := span_of_isDigits fraction [] (by simp)
    rw [List.append_nil] at read'
    have nonempty : ds.isEmpty = false := List.isEmpty_eq_false_iff.mpr digits.some
    rw [read, Binary.fractionOf, read', nonempty]
    exact ⟨_, rfl⟩

end Numerals

/-! ## What the text of a word tells by its kind -/

/-- What the parser relies on in the text of a word. -/
def Readable (kind : Token.Kind) (text : String) : Prop :=
  match kind with
  | .char => ∃ c, text.toList = [c]
  | .equalsOperator => text = "="
  | .assignmentOperator => text = "++" ∨ text = "--" ∨ ∃ op : ArithmeticOp, text = op.symbol ++ "="
  | .byte => IsDigits text.toList ∧ Text.decimalValue text.toList < 256
  | .integer | .long | .float | .double =>
    ∃ fractional, Scanning.Numeral text.toList text.toList fractional
  | _ => True

theorem readable_of_suffix {text : String} {suffix : List Char} {fractional fractional' : Bool}
    {kind : Token.Kind} (numeral : Scanning.Numeral text.toList text.toList fractional)
    (fixes : Scanning.Suffix text.toList fractional' suffix kind) : Readable kind text := by
  have number : ∃ fractional, Scanning.Numeral text.toList text.toList fractional :=
    ⟨fractional, numeral⟩
  cases fixes with
  | none => cases fractional' <;> exact number
  | letter names byte =>
    unfold Token.kindOfSuffix? at names
    split at names <;> cases names
    case h_1 =>
      have small := byte rfl
      rw [Token.isByteText, Bool.and_eq_true, List.all_eq_true, decide_eq_true_eq] at small
      obtain ⟨d, more, same, _⟩ := numeral_head numeral
      exact ⟨⟨by simp [same], small.1⟩, small.2⟩
    all_goals exact number

theorem readable_of_word {cs : List Char} {kind : Token.Kind} {text : String}
    (word : Word cs kind text) : Readable kind text := by
  cases word with
  | name =>
    refine forall_kindOfWord (P := fun kind => Readable kind _) trivial ?_ _
    simp [Token.keywords, Readable]
  | @number _ text _ _ _ numeral fixes =>
    obtain ⟨fractional, numeral⟩ := numeral.text
    rw [← String.toList_ofList (l := text)] at numeral fixes
    exact readable_of_suffix numeral fixes
  | string => trivial
  | char => exact ⟨_, String.toList_singleton _⟩
  | dot => trivial
  | single names =>
    unfold Token.kindOfSingle? at names
    split at names <;> cases names <;> trivial
  | pair names =>
    have compound {text : String} {op : ArithmeticOp} (known : compoundOf? text = some op) :
        Readable .assignmentOperator text := .inr (.inr ⟨op, compoundOf?_eq_some.mp known⟩)
    unfold Token.kindOfPair? at names
    split at names <;> cases names
    all_goals first
      | trivial
      | exact .inl rfl
      | exact .inr (.inl rfl)
      | exact compound rfl

/-! ## Conversion -/

/-- A number with the sign before it. -/
def withSign (negative : Bool) (n : Nat) : Int :=
  if negative then -(n : Int) else n

/-- The least and the greatest number of a kind of whole numbers that takes a sign. -/
def range? : Token.Kind → Option (Int × Int)
  | .integer => some (-2 ^ 31, 2 ^ 31 - 1)
  | .long => some (-2 ^ 63, 2 ^ 63 - 1)
  | _ => none

/-- No number of the range is spelled: the text has a fraction, or its value with the sign
lies outside. -/
inductive Unfit (range : Int × Int) (negative : Bool) (text : String) : Prop where
  | fraction (point : '.' ∈ text.toList)
  | outside (digits : IsDigits text.toList)
    (beyond : ¬ (range.1 ≤ withSign negative (Text.decimalValue text.toList) ∧
      withSign negative (Text.decimalValue text.toList) ≤ range.2))

section Conversion

variable {text : String} {fractional : Bool}

theorem ne_sign_of_isDigit {d : Char} (digit : d.isDigit = true) : d ≠ '-' ∧ d ≠ '+' := by
  constructor
  · rintro rfl
    cases digit
  · rintro rfl
    cases digit

theorem toList_signed (negative : Bool) (text : String) :
    (signed negative text).toList = if negative then '-' :: text.toList else text.toList := by
  cases negative with
  | false => rfl
  | true => exact String.toList_append

theorem ofText?_of_numeral (f : Format) (negative : Bool)
    (numeral : Scanning.Numeral text.toList text.toList fractional) :
    ∃ x, Binary.ofText? f (signed negative text) = some x := by
  have read : Binary.takeSign (signed negative text).toList = (negative, text.toList) := by
    rw [toList_signed]
    cases negative with
    | true => rfl
    | false =>
      obtain ⟨d, more, same, digit⟩ := numeral_head numeral
      obtain ⟨minus, plus⟩ := ne_sign_of_isDigit digit
      simp [same, Binary.takeSign, minus, plus]
  rw [Binary.ofText?, read]
  exact ofUnsigned?_of_numeral f negative numeral

theorem wholeNumber?_signed (negative : Bool)
    (numeral : Scanning.Numeral text.toList text.toList fractional) :
    Text.wholeNumber? (signed negative text).toList =
      (Text.decimal? text.toList).map (withSign negative) := by
  rw [toList_signed]
  cases negative with
  | true =>
    show Text.wholeNumber? ('-' :: text.toList) = _
    rw [Text.wholeNumber?]
    cases Text.decimal? text.toList <;> rfl
  | false =>
    obtain ⟨d, more, same, digit⟩ := numeral_head numeral
    obtain ⟨minus, plus⟩ := ne_sign_of_isDigit digit
    rw [if_neg Bool.false_ne_true, same]
    unfold Text.wholeNumber?
    split
    · rename_i sign
      cases sign
      exact absurd rfl minus
    · rename_i sign
      cases sign
      exact absurd rfl plus
    · cases Text.decimal? (d :: more) <;> rfl

/-- A whole number is refused for its fraction or for its value. -/
theorem wholeNumber?_within_eq_none {α : Type} (range : Int × Int) (make : Int → α)
    (negative : Bool) (numeral : Scanning.Numeral text.toList text.toList fractional) :
    ((Text.wholeNumber? (signed negative text).toList).bind fun n =>
        if range.1 ≤ n ∧ n ≤ range.2 then some (make n) else none) = none ↔
      Unfit range negative text := by
  rw [wholeNumber?_signed negative numeral]
  rcases numeral_cases numeral with digits | point
  · have plain : '.' ∉ text.toList := fun point => absurd (digits.digits '.' point) (by decide)
    rw [decimal?_of_isDigits digits, Option.map_some, Option.bind_some]
    constructor
    · intro refused
      exact .outside digits fun within => by
        rw [if_pos within] at refused
        cases refused
    · rintro (point | ⟨_, beyond⟩)
      · exact absurd point plain
      · exact if_neg beyond
  · rw [decimal?_of_point point]
    exact iff_of_true rfl (.fraction point)

theorem byteOfText?_of_digits (digits : IsDigits text.toList)
    (small : Text.decimalValue text.toList < 256) : ∃ v, Number.byteOfText? text = some v := by
  have numeral : Scanning.Numeral text.toList text.toList false := .whole digits
  have value : Text.wholeNumber? text.toList = some (Text.decimalValue text.toList : Int) := by
    have read := wholeNumber?_signed false numeral
    rwa [decimal?_of_isDigits digits] at read
  obtain ⟨d, more, same, digit⟩ := numeral_head numeral
  unfold Number.byteOfText?
  split
  · rename_i minus
    rw [same] at minus
    cases minus
    cases digit
  · rw [value, Option.bind_some, if_pos (by omega)]
    exact ⟨_, rfl⟩

/-- What is not converted of the literals that scanning hands on. A byte takes no sign. -/
theorem ofToken?_eq_none {kind : Token.Kind} {negative : Bool} (readable : Readable kind text)
    (takes : kind = .byte ∧ negative = false ∨ Signed kind) :
    Number.ofToken? kind (signed negative text) = none ↔
      ∃ range, range? kind = some range ∧ Unfit range negative text := by
  have converts {α : Type} {read : Option α} {make : α → Number} (found : ∃ x, read = some x)
      (free : range? kind = none) : read.map make = none ↔
        ∃ range, range? kind = some range ∧ Unfit range negative text := by
    obtain ⟨x, rfl⟩ := found
    simp [free]
  have within {α : Type} {read : Option α} {make : α → Number} {range : Int × Int}
      (bounded : range? kind = some range) (refused : read = none ↔ Unfit range negative text) :
      read.map make = none ↔ ∃ range, range? kind = some range ∧ Unfit range negative text := by
    simpa [bounded] using refused
  rcases takes with ⟨rfl, rfl⟩ | rfl | rfl | rfl | rfl
  · exact converts (byteOfText?_of_digits readable.1 readable.2) rfl
  · obtain ⟨fractional, numeral⟩ := readable
    exact within rfl (wholeNumber?_within_eq_none (Int32.minValue.toInt, Int32.maxValue.toInt)
      Int32.ofInt negative numeral)
  · obtain ⟨fractional, numeral⟩ := readable
    exact converts (ofText?_of_numeral .single negative numeral) rfl
  · obtain ⟨fractional, numeral⟩ := readable
    exact within rfl (wholeNumber?_within_eq_none (Int64.minValue.toInt, Int64.maxValue.toInt)
      Int64.ofInt negative numeral)
  · obtain ⟨fractional, numeral⟩ := readable
    exact converts (ofText?_of_numeral .double negative numeral) rfl

end Conversion

/-! ## Errors of the parser -/

/-- The parser comes to where it reads the number of the token, after a minus where `negative`
says so. -/
def Consumes (tokens : List Token) (negative : Bool) (t : Token) : Prop :=
  ∃ room ts, Comes (program tokens) ⟨.tier .primary, room, ts⟩ ∧ StartsNumber negative t ts

/-- Of all that single words can be refused for, only the whole numbers are left: the parser
refuses those, and no others, that are unfit for the range of their kind. -/
structure Convertible (tokens : List Token) : Prop where
  known : ∀ e, parse tokens = .error e →
    e.cause ∉ [ParseError.Cause.unknownAssignment, .unknownOperator, .charLength, .unsignedKind]
  reason : ∀ text t, parse tokens = .error ⟨.invalidLiteral text, t⟩ →
    ParseError.reason ⟨.invalidLiteral text, t⟩ = "Invalid Integer literal '" ++ text ++ "'" ∨
      ParseError.reason ⟨.invalidLiteral text, t⟩ = "Invalid Long literal '" ++ text ++ "'"
  literal : ∀ text t, parse tokens = .error ⟨.invalidLiteral text, t⟩ ↔
    ∃ negative range, Consumes tokens negative t ∧ text = signed negative t.text ∧
      range? t.kind = some range ∧ Unfit range negative t.text

section Errors

variable {source : String} {tokens : List Token} {t : Token} {negative : Bool}

theorem Descent.StartsNumber.takes {ts : List Token} (numeral : StartsNumber negative t ts) :
    t.kind = .byte ∧ negative = false ∨ Signed t.kind := by
  cases numeral with
  | plain kind => exact kind.imp_left fun byte => ⟨byte, rfl⟩
  | plus sign text kind => exact .inr kind
  | minus sign text kind => exact .inr kind

theorem Descent.StartsNumber.mem {ts : List Token} (numeral : StartsNumber negative t ts) :
    t ∈ ts := by
  cases numeral <;> simp

/-- A primary expression that begins with a number is that number. -/
theorem primary_of_numeral (room : Nat) {ts : List Token} (numeral : StartsNumber negative t ts) :
    ∃ rest, (Counting.phrase room .primary).run ts =
      converted t (signed negative t.text) rest := by
  have run (us : List Token) : (Counting.phrase room .primary).run us =
      primary (Counting.below? Tree.expression room) us := rfl
  have literal {s : Token} {rest : List Token} (sign : s.kind = .binaryOperator)
      (text : s.text = "+" ∨ s.text = "-") (kind : Signed t.kind) :
      (Counting.phrase room .primary).run (s :: t :: rest) =
        converted t (if s.text = "-" then "-" ++ t.text else t.text) rest := by
    simp only [run, primary, sign]
    rw [signedNumber, if_pos ⟨text, takesSign_iff.mpr kind⟩, numberLiteral_of_signed kind]
  cases numeral with
  | @plain t rest kind =>
    refine ⟨rest, ?_⟩
    rw [run]
    rcases kind with byte | signed
    · simp only [primary, byte]
      rfl
    · rcases id signed with kind | kind | kind | kind
      all_goals
        simp only [primary, kind]
        exact numberLiteral_of_signed signed t.text rest
  | @plus s t rest sign text kind =>
    refine ⟨rest, ?_⟩
    rw [literal sign (.inl text) kind, text]
    rfl
  | @minus s t rest sign text kind =>
    refine ⟨rest, ?_⟩
    rw [literal sign (.inr text) kind, if_pos text]
    rfl

/-- The tokens of a goal that the parser of a source comes to can be read. -/
theorem readable_of_comes (scanned : tokenize source = .ok tokens) {g : Goal}
    (comes : Comes (program tokens) g) (mem : t ∈ g.tokens) : Readable t.kind t.text := by
  have among : t ∈ tokens.takeWhile (·.kind ≠ .endOfFile) := comes.suffix.subset mem
  have plain : t.kind ≠ .endOfFile := by simpa using List.mem_takeWhile_imp among
  have member : t ∈ tokens := (List.takeWhile_prefix _).subset among
  obtain ⟨cs, word⟩ := (Scans.of_scanFrom scanned).exists_word member plain
  exact readable_of_word word

/-- What a goal of the parser of a source finds is no error of a single word but of a number. -/
theorem known_of_grounds (scanned : tokenize source = .ok tokens) {g : Goal}
    (comes : Comes (program tokens) g) {token : Option Token} {cause : ParseError.Cause}
    (grounds : Grounds g token cause) :
    cause ∉ [ParseError.Cause.unknownAssignment, .unknownOperator, .charLength, .unsignedKind] := by
  cases grounds with
  | @unknownAssignment t mem sign simple compound =>
    have readable := readable_of_comes scanned comes mem
    simp only [List.mem_cons, List.not_mem_nil, or_false, not_or] at simple
    obtain ⟨equals, increment, decrement⟩ := simple
    rcases sign with kind | kind
    · rw [kind] at readable
      exact absurd readable equals
    · rw [kind] at readable
      rcases readable with same | same | ⟨op, same⟩
      · exact absurd same increment
      · exact absurd same decrement
      · exact absurd same (compound op)
  | @charLength t mem kind length =>
    have readable := readable_of_comes scanned comes mem
    rw [kind] at readable
    obtain ⟨c, same⟩ := readable
    exact absurd same (length c)
  | expected | unexpected | tooManyGroups | tooHigh | uninitializedConstant | invalidLiteral => simp

theorem literal_of_parse (scanned : tokenize source = .ok tokens) {text : String}
    (failed : parse tokens = .error ⟨.invalidLiteral text, t⟩) :
    ∃ negative range, Consumes tokens negative t ∧ text = signed negative t.text ∧
      range? t.kind = some range ∧ Unfit range negative t.text := by
  obtain ⟨stop, outcome, same, _⟩ := exists_stop failed
  obtain ⟨⟨task, room, ts⟩, comes, _, _, grounds⟩ := exists_finds outcome
  obtain ⟨cause, token, rest, opened⟩ := stop
  cases same
  -- A literal is refused only where a primary expression is read.
  cases grounds with
  | @invalidLiteral negative t task numeral invalid =>
    cases task
    have readable := readable_of_comes scanned comes numeral.mem
    obtain ⟨range, bounded, unfit⟩ :=
      (ofToken?_eq_none readable numeral.takes).mp invalid
    exact ⟨negative, range, ⟨room, ts, comes, numeral⟩, rfl, bounded, unfit⟩

theorem parse_of_unfit (scanned : tokenize source = .ok tokens)
    (consumes : Consumes tokens negative t) {range : Int × Int}
    (bounded : range? t.kind = some range) (unfit : Unfit range negative t.text) :
    parse tokens = .error ⟨.invalidLiteral (signed negative t.text), t⟩ := by
  obtain ⟨room, ts, comes, numeral⟩ := consumes
  have readable := readable_of_comes scanned comes numeral.mem
  have invalid := (ofToken?_eq_none readable numeral.takes).mpr ⟨range, bounded, unfit⟩
  obtain ⟨rest, read⟩ := primary_of_numeral room numeral
  have failed : Goal.outcome ⟨.tier .primary, room, ts⟩ =
      .error (.after (.invalidLiteral (signed negative t.text)) t rest) := by
    show verdict ((Counting.phrase room .primary).run ts) = _
    rw [read, converted, invalid]
    rfl
  exact parse_of_comes comes failed

end Errors

/-- Scanning only hands on what the parser converts. The parser of a source never reports an
unknown operator, a character of another length, a byte or a floating-point number. It reports
a whole number exactly when it comes to one that has a fraction or, with its sign, is out of
range. -/
theorem convertible_of_tokenize {source : String} {tokens : List Token}
    (scanned : tokenize source = .ok tokens) : Convertible tokens := by
  constructor
  case known =>
    intro e failed
    obtain ⟨stop, outcome, rfl, _⟩ := exists_stop failed
    obtain ⟨g, comes, _, finds⟩ := exists_finds outcome
    exact known_of_grounds scanned comes finds.grounds
  case reason =>
    intro text t failed
    obtain ⟨negative, range, _, _, bounded, _⟩ := literal_of_parse scanned failed
    unfold range? at bounded
    split at bounded
    · rename_i kind
      simp only [ParseError.reason, kind]
      exact .inl rfl
    · rename_i kind
      simp only [ParseError.reason, kind]
      exact .inr rfl
    · cases bounded
  case literal =>
    intro text t
    constructor
    · exact literal_of_parse scanned
    · rintro ⟨negative, range, consumes, rfl, bounded, unfit⟩
      exact parse_of_unfit scanned consumes bounded unfit

/-- A whole number that only a long one can hold, and a long one with a fraction. -/
private def fractionalLong : String :=
  "x = 2147483648l;\n-1.5L"

private def fractionalLongTokens : List Token :=
  [⟨.identifier, "x", ⟨1, 1⟩, ⟨1, 2⟩⟩, ⟨.equalsOperator, "=", ⟨1, 3⟩, ⟨1, 4⟩⟩,
    ⟨.long, "2147483648", ⟨1, 5⟩, ⟨1, 16⟩⟩, ⟨.semicolon, ";", ⟨1, 16⟩, ⟨1, 17⟩⟩,
    ⟨.binaryOperator, "-", ⟨2, 1⟩, ⟨2, 2⟩⟩, ⟨.long, "1.5", ⟨2, 2⟩, ⟨2, 6⟩⟩, .endOfFile ⟨2, 6⟩]

private def fraction : Token :=
  ⟨.long, "1.5", ⟨2, 2⟩, ⟨2, 6⟩⟩

theorem convertible_fractional_long :
    tokenize fractionalLong = .ok fractionalLongTokens ∧ Convertible fractionalLongTokens ∧
      parse fractionalLongTokens = .error ⟨.invalidLiteral "-1.5", fraction⟩ ∧
      ∃ negative range, Consumes fractionalLongTokens negative fraction ∧
        "-1.5" = signed negative fraction.text ∧ range? fraction.kind = some range ∧
        Unfit range negative fraction.text := by
  have scanned : tokenize fractionalLong = .ok fractionalLongTokens := by cbv
  have refused : parse fractionalLongTokens = .error ⟨.invalidLiteral "-1.5", fraction⟩ := by
    decide +kernel
  have converts := convertible_of_tokenize scanned
  exact ⟨scanned, converts, refused, (converts.literal _ _).mp refused⟩

end KindScript
