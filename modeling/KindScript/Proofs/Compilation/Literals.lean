import KindScript.Compile
import KindScript.Proofs.Parsing.Placement
import KindScript.Proofs.Parsing.Rendering
import KindScript.Proofs.Scanning.Spelling

/-!
# Literals through all stages

A list of literals is written as a program, each one a statement on a line of its own, and
compiling the program gives the list back. A minus stands directly before its digits and is a
word nevertheless; a semicolon ends every other word, and it keeps the minus of the next line
from being taken for an operator.
-/

namespace KindScript

open Token Scanning Grammar

/-- What has a literal without a point. -/
inductive Literal where
  | null
  | boolean (b : Bool)
  | string (s : String)
  | byte (v : UInt8)
  | integer (v : Int32)
  | long (v : Int64)
  | char (c : Char)

namespace Literal

/-- What the literal stands for. -/
def value : Literal → Value
  | null => .null
  | boolean b => .boolean b
  | string s => .string s
  | byte v => .number (.byte v)
  | integer v => .number (.integer v)
  | long v => .number (.long v)
  | char c => .number (.char c)

/-- The literal as it is written in a source. -/
def text : Literal → List Char
  | null => "null".toList
  | boolean b => (if b then "true" else "false").toList
  | string s => '"' :: (s.toList.flatMap stringUnit ++ ['"'])
  | byte v => v.toNat.repr.toList ++ ['b']
  | integer v => (signedText v.toInt).toList
  | long v => (signedText v.toInt).toList ++ ['L']
  | char c => '\'' :: (charUnit c ++ ['\''])

/-- The literal as a statement on a line of its own. -/
def line (l : Literal) : List Char :=
  l.text ++ [';', '\n']

/-- A program of nothing but literals. -/
def program (literals : List Literal) : String :=
  String.ofList (literals.flatMap line)

/-- The statement that the literal is. -/
def statement (l : Literal) : Statement :=
  .expression (.literal l.value)

/-- The words of the literal. None of its numbers has a point, so none is left to be written
by a parameter. -/
def tokens (l : Literal) : List Token :=
  renderLiteral (fun _ => "") l.value

/-! ## Scanning -/

theorem isDigits_repr (n : Nat) : IsDigits n.repr.toList := by
  rw [Nat.toList_repr]
  exact isDigits_toDigits n

theorem word_whole (n : Nat) {suffix : List Char} {kind : Kind}
    (fixes : Suffix n.repr.toList false suffix kind) :
    Word (n.repr.toList ++ suffix) kind n.repr := by
  have word := Word.number (.whole (isDigits_repr n)) fixes
  rwa [String.ofList_toList] at word

theorem isName_of_letters {c : Char} {cs : List Char}
    (letters : (c :: cs).Forall fun d => d.toNat < 128 ∧ d.isAlpha = true) : IsName (c :: cs) := by
  rw [List.forall_iff_forall_mem] at letters
  have alphabetic : ∀ d ∈ c :: cs, Text.isAlphabetic d = true := by
    intro d mem
    rw [Text.isAlphabetic_ascii (letters d mem).1]
    exact (letters d mem).2
  have first := alphabetic c List.mem_cons_self
  constructor
  case head => exact ⟨c, rfl, by rw [startsName, first, Bool.true_or]⟩
  case chars =>
    intro d mem
    rw [isNameChar, alphabetic d mem, Bool.true_or, Bool.true_or]
  case named =>
    refine ⟨c, List.mem_cons_self, ?_⟩
    rintro rfl
    exact absurd (letters '_' List.mem_cons_self).2 (by decide)

theorem isByteText_repr (v : UInt8) : isByteText v.toNat.repr.toList = true := by
  have digits := List.all_eq_true.mpr (isDigits_repr v.toNat).digits
  have value : Text.decimalValue v.toNat.repr.toList = v.toNat := by
    rw [Nat.toList_repr]
    exact Nat.ofDigitChars_ten_toDigits
  have small := v.toNat_lt
  rw [isByteText, digits, value, Bool.true_and, decide_eq_true_eq]
  omega

/-- Where the rest follows, scanning takes the characters for the words, wherever they stand. -/
def ScansAs (cs rest : List Char) (words : List Token) : Prop :=
  ∀ place : Position, ∃ read, SameWords read words ∧
    (scanFrom place (cs ++ rest)).1 = (scanFrom (place.advance cs) rest).1.map (read ++ ·)

namespace ScansAs

variable {cs ds rest : List Char} {words more : List Token}

theorem nil : ScansAs [] rest [] := by
  intro place
  refine ⟨[], rfl, ?_⟩
  show (scanFrom place rest).1 = (scanFrom place rest).1.map id
  cases (scanFrom place rest).1 <;> rfl

theorem append (first : ScansAs cs (ds ++ rest) words) (later : ScansAs ds rest more) :
    ScansAs (cs ++ ds) rest (words ++ more) := by
  intro place
  obtain ⟨read, same, scanned⟩ := first place
  obtain ⟨others, same', scanned'⟩ := later (place.advance cs)
  refine ⟨read ++ others, ?_, ?_⟩
  · rw [SameWords, List.map_append, same, same', List.map_append]
  · rw [List.append_assoc, scanned, scanned', Position.advance_append]
    generalize (scanFrom _ rest).1 = result
    cases result with
    | error e => rfl
    | ok tokens => exact congrArg Except.ok (List.append_assoc read others tokens).symm

theorem of_word {kind : Kind} {text : String} (word : Word cs kind text) (ends : Ends rest) :
    ScansAs cs rest [Grammar.word kind text] :=
  fun place => ⟨[⟨kind, text, place, place.advance cs⟩], rfl, scanFrom_word word ends place⟩

/-- A minus before a digit is a word of its own. -/
theorem of_minus {d : Char} (digit : d.isDigit = true) (s : List Char) :
    ScansAs ['-'] (d :: s) [word .binaryOperator "-"] := by
  intro place
  have alone : kindOfPair? '-' d = none :=
    forall_isDigit (P := (kindOfPair? '-' · = none)) (by decide) digit
  have reads : lexeme '-' (d :: s) = found (.word .binaryOperator "-") ['-'] (d :: s) := by
    have marks : lexeme '-' (d :: s) = mark '-' (d :: s) := rfl
    rw [marks, mark, alone]
    rfl
  have plain : ¬ isBlank '-' = true := by decide
  refine ⟨[⟨.binaryOperator, "-", place, place.step '-'⟩], rfl, ?_⟩
  rw [List.singleton_append, scanFrom, if_neg plain]
  simp only [reads, found, Piece.token?]
  rfl

theorem of_newline : ScansAs ['\n'] rest [] := by
  intro place
  obtain ⟨read, same, scanned⟩ := (nil : ScansAs [] rest []) (place.step '\n')
  exact ⟨read, same, (congrArg Prod.fst (scanFrom_blank rfl place rest)).trans scanned⟩

/-- Digits with a sign before them where the number is negative, and the letter of their
kind. -/
theorem of_signed {suffix : List Char} {kind : Kind} (z : Int)
    (fixes : Suffix z.natAbs.repr.toList false suffix kind) (ends : Ends rest) :
    ScansAs ((signedText z).toList ++ suffix) rest
      (if z < 0 then [word .binaryOperator "-", word kind z.natAbs.repr]
        else [word kind z.natAbs.repr]) := by
  have digits := isDigits_repr z.natAbs
  have number : ScansAs (z.natAbs.repr.toList ++ suffix) rest [word kind z.natAbs.repr] :=
    .of_word (word_whole z.natAbs fixes) ends
  unfold signedText
  split
  · obtain ⟨d, ds, split⟩ := List.exists_cons_of_ne_nil digits.some
    have digit := digits.digits d (by rw [split]; exact List.mem_cons_self)
    have minus : ("-" ++ z.natAbs.repr).toList = ['-'] ++ z.natAbs.repr.toList :=
      String.toList_append
    rw [minus, List.append_assoc]
    have sign : ScansAs ['-'] (z.natAbs.repr.toList ++ suffix ++ rest)
        [word .binaryOperator "-"] := by
      rw [split]
      exact .of_minus digit _
    exact sign.append number
  · exact number

end ScansAs

theorem scansAs_text (l : Literal) {rest : List Char} (ends : Ends rest) :
    ScansAs l.text rest l.tokens := by
  have named (name : String) {kind : Kind} {cs : List Char} (chars : name.toList = cs)
      (isName : IsName cs) (kinds : kindOfWord name = kind) :
      ScansAs name.toList rest [word kind name] := by
    have word := Word.name isName
    rw [← chars, String.ofList_toList, kinds] at word
    exact .of_word word ends
  cases l with
  | null =>
    have isName : IsName ['n', 'u', 'l', 'l'] := isName_of_letters (by decide)
    exact named "null" rfl isName rfl
  | boolean b =>
    have no : IsName ['f', 'a', 'l', 's', 'e'] := isName_of_letters (by decide)
    have yes : IsName ['t', 'r', 'u', 'e'] := isName_of_letters (by decide)
    cases b with
    | false => exact named "false" rfl no rfl
    | true => exact named "true" rfl yes rfl
  | string s =>
    have word := Word.string (quoted_flatMap s.toList)
    rw [String.ofList_toList] at word
    exact .of_word word ends
  | byte v => exact .of_word (word_whole v.toNat (.letter rfl fun _ => isByteText_repr v)) ends
  | integer v =>
    have scans := ScansAs.of_signed v.toInt .none ends
    rw [List.append_nil] at scans
    rw [tokens, value, renderLiteral, renderNumber]
    simp only [negative, decide_eq_true_eq]
    exact scans
  | long v =>
    have suffix : Suffix v.toInt.natAbs.repr.toList false ['L'] .long :=
      .letter rfl fun byte => by cases byte
    rw [tokens, value, renderLiteral, renderNumber]
    simp only [negative, decide_eq_true_eq]
    exact .of_signed v.toInt suffix ends
  | char c => exact .of_word (.char (quotedChar_charUnit c)) ends

/-- The semicolon ends the literal, and the newline ends the semicolon. -/
theorem scansAs_line (l : Literal) (rest : List Char) :
    ScansAs l.line rest (renderStatement (fun _ => "") l.statement) := by
  have semicolon : Ends (';' :: '\n' :: rest) := by
    intro c mem
    cases mem
    rfl
  have newline : Ends ('\n' :: rest) := by
    intro c mem
    cases mem
    rfl
  have last : ScansAs [';'] ('\n' :: rest) [word .semicolon ";"] := .of_word (.single rfl) newline
  exact (scansAs_text l semicolon).append (last.append .of_newline)

theorem scansAs_program (literals : List Literal) :
    ScansAs (literals.flatMap line) [] (renderBody (fun _ => "") (literals.map statement)) := by
  induction literals with
  | nil => exact .nil
  | cons l more ih =>
    rw [List.flatMap_cons]
    exact (scansAs_line l _).append ih

/-! ## Parsing -/

theorem nests_renderBody (literals : List Literal) :
    Nests (renderBody (fun _ => "") (literals.map statement)) 0 := by
  induction literals with
  | nil => exact .nil
  | cons l more ih =>
    have first := (nests_renderLiteral (fun _ => "") l.value).append
      (Nests.word (by decide : Kind.semicolon ∉ groupKinds) ";")
    exact first.append ih

/-- Literals are as low as an expression can be. -/
theorem isLow_statement (l : Literal) : IsLow l.statement := by
  have leaf : Expression.height (.literal l.value) = 1 := rfl
  rw [isLow_iff (s := l.statement) rfl, leaf]
  decide

theorem everywhere_statement {P : Statement → Prop} (holds : ∀ l : Literal, P l.statement)
    (literals : List Literal) : Everywhere P (literals.map statement) := by
  induction literals with
  | nil => exact .nil
  | cons l more ih => exact Everywhere.cons_iff.mpr ⟨(Everywhere.single_iff rfl).mpr (holds l), ih⟩

theorem not_isFloating (l : Literal) {n : Number} (same : l.value = .number n) :
    ¬ IsFloating n := by
  cases l <;> cases same <;> exact id

theorem legible_statement (l : Literal) : IsLegible (fun _ => "") l.statement := by
  intro e holds n mem floating
  cases holds
  exact absurd floating (l.not_isFloating (List.mem_singleton.mp mem).symm)

theorem spells_statements (literals : List Literal) :
    Spells (render (fun _ => "") ⟨literals.map statement⟩) ⟨literals.map statement⟩ := by
  have groups := (nests_renderBody literals).mostOpen_eq
  refine spells_render ?_ ?_ ?_ ?_
  · exact everywhere_statement (fun l name => nofun) literals
  · exact everywhere_statement isLow_statement literals
  · rw [render, groups]
    exact Nat.zero_le _
  · exact everywhere_statement legible_statement literals

theorem not_end_render (literals : List Literal) :
    ∀ t ∈ render (fun _ => "") ⟨literals.map statement⟩, t.kind ≠ .endOfFile := by
  have body : Body (render (fun _ => "") ⟨literals.map statement⟩) (literals.map statement) :=
    body_renderBody _ (everywhere_statement (fun l name => nofun) literals)
      (everywhere_statement legible_statement literals)
  exact body.not_end

/-! ## Running -/

theorem evaluateAll_literals (session : Session) (literals : List Literal) :
    session.evaluateAll (literals.map statement) = (.ok (literals.map value), session) := by
  induction literals with
  | nil => rfl
  | cons l more ih =>
    have first : session.evaluate l.statement session.root = (.ok l.value, session) := rfl
    rw [List.map_cons, Session.evaluateAll, first]
    simp only [ih]
    rfl

end Literal

/-- Compiling a program of literals succeeds, and its values are the ones they stand for, one
for each statement. -/
theorem compileSource_literals (path : String) (literals : List Literal) :
    ∃ unit, compileSource path (Literal.program literals) = .ok unit ∧
      unit.values = literals.map Literal.value ∧
      unit.tree.body.length = unit.values.length := by
  obtain ⟨read, same, scanned⟩ := Literal.scansAs_program literals .first
  rw [List.append_nil, scanFrom] at scanned
  generalize Position.first.advance _ = stop at scanned
  have tokens : tokenize (Literal.program literals) = .ok (read ++ [endOfFile stop]) := by
    rw [Literal.program, tokenize_ofList]
    exact scanned
  have tree : parse (read ++ [endOfFile stop]) = .ok ⟨literals.map Literal.statement⟩ :=
    parse_of_spells ((Literal.spells_statements literals).of_sameWords
      (Literal.not_end_render literals) same rfl)
  refine ⟨⟨path, read ++ [endOfFile stop], ⟨literals.map Literal.statement⟩,
    literals.map Literal.value⟩, ?_, rfl, ?_⟩
  · simp only [compileSource, tokens, tree, Session.evaluateTree, Literal.evaluateAll_literals]
  · rw [List.length_map, List.length_map]

/-- The ends of both ranges, a quote and a backslash in a string, and a newline as a
character. -/
example : Literal.program [.long Int64.minValue, .integer Int32.minValue, .string "\"\\",
    .char '\n'] = "-9223372036854775808L;\n-2147483648;\n\"\\\"\\\\\";\n'\\n';\n" := by
  cbv

end KindScript
