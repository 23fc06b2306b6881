import KindScript.Proofs.Dumps.Indentation

/-!
# JSON texts in any layout

White space may stand between the parts of a JSON text, characters of its strings may be escaped
where they need not be, and its numbers have more than one form. However a value is laid out, it
is passed over up to its last character. Its compact and its indented text are layouts of it.
-/

namespace KindScript.Json

open Scanning (IsDigits dropWhile_append_of_all)

/-! ## Layouts -/

def Space (s : List Char) : Prop :=
  ∀ c ∈ s, isSpace c = true

/-- The whole part of a number begins with no zero, but for a single one. -/
inductive Whole : List Char → Prop where
  | zero : Whole ['0']
  | digits {ds : List Char} (digits : IsDigits ds) (first : ds.head? ≠ some '0') : Whole ds

inductive Fraction : List Char → Prop where
  | none : Fraction []
  | digits {ds : List Char} (digits : IsDigits ds) : Fraction ('.' :: ds)

inductive Exponent : List Char → Prop where
  | none : Exponent []
  | digits {letter : Char} {sign ds : List Char} (marks : letter = 'e' ∨ letter = 'E')
    (signs : sign ∈ [[], ['+'], ['-']]) (digits : IsDigits ds) : Exponent (letter :: (sign ++ ds))

inductive Numeral : List Char → Prop where
  | intro {sign whole fraction exponent : List Char} (signs : sign ∈ [[], ['-']])
    (starts : Whole whole) (goesOn : Fraction fraction) (ends : Exponent exponent) :
    Numeral (sign ++ (whole ++ (fraction ++ exponent)))

/-- Characters as they may be written in a string. -/
inductive Written : List Char → List Char → Prop where
  | nil : Written [] []
  | plain {c : Char} {cs written : List Char} (ink : 32 ≤ c.toNat) (quote : c ≠ '"')
    (slash : c ≠ '\\') (more : Written cs written) : Written (c :: cs) (c :: written)
  | short {c mark : Char} {cs written : List Char} (short : shortEscape? mark = some c)
    (more : Written cs written) : Written (c :: cs) ('\\' :: mark :: written)
  | long {c a₁ a₂ a₃ a₄ : Char} {cs written : List Char}
    (code : codeUnit? a₁ a₂ a₃ a₄ = some c.toNat) (more : Written cs written) :
    Written (c :: cs) ('\\' :: 'u' :: a₁ :: a₂ :: a₃ :: a₄ :: written)
  | pair {a₁ a₂ a₃ a₄ b₁ b₂ b₃ b₄ : Char} {high low : Nat} {cs written : List Char}
    (first : codeUnit? a₁ a₂ a₃ a₄ = some high) (isFirst : isFirstHalf high = true)
    (second : codeUnit? b₁ b₂ b₃ b₄ = some low) (isSecond : isSecondHalf low = true)
    (more : Written cs written) :
    Written (joinHalves high low :: cs)
      ('\\' :: 'u' :: a₁ :: a₂ :: a₃ :: a₄ :: '\\' :: 'u' :: b₁ :: b₂ :: b₃ :: b₄ :: written)

/-- A key of an object, with white space about it. -/
inductive Key : String → List Char → Prop where
  | intro {before written after : List Char} {name : String} (left : Space before)
    (spells : Written name.toList written) (right : Space after) :
    Key name (before ++ '"' :: (written ++ '"' :: after))

mutual

/-- A text of a value, from its first character to its last. -/
inductive Laid : Json → List Char → Prop where
  | null : Laid .null "null".toList
  | yes : Laid (.boolean true) "true".toList
  | no : Laid (.boolean false) "false".toList
  | number {text : String} (numeral : Numeral text.toList) : Laid (.number text) text.toList
  | string {text : String} {written : List Char} (spells : Written text.toList written) :
    Laid (.string text) ('"' :: (written ++ ['"']))
  | noItems {inner : List Char} (space : Space inner) : Laid (.array []) ('[' :: (inner ++ [']']))
  | array {items : List Json} {inner : List Char} (each : Items items inner) :
    Laid (.array items) ('[' :: (inner ++ [']']))
  | noFields {inner : List Char} (space : Space inner) :
    Laid (.object []) ('\x7b' :: (inner ++ ['\x7d']))
  | object {fields : List (String × Json)} {inner : List Char} (each : Fields fields inner) :
    Laid (.object fields) ('\x7b' :: (inner ++ ['\x7d']))

/-- A value with white space about it. -/
inductive Padded : Json → List Char → Prop where
  | intro {before inner after : List Char} {json : Json} (left : Space before)
    (laid : Laid json inner) (right : Space after) : Padded json (before ++ (inner ++ after))

inductive Items : List Json → List Char → Prop where
  | last {item : Json} {text : List Char} (padded : Padded item text) : Items [item] text
  | cons {item : Json} {items : List Json} {text rest : List Char} (padded : Padded item text)
    (more : Items items rest) : Items (item :: items) (text ++ ',' :: rest)

inductive Fields : List (String × Json) → List Char → Prop where
  | last {name : String} {value : Json} {key text : List Char} (keyed : Key name key)
    (padded : Padded value text) : Fields [(name, value)] (key ++ ':' :: text)
  | cons {name : String} {value : Json} {fields : List (String × Json)}
    {key text rest : List Char} (keyed : Key name key) (padded : Padded value text)
    (more : Fields fields rest) :
    Fields ((name, value) :: fields) (key ++ ':' :: (text ++ ',' :: rest))

end

/-! ## Parts of texts -/

section Parts

variable {c : Char} {s r before text : List Char} {atEnd : Fault.Cause}

theorem skipSpace_append (space : Space before) : skipSpace (before ++ s) = skipSpace s :=
  List.dropWhile_append_of_pos space

theorem skipSpace_ink (ink : isSpace c = false) : skipSpace (c :: s) = c :: s :=
  List.dropWhile_cons_of_neg (by rw [ink]; exact Bool.false_ne_true)

theorem skipSpace_front (space : Space before) (ink : isSpace c = false) :
    skipSpace (before ++ c :: s) = c :: s := by
  rw [skipSpace_append space, skipSpace_ink ink]

theorem Space.stops (space : Space before) (stops : Stops r) : Stops (before ++ r) := by
  cases before with
  | nil => exact stops
  | cons c before =>
    rintro d ⟨⟩
    cases numeric : isNumeric c with
    | false => rfl
    | true => exact absurd (ink_of_isNumeric numeric).1 (by simp [space c List.mem_cons_self])

theorem takeDigits_append (digits : IsDigits text) (stops : ∀ c ∈ r.head?, c.isDigit = false) :
    takeDigits atEnd (text ++ r) = .ok r := by
  cases text with
  | nil => exact absurd rfl digits.some
  | cons d ds =>
    obtain ⟨first, more⟩ := List.forall_mem_cons.mp digits.digits
    rw [List.cons_append, takeDigits, if_pos first, dropWhile_append_of_all more stops]

theorem Stops.not_digit (stops : Stops r) : ∀ c ∈ r.head?, c.isDigit = false := by
  intro c mem
  have numeric := stops c mem
  rw [isNumeric, Bool.or_eq_false_iff] at numeric
  exact numeric.1

theorem takeWhole_append (starts : Whole text) (stops : ∀ c ∈ r.head?, c.isDigit = false) :
    takeWhole atEnd (text ++ r) = .ok r := by
  cases starts with
  | zero =>
    cases r with
    | nil => rfl
    | cons c r =>
      change takeWhole atEnd ('0' :: c :: r) = _
      rw [takeWhole, stops c rfl]
      rfl
  | digits digits first =>
    rw [takeWhole]
    · exact takeDigits_append digits stops
    · intro c rest same
      cases text with
      | nil => exact absurd rfl digits.some
      | cons d ds => exact first (congrArg some (List.cons.inj same).1)

theorem takeFraction_append (goesOn : Fraction text) (stops : ∀ c ∈ r.head?, c.isDigit = false)
    (point : r.head? ≠ some '.') : takeFraction atEnd (text ++ r) = .ok r := by
  cases goesOn with
  | none =>
    rw [List.nil_append, takeFraction]
    rintro rest rfl
    exact point rfl
  | digits digits => exact takeDigits_append digits stops

theorem takeExponent_append (ends : Exponent text) (stops : Stops r) :
    takeExponent atEnd (text ++ r) = .ok r := by
  cases ends with
  | none =>
    cases r with
    | nil => rfl
    | cons c r =>
      have none : ¬ (c = 'e' ∨ c = 'E') := by
        have numeric := stops c rfl
        rintro (rfl | rfl) <;> cases numeric
      rw [List.nil_append, takeExponent.eq_def]
      exact if_neg none
  | @digits letter sign ds marks signs digits =>
    have read : takeDigits atEnd (ds ++ r) = .ok r := takeDigits_append digits stops.not_digit
    have unsigned (c : Char) (noDigit : c.isDigit = false) (rest : List Char) :
        ds ++ r ≠ c :: rest := by
      rintro same
      cases ds with
      | nil => exact absurd rfl digits.some
      | cons d ds =>
        have digit := digits.digits d List.mem_cons_self
        rw [(List.cons.inj same).1, noDigit] at digit
        cases digit
    simp only [List.mem_cons, List.not_mem_nil, or_false] at signs
    rcases signs with rfl | rfl | rfl
    · change takeExponent atEnd (letter :: (ds ++ r)) = _
      rw [takeExponent, if_pos marks, read]
      · exact fun rest => unsigned '+' rfl rest
      · exact fun rest => unsigned '-' rfl rest
    · change takeExponent atEnd (letter :: '+' :: (ds ++ r)) = _
      rw [takeExponent, if_pos marks, read]
    · change takeExponent atEnd (letter :: '-' :: (ds ++ r)) = _
      rw [takeExponent, if_pos marks, read]

theorem Exponent.stops (ends : Exponent text) (stops : Stops r) :
    ∀ c ∈ (text ++ r).head?, c.isDigit = false ∧ c ≠ '.' := by
  intro c mem
  cases ends with
  | none =>
    refine ⟨stops.not_digit c mem, ?_⟩
    rintro rfl
    cases stops '.' mem
  | digits marks =>
    obtain rfl := Option.some.inj mem
    rcases marks with rfl | rfl <;> decide

theorem Fraction.stops {more : List Char} (goesOn : Fraction text)
    (stops : ∀ c ∈ more.head?, c.isDigit = false) :
    ∀ c ∈ (text ++ more).head?, c.isDigit = false := by
  intro c mem
  cases goesOn with
  | none => exact stops c mem
  | digits =>
    obtain rfl := Option.some.inj mem
    rfl

theorem Whole.lead (starts : Whole text) : ∃ c cs, text = c :: cs ∧ c.isDigit = true := by
  cases starts with
  | zero => exact ⟨'0', [], rfl, rfl⟩
  | digits digits =>
    obtain ⟨c, cs, rfl⟩ := List.exists_cons_of_ne_nil digits.some
    exact ⟨c, cs, rfl, digits.digits c List.mem_cons_self⟩

theorem Numeral.lead (numeral : Numeral text) :
    ∃ c cs, text = c :: cs ∧ (c = '-' ∨ c.isDigit = true) := by
  obtain ⟨signs, starts, _, _⟩ := numeral
  simp only [List.mem_cons, List.not_mem_nil, or_false] at signs
  rcases signs with rfl | rfl
  · obtain ⟨c, cs, rfl, digit⟩ := starts.lead
    exact ⟨c, _, rfl, .inr digit⟩
  · exact ⟨'-', _, rfl, .inl rfl⟩

theorem takeNumber_append (numeral : Numeral text) (stops : Stops r) :
    takeNumber atEnd (text ++ r) = .ok r := by
  obtain @⟨sign, whole, fraction, exponent, signs, starts, goesOn, ends⟩ := numeral
  have after := ends.stops stops
  have point : (exponent ++ r).head? ≠ some '.' := fun dot => (after '.' dot).2 rfl
  have first : takeWhole atEnd (whole ++ (fraction ++ (exponent ++ r))) =
      .ok (fraction ++ (exponent ++ r)) :=
    takeWhole_append starts (goesOn.stops fun c mem => (after c mem).1)
  have second : takeFraction atEnd (fraction ++ (exponent ++ r)) = .ok (exponent ++ r) :=
    takeFraction_append goesOn (fun c mem => (after c mem).1) point
  have unsigned : (do takeExponent atEnd (← takeFraction atEnd
      (← takeWhole atEnd (whole ++ (fraction ++ (exponent ++ r)))))) = .ok r := by
    rw [first]
    change takeFraction atEnd _ >>= takeExponent atEnd = _
    rw [second]
    exact takeExponent_append ends stops
  simp only [List.append_assoc]
  simp only [List.mem_cons, List.not_mem_nil, or_false] at signs
  rcases signs with rfl | rfl
  · obtain ⟨c, cs, whole_eq, digit⟩ := starts.lead
    have positive : c ≠ '-' := by
      rintro rfl
      cases digit
    rw [whole_eq] at unsigned ⊢
    rw [takeNumber.eq_def]
    simp only [List.nil_append, List.cons_append] at unsigned ⊢
    split
    · exact absurd (List.cons.inj ‹_›).1 positive
    · exact unsigned
  · exact unsigned

/-! ## Strings -/

theorem takeString_pair {a₁ a₂ a₃ a₄ b₁ b₂ b₃ b₄ : Char} {high low : Nat}
    (first : codeUnit? a₁ a₂ a₃ a₄ = some high) (isFirst : isFirstHalf high = true)
    (second : codeUnit? b₁ b₂ b₃ b₄ = some low) (isSecond : isSecondHalf low = true) :
    takeString true
        ('\\' :: 'u' :: a₁ :: a₂ :: a₃ :: a₄ :: '\\' :: 'u' :: b₁ :: b₂ :: b₃ :: b₄ :: s) =
      (takeString true s).map (push (joinHalves high low)) := by
  have notSecond : isSecondHalf high = false := by
    simp only [isFirstHalf, isSecondHalf, Bool.and_eq_true, Bool.and_eq_false_iff,
      decide_eq_true_eq, decide_eq_false_iff_not] at isFirst ⊢
    omega
  rw [takeString.eq_def]
  simp only [first, second, isFirst, isSecond, notSecond, Bool.and_false, Bool.and_true,
    Bool.false_eq_true, if_false, if_true]

/-- Halves of pairs are read one by one where the text does not matter. -/
theorem takeString_half {a₁ a₂ a₃ a₄ : Char} {code : Nat}
    (half : codeUnit? a₁ a₂ a₃ a₄ = some code) :
    takeString false ('\\' :: 'u' :: a₁ :: a₂ :: a₃ :: a₄ :: s) =
      (takeString false s).map (push (Char.ofNat code)) := by
  rw [takeString.eq_def]
  simp only [half, Bool.false_and, Bool.false_eq_true, if_false]

/-- A string is read up to its closing quote, and as its characters where these matter. -/
theorem Written.takes {cs written : List Char} (spells : Written cs written) (paired : Bool)
    (r : List Char) : ∃ text, takeString paired (written ++ '"' :: r) = .ok (text, r) ∧
      (paired = true → text = cs) := by
  induction spells with
  | nil => exact ⟨[], takeString.eq_def _ _, fun _ => rfl⟩
  | @plain c _ _ ink quote slash _ ih =>
    obtain ⟨text, read, same⟩ := ih
    rw [List.cons_append, takeString_plain ink quote slash, read]
    exact ⟨c :: text, rfl, fun matters => congrArg (c :: ·) (same matters)⟩
  | @short c _ _ _ short _ ih =>
    obtain ⟨text, read, same⟩ := ih
    rw [List.cons_append, List.cons_append, takeString_short short, read]
    exact ⟨c :: text, rfl, fun matters => congrArg (c :: ·) (same matters)⟩
  | @long c _ _ _ _ _ _ code _ ih =>
    obtain ⟨text, read, same⟩ := ih
    simp only [List.cons_append]
    rw [takeString_long code, read]
    exact ⟨c :: text, rfl, fun matters => congrArg (c :: ·) (same matters)⟩
  | pair first isFirst second isSecond _ ih =>
    obtain ⟨text, read, same⟩ := ih
    simp only [List.cons_append]
    cases paired with
    | true =>
      rw [takeString_pair first isFirst second isSecond, read]
      exact ⟨_, rfl, fun matters => congrArg _ (same matters)⟩
    | false =>
      rw [takeString_half first, takeString_half second, read]
      exact ⟨_, rfl, fun matters => absurd matters Bool.false_ne_true⟩

theorem takeColon_front {rest : List Char} (front : skipSpace s = ':' :: rest) :
    takeColon s = .ok rest := by
  rw [takeColon, front]
  rfl

theorem Key.skipKey {name : String} {key rest : List Char} (keyed : Key name key) :
    skipKey (key ++ ':' :: rest) = .ok rest := by
  obtain @⟨before, written, after, name, left, spells, right⟩ := keyed
  obtain ⟨text, read, _⟩ := spells.takes false (after ++ ':' :: rest)
  simp only [List.append_assoc, List.cons_append]
  rw [Json.skipKey, skipSpace_front left rfl]
  simp only [read]
  exact takeColon_front (skipSpace_front right rfl)

/-! ## Values -/

theorem takeWord_append (word r : List Char) : takeWord word (word ++ r) = .ok r := by
  induction word with
  | nil => rfl
  | cons c word ih => rw [List.cons_append, takeWord, if_pos rfl, ih]

theorem ne_of_numeric (numeric : c = '-' ∨ c.isDigit = true) (d : Char)
    (other : ¬ (d = '-' ∨ d.isDigit = true)) : c ≠ d := by
  rintro rfl
  exact other numeric

theorem takeScalar_of_numeric (numeric : c = '-' ∨ c.isDigit = true) :
    takeScalar (c :: s) = takeNumber .badNumber (c :: s) := by
  rw [takeScalar, if_pos numeric]
  · exact ne_of_numeric numeric 'n' (by decide)
  · exact ne_of_numeric numeric 't' (by decide)
  · exact ne_of_numeric numeric 'f' (by decide)
  · exact ne_of_numeric numeric '"' (by decide)

section Skipping

variable {brackets : List Bracket} {rest after : List Char}

theorem skipValue_scalar (front : skipSpace s = c :: rest) (square : c ≠ '[') (curly : c ≠ '\x7b')
    (scalar : takeScalar (c :: rest) = .ok after) :
    skipValue brackets s = skipRest brackets after := by
  rw [skipValue]
  split
  · exact absurd (List.cons.inj (front.symm.trans ‹_›)).1 square
  · exact absurd (List.cons.inj (front.symm.trans ‹_›)).1 curly
  · split
    · rename_i failed
      rw [front, scalar] at failed
      cases failed
    · rename_i taken
      rw [front, scalar] at taken
      rw [Except.ok.inj taken]

theorem skipValue_noItems (front : skipSpace s = '[' :: rest)
    (closes : skipSpace rest = ']' :: after) :
    skipValue brackets s = skipRest brackets after := by
  rw [skipValue]
  split
  · obtain ⟨_, rfl⟩ := List.cons.inj (front.symm.trans ‹_›)
    split
    · cases closes.symm.trans ‹_›
    · obtain ⟨_, rfl⟩ := List.cons.inj (closes.symm.trans ‹_›)
      rfl
    · rename_i _ notEnd
      exact absurd closes (notEnd _)
  · cases front.symm.trans ‹_›
  · rename_i no_square _
    exact absurd front (no_square _)

theorem skipValue_items (front : skipSpace s = '[' :: rest) (some : skipSpace rest ≠ [])
    (opens : ∀ after, skipSpace rest ≠ ']' :: after) :
    skipValue brackets s = skipValue (.square :: brackets) rest := by
  rw [skipValue]
  split
  · obtain ⟨_, rfl⟩ := List.cons.inj (front.symm.trans ‹_›)
    split
    · exact absurd ‹_› some
    · exact absurd ‹_› (opens _)
    · rfl
  · cases front.symm.trans ‹_›
  · rename_i no_square _
    exact absurd front (no_square _)

theorem skipValue_noFields (front : skipSpace s = '\x7b' :: rest)
    (closes : skipSpace rest = '\x7d' :: after) :
    skipValue brackets s = skipRest brackets after := by
  rw [skipValue]
  split
  · cases front.symm.trans ‹_›
  · obtain ⟨_, rfl⟩ := List.cons.inj (front.symm.trans ‹_›)
    split
    · obtain ⟨_, rfl⟩ := List.cons.inj (closes.symm.trans ‹_›)
      rfl
    · rename_i notEnd
      exact absurd closes (notEnd _)
  · rename_i no_curly
    exact absurd front (no_curly _)

theorem skipValue_fields (front : skipSpace s = '\x7b' :: rest)
    (opens : ∀ after, skipSpace rest ≠ '\x7d' :: after) (key : skipKey rest = .ok after) :
    skipValue brackets s = skipValue (.curly :: brackets) after := by
  rw [skipValue]
  split
  · cases front.symm.trans ‹_›
  · obtain ⟨_, rfl⟩ := List.cons.inj (front.symm.trans ‹_›)
    split
    · exact absurd ‹_› (opens _)
    · split
      · cases key.symm.trans ‹_›
      · rw [Except.ok.inj (key.symm.trans ‹_›)]
  · rename_i no_curly
    exact absurd front (no_curly _)

theorem skipRest_item (front : skipSpace s = ',' :: rest) :
    skipRest (.square :: brackets) s = skipValue (.square :: brackets) rest := by
  rw [skipRest]
  split
  · cases front.symm.trans ‹_›
  · cases front.symm.trans ‹_›
  · rw [(List.cons.inj (front.symm.trans ‹_›)).2]
  · rename_i no_comma
    exact absurd front (no_comma _)

theorem skipRest_square (front : skipSpace s = ']' :: rest) :
    skipRest (.square :: brackets) s = skipRest brackets rest := by
  rw [skipRest]
  split
  · cases front.symm.trans ‹_›
  · rw [(List.cons.inj (front.symm.trans ‹_›)).2]
  · cases front.symm.trans ‹_›
  · rename_i no_end _
    exact absurd front (no_end _)

theorem skipRest_field (front : skipSpace s = ',' :: rest) (key : skipKey rest = .ok after) :
    skipRest (.curly :: brackets) s = skipValue (.curly :: brackets) after := by
  rw [skipRest]
  split
  · cases front.symm.trans ‹_›
  · cases front.symm.trans ‹_›
  · obtain ⟨_, rfl⟩ := List.cons.inj (front.symm.trans ‹_›)
    split
    · cases key.symm.trans ‹_›
    · rw [Except.ok.inj (key.symm.trans ‹_›)]
  · rename_i no_comma
    exact absurd front (no_comma _)

theorem skipRest_curly (front : skipSpace s = '\x7d' :: rest) :
    skipRest (.curly :: brackets) s = skipRest brackets rest := by
  rw [skipRest]
  split
  · cases front.symm.trans ‹_›
  · rw [(List.cons.inj (front.symm.trans ‹_›)).2]
  · cases front.symm.trans ‹_›
  · rename_i no_end _
    exact absurd front (no_end _)

end Skipping

end Parts

section Values

variable {json : Json} {text r : List Char} {brackets : List Bracket}

/-- A text begins with the character of its form. -/
theorem Laid.lead (laid : Laid json text) :
    ∃ c cs, text = c :: cs ∧ Form.ofLead? c = some json.form := by
  cases laid with
  | null => exact ⟨'n', _, rfl, rfl⟩
  | yes => exact ⟨'t', _, rfl, rfl⟩
  | no => exact ⟨'f', _, rfl, rfl⟩
  | number numeral =>
    obtain ⟨c, cs, text_eq, numeric⟩ := numeral.lead
    refine ⟨c, cs, text_eq, if_pos ?_⟩
    rcases numeric with rfl | digit
    · rfl
    · rw [isNumeric, digit, Bool.true_or]
  | string => exact ⟨'"', _, rfl, rfl⟩
  | noItems | array => exact ⟨'[', _, rfl, rfl⟩
  | noFields | object => exact ⟨'\x7b', _, rfl, rfl⟩

theorem stops_cons {c : Char} (other : isNumeric c = false) : Stops (c :: r) :=
  fun _ mem => Option.some.inj mem ▸ other

theorem Padded.opens (padded : Padded json text) (r : List Char) :
    ∃ c cs, skipSpace (text ++ r) = c :: cs ∧ Form.ofLead? c = some json.form := by
  obtain ⟨left, laid, right⟩ := padded
  obtain ⟨c, cs, rfl, lead⟩ := laid.lead
  simp only [List.append_assoc, List.cons_append]
  exact ⟨c, _, skipSpace_front left (isSpace_of_lead lead), lead⟩

theorem Items.opens {items : List Json} (each : Items items text) (r : List Char) :
    ∃ c cs, skipSpace (text ++ r) = c :: cs ∧ c ≠ ']' := by
  have of_padded {item : Json} {text : List Char} (padded : Padded item text) (r : List Char) :
      ∃ c cs, skipSpace (text ++ r) = c :: cs ∧ c ≠ ']' := by
    obtain ⟨c, cs, front, lead⟩ := padded.opens r
    refine ⟨c, cs, front, ?_⟩
    rintro rfl
    cases lead
  cases each with
  | last padded => exact of_padded padded r
  | cons padded =>
    rw [List.append_assoc]
    exact of_padded padded _

theorem Fields.opens {fields : List (String × Json)} (each : Fields fields text) (r : List Char) :
    ∃ cs, skipSpace (text ++ r) = '"' :: cs := by
  cases each with
  | last keyed | cons keyed =>
    obtain ⟨left, spells, right⟩ := keyed
    simp only [List.append_assoc, List.cons_append]
    exact ⟨_, skipSpace_front left rfl⟩

mutual

/-- A value is passed over from any white space before it to its last character. -/
theorem Laid.skip {json : Json} {before text r : List Char} (left : Space before)
    (stops : Stops r) (brackets : List Bracket) : Laid json text →
      skipValue brackets (before ++ (text ++ r)) = skipRest brackets r
  | .null => skipValue_scalar (skipSpace_front left rfl) (by decide) (by decide)
      (takeWord_append ['u', 'l', 'l'] r)
  | .yes => skipValue_scalar (skipSpace_front left rfl) (by decide) (by decide)
      (takeWord_append ['r', 'u', 'e'] r)
  | .no => skipValue_scalar (skipSpace_front left rfl) (by decide) (by decide)
      (takeWord_append ['a', 'l', 's', 'e'] r)
  | .number numeral => by
    obtain ⟨c, cs, text_eq, numeric⟩ := numeral.lead
    have scalar : takeNumber .badNumber _ = .ok r := takeNumber_append numeral stops
    have ink : isSpace c = false := by
      obtain ⟨c', cs', text_eq', lead⟩ := (Laid.number numeral).lead
      rw [(List.cons.inj (text_eq.symm.trans text_eq')).1]
      exact isSpace_of_lead lead
    rw [text_eq, List.cons_append] at scalar ⊢
    rw [← takeScalar_of_numeric numeric] at scalar
    exact skipValue_scalar (skipSpace_front left ink) (ne_of_numeric numeric '[' (by decide))
      (ne_of_numeric numeric '\x7b' (by decide)) scalar
  | .string spells => by
    obtain ⟨_, read, _⟩ := spells.takes false r
    simp only [List.cons_append, List.append_assoc, List.nil_append]
    exact skipValue_scalar (skipSpace_front left rfl) (by decide) (by decide)
      (by rw [takeScalar, read]; rfl)
  | .noItems space => by
    simp only [List.cons_append, List.append_assoc, List.nil_append]
    exact skipValue_noItems (skipSpace_front left rfl) (skipSpace_front space rfl)
  | .array each => by
    obtain ⟨c, cs, opens, other⟩ := each.opens (']' :: r)
    simp only [List.cons_append, List.append_assoc, List.nil_append]
    rw [skipValue_items (skipSpace_front left rfl), each.skip brackets]
    · exact fun none => nomatch opens.symm.trans none
    · exact fun after closes => other (List.cons.inj (opens.symm.trans closes)).1
  | .noFields space => by
    simp only [List.cons_append, List.append_assoc, List.nil_append]
    exact skipValue_noFields (skipSpace_front left rfl) (skipSpace_front space rfl)
  | .object each => by
    obtain ⟨cs, opens⟩ := each.opens ('\x7d' :: r)
    obtain ⟨value, key, rest⟩ := each.skip (r := r) brackets
    simp only [List.cons_append, List.append_assoc, List.nil_append]
    rw [skipValue_fields (skipSpace_front left rfl) _ key, rest]
    exact fun after closes => nomatch opens.symm.trans closes

theorem Items.skip {items : List Json} {text r : List Char} (brackets : List Bracket) :
    Items items text → skipValue (.square :: brackets) (text ++ ']' :: r) = skipRest brackets r
  | .last (.intro left laid right) => by
    simp only [List.append_assoc]
    rw [laid.skip left (right.stops (stops_cons rfl)), skipRest_square (skipSpace_front right rfl)]
  | .cons (.intro left laid right) more => by
    simp only [List.append_assoc, List.cons_append]
    rw [laid.skip left (right.stops (stops_cons rfl)), skipRest_item (skipSpace_front right rfl),
      more.skip]

theorem Fields.skip {fields : List (String × Json)} {text r : List Char}
    (brackets : List Bracket) : Fields fields text →
      ∃ value, skipKey (text ++ '\x7d' :: r) = .ok value ∧
        skipValue (.curly :: brackets) value = skipRest brackets r
  | .last keyed (.intro left laid right) => by
    simp only [List.append_assoc, List.cons_append]
    refine ⟨_, keyed.skipKey, ?_⟩
    rw [laid.skip left (right.stops (stops_cons rfl)), skipRest_curly (skipSpace_front right rfl)]
  | .cons keyed (.intro left laid right) more => by
    obtain ⟨value, key, rest⟩ := more.skip (r := r) brackets
    simp only [List.append_assoc, List.cons_append]
    refine ⟨_, keyed.skipKey, ?_⟩
    rw [laid.skip left (right.stops (stops_cons rfl)),
      skipRest_field (skipSpace_front right rfl) key, rest]

end

/-! ## Runs of parts -/

/-- What is left of an array or an object: some parts and its end, after a comma unless the
parts are the first. -/
inductive Remaining {α : Type} (parts : List α → List Char → Prop) (close : Char) (r : List Char) :
    Bool → List α → List Char → Prop where
  | first {all : List α} {text : List Char} (each : parts all text) :
    Remaining parts close r true all (text ++ close :: r)
  | more {all : List α} {before text : List Char} (space : Space before) (each : parts all text) :
    Remaining parts close r false all (before ++ ',' :: (text ++ close :: r))
  | done {first : Bool} {before : List Char} (space : Space before) :
    Remaining parts close r first [] (before ++ close :: r)

theorem Items.uncons {items : List Json} (each : Items items text) (r : List Char) :
    ∃ item more inner rest, items = item :: more ∧ Padded item inner ∧
      text ++ ']' :: r = inner ++ rest ∧ Stops rest ∧
      ∀ after, Space after → Remaining Items ']' r false more (after ++ rest) := by
  cases each with
  | last padded => exact ⟨_, _, _, _, rfl, padded, rfl, stops_cons rfl, fun _ space => .done space⟩
  | cons padded more =>
    refine ⟨_, _, _, _, rfl, padded, ?_, stops_cons rfl, fun _ space => .more space more⟩
    rw [List.append_assoc, List.cons_append]

theorem Fields.uncons {fields : List (String × Json)} (each : Fields fields text) (r : List Char) :
    ∃ name value more key inner rest, fields = (name, value) :: more ∧ Key name key ∧
      Padded value inner ∧ text ++ '\x7d' :: r = key ++ ':' :: (inner ++ rest) ∧ Stops rest ∧
      ∀ after, Space after → Remaining Fields '\x7d' r false more (after ++ rest) := by
  cases each with
  | last keyed padded =>
    refine ⟨_, _, _, _, _, _, rfl, keyed, padded, ?_, stops_cons rfl, fun _ space => .done space⟩
    rw [List.append_assoc, List.cons_append]
  | cons keyed padded more =>
    refine ⟨_, _, _, _, _, _, rfl, keyed, padded, ?_, stops_cons rfl,
      fun _ space => .more space more⟩
    simp only [List.append_assoc, List.cons_append]

end Values

/-! ## The compact and the indented form -/

/-- Every number in the value is a numeral. -/
inductive Numbered : Json → Prop where
  | null : Numbered .null
  | boolean (b : Bool) : Numbered (.boolean b)
  | number {text : String} (numeral : Numeral text.toList) : Numbered (.number text)
  | string (text : String) : Numbered (.string text)
  | array {items : List Json} (each : ∀ item ∈ items, Numbered item) : Numbered (.array items)
  | object {fields : List (String × Json)} (each : ∀ field ∈ fields, Numbered field.2) :
    Numbered (.object fields)

theorem space_nil : Space [] := fun _ mem => nomatch mem

theorem space_cons {c : Char} {cs : List Char} (first : isSpace c = true) (more : Space cs) :
    Space (c :: cs) :=
  List.forall_mem_cons.mpr ⟨first, more⟩

theorem space_margin (level : Nat) : Space (margin level).toList := by
  intro c mem
  rw [toList_margin] at mem
  rw [List.eq_of_mem_replicate mem]
  rfl

theorem Laid.padded {json : Json} {text : List Char} (laid : Laid json text) :
    Padded json text := by
  have padded : Padded json ([] ++ (text ++ [])) := .intro space_nil laid space_nil
  rwa [List.nil_append, List.append_nil] at padded

theorem Escape.written {c : Char} {text : String} (escape : Escape c text) {cs written : List Char}
    (more : Written cs written) : Written (c :: cs) (text.toList ++ written) := by
  cases escape with
  | quote | slash | back | feed | line | carriage | tab => exact .short rfl more
  | control control =>
    rw [String.toList_append, String.toList_ofList, String.toList_ofList]
    exact .long (codeUnit?_control control) more
  | plain ink quote slash =>
    rw [String.toList_singleton]
    exact .plain ink quote slash more

theorem Escapes.written {cs : List Char} {text : String} (each : Escapes cs text) :
    Written cs text.toList := by
  induction each with
  | nil => exact .nil
  | cons first _ ih =>
    rw [String.toList_append]
    exact first.written ih

theorem Quoted.written {text written : String} (quoted : Quoted text written) :
    ∃ inner, Written text.toList inner ∧ written.toList = '"' :: (inner ++ ['"']) := by
  obtain ⟨each⟩ := quoted
  refine ⟨_, each.written, ?_⟩
  rw [String.toList_append, String.toList_append]
  rfl

theorem Quoted.laid {text written : String} (quoted : Quoted text written) :
    Laid (.string text) written.toList := by
  obtain ⟨inner, spells, written_eq⟩ := quoted.written
  exact written_eq ▸ .string spells

theorem Quoted.key {name written : String} {before : List Char} (quoted : Quoted name written)
    (space : Space before) : Key name (before ++ written.toList) := by
  obtain ⟨inner, spells, written_eq⟩ := quoted.written
  rw [written_eq]
  exact .intro space spells space_nil

theorem items_separated {item : Json} {items : List Json}
    (each : ∀ i ∈ item :: items, Laid i i.compact.toList) :
    Items (item :: items) (separated (fun item => item.compact.toList) (item :: items)) := by
  induction items generalizing item with
  | nil =>
    rw [separated, later, List.flatMap_nil, List.append_nil]
    exact .last (each item List.mem_cons_self).padded
  | cons next items ih =>
    exact .cons (each item List.mem_cons_self).padded
      (ih fun item mem => each item (List.mem_cons_of_mem _ mem))

theorem fields_separated {field : String × Json} {fields : List (String × Json)}
    (each : ∀ f ∈ field :: fields, Laid f.2 f.2.compact.toList) :
    Fields (field :: fields) (separated fieldText (field :: fields)) := by
  have key (name : String) : Key name (stringText name).toList :=
    (quoted_stringText name).key space_nil
  induction fields generalizing field with
  | nil =>
    rw [separated, later, List.flatMap_nil, List.append_nil]
    exact .last (key field.1) (each field List.mem_cons_self).padded
  | cons next fields ih =>
    have more := ih fun field mem => each field (List.mem_cons_of_mem _ mem)
    rw [separated, fieldText, List.append_assoc, List.cons_append]
    exact .cons (key field.1) (each field List.mem_cons_self).padded more

theorem laid_compact {json : Json} (numbered : Numbered json) : Laid json json.compact.toList := by
  induction numbered with
  | null => exact .null
  | boolean b =>
    cases b with
    | true => exact .yes
    | false => exact .no
  | number numeral => exact .number numeral
  | string text => exact (quoted_stringText text).laid
  | @array items _ ih =>
    rw [toList_compact_array]
    cases items with
    | nil => exact .noItems space_nil
    | cons => exact .array (items_separated ih)
  | @object fields _ ih =>
    rw [toList_compact_object]
    cases fields with
    | nil => exact .noFields space_nil
    | cons => exact .object (fields_separated ih)

mutual

theorem Indented.laid {level : Nat} {json : Json} {text : String} :
    Indented level json text → Numbered json → Laid json text.toList
  | .null, _ => .null
  | .yes, _ => .yes
  | .no, _ => .no
  | .number, .number numeral => .number numeral
  | .string quoted, _ => quoted.laid
  | .noItems, _ => .noItems space_nil
  | .array inner, .array each => by
    have laid := Laid.array (inner.items each (space_cons (c := '\n') rfl (space_margin level)))
    simp only [String.toList_append, List.append_assoc, List.cons_append] at laid ⊢
    exact laid
  | .noFields, _ => .noFields space_nil
  | .object inner, .object each => by
    have laid := Laid.object (inner.fields each (space_cons (c := '\n') rfl (space_margin level)))
    simp only [String.toList_append, List.append_assoc, List.cons_append] at laid ⊢
    exact laid

theorem ItemLines.items {level : Nat} {items : List Json} {lines : String} {after : List Char} :
    ItemLines level items lines → (∀ item ∈ items, Numbered item) → Space after →
      Items items ('\n' :: (lines.toList ++ after))
  | .last writes, each, right => by
    have left := space_cons (c := '\n') rfl (space_margin level)
    rw [String.toList_append, List.append_assoc]
    exact .last (.intro left (writes.laid (each _ List.mem_cons_self)) right)
  | .cons writes more, each, right => by
    obtain ⟨first, rest⟩ := List.forall_mem_cons.mp each
    have left := space_cons (c := '\n') rfl (space_margin level)
    have items := Items.cons (.intro left (writes.laid first) space_nil) (more.items rest right)
    simp only [String.toList_append, List.append_assoc, List.cons_append, List.nil_append]
      at items ⊢
    exact items

theorem FieldLines.fields {level : Nat} {fields : List (String × Json)} {lines : String}
    {after : List Char} :
    FieldLines level fields lines → (∀ field ∈ fields, Numbered field.2) → Space after →
      Fields fields ('\n' :: (lines.toList ++ after))
  | .last quoted writes, each, right => by
    have left := space_cons (c := '\n') rfl (space_margin level)
    have blank := space_cons (c := ' ') rfl space_nil
    have fields := Fields.last (quoted.key left)
      (.intro blank (writes.laid (each _ List.mem_cons_self)) right)
    simp only [String.toList_append, List.append_assoc, List.cons_append] at fields ⊢
    exact fields
  | .cons quoted writes more, each, right => by
    obtain ⟨first, rest⟩ := List.forall_mem_cons.mp each
    have left := space_cons (c := '\n') rfl (space_margin level)
    have blank := space_cons (c := ' ') rfl space_nil
    have fields := Fields.cons (quoted.key left) (.intro blank (writes.laid first) space_nil)
      (more.fields rest right)
    simp only [String.toList_append, List.append_assoc, List.cons_append, List.nil_append]
      at fields ⊢
    exact fields

end

end KindScript.Json
