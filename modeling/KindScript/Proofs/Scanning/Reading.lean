import KindScript.Proofs.Scanning.Words
import Mathlib

/-!
# Every word is read

A word is read for what it is as long as nothing, a blank or a semicolon follows it
(`lexeme_of_word`). What a word is does not depend on its neighbours otherwise.
-/

namespace KindScript.Scanning

open Token

/-! ## Classes of characters -/

theorem isBlank_iff {c : Char} : isBlank c = true ↔ c = ' ' ∨ c = '\t' ∨ c = '\r' ∨ c = '\n' := by
  simp [isBlank, or_assoc]

theorem endsWord_iff {c : Char} :
    endsWord c = true ↔ c = ' ' ∨ c = '\t' ∨ c = '\r' ∨ c = '\n' ∨ c = ';' := by
  simp [endsWord, isBlank_iff, or_assoc]

/-- What holds of the ten digits holds of every digit. -/
theorem forall_isDigit {P : Char → Prop} (ten : "0123456789".toList.Forall P) {c : Char}
    (digit : c.isDigit = true) : P c := by
  refine List.forall_iff_forall_mem.mp ten c ?_
  have bounds : 48 ≤ c.toNat ∧ c.toNat ≤ 57 := by
    simpa [Char.isDigit, UInt32.le_iff_toNat_le] using digit
  rw [← Char.ofNat_toNat c]
  generalize c.toNat = n at bounds
  obtain ⟨low, high⟩ := bounds
  interval_cases n <;> decide

/-- A class without the four blanks and the semicolon stops where a word ends. -/
theorem Ends.stops {rest : List Char} (ends : Ends rest) {p : Char → Bool}
    (none : p ' ' = false ∧ p '\t' = false ∧ p '\r' = false ∧ p '\n' = false ∧
      p ';' = false) :
    ∀ c ∈ rest.head?, p c = false := by
  intro c mem
  rcases endsWord_iff.mp (ends c mem) with rfl | rfl | rfl | rfl | rfl
  · exact none.1
  · exact none.2.1
  · exact none.2.2.1
  · exact none.2.2.2.1
  · exact none.2.2.2.2

theorem not_isDigit_of_startsName {c : Char} (starts : startsName c = true) :
    c.isDigit = false := by
  cases digit : c.isDigit with
  | false => rfl
  | true =>
    have never := forall_isDigit (P := (startsName · = false)) (by decide) digit
    rw [never] at starts
    cases starts

theorem not_isBlank_of_startsName {c : Char} (starts : startsName c = true) :
    isBlank c = false := by
  cases blank : isBlank c with
  | false => rfl
  | true =>
    exfalso
    rcases isBlank_iff.mp blank with rfl | rfl | rfl | rfl <;> revert starts <;> decide

/-- A letter that fixes the kind of a number does not go on with its digits. -/
theorem stops_of_kindOfSuffix? {c : Char} {kind : Kind} (names : kindOfSuffix? c = some kind) :
    c.isDigit = false ∧ c ≠ '.' := by
  constructor
  · cases digit : c.isDigit with
    | false => rfl
    | true =>
      have never := forall_isDigit (P := (kindOfSuffix? · = none)) (by decide) digit
      rw [never] at names
      cases names
  · rintro rfl
    cases names

/-- The characters with which only marks begin. -/
structure IsMark (c : Char) : Prop where
  digit : c.isDigit = false
  name : startsName c = false
  others : c ≠ '.' ∧ c ≠ '"' ∧ c ≠ '\'' ∧ isBlank c = false

theorem isMark_of_single {c : Char} {kind : Kind} (names : kindOfSingle? c = some kind) :
    IsMark c := by
  unfold kindOfSingle? at names
  split at names <;> first | exact ⟨by decide, by decide, by decide⟩ | cases names

theorem isMark_of_pair {c d : Char} {kind : Kind} (names : kindOfPair? c d = some kind) :
    IsMark c ∧ endsWord d = false ∧ (c = '/' → d = '=') := by
  unfold kindOfPair? at names
  split at names <;>
    first | exact ⟨⟨by decide, by decide, by decide⟩, by decide, by decide⟩ | cases names

/-! ## Every word is read -/

theorem lexeme_of_isDigit {c : Char} (digit : c.isDigit = true) (s : List Char) :
    lexeme c s = number (c :: s) :=
  if_pos digit

theorem lexeme_of_startsName {c : Char} (starts : startsName c = true) (s : List Char) :
    lexeme c s = name (c :: s) := by
  have digit : ¬ c.isDigit = true := by simp [not_isDigit_of_startsName starts]
  rw [lexeme, if_neg digit]
  exact if_pos starts

theorem lexeme_of_isMark {c : Char} (leads : IsMark c) (s : List Char) :
    lexeme c s = if c = '/' then slashed s else mark c s := by
  obtain ⟨dot, quote, apostrophe, _⟩ := leads.others
  have name : ¬ (Text.isAlphabetic c || c = '_') = true := Bool.eq_false_iff.mp leads.name
  rw [lexeme, if_neg (Bool.eq_false_iff.mp leads.digit), if_neg name, if_neg dot, if_neg quote,
    if_neg apostrophe]

theorem suffixed_of_plain {text read rest : List Char} {fractional : Bool}
    (none : ∀ c ∈ rest.head?, kindOfSuffix? c = none) :
    suffixed text read rest fractional =
      found (.word (if fractional then .float else .integer) (String.ofList text)) read rest := by
  cases rest with
  | nil => rfl
  | cons c left => simp only [suffixed, none c rfl]

theorem suffixed_of_suffix {written text suffix rest : List Char} {fractional : Bool} {kind : Kind}
    (fixes : Suffix text fractional suffix kind) (ends : Ends rest) :
    suffixed text written (suffix ++ rest) fractional =
      found (.word kind (String.ofList text)) (written ++ suffix) rest := by
  cases fixes with
  | none =>
    have none := ends.stops (p := fun c => (kindOfSuffix? c).isSome) (by decide)
    rw [List.append_nil, List.nil_append]
    exact suffixed_of_plain (by simpa using none)
  | @letter c _ names byte =>
    rw [List.singleton_append, suffixed]
    simp only [names]
    rw [if_neg]
    rintro ⟨same, outside⟩
    simp [byte same] at outside

/-- Digits with no point and digit after them are a whole number. -/
theorem number_of_whole {ds tail : List Char} (digits : ∀ d ∈ ds, d.isDigit = true)
    (stops : ∀ c ∈ tail.head?, c.isDigit = false)
    (point : ∀ d more, tail = '.' :: d :: more → d.isDigit = false) :
    number (ds ++ tail) = suffixed ds ds tail false := by
  rw [number]
  simp only [takeWhile_append_of_all digits stops, dropWhile_append_of_all digits stops]
  split
  · rw [if_neg (Bool.eq_false_iff.mp (point _ _ rfl))]
  · rfl

/-- Digits with a point and more digits after them are a number with a fraction. -/
theorem number_of_fraction {ds fs tail : List Char} (digits : ∀ d ∈ ds, d.isDigit = true)
    (fraction : IsDigits fs) (stops : ∀ c ∈ tail.head?, c.isDigit = false) :
    number (ds ++ '.' :: (fs ++ tail)) =
      suffixed (ds ++ '.' :: fs) (ds ++ '.' :: fs) tail true := by
  obtain ⟨f, more, rfl⟩ := List.exists_cons_of_ne_nil fraction.some
  have first := fraction.digits f List.mem_cons_self
  have point : ∀ d ∈ ('.' :: (f :: more ++ tail)).head?, d.isDigit = false := by simp
  have read := takeWhile_append_of_all fraction.digits stops
  have left := dropWhile_append_of_all fraction.digits stops
  rw [number]
  simp only [takeWhile_append_of_all digits point, dropWhile_append_of_all digits point]
  rw [List.cons_append] at read left
  simp only [List.cons_append, first, if_true, read, left]

theorem pointed_of_stops {s : List Char} (stops : ∀ c ∈ s.head?, c.isDigit = false) :
    pointed s = found (.word .dot ".") ['.'] s := by
  have none : ([] ++ s).takeWhile Char.isDigit = [] := takeWhile_append_of_all (by simp) stops
  rw [List.nil_append] at none
  simp only [pointed, none]
  rfl

theorem pointed_of_fraction {fs tail : List Char} (fraction : IsDigits fs)
    (stops : ∀ c ∈ tail.head?, c.isDigit = false) :
    pointed (fs ++ tail) = suffixed ('0' :: '.' :: fs) ('.' :: fs) tail true := by
  rw [pointed]
  simp only [takeWhile_append_of_all fraction.digits stops,
    dropWhile_append_of_all fraction.digits stops]
  rw [if_neg (by simpa using fraction.some)]

/-- A numeral is read up to a character that does not go on with it. -/
theorem lexeme_of_numeral {written text tail : List Char} {fractional : Bool}
    (numeral : Numeral written text fractional)
    (stops : ∀ c ∈ tail.head?, c.isDigit = false ∧ c ≠ '.') :
    ∃ c s, written = c :: s ∧ isBlank c = false ∧
      lexeme c (s ++ tail) = suffixed text written tail fractional := by
  have tail_stops : ∀ c ∈ tail.head?, c.isDigit = false := fun c mem => (stops c mem).1
  have notBlank {c : Char} (digit : c.isDigit = true) : isBlank c = false :=
    forall_isDigit (P := (isBlank · = false)) (by decide) digit
  cases numeral with
  | whole digits =>
    obtain ⟨c, s, rfl⟩ := List.exists_cons_of_ne_nil digits.some
    have digit := digits.digits c List.mem_cons_self
    refine ⟨c, s, rfl, notBlank digit, ?_⟩
    rw [lexeme_of_isDigit digit, ← List.cons_append]
    refine number_of_whole digits.digits tail_stops ?_
    rintro d more rfl
    exact absurd rfl (stops '.' rfl).2
  | @fraction ds fs digits fraction =>
    obtain ⟨c, s, rfl⟩ := List.exists_cons_of_ne_nil digits.some
    have digit := digits.digits c List.mem_cons_self
    refine ⟨c, s ++ '.' :: fs, rfl, notBlank digit, ?_⟩
    rw [lexeme_of_isDigit digit, List.append_assoc, List.cons_append]
    exact number_of_fraction digits.digits fraction tail_stops
  | @point fs fraction => exact ⟨'.', fs, rfl, rfl, pointed_of_fraction fraction tail_stops⟩

theorem name_append {cs rest : List Char} (chars : ∀ c ∈ cs, isNameChar c = true)
    (named : ∃ c ∈ cs, c ≠ '_') (stops : ∀ c ∈ rest.head?, isNameChar c = false) :
    name (cs ++ rest) =
      found (.word (kindOfWord (String.ofList cs)) (String.ofList cs)) cs rest := by
  have named : ¬ cs.all (· = '_') = true := by simpa using named
  rw [name]
  simp only [takeWhile_append_of_all chars stops, dropWhile_append_of_all chars stops]
  rw [if_neg named]

/-! ### Quoted literals -/

theorem isAlphanum_of_hexValue? {c : Char} {n : Nat} (value : Text.hexValue? c = some n) :
    c.isAlphanum = true := by
  unfold Text.hexValue? at value
  simp only [Char.isAlphanum, Char.isAlpha, Char.isLower, Char.isUpper, Bool.or_eq_true,
    Bool.and_eq_true, decide_eq_true_eq]
  split at value
  · exact .inr ‹_›
  split at value
  · rename_i lower
    exact .inl (.inr ⟨lower.1, UInt32.le_trans lower.2 (by decide)⟩)
  split at value
  · rename_i upper
    exact .inl (.inl ⟨upper.1, UInt32.le_trans upper.2 (by decide)⟩)
  · cases value

theorem forall_isAlphanum_of_code {digits : List Char} {c : Char}
    (code : charOfHex? digits = some c) : ∀ d ∈ digits, d.isAlphanum = true := by
  obtain ⟨n, value, _⟩ := Option.bind_eq_some_iff.mp code
  clear code
  generalize 0 = start at value
  induction digits generalizing start with
  | nil => simp
  | cons d more ih =>
    rw [List.foldlM_cons] at value
    obtain ⟨next, first, value⟩ := Option.bind_eq_some_iff.mp value
    obtain ⟨digit, hex, _⟩ := Option.map_eq_some_iff.mp first
    exact List.forall_mem_cons.mpr ⟨isAlphanum_of_hexValue? hex, ih next value⟩

theorem charCode_of_code {offset : Nat} {form : ScanError.CodeForm} {digits rest : List Char}
    {c : Char} (length : digits.length = form.digits) (code : charOfHex? digits = some c) :
    charCode offset form (digits ++ rest) = found c digits rest := by
  have taken : (digits ++ rest).take form.digits = digits := List.take_left' length
  have all : digits.takeWhile Char.isAlphanum = digits :=
    List.takeWhile_eq_self_iff.mpr (forall_isAlphanum_of_code code)
  rw [charCode]
  simp only [taken, all, length, if_true, code]
  rw [← length, List.drop_left]

theorem escape_of_escape {e rest : List Char} {c : Char} (escapes : Escape e c) (offset : Nat) :
    Token.escape offset (e ++ rest) = found c e rest := by
  cases escapes with
  | unicode length code =>
    rw [List.cons_append, Token.escape, charCode_of_code length code]
    rfl
  | hexadecimal length code =>
    rw [List.cons_append, Token.escape, charCode_of_code length code]
    rfl
  | letter unicode hexadecimal =>
    rw [List.singleton_append, Token.escape]
    · exact unicode
    · exact hexadecimal

/-- Characters and escapes are read one by one, whatever comes after them. -/
theorem stringBody_append {inside text : List Char} (quoted : Quoted inside text)
    (offset : Nat) (more : List Char) :
    stringBody offset (inside ++ more) =
      ((stringBody (offset + inside.length) more).after inside).map (text ++ ·) := by
  have joined (r : Reading (List Char)) (u cs text : List Char) (c : Char) :
      (((r.after cs).map (text ++ ·)).after u).map (c :: ·) =
        (r.after (u ++ cs)).map (c :: text ++ ·) := by
    simp only [Reading.after, Reading.map, List.append_assoc]
    cases r.outcome <;> rfl
  induction quoted generalizing offset with
  | nil =>
    rw [List.nil_append, List.length_nil, Nat.add_zero]
    simp only [Reading.after, Reading.map, List.nil_append]
    cases h : (stringBody offset more).outcome <;> rw [Except.map, ← h]
  | @plain c cs text quote backslash _ ih =>
    have length : offset + (c :: cs).length = offset + 1 + cs.length := by
      rw [List.length_cons]
      omega
    rw [List.cons_append, stringBody, ih, length, joined]
    · rfl
    · exact quote
    · exact backslash
  | @escape e cs text c escapes _ ih =>
    have length : offset + ('\\' :: (e ++ cs)).length = offset + 1 + e.length + cs.length := by
      rw [List.length_cons, List.length_append]
      omega
    rw [List.cons_append, List.append_assoc, stringBody, escape_of_escape escapes]
    simp only [found, ih]
    rw [length, joined]
    rfl

theorem stringBody_of_quoted {inside text : List Char} (quoted : Quoted inside text)
    (offset : Nat) (rest : List Char) :
    stringBody offset (inside ++ '"' :: rest) = found text (inside ++ ['"']) rest := by
  rw [stringBody_append quoted, stringBody]
  simp [found, Reading.after, Reading.map, Except.map]

theorem charLiteral_of_quoted {inside : List Char} {c : Char} (quoted : QuotedChar inside c)
    (rest : List Char) :
    charLiteral (inside ++ '\'' :: rest) =
      found (.word .char c.toString) (inside ++ ['\'']) rest := by
  cases quoted with
  | plain quote backslash control =>
    rw [List.singleton_append, charLiteral]
    · rw [if_neg control]; rfl
    · exact quote
    · exact backslash
  | escape escapes =>
    rw [List.cons_append, charLiteral, escape_of_escape escapes]
    rfl

/-! ### Marks -/

theorem kindOfPair?_of_endsWord {c d : Char} (ends : endsWord d = true) :
    kindOfPair? c d = none := by
  cases pair : kindOfPair? c d with
  | none => rfl
  | some kind =>
    rw [(isMark_of_pair pair).2.1] at ends
    cases ends

/-- No longer operator begins. -/
theorem mark_eq_singleMark {c : Char} {s : List Char}
    (none : ∀ d ∈ s.head?, kindOfPair? c d = none) : mark c s = singleMark c s := by
  cases s with
  | nil => rfl
  | cons d rest => simp only [mark, none d rfl]

theorem mark_of_single {c : Char} {kind : Kind} {rest : List Char}
    (names : kindOfSingle? c = some kind) (ends : Ends rest) :
    mark c rest = found (.word kind c.toString) [c] rest := by
  rw [mark_eq_singleMark fun d head => kindOfPair?_of_endsWord (ends d head)]
  simp only [singleMark, names]

/-- A slash begins no comment. -/
theorem slashed_of_stops {s : List Char} (none : ∀ c ∈ s.head?, (c = '/' || c = '*') = false) :
    slashed s = mark '/' s := by
  unfold slashed
  split
  · cases none '/' rfl
  · cases none '*' rfl
  · rfl

/-- A word is read for what it is where nothing, a blank or a semicolon follows. -/
theorem lexeme_of_word {cs rest : List Char} {kind : Kind} {text : String}
    (word : Word cs kind text) (ends : Ends rest) :
    ∃ c s, cs = c :: s ∧ isBlank c = false ∧
      lexeme c (s ++ rest) = found (.word kind text) cs rest := by
  cases word with
  | name isName =>
    obtain ⟨c, head, starts⟩ := isName.head
    obtain ⟨s, rfl⟩ := List.head?_eq_some_iff.mp head
    refine ⟨c, s, rfl, not_isBlank_of_startsName starts, ?_⟩
    rw [lexeme_of_startsName starts, ← List.cons_append]
    exact name_append isName.chars isName.named (ends.stops (by decide))
  | @number written text suffix fractional _ numeral fixes =>
    have stops : ∀ c ∈ (suffix ++ rest).head?, c.isDigit = false ∧ c ≠ '.' := by
      intro c mem
      cases fixes with
      | none =>
        refine ⟨ends.stops (by decide) c mem, ?_⟩
        rintro rfl
        cases ends _ mem
      | letter names =>
        cases mem
        exact stops_of_kindOfSuffix? names
    obtain ⟨c, s, rfl, notBlank, lexed⟩ := lexeme_of_numeral numeral stops
    refine ⟨c, s ++ suffix, rfl, notBlank, ?_⟩
    rw [List.append_assoc, lexed, suffixed_of_suffix fixes ends]
  | @string inside text quoted =>
    refine ⟨'"', inside ++ ['"'], rfl, rfl, ?_⟩
    have lexed : lexeme '"' (inside ++ ['"'] ++ rest) =
        (stringLiteral (inside ++ ['"'] ++ rest)).after ['"'] := rfl
    rw [lexed, List.append_assoc, List.singleton_append, stringLiteral,
      stringBody_of_quoted quoted]
    rfl
  | @char inside c quoted =>
    refine ⟨'\'', inside ++ ['\''], rfl, rfl, ?_⟩
    have lexed : lexeme '\'' (inside ++ ['\''] ++ rest) =
        (charLiteral (inside ++ ['\''] ++ rest)).after ['\''] := rfl
    rw [lexed, List.append_assoc, List.singleton_append, charLiteral_of_quoted quoted]
    rfl
  | dot =>
    exact ⟨'.', [], rfl, rfl, pointed_of_stops (ends.stops (by decide))⟩
  | @single c kind names =>
    have leads := isMark_of_single names
    refine ⟨c, [], rfl, leads.others.2.2.2, ?_⟩
    rw [List.nil_append, lexeme_of_isMark leads]
    split
    · rename_i same
      subst same
      rw [slashed_of_stops (ends.stops (by decide))]
      exact mark_of_single names ends
    · exact mark_of_single names ends
  | @pair c d kind names =>
    obtain ⟨leads, _, slash⟩ := isMark_of_pair names
    refine ⟨c, [d], rfl, leads.others.2.2.2, ?_⟩
    have read : mark c (d :: rest) =
        found (.word kind (String.ofList [c, d])) [c, d] rest := by
      simp only [mark, names]
    rw [List.singleton_append, lexeme_of_isMark leads]
    split
    · rename_i same
      subst same
      rw [slash rfl] at read ⊢
      exact read
    · exact read

/-! ### Comments -/

theorem blockComment_of_inside {body : List Char} (inside : ¬ ['*', '/'] <:+: body)
    (rest : List Char) :
    blockComment (body ++ '*' :: '/' :: rest) = found .comment (body ++ ['*', '/']) rest := by
  induction body with
  | nil => rfl
  | cons c more ih =>
    rw [List.infix_cons_iff, not_or] at inside
    obtain ⟨first, inside⟩ := inside
    rw [List.cons_append, blockComment, ih inside]
    · rfl
    · rintro left rfl split
      -- The star is followed by the rest of the body, or by the star of the end mark.
      cases more with
      | nil => cases split
      | cons d more =>
        cases split
        exact first ⟨more, rfl⟩

/-- A comment is read for what it is. -/
theorem lexeme_of_comment {cs rest : List Char} (comment : Lexeme .comment cs rest) :
    ∃ s, cs = '/' :: s ∧ lexeme '/' (s ++ rest) = found .comment cs rest := by
  cases comment with
  | @line body _ inline ends =>
    refine ⟨'/' :: body, rfl, ?_⟩
    have all : ∀ c ∈ body, decide (c ≠ '\n') = true := by
      intro c mem
      simpa using ne_of_mem_of_not_mem mem inline
    have stops : ∀ c ∈ rest.head?, decide (c ≠ '\n') = false := by
      intro c mem
      simpa using ends c mem
    have lexed : lexeme '/' ('/' :: (body ++ rest)) =
        (lineComment (body ++ rest)).after ['/', '/'] := rfl
    rw [List.cons_append, lexed, lineComment, takeWhile_append_of_all all stops,
      dropWhile_append_of_all all stops]
    rfl
  | @block body _ inside =>
    refine ⟨'*' :: (body ++ ['*', '/']), rfl, ?_⟩
    have lexed : lexeme '/' ('*' :: (body ++ ['*', '/'] ++ rest)) =
        (blockComment (body ++ ['*', '/'] ++ rest)).after ['/', '*'] := rfl
    rw [List.cons_append, lexed, List.append_assoc, List.cons_append, List.singleton_append,
      blockComment_of_inside inside]
    rfl

end KindScript.Scanning
