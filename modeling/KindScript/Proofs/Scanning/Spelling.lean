import KindScript.Proofs.Scanning.Tiling

/-!
# Scanning undoes spelling

A list of words that scanning can emit, each spelled in one plain way and set apart from the
next one by a blank and any further layout, is scanned for these words again.
-/

namespace KindScript.Scanning

open Token

/-! ## Spelling -/

/-- The letter that marks a number of the kind. -/
def suffixOf? : Kind → Option Char
  | .byte => some 'b'
  | .integer => some 'i'
  | .long => some 'l'
  | .float => some 'f'
  | .double => some 'd'
  | _ => none

/-- A character inside a string. -/
def stringUnit (c : Char) : List Char :=
  if c = '"' ∨ c = '\\' then ['\\', c] else [c]

/-- The character inside a character literal. -/
def charUnit (c : Char) : List Char :=
  match c with
  | '\n' => ['\\', 'n']
  | '\r' => ['\\', 'r']
  | '\t' => ['\\', 't']
  | c => if c = '\'' ∨ c = '\\' then ['\\', c] else [c]

/-- The characters that spell a word of the kind with the text. The suffix of a number is a
capital letter where `upper` says so. -/
def spelling (upper : Bool) (kind : Kind) (text : String) : List Char :=
  match kind with
  | .string => '"' :: (text.toList.flatMap stringUnit ++ ['"'])
  | .char => '\'' :: (text.toList.flatMap charUnit ++ ['\''])
  | kind =>
    match suffixOf? kind with
    | some letter => text.toList ++ [if upper then letter.toUpper else letter]
    | none => text.toList

/-- The kinds whose words are spelled by their text. -/
def IsPlain (kind : Kind) : Prop :=
  kind ≠ .string ∧ kind ≠ .char ∧ suffixOf? kind = none

instance (kind : Kind) : Decidable (IsPlain kind) :=
  inferInstanceAs (Decidable (_ ∧ _ ∧ _))

theorem spelling_of_isPlain {kind : Kind} (plain : IsPlain kind) (upper : Bool) (text : String) :
    spelling upper kind text = text.toList := by
  obtain ⟨string, char, suffix⟩ := plain
  unfold spelling
  split
  · exact absurd rfl string
  · exact absurd rfl char
  · rw [suffix]

theorem spelling_of_suffix {kind : Kind} {letter : Char} (suffix : suffixOf? kind = some letter)
    (upper : Bool) (text : String) :
    spelling upper kind text = text.toList ++ [if upper then letter.toUpper else letter] := by
  unfold spelling
  split
  · cases suffix
  · cases suffix
  · rw [suffix]

/-- What ends a quoted literal or begins an escape stands for itself after a backslash. -/
theorem escape_of_quote {c : Char} (marked : c = '"' ∨ c = '\'' ∨ c = '\\') : Escape [c] c := by
  rcases marked with rfl | rfl | rfl
  · exact .letter (by decide) (by decide)
  · exact .letter (by decide) (by decide)
  · exact .letter (by decide) (by decide)

theorem quoted_flatMap (text : List Char) : Quoted (text.flatMap stringUnit) text := by
  induction text with
  | nil => exact .nil
  | cons c more ih =>
    rw [List.flatMap_cons, stringUnit]
    split
    · rename_i marked
      exact .escape (escape_of_quote (marked.imp_right .inr)) ih
    · rename_i plain
      rw [not_or] at plain
      exact .plain plain.1 plain.2 ih

theorem quotedChar_charUnit (c : Char) : QuotedChar (charUnit c) c := by
  unfold charUnit
  split
  · exact .escape (.letter (c := 'n') (by decide) (by decide))
  · exact .escape (.letter (c := 'r') (by decide) (by decide))
  · exact .escape (.letter (c := 't') (by decide) (by decide))
  · rename_i newline carriage tab
    split
    · rename_i marked
      exact .escape (escape_of_quote (.inr marked))
    · rename_i plain
      rw [not_or] at plain
      refine .plain plain.1 plain.2 ?_
      rintro (same | same | same)
      · exact newline same
      · exact carriage same
      · exact tab same

/-! ## Words spell words -/

/-- The text of a numeral is a numeral itself. -/
theorem Numeral.text {written text : List Char} {fractional : Bool}
    (numeral : Numeral written text fractional) : ∃ fractional, Numeral text text fractional := by
  cases numeral with
  | whole digits => exact ⟨_, .whole digits⟩
  | fraction digits fraction => exact ⟨_, .fraction digits fraction⟩
  | point fraction =>
    have zero : IsDigits ['0'] := ⟨by simp, List.forall_mem_singleton.mpr rfl⟩
    exact ⟨_, .fraction zero fraction⟩

/-- Every kind of number has its letter, which may be written in either case. -/
theorem Suffix.letter_of {text suffix : List Char} {fractional : Bool} {kind : Kind}
    (fixes : Suffix text fractional suffix kind) :
    ∃ letter, suffixOf? kind = some letter ∧ ∀ upper fractional : Bool,
      Suffix text fractional [if upper then letter.toUpper else letter] kind := by
  have named {letter : Char} (lower : kindOfSuffix? letter = some kind)
      (capital : kindOfSuffix? letter.toUpper = some kind)
      (byte : kind = .byte → isByteText text = true) (upper fractional : Bool) :
      Suffix text fractional [if upper then letter.toUpper else letter] kind := by
    cases upper
    · exact .letter lower byte
    · exact .letter capital byte
  cases fixes with
  | none =>
    cases fractional
    · exact ⟨'i', rfl, named rfl rfl (by simp)⟩
    · exact ⟨'f', rfl, named rfl rfl (by simp)⟩
  | letter names byte =>
    unfold kindOfSuffix? at names
    split at names <;> cases names
    · exact ⟨'b', rfl, named rfl rfl byte⟩
    · exact ⟨'i', rfl, named rfl rfl byte⟩
    · exact ⟨'l', rfl, named rfl rfl byte⟩
    · exact ⟨'f', rfl, named rfl rfl byte⟩
    · exact ⟨'d', rfl, named rfl rfl byte⟩

/-- A word spelled by its kind and text is that word, however it was written. -/
theorem Word.spelling {cs : List Char} {kind : Kind} {text : String} (word : Word cs kind text)
    (upper : Bool) : Word (spelling upper kind text) kind text := by
  cases word with
  | name isName =>
    rw [spelling_of_isPlain (forall_kindOfWord (by decide) (by decide) _), String.toList_ofList]
    exact .name isName
  | number numeral fixes =>
    obtain ⟨letter, suffix, fixed⟩ := fixes.letter_of
    obtain ⟨fractional, numeral⟩ := numeral.text
    rw [spelling_of_suffix suffix, String.toList_ofList]
    exact .number numeral (fixed upper fractional)
  | @string _ text _ =>
    have spelled : Scanning.spelling upper .string (String.ofList text) =
        '"' :: (text.flatMap stringUnit ++ ['"']) := by
      rw [Scanning.spelling, String.toList_ofList]
    rw [spelled]
    exact .string (quoted_flatMap text)
  | @char _ c _ =>
    have spelled : Scanning.spelling upper .char c.toString =
        '\'' :: (charUnit c ++ ['\'']) := by
      rw [Scanning.spelling]
      simp
    rw [spelled]
    exact .char (quotedChar_charUnit c)
  | dot =>
    rw [spelling_of_isPlain (by decide)]
    exact .dot
  | @single c _ names =>
    have plain : IsPlain kind := by
      unfold kindOfSingle? at names
      split at names <;> cases names <;> decide
    have same : c.toString.toList = [c] := by simp
    rw [spelling_of_isPlain plain, same]
    exact .single names
  | pair names =>
    have plain : IsPlain kind := by
      unfold kindOfPair? at names
      split at names <;> cases names <;> decide
    rw [spelling_of_isPlain plain, String.toList_ofList]
    exact .pair names

/-! ## Texts -/

/-- A word that scanning some source gives, with its kind. -/
def Emitted (word : Kind × String) : Prop :=
  word.1 ≠ .endOfFile ∧ ∃ source tokens, tokenize source = .ok tokens ∧
    ∃ t ∈ tokens, (t.kind, t.text) = word

/-- A blank and any layout after it. -/
def Separates (gap : List Char) : Prop :=
  ∃ c more, gap = c :: more ∧ isBlank c = true ∧ Layout false more

/-- Words in order, each spelled and set apart from the next one. -/
inductive Spaced : List (Kind × String) → List Char → Prop where
  | last {kind : Kind} {text : String} {gap : List Char} (upper : Bool)
    (after : gap = [] ∨ Separates gap) :
    Spaced [(kind, text)] (spelling upper kind text ++ gap)
  | next {kind : Kind} {text : String} {gap rest : List Char} {words : List (Kind × String)}
    (upper : Bool) (between : Separates gap) (more : Spaced words rest) :
    Spaced ((kind, text) :: words) (spelling upper kind text ++ (gap ++ rest))

/-- Words in order, with layout before the first one. -/
inductive Written : List (Kind × String) → List Char → Prop where
  | none {gap : List Char} (layout : Layout false gap) : Written [] gap
  | words {words : List (Kind × String)} {gap rest : List Char} (layout : Layout false gap)
    (spaced : Spaced words rest) : Written words (gap ++ rest)

theorem Scans.exists_word {place : Position} {s : List Char} {tokens : List Token}
    (scans : Scans place s tokens) {t : Token} (mem : t ∈ tokens) (kind : t.kind ≠ .endOfFile) :
    ∃ cs, Word cs t.kind t.text := by
  induction scans with
  | done =>
    rw [List.mem_singleton.mp mem] at kind
    exact absurd rfl kind
  | word _ word _ ih =>
    rcases List.mem_cons.mp mem with rfl | mem
    · exact ⟨_, word⟩
    · exact ih mem

theorem Emitted.exists_word {kind : Kind} {text : String} (emitted : Emitted (kind, text)) :
    ∃ cs, Word cs kind text := by
  obtain ⟨notEnd, source, tokens, scanned, t, mem, same⟩ := emitted
  cases same
  exact (Scans.of_scanFrom scanned).exists_word mem notEnd

theorem Separates.ends {gap : List Char} (separates : Separates gap) (rest : List Char) :
    Ends (gap ++ rest) := by
  obtain ⟨c, more, rfl, blank, _⟩ := separates
  intro d mem
  cases mem
  rw [endsWord, blank]
  rfl

theorem Separates.layout {gap : List Char} (separates : Separates gap) : Layout false gap := by
  obtain ⟨c, more, rfl, blank, layout⟩ := separates
  exact .blank blank layout

/-- Scanning layout up to the end gives the end mark alone. -/
theorem scanFrom_layout_only {gap : List Char} (layout : Layout false gap) (place : Position) :
    (scanFrom place gap).1 = .ok [endOfFile (place.advance gap)] := by
  have passed := scanFrom_layout layout rfl place []
  rw [List.append_nil] at passed
  rw [passed, scanFrom]

theorem scanFrom_spaced {words : List (Kind × String)} {s : List Char} (spaced : Spaced words s)
    (emitted : ∀ word ∈ words, Emitted word) (place : Position) :
    ∃ tokens, (scanFrom place s).1 = .ok (tokens ++ [endOfFile (place.advance s)]) ∧
      tokens.map (fun t => (t.kind, t.text)) = words := by
  induction spaced generalizing place with
  | @last kind text gap upper after =>
    obtain ⟨cs, word⟩ := (emitted _ List.mem_cons_self).exists_word
    have ends : Ends gap := by
      rcases after with rfl | separates
      · exact .nil
      · simpa using separates.ends []
    have layout : Layout false gap := by
      rcases after with rfl | separates
      · exact .nil
      · exact separates.layout
    rw [scanFrom_word (word.spelling upper) ends, scanFrom_layout_only layout,
      Position.advance_append]
    exact ⟨[_], rfl, rfl⟩
  | @next kind text gap rest words upper between _ ih =>
    obtain ⟨cs, word⟩ := (emitted _ List.mem_cons_self).exists_word
    obtain ⟨tokens, scanned, same⟩ := ih (fun word mem => emitted word (List.mem_cons_of_mem _ mem))
      ((place.advance (spelling upper kind text)).advance gap)
    rw [scanFrom_word (word.spelling upper) (between.ends rest),
      scanFrom_layout between.layout rfl, scanned, Position.advance_append,
      Position.advance_append]
    refine ⟨_ :: tokens, rfl, ?_⟩
    rw [List.map_cons, same]

/-- Words that scanning can emit are scanned again from any text in which they are spelled in
order, set apart by layout that begins with a blank. -/
theorem tokenize_written {words : List (Kind × String)} {s : List Char}
    (written : Written words s) (emitted : ∀ word ∈ words, Emitted word) :
    ∃ tokens, tokenize (String.ofList s) =
        .ok (tokens ++ [endOfFile (placeAt s s.length)]) ∧
      tokens.map (fun t => (t.kind, t.text)) = words := by
  rw [tokenize_ofList, ← advance_first]
  cases written with
  | none layout =>
    exact ⟨[], scanFrom_layout_only layout .first, rfl⟩
  | @words _ gap rest layout spaced =>
    obtain ⟨tokens, scanned, same⟩ := scanFrom_spaced spaced emitted (Position.first.advance gap)
    rw [scanFrom_layout layout rfl, scanned, Position.advance_append]
    exact ⟨tokens, rfl, same⟩

/-- A fraction under the suffix of an integer, a character that is null, a string of
escapes, and a slash before comments. -/
private def fourWords : List (Kind × String) :=
  [(.integer, "1.5"), (.char, "\x00"), (.string, "\"\\"), (.binaryOperator, "/")]

private def fourWordsText : String :=
  "/***/1.5I /**/'\x00'\t\"\\\"\\\\\"\n//'\n/ //\n"

theorem tokenize_written_four :
    Written fourWords fourWordsText.toList ∧ (∀ word ∈ fourWords, Emitted word) ∧
      ∃ tokens, tokenize (String.ofList fourWordsText.toList) =
          .ok (tokens ++ [endOfFile ⟨4, 1⟩]) ∧
        tokens.map (fun t => (t.kind, t.text)) = fourWords := by
  have spelled : fourWordsText.toList = ['/', '*', '*', '*', '/'] ++
      (spelling true .integer "1.5" ++ ([' ', '/', '*', '*', '/'] ++
        (spelling false .char "\x00" ++ (['\t'] ++
          (spelling false .string "\"\\" ++ (['\n', '/', '/', '\'', '\n'] ++
            (spelling false .binaryOperator "/" ++ [' ', '/', '/', '\n']))))))) := by
    cbv
  have written : Written fourWords fourWordsText.toList := by
    rw [spelled]
    have block (body : List Char) (inside : ¬ ['*', '/'] <:+: body) :
        Layout false ('/' :: '*' :: (body ++ ['*', '/'])) := .block inside .nil
    have line (body : List Char) (inline : '\n' ∉ body) :
        Layout false ('/' :: '/' :: (body ++ ['\n'])) := .line inline .nil
    refine .words (block ['*'] (by decide)) ?_
    refine .next true ⟨' ', _, rfl, rfl, block [] (by decide)⟩ ?_
    refine .next false ⟨'\t', _, rfl, rfl, .nil⟩ ?_
    refine .next false ⟨'\n', _, rfl, rfl, line ['\''] (by decide)⟩ ?_
    exact .last false (.inr ⟨' ', _, rfl, rfl, line [] (by decide)⟩)
  have emitted : ∀ word ∈ fourWords, Emitted word := by
    have first : tokenize "1.5i" =
        .ok [⟨.integer, "1.5", ⟨1, 1⟩, ⟨1, 5⟩⟩, endOfFile ⟨1, 5⟩] := by cbv
    have second : tokenize "'\\0'" =
        .ok [⟨.char, "\x00", ⟨1, 1⟩, ⟨1, 5⟩⟩, endOfFile ⟨1, 5⟩] := by cbv
    have third : tokenize "\"\\x22\\\\\"" =
        .ok [⟨.string, "\"\\", ⟨1, 1⟩, ⟨1, 9⟩⟩, endOfFile ⟨1, 9⟩] := by cbv
    have fourth : tokenize "/" =
        .ok [⟨.binaryOperator, "/", ⟨1, 1⟩, ⟨1, 2⟩⟩, endOfFile ⟨1, 2⟩] := by cbv
    simp only [fourWords, List.forall_mem_cons, List.not_mem_nil, false_implies, implies_true,
      and_true]
    exact ⟨⟨by decide, _, _, first, _, List.mem_cons_self, rfl⟩,
      ⟨by decide, _, _, second, _, List.mem_cons_self, rfl⟩,
      ⟨by decide, _, _, third, _, List.mem_cons_self, rfl⟩,
      ⟨by decide, _, _, fourth, _, List.mem_cons_self, rfl⟩⟩
  obtain ⟨tokens, scanned, same⟩ := tokenize_written written emitted
  have place : placeAt fourWordsText.toList fourWordsText.toList.length = ⟨4, 1⟩ := by cbv
  rw [place] at scanned
  exact ⟨written, emitted, tokens, scanned, same⟩

end KindScript.Scanning
