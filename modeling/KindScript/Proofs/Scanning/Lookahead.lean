import KindScript.Proofs.Scanning.Reading

/-!
# How far a lexeme looks ahead

What follows a lexeme matters for two characters at most, and not at all where the text or
its line ends. So a lexeme is found again in every text that begins with its characters and
goes on alike (`settles_lexeme`): in one that is cut off behind it, and in one that is
lengthened by a newline and more.
-/

namespace KindScript.Scanning

open Token

/-! ## Texts that go on alike -/

/-- The second text has the same characters as the first one, for so many characters or until
it or its line ends. -/
inductive Alike : Nat → List Char → List Char → Prop where
  | seen {rest other : List Char} : Alike 0 rest other
  | ended {n : Nat} {rest other : List Char} (newline : ∀ c ∈ other.head?, c = '\n') :
    Alike n rest other
  | same {n : Nat} {c : Char} {rest other : List Char} (more : Alike n rest other) :
    Alike (n + 1) (c :: rest) (c :: other)

namespace Alike

variable {n : Nat} {rest other : List Char}

theorem of_cut (n : Nat) (cut : other <+: rest) : Alike n rest other := by
  induction n generalizing rest other with
  | zero => exact .seen
  | succ n ih =>
    cases other with
    | nil => exact .ended (by simp)
    | cons c other =>
      obtain ⟨after, rfl⟩ := cut
      exact .same (ih (List.prefix_append other after))

theorem append_newline (n : Nat) (rest t : List Char) : Alike n rest (rest ++ '\n' :: t) := by
  induction n generalizing rest with
  | zero => exact .seen
  | succ n ih =>
    cases rest with
    | nil => exact .ended (by simp)
    | cons c rest => exact .same (ih rest)

theorem mono (alike : Alike (n + 1) rest other) : Alike n rest other := by
  induction n generalizing rest other with
  | zero => exact .seen
  | succ n ih =>
    cases alike with
    | ended newline => exact .ended newline
    | same more => exact .same (ih more)

theorem prepend (alike : Alike n rest other) (cs : List Char) :
    Alike n (cs ++ rest) (cs ++ other) := by
  induction cs with
  | nil => exact alike
  | cons c cs ih => exact mono (.same ih)

/-- A class without the newline that stops before the first text stops before the second. -/
theorem stops {p : Char → Bool} (newline : p '\n' = false) (alike : Alike (n + 1) rest other)
    (first : ∀ c ∈ rest.head?, p c = false) : ∀ c ∈ other.head?, p c = false := by
  intro c head
  cases alike with
  | ended ends =>
    rw [ends c head]
    exact newline
  | same => exact first c head

end Alike

/-! ## Readings -/

/-- What the first reading finds, the second one finds in a text that begins with the
characters read and goes on alike. -/
def Settles {α : Type} (r : Reading α) (text : List Char) (r' : Reading α) : Prop :=
  ∀ value other, r.outcome = .ok value → Alike 2 r.rest other → text = r.read ++ other →
    r' = found value r.read other

namespace Settles

variable {α β : Type} {r r' : Reading α} {text : List Char}

theorem of_failed {fault : Fault} (failed : r.outcome = .error fault) : Settles r text r' := by
  intro value other ok
  rw [failed] at ok
  cases ok

theorem of_found {value : α} {read rest : List Char}
    (reads : ∀ other, Alike 2 rest other → text = read ++ other → r' = found value read other) :
    Settles (found value read rest) text r' := by
  intro value other ok
  cases ok
  exact reads other

theorem after (settles : Settles r text r') (before : List Char) :
    Settles (r.after before) (before ++ text) (r'.after before) := by
  intro value other ok alike same
  have inner : text = r.read ++ other := by
    rw [Reading.after, List.append_assoc] at same
    exact List.append_cancel_left same
  rw [settles value other ok alike inner]
  rfl

theorem map (settles : Settles r text r') (f : α → β) : Settles (r.map f) text (r'.map f) := by
  intro value other ok alike same
  obtain ⟨inner, found, rfl⟩ := map_eq_ok.mp ok
  rw [settles inner other found alike same]
  rfl

end Settles

/-- A text that begins with the characters of a lexeme and goes on alike after them is alike
as a whole. -/
theorem Alike.of_splits {α : Type} {r : Reading α} {s t other : List Char} (splits : r.Splits s)
    (alike : Alike 2 r.rest other) (same : t = r.read ++ other) : Alike 2 s t := by
  have whole := alike.prepend r.read
  rwa [splits, ← same] at whole

/-! ## Names and numbers -/

theorem settles_name (s t : List Char) : Settles (name s) t (name t) := by
  have chars : ∀ c ∈ s.takeWhile isNameChar, isNameChar c = true :=
    fun c => List.mem_takeWhile_imp
  by_cases named : ∃ c ∈ s.takeWhile isNameChar, c ≠ '_'
  · rw [← List.takeWhile_append_dropWhile (p := isNameChar) (l := s),
      name_append chars named head?_dropWhile]
    apply Settles.of_found
    rintro other alike rfl
    exact name_append chars named (alike.stops (by decide) head?_dropWhile)
  · have bare : (s.takeWhile isNameChar).all (· = '_') = true := by simpa using named
    rw [name, if_pos bare]
    exact .of_failed rfl

/-- A number is read alike where its digits come first in both texts and both go on alike. -/
theorem settles_suffixed {digits read rest t : List Char} {fractional : Bool} {r' : Reading Piece}
    (reads : ∀ rest', Alike 2 rest rest' → t = read ++ rest' →
      r' = suffixed digits read rest' fractional) :
    Settles (suffixed digits read rest fractional) t r' := by
  have plain (none : ∀ c ∈ rest.head?, kindOfSuffix? c = none) :
      Settles (suffixed digits read rest fractional) t r' := by
    rw [suffixed_of_plain none]
    apply Settles.of_found
    intro other alike same
    have stops := alike.stops (p := fun c => (kindOfSuffix? c).isSome) (by decide)
      fun c head => by simp [none c head]
    rw [reads other alike same]
    exact suffixed_of_plain (by simpa using stops)
  cases rest with
  | nil => exact plain (by simp)
  | cons c left =>
    cases names : kindOfSuffix? c with
    | none => exact plain (by simpa using names)
    | some kind =>
      simp only [suffixed, names] at reads ⊢
      split
      · exact .of_failed rfl
      · rename_i byte
        apply Settles.of_found
        intro other alike same
        have longer : t = read ++ c :: other := by
          rw [same]
          exact List.append_assoc read [c] other
        rw [reads (c :: other) (alike.prepend [c]) longer]
        simp only [names, if_neg byte]

/-- No digit follows after a point. -/
theorem Alike.point {rest other : List Char} (alike : Alike 2 rest other)
    (point : ∀ d more, rest = '.' :: d :: more → d.isDigit = false) :
    ∀ d more, other = '.' :: d :: more → d.isDigit = false := by
  rintro d more rfl
  cases alike with
  | ended newline => exact absurd (newline '.' rfl) (by decide)
  | same alike =>
    cases alike with
    | ended newline =>
      rw [newline d rfl]
      decide
    | same => exact point d _ rfl

theorem settles_number (s t : List Char) : Settles (number s) t (number t) := by
  have digits : ∀ d ∈ s.takeWhile Char.isDigit, d.isDigit = true :=
    fun d => List.mem_takeWhile_imp
  have split : s.takeWhile Char.isDigit ++ s.dropWhile Char.isDigit = s :=
    List.takeWhile_append_dropWhile
  by_cases fraction :
      ∃ d rest, s.dropWhile Char.isDigit = '.' :: d :: rest ∧ d.isDigit = true
  · obtain ⟨d, rest, tail, digit⟩ := fraction
    have more := isDigits_of_head digit rest
    rw [tail, ← List.takeWhile_append_dropWhile (p := Char.isDigit) (l := d :: rest)] at split
    rw [← split, number_of_fraction digits more head?_dropWhile]
    apply settles_suffixed
    rintro rest' alike rfl
    have stops := alike.stops (by decide) head?_dropWhile
    rw [List.append_assoc, List.cons_append]
    exact number_of_fraction digits more stops
  · have point (d : Char) (more : List Char)
        (tail : s.dropWhile Char.isDigit = '.' :: d :: more) : d.isDigit = false := by
      rw [← Bool.not_eq_true]
      exact fun digit => fraction ⟨d, more, tail, digit⟩
    rw [← split, number_of_whole digits head?_dropWhile point]
    apply settles_suffixed
    rintro rest' alike rfl
    exact number_of_whole digits (alike.stops (by decide) head?_dropWhile) (alike.point point)

theorem settles_pointed (s t : List Char) : Settles (pointed s) ('.' :: t) (pointed t) := by
  have digits : ∀ d ∈ s.takeWhile Char.isDigit, d.isDigit = true :=
    fun d => List.mem_takeWhile_imp
  by_cases none : s.takeWhile Char.isDigit = []
  · have whole : s.dropWhile Char.isDigit = s := by
      conv => rhs; rw [← List.takeWhile_append_dropWhile (p := Char.isDigit) (l := s), none]
      rfl
    have stops : ∀ c ∈ s.head?, c.isDigit = false := whole ▸ head?_dropWhile
    rw [pointed_of_stops stops]
    apply Settles.of_found
    intro other alike same
    obtain rfl : t = other := List.tail_eq_of_cons_eq same
    exact pointed_of_stops (alike.stops (by decide) stops)
  · have fraction := isDigits_takeWhile none
    rw [← List.takeWhile_append_dropWhile (p := Char.isDigit) (l := s),
      pointed_of_fraction fraction head?_dropWhile]
    apply settles_suffixed
    intro rest' alike same
    obtain rfl := List.tail_eq_of_cons_eq same
    exact pointed_of_fraction fraction (alike.stops (by decide) head?_dropWhile)

/-! ## Quoted literals -/

theorem settles_stringLiteral (s t : List Char) :
    Settles (stringLiteral s) t (stringLiteral t) := by
  refine Settles.map ?_ _
  intro text other ok _ same
  obtain ⟨inside, quoted, read⟩ := quoted_of_stringBody ok
  rw [same, read, List.append_assoc]
  exact stringBody_of_quoted quoted 1 other

theorem settles_charLiteral (s t : List Char) : Settles (charLiteral s) t (charLiteral t) := by
  intro piece other ok _ same
  obtain ⟨inside, c, quoted, rfl, read⟩ := quotedChar_of_charLiteral ok
  rw [same, read, List.append_assoc]
  exact charLiteral_of_quoted quoted other

/-! ## Comments and marks -/

theorem settles_lineComment (s t : List Char) : Settles (lineComment s) t (lineComment t) := by
  intro piece other ok alike same
  cases ok
  have all : ∀ c ∈ s.takeWhile (· ≠ '\n'), decide (c ≠ '\n') = true :=
    fun c => List.mem_takeWhile_imp
  have stops := alike.stops (p := (· ≠ '\n')) (by decide) head?_dropWhile
  rw [same, lineComment, lineComment]
  simp only [found, takeWhile_append_of_all all stops, dropWhile_append_of_all all stops]

theorem settles_blockComment (s t : List Char) :
    Settles (blockComment s) t (blockComment t) := by
  intro piece other ok _ same
  obtain ⟨rfl, body, inside, read⟩ := block_of_blockComment ok
  rw [same, read, List.append_assoc]
  exact blockComment_of_inside inside other

theorem singleMark_of_ok {c : Char} {s : List Char} {piece : Piece}
    (ok : (singleMark c s).outcome = .ok piece) (t : List Char) :
    singleMark c t = found piece [c] t := by
  unfold singleMark at ok ⊢
  split at ok
  · cases ok
    rfl
  · split at ok <;> cases ok

theorem settles_mark (c : Char) (s t : List Char) : Settles (mark c s) (c :: t) (mark c t) := by
  have single (none : ∀ d ∈ s.head?, kindOfPair? c d = none) :
      Settles (mark c s) (c :: t) (mark c t) := by
    rw [mark_eq_singleMark none]
    intro piece other ok alike same
    rw [singleMark_of_ok ok] at alike same ⊢
    obtain rfl : t = other := List.tail_eq_of_cons_eq same
    have newline : kindOfPair? c '\n' = Option.none := kindOfPair?_of_endsWord rfl
    have stops := alike.stops (p := fun d => (kindOfPair? c d).isSome) (by rw [newline]; rfl)
      fun d head => by simp [none d head]
    rw [mark_eq_singleMark (by simpa using stops), singleMark_of_ok ok]
    rfl
  cases s with
  | nil => exact single (by simp)
  | cons d rest =>
    cases names : kindOfPair? c d with
    | none => exact single (by simpa using names)
    | some kind =>
      have pair (rest : List Char) :
          mark c (d :: rest) = found (.word kind (String.ofList [c, d])) [c, d] rest := by
        simp only [mark, names]
      rw [pair]
      apply Settles.of_found
      intro other _ same
      obtain rfl : t = d :: other := List.tail_eq_of_cons_eq same
      exact pair other

theorem settles_slashed (s t : List Char) : Settles (slashed s) ('/' :: t) (slashed t) := by
  intro piece other ok alike same
  -- The mark of a comment is read with it; an operator is read where no such mark follows.
  by_cases line : ∃ rest, s = '/' :: rest
  · obtain ⟨rest, rfl⟩ := line
    obtain rfl : t = '/' :: ((lineComment rest).read ++ other) := List.tail_eq_of_cons_eq same
    exact (settles_lineComment rest _).after ['/', '/'] piece other ok alike rfl
  by_cases block : ∃ rest, s = '*' :: rest
  · obtain ⟨rest, rfl⟩ := block
    obtain rfl : t = '*' :: ((blockComment rest).read ++ other) := List.tail_eq_of_cons_eq same
    exact (settles_blockComment rest _).after ['/', '*'] piece other ok alike rfl
  have none : ∀ c ∈ s.head?, (c = '/' || c = '*') = false := by
    intro c head
    obtain ⟨rest, rfl⟩ := List.head?_eq_some_iff.mp head
    simp only [Bool.or_eq_false_iff, decide_eq_false_iff_not]
    exact ⟨fun slash => line ⟨rest, slash ▸ rfl⟩, fun star => block ⟨rest, star ▸ rfl⟩⟩
  rw [slashed_of_stops none] at ok alike same ⊢
  -- The slash is in both texts, so they are alike behind it.
  cases alike.of_splits (mark_splits '/' s) same with
  | ended newline => exact absurd (newline '/' rfl) (by decide)
  | same more =>
    rw [slashed_of_stops (more.stops (by decide) none)]
    exact settles_mark '/' s t piece other ok alike same

/-- A lexeme is read alike in every text that begins with it and goes on alike. -/
theorem settles_lexeme (c : Char) (s t : List Char) :
    Settles (lexeme c s) (c :: t) (lexeme c t) := by
  unfold lexeme
  split
  · exact settles_number (c :: s) (c :: t)
  split
  · exact settles_name (c :: s) (c :: t)
  split
  · rename_i point
    rw [point]
    exact settles_pointed s t
  split
  · exact (settles_stringLiteral s t).after [c]
  split
  · exact (settles_charLiteral s t).after [c]
  split
  · rename_i slash
    rw [slash]
    exact settles_slashed s t
  · exact settles_mark c s t

end KindScript.Scanning
