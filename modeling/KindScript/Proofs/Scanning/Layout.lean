import KindScript.Proofs.Scanning.Reading

/-!
# Layout

What may stand between words, and how scanning goes through a text of words and layout:
it passes over layout, takes each word for a token, and where it succeeds the text is made
up of nothing else.
-/

namespace KindScript.Scanning

open Token

/-- Blanks and complete comments. At the end of a text the last of them may be a line
comment that no newline ends. -/
inductive Layout : (atEnd : Bool) → List Char → Prop where
  | nil {atEnd : Bool} : Layout atEnd []
  | blank {atEnd : Bool} {c : Char} {gap : List Char} (blank : isBlank c = true)
    (more : Layout atEnd gap) : Layout atEnd (c :: gap)
  | line {atEnd : Bool} {body gap : List Char} (inline : '\n' ∉ body)
    (more : Layout atEnd gap) : Layout atEnd ('/' :: '/' :: (body ++ '\n' :: gap))
  | block {atEnd : Bool} {body gap : List Char} (inside : ¬ ['*', '/'] <:+: body)
    (more : Layout atEnd gap) : Layout atEnd ('/' :: '*' :: (body ++ '*' :: '/' :: gap))
  | cutOff {body : List Char} (inline : '\n' ∉ body) : Layout true ('/' :: '/' :: body)

/-! ## Steps of scanning -/

section Steps

variable {place : Position} {c : Char} {s read rest cs gap : List Char} {kind : Kind}
  {text : String}

theorem scanFrom_blank (blank : isBlank c = true) (place : Position) (s : List Char) :
    scanFrom place (c :: s) = scanFrom (place.step c) s := by
  rw [scanFrom, if_pos blank]

theorem scanFrom_of_failed {fault : Fault} (notBlank : isBlank c = false)
    (failed : (lexeme c s).outcome = .error fault) (place : Position) :
    (scanFrom place (c :: s)).1 = .error (fault.locate place (lexeme c s).read) := by
  rw [scanFrom, if_neg (Bool.eq_false_iff.mp notBlank)]
  simp only [failed]

theorem scanFrom_comment (comment : Lexeme .comment cs rest) (place : Position) :
    scanFrom place (cs ++ rest) = scanFrom (place.advance cs) rest := by
  obtain ⟨s, rfl, reads⟩ := lexeme_of_comment comment
  have slash : ¬ isBlank '/' = true := by decide
  rw [List.cons_append, scanFrom, if_neg slash]
  simp only [reads, found, Piece.token?]

theorem scanFrom_word (word : Word cs kind text) (ends : Ends rest) (place : Position) :
    (scanFrom place (cs ++ rest)).1 = (scanFrom (place.advance cs) rest).1.map
      (⟨kind, text, place, place.advance cs⟩ :: ·) := by
  obtain ⟨c, s, rfl, notBlank, reads⟩ := lexeme_of_word word ends
  rw [List.cons_append, scanFrom, if_neg (Bool.eq_false_iff.mp notBlank)]
  simp only [reads, found, Piece.token?]

/-- Layout is passed over. -/
theorem scanFrom_layout {atEnd : Bool} (layout : Layout atEnd gap) (complete : atEnd = false)
    (place : Position) (rest : List Char) :
    scanFrom place (gap ++ rest) = scanFrom (place.advance gap) rest := by
  induction layout generalizing place with
  | nil => rfl
  | blank blank _ ih =>
    rw [List.cons_append, scanFrom_blank blank, ih complete]
    rfl
  | @line _ body gap inline _ ih =>
    have comment : Lexeme .comment ('/' :: '/' :: body) ('\n' :: (gap ++ rest)) :=
      .line inline (by simp)
    have split : '/' :: '/' :: (body ++ '\n' :: gap) ++ rest =
        ('/' :: '/' :: body) ++ '\n' :: (gap ++ rest) := by simp
    have advanced : place.advance ('/' :: '/' :: (body ++ '\n' :: gap)) =
        ((place.advance ('/' :: '/' :: body)).step '\n').advance gap :=
      place.advance_append ('/' :: '/' :: body) ('\n' :: gap)
    rw [split, scanFrom_comment comment, scanFrom_blank rfl, ih complete, advanced]
  | @block _ body gap inside _ ih =>
    have comment : Lexeme .comment ('/' :: '*' :: (body ++ ['*', '/'])) (gap ++ rest) :=
      .block inside
    have split : '/' :: '*' :: (body ++ '*' :: '/' :: gap) ++ rest =
        '/' :: '*' :: (body ++ ['*', '/']) ++ (gap ++ rest) := by simp
    have same : '/' :: '*' :: (body ++ '*' :: '/' :: gap) =
        '/' :: '*' :: (body ++ ['*', '/']) ++ gap := by simp
    rw [split, scanFrom_comment comment, ih complete, same, Position.advance_append]
  | cutOff => cases complete

end Steps

/-! ## What scanning finds -/

/-- From the place on, the text is made up of words with layout before, between and after
them, and these are its tokens. -/
inductive Scans : Position → List Char → List Token → Prop where
  | done {place : Position} {gap : List Char} (layout : Layout true gap) :
    Scans place gap [endOfFile (place.advance gap)]
  | word {place : Position} {gap cs rest : List Char} {kind : Kind} {text : String}
    {later : List Token} (layout : Layout false gap) (word : Word cs kind text)
    (more : Scans (place.advance (gap ++ cs)) rest later) :
    Scans place (gap ++ (cs ++ rest))
      (⟨kind, text, place.advance gap, place.advance (gap ++ cs)⟩ :: later)

theorem Layout.of_blank {atEnd : Bool} {c : Char} {gap : List Char} (blank : isBlank c = true)
    (layout : Layout atEnd (c :: gap)) : Layout atEnd gap := by
  cases layout with
  | blank _ more => exact more
  | line | block | cutOff => cases blank

theorem Word.head {cs : List Char} {kind : Kind} {text : String} (word : Word cs kind text) :
    ∃ c s, cs = c :: s ∧ isBlank c = false := by
  obtain ⟨c, s, same, notBlank, _⟩ := lexeme_of_word word .nil
  exact ⟨c, s, same, notBlank⟩

namespace Scans

variable {place : Position} {s : List Char} {tokens : List Token}

theorem prepend {start : List Char}
    (extend : ∀ {atEnd gap}, Layout atEnd gap → Layout atEnd (start ++ gap))
    (scans : Scans (place.advance start) s tokens) : Scans place (start ++ s) tokens := by
  cases scans with
  | done layout =>
    rw [← place.advance_append]
    exact .done (extend layout)
  | word layout word more =>
    rw [← place.advance_append, ← List.append_assoc] at more
    simpa only [List.append_assoc, Position.advance_append] using
      Scans.word (extend layout) word more

theorem of_blank {c : Char} (blank : isBlank c = true) (scans : Scans place (c :: s) tokens) :
    Scans (place.step c) s tokens := by
  generalize same : c :: s = whole at scans
  cases scans with
  | done layout =>
    subst same
    exact .done (layout.of_blank blank)
  | @word _ gap cs _ _ _ _ layout word more =>
    cases gap with
    | nil =>
      obtain ⟨d, ds, rfl, notBlank⟩ := word.head
      cases same
      rw [notBlank] at blank
      cases blank
    | cons d gap =>
      cases same
      exact .word (layout.of_blank blank) word more

/-- A line comment before a text that begins with its newline, or that is empty. -/
theorem line {body : List Char} (inline : '\n' ∉ body) (ends : ∀ c ∈ s.head?, c = '\n')
    (scans : Scans (place.advance ('/' :: '/' :: body)) s tokens) :
    Scans place ('/' :: '/' :: body ++ s) tokens := by
  cases s with
  | nil =>
    generalize none : [] = rest at scans
    cases scans with
    | done layout =>
      subst none
      rw [List.append_nil]
      exact .done (.cutOff inline)
    | word _ word _ =>
      obtain ⟨_, _, rfl, _⟩ := word.head
      simp at none
  | cons c s =>
    obtain rfl := ends c rfl
    have scans := scans.of_blank rfl
    have start : '/' :: '/' :: body ++ '\n' :: s = ('/' :: '/' :: (body ++ ['\n'])) ++ s := by simp
    rw [start]
    refine prepend (fun {_ gap} layout => ?_) ?_
    · have same : '/' :: '/' :: (body ++ ['\n']) ++ gap = '/' :: '/' :: (body ++ '\n' :: gap) := by
        simp
      rw [same]
      exact .line inline layout
    · have advanced : place.advance ('/' :: '/' :: (body ++ ['\n'])) =
          (place.advance ('/' :: '/' :: body)).step '\n' :=
        place.advance_append ('/' :: '/' :: body) ['\n']
      rw [advanced]
      exact scans

theorem comment {cs : List Char} (comment : Lexeme .comment cs s)
    (scans : Scans (place.advance cs) s tokens) : Scans place (cs ++ s) tokens := by
  cases comment with
  | line inline ends => exact scans.line inline ends
  | @block body _ inside =>
    refine prepend (fun {_ gap} layout => ?_) scans
    have same : '/' :: '*' :: (body ++ ['*', '/']) ++ gap =
        '/' :: '*' :: (body ++ '*' :: '/' :: gap) := by simp
    rw [same]
    exact .block inside layout

/-- Where scanning succeeds, the text is made up of words and layout, and their tokens are
the result. -/
theorem of_scanFrom (ok : (scanFrom place s).1 = .ok tokens) : Scans place s tokens := by
  fun_induction scanFrom place s generalizing tokens with
  | case1 place =>
    cases ok
    exact .done .nil
  | case2 place c rest blank ih =>
    have extend {atEnd : Bool} {gap : List Char} (layout : Layout atEnd gap) :
        Layout atEnd ([c] ++ gap) := .blank blank layout
    have scans := prepend extend (ih ok)
    exact scans
  | case3 => cases ok
  | case4 place c rest notBlank after piece read none =>
    rename_i ih
    have reads := sound_lexeme c rest piece read
    cases piece with
    | word => cases none
    | comment =>
      rw [← lexeme_split c rest]
      exact .comment reads (ih ok)
  | case5 place c rest notBlank after piece read token some later =>
    rename_i ih
    have reads := sound_lexeme c rest piece read
    cases piece with
    | comment => cases some
    | word kind text =>
      cases some
      cases reads with
      | word word =>
        obtain ⟨more, scanned, rfl⟩ := map_eq_ok.mp ok
        rw [← lexeme_split c rest]
        have none : Layout false [] := .nil
        exact .word none word (ih scanned)

end Scans

end KindScript.Scanning
