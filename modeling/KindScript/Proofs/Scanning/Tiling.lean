import KindScript.Proofs.Scanning.Layout

/-!
# Tokens tile the source

Where a source can be scanned, its tokens stand for slices of it that follow each other,
with nothing but layout around them. Each slice alone is scanned for the same token, and
the places of a token are those of the ends of its slice.
-/

namespace KindScript.Scanning

open Token

/-! ## Places -/

/-- The place of an index of a text: one more than the newlines before it, and one more than
the characters since the last of these. -/
def placeAt (text : List Char) (i : Nat) : Position :=
  ⟨1 + (text.take i).count '\n', 1 + ((text.take i).reverse.takeWhile (· ≠ '\n')).length⟩

/-- The characters of a text from one index up to another. -/
def slice (text : List Char) (i j : Nat) : List Char :=
  (text.take j).drop i

theorem advance_first (cs : List Char) : Position.first.advance cs = placeAt cs cs.length := by
  rw [placeAt, List.take_length]
  induction cs using List.reverseRecOn with
  | nil => rfl
  | append_singleton cs c ih =>
    rw [Position.advance_append, ih, Position.advance_cons, Position.advance_nil, Position.step]
    by_cases newline : c = '\n'
    · subst newline
      simp [Nat.add_assoc]
    · simp [newline, Nat.add_assoc]

theorem placeAt_append (before after : List Char) :
    placeAt (before ++ after) before.length = Position.first.advance before := by
  rw [advance_first, placeAt, placeAt, List.take_left, List.take_length]

theorem slice_append (before middle after : List Char) :
    slice (before ++ (middle ++ after)) before.length (before.length + middle.length) =
      middle := by
  rw [slice, ← List.append_assoc, ← List.length_append, List.take_left, List.drop_left]

/-! ## Tilings -/

/-- From an index on, the tokens tile the text. Every gap is layout, and every token stands
for a slice that is not empty. -/
inductive Tiles (text : List Char) : Nat → List Token → Prop where
  | done {i : Nat} (inside : i ≤ text.length) (gap : Layout true (text.drop i)) :
    Tiles text i [endOfFile (placeAt text text.length)]
  | word {i start stop : Nat} {t : Token} {later : List Token} (after : i ≤ start)
    (some : start < stop) (inside : stop ≤ text.length)
    (gap : Layout false (slice text i start)) (begins : t.start = placeAt text start)
    (ends : t.stop = placeAt text stop) (kind : t.kind ≠ .endOfFile ∧ t.kind ≠ .emptyToken)
    (alone : tokenize (String.ofList (slice text start stop)) =
      .ok [⟨t.kind, t.text, .first, placeAt (slice text start stop) (stop - start)⟩,
        endOfFile (placeAt (slice text start stop) (stop - start))])
    (more : Tiles text stop later) : Tiles text i (t :: later)

variable {cs : List Char} {kind : Kind} {text : String}

/-- No word is of a kind that marks a comment or the end. -/
theorem Word.kind_ne (word : Word cs kind text) : kind ≠ .endOfFile ∧ kind ≠ .emptyToken := by
  cases word with
  | name =>
    exact forall_kindOfWord (P := fun kind => kind ≠ .endOfFile ∧ kind ≠ .emptyToken)
      (by decide) (by decide) _
  | number _ fixes =>
    cases fixes with
    | none => split <;> decide
    | letter names =>
      unfold kindOfSuffix? at names
      split at names <;> cases names <;> decide
  | string | char | dot => decide
  | single names =>
    unfold kindOfSingle? at names
    split at names <;> cases names <;> decide
  | pair names =>
    unfold kindOfPair? at names
    split at names <;> cases names <;> decide

theorem tokenize_ofList (s : List Char) :
    tokenize (String.ofList s) = (scanFrom .first s).1 := by
  rw [tokenize, Cursor.ofSource, Cursor.scan, String.toList_ofList]

/-- A word alone is one token. -/
theorem tokenize_word (word : Word cs kind text) :
    tokenize (String.ofList cs) =
      .ok [⟨kind, text, .first, placeAt cs cs.length⟩, endOfFile (placeAt cs cs.length)] := by
  have scanned := scanFrom_word word .nil .first
  rw [List.append_nil] at scanned
  rw [tokenize_ofList, scanned, scanFrom, advance_first]
  rfl

theorem Scans.tiles {place : Position} {s : List Char} {tokens : List Token}
    (scans : Scans place s tokens) (before : List Char)
    (here : place = Position.first.advance before) :
    Tiles (before ++ s) before.length tokens := by
  induction scans generalizing before with
  | @done _ gap layout =>
    rw [here, ← Position.advance_append, advance_first]
    exact .done (by simp) (by rwa [List.drop_left])
  | @word place gap cs rest kind text later layout word more ih =>
    subst here
    have filled : cs.length ≠ 0 := by
      obtain ⟨c, s, rfl, _⟩ := word.head
      simp
    -- The slice begins where the gap after `before` ends.
    have whole : before ++ (gap ++ (cs ++ rest)) = before ++ gap ++ (cs ++ rest) := by simp
    have begins : (before ++ gap).length = before.length + gap.length := List.length_append
    have ends : (before ++ gap ++ cs).length = (before ++ gap).length + cs.length :=
      List.length_append
    have advanced : (Position.first.advance before).advance (gap ++ cs) =
        Position.first.advance (before ++ gap ++ cs) := by
      rw [← Position.advance_append, List.append_assoc]
    have later := ih _ advanced
    rw [List.append_assoc, List.append_assoc] at later
    have passed : slice (before ++ (gap ++ (cs ++ rest))) before.length (before ++ gap).length =
        gap := by
      rw [begins, slice_append]
    refine .word (by omega) (by omega) ?_ (passed.symm ▸ layout) ?_ ?_ word.kind_ne ?_ later
    · simp only [List.length_append]
      omega
    · rw [whole, placeAt_append]
      exact (Position.first.advance_append before gap).symm
    · rw [whole, ← List.append_assoc, placeAt_append]
      exact advanced
    · rw [whole, ends, slice_append, Nat.add_sub_cancel_left]
      exact tokenize_word word

/-- The tokens of a source tile it, and the last of them, and no other, marks its end. -/
theorem tiles_of_tokenize {source : String} {tokens : List Token}
    (scanned : tokenize source = .ok tokens) : Tiles source.toList 0 tokens :=
  (Scans.of_scanFrom scanned).tiles [] rfl

/-- A comment, a suffix, a fraction without its zero, a string over two lines, and a line
comment that the end cuts off. -/
private def sample : String :=
  "x/***/+ .5D // e\n\"\\\"\n\"//"

private def sampleTokens : List Token :=
  [⟨.identifier, "x", ⟨1, 1⟩, ⟨1, 2⟩⟩, ⟨.binaryOperator, "+", ⟨1, 7⟩, ⟨1, 8⟩⟩,
    ⟨.double, "0.5", ⟨1, 9⟩, ⟨1, 12⟩⟩, ⟨.string, "\"\n", ⟨2, 1⟩, ⟨3, 2⟩⟩, endOfFile ⟨3, 4⟩]

theorem tiles_of_tokenize_sample :
    tokenize sample = .ok sampleTokens ∧ Tiles sample.toList 0 sampleTokens := by
  have scanned : tokenize sample = .ok sampleTokens := by cbv
  exact ⟨scanned, tiles_of_tokenize scanned⟩

end KindScript.Scanning
