import KindScript.Proofs.CommandLine.Layers
import KindScript.Proofs.Dumps.Layout
import KindScript.Settings.Reader

/-!
# Decoding settings

A JSON text is decoded as what its value means as settings, in whatever layout it stands: an
object names settings, an array lists them in order, and anything else is refused. So a settings
file loads exactly where its value has a meaning.
-/

namespace KindScript.CommandLine

open Json Settings

/-! ## Meanings -/

/-- The name of a switch in a settings file. -/
def Switch.key : Switch → String
  | debug => "debug"
  | tokens => "show_tokens"
  | trees => "show_trees"
  | values => "show_values"

/-- The place of a switch in a list of settings. -/
def Switch.place : Switch → Nat
  | debug => 0
  | tokens => 1
  | trees => 2
  | values => 3

/-- What a value means as settings. A switch that is left out has its default; it may not be
named twice. Other fields mean nothing. -/
inductive Means : Json → Settings → Prop where
  | object {fields : List (String × Json)} {settings : Settings}
    (once : ∀ s : Switch, (fields.map Prod.fst).count s.key ≤ 1)
    (each : ∀ s : Switch, (fields.lookup s.key).getD (.boolean (s.isSet {})) =
      .boolean (s.isSet settings)) : Means (.object fields) settings
  | array {values : List Bool} {settings : Settings} (few : values.length ≤ 4)
    (each : ∀ s : Switch, s.isSet settings = values[s.place]?.getD (s.isSet {})) :
    Means (.array (values.map .boolean)) settings

def truth? : Json → Option Bool
  | .boolean b => some b
  | _ => none

/-- What is given after one more field, unless it is refused. -/
def extended? (given : Given) (field : String × Json) : Option Given :=
  if names.contains field.1 then
    if (given.lookup field.1).isSome then none
    else (truth? field.2).map fun b => (field.1, b) :: given
  else some given

/-- The settings that a value is read as. -/
def decoded? : Json → Option Settings
  | .object fields => (fields.foldlM extended? []).map Given.complete
  | .array items =>
    if items.length ≤ names.length then
      (items.mapM truth?).map fun values => Given.complete (names.zip values)
    else none
  | _ => none

/-! ## Reading -/

section

variable {α β : Type}

theorem toOption_bind (first : Except Fault α) (more : α → Except Fault β) :
    (first >>= more).toOption = first.toOption.bind fun a => (more a).toOption := by
  cases first <;> rfl

theorem toOption_map (f : α → β) (first : Except Fault α) :
    (first.map f).toOption = first.toOption.map f := by
  cases first <;> rfl

theorem toOption_refuse (expected : String) (s : List Char) :
    (refuse expected s : Except Fault α).toOption = none := by
  cases refused : (refuse expected s : Except Fault α) with
  | error => rfl
  | ok a => exact absurd refused (refuse_ne_ok expected s a)

end

section

variable {json : Json} {text s r : List Char}

theorem skipSpace_skipSpace (s : List Char) : skipSpace (skipSpace s) = skipSpace s :=
  List.dropWhile_idempotent _ _

theorem takeTruth_skipSpace (s : List Char) : takeTruth (skipSpace s) = takeTruth s := by
  rw [takeTruth, skipSpace_skipSpace, takeTruth]

theorem takeTruth_word {c : Char} {b : Bool} {word rest : List Char}
    (front : skipSpace s = c :: (word ++ rest))
    (lead : c = 't' ∧ word = ['r', 'u', 'e'] ∧ b = true ∨
      c = 'f' ∧ word = ['a', 'l', 's', 'e'] ∧ b = false) : takeTruth s = .ok (b, rest) := by
  rw [takeTruth, front]
  rcases lead with ⟨rfl, rfl, rfl⟩ | ⟨rfl, rfl, rfl⟩
  · exact congrArg (Except.map (true, ·)) (takeWord_append ['r', 'u', 'e'] rest)
  · exact congrArg (Except.map (false, ·)) (takeWord_append ['a', 'l', 's', 'e'] rest)

theorem takeTruth_other {c : Char} {rest : List Char} (front : skipSpace s = c :: rest)
    (yes : c ≠ 't') (no : c ≠ 'f') : (takeTruth s).toOption = none := by
  unfold takeTruth
  split
  · rfl
  · exact absurd (List.cons.inj (front.symm.trans ‹_›)).1 yes
  · exact absurd (List.cons.inj (front.symm.trans ‹_›)).1 no
  · exact toOption_refuse _ _

/-- A truth value is taken, and nothing else. -/
theorem takeTruth_padded (padded : Padded json text) (r : List Char) : ∃ after, Space after ∧
    (takeTruth (text ++ r)).toOption = (truth? json).map (·, after ++ r) := by
  have other (notTruth : ∀ b, json.form ≠ .truth b) : (takeTruth (text ++ r)).toOption = none := by
    obtain ⟨c, cs, front, lead⟩ := padded.opens r
    refine takeTruth_other front ?_ ?_
    · rintro rfl
      exact notTruth true (Option.some.inj lead).symm
    · rintro rfl
      exact notTruth false (Option.some.inj lead).symm
  cases json with
  | boolean b =>
    obtain @⟨before, inner, after, _, left, laid, right⟩ := padded
    refine ⟨after, right, ?_⟩
    simp only [List.append_assoc]
    cases laid with
    | yes =>
      have taken : takeTruth (before ++ ("true".toList ++ (after ++ r))) = .ok (true, after ++ r) :=
        takeTruth_word (skipSpace_front left rfl) (.inl ⟨rfl, rfl, rfl⟩)
      rw [taken]
      rfl
    | no =>
      have taken : takeTruth (before ++ ("false".toList ++ (after ++ r))) =
          .ok (false, after ++ r) :=
        takeTruth_word (skipSpace_front left rfl) (.inr ⟨rfl, rfl, rfl⟩)
      rw [taken]
      rfl
  | null | number | string | array | object => exact ⟨[], space_nil, other nofun⟩

/-- A value is passed over with no open brackets about it. -/
theorem skipValue_padded (padded : Padded json text) (stops : Stops r) :
    ∃ after, Space after ∧ skipValue [] (text ++ r) = .ok (after ++ r) := by
  obtain @⟨before, inner, after, json, left, laid, right⟩ := padded
  refine ⟨after, right, ?_⟩
  simp only [List.append_assoc]
  rw [laid.skip left (right.stops stops), skipRest]

/-- A field is taken as far as it is not refused. -/
theorem takeField_padded {name : String} {before : List Char} (left : Space before)
    (padded : Padded json text) (stops : Stops r) (given : Given) : ∃ after, Space after ∧
      (takeField given name (before ++ ':' :: (text ++ r))).toOption =
        (extended? given (name, json)).map (·, after ++ r) := by
  have colon : (takeColon (before ++ ':' :: (text ++ r))).toOption = some (text ++ r) := by
    rw [takeColon_front (skipSpace_front left rfl)]
    rfl
  unfold takeField extended?
  split
  · split
    · exact ⟨[], space_nil, rfl⟩
    · obtain ⟨after, right, truth⟩ := takeTruth_padded padded r
      refine ⟨after, right, ?_⟩
      rw [toOption_bind, colon, Option.bind_some, toOption_bind, truth]
      cases truth? json <;> rfl
  · obtain ⟨after, right, skipped⟩ := skipValue_padded padded stops
    refine ⟨after, right, ?_⟩
    rw [toOption_bind, colon, Option.bind_some, toOption_bind, skipped]
    rfl

/-! ## Objects -/

theorem takeNamed_quote {first : Bool} {name : String} {front written after : List Char}
    (given : Given) (spells : Written name.toList written)
    (quote : takeQuote first front = .ok (written ++ '"' :: (after ++ ':' :: s))) :
    takeNamed first given front = takeField given name (after ++ ':' :: s) := by
  obtain ⟨text, read, same⟩ := spells.takes true (after ++ ':' :: s)
  obtain rfl := same rfl
  rw [takeNamed, quote]
  change (takeString true (written ++ '"' :: (after ++ ':' :: s)) >>= fun p =>
    takeField given (String.ofList p.1) p.2) = _
  rw [read]
  change takeField given (String.ofList name.toList) _ = _
  rw [String.ofList_toList]

theorem takeFields_next {c : Char} {cs : List Char} {first : Bool} (given : Given)
    (front : skipSpace s = c :: cs) (notEnd : c ≠ '\x7d') : takeFields first given s =
      takeNamed first given (c :: cs) >>= fun p => takeFields false p.1 p.2 := by
  rw [takeFields]
  split
  · cases front.symm.trans ‹_›
  · exact absurd (List.cons.inj (front.symm.trans ‹_›)).1 notEnd
  · rw [front]
    split
    · rename_i failed
      rw [failed]
      rfl
    · rename_i taken
      rw [taken]
      rfl

/-- The next field is taken, with what stands before it. -/
theorem takeFields_key {first : Bool} {name : String} {key : List Char} (given : Given)
    (keyed : Key name key)
    (stands : s = key ++ ':' :: r ∧ first = true ∨
      ∃ before, Space before ∧ s = before ++ ',' :: (key ++ ':' :: r) ∧ first = false) :
    ∃ after, Space after ∧ takeFields first given s =
      takeField given name (after ++ ':' :: r) >>= fun p => takeFields false p.1 p.2 := by
  obtain @⟨left, written, after, name, space, spells, space'⟩ := keyed
  refine ⟨after, space', ?_⟩
  have front : skipSpace (left ++ '"' :: (written ++ '"' :: (after ++ ':' :: r))) =
      '"' :: (written ++ '"' :: (after ++ ':' :: r)) := skipSpace_front space rfl
  simp only [List.append_assoc, List.cons_append] at stands
  rcases stands with ⟨rfl, rfl⟩ | ⟨before, outer, rfl, rfl⟩
  · rw [takeFields_next given front (by decide), takeNamed_quote given spells rfl]
  · have comma := skipSpace_front (s := left ++ '"' :: (written ++ '"' :: (after ++ ':' :: r)))
      (c := ',') outer rfl
    have quote : takeQuote false (',' :: (left ++ '"' :: (written ++ '"' :: (after ++ ':' :: r)))) =
        .ok (written ++ '"' :: (after ++ ':' :: r)) := by
      rw [takeQuote, front]
      rfl
    rw [takeFields_next given comma (by decide), takeNamed_quote given spells quote]

/-- The fields of an object are taken as far as none is refused. -/
theorem takeFields_remaining {fields : List (String × Json)} {first : Bool}
    (left : Remaining Fields '\x7d' r first fields s) (given : Given) :
    (takeFields first given s).toOption = (fields.foldlM extended? given).map (·, r) := by
  induction fields generalizing first s given with
  | nil =>
    cases left with
    | first each => cases each
    | more _ each => cases each
    | done space =>
      have front := skipSpace_front (s := r) (c := '\x7d') space rfl
      rw [takeFields]
      split
      · cases front.symm.trans ‹_›
      · rw [(List.cons.inj (front.symm.trans ‹_›)).2]
        rfl
      · rename_i notEnd
        exact absurd front (notEnd _)
  | cons field fields ih =>
    have step {text : List Char} (each : Fields (field :: fields) text)
        (stands : s = text ++ '\x7d' :: r ∧ first = true ∨
          ∃ before, Space before ∧ s = before ++ ',' :: (text ++ '\x7d' :: r) ∧ first = false) :
        (takeFields first given s).toOption =
          ((field :: fields).foldlM extended? given).map (·, r) := by
      obtain ⟨name, value, more, key, inner, rest, same, keyed, padded, text_eq, stops, goesOn⟩ :=
        each.uncons r
      obtain ⟨rfl, rfl⟩ := List.cons.inj same
      rw [text_eq] at stands
      obtain ⟨after, space, taken⟩ := takeFields_key given keyed stands
      obtain ⟨after', space', field_eq⟩ := takeField_padded space padded stops given
      rw [taken, toOption_bind, field_eq, List.foldlM_cons]
      cases extended? given (name, value) with
      | none => rfl
      | some given' => exact ih (goesOn after' space') given'
    cases left with
    | first each => exact step each (.inl ⟨rfl, rfl⟩)
    | more space each => exact step each (.inr ⟨_, space, rfl, rfl⟩)

/-! ## Arrays -/

/-- Takes up to `n` truth values and the end of an array. -/
def takeArray (n : Nat) (first : Bool) (s : List Char) : Except Fault (List Bool × List Char) := do
  let (values, rest) ← takeItems n first s
  return (values, ← takeListEnd rest)

theorem takeArray_end {n : Nat} {first : Bool} {rest : List Char}
    (front : skipSpace s = ']' :: rest) : takeArray n first s = .ok ([], rest) := by
  have ends {s : List Char} (front : skipSpace s = ']' :: rest) : takeListEnd s = .ok rest := by
    rw [takeListEnd, front]
    rfl
  cases n with
  | zero =>
    have items : takeItems 0 first s = .ok ([], s) := rfl
    rw [takeArray, items]
    change (takeListEnd s >>= fun rest => .ok ([], rest)) = _
    rw [ends front]
    rfl
  | succ n =>
    have items : takeItems (n + 1) first s = .ok ([], ']' :: rest) := by
      rw [takeItems, front]
      rfl
    rw [takeArray, items]
    change (takeListEnd (']' :: rest) >>= fun rest => .ok ([], rest)) = _
    rw [ends (skipSpace_ink rfl)]
    rfl

theorem takeArray_next {n : Nat} {first : Bool} {c : Char} {cs : List Char}
    (front : skipSpace s = c :: cs) (notEnd : c ≠ ']') : takeArray (n + 1) first s =
      (if first then .ok (c :: cs) else takeComma (c :: cs)) >>= fun item =>
        takeTruth item >>= fun p => takeArray n false p.2 >>= fun q => pure (p.1 :: q.1, q.2) := by
  have items : takeItems (n + 1) first s =
      (if first then .ok (c :: cs) else takeComma (c :: cs)) >>= fun item =>
        takeTruth item >>= fun p => takeItems n false p.2 >>= fun q => pure (p.1 :: q.1, q.2) := by
    rw [takeItems]
    split
    · cases front.symm.trans ‹_›
    · exact absurd (List.cons.inj (front.symm.trans ‹_›)).1 notEnd
    · rw [front]
      cases first <;> rfl
  simp only [takeArray, items, bind_assoc, pure_bind]

theorem takeArray_full {first : Bool} {c : Char} {cs : List Char} (front : skipSpace s = c :: cs)
    (notEnd : c ≠ ']') : (takeArray 0 first s).toOption = none := by
  have failed : (takeListEnd s).toOption = none := by
    rw [takeListEnd]
    split
    · rfl
    · exact absurd (List.cons.inj (front.symm.trans ‹_›)).1 notEnd
    · split <;> rfl
    · rfl
  have items : takeItems 0 first s = .ok ([], s) := rfl
  rw [takeArray, items]
  change (takeListEnd s >>= _).toOption = none
  rw [toOption_bind, failed]
  rfl

theorem takeComma_open {c : Char} {cs : List Char} (front : skipSpace s = c :: cs)
    (notEnd : c ≠ ']') : takeComma (',' :: s) = .ok (skipSpace s) := by
  rw [takeComma]
  split
  · cases front.symm.trans ‹_›
  · exact absurd (List.cons.inj (front.symm.trans ‹_›)).1 notEnd
  · rfl

/-- An item can be reached, and before it stands something other than the end of the array. -/
theorem exists_item {item : Json} {items : List Json} {first : Bool}
    (left : Remaining Items ']' r first (item :: items) s) :
    ∃ c cs inner rest, skipSpace s = c :: cs ∧ c ≠ ']' ∧ Padded item inner ∧
      (if first then .ok (c :: cs) else takeComma (c :: cs)) = .ok (skipSpace (inner ++ rest)) ∧
        ∀ after, Space after → Remaining Items ']' r false items (after ++ rest) := by
  have begins {text : List Char} (each : Items (item :: items) text) :
      ∃ c cs inner rest, skipSpace (inner ++ rest) = c :: cs ∧ c ≠ ']' ∧ Padded item inner ∧
        text ++ ']' :: r = inner ++ rest ∧
          ∀ after, Space after → Remaining Items ']' r false items (after ++ rest) := by
    obtain ⟨_, _, inner, rest, same, padded, text_eq, _, goesOn⟩ := each.uncons r
    obtain ⟨rfl, rfl⟩ := List.cons.inj same
    obtain ⟨c, cs, front, lead⟩ := padded.opens rest
    refine ⟨c, cs, inner, rest, front, ?_, padded, text_eq, goesOn⟩
    rintro rfl
    cases lead
  cases left with
  | first each =>
    obtain ⟨c, cs, inner, rest, front, notEnd, padded, text_eq, goesOn⟩ := begins each
    rw [text_eq]
    exact ⟨c, cs, inner, rest, front, notEnd, padded, congrArg Except.ok front.symm, goesOn⟩
  | more space each =>
    obtain ⟨c, cs, inner, rest, front, notEnd, padded, text_eq, goesOn⟩ := begins each
    rw [text_eq]
    exact ⟨',', _, inner, rest, skipSpace_front space rfl, by decide, padded,
      takeComma_open front notEnd, goesOn⟩

/-- The items of an array are taken as far as all are truth values and there are not too many. -/
theorem takeArray_remaining {items : List Json} {n : Nat} {first : Bool}
    (left : Remaining Items ']' r first items s) : (takeArray n first s).toOption =
      if items.length ≤ n then (items.mapM truth?).map (·, r) else none := by
  induction items generalizing n first s with
  | nil =>
    cases left with
    | first each => cases each
    | more _ each => cases each
    | done space =>
      rw [takeArray_end (skipSpace_front space rfl)]
      rfl
  | cons item items ih =>
    obtain ⟨c, cs, inner, rest, front, notEnd, padded, start, goesOn⟩ := exists_item left
    cases n with
    | zero =>
      rw [takeArray_full front notEnd]
      rfl
    | succ n =>
      obtain ⟨after, space, truth⟩ := takeTruth_padded padded rest
      rw [takeArray_next front notEnd, start]
      change (takeTruth (skipSpace (inner ++ rest)) >>= _).toOption = _
      rw [takeTruth_skipSpace, toOption_bind, truth, List.mapM_cons]
      cases truth? item with
      | none => exact (ite_self none).symm
      | some b =>
        change (takeArray n false (after ++ rest) >>= _).toOption = _
        rw [toOption_bind, ih (goesOn after space), List.length_cons]
        simp only [Nat.succ_le_succ_iff]
        split
        · cases items.mapM truth? <;> rfl
        · rfl

/-! ## Texts -/

theorem takeSettings_array {rest : List Char} (front : skipSpace s = '[' :: rest) :
    takeSettings s = takeArray names.length true rest >>= fun p =>
      pure (Given.complete (names.zip p.1), p.2) := by
  rw [takeSettings, front]
  simp only [takeArray, bind_assoc, pure_bind]

theorem takeSettings_object {rest : List Char} (front : skipSpace s = '\x7b' :: rest) :
    takeSettings s = (takeFields true [] rest).map fun p => (p.1.complete, p.2) := by
  rw [takeSettings, front]
  rfl

theorem takeSettings_other {c : Char} {cs : List Char} (front : skipSpace s = c :: cs)
    (square : c ≠ '[') (curly : c ≠ '\x7b') : (takeSettings s).toOption = none := by
  rw [takeSettings]
  split
  · rfl
  · exact absurd (List.cons.inj (front.symm.trans ‹_›)).1 square
  · exact absurd (List.cons.inj (front.symm.trans ‹_›)).1 curly
  · exact toOption_refuse _ _

theorem takeSettings_padded (padded : Padded json text) : ∃ after, Space after ∧
    (takeSettings text).toOption = (decoded? json).map (·, after) := by
  have other (notArray : json.form ≠ .array) (notObject : json.form ≠ .object) :
      (takeSettings text).toOption = none := by
    obtain ⟨c, cs, front, lead⟩ := padded.opens []
    rw [List.append_nil] at front
    refine takeSettings_other front ?_ ?_
    · rintro rfl
      exact notArray (Option.some.inj lead).symm
    · rintro rfl
      exact notObject (Option.some.inj lead).symm
  cases json with
  | array items =>
    obtain @⟨before, inner, after, _, left, laid, right⟩ := padded
    refine ⟨after, right, ?_⟩
    obtain ⟨rest, inner_eq, remaining⟩ : ∃ rest, inner ++ after = '[' :: rest ∧
        Remaining Items ']' after true items rest := by
      cases laid with
      | noItems space => exact ⟨_, by rw [List.cons_append, List.append_assoc]; rfl, .done space⟩
      | array each => exact ⟨_, by rw [List.cons_append, List.append_assoc]; rfl, .first each⟩
    rw [inner_eq, takeSettings_array (skipSpace_front left rfl), toOption_bind,
      takeArray_remaining remaining, decoded?]
    split
    · cases items.mapM truth? <;> rfl
    · rfl
  | object fields =>
    obtain @⟨before, inner, after, _, left, laid, right⟩ := padded
    refine ⟨after, right, ?_⟩
    obtain ⟨rest, inner_eq, remaining⟩ : ∃ rest, inner ++ after = '\x7b' :: rest ∧
        Remaining Fields '\x7d' after true fields rest := by
      cases laid with
      | noFields space => exact ⟨_, by rw [List.cons_append, List.append_assoc]; rfl, .done space⟩
      | object each => exact ⟨_, by rw [List.cons_append, List.append_assoc]; rfl, .first each⟩
    rw [inner_eq, takeSettings_object (skipSpace_front left rfl), toOption_map,
      takeFields_remaining remaining, decoded?]
    cases fields.foldlM extended? [] <;> rfl
  | null | boolean | number | string => exact ⟨[], space_nil, other nofun nofun⟩

/-- A text in any layout is decoded as its value. -/
theorem ofText_padded {text : String} (padded : Padded json text.toList) :
    (ofText text).toOption = decoded? json := by
  obtain ⟨after, space, taken⟩ := takeSettings_padded padded
  have ends : skipSpace after = [] := by
    have all := skipSpace_append (s := []) space
    rw [List.append_nil] at all
    exact all
  have whole : (ofChars text.toList).toOption = decoded? json := by
    rw [ofChars, toOption_bind, taken]
    cases decoded? json with
    | none => rfl
    | some settings =>
      rw [Option.map_some, Option.bind_some]
      simp only [ends]
      rfl
  rw [← whole, ofText]
  cases ofChars text.toList <;> rfl

/-! ## Meanings are what is decoded -/

theorem Switch.key_mem (s : Switch) : names.contains s.key = true := by
  cases s <;> rfl

theorem Switch.exists_key {name : String} (mem : names.contains name = true) :
    ∃ s : Switch, s.key = name := by
  simp only [names, List.contains_iff_mem, List.mem_cons, List.not_mem_nil, or_false] at mem
  rcases mem with rfl | rfl | rfl | rfl
  · exact ⟨.debug, rfl⟩
  · exact ⟨.tokens, rfl⟩
  · exact ⟨.trees, rfl⟩
  · exact ⟨.values, rfl⟩

theorem Switch.key_injective {s s' : Switch} (same : s.key = s'.key) : s = s' := by
  cases s <;> cases s' <;> first | rfl | exact absurd same (by decide)

theorem eq_iff_isSet {settings settings' : Settings} :
    settings = settings' ↔ ∀ s : Switch, s.isSet settings = s.isSet settings' := by
  constructor
  · rintro rfl _
    rfl
  · intro each
    obtain ⟨debug, tokens, trees, values⟩ := settings
    obtain ⟨debug', tokens', trees', values'⟩ := settings'
    obtain rfl : debug = debug' := each .debug
    obtain rfl : tokens = tokens' := each .tokens
    obtain rfl : trees = trees' := each .trees
    obtain rfl : values = values' := each .values
    rfl

theorem isSet_complete (s : Switch) (given : Given) :
    s.isSet given.complete = (given.lookup s.key).getD (s.isSet {}) := by
  cases s <;> rfl

theorem isSet_complete_zip (s : Switch) (values : List Bool) :
    s.isSet (Given.complete (names.zip values)) = values[s.place]?.getD (s.isSet {}) := by
  rcases values with _ | ⟨a, _ | ⟨b, _ | ⟨c, _ | ⟨d, _⟩⟩⟩⟩ <;> cases s <;> rfl

theorem truth?_eq_some_iff {json : Json} {b : Bool} : truth? json = some b ↔ json = .boolean b := by
  cases json <;> simp [truth?]

theorem mapM_truth?_iff {items : List Json} {values : List Bool} :
    items.mapM truth? = some values ↔ items = values.map .boolean := by
  induction items generalizing values with
  | nil => cases values <;> simp
  | cons item items ih =>
    simp only [List.mapM_cons, Option.bind_eq_bind, Option.bind_eq_some_iff, truth?_eq_some_iff, ih]
    constructor
    · rintro ⟨b, rfl, values, rfl, ⟨⟩⟩
      rfl
    · intro same
      cases values with
      | nil => cases same
      | cons b values =>
        obtain ⟨rfl, rfl⟩ := List.cons.inj same
        exact ⟨b, rfl, values, rfl, rfl⟩

/-- What a switch comes to with what is given and with the fields that follow. -/
def Settles (given : Given) (fields : List (String × Json)) (settings : Settings) (s : Switch) :
    Prop :=
  match given.lookup s.key with
  | none => (fields.map Prod.fst).count s.key ≤ 1 ∧
      (fields.lookup s.key).getD (.boolean (s.isSet {})) = .boolean (s.isSet settings)
  | some b => s.key ∉ fields.map Prod.fst ∧ b = s.isSet settings

section

variable {given : Given} {fields : List (String × Json)} {settings : Settings} {s : Switch}
  {name : String} {value : Json} {b : Bool}

theorem settles_nil : Settles given [] settings s ↔ s.isSet given.complete = s.isSet settings := by
  rw [isSet_complete]
  unfold Settles
  cases given.lookup s.key <;> simp

theorem settles_other (other : s.key ≠ name) :
    Settles given ((name, value) :: fields) settings s ↔ Settles given fields settings s := by
  have key : (s.key == name) = false := beq_eq_false_iff_ne.mpr other
  unfold Settles
  split <;> simp [List.lookup_cons, key, other, other.symm]

theorem settles_given (other : s.key ≠ name) :
    Settles ((name, b) :: given) fields settings s ↔ Settles given fields settings s := by
  have key : (s.key == name) = false := beq_eq_false_iff_ne.mpr other
  simp only [Settles, List.lookup_cons, key]

theorem settles_key (fresh : given.lookup s.key = none) :
    Settles given ((s.key, .boolean b) :: fields) settings s ↔
      Settles ((s.key, b) :: given) fields settings s := by
  simp [Settles, fresh, List.count_eq_zero]

/-- A field settles what it names, or it is refused. -/
theorem settles_cons {field : String × Json} :
    (∀ s, Settles given (field :: fields) settings s) ↔
      ∃ given', extended? given field = some given' ∧ ∀ s, Settles given' fields settings s := by
  obtain ⟨name, value⟩ := field
  cases mem : names.contains name with
  | false =>
    have other (s : Switch) : s.key ≠ name := by
      intro same
      rw [← same, s.key_mem] at mem
      cases mem
    have next : extended? given (name, value) = some given := by
      rw [extended?, if_neg (by rw [mem]; exact Bool.false_ne_true)]
    rw [next, forall_congr' fun s => settles_other (other s)]
    simp
  | true =>
    obtain ⟨s, rfl⟩ := Switch.exists_key mem
    cases given_eq : given.lookup s.key with
    | some b =>
      have next : extended? given (s.key, value) = none := by
        rw [extended?, if_pos mem, given_eq]
        rfl
      rw [next]
      refine iff_of_false (fun settles => ?_) nofun
      have settled := settles s
      rw [Settles, given_eq] at settled
      exact settled.1 List.mem_cons_self
    | none =>
      have next : extended? given (s.key, value) =
          (truth? value).map fun b => (s.key, b) :: given := by
        rw [extended?, if_pos mem, given_eq]
        rfl
      rw [next]
      cases truth : truth? value with
      | none =>
        refine iff_of_false (fun settles => ?_) nofun
        have settled := settles s
        rw [Settles, given_eq] at settled
        have value_eq := settled.2
        rw [List.lookup_cons_self, Option.getD_some] at value_eq
        rw [value_eq] at truth
        cases truth
      | some b =>
        obtain rfl := truth?_eq_some_iff.mp truth
        have each (s' : Switch) : Settles given ((s.key, .boolean b) :: fields) settings s' ↔
            Settles ((s.key, b) :: given) fields settings s' := by
          by_cases same : s' = s
          · rw [same]
            exact settles_key given_eq
          · have other : s'.key ≠ s.key := fun key => same (Switch.key_injective key)
            rw [settles_other other, settles_given other]
        rw [forall_congr' each]
        simp

theorem foldlM_extended?_iff : (fields.foldlM extended? given).map Given.complete = some settings ↔
    ∀ s, Settles given fields settings s := by
  induction fields generalizing given with
  | nil =>
    simp only [settles_nil, ← eq_iff_isSet]
    exact Option.some_inj
  | cons field fields ih =>
    rw [List.foldlM_cons, settles_cons]
    cases extended? given field with
    | none => exact iff_of_false nofun nofun
    | some given' =>
      refine Iff.trans (@ih given') ⟨fun settles => ⟨given', rfl, settles⟩, ?_⟩
      rintro ⟨_, ⟨⟩, settles⟩
      exact settles

end

theorem decoded?_eq_some_iff {settings : Settings} :
    decoded? json = some settings ↔ Means json settings := by
  cases json with
  | object fields =>
    refine foldlM_extended?_iff.trans ⟨fun settles => ?_, ?_⟩
    · exact .object (fun s => (settles s).1) fun s => (settles s).2
    · rintro (⟨once, each⟩ | _) s
      exact ⟨once s, each s⟩
  | array items =>
    have few_iff {values : List Bool} : (values.map Json.boolean).length ≤ names.length ↔
        values.length ≤ 4 := by
      rw [List.length_map]
      exact Iff.rfl
    rw [decoded?, Option.ite_none_right_eq_some, Option.map_eq_some_iff]
    constructor
    · rintro ⟨few, values, items_eq, rfl⟩
      obtain rfl := mapM_truth?_iff.mp items_eq
      exact .array (few_iff.mp few) fun s => isSet_complete_zip s values
    · rintro (_ | @⟨values, _, few, each⟩)
      refine ⟨few_iff.mpr few, values, mapM_truth?_iff.mpr rfl, eq_iff_isSet.mpr fun s => ?_⟩
      rw [isSet_complete_zip, each s]
  | null | boolean | number | string => exact iff_of_false nofun nofun

/-- A text in any layout is decoded exactly as its value means. -/
theorem ofText_eq_ok_iff {text : String} {settings : Settings} (padded : Padded json text.toList) :
    ofText text = .ok settings ↔ Means json settings := by
  rw [← decoded?_eq_some_iff, ← ofText_padded padded]
  cases ofText text <;> simp [Except.toOption]

example : ofText " \x7b\"other\" : [0.5, \x7b\x7d] , \"debug\": true\x7d" =
    .ok { debug := true } := by
  decide +kernel

/-- Settings mean themselves. -/
theorem means_toJson (settings : Settings) : Means settings.toJson settings := by
  refine .object (fun s => ?_) fun s => ?_
  · cases s <;> exact Nat.le_refl 1
  · cases s <;> rfl

/-- Settings are read back from both their texts. -/
theorem ofText_toJson (settings : Settings) : ofText settings.toJson.compact = .ok settings ∧
    ∀ text, settings.toJson.Indented 0 text → ofText text = .ok settings := by
  have numbered : Numbered settings.toJson := by
    refine .object ?_
    simp only [List.forall_mem_cons]
    exact ⟨.boolean _, .boolean _, .boolean _, .boolean _, nofun⟩
  have means := means_toJson settings
  exact ⟨(ofText_eq_ok_iff (laid_compact numbered).padded).mpr means, fun text writes =>
    (ofText_eq_ok_iff (writes.laid numbered).padded).mpr means⟩

/-- A settings file with a JSON text in any layout loads exactly as its value means. -/
theorem loads_ok_iff_means {view : Files.View} {env : Environment} {named : Option String}
    {path text : String} {needed : Bool} {settings : Settings}
    (file : SettingsFile env named path needed) (read : view.read path = .ok text)
    (padded : Padded json text.toList) :
    Loads ofText view env named (.ok settings) ↔ Means json settings := by
  rw [← ofText_eq_ok_iff padded]
  constructor
  · intro loads
    cases decodes : ofText text with
    | ok settings' =>
      have same := loads.load_eq.symm.trans (Loads.loaded file read decodes).load_eq
      rw [Except.ok.inj same]
    | error cause => cases loads.load_eq.symm.trans (Loads.malformed file read decodes).load_eq
  · exact fun decodes => .loaded file read decodes

end

end KindScript.CommandLine
