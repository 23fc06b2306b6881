import KindScript.Binary.Literal
import KindScript.Dump
import KindScript.Json.Reader
import KindScript.Settings
import KindScript.Text.Quoted

/-!
# Settings files

The settings that a JSON text spells: an object with settings by name, where fields of other
names are passed over, or an array with settings in order. What is not mentioned has its
default. Reading stops at the first fault; a setting that is given twice is one, and so is a
value of another type.
-/

namespace KindScript.Settings

open Json

/-- The settings that are given so far, by their names. -/
abbrev Given := List (String × Bool)

def names : List String :=
  ["debug", "show_tokens", "show_trees", "show_values"]

/-- The settings that are not given have their defaults. -/
def Given.complete (given : Given) : Settings :=
  let base : Settings := {}
  ⟨(given.lookup "debug").getD base.debug, (given.lookup "show_tokens").getD base.showTokens,
    (given.lookup "show_trees").getD base.showTrees,
    (given.lookup "show_values").getD base.showValues⟩

/-! ## Values of other types -/

/-- What a number is called: an integer where 64 bits hold it, and else the nearest double. -/
def numberName? (digits : List Char) : Option String :=
  match Text.wholeNumber? digits with
  | some n =>
    if digits.head? ≠ some '-' ∧ n.natAbs < UInt64.size ∨ n < 0 ∧ Int64.minValue.toInt ≤ n then
      some ("integer `" ++ n.repr ++ "`")
    else double
  | none => double
where
  double : Option String :=
    match Binary.ofText? .double (String.ofList digits) with
    | some x =>
      if x.isFinite then some ("floating point `" ++ x.write .even Number.doubleStyle ++ "`")
      else none
    | none => none

/-- The fault of a value of another type than is expected. -/
def refuse {α : Type} (expected : String) (s : List Char) : Except Fault α :=
  let wrong (found : String) (rest : List Char) : Except Fault α :=
    .error (.before (.wrongType found expected) rest)
  match s with
  | 'n' :: rest => do wrong "null" (← takeWord ['u', 'l', 'l'] rest)
  | 't' :: rest => do wrong "boolean `true`" (← takeWord ['r', 'u', 'e'] rest)
  | 'f' :: rest => do wrong "boolean `false`" (← takeWord ['a', 'l', 's', 'e'] rest)
  | '"' :: rest => do
    let (text, rest) ← takeString true rest
    wrong ("string " ++ Text.quoted (String.ofList text)) rest
  | '[' :: _ => wrong "sequence" s
  | '\x7b' :: _ => wrong "map" s
  | c :: _ =>
    if c = '-' ∨ c.isDigit then do
      let rest ← takeNumber .valueCutOff s
      match numberName? (s.take (s.length - rest.length)) with
      | some found => wrong found rest
      | none => .error (.before .numberTooLarge rest)
    else .error (.next .noValue s)
  | [] => .error (.next .noValue s)

theorem refuse_ne_ok {α : Type} (expected : String) (s : List Char) (a : α) :
    refuse expected s ≠ .ok a := by
  intro taken
  unfold refuse at taken
  split at taken
  case h_1 | h_2 | h_3 | h_4 =>
    obtain ⟨_, _, wrong⟩ := exists_of_bind_ok taken
    cases wrong
  case h_5 | h_6 | h_8 => cases taken
  case h_7 =>
    split at taken
    · obtain ⟨rest, _, named⟩ := exists_of_bind_ok taken
      split at named <;> cases named
    · cases taken

/-- Takes a truth value. -/
def takeTruth (s : List Char) : Except Fault (Bool × List Char) :=
  match skipSpace s with
  | [] => .error (.before .valueCutOff [])
  | 't' :: rest => (takeWord ['r', 'u', 'e'] rest).map (true, ·)
  | 'f' :: rest => (takeWord ['a', 'l', 's', 'e'] rest).map (false, ·)
  | s => refuse "a boolean" s

theorem takeTruth_lt {s rest : List Char} {value : Bool} (taken : takeTruth s = .ok (value, rest)) :
    rest.length < s.length := by
  have mapped {word front : List Char} {c : Char} {b : Bool} (space : skipSpace s = c :: front)
      (taken : (takeWord word front).map (b, ·) = .ok (value, rest)) : rest.length < s.length := by
    cases inner : takeWord word front with
    | error fault =>
      rw [inner] at taken
      cases taken
    | ok after =>
      rw [inner] at taken
      cases taken
      exact Nat.lt_of_le_of_lt (takeWord_le inner) (skipSpace_lt space)
  unfold takeTruth at taken
  split at taken
  · cases taken
  · exact mapped ‹_› taken
  · exact mapped ‹_› taken
  · exact absurd taken (refuse_ne_ok _ _ _)

/-! ## Arrays -/

/-- Takes what stands between two items of an array, or stops before its bracket. -/
def takeComma (s : List Char) : Except Fault (List Char) :=
  match s with
  | ',' :: rest =>
    match skipSpace rest with
    | [] => .error (.before .valueCutOff [])
    | ']' :: rest => .error (.next .trailingComma (']' :: rest))
    | rest => .ok rest
  | s => .error (.next .noListEnd s)

/-- Takes up to `n` truth values of an array and stops before its bracket. -/
def takeItems (n : Nat) (first : Bool) (s : List Char) : Except Fault (List Bool × List Char) :=
  match n with
  | 0 => .ok ([], s)
  | n + 1 =>
    match skipSpace s with
    | [] => .error (.before .listCutOff [])
    | ']' :: rest => .ok ([], ']' :: rest)
    | s => do
      let item ← if first then .ok s else takeComma s
      let (value, rest) ← takeTruth item
      let (values, rest) ← takeItems n false rest
      return (value :: values, rest)

/-- Takes the closing bracket of an array. -/
def takeListEnd (s : List Char) : Except Fault (List Char) :=
  match skipSpace s with
  | [] => .error (.before .listCutOff [])
  | ']' :: rest => .ok rest
  | ',' :: rest =>
    match skipSpace rest with
    | ']' :: rest => .error (.next .trailingComma (']' :: rest))
    | rest => .error (.next .trailingText rest)
  | s => .error (.next .trailingText s)

/-! ## Objects -/

/-- Takes what stands before the key of a field. -/
def takeQuote (first : Bool) (s : List Char) : Except Fault (List Char) :=
  match first, s with
  | true, '"' :: rest => .ok rest
  | true, s => .error (.next .noKey s)
  | false, ',' :: rest =>
    match skipSpace rest with
    | [] => .error (.before .valueCutOff [])
    | '"' :: rest => .ok rest
    | '\x7d' :: rest => .error (.next .trailingComma ('\x7d' :: rest))
    | rest => .error (.next .noKey rest)
  | false, s => .error (.next .noObjectEnd s)

theorem takeQuote_lt {first : Bool} {s rest : List Char} (taken : takeQuote first s = .ok rest) :
    rest.length < s.length := by
  unfold takeQuote at taken
  split at taken
  · cases taken
    exact Nat.lt_succ_self _
  · cases taken
  · split at taken
    · cases taken
    · rename_i front
      cases taken
      exact Nat.lt_succ_of_lt (skipSpace_lt front)
    · cases taken
    · cases taken
  · cases taken

/-- What is left after the end of an object, if it ends here. -/
def afterObject (s : List Char) : List Char :=
  match skipSpace s with
  | '\x7d' :: rest => rest
  | rest => rest

/-- Takes the value of a field. -/
def takeField (given : Given) (name : String) (s : List Char) :
    Except Fault (Given × List Char) :=
  if names.contains name then
    if (given.lookup name).isSome then
      .error (.before (.repeatedField name) (afterObject s))
    else do
      let (value, rest) ← takeTruth (← takeColon s)
      return ((name, value) :: given, rest)
  else do
    return (given, ← skipValue [] (← takeColon s))

theorem takeField_lt {given given' : Given} {name : String} {s rest : List Char}
    (taken : takeField given name s = .ok (given', rest)) : rest.length < s.length := by
  unfold takeField at taken
  split at taken
  · split at taken
    · cases taken
    · obtain ⟨front, colon, taken⟩ := exists_of_bind_ok taken
      obtain ⟨⟨value, after⟩, truth, done⟩ := exists_of_bind_ok taken
      cases done
      exact Nat.lt_trans (takeTruth_lt truth) (takeColon_lt colon)
  · obtain ⟨front, colon, taken⟩ := exists_of_bind_ok taken
    obtain ⟨after, skipped, done⟩ := exists_of_bind_ok taken
    cases done
    exact Nat.lt_trans (skipValue_lt skipped) (takeColon_lt colon)

/-- Takes a field of an object with what stands before it. -/
def takeNamed (first : Bool) (given : Given) (s : List Char) :
    Except Fault (Given × List Char) := do
  let (name, rest) ← takeString true (← takeQuote first s)
  takeField given (String.ofList name) rest

theorem takeNamed_lt {first : Bool} {given given' : Given} {s rest : List Char}
    (taken : takeNamed first given s = .ok (given', rest)) : rest.length < s.length := by
  obtain ⟨front, quote, taken⟩ := exists_of_bind_ok taken
  obtain ⟨⟨name, after⟩, string, field⟩ := exists_of_bind_ok taken
  exact Nat.lt_trans (takeField_lt field)
    (Nat.lt_trans (takeString_lt string) (takeQuote_lt quote))

/-- Takes the fields of an object and its closing brace. -/
def takeFields (first : Bool) (given : Given) (s : List Char) : Except Fault (Given × List Char) :=
  match _ : skipSpace s with
  | [] => .error (.before .objectCutOff [])
  | '\x7d' :: rest => .ok (given, rest)
  | front =>
    match _ : takeNamed first given front with
    | .error fault => .error fault
    | .ok (given, rest) => takeFields false given rest
termination_by s.length
decreasing_by
  rename_i space taken
  exact Nat.lt_of_lt_of_le (takeNamed_lt taken) (space ▸ skipSpace_le s)

/-! ## Texts -/

/-- Takes the settings of an object or of an array. -/
def takeSettings (s : List Char) : Except Fault (Settings × List Char) :=
  match skipSpace s with
  | [] => .error (.before .valueCutOff [])
  | '[' :: rest => do
    let (values, rest) ← takeItems names.length true rest
    return (Given.complete (names.zip values), ← takeListEnd rest)
  | '\x7b' :: rest => (takeFields true [] rest).map fun (given, rest) => (given.complete, rest)
  | s => refuse "struct Config" s

/-- The settings of a text that holds nothing else. -/
def ofChars (s : List Char) : Except Fault Settings := do
  let (settings, rest) ← takeSettings s
  match skipSpace rest with
  | [] => return settings
  | rest => .error (.next .trailingText rest)

/-- The settings of a file's text, or the message about its first fault. -/
def ofText : Decoder := fun text =>
  (ofChars text.toList).mapError fun fault => fault.message text.toList

end KindScript.Settings
