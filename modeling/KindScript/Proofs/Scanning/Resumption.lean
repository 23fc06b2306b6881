import KindScript.Proofs.Scanning.Offsets
import KindScript.Proofs.Scanning.Places

/-!
# Scanning on after errors

A scanner can be asked for tokens again and again. Every call scans what the calls before it
have left as a text of its own, from the place where they stopped. A call that fails has read
at least one character, so no more calls fail than the source has characters; after a call
that succeeds there is nothing left but the end mark.
-/

namespace KindScript.Scanning

open Token

/-! ## One call -/

/-- The characters that a call passes stand before those that it leaves, and its place moves
over them. Where it fails there is one at least, and where it succeeds none is left. -/
structure Passes (place : Position) (s read : List Char)
    (call : Except ScanError (List Token) × Cursor) : Prop where
  split : s = read ++ call.2.rest
  place_eq : call.2.place = place.advance read
  some_of_error : ∀ e, call.1 = .error e → read ≠ []
  none_of_ok : ∀ tokens, call.1 = .ok tokens → call.2.rest = []

namespace Passes

variable {place : Position} {s read before : List Char}
  {call : Except ScanError (List Token) × Cursor}

/-- A call from further on is part of one from here. -/
theorem prepend (passes : Passes (place.advance before) s read call) :
    Passes place (before ++ s) (before ++ read) call where
  split := by rw [passes.split, List.append_assoc, ← passes.split]
  place_eq := by rw [passes.place_eq, Position.advance_append]
  some_of_error e failed :=
    List.append_ne_nil_of_right_ne_nil before (passes.some_of_error e failed)
  none_of_ok := passes.none_of_ok

theorem map (passes : Passes place s read call) (f : List Token → List Token) :
    Passes place s read (call.1.map f, call.2) where
  split := passes.split
  place_eq := passes.place_eq
  some_of_error e failed := passes.some_of_error e (map_eq_error.mp failed)
  none_of_ok tokens done := by
    obtain ⟨inner, found, _⟩ := map_eq_ok.mp done
    exact passes.none_of_ok inner found

end Passes

theorem exists_passes (place : Position) (s : List Char) :
    ∃ read, Passes place s read (scanFrom place s) := by
  fun_induction scanFrom place s with
  | case1 place =>
    refine ⟨[], rfl, rfl, ?_, fun _ _ => rfl⟩
    intro e failed
    cases failed
  | case2 place c rest blank ih =>
    obtain ⟨read, passes⟩ := ih
    have whole : Passes place ([c] ++ rest) ([c] ++ read) _ := .prepend passes
    exact ⟨_, whole⟩
  | case3 place c rest notBlank after fault failed =>
    refine ⟨(lexeme c rest).read, (lexeme_split c rest).symm, rfl,
      fun _ _ => lexeme_read_ne_nil c rest, ?_⟩
    intro tokens done
    cases done
  | case4 place c rest notBlank after piece outcome none ih =>
    obtain ⟨read, passes⟩ := ih
    have whole := Passes.prepend passes
    rw [lexeme_split] at whole
    exact ⟨_, whole⟩
  | case5 place c rest notBlank after piece outcome token some later ih =>
    obtain ⟨read, passes⟩ := ih
    have whole := Passes.prepend passes
    rw [lexeme_split] at whole
    exact ⟨_, whole.map _⟩

/-! ## Calls one after another -/

/-- The scanner of a source after a number of calls. -/
def scanner (source : String) : Nat → Cursor
  | 0 => .ofSource source
  | calls + 1 => (scanner source calls).scan.2

/-- What the scanner answers to a call, the first one being call zero. -/
def answer (source : String) (call : Nat) : Except ScanError (List Token) :=
  (scanner source call).scan.1

/-- How many characters a number of calls have read. -/
def consumed (source : String) (calls : Nat) : Nat :=
  source.toList.length - (scanner source calls).rest.length

/-- How many of a number of calls have failed. -/
def failures (source : String) (calls : Nat) : Nat :=
  (List.range calls).countP fun call => !(answer source call).isOk

variable (source : String)

/-- The calls have read the characters before some index, and stand at its place. -/
theorem exists_scanner (calls : Nat) : ∃ read, source.toList = read ++ (scanner source calls).rest ∧
    (scanner source calls).place = Position.first.advance read := by
  induction calls with
  | zero => exact ⟨[], rfl, rfl⟩
  | succ calls ih =>
    obtain ⟨before, split, place⟩ := ih
    obtain ⟨read, passes⟩ := exists_passes (scanner source calls).place (scanner source calls).rest
    refine ⟨before ++ read, ?_, ?_⟩
    · rw [List.append_assoc, split, passes.split]
      rfl
    · rw [Position.advance_append, ← place]
      exact passes.place_eq

/-- The scanner is at the index up to which it has read, and all from there on is left. -/
theorem scanner_eq (calls : Nat) : consumed source calls ≤ source.toList.length ∧
    scanner source calls =
      ⟨placeAt source.toList (consumed source calls),
        source.toList.drop (consumed source calls)⟩ := by
  obtain ⟨read, split, place⟩ := exists_scanner source calls
  have index : consumed source calls = read.length := by
    rw [consumed, split, List.length_append, Nat.add_sub_cancel]
  refine ⟨Nat.sub_le _ _, ?_⟩
  generalize scanner source calls = cursor at split place
  obtain ⟨here, rest⟩ := cursor
  rw [index, split, placeAt_append, List.drop_left, ← place]

/-- A call moves the index on by what it passes. -/
theorem exists_consumed (call : Nat) : ∃ read,
    Passes (scanner source call).place (scanner source call).rest read (scanner source call).scan ∧
      consumed source (call + 1) = consumed source call + read.length := by
  obtain ⟨read, passes⟩ := exists_passes (scanner source call).place (scanner source call).rest
  refine ⟨read, passes, ?_⟩
  obtain ⟨before, split, _⟩ := exists_scanner source call
  have whole := congrArg List.length split
  have part := congrArg List.length passes.split
  rw [List.length_append] at whole part
  have next : (scanner source (call + 1)).rest = (scanFrom (scanner source call).place
    (scanner source call).rest).2.rest := rfl
  rw [consumed, consumed, next]
  omega

theorem consumed_lt_of_error {call : Nat} {e : ScanError}
    (failed : answer source call = .error e) :
    consumed source call < consumed source (call + 1) := by
  obtain ⟨read, passes, moved⟩ := exists_consumed source call
  have some := List.length_pos_iff.mpr (passes.some_of_error e failed)
  omega

/-- Every call that fails passes a character that no other call passes. -/
theorem failures_le (calls : Nat) : failures source calls ≤ consumed source calls := by
  induction calls with
  | zero => exact Nat.zero_le _
  | succ calls ih =>
    have counted : failures source (calls + 1) =
        failures source calls + if (answer source calls).isOk then 0 else 1 := by
      rw [failures, List.range_succ, List.countP_append, List.countP_singleton]
      cases (answer source calls).isOk <;> rfl
    cases result : answer source calls with
    | error e =>
      have moved := consumed_lt_of_error source result
      rw [counted, result]
      show failures source calls + 1 ≤ _
      omega
    | ok tokens =>
      obtain ⟨read, _, moved⟩ := exists_consumed source calls
      rw [counted, result]
      show failures source calls + 0 ≤ _
      omega

/-- After a call that succeeds the scanner stays at the end. -/
theorem rest_of_ok {call later : Nat} {tokens : List Token}
    (done : answer source call = .ok tokens) (after : call < later) :
    (scanner source later).rest = [] := by
  induction later, after using Nat.le_induction with
  | base =>
    obtain ⟨read, passes, _⟩ := exists_consumed source call
    exact passes.none_of_ok tokens done
  | succ later _ ih =>
    have next : (scanner source (later + 1)).rest =
        (scanFrom (scanner source later).place (scanner source later).rest).2.rest := rfl
    rw [next, ih, scanFrom]

/-- How a scanner goes through its source, however often it is called. -/
structure Resumes (source : String) : Prop where
  /-- It never leaves the source, and its place is that of the characters read. -/
  inside : ∀ calls, consumed source calls ≤ source.toList.length ∧
    scanner source calls =
      ⟨placeAt source.toList (consumed source calls), source.toList.drop (consumed source calls)⟩
  /-- A call answers what scanning the rest alone does, from the place of the scanner. -/
  fresh : ∀ call, answer source call = shifted (placeAt source.toList (consumed source call))
    (tokenize (String.ofList (source.toList.drop (consumed source call))))
  moves : ∀ call e, answer source call = .error e →
    consumed source call < consumed source (call + 1)
  fails : ∀ calls, failures source calls ≤ source.toList.length
  ends : ∀ call tokens, answer source call = .ok tokens → ∀ later, call < later →
    answer source later = .ok [endOfFile (placeAt source.toList source.toList.length)]

/-- A scanner can be called again after it failed, and comes to the end. -/
theorem resumes : Resumes source := by
  constructor
  case inside => exact scanner_eq source
  case fresh =>
    intro call
    rw [answer, Cursor.scan, (scanner_eq source call).2, scanFrom_eq]
  case moves =>
    intro call e
    exact consumed_lt_of_error source
  case fails =>
    intro calls
    exact (failures_le source calls).trans (scanner_eq source calls).1
  case ends =>
    intro call tokens done later after
    have none := rest_of_ok source done after
    have index : consumed source later = source.toList.length := by
      rw [consumed, none]
      rfl
    rw [answer, Cursor.scan, none, scanFrom, (scanner_eq source later).2, index]

end KindScript.Scanning
