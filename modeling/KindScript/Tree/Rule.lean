import KindScript.Token
import KindScript.Tree.ParseError

/-!
# Rules of the grammar

A rule reads one phrase from the head of a list of tokens and leaves the rest.
Its `moves` field says that a phrase is never empty, which is all that the loops
over phrases need to end. Where a rule stops with an error it still says which
tokens are left and how many groups it opened and did not close, so that reading
can go on after the error.
-/

namespace KindScript.Tree

/-- An error, the tokens left when it arose and the groups left open by the rule that
raised it. Where the tokens have run out the error is at no token. -/
structure Stop where
  cause : ParseError.Cause
  token : Option Token
  rest : List Token
  opened : Nat := 0
deriving DecidableEq, Repr

namespace Stop

/-- An error at the first of the tokens left. -/
def before (cause : ParseError.Cause) (ts : List Token) : Stop :=
  ⟨cause, ts.head?, ts, 0⟩

/-- An error at a token that was read. -/
def after (cause : ParseError.Cause) (t : Token) (rest : List Token) : Stop :=
  ⟨cause, some t, rest, 0⟩

/-- The same error inside one more open group. -/
def inGroup (stop : Stop) : Stop :=
  { stop with opened := stop.opened + 1 }

end Stop

/-- The result of reading a phrase: its meaning and the tokens after it. -/
abbrev Parsed (α : Type) := Except Stop (α × List Token)

/-- A phrase that is never empty. -/
structure Rule (α : Type) where
  run : List Token → Parsed α
  moves : ∀ {ts : List Token} {value : α} {rest : List Token},
    run ts = .ok (value, rest) → rest.length < ts.length

variable {α β : Type}

/-- Reads a token of one kind. -/
def expect (kind : Token.Kind) (ts : List Token) : Parsed Token :=
  match ts with
  | [] => .error (.before (.expected kind) [])
  | t :: rest =>
    if t.kind = kind then .ok (t, rest) else .error (.before (.expected kind) (t :: rest))

theorem expect_moves {kind : Token.Kind} {ts : List Token} {t : Token} {rest : List Token}
    (h : expect kind ts = .ok (t, rest)) : rest.length < ts.length := by
  unfold expect at h
  split at h
  · cases h
  · split at h
    · cases h
      simp
    · cases h

/-- Reads a phrase and goes on with the tokens after it. -/
def Parsed.andThen (first : Parsed α) (next : α → List Token → Parsed β) : Parsed β :=
  match first with
  | .error stop => .error stop
  | .ok (value, rest) => next value rest

theorem Parsed.andThen_eq_ok {first : Parsed α} {next : α → List Token → Parsed β}
    {result : β × List Token} :
    first.andThen next = .ok result ↔
      ∃ value rest, first = .ok (value, rest) ∧ next value rest = .ok result := by
  unfold Parsed.andThen
  split
  · simp
  · constructor
    · intro h
      exact ⟨_, _, rfl, h⟩
    · rintro ⟨_, _, e, h⟩
      cases e
      exact h

/-- The inside of a group, its opening token read, and the token that closes it. -/
def closed (inside : List Token → Parsed α) (close : Token.Kind) (ts : List Token) : Parsed α :=
  ((inside ts).andThen fun value rest =>
    (expect close rest).andThen fun _ rest => .ok (value, rest)).mapError Stop.inGroup

theorem closed_eq_ok {inside : List Token → Parsed α} {close : Token.Kind} {ts : List Token}
    {value : α} {rest : List Token} :
    closed inside close ts = .ok (value, rest) ↔
      ∃ middle t, inside ts = .ok (value, middle) ∧ expect close middle = .ok (t, rest) := by
  have pass (r : Parsed α) (x : α × List Token) :
      r.mapError Stop.inGroup = .ok x ↔ r = .ok x := by
    cases r with
    | error e => exact ⟨nofun, nofun⟩
    | ok y => exact Iff.rfl
  unfold closed
  rw [pass, Parsed.andThen_eq_ok]
  constructor
  · rintro ⟨v, middle, h, h'⟩
    obtain ⟨t, _, h', e⟩ := Parsed.andThen_eq_ok.mp h'
    cases e
    exact ⟨middle, t, h, h'⟩
  · rintro ⟨middle, t, h, h'⟩
    exact ⟨value, middle, h, Parsed.andThen_eq_ok.mpr ⟨t, rest, h', rfl⟩⟩

/-! ## Runs of phrases -/

/-- Phrases one after another, up to the end or to a token that ends the run. -/
def sequence (item : Rule α) (ends : Token → Bool) (ts : List Token) : Parsed (List α) :=
  match ts with
  | [] => .ok ([], [])
  | t :: more =>
    if ends t then .ok ([], t :: more)
    else
      match _h : item.run (t :: more) with
      | .error stop => .error stop
      | .ok (value, rest) =>
        (sequence item ends rest).andThen fun values rest => .ok (value :: values, rest)
termination_by ts.length
decreasing_by exact item.moves _h

theorem sequence_length_le (item : Rule α) (ends : Token → Bool) {ts : List Token}
    {values : List α} {rest : List Token} (h : sequence item ends ts = .ok (values, rest)) :
    rest.length ≤ ts.length := by
  fun_induction sequence item ends ts generalizing values with
  | case1 => cases h; exact Nat.le_refl _
  | case2 => cases h; exact Nat.le_refl _
  | case3 => cases h
  | case4 t more ends value middle step ih =>
    obtain ⟨values, after, later, e⟩ := Parsed.andThen_eq_ok.mp h
    cases e
    have := item.moves step
    have := ih later
    omega

end KindScript.Tree
