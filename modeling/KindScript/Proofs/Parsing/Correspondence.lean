import KindScript.Proofs.Parsing.Walking

/-!
# Reading by position and by rules

The reading that goes by a position does what the rules of the parser do, step by step, while
it stands before the first end mark or at it: it gives the same trees, stops with the same
errors and comes to stand before the tokens that the rules leave. A rule gets the tokens from
the position to the end mark, so that the position, the number of these tokens and the place
of the mark determine one another, and a phrase that is never empty leads further on. That is
why no reading is ever stuck.
-/

namespace KindScript.Tree

theorem Parsed.andThen_assoc {α β γ : Type} (first : Parsed α)
    (next : α → List Token → Parsed β) (last : β → List Token → Parsed γ) :
    (first.andThen next).andThen last =
      first.andThen fun value rest => (next value rest).andThen last := by
  cases first <;> rfl

end KindScript.Tree

namespace KindScript.Walking

open KindScript.Tree Grammar
open Counting (below? phraseOver phrase phrase_joint statement_eq)

/-! ## Running steps -/

section Running

variable {α β : Type} {s s' : State}

theorem bind_of_eq {first : Walker α} (other : Walker α) (same : first s = other s')
    (later : α → Walker β) : (first >>= later) s = (other >>= later) s' := by
  show (match first s with
    | (result, after) => ExceptT.bindCont later result after) = _
  rw [same]
  rfl

theorem bind_of_ok {first : Walker α} {value : α} (run : first s = (.ok value, s'))
    (later : α → Walker β) : (first >>= later) s = later value s' :=
  bind_of_eq (pure value) run later

theorem bind_of_error {first : Walker α} {fault : Fault} (run : first s = (.error fault, s'))
    (later : α → Walker β) : (first >>= later) s = (.error fault, s') :=
  bind_of_eq (throw fault) run later

theorem get_bind (later : State → Walker α) (s : State) : (get >>= later) s = later s s :=
  rfl

variable {tokens : List Token}

theorem onwards_of_advances {start : State} (further : Advances tokens start s)
    (walker : Walker α) : onwards tokens start walker s = walker s :=
  if_pos further

/-- A loop is its first turn and, unless that was the last one, the same loop further on. -/
theorem repeated_eq (turn : α → Walker (Option α)) (value : α) (s : State) :
    repeated tokens turn value s = (turn value >>= fun
      | none => pure value
      | some value => onwards tokens s (repeated tokens turn value)) s := by
  rw [repeated]
  rcases run : turn value s with ⟨fault | (_ | value), after⟩
  · rw [bind_of_error run]
  · rw [bind_of_ok run]
    rfl
  · rw [bind_of_ok run]
    rfl

theorem nested_eq (phrase : Walker α → Walker α) (s : State) :
    nested tokens phrase s = phrase (onwards tokens s (nested tokens phrase)) s := by
  rw [nested]
  rfl

end Running

/-! ## Places in a list -/

/-- A list of tokens that is cut at its first end mark. -/
structure Input where
  body : List Token
  mark : Token
  later : List Token
  plain : ∀ t ∈ body, t.kind ≠ .endOfFile
  ends : mark.kind = .endOfFile

namespace Input

def tokens (input : Input) : List Token :=
  input.body ++ input.mark :: input.later

theorem length_tokens (input : Input) :
    input.tokens.length = input.body.length + (input.later.length + 1) :=
  List.length_append

/-- The position is not behind the first end mark, and these are the tokens from there to the
mark. -/
def Stands (input : Input) (s : State) (ts : List Token) : Prop :=
  ∃ read, input.body = read ++ ts ∧ s.position = read.length

namespace Stands

variable {input : Input} {s s' : State} {t : Token} {ts rest : List Token}

theorem length_eq (here : input.Stands s ts) : s.position + ts.length = input.body.length := by
  obtain ⟨read, whole, position⟩ := here
  rw [whole, position, List.length_append]

theorem not_end (here : input.Stands s (t :: rest)) : t.kind ≠ .endOfFile := by
  obtain ⟨read, whole, _⟩ := here
  exact input.plain t (by simp [whole])

theorem current (here : input.Stands s ts) :
    current input.tokens s = (.ok (ts.head?.getD input.mark), s) := by
  obtain ⟨read, whole, position⟩ := here
  have found : input.tokens[s.position]? = some (ts.head?.getD input.mark) := by
    rw [tokens, whole, List.append_assoc, position,
      List.getElem?_append_right (Nat.le_refl _), Nat.sub_self]
    cases ts <;> rfl
  rw [Walking.current, found]

theorem following (here : input.Stands s (t :: rest)) :
    following input.tokens s = (.ok (rest.head?.getD input.mark), s) := by
  have inside : min (s.position + 1) (input.tokens.length - 1) = s.position + 1 := by
    have size := input.length_tokens
    have left := here.length_eq
    rw [List.length_cons] at left
    omega
  obtain ⟨read, whole, position⟩ := here
  have found : input.tokens[s.position + 1]? = some (rest.head?.getD input.mark) := by
    rw [tokens, whole, List.append_assoc, position,
      List.getElem?_append_right (Nat.le_add_right _ _), Nat.add_sub_cancel_left]
    cases rest <;> rfl
  rw [Walking.following, inside, found]

theorem advanced (here : input.Stands s (t :: rest)) : input.Stands s.advanced rest := by
  obtain ⟨read, whole, position⟩ := here
  refine ⟨read ++ [t], ?_, ?_⟩
  · rw [whole, List.append_assoc]
    rfl
  · rw [List.length_append, ← position]
    rfl

theorem next (here : input.Stands s (t :: rest)) :
    next input.tokens s = (.ok t, s.advanced) := by
  have moves : (if t.kind ≠ .endOfFile then (do modify State.advanced; return t) else return t :
      Walker Token) s = (.ok t, s.advanced) := by
    rw [if_pos here.not_end]
    rfl
  rw [Walking.next, bind_of_ok here.current]
  exact moves

/-- Where fewer tokens are left one is further on. -/
theorem advances (here : input.Stands s ts) (there : input.Stands s' rest)
    (fewer : rest.length < ts.length) : Advances input.tokens s s' := by
  have before := here.length_eq
  have after := there.length_eq
  have size := input.length_tokens
  constructor <;> omega

end Stands

end Input

/-! ## Readings by position -/

/-- The walk does what the rule does that gives the result, where so many groups are open: it
stands before the same tokens afterwards, and is never stuck. -/
inductive Meets {α : Type} (input : Input) (nesting : Nat) :
    Parsed α → Except Fault α × State → Prop where
  | ok {value : α} {rest : List Token} {s : State} (there : input.Stands s rest)
    (same : s.nesting = nesting) : Meets input nesting (.ok (value, rest)) (.ok value, s)
  | error (stop : Stop) {s : State} (there : input.Stands s stop.rest)
    (opened : s.nesting = nesting + stop.opened) :
    Meets input nesting (.error stop)
      (.error (.error ⟨stop.cause, stop.token.getD input.mark⟩), s)

/-- The walk does what the rule does wherever fewer than `count` tokens are left and `room`
groups may be opened. -/
def Agrees {α : Type} (input : Input) (count room : Nat) (rule : List Token → Parsed α)
    (walker : Walker α) : Prop :=
  ∀ (s : State) (ts : List Token), ts.length < count → input.Stands s ts →
    s.nesting + room = maxGroups → Meets input s.nesting (rule ts) (walker s)

namespace Meets

variable {α β : Type} {input : Input} {nesting : Nat} {s : State} {ts : List Token}

theorem bind {result : Parsed α} {next : α → List Token → Parsed β} {first : Walker α}
    {later : α → Walker β} (meets : Meets input nesting result (first s))
    (goes : ∀ value rest s', result = .ok (value, rest) → input.Stands s' rest →
      s'.nesting = nesting → Meets input s'.nesting (next value rest) (later value s')) :
    Meets input nesting (result.andThen next) ((first >>= later) s) := by
  generalize run : first s = out at meets
  cases meets with
  | ok there same =>
    rw [bind_of_ok run, ← same]
    exact goes _ _ _ rfl there same
  | error stop there opened =>
    rw [bind_of_error run]
    exact .error stop there opened

/-- A step that only makes another value of the one read. -/
theorem map {result : Parsed α} {walker : Walker α} (meets : Meets input nesting result (walker s))
    (f : α → β) :
    Meets input nesting (result.andThen fun value rest => .ok (f value, rest))
      ((do return f (← walker) : Walker β) s) :=
  meets.bind fun _ _ _ _ there _ => .ok there rfl

/-- A failing step. -/
theorem fail (stop : Stop) {cause : ParseError.Cause} {t : Token}
    (there : input.Stands s stop.rest) (same : s.nesting = nesting) (opened : stop.opened = 0)
    (why : stop.cause = cause) (token : stop.token.getD input.mark = t) :
    Meets input nesting (.error stop) ((fail cause t : Walker α) s) := by
  subst why token
  exact .error stop there (by rw [same, opened, Nat.add_zero])

/-- An error at the token at the position. -/
theorem failHere (cause : ParseError.Cause) (here : input.Stands s ts)
    (same : s.nesting = nesting) :
    Meets input nesting (.error (.before cause ts))
      ((Walking.fail cause (ts.head?.getD input.mark) : Walker α) s) :=
  .fail (.before cause ts) here same rfl rfl rfl

end Meets

/-! ## Single steps -/

section Single

variable {α : Type} {input : Input} {count room : Nat} {s : State} {t : Token}
  {ts rest : List Token}

theorem current_bind_nil (here : input.Stands s []) (later : Token → Walker α) :
    (current input.tokens >>= later) s = later input.mark s :=
  bind_of_ok here.current later

theorem current_bind_cons (here : input.Stands s (t :: rest)) (later : Token → Walker α) :
    (current input.tokens >>= later) s = later t s :=
  bind_of_ok here.current later

theorem next_bind (here : input.Stands s (t :: rest)) (later : Token → Walker α) :
    (next input.tokens >>= later) s = later t s.advanced :=
  bind_of_ok here.next later

theorem meets_eat {kind : Token.Kind} (plain : kind ≠ .endOfFile) (here : input.Stands s ts) :
    Meets input s.nesting (Tree.expect kind ts) (eat input.tokens kind s) := by
  have failed : Meets input s.nesting (.error (.before (.expected kind) ts))
      ((fail (.expected kind) (ts.head?.getD input.mark) : Walker Token) s) :=
    .failHere _ here rfl
  cases ts with
  | nil =>
    have other : input.mark.kind ≠ kind := fun same => plain (same.symm.trans input.ends)
    rw [eat, current_bind_nil here, if_neg other, Tree.expect]
    exact failed
  | cons t rest =>
    rw [eat, current_bind_cons here, Tree.expect]
    by_cases fits : t.kind = kind
    · rw [if_pos fits, if_pos fits, here.next]
      exact .ok here.advanced rfl
    · rw [if_neg fits, if_neg fits]
      exact failed

theorem eat_of_kind {kind : Token.Kind} (here : input.Stands s (t :: rest))
    (fits : t.kind = kind) : eat input.tokens kind s = (.ok t, s.advanced) := by
  rw [eat, current_bind_cons here, if_pos fits]
  exact here.next

theorem meets_bounded (e : Expression) (op : Token) (here : input.Stands s ts) :
    Meets input s.nesting (Tree.bounded e op ts) (bounded e op s) := by
  rw [bounded, Tree.bounded]
  split
  · exact .ok here rfl
  · exact .fail (.after .tooHigh op ts) here rfl rfl rfl rfl

theorem meets_converted (t : Token) (text : String) (here : input.Stands s ts) :
    Meets input s.nesting (Tree.converted t text ts) (converted t text s) := by
  rw [converted, Tree.converted]
  cases Number.ofToken? t.kind text with
  | some n => exact .ok here rfl
  | none => exact .fail (.after (.invalidLiteral text) t ts) here rfl rfl rfl rfl

theorem meets_numberLiteral (t : Token) (text : String) (here : input.Stands s ts) :
    Meets input s.nesting (Tree.numberLiteral t text ts) (numberLiteral t text s) := by
  rw [numberLiteral, Tree.numberLiteral]
  split
  · exact meets_converted t text here
  · exact .fail (.after .unsignedKind t ts) here rfl rfl rfl rfl

/-! ## Groups -/

theorem Agrees.mono {fewer : Nat} {rule : List Token → Parsed α} {walker : Walker α}
    (agrees : Agrees input count room rule walker) (le : fewer ≤ count) :
    Agrees input fewer room rule walker :=
  fun s ts few here nesting => agrees s ts (few.trans_le le) here nesting

theorem Agrees.onwards {rule : List Token → Parsed α} {walker : Walker α}
    (agrees : Agrees input ts.length room rule walker) (here : input.Stands s ts) :
    Agrees input ts.length room rule (onwards input.tokens s walker) := by
  intro inner more fewer there nesting
  rw [onwards_of_advances (here.advances there fewer)]
  exact agrees inner more fewer there nesting

/-- Where all groups are open there is no other one. -/
theorem descend_of_full (here : input.Stands s ts) (full : s.nesting = maxGroups)
    (opening : Token.Kind) : descend input.tokens opening s =
      (.error (.error ⟨.tooManyGroups, ts.head?.getD input.mark⟩), s) := by
  have refused : enter input.tokens s = fail .tooManyGroups (ts.head?.getD input.mark) s := by
    rw [enter, get_bind, if_pos (Nat.le_of_eq full.symm), bind_of_ok here.current]
  rw [descend, bind_of_error refused]

theorem descend_of_room (room : s.nesting < maxGroups) (opening : Token.Kind) :
    descend input.tokens opening s =
      eat input.tokens opening { s with nesting := s.nesting + 1 } := by
  have entered : enter input.tokens s = (.ok (), { s with nesting := s.nesting + 1 }) := by
    rw [enter, get_bind, if_neg (Nat.not_le.mpr room)]
    rfl
  rw [descend, bind_of_ok entered]

theorem meets_full (here : input.Stands s (t :: rest)) (full : s.nesting = maxGroups)
    (opening closing : Token.Kind) (walker : Walker α) :
    Meets input s.nesting (.error (.before .tooManyGroups (t :: rest)))
      (grouped input.tokens opening closing walker s) := by
  rw [grouped, get_bind, bind_of_error (descend_of_full here full opening)]
  exact .error (.before .tooManyGroups (t :: rest)) here rfl

/-- What is left of a group whose inside is read. -/
theorem meets_close {nesting : Nat} {closing : Token.Kind} (plain : closing ≠ .endOfFile)
    (value : α) (there : input.Stands s rest) (inside : s.nesting = nesting + 1) :
    Meets input nesting
      (((Tree.expect closing rest).andThen fun _ rest => .ok (value, rest)).mapError Stop.inGroup)
      ((do
        let _ ← eat input.tokens closing
        leave
        return value : Walker α) s) := by
  have closes := meets_eat plain there
  generalize Tree.expect closing rest = result at closes
  generalize run : eat input.tokens closing s = out at closes
  cases closes with
  | error stop there opened =>
    rw [bind_of_error run]
    refine .error stop.inGroup there ?_
    rw [opened, inside, Nat.add_right_comm]
    rfl
  | @ok c rest s' there same =>
    have left : leave s' = (.ok (), { s' with nesting }) := by
      rw [leave, same, inside]
    rw [bind_of_ok run, bind_of_ok left]
    exact .ok there rfl

/-- What is read in a group is read with one group less, and the group is closed again. -/
theorem meets_grouped {less : Nat} {rule : List Token → Parsed α} {walker : Walker α}
    (agrees : Agrees input count less rule walker) (few : rest.length < count)
    (here : input.Stands s (t :: rest)) (room : s.nesting + (less + 1) = maxGroups)
    {opening closing : Token.Kind} (opens : t.kind = opening) (plain : closing ≠ .endOfFile) :
    Meets input s.nesting (closed rule closing rest)
      (grouped input.tokens opening closing walker s) := by
  let open' : State := { s with nesting := s.nesting + 1 }
  have opened : descend input.tokens opening s = (.ok t, open'.advanced) := by
    rw [descend_of_room (by omega)]
    exact eat_of_kind here opens
  have room' : open'.advanced.nesting + less = maxGroups := by
    show s.nesting + 1 + less = maxGroups
    omega
  -- The inside is read on behind the opening token, so the test there holds.
  have inner := (agrees.mono few).onwards here open'.advanced rest (Nat.lt_succ_self _)
    here.advanced room'
  rw [grouped, get_bind, bind_of_ok opened, closed]
  generalize rule rest = result at inner
  generalize run : onwards input.tokens s walker open'.advanced = out at inner
  cases inner with
  | error stop there opened =>
    rw [bind_of_error run]
    refine .error stop.inGroup there ?_
    rw [opened]
    exact Nat.add_right_comm _ _ _
  | ok there same =>
    rw [bind_of_ok run]
    exact meets_close plain _ there same

end Single

/-- The reading of what stands in a group does what the rule for it does, with one group
less, where any group may be opened. -/
inductive Inside {α : Type} (input : Input) (count : Nat) :
    Nat → Option (Rule α) → Walker α → Prop where
  | none {walker : Walker α} : Inside input count 0 none walker
  | some {less : Nat} {rule : Rule α} {walker : Walker α}
    (agrees : Agrees input count less rule.run walker) :
    Inside input count (less + 1) (some rule) walker

theorem Inside.of_agrees {α : Type} {input : Input} {rule : Nat → Rule α} {walker : Walker α}
    (agrees : ∀ count room, Agrees input count room (rule room).run walker) (count room : Nat) :
    Inside input count room (below? rule room) walker := by
  cases room with
  | zero => exact .none
  | succ less => exact .some (agrees count less)

/-- A phrase that may stand inside itself is read as its rule says if it is with the reading of
that rule for what stands inside. -/
theorem nested_agrees {α : Type} {input : Input} {rule : Nat → Rule α}
    {phrase : Walker α → Walker α}
    (phrases : ∀ {count room : Nat} {walker : Walker α},
      Inside input count room (below? rule room) walker →
        Agrees input (count + 1) room (rule room).run (phrase walker)) (count room : Nat) :
    Agrees input count room (rule room).run (nested input.tokens phrase) := by
  -- Each group takes one from the room; how many tokens are left bounds nothing here.
  induction room generalizing count with
  | zero =>
    intro s ts _ here nesting
    rw [nested_eq]
    exact phrases .none s ts (Nat.lt_succ_self _) here nesting
  | succ room ih =>
    intro s ts _ here nesting
    have inside := (ih ts.length).onwards here
    rw [nested_eq]
    exact phrases (.some inside) s ts (Nat.lt_succ_self _) here nesting

/-! ## Tiers -/

section Tiers

variable {input : Input} {count room : Nat}

theorem signedNumber_meets {s : State} {sign : Token} {more : List Token}
    (here : input.Stands s (sign :: more)) :
    Meets input s.nesting (Tree.signedNumber sign more)
      ((do
        let number ← following input.tokens
        if (sign.text = "+" ∨ sign.text = "-") ∧ takesSign number.kind then
          signedNumber input.tokens
        else fail .unexpected sign : Walker Expression) s) := by
  have failed : Meets input s.nesting (.error (.before .unexpected (sign :: more)))
      ((fail .unexpected sign : Walker Expression) s) := .failHere _ here rfl
  cases more with
  | nil =>
    have next : following input.tokens s = (.ok input.mark, s) := here.following
    have unsigned : ¬ ((sign.text = "+" ∨ sign.text = "-") ∧ takesSign input.mark.kind) := by
      rw [input.ends]
      exact fun signs => absurd signs.2 (by decide)
    rw [Tree.signedNumber, bind_of_ok next, if_neg unsigned]
    exact failed
  | cons t rest =>
    have next : following input.tokens s = (.ok t, s) := here.following
    have number := here.advanced
    rw [Tree.signedNumber, bind_of_ok next]
    by_cases signs : (sign.text = "+" ∨ sign.text = "-") ∧ takesSign t.kind
    · rw [if_pos signs, if_pos signs, signedNumber, next_bind here, next_bind number]
      exact meets_numberLiteral t _ number.advanced
    · rw [if_neg signs, if_neg signs]
      exact failed

theorem primary_agrees {group : Option (Rule Expression)} {walker : Walker Expression}
    (inside : Inside input count room group walker) :
    Agrees input (count + 1) room (Tree.primary group) (primary input.tokens walker) := by
  intro s ts few here nesting
  have failed : Meets input s.nesting (.error (.before .unexpected ts))
      ((fail .unexpected (ts.head?.getD input.mark) : Walker Expression) s) :=
    .failHere _ here rfl
  cases ts with
  | nil =>
    rw [primary, current_bind_nil here, input.ends]
    exact failed
  | cons t rest =>
    have leaf (e : Expression) : Meets input s.nesting (.ok (e, rest)) (.ok e, s.advanced) :=
      .ok here.advanced rfl
    rw [primary, current_bind_cons here]
    unfold Tree.primary
    dsimp only
    cases kind : t.kind with
    | openParen =>
      cases inside with
      | none => exact meets_full here nesting _ _ walker
      | some agrees =>
        exact meets_grouped agrees (Nat.lt_of_succ_lt_succ few) here nesting kind (by decide)
    | binaryOperator => exact signedNumber_meets here
    | identifier | boolean | null | string =>
      dsimp only
      rw [next_bind here]
      exact leaf _
    | byte =>
      dsimp only
      rw [next_bind here]
      exact meets_converted t t.text here.advanced
    | integer | long | float | double =>
      dsimp only
      rw [next_bind here]
      exact meets_numberLiteral t t.text here.advanced
    | char =>
      have refused : Meets input s.nesting (.error (.after .charLength t rest))
          ((fail .charLength t : Walker Expression) s.advanced) :=
        .fail (.after .charLength t rest) here.advanced rfl rfl rfl rfl
      dsimp only
      rw [next_bind here]
      cases t.text.toList with
      | nil => exact refused
      | cons c more =>
        cases more with
        | nil => exact leaf _
        | cons => exact refused
    | _ => exact failed

section Chain

variable {operand : Rule Expression} {walker : Walker Expression} {operator? : Operators}
  {s : State} {t : Token} {ts rest : List Token}

/-- Behind the operator the test that the operand stands further on holds. -/
theorem operation_of_operator {build : Expression → Expression → Expression}
    (here : input.Stands s (t :: rest)) (found : operator? t = some (.ok build))
    (left : Expression) :
    operation input.tokens walker operator? left s =
      (walker >>= fun right => do return some (← bounded (build left right) t) : Walker _)
        s.advanced := by
  have further := here.advances here.advanced (Nat.lt_succ_self _)
  rw [operation, current_bind_cons here, found]
  dsimp only
  rw [get_bind, next_bind here]
  exact bind_of_eq walker (onwards_of_advances further walker) _

variable {binary : Tier} (table : Tabulates operator? binary)
include table

/-- An end mark is no operator. -/
theorem no_operator_of_end (ends : t.kind = .endOfFile) : operator? t = none := by
  cases found : operator? t with
  | none => rfl
  | some result =>
    obtain ⟨build, op, _⟩ := table.mp found
    exact absurd op.kind_mem (by rw [ends]; decide)

variable (operands : Agrees input count room operand.run walker)
include operands

/-- Each turn reads an operator and an operand after it. -/
theorem operations_meet {left : Expression} (few : ts.length < count)
    (here : input.Stands s ts) (nesting : s.nesting + room = maxGroups) :
    Meets input s.nesting (Tree.chainFrom operand operator? left ts)
      (repeated input.tokens (operation input.tokens walker operator?) left s) := by
  -- Induction on the number of tokens left, of which the operand and its operator take some.
  induction size : ts.length using Nat.strong_induction_on generalizing ts s left with
  | _ size ih =>
    have stopped (plain : operator? (ts.head?.getD input.mark) = none) :
        operation input.tokens walker operator? left s = (.ok none, s) := by
      rw [operation, bind_of_ok here.current, plain]
      rfl
    rw [repeated_eq]
    cases ts with
    | nil =>
      rw [bind_of_ok (stopped (no_operator_of_end table input.ends)),
        chainFrom_of_stops (by simp)]
      exact .ok here rfl
    | cons t rest =>
      cases found : operator? t with
      | none =>
        rw [bind_of_ok (stopped found), chainFrom_of_stops (by simpa using found)]
        exact .ok here rfl
      | some result =>
        obtain ⟨build, op, rfl⟩ := table.mp found
        have rest_few : rest.length < count := Nat.lt_of_succ_lt few
        rw [bind_of_eq _ (operation_of_operator here found left), chainFrom_of_operator found,
          bind_assoc]
        refine (operands _ rest rest_few here.advanced nesting).bind ?_
        intro right more s' run there same
        simp only [bind_assoc, pure_bind]
        refine (meets_bounded (build left right) t there).bind ?_
        intro e after s'' grown there' same'
        obtain ⟨_, _, unread⟩ := bounded_eq_ok.mp grown
        have fewer : after.length < (t :: rest).length := by
          rw [← unread]
          exact Nat.lt_succ_of_lt (operand.moves run)
        rw [onwards_of_advances (here.advances there' fewer)]
        exact ih _ (size ▸ fewer) (fewer.trans few) there' (same' ▸ same ▸ nesting) rfl

theorem chain_agrees : Agrees input count room (Tree.chain operator? operand).run
    (chain input.tokens operator? walker) := by
  intro s ts few here nesting
  refine (operands s ts few here nesting).bind ?_
  intro first rest s' run there same
  exact operations_meet table operands ((operand.moves run).trans few) there (same ▸ nesting)

end Chain

theorem negated_agrees {operand : Rule Expression} {walker : Walker Expression}
    (operands : Agrees input count room operand.run walker) :
    Agrees input count room (Tree.negated operand) (negated input.tokens walker) := by
  intro s ts few here nesting
  have plain := operands s ts few here nesting
  cases ts with
  | nil =>
    rw [negated, current_bind_nil here, input.ends, if_neg (by decide)]
    exact plain
  | cons t rest =>
    rw [negated, current_bind_cons here, Tree.negated]
    by_cases kind : t.kind = .notOperator
    · rw [if_pos kind, if_pos kind, next_bind here]
      refine (operands _ rest (Nat.lt_of_succ_lt few) here.advanced nesting).bind ?_
      intro e more s' _ there _
      exact meets_bounded (.not e) t there
    · rw [if_neg kind, if_neg kind]
      exact plain

theorem tierOver_agrees {group : Option (Rule Expression)} {walker : Walker Expression}
    (inside : Inside input count room group walker) (tier : Tier) :
    Agrees input (count + 1) room (phraseOver group tier).run
      (tierOver input.tokens tier walker) := by
  have primaries : Agrees input (count + 1) room (Rule.mk _ primary_moves).run
      (primary input.tokens walker) := primary_agrees inside
  have products := chain_agrees multiplicative?_tabulates primaries
  have sums := chain_agrees additive?_tabulates products
  have negations : Agrees input (count + 1) room (Rule.mk _ negated_moves).run
      (negated input.tokens _) := negated_agrees sums
  have comparisons := chain_agrees comparison?_tabulates negations
  cases tier with
  | primary => exact primaries
  | product => exact products
  | sum => exact sums
  | negation => exact negations
  | comparison => exact comparisons
  | joint => exact chain_agrees joint?_tabulates comparisons

theorem expression_agrees (count room : Nat) :
    Agrees input count room (Tree.expression room).run (expression input.tokens) := by
  refine nested_agrees ?_ count room
  intro count room walker inside
  rw [← phrase_joint]
  exact tierOver_agrees inside .joint

theorem tier_agrees (tier : Tier) :
    Agrees input (count + 1) room (phrase room tier).run (Walking.tier input.tokens tier) :=
  tierOver_agrees (.of_agrees expression_agrees count room) tier

end Tiers

/-! ## Statements -/

section Statements

variable {input : Input} {count room : Nat} {s : State} {t : Token} {ts rest : List Token}

section Values

variable (nesting : s.nesting + room = maxGroups)
include nesting

theorem expression_meets (here : input.Stands s ts) :
    Meets input s.nesting ((Tree.expression room).run ts) (expression input.tokens s) :=
  expression_agrees _ room s ts (Nat.lt_succ_self _) here nesting

theorem expressionStatement_meets (here : input.Stands s ts) :
    Meets input s.nesting
      (((Tree.expression room).run ts).andThen fun e rest => .ok (.expression e, rest))
      (expressionStatement input.tokens s) :=
  (expression_meets nesting here).map Statement.expression

theorem assignment_meets {name op : Token} (here : input.Stands s (name :: op :: rest))
    (kind : name.kind = .identifier) :
    Meets input s.nesting (Tree.assignment (Tree.expression room) name.text op rest)
      (assignment input.tokens s) := by
  have there := here.advanced.advanced
  have value : Meets input s.nesting ((Tree.expression room).run rest)
      (expression input.tokens s.advanced.advanced) :=
    expression_meets (s := s.advanced.advanced) nesting there
  rw [assignment, bind_of_ok (eat_of_kind here kind), next_bind here.advanced]
  unfold Tree.assignment
  by_cases equals : op.text = "="
  · simp only [equals]
    exact value.map (Statement.assign name.text none)
  by_cases increment : op.text = "++"
  · simp only [increment]
    exact .ok there rfl
  by_cases decrement : op.text = "--"
  · simp only [decrement]
    exact .ok there rfl
  -- No operator of its own is left, so both sides come to their last branch.
  simp only
  cases compoundOf? op.text with
  | none => exact .fail (.after .unknownAssignment op rest) there rfl rfl rfl rfl
  | some arithmetic => exact value.map (Statement.assign name.text (some arithmetic))

theorem initializer_meets (constant : Bool) (name : String) (here : input.Stands s ts) :
    Meets input s.nesting (Tree.initializer (Tree.expression room) constant name ts)
      ((do
        let t ← current input.tokens
        if t.kind = .equalsOperator then
          let _ ← eat input.tokens .equalsOperator
          return .declare name constant (some (← expression input.tokens))
        else if constant then fail (.uninitializedConstant name) t
        else return .declare name false none : Walker Statement) s) := by
  have bare : Meets input s.nesting
      (if constant then .error (.before (.uninitializedConstant name) ts)
        else .ok (.declare name false none, ts))
      ((if constant then fail (.uninitializedConstant name) (ts.head?.getD input.mark)
        else return .declare name false none : Walker Statement) s) := by
    cases constant with
    | true => exact .failHere _ here rfl
    | false => exact .ok here rfl
  cases ts with
  | nil =>
    rw [current_bind_nil here, input.ends, if_neg (by decide), Tree.initializer]
    exact bare
  | cons t rest =>
    rw [current_bind_cons here, Tree.initializer]
    by_cases kind : t.kind = .equalsOperator
    · rw [if_pos kind, if_pos kind, bind_of_ok (eat_of_kind here kind)]
      exact (expression_meets (s := s.advanced) nesting here.advanced).map fun e =>
        Statement.declare name constant (some e)
    · rw [if_neg kind, if_neg kind]
      exact bare

theorem declaration_meets (here : input.Stands s (t :: rest)) :
    Meets input s.nesting
      (Tree.declaration (Tree.expression room) (decide (t.kind = .const)) rest)
      (declaration input.tokens s) := by
  rw [declaration, next_bind here]
  refine (meets_eat (by decide) here.advanced).bind ?_
  intro name more s' _ there same
  exact initializer_meets (same ▸ nesting) _ name.text there

theorem named_meets (here : input.Stands s (t :: rest)) (kind : t.kind = .identifier) :
    Meets input s.nesting (Tree.named (Tree.expression room) t rest)
      ((do
        if isAssignment (← following input.tokens) then assignment input.tokens
        else expressionStatement input.tokens : Walker Statement) s) := by
  have plain := expressionStatement_meets nesting here
  cases rest with
  | nil =>
    have next : following input.tokens s = (.ok input.mark, s) := here.following
    have other : ¬ isAssignment input.mark := by
      rw [isAssignment_iff, Assigns, input.ends]
      decide
    rw [bind_of_ok next, if_neg other]
    exact plain
  | cons op more =>
    have next : following input.tokens s = (.ok op, s) := here.following
    rw [bind_of_ok next, Tree.named]
    by_cases assigns : isAssignment op = true
    · rw [if_pos assigns, if_pos assigns]
      exact assignment_meets nesting here kind
    · rw [if_neg assigns, if_neg assigns]
      exact plain

end Values

section Sequences

variable {item : Rule Statement} {walker : Walker Statement} (ends : Token → Bool)
  (items : Agrees input count room item.run walker)
include items

/-- Each turn reads a statement. -/
theorem another_meets (body : List Statement) (few : ts.length < count)
    (here : input.Stands s ts) (nesting : s.nesting + room = maxGroups) :
    Meets input s.nesting
      ((Tree.sequence item ends ts).andThen fun more rest => .ok (body ++ more, rest))
      (repeated input.tokens (another input.tokens walker ends) body s) := by
  -- As for operators; the statements read so far stand before those that the rule reads.
  induction size : ts.length using Nat.strong_induction_on generalizing ts s body with
  | _ size ih =>
    have stopped (done : (ts.head?.getD input.mark).kind = .endOfFile ∨
        ends (ts.head?.getD input.mark)) :
        another input.tokens walker ends body s = (.ok none, s) := by
      rw [another, bind_of_ok here.current, if_pos done]
      rfl
    have unread : Meets input s.nesting (.ok (body ++ [], ts)) (.ok body, s) := by
      rw [List.append_nil]
      exact .ok here rfl
    rw [repeated_eq]
    cases ts with
    | nil =>
      rw [bind_of_ok (stopped (.inl input.ends)), Tree.sequence]
      exact unread
    | cons t rest =>
      cases going : ends t with
      | true =>
        rw [bind_of_ok (stopped (.inr going)), Tree.sequence, if_pos going]
        exact unread
      | false =>
        have on : ¬ (t.kind = .endOfFile ∨ ends t) := by simp [here.not_end, going]
        have turn : another input.tokens walker ends body s =
            (do return some (body ++ [← walker]) : Walker _) s := by
          rw [another, current_bind_cons here, if_neg on]
        rw [bind_of_eq _ turn, sequence_of_going going, Parsed.andThen_assoc]
        simp only [bind_assoc, pure_bind]
        refine (items s (t :: rest) few here nesting).bind ?_
        intro statement after s' run there same
        have fewer := item.moves run
        have later := ih _ (size ▸ fewer) (body ++ [statement]) (fewer.trans few) there
          (same ▸ nesting) rfl
        rw [Parsed.andThen_assoc, onwards_of_advances (here.advances there fewer)]
        simp only [List.append_assoc, List.singleton_append] at later
        exact later

theorem sequence_agrees : Agrees input count room (Tree.sequence item ends)
    (sequence input.tokens walker ends) := by
  intro s ts few here nesting
  have meets := another_meets ends items [] few here nesting
  have whole : (Tree.sequence item ends ts).andThen (fun more rest => .ok ([] ++ more, rest)) =
      Tree.sequence item ends ts := by
    cases Tree.sequence item ends ts <;> rfl
  rw [whole] at meets
  exact meets

end Sequences

variable {inner : Option (Rule Statement)} {walker : Walker Statement}
  (inside : Inside input count room inner walker)
include inside

theorem block_meets (few : rest.length < count) (here : input.Stands s (t :: rest))
    (nesting : s.nesting + room = maxGroups) (kind : t.kind = .openBrace) :
    Meets input s.nesting (Tree.block inner t rest) (block input.tokens walker s) := by
  rw [block]
  cases inside with
  | none => exact (meets_full here nesting _ _ _).map Statement.block
  | some items =>
    have body := sequence_agrees (fun t => t.kind = .closeBrace) items
    exact (meets_grouped body few here nesting kind (by decide)).map Statement.block

theorem bareStatement_agrees : Agrees input (count + 1) room
    (Tree.bareStatement (Tree.expression room) inner) (bareStatement input.tokens walker) := by
  intro s ts few here nesting
  have plain := expressionStatement_meets nesting here
  cases ts with
  | nil =>
    rw [bareStatement, current_bind_nil here, input.ends]
    exact plain
  | cons t rest =>
    have declared := declaration_meets nesting here
    rw [bareStatement, current_bind_cons here]
    unfold Tree.bareStatement
    dsimp only
    cases kind : t.kind with
    | var =>
      rw [kind] at declared
      exact declared
    | const =>
      rw [kind] at declared
      exact declared
    | openBrace => exact block_meets inside (Nat.lt_of_succ_lt_succ few) here nesting kind
    | identifier => exact named_meets nesting here kind
    | _ => exact plain

theorem statementOver_agrees : Agrees input (count + 1) room
    (Tree.statementOver (Tree.expression room) inner).run (statementOver input.tokens walker) := by
  intro s ts few here nesting
  refine (bareStatement_agrees inside s ts few here nesting).bind ?_
  intro statement more s' _ there _
  cases more with
  | nil =>
    rw [current_bind_nil there, input.ends, if_neg (by decide)]
    exact .ok there rfl
  | cons t rest =>
    rw [current_bind_cons there, Tree.skipSemicolon]
    by_cases kind : t.kind = .semicolon
    · rw [if_pos kind, if_pos kind, bind_of_ok (eat_of_kind there kind)]
      exact .ok there.advanced rfl
    · rw [if_neg kind, if_neg kind]
      exact .ok there rfl

omit inside

theorem statement_agrees (count room : Nat) :
    Agrees input count room (Tree.statement room).run (statement input.tokens) := by
  refine nested_agrees ?_ count room
  intro count room walker inside
  rw [statement_eq]
  exact statementOver_agrees inside

theorem program_agrees (count room : Nat) : Agrees input count room
    (fun ts => (Tree.sequence (Tree.statement room) (fun _ => false) ts).andThen
      fun body rest => .ok (⟨body⟩, rest)) (program input.tokens) :=
  fun s ts few here nesting =>
    (sequence_agrees _ (statement_agrees count room) s ts few here nesting).map Tree.mk

theorem request_agrees (asked : Request) (count room : Nat) :
    Agrees input count room (asked.run room) (request input.tokens asked) := by
  intro s ts few here nesting
  cases asked with
  | expression => exact (expression_agrees count room s ts few here nesting).map Reply.expression
  | tree => exact (program_agrees count room s ts few here nesting).map Reply.tree

end Statements

end KindScript.Walking
