import KindScript.Proofs.Parsing.Counting
import KindScript.Proofs.Parsing.Recognition

/-!
# Reading with counters and without

The reading that counts does what the rules of the parser do, step by step: it gives the
same trees, stops with the same errors at the same tokens and leaves the same tokens. The
room that a rule has left for groups and the groups that are open always make up the bound
on groups, and what the reading logs while nothing fails is a trail in which no step breaks
a bound.
-/

namespace KindScript.Counting

open KindScript.Tree Grammar

/-! ## Logs -/

def Opens (t : Token) : Prop :=
  t.kind = .openParen ∨ t.kind = .openBrace

def Closes (t : Token) : Prop :=
  t.kind = .closeParen ∨ t.kind = .closeBrace

/-- What happens while nothing fails, from one number of open groups to another. -/
inductive Trail (start : Nat) : List Event → Nat → Prop where
  | start : Trail start [] start
  | token {log : List Event} {n : Nat} {t : Token} (before : Trail start log n)
    (plain : t.kind ∉ groupKinds) : Trail start (log ++ [.read t n]) n
  | asked {log : List Event} {n : Nat} {t : Token} (before : Trail start log n) (opens : Opens t)
    (room : n < maxGroups) : Trail start (log ++ [.opening t n]) n
  | opened {log : List Event} {n : Nat} {t : Token} (before : Trail start log n) (opens : Opens t)
    (room : n < maxGroups) : Trail start (log ++ [.read t (n + 1)]) (n + 1)
  | closed {log : List Event} {n : Nat} {t : Token} (before : Trail start log (n + 1))
    (closes : Closes t) : Trail start (log ++ [.read t n]) n
  | built {log : List Event} {n : Nat} {op : Token} {e : Expression}
    (before : Trail start log n) (low : e.height ≤ maxHeight) :
    Trail start (log ++ [.building op e n]) n

theorem Trail.append {a b c : Nat} {log later : List Event} (h : Trail a log b)
    (h' : Trail b later c) : Trail a (log ++ later) c := by
  induction h' with
  | start => simpa using h
  | token _ plain ih => simpa using ih.token plain
  | asked _ opens room ih => simpa using ih.asked opens room
  | opened _ opens room ih => simpa using ih.opened opens room
  | closed _ closes ih => simpa using ih.closed closes
  | built _ low ih => simpa using ih.built low

/-- The tokens that are read. -/
def tokensRead : List Event → List Token :=
  List.filterMap fun
    | .read t _ => some t
    | _ => none

theorem tokensRead_append (log later : List Event) :
    tokensRead (log ++ later) = tokensRead log ++ tokensRead later :=
  List.filterMap_append

/-- From one state to another nothing has failed. -/
structure Goes (s s' : State) (new : List Event) : Prop where
  log : s'.log = s.log ++ new
  tokens : s.rest = tokensRead new ++ s'.rest
  trail : Trail s.nesting new s'.nesting

theorem Goes.refl (s : State) : Goes s s [] :=
  ⟨(List.append_nil _).symm, rfl, .start⟩

theorem Goes.trans {s s' s'' : State} {new later : List Event} (h : Goes s s' new)
    (h' : Goes s' s'' later) : Goes s s'' (new ++ later) := by
  refine ⟨?_, ?_, h.trail.append h'.trail⟩
  · rw [h'.log, h.log, List.append_assoc]
  · rw [h.tokens, h'.tokens, tokensRead_append, List.append_assoc]

/-- What a failing step itself leaves in the log, where so many groups are open. -/
inductive Leaves (nesting : Nat) : ParseError.Cause → Option Token → List Event → Prop where
  | tooHigh {op : Token} {e : Expression} (height : e.height = maxHeight + 1) :
    Leaves nesting .tooHigh (some op) [.building op e nesting]
  | tooManyGroups {t : Token} (opens : Opens t) (full : nesting = maxGroups) :
    Leaves nesting .tooManyGroups (some t) [.opening t nesting]
  | other {cause : ParseError.Cause} {token : Option Token} (low : cause ≠ .tooHigh)
    (room : cause ≠ .tooManyGroups) : Leaves nesting cause token []

/-- From one state to another nothing has failed but the last step. -/
structure Breaks (s : State) (cause : ParseError.Cause) (token : Option Token) (s' : State)
    (new last : List Event) : Prop where
  log : s'.log = s.log ++ (new ++ last)
  tokens : s.rest = tokensRead new ++ s'.rest
  trail : Trail s.nesting new s'.nesting
  last : Leaves s'.nesting cause token last

/-- A failing step that leaves nothing in the log. -/
theorem Breaks.refl (s : State) {cause : ParseError.Cause} (token : Option Token)
    (low : cause ≠ .tooHigh) (room : cause ≠ .tooManyGroups) : Breaks s cause token s [] [] :=
  ⟨(List.append_nil _).symm, rfl, .start, .other low room⟩

theorem Goes.breaks {s s' s'' : State} {cause : ParseError.Cause} {token : Option Token}
    {new later last : List Event} (h : Goes s s' new) (h' : Breaks s' cause token s'' later last) :
    Breaks s cause token s'' (new ++ later) last := by
  refine ⟨?_, ?_, h.trail.append h'.trail, h'.last⟩
  · rw [h'.log, h.log, List.append_assoc, List.append_assoc]
  · rw [h.tokens, h'.tokens, tokensRead_append, List.append_assoc]

/-! ## Readings with and without counters -/

/-- The reading does what the rule does that gives the result. A value comes with what the
second counter is to say about it. -/
inductive Meets {α : Type} (counts : α → Nat → Prop) (s : State) :
    Parsed α → Except Fault α × State → Prop where
  | ok {value : α} {s' : State} {new : List Event} (goes : Goes s s' new)
    (nesting : s'.nesting = s.nesting) (depth : counts value s'.depth) :
    Meets counts s (.ok (value, s'.rest)) (.ok value, s')
  | error (stop : Stop) {s' : State} {new last : List Event}
    (breaks : Breaks s stop.cause stop.token s' new last) (rest : s'.rest = stop.rest)
    (nesting : s'.nesting = s.nesting + stop.opened) :
    Meets counts s (.error stop) (.error (.stop stop.cause stop.token), s')

/-- The reading does what the rule does, where so many groups may be opened. -/
def Agrees {α : Type} (room : Nat) (counts : α → Nat → Prop) (rule : List Token → Parsed α)
    (reader : Reader α) : Prop :=
  ∀ s : State, s.nesting + room = maxGroups → Meets counts s (rule s.rest) (reader s)

/-- The second counter is the height of the expression, which is allowed. -/
def IsHeight (e : Expression) (depth : Nat) : Prop :=
  depth = e.height ∧ e.height ≤ maxHeight

/-- The second counter says nothing. -/
def Unmeasured {α : Type} (_ : α) (_ : Nat) : Prop :=
  True

theorem bind_of_ok {α β : Type} {reader : Reader α} {value : α} {s s' : State}
    (run : reader s = (.ok value, s')) (next : α → Reader β) :
    (reader >>= next) s = next value s' := by
  show Reader.andThen reader next s = next value s'
  rw [Reader.andThen, run]

theorem bind_of_error {α β : Type} {reader : Reader α} {fault : Fault} {s s' : State}
    (run : reader s = (.error fault, s')) (next : α → Reader β) :
    (reader >>= next) s = (.error fault, s') := by
  show Reader.andThen reader next s = (.error fault, s')
  rw [Reader.andThen, run]

namespace Meets

variable {α β : Type} {counts : α → Nat → Prop} {counts' : β → Nat → Prop} {s s' : State}

theorem after {new : List Event} (goes : Goes s s' new) (same : s'.nesting = s.nesting)
    {result : Parsed α} {out : Except Fault α × State} (h : Meets counts s' result out) :
    Meets counts s result out := by
  cases h with
  | ok goes' nesting depth => exact .ok (goes.trans goes') (nesting.trans same) depth
  | error stop breaks rest nesting =>
    exact .error stop (goes.breaks breaks) rest (by rw [nesting, same])

theorem bind {result : Parsed α} {next : α → List Token → Parsed β} {reader : Reader α}
    {then' : α → Reader β} (first : Meets counts s result (reader s))
    (later : ∀ value s', result = .ok (value, s'.rest) → s'.nesting = s.nesting →
      counts value s'.depth → Meets counts' s' (next value s'.rest) (then' value s')) :
    Meets counts' s (result.andThen next) ((reader >>= then') s) := by
  generalize run : reader s = out at first
  cases first with
  | ok goes nesting depth =>
    rw [bind_of_ok run]
    exact (later _ _ rfl nesting depth).after goes nesting
  | error stop breaks rest nesting =>
    rw [bind_of_error run]
    exact .error stop breaks rest nesting

theorem pure {value : α} (depth : counts value s.depth) :
    Meets counts s (.ok (value, s.rest)) ((pure value : Reader α) s) :=
  .ok (.refl s) rfl depth

/-- A step that only makes another value of the one read. -/
theorem map {result : Parsed α} {reader : Reader α} (first : Meets counts s result (reader s))
    (f : α → β) :
    Meets Unmeasured s (result.andThen fun value rest => .ok (f value, rest))
      ((do let value ← reader; return f value) s) :=
  first.bind fun _ _ _ _ _ => .pure trivial

end Meets

/-! ## Single steps -/

theorem left_bind {α : Type} (next : List Token → Reader α) (s : State) :
    (left >>= next) s = next s.rest s :=
  rfl

theorem depth_bind {α : Type} (next : Nat → Reader α) (s : State) :
    (depth >>= next) s = next s.depth s :=
  rfl

section Single

variable {α : Type} {counts : α → Nat → Prop} {s : State} {t : Token} {rest : List Token}

theorem Goes.take (tokens : s.rest = t :: rest) (plain : t.kind ∉ groupKinds) :
    Goes s (s.take t rest) [.read t s.nesting] :=
  ⟨rfl, tokens, .token .start plain⟩

/-- A step that reads a token first. -/
theorem Meets.take (tokens : s.rest = t :: rest) (plain : t.kind ∉ groupKinds)
    {result : Parsed α} {next : Unit → Reader α}
    (later : Meets counts (s.take t rest) result (next () (s.take t rest))) :
    Meets counts s result ((Counting.take t rest >>= next) s) :=
  later.after (.take tokens plain) rfl

theorem Goes.setDepth {s' : State} {new : List Event} (goes : Goes s s' new) (depth : Nat) :
    Goes s { s' with depth } new :=
  ⟨goes.log, goes.tokens, goes.trail⟩

theorem Goes.opened (tokens : s.rest = t :: rest) (opens : Opens t) (room : s.nesting < maxGroups) :
    Goes s (State.take { s with log := s.log ++ [.opening t s.nesting], nesting := s.nesting + 1 }
      t rest) [.opening t s.nesting, .read t (s.nesting + 1)] := by
  refine ⟨?_, tokens, .opened (.asked .start opens room) opens room⟩
  exact List.append_assoc _ _ _

theorem Goes.closed {n : Nat} (tokens : s.rest = t :: rest) (closes : Closes t)
    (nesting : s.nesting = n + 1) :
    Goes s (State.take { s with nesting := n } t rest) [.read t n] := by
  refine ⟨rfl, tokens, ?_⟩
  rw [nesting]
  exact .closed .start closes

theorem Meets.fail (stop : Stop) (rest : s.rest = stop.rest) (opened : stop.opened = 0)
    (low : stop.cause ≠ .tooHigh) (room : stop.cause ≠ .tooManyGroups) :
    Meets counts s (.error stop) (.error (.stop stop.cause stop.token), s) := by
  refine .error stop (.refl s stop.token low room) rest ?_
  rw [opened, Nat.add_zero]

theorem meets_failHere {cause : ParseError.Cause} (low : cause ≠ .tooHigh)
    (room : cause ≠ .tooManyGroups) :
    Meets counts s (.error (.before cause s.rest)) (failHere cause s) :=
  .fail (.before cause s.rest) rfl rfl low room

theorem meets_expect {kind : Token.Kind} (plain : kind ∉ groupKinds) :
    Meets Unmeasured s (Tree.expect kind s.rest) (expect kind s) := by
  have failed : Meets Unmeasured s (.error (.before (.expected kind) s.rest))
      (failHere (.expected kind) s : Except Fault Token × State) := meets_failHere nofun nofun
  rw [expect, left_bind]
  cases tokens : s.rest with
  | nil =>
    rw [tokens] at failed
    exact failed
  | cons t rest =>
    rw [tokens] at failed
    rw [Tree.expect]
    by_cases fits : t.kind = kind
    · simp only [if_pos fits]
      exact .ok (.take tokens (fits ▸ plain)) rfl trivial
    · simp only [if_neg fits]
      exact failed

theorem meets_leaf {e : Expression} (tokens : s.rest = t :: rest) (plain : t.kind ∉ groupKinds)
    (height : e.height = 1) : Meets IsHeight s (.ok (e, rest)) (leaf t rest e s) := by
  have goes : Goes s { s.take t rest with depth := 1 } [.read t s.nesting] :=
    (Goes.take tokens plain).setDepth 1
  refine .ok goes rfl ⟨height.symm, ?_⟩
  rw [height]
  decide

theorem meets_converted (text : String) (tokens : s.rest = t :: rest)
    (plain : t.kind ∉ groupKinds) :
    Meets IsHeight s (Tree.converted t text rest) (converted t text rest s) := by
  rw [converted, Tree.converted]
  cases Number.ofToken? t.kind text with
  | some n => exact meets_leaf tokens plain rfl
  | none =>
    refine .take tokens plain ?_
    exact .fail (.after (.invalidLiteral text) t rest) rfl rfl nofun nofun

theorem meets_numberLiteral (text : String) (tokens : s.rest = t :: rest)
    (plain : t.kind ∉ groupKinds) :
    Meets IsHeight s (Tree.numberLiteral t text rest) (numberLiteral t text rest s) := by
  rw [numberLiteral, Tree.numberLiteral]
  split
  · exact meets_converted text tokens plain
  · refine .take tokens plain ?_
    exact .fail (.after .unsignedKind t rest) rfl rfl (fun high => by cases high)
      (fun full => by cases full)

/-- A node over operands of the heights counted is refused exactly if it is too high. -/
theorem meets_grow {d : Nat} {op : Token} {e : Expression} (height : e.height = max d s.depth + 1)
    (low : d ≤ maxHeight) (low' : s.depth ≤ maxHeight) :
    Meets IsHeight s (bounded e op s.rest) (grow d op e s) := by
  rw [grow, bounded, height]
  by_cases fits : max d s.depth + 1 ≤ maxHeight
  · rw [if_pos fits]
    simp only [if_neg (Nat.not_lt.mpr fits)]
    have built : Goes s
        { s with depth := max d s.depth + 1, log := s.log ++ [.building op e s.nesting] }
        [.building op e s.nesting] := ⟨rfl, rfl, .built .start (height ▸ fits)⟩
    exact .ok built rfl ⟨height.symm, height ▸ fits⟩
  · have exact' : e.height = maxHeight + 1 := by omega
    rw [if_neg fits]
    simp only [if_pos (Nat.not_le.mp fits)]
    exact .error (.after .tooHigh op s.rest) ⟨rfl, rfl, .start, .tooHigh exact'⟩ rfl rfl

/-! ## Groups -/

/-- Where all groups are open there is no other one. -/
theorem meets_full (tokens : s.rest = t :: rest) (opens : Opens t) (full : s.nesting = maxGroups)
    (close : Token.Kind) (reader : Reader α) :
    Meets counts s (.error (.before .tooManyGroups (t :: rest)))
      (grouped t rest close reader s) := by
  have run : openGroup t rest s = (.error (.stop .tooManyGroups (some t)),
      { s with log := s.log ++ [.opening t s.nesting] }) := if_pos (Nat.le_of_eq full.symm)
  rw [grouped, bind_of_error run]
  exact .error (.before .tooManyGroups (t :: rest))
    ⟨rfl, rfl, .start, .tooManyGroups opens full⟩ tokens rfl

/-- The token that closes a group, after what stands in the group. -/
theorem meets_close {s' : State} {new : List Event} {value : α} {close : Token.Kind}
    (goes : Goes s s' new) (more : s'.nesting = s.nesting + 1) (depth : counts value s'.depth)
    (closes : ∀ c : Token, c.kind = close → Closes c) :
    Meets counts s (((Tree.expect close s'.rest).andThen fun _ rest =>
        .ok (value, rest)).mapError Stop.inGroup)
      ((do closeGroup close; return value : Reader α) s') := by
  have failed (found : Option Token) (same : s'.rest.head? = found) :
      Meets counts s (.error (Stop.before (.expected close) s'.rest).inGroup)
        (.error (.stop (.expected close) found), s') := by
    subst same
    exact .error (Stop.before (.expected close) s'.rest).inGroup
      (goes.breaks (.refl s' _ nofun nofun)) rfl more
  cases tokens : s'.rest with
  | nil =>
    have empty : closeGroup close s' = (.error (.stop (.expected close) none), s') := by
      rw [closeGroup, tokens]
    rw [bind_of_error empty, Tree.expect]
    rw [tokens] at failed
    exact failed none rfl
  | cons c rest =>
    rw [Tree.expect]
    by_cases fits : c.kind = close
    · have closed : closeGroup close s' =
          (.ok (), State.take { s' with nesting := s.nesting } c rest) := by
        rw [closeGroup, tokens]
        simp only [if_pos fits, more]
      rw [bind_of_ok closed]
      simp only [if_pos fits]
      exact .ok (goes.trans (.closed tokens (closes c fits) more)) rfl depth
    · have other : closeGroup close s' = (.error (.stop (.expected close) (some c)), s') := by
        rw [closeGroup, tokens]
        simp only [if_neg fits]
      rw [bind_of_error other]
      simp only [if_neg fits]
      rw [tokens] at failed
      exact failed (some c) rfl

/-- What is read in a group that is open already, and the token that closes the group. -/
theorem meets_inside {s₁ : State} {new : List Event} {result : Parsed α} {reader : Reader α}
    (inner : Meets counts s₁ result (reader s₁)) (opened : Goes s s₁ new)
    (more : s₁.nesting = s.nesting + 1) {close : Token.Kind}
    (closes : ∀ c : Token, c.kind = close → Closes c) :
    Meets counts s ((result.andThen fun value rest =>
        (Tree.expect close rest).andThen fun _ rest => .ok (value, rest)).mapError Stop.inGroup)
      ((do
        let value ← reader
        closeGroup close
        return value : Reader α) s₁) := by
  generalize run : reader s₁ = out at inner
  cases inner with
  | error stop breaks rest nesting =>
    rw [bind_of_error run]
    refine .error stop.inGroup (opened.breaks breaks) rest ?_
    show _ = s.nesting + (stop.opened + 1)
    omega
  | ok goes nesting depth =>
    rw [bind_of_ok run]
    exact meets_close (opened.trans goes) (nesting.trans more) depth closes

/-- What is read in a group is read with one group less, and the group is closed again. -/
theorem meets_grouped {less : Nat} {rule : List Token → Parsed α} {reader : Reader α}
    (inside : Agrees less counts rule reader) {close : Token.Kind}
    (closes : ∀ c : Token, c.kind = close → Closes c) (tokens : s.rest = t :: rest)
    (opens : Opens t) (room : s.nesting + (less + 1) = maxGroups) :
    Meets counts s (closed rule close rest) (grouped t rest close reader s) := by
  have few : s.nesting < maxGroups := by omega
  have run : openGroup t rest s = (.ok (), State.take
      { s with log := s.log ++ [.opening t s.nesting], nesting := s.nesting + 1 } t rest) :=
    if_neg (Nat.not_le.mpr few)
  have opened := Goes.opened tokens opens few
  rw [grouped, bind_of_ok run]
  refine meets_inside (inside _ ?_) opened rfl closes
  show s.nesting + 1 + less = maxGroups
  omega

end Single

/-! ## Tiers -/

/-- The reading of what stands in a group does what the rule for it does, with one group
less, where any group may be opened. -/
inductive Inside {α : Type} (counts : α → Nat → Prop) :
    Nat → Option (Rule α) → Option (Reader α) → Prop where
  | none : Inside counts 0 none none
  | some {less : Nat} {rule : Rule α} {reader : Reader α}
    (agrees : Agrees less counts rule.run reader) :
    Inside counts (less + 1) (some rule) (some reader)

section Tiers

variable {room : Nat}

theorem signedNumber_meets {s : State} {sign : Token} {more : List Token}
    (tokens : s.rest = sign :: more) (kind : sign.kind = .binaryOperator) :
    Meets IsHeight s (Tree.signedNumber sign more) (signedNumber sign more s) := by
  have failed : Meets IsHeight s (.error (.before .unexpected s.rest))
      (failHere .unexpected s) := meets_failHere nofun nofun
  rw [tokens] at failed
  cases more with
  | nil => exact failed
  | cons t rest =>
    rw [Tree.signedNumber, signedNumber]
    split
    · rename_i signs
      have number := (takesSign_iff.mp signs.2).not_group
      exact .take tokens (by rw [kind]; decide) (meets_numberLiteral _ rfl number)
    · exact failed

theorem primary_agrees {group : Option (Rule Expression)} {reader : Option (Reader Expression)}
    (inside : Inside IsHeight room group reader) :
    Agrees room IsHeight (Tree.primary group) (primary reader) := by
  intro s nesting
  have failed : Meets IsHeight s (.error (.before .unexpected s.rest))
      (failHere .unexpected s) := meets_failHere nofun nofun
  rw [primary, left_bind]
  cases tokens : s.rest with
  | nil =>
    rw [tokens] at failed
    exact failed
  | cons t rest =>
    rw [tokens] at failed
    unfold Tree.primary
    dsimp only
    cases kind : t.kind with
    | openParen =>
      cases inside with
      | none => exact meets_full tokens (.inl kind) nesting _ _
      | some agrees => exact meets_grouped agrees (fun _ => .inl) tokens (.inl kind) nesting
    | identifier | boolean | null | string =>
      exact meets_leaf tokens (by rw [kind]; decide) rfl
    | binaryOperator => exact signedNumber_meets tokens kind
    | byte => exact meets_converted t.text tokens (by rw [kind]; decide)
    | integer | long | float | double =>
      exact meets_numberLiteral t.text tokens (by rw [kind]; decide)
    | char =>
      have plain : t.kind ∉ groupKinds := by rw [kind]; decide
      have refused : Meets IsHeight s (.error (.after .charLength t rest))
          ((take t rest >>= fun _ => fail .charLength (some t)) s) :=
        .take tokens plain (.fail (.after .charLength t rest) rfl rfl nofun nofun)
      simp only
      cases t.text.toList with
      | nil => exact refused
      | cons c more =>
        cases more with
        | nil => exact meets_leaf tokens plain rfl
        | cons => exact refused
    | _ => exact failed

section Chain

variable {operand : Rule Expression} {reader : Reader Expression} {operator? : Operators}

variable {binary : Tier} (operands : Agrees room IsHeight operand.run reader)
  (table : Tabulates operator? binary)
include operands table

/-- Each turn reads a token, so the steps do not run out before the tokens. -/
theorem chainFrom_meets {steps : Nat} {first : Expression} {s : State}
    (nesting : s.nesting + room = maxGroups) (few : s.rest.length < steps)
    (height : IsHeight first s.depth) :
    Meets IsHeight s (Tree.chainFrom operand operator? first s.rest)
      (chainFrom reader operator? steps first s) := by
  induction steps generalizing first s with
  | zero => exact absurd few (Nat.not_lt_zero _)
  | succ steps ih =>
    have stopped : Meets IsHeight s (.ok (first, s.rest))
        ((pure first : Reader Expression) s) := .pure height
    rw [chainFrom, left_bind]
    cases tokens : s.rest with
    | nil =>
      rw [tokens] at stopped
      rw [chainFrom_of_stops (by simp)]
      exact stopped
    | cons t rest =>
      rw [tokens] at stopped few
      cases op : operator? t with
      | none =>
        rw [chainFrom_of_stops (by simpa using op)]
        simp only [op]
        exact stopped
      | some result =>
        obtain ⟨build, hop, rfl⟩ := table.mp op
        rw [chainFrom_of_operator op]
        simp only [op]
        rw [depth_bind]
        refine .take tokens hop.not_group (.bind (operands _ nesting) ?_)
        intro second s₁ run nesting₁ height₁
        have node : (build first second).height = max s.depth s₁.depth + 1 := by
          rw [hop.height_eq, height.1, height₁.1]
        refine Meets.bind (meets_grow node (height.1 ▸ height.2) (height₁.1 ▸ height₁.2)) ?_
        intro e s₂ grown nesting₂ height₂
        obtain ⟨_, _, same⟩ := bounded_eq_ok.mp grown
        have moved := operand.moves run
        rw [List.length_cons] at few
        refine ih ?_ ?_ height₂
        · rw [nesting₂, nesting₁]
          exact nesting
        · rw [← same]
          have : (s.take t rest).rest.length = rest.length := rfl
          omega

theorem chain_agrees : Agrees room IsHeight (Tree.chain operator? operand).run
    (chain operator? reader) := by
  intro s nesting
  refine Meets.bind (operands s nesting) ?_
  intro first s₁ _ nesting₁ height
  rw [left_bind]
  exact chainFrom_meets operands table (nesting₁ ▸ nesting) (Nat.lt_succ_self _) height

end Chain

theorem negated_agrees {operand : Rule Expression} {reader : Reader Expression}
    (operands : Agrees room IsHeight operand.run reader) :
    Agrees room IsHeight (Tree.negated operand) (negated reader) := by
  intro s nesting
  have here := operands s nesting
  rw [negated, left_bind]
  cases tokens : s.rest with
  | nil =>
    rw [tokens] at here
    exact here
  | cons t rest =>
    rw [tokens] at here
    rw [Tree.negated]
    by_cases kind : t.kind = .notOperator
    · simp only [if_pos kind]
      refine .take tokens (by rw [kind]; decide) (.bind (operands _ nesting) ?_)
      intro e s₁ _ nesting₁ height
      have node : (Expression.not e).height = max 0 s₁.depth + 1 := by
        rw [Nat.zero_max, height.1]
        rfl
      exact meets_grow node (Nat.zero_le _) (height.1 ▸ height.2)
    · simp only [if_neg kind]
      exact here

end Tiers

/-- The rule of each tier over one for what stands in parentheses. -/
def phraseOver (group : Option (Rule Expression)) (tier : Tier) : Rule Expression :=
  let product := Tree.chain multiplicative? ⟨Tree.primary group, primary_moves⟩
  let sum := Tree.chain additive? product
  let comparison := Tree.chain comparison? ⟨Tree.negated sum, negated_moves⟩
  match tier with
  | .primary => ⟨Tree.primary group, primary_moves⟩
  | .product => product
  | .sum => sum
  | .negation => ⟨Tree.negated sum, negated_moves⟩
  | .comparison => comparison
  | .joint => Tree.chain joint? comparison

/-- What the rule with so much room has to read the inside of a group. -/
def below? {α : Type} (rule : Nat → Rule α) : (room : Nat) → Option (Rule α)
  | 0 => none
  | room + 1 => some (rule room)

/-- The rule of a tier, inside which `room` groups may be opened. -/
def phrase (room : Nat) (tier : Tier) : Rule Expression :=
  phraseOver (below? Tree.expression room) tier

theorem phrase_joint (room : Nat) : phrase room .joint = Tree.expression room := by
  cases room <;> rfl

theorem tierOver_agrees {room : Nat} {group : Option (Rule Expression)}
    {reader : Option (Reader Expression)} (inside : Inside IsHeight room group reader)
    (tier : Tier) : Agrees room IsHeight (phraseOver group tier).run (tierOver reader tier) := by
  have primaries : Agrees room IsHeight (Rule.mk _ primary_moves).run (primary reader) :=
    primary_agrees inside
  have products := chain_agrees primaries multiplicative?_tabulates
  have sums := chain_agrees products additive?_tabulates
  have negations : Agrees room IsHeight (Rule.mk _ negated_moves).run (negated _) :=
    negated_agrees sums
  have comparisons := chain_agrees negations comparison?_tabulates
  cases tier with
  | primary => exact primaries
  | product => exact products
  | sum => exact sums
  | negation => exact negations
  | comparison => exact comparisons
  | joint => exact chain_agrees comparisons joint?_tabulates

theorem groups_inside (room : Nat) :
    Inside IsHeight room (below? Tree.expression room) (group? room) := by
  induction room with
  | zero => exact .none
  | succ room ih =>
    have joint := tierOver_agrees ih .joint
    refine .some ?_
    rw [← phrase_joint]
    exact joint

/-- Each tier is read in the same way with the counters and without. -/
theorem tier_agrees (room : Nat) (t : Tier) :
    Agrees room IsHeight (phrase room t).run (tier t) := by
  intro s nesting
  have level : maxGroups - s.nesting = room := by omega
  rw [tier, level]
  exact tierOver_agrees (groups_inside room) t s nesting

theorem expression_agrees (room : Nat) :
    Agrees room IsHeight (Tree.expression room).run expression := by
  rw [← phrase_joint]
  exact tier_agrees room .joint

/-! ## Statements -/

section Statements

variable {room : Nat} {value : Rule Expression} {reader : Reader Expression}
  (values : Agrees room IsHeight value.run reader)

section Values

include values

theorem expressionStatement_agrees : Agrees room Unmeasured
    (fun ts => (value.run ts).andThen fun e rest => .ok (.expression e, rest))
    (expressionStatement reader) :=
  fun s nesting => (values s nesting).map Statement.expression

theorem assignment_agrees (name : String) (op : Token) :
    Agrees room Unmeasured (Tree.assignment value name op) (assignment reader name op) := by
  intro s nesting
  have valued := values s nesting
  unfold Tree.assignment
  split
  · rename_i assigns
    rw [assignment, if_pos assigns]
    exact valued.map (Statement.assign name none)
  · rename_i increments
    rw [assignment, increments, if_neg (by decide), if_pos rfl]
    exact .pure trivial
  · rename_i decrements
    rw [assignment, decrements, if_neg (by decide), if_neg (by decide), if_pos rfl]
    exact .pure trivial
  · rename_i assigns increments decrements
    rw [assignment, if_neg assigns, if_neg increments, if_neg decrements]
    cases compoundOf? op.text with
    | none => exact .fail (.after .unknownAssignment op s.rest) rfl rfl nofun nofun
    | some arithmetic => exact valued.map (Statement.assign name (some arithmetic))

theorem initializer_agrees (constant : Bool) (name : String) :
    Agrees room Unmeasured (Tree.initializer value constant name)
      (initializer reader constant name) := by
  intro s nesting
  have failed : Meets Unmeasured s (.error (.before (.uninitializedConstant name) s.rest))
      (failHere (.uninitializedConstant name) s : Except Fault Statement × State) :=
    meets_failHere nofun nofun
  have bare : Meets Unmeasured s (.ok (.declare name false none, s.rest))
      ((pure (.declare name false none) : Reader Statement) s) := .pure trivial
  rw [initializer, left_bind]
  cases tokens : s.rest with
  | nil =>
    rw [tokens] at failed bare
    rw [Tree.initializer]
    cases constant with
    | true => exact failed
    | false => exact bare
  | cons t rest =>
    rw [tokens] at failed bare
    rw [Tree.initializer]
    by_cases kind : t.kind = .equalsOperator
    · simp only [if_pos kind]
      refine .take tokens (by rw [kind]; decide) ?_
      exact (values (s.take t rest) nesting).map fun e => Statement.declare name constant (some e)
    · simp only [if_neg kind]
      cases constant with
      | true => exact failed
      | false => exact bare

theorem declaration_meets {s : State} {keyword : Token} {rest : List Token} (constant : Bool)
    (nesting : s.nesting + room = maxGroups) (tokens : s.rest = keyword :: rest)
    (plain : keyword.kind ∉ groupKinds) :
    Meets Unmeasured s (Tree.declaration value constant rest)
      (declaration reader constant keyword rest s) := by
  refine .take tokens plain (.bind (meets_expect (by decide)) ?_)
  intro name s₁ _ nesting₁ _
  exact initializer_agrees values constant name.text s₁ (nesting₁ ▸ nesting)

theorem named_meets {s : State} {name : Token} {rest : List Token}
    (nesting : s.nesting + room = maxGroups) (tokens : s.rest = name :: rest)
    (kind : name.kind = .identifier) :
    Meets Unmeasured s (Tree.named value name rest) (named reader name rest s) := by
  have plain := expressionStatement_agrees values s nesting
  simp only [tokens] at plain
  cases rest with
  | nil => exact plain
  | cons op more =>
    rw [named, Tree.named]
    by_cases assigns : isAssignment op = true
    · have sign : op.kind ∉ groupKinds := by
        rcases isAssignment_iff.mp assigns with h | h <;> rw [h] <;> decide
      simp only [if_pos assigns]
      refine .take tokens (by rw [kind]; decide) (.take rfl sign ?_)
      exact assignment_agrees values name.text op _ nesting
    · simp only [if_neg assigns]
      exact plain

end Values

section Sequences

variable {item : Rule Statement}

theorem sequenceFrom_meets {reader : Reader Statement} (ends : Token → Bool)
    (items : Agrees room Unmeasured item.run reader) {steps : Nat} {s : State}
    (nesting : s.nesting + room = maxGroups) (few : s.rest.length < steps) :
    Meets Unmeasured s (Tree.sequence item ends s.rest) (sequenceFrom reader ends steps s) := by
  induction steps generalizing s with
  | zero => exact absurd few (Nat.not_lt_zero _)
  | succ steps ih =>
    have stopped : Meets Unmeasured s (.ok ([], s.rest))
        ((pure [] : Reader (List Statement)) s) := .pure trivial
    rw [sequenceFrom, left_bind]
    cases tokens : s.rest with
    | nil =>
      rw [tokens] at stopped
      rw [Tree.sequence]
      exact stopped
    | cons t rest =>
      rw [tokens] at stopped few
      cases going : ends t with
      | true =>
        rw [Tree.sequence, if_pos going]
        simp only [if_pos going]
        exact stopped
      | false =>
        rw [sequence_of_going going]
        simp only [going, Bool.false_eq_true, if_false]
        have first := items s nesting
        rw [tokens] at first
        refine first.bind ?_
        intro statement s₁ run nesting₁ _
        have moved := item.moves run
        rw [List.length_cons] at few moved
        exact (ih (nesting₁ ▸ nesting) (by omega)).map (statement :: ·)

theorem sequence_agrees {reader : Reader Statement} (ends : Token → Bool)
    (items : Agrees room Unmeasured item.run reader) :
    Agrees room Unmeasured (Tree.sequence item ends) (sequence reader ends) := by
  intro s nesting
  rw [sequence, left_bind]
  exact sequenceFrom_meets ends items nesting (Nat.lt_succ_self _)

end Sequences

theorem skipSemicolon_meets (s : State) :
    Meets Unmeasured s (.ok ((), Tree.skipSemicolon s.rest)) (skipSemicolon s) := by
  have stay : Meets Unmeasured s (.ok ((), s.rest)) ((pure () : Reader Unit) s) := .pure trivial
  rw [skipSemicolon, left_bind]
  cases tokens : s.rest with
  | nil =>
    rw [tokens] at stay
    exact stay
  | cons t rest =>
    rw [tokens] at stay
    rw [Tree.skipSemicolon]
    by_cases kind : t.kind = .semicolon
    · simp only [if_pos kind]
      exact .ok (.take tokens (by rw [kind]; decide)) rfl trivial
    · simp only [if_neg kind]
      exact stay

variable {inner : Option (Rule Statement)} {braces : Option (Reader Statement)}
  (inside : Inside Unmeasured room inner braces)
include inside

theorem block_meets {s : State} {brace : Token} {rest : List Token}
    (nesting : s.nesting + room = maxGroups) (tokens : s.rest = brace :: rest)
    (kind : brace.kind = .openBrace) :
    Meets Unmeasured s (Tree.block inner brace rest) (block braces brace rest s) := by
  cases inside with
  | none =>
    have full : Meets Unmeasured s (.error (.before .tooManyGroups (brace :: rest)))
        (grouped brace rest .closeBrace
          (sequence exhausted fun t => t.kind = .closeBrace) s) :=
      meets_full tokens (.inr kind) nesting _ _
    exact full.map Statement.block
  | some items =>
    have closed := sequence_agrees (fun t => t.kind = .closeBrace) items
    have body := meets_grouped closed (fun _ => Or.inr) tokens (.inr kind) nesting
    exact body.map Statement.block

include values

theorem bareStatement_agrees :
    Agrees room Unmeasured (Tree.bareStatement value inner) (bareStatement reader braces) := by
  intro s nesting
  have plain := expressionStatement_agrees values s nesting
  rw [bareStatement, left_bind]
  cases tokens : s.rest with
  | nil =>
    simp only [tokens] at plain
    exact plain
  | cons t rest =>
    simp only [tokens] at plain
    unfold Tree.bareStatement
    dsimp only
    cases kind : t.kind with
    | var => exact declaration_meets values false nesting tokens (by rw [kind]; decide)
    | const => exact declaration_meets values true nesting tokens (by rw [kind]; decide)
    | openBrace => exact block_meets inside nesting tokens kind
    | identifier => exact named_meets values nesting tokens kind
    | _ => exact plain

theorem statementOver_agrees :
    Agrees room Unmeasured (Tree.statementOver value inner).run (statementOver reader braces) := by
  intro s nesting
  refine (bareStatement_agrees values inside s nesting).bind ?_
  intro statement s₁ _ _ _
  exact (skipSemicolon_meets s₁).map fun _ => statement

end Statements

theorem statement_eq (room : Nat) : Tree.statement room =
    Tree.statementOver (Tree.expression room) (below? Tree.statement room) := by
  cases room <;> rfl

theorem braces_inside (room : Nat) :
    Inside Unmeasured room (below? Tree.statement room) (braces? room) := by
  induction room with
  | zero => exact .none
  | succ room ih =>
    have inner := statementOver_agrees (expression_agrees room) ih
    refine .some ?_
    rw [statement_eq]
    exact inner

theorem statement_agrees (room : Nat) :
    Agrees room Unmeasured (Tree.statement room).run statement := by
  intro s nesting
  have level : maxGroups - s.nesting = room := by omega
  rw [statement, level, statement_eq]
  exact statementOver_agrees (expression_agrees room) (braces_inside room) s nesting

/-- A program is read in the same way with the counters and without. -/
theorem program_agrees (room : Nat) : Agrees room Unmeasured
    (fun ts => (Tree.sequence (Tree.statement room) (fun _ => false) ts).andThen
      fun body rest => .ok (⟨body⟩, rest)) program :=
  fun s nesting => (sequence_agrees _ (statement_agrees room) s nesting).map Tree.mk

end KindScript.Counting
