import KindScript.Proofs.Parsing.Agreement

/-!
# The bounds of the parser are exact

What the reading with counters logs shows what the counters were at every moment: the first
is the number of groups open then and never leaves its bounds, and a node is too high, or a
group one too many, exactly where the parser says so. The parser without counters gives the
same answers.
-/

namespace KindScript.Counting

open KindScript.Tree Grammar

/-! ## Open groups -/

instance (t : Token) : Decidable (Opens t) :=
  inferInstanceAs (Decidable (_ ∨ _))

instance (t : Token) : Decidable (Closes t) :=
  inferInstanceAs (Decidable (_ ∨ _))

/-- How many groups were opened. -/
def openings (log : List Event) : Nat :=
  (tokensRead log).countP (Opens ·)

/-- How many groups were closed. -/
def closings (log : List Event) : Nat :=
  (tokensRead log).countP (Closes ·)

/-- At the last event of the log so many groups are open as were opened and not closed,
those open at the start included, and there are not too many. -/
def CountedAt (start : Nat) (log : List Event) (nesting : Nat) : Prop :=
  start + openings log = nesting + closings log ∧ nesting ≤ maxGroups

/-- The groups are counted at the end of the log and at each of its events. -/
structure Counted (start : Nat) (log : List Event) (nesting : Nat) : Prop where
  last : CountedAt start log nesting
  events : ∀ before event, before ++ [event] <+: log →
    CountedAt start (before ++ [event]) event.nesting

theorem Counted.start {start : Nat} (room : start ≤ maxGroups) : Counted start [] start := by
  refine ⟨⟨rfl, room⟩, ?_⟩
  intro before event head
  have short := head.length_le
  simp at short

theorem Counted.concat {start nesting : Nat} {log : List Event} {event : Event}
    (h : Counted start log nesting)
    (last : CountedAt start (log ++ [event]) event.nesting) :
    Counted start (log ++ [event]) event.nesting := by
  refine ⟨last, ?_⟩
  intro before other head
  rcases List.prefix_concat_iff.mp head with whole | earlier
  · obtain ⟨rfl, same⟩ := List.append_inj' whole rfl
    cases same
    exact last
  · exact h.events before other earlier

theorem openings_append (log later : List Event) :
    openings (log ++ later) = openings log + openings later := by
  rw [openings, tokensRead_append, List.countP_append]
  rfl

theorem closings_append (log later : List Event) :
    closings (log ++ later) = closings log + closings later := by
  rw [closings, tokensRead_append, List.countP_append]
  rfl

theorem openings_read (t : Token) (n : Nat) :
    openings [.read t n] = if Opens t then 1 else 0 := by
  simp [openings, tokensRead, List.countP_singleton]

theorem closings_read (t : Token) (n : Nat) :
    closings [.read t n] = if Closes t then 1 else 0 := by
  simp [closings, tokensRead, List.countP_singleton]

theorem Opens.not_closes {t : Token} (opens : Opens t) : ¬ Closes t := by
  rintro (close | close) <;> rcases opens with kind | kind <;> rw [kind] at close <;> cases close

/-- While nothing fails the first counter is the number of open groups. -/
theorem Trail.counted {start n : Nat} {log : List Event} (trail : Trail start log n)
    (room : start ≤ maxGroups) : Counted start log n := by
  induction trail with
  | start => exact .start room
  | @token log n t _ plain ih =>
    have neither : ¬ Opens t ∧ ¬ Closes t := by
      constructor <;> rintro (kind | kind) <;> rw [kind] at plain <;> exact plain (by decide)
    refine ih.concat ⟨?_, ih.last.2⟩
    rw [openings_append, closings_append, openings_read, closings_read, if_neg neither.1,
      if_neg neither.2]
    exact ih.last.1
  | @asked log n t _ _ _ ih =>
    refine ih.concat ⟨?_, ih.last.2⟩
    rw [openings_append, closings_append]
    exact ih.last.1
  | @opened log n t _ opens room ih =>
    refine ih.concat ⟨?_, room⟩
    rw [openings_append, closings_append, openings_read, closings_read, if_pos opens,
      if_neg opens.not_closes]
    have count := ih.last.1
    show _ = n + 1 + _
    omega
  | @closed log n t _ closes ih =>
    refine ih.concat ⟨?_, Nat.le_of_succ_le ih.last.2⟩
    rw [openings_append, closings_append, openings_read, closings_read, if_pos closes,
      if_neg fun opens => opens.not_closes closes]
    have count := ih.last.1
    show _ = n + _
    omega
  | @built log n op e _ _ ih =>
    refine ih.concat ⟨?_, ih.last.2⟩
    rw [openings_append, closings_append]
    exact ih.last.1

/-! ## Failing steps -/

section Failures

variable {start n : Nat} {log : List Event}

/-- A node over the operator is too high, by one. -/
def HighAt (log : List Event) (op : Token) : Prop :=
  ∃ e nesting, .building op e nesting ∈ log ∧ e.height = maxHeight + 1

/-- The event breaks no bound. -/
def Event.Allowed : Event → Prop
  | read _ _ => True
  | opening t nesting => Opens t ∧ nesting < maxGroups
  | building _ e _ => e.height ≤ maxHeight

/-- The event breaks a bound by one at most. -/
def Event.Possible : Event → Prop
  | read _ _ => True
  | opening t nesting => Opens t ∧ nesting ≤ maxGroups
  | building _ e _ => e.height ≤ maxHeight + 1

theorem Event.Allowed.possible {event : Event} (h : event.Allowed) : event.Possible := by
  cases event with
  | read => trivial
  | opening => exact ⟨h.1, Nat.le_of_lt h.2⟩
  | building => exact Nat.le_succ_of_le h

theorem Trail.allowed (trail : Trail start log n) : ∀ event ∈ log, event.Allowed := by
  have concat {log : List Event} {last : Event} (before : ∀ event ∈ log, event.Allowed)
      (h : last.Allowed) : ∀ event ∈ log ++ [last], event.Allowed := by
    intro event mem
    rcases List.mem_append.mp mem with earlier | here
    · exact before event earlier
    · rwa [List.mem_singleton.mp here]
  induction trail with
  | start => nofun
  | token _ _ ih | opened _ _ _ ih | closed _ _ ih => exact concat ih trivial
  | asked _ opens room ih => exact concat ih ⟨opens, room⟩
  | built _ low ih => exact concat ih low

theorem Trail.not_high (trail : Trail start log n) (op : Token) : ¬ HighAt log op := by
  rintro ⟨e, nesting, node, height⟩
  have low : e.height ≤ maxHeight := trail.allowed _ node
  omega

theorem Trail.not_full (trail : Trail start log n) (t : Token) : .opening t maxGroups ∉ log :=
  fun asked => Nat.lt_irrefl _ (trail.allowed _ asked).2

variable {cause : ParseError.Cause} {token : Option Token} {last : List Event}

theorem highAt_append (log later : List Event) (op : Token) :
    HighAt (log ++ later) op ↔ HighAt log op ∨ HighAt later op := by
  simp [HighAt, or_and_right, exists_or]

theorem Leaves.high_iff (leaves : Leaves n cause token last) (trail : Trail start log n)
    (t marker : Token) :
    HighAt (log ++ last) t ↔ cause = .tooHigh ∧ token.getD marker = t := by
  rw [highAt_append, or_iff_right (trail.not_high t)]
  cases leaves with
  | tooHigh height =>
    constructor
    · rintro ⟨_, _, node, _⟩
      cases List.mem_singleton.mp node
      exact ⟨rfl, rfl⟩
    · rintro ⟨_, rfl⟩
      exact ⟨_, _, List.mem_singleton.mpr rfl, height⟩
  | tooManyGroups => simp [HighAt]
  | other low => simp [HighAt, low]

theorem Leaves.full_iff (leaves : Leaves n cause token last) (trail : Trail start log n)
    (t marker : Token) :
    .opening t maxGroups ∈ log ++ last ↔ cause = .tooManyGroups ∧ token.getD marker = t := by
  rw [List.mem_append, or_iff_right (trail.not_full t)]
  cases leaves with
  | tooHigh => simp
  | tooManyGroups _ full => simp [full, eq_comm]
  | other _ room => simp [room]

theorem Leaves.tokensRead_eq (leaves : Leaves n cause token last) :
    tokensRead (log ++ last) = tokensRead log := by
  rw [tokensRead_append]
  cases leaves <;> exact List.append_nil _

/-- Where a step fails the groups are still counted. -/
theorem Leaves.counted (leaves : Leaves n cause token last) (h : Counted start log n) :
    Counted start (log ++ last) n := by
  have same : CountedAt start (log ++ last) n := by
    rw [CountedAt, openings, closings, leaves.tokensRead_eq]
    exact h.last
  cases leaves with
  | tooHigh => exact h.concat same
  | tooManyGroups => exact h.concat same
  | other => rwa [List.append_nil]

theorem Leaves.possible (leaves : Leaves n cause token last) (trail : Trail start log n) :
    ∀ event ∈ log ++ last, event.Possible := by
  intro event mem
  rcases List.mem_append.mp mem with earlier | here
  · exact (trail.allowed event earlier).possible
  · cases leaves with
    | tooHigh height =>
      rw [List.mem_singleton.mp here]
      exact Nat.le_of_eq height
    | tooManyGroups opens full =>
      rw [List.mem_singleton.mp here]
      exact ⟨opens, Nat.le_of_eq full⟩
    | other => cases here

end Failures

/-! ## Answers -/

/-- The parser that goes on from a state. -/
def State.parser (s : State) (marker : Token) : Parser :=
  { rest := s.rest, marker, room := maxGroups - s.nesting }

/-- The answer of a parser that reads with counters, unless a counter or the recursion ran
out. -/
def answer {α : Type} (marker : Token) :
    Except Fault α × State → Option (Except ParseError α × Parser)
  | (.ok value, s) => some (.ok value, s.parser marker)
  | (.error (.stop cause token), s) =>
    some (.error ⟨cause, token.getD marker⟩, s.parser marker)
  | (.error .underflow, _) => none
  | (.error .exhausted, _) => none

/-- Reading from a state gives an answer and logs events, and the bounds are exact: at each
event the first counter is the number of open groups; a node is too high, and one group is
too many, where the answer says so and nowhere else. -/
structure Exact {α : Type} (s : State) (marker : Token)
    (answered : Except ParseError α × Parser) (out : Except Fault α × State)
    (new : List Event) : Prop where
  answer : answer marker out = some answered
  log : out.2.log = s.log ++ new
  tokens : s.rest = tokensRead new ++ out.2.rest
  groups : Counted s.nesting new out.2.nesting
  events : ∀ event ∈ new, event.Possible
  tooHigh : ∀ t, answered.1 = .error ⟨.tooHigh, t⟩ ↔ HighAt new t
  tooManyGroups : ∀ t, answered.1 = .error ⟨.tooManyGroups, t⟩ ↔ .opening t maxGroups ∈ new

theorem Meets.exact {α : Type} {counts : α → Nat → Prop} {s : State} {read : Parsed α}
    {out : Except Fault α × State} (h : Meets counts s read out) (room : s.nesting ≤ maxGroups)
    (marker : Token) : ∃ new, Exact s marker ((s.parser marker).resume read) out new := by
  cases h with
  | @ok value s' new goes nesting =>
    have counted := goes.trail.counted room
    refine ⟨new, ?_, goes.log, goes.tokens, counted, ?_, ?_, ?_⟩
    · rw [answer, State.parser, nesting]
      rfl
    · exact fun event mem => (goes.trail.allowed event mem).possible
    · exact fun t => ⟨nofun, fun high => absurd high (goes.trail.not_high t)⟩
    · exact fun t => ⟨nofun, fun full => absurd full (goes.trail.not_full t)⟩
  | @error stop s' new last breaks rest nesting =>
    have counted := breaks.last.counted (breaks.trail.counted room)
    have error (cause : ParseError.Cause) (t : Token) :
        ((s.parser marker).resume (.error stop : Parsed α)).1 = .error ⟨cause, t⟩ ↔
          stop.cause = cause ∧ stop.token.getD marker = t := by
      simp [Parser.resume, State.parser]
    refine ⟨new ++ last, ?_, breaks.log, ?_, counted, breaks.last.possible breaks.trail, ?_, ?_⟩
    · rw [answer, State.parser, rest, nesting, Nat.sub_add_eq]
      rfl
    · rw [breaks.last.tokensRead_eq]
      exact breaks.tokens
    · intro t
      rw [error, breaks.last.high_iff breaks.trail t marker]
    · intro t
      rw [error, breaks.last.full_iff breaks.trail t marker]

/-! ## Blocks -/

mutual

/-- How deep blocks are nested in a statement. -/
def blockDepth : Statement → Nat
  | .block body => blockDepths body + 1
  | .declare _ _ _ => 0
  | .assign _ _ _ => 0
  | .expression _ => 0

/-- How deep blocks are nested in statements. -/
def blockDepths : List Statement → Nat
  | [] => 0
  | s :: more => max (blockDepth s) (blockDepths more)

end

mutual

/-- Each block of a statement is a group of its tokens. -/
theorem sentence_blockDepth_le {reaches : Bool} {ts : List Token} {s : Statement}
    (h : Sentence reaches ts s) : blockDepth s ≤ mostOpen 0 ts := by
  match h with
  | .declaration _ _ | .initialized _ _ _ _ | .constant _ _ _ _ | .assignment _ _ _ _
  | .compound _ _ _ _ | .increment _ _ _ | .decrement _ _ _ | .expression _ =>
    exact Nat.zero_le _
  | .block opening inner closing =>
    have deep := body_blockDepths_le inner
    obtain ⟨d, hd⟩ := inner.nests
    rw [hd.mostOpen_eq] at deep
    rw [(hd.group (.inr opening) (.inr closing)).mostOpen_eq]
    exact Nat.succ_le_succ deep

theorem body_blockDepths_le {ts : List Token} {body : List Statement} (h : Body ts body) :
    blockDepths body ≤ mostOpen 0 ts := by
  match h with
  | .nil => exact Nat.zero_le _
  | .cons first terminator _ later =>
    have deep := sentence_blockDepth_le first
    have deeper := body_blockDepths_le later
    obtain ⟨d, hd⟩ := first.nests
    obtain ⟨d', hd'⟩ := later.nests
    rw [hd.mostOpen_eq] at deep
    rw [hd'.mostOpen_eq] at deeper
    rw [(hd.append (terminator.nests.append hd')).mostOpen_eq, blockDepths]
    omega

end

/-- No program has a higher expression or more blocks in each other than allowed. -/
theorem bounds_of_parse {tokens : List Token} {tree : Tree} (done : parse tokens = .ok tree) :
    Everywhere IsLow tree.body ∧ blockDepths tree.body ≤ maxGroups := by
  have spelled := spells_of_parse done
  have deep := body_blockDepths_le spelled.body
  exact ⟨spelled.low, Nat.le_trans deep spelled.groups⟩

/-! ## Parsers -/

/-- The state of a parser that has read nothing. -/
def State.fresh (tokens : List Token) : State :=
  { rest := (Parser.ofTokens tokens).rest, nesting := 0, depth := 0, log := [] }

/-- At first the log is empty, so all that is logged is new. -/
theorem Exact.of_fresh {α : Type} {tokens : List Token} {marker : Token}
    {answered : Except ParseError α × Parser} {out : Except Fault α × State}
    (h : ∃ new, Exact (State.fresh tokens) marker answered out new) :
    Exact (State.fresh tokens) marker answered out out.2.log := by
  obtain ⟨new, exact'⟩ := h
  have all : out.2.log = new := exact'.log
  rwa [all]

theorem tier_left {t : Tier} {s s' : State} {e : Expression} (room : s.nesting ≤ maxGroups)
    (run : tier t s = (.ok e, s')) : s'.depth = e.height ∧ s'.nesting = s.nesting := by
  have meets := tier_agrees (maxGroups - s.nesting) t s (Nat.add_sub_cancel' room)
  rw [run] at meets
  generalize (phrase _ t).run s.rest = read at meets
  cases meets with
  | ok _ nesting depth => exact ⟨depth.1, nesting⟩

theorem height_of_expression {parser : Parser} {e : Expression}
    (done : parser.expression.1 = .ok e) : e.height ≤ maxHeight := by
  obtain ⟨rest, run⟩ := resume_eq_ok.mp done
  obtain ⟨_, _, fits, _⟩ := (expression_reads _).sound run
  exact fits.low

/-- The bounds of the parser are exact. Reading an expression of any tier leaves its height
in the one counter and the other as it was. What the parser answers for some tokens is what
it answers with the counters. No answer is a tree with a higher expression or with more
blocks in each other than allowed. -/
theorem bounds_exact :
    (∀ (t : Tier) (s : State) (marker : Token), s.nesting ≤ maxGroups →
      (∃ new, Exact s marker
        ((s.parser marker).resume ((phrase (s.parser marker).room t).run s.rest)) (tier t s) new) ∧
      ∀ e s', tier t s = (.ok e, s') → s'.depth = e.height ∧ s'.nesting = s.nesting) ∧
    ∀ tokens : List Token,
      let s := State.fresh tokens
      let parser := Parser.ofTokens tokens
      Exact s parser.marker parser.expression (expression s) (expression s).2.log ∧
      Exact s parser.marker parser.tree (program s) (program s).2.log ∧
      (∀ e, parser.expression.1 = .ok e → e.height ≤ maxHeight) ∧
      ∀ tree, parse tokens = .ok tree →
        Everywhere IsLow tree.body ∧ blockDepths tree.body ≤ maxGroups := by
  constructor
  · intro t s marker room
    have meets := tier_agrees (s.parser marker).room t s (Nat.add_sub_cancel' room)
    exact ⟨meets.exact room marker, fun e s' run => tier_left room run⟩
  · intro tokens s parser
    have room : s.nesting ≤ maxGroups := Nat.zero_le _
    have expressions := expression_agrees maxGroups s (Nat.zero_add _)
    have programs := program_agrees maxGroups s (Nat.zero_add _)
    refine ⟨.of_fresh (expressions.exact room parser.marker),
      .of_fresh (programs.exact room parser.marker), ?_, ?_⟩
    · exact fun e done => height_of_expression done
    · exact fun tree done => bounds_of_parse done

/-- Of `!(a)`, read where three groups are open. -/
theorem bounds_exact_negation :
    let place := Position.first
    let s : State :=
      ⟨[⟨.notOperator, "!", place, place⟩, ⟨.openParen, "(", place, place⟩,
        ⟨.identifier, "a", place, place⟩, ⟨.closeParen, ")", place, place⟩], 3, 7, []⟩
    s.nesting ≤ maxGroups ∧ ∃ s', tier .joint s = (.ok (.not (.identifier "a")), s') ∧
      s'.depth = 2 ∧ s'.nesting = 3 := by
  intro place s
  have room : s.nesting ≤ maxGroups := by decide
  have run : tier .joint s = (.ok (.not (.identifier "a")), (tier .joint s).2) := by rfl
  have left := (bounds_exact.1 .joint s (.endOfFile place) room).2 _ _ run
  exact ⟨room, _, run, left⟩

end KindScript.Counting
