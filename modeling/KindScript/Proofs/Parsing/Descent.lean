import KindScript.Proofs.Parsing.Agreement
import Mathlib.Logic.Relation

/-!
# The rules at work

A rule of the parser asks other rules to read parts of its tokens. Here this is a relation
between goals, a goal being a rule with the room and the tokens that it has. A goal fails if
one that it asks for fails, and with the same error; and every error is found by one goal by
itself, at the first token left or at a token that it has just read. So what is known of the
errors that single rules find is known of every error of the parser.
-/

namespace KindScript.Descent

open KindScript.Tree Grammar
open Counting (phrase phraseOver below? phrase_joint statement_eq)

/-! ## Results without values -/

/-- What a rule leaves, without what it has read. An error does not tell the groups that were
left open. -/
def verdict {α : Type} (result : Parsed α) : Except Stop (List Token) :=
  match result with
  | .ok (_, rest) => .ok rest
  | .error stop => .error { stop with opened := 0 }

section Verdict

variable {α β : Type} {stop : Stop}

theorem verdict_andThen_eq_error {first : Parsed α} {next : α → List Token → Parsed β} :
    verdict (first.andThen next) = .error stop ↔ verdict first = .error stop ∨
      ∃ value rest, first = .ok (value, rest) ∧ verdict (next value rest) = .error stop := by
  cases first with
  | error other =>
    rw [Parsed.andThen]
    exact (or_iff_left nofun).symm
  | ok result =>
    obtain ⟨value, rest⟩ := result
    rw [Parsed.andThen]
    constructor
    · exact fun failed => .inr ⟨value, rest, rfl, failed⟩
    · rintro (failed | ⟨_, _, same, failed⟩)
      · cases failed
      · cases same
        exact failed

/-- What only makes another value of the one read finds no errors. -/
theorem verdict_map_eq_error {first : Parsed α} {f : α → List Token → β × List Token} :
    verdict (first.andThen fun value rest => .ok (f value rest)) = .error stop ↔
      verdict first = .error stop := by
  rw [verdict_andThen_eq_error]
  refine or_iff_left ?_
  rintro ⟨_, _, _, failed⟩
  cases failed

theorem verdict_closed_eq_error {inside : List Token → Parsed α} {close : Token.Kind}
    {ts : List Token} :
    verdict (closed inside close ts) = .error stop ↔ verdict (inside ts) = .error stop ∨
      ∃ value rest, inside ts = .ok (value, rest) ∧ verdict (expect close rest) = .error stop := by
  have pass (result : Parsed α) : verdict (result.mapError Stop.inGroup) = verdict result := by
    cases result <;> rfl
  rw [closed, pass, verdict_andThen_eq_error]
  simp only [verdict_map_eq_error]

theorem verdict_expect_eq_error {kind : Token.Kind} {ts : List Token} :
    verdict (expect kind ts) = .error stop → stop = .before (.expected kind) ts := by
  unfold expect
  intro failed
  split at failed
  · cases failed
    rfl
  · split at failed
    · cases failed
    · cases failed
      rfl

end Verdict

/-! ## Tiers -/

/-- The operators of a tier. -/
def operators? : Tier → Operators
  | .joint => joint?
  | .comparison => comparison?
  | .sum => additive?
  | .product => multiplicative?
  | _ => fun _ => none

theorem operators?_tabulates {tier : Tier} (binary : tier.IsBinary) :
    Tabulates (operators? tier) tier := by
  rcases binary with rfl | rfl | rfl | rfl
  · exact joint?_tabulates
  · exact comparison?_tabulates
  · exact additive?_tabulates
  · exact multiplicative?_tabulates

/-- The token is an operator of the tier that builds a node. -/
theorem operators?_of_operator {tier : Tier} {t : Token}
    {build : Expression → Expression → Expression} (op : Operator tier t build) :
    operators? tier t = some (.ok build) :=
  (operators?_tabulates op.isBinary).mpr ⟨build, op, rfl⟩

theorem operators?_eq_some {tier : Tier} {t : Token}
    {result : Except ParseError.Cause (Expression → Expression → Expression)}
    (found : operators? tier t = some result) :
    ∃ build, Operator tier t build ∧ result = .ok build := by
  cases tier with
  | joint => exact joint?_tabulates.mp found
  | comparison => exact comparison?_tabulates.mp found
  | sum => exact additive?_tabulates.mp found
  | product => exact multiplicative?_tabulates.mp found
  | negation | primary => cases found

theorem phrase_binary (room : Nat) {tier : Tier} (binary : tier.IsBinary) :
    phrase room tier = chain (operators? tier) (phrase room tier.next) := by
  rcases binary with rfl | rfl | rfl | rfl <;> rfl

theorem phrase_reads (room : Nat) (tier : Tier) :
    Reads (phrase room tier).run (Fits room tier) (Stops tier) := by
  have inside : Within room (below? Tree.expression room) := by
    cases room with
    | zero => rfl
    | succ room => exact ⟨room, rfl, expression_reads room⟩
  have binary (tier : Tier) (binary : tier.IsBinary)
      (operands : Reads (phrase room tier.next).run (Fits room tier.next) (Stops tier.next)) :
      Reads (phrase room tier).run (Fits room tier) (Stops tier) := by
    rw [phrase_binary room binary]
    exact chain_reads binary (operators?_tabulates binary) operands
  have primaries : Reads (phrase room .primary).run (Fits room .primary) (Stops .primary) :=
    primary_reads inside
  have products := binary .product (by simp [Tier.IsBinary]) primaries
  have sums := binary .sum (by simp [Tier.IsBinary]) products
  have negations : Reads (phrase room .negation).run (Fits room .negation) (Stops .negation) :=
    negated_reads sums
  have comparisons := binary .comparison (by simp [Tier.IsBinary]) negations
  cases tier with
  | primary => exact primaries
  | product => exact products
  | sum => exact sums
  | negation => exact negations
  | comparison => exact comparisons
  | joint => exact binary .joint (by simp [Tier.IsBinary]) comparisons

/-! ## Goals -/

/-- What there is to read: a run of statements, to the end or to a closing brace, a statement,
an expression of a tier, or operators of a tier after their left operand. -/
inductive Task where
  | body (inBlock : Bool)
  | statement
  | tier (tier : Tier)
  | operators (tier : Tier) (left : Expression)

/-- A task with the groups that may be opened and the tokens that are left. -/
structure Goal where
  task : Task
  room : Nat
  tokens : List Token

/-- The tokens that end a run of statements. -/
def ends (inBlock : Bool) (t : Token) : Bool :=
  inBlock && t.kind = .closeBrace

/-- The tokens left after the goal, or its error. -/
def Goal.outcome (g : Goal) : Except Stop (List Token) :=
  match g.task with
  | .body inBlock => verdict (Tree.sequence (Tree.statement g.room) (ends inBlock) g.tokens)
  | .statement => verdict ((Tree.statement g.room).run g.tokens)
  | .tier tier => verdict ((phrase g.room tier).run g.tokens)
  | .operators tier left =>
    verdict (chainFrom (phrase g.room tier.next) (operators? tier) left g.tokens)

/-- What stands before the expression of a statement. -/
inductive Leads : (before : List Token) → (rest : List Token) → Prop where
  | declared {v n q : Token} {ts : List Token} (keyword : v.kind = .var ∨ v.kind = .const)
    (name : n.kind = .identifier) (sign : q.kind = .equalsOperator) : Leads [v, n, q] ts
  | assigned {n q : Token} {ts : List Token} (name : n.kind = .identifier) (sign : Assigns q)
    (text : q.text = "=" ∨ ∃ op : ArithmeticOp, q.text = op.symbol ++ "=") : Leads [n, q] ts
  | alone {ts : List Token} (plain : ∀ t ∈ ts.head?, t.kind ∉ [Token.Kind.var, .const, .openBrace])
    (unassigned : ∀ n q rest, ts = n :: q :: rest → n.kind = .identifier → ¬ Assigns q) :
    Leads [] ts

/-- The goals that a goal asks for. -/
inductive Calls : Goal → Goal → Prop where
  | first {inBlock : Bool} {room : Nat} {t : Token} {ts : List Token}
    (going : ends inBlock t = false) :
    Calls ⟨.body inBlock, room, t :: ts⟩ ⟨.statement, room, t :: ts⟩
  | next {inBlock : Bool} {room : Nat} {t : Token} {ts rest : List Token} {s : Statement}
    (going : ends inBlock t = false) (run : (Tree.statement room).run (t :: ts) = .ok (s, rest)) :
    Calls ⟨.body inBlock, room, t :: ts⟩ ⟨.body inBlock, room, rest⟩
  | block {room : Nat} {brace : Token} {ts : List Token} (opening : brace.kind = .openBrace) :
    Calls ⟨.statement, room + 1, brace :: ts⟩ ⟨.body true, room, ts⟩
  | value {room : Nat} {before ts : List Token} (leads : Leads before ts) :
    Calls ⟨.statement, room, before ++ ts⟩ ⟨.tier .joint, room, ts⟩
  | operand {tier : Tier} {room : Nat} {ts : List Token} (loose : tier ≠ .primary)
    (plain : tier = .negation → ∀ t ∈ ts.head?, t.kind ≠ .notOperator) :
    Calls ⟨.tier tier, room, ts⟩ ⟨.tier tier.next, room, ts⟩
  | negated {room : Nat} {t : Token} {ts : List Token} (kind : t.kind = .notOperator) :
    Calls ⟨.tier .negation, room, t :: ts⟩ ⟨.tier .sum, room, ts⟩
  | operators {tier : Tier} {room : Nat} {ts rest : List Token} {left : Expression}
    (binary : tier.IsBinary) (run : (phrase room tier.next).run ts = .ok (left, rest)) :
    Calls ⟨.tier tier, room, ts⟩ ⟨.operators tier left, room, rest⟩
  | right {tier : Tier} {room : Nat} {left : Expression} {t : Token} {ts : List Token}
    {build : Expression → Expression → Expression} (op : Operator tier t build) :
    Calls ⟨.operators tier left, room, t :: ts⟩ ⟨.tier tier.next, room, ts⟩
  | more {tier : Tier} {room : Nat} {left right : Expression} {t : Token} {ts rest : List Token}
    {build : Expression → Expression → Expression} (op : Operator tier t build)
    (run : (phrase room tier.next).run ts = .ok (right, rest))
    (low : (build left right).height ≤ maxHeight) :
    Calls ⟨.operators tier left, room, t :: ts⟩ ⟨.operators tier (build left right), room, rest⟩
  | group {room : Nat} {o : Token} {ts : List Token} (opening : o.kind = .openParen) :
    Calls ⟨.tier .primary, room + 1, o :: ts⟩ ⟨.tier .joint, room, ts⟩

/-- The goals that are asked for on the way to a goal. -/
abbrev Comes : Goal → Goal → Prop :=
  Relation.ReflTransGen Calls

/-! ## Errors of single goals -/

/-- The error is at the first token left or at one that was read before. -/
def Points (ts : List Token) (stop : Stop) : Prop :=
  ∃ read, ts = read ++ stop.rest ∧
    (stop.token = stop.rest.head? ∨ ∃ t ∈ read, stop.token = some t)

theorem Points.before (read : List Token) (cause : ParseError.Cause) (rest : List Token) :
    Points (read ++ rest) (.before cause rest) :=
  ⟨read, rfl, .inl rfl⟩

theorem Points.after (read : List Token) {t : Token} (mem : t ∈ read) (cause : ParseError.Cause)
    (rest : List Token) : Points (read ++ rest) (.after cause t rest) :=
  ⟨read, rfl, .inr ⟨t, mem, rfl⟩⟩

/-- The tokens begin with the literal of a number, perhaps with a sign before it. -/
inductive StartsNumber : (negative : Bool) → Token → List Token → Prop where
  | plain {t : Token} {ts : List Token} (kind : t.kind = .byte ∨ Signed t.kind) :
    StartsNumber false t (t :: ts)
  | plus {s t : Token} {ts : List Token} (sign : s.kind = .binaryOperator) (text : s.text = "+")
    (kind : Signed t.kind) : StartsNumber false t (s :: t :: ts)
  | minus {s t : Token} {ts : List Token} (sign : s.kind = .binaryOperator) (text : s.text = "-")
    (kind : Signed t.kind) : StartsNumber true t (s :: t :: ts)

/-- The text of a number with the minus before it. -/
def signed (negative : Bool) (text : String) : String :=
  if negative then "-" ++ text else text

/-- What is the case where a goal finds a cause by itself. Two causes are found by none. -/
inductive Grounds (g : Goal) : Option Token → ParseError.Cause → Prop where
  | expected {token : Option Token} {kind : Token.Kind} : Grounds g token (.expected kind)
  | unexpected {token : Option Token} : Grounds g token .unexpected
  | tooManyGroups {token : Option Token} : Grounds g token .tooManyGroups
  | tooHigh {token : Option Token} : Grounds g token .tooHigh
  | uninitializedConstant {token : Option Token} {name : String} :
    Grounds g token (.uninitializedConstant name)
  | unknownAssignment {t : Token} (mem : t ∈ g.tokens) (sign : Assigns t)
    (simple : t.text ∉ ["=", "++", "--"])
    (compound : ∀ op : ArithmeticOp, t.text ≠ op.symbol ++ "=") :
    Grounds g (some t) .unknownAssignment
  | charLength {t : Token} (mem : t ∈ g.tokens) (kind : t.kind = .char)
    (length : ∀ c, t.text.toList ≠ [c]) : Grounds g (some t) .charLength
  | invalidLiteral {negative : Bool} {t : Token} (task : g.task = .tier .primary)
    (numeral : StartsNumber negative t g.tokens)
    (invalid : Number.ofToken? t.kind (signed negative t.text) = none) :
    Grounds g (some t) (.invalidLiteral (signed negative t.text))

/-- The goal finds the error by itself. -/
structure Finds (g : Goal) (stop : Stop) : Prop where
  points : Points g.tokens stop
  grounds : Grounds g stop.token stop.cause

/-! ## Statements -/

section Statements

variable {value : Rule Expression} {inner : Option (Rule Statement)}

theorem compoundOf?_eq_none {text : String} (none : compoundOf? text = none) (op : ArithmeticOp) :
    text ≠ op.symbol ++ "=" := by
  intro same
  rw [compoundOf?_eq_some.mpr same] at none
  cases none

theorem bareStatement_of_leads {before ts : List Token} (leads : Leads before ts) :
    ∃ f : Expression → Statement, bareStatement value inner (before ++ ts) =
      (value.run ts).andThen fun e rest => .ok (f e, rest) := by
  cases leads with
  | @declared v n q _ keyword name sign =>
    have read (constant : Bool) : declaration value constant (n :: q :: ts) =
        (value.run ts).andThen fun e rest => .ok (.declare n.text constant (some e), rest) := by
      rw [declaration, expect_eq_ok.mpr ⟨rfl, name⟩]
      exact if_pos sign
    rcases keyword with kind | kind
    · exact ⟨_, by simpa [bareStatement, kind] using read false⟩
    · exact ⟨_, by simpa [bareStatement, kind] using read true⟩
  | @assigned n q _ name sign text =>
    have read : bareStatement value inner ([n, q] ++ ts) = assignment value n.text q ts := by
      simp [bareStatement, name, named, isAssignment_iff.mpr sign]
    rw [read, assignment]
    rcases text with text | ⟨op, text⟩
    · exact ⟨.assign n.text none, by rw [text]; rfl⟩
    · exact ⟨.assign n.text (some op), by rw [text]; cases op <;> rfl⟩
  | alone plain unassigned =>
    refine ⟨.expression, ?_⟩
    cases ts with
    | nil => rfl
    | cons t rest =>
      have other := plain t rfl
      rw [List.nil_append, bareStatement]
      split
      · rename_i kind
        exact absurd (by simp [kind]) other
      · rename_i kind
        exact absurd (by simp [kind]) other
      · rename_i kind
        exact absurd (by simp [kind]) other
      · rename_i kind
        cases rest with
        | nil => rfl
        | cons q rest =>
          have bare : ¬ isAssignment q = true :=
            fun sign => unassigned t q rest rfl kind (isAssignment_iff.mp sign)
          rw [named, if_neg bare]
      · rfl

variable {room : Nat} {stop : Stop}

theorem declaration_cases {constant : Bool} {v : Token} {ts : List Token}
    (keyword : v.kind = .var ∨ v.kind = .const)
    (failed : verdict (declaration value constant ts) = .error stop) :
    (∃ before us, v :: ts = before ++ us ∧ Leads before us) ∨
      Finds ⟨.statement, room, v :: ts⟩ stop := by
  have uninitialized (n : Token) (us : List Token) :
      Finds ⟨.statement, room, v :: n :: us⟩ (.before (.uninitializedConstant n.text) us) :=
    ⟨.before [v, n] _ us, .uninitializedConstant⟩
  rcases verdict_andThen_eq_error.mp failed with none | ⟨n, middle, word, init⟩
  · rw [verdict_expect_eq_error none]
    exact .inr ⟨.before [v] _ ts, .expected⟩
  obtain ⟨rfl, name⟩ := expect_eq_ok.mp word
  unfold initializer at init
  split at init
  · split at init
    · cases init
      exact .inr (uninitialized n [])
    · cases init
  · rename_i q more
    split at init
    · rename_i sign
      exact .inl ⟨[v, n, q], more, rfl, .declared keyword name sign⟩
    · split at init
      · cases init
        exact .inr (uninitialized n (q :: more))
      · cases init

theorem named_cases {n : Token} {ts : List Token} (name : n.kind = .identifier)
    (failed : verdict (named value n ts) = .error stop) :
    (∃ before us, n :: ts = before ++ us ∧ Leads before us) ∨
      Finds ⟨.statement, room, n :: ts⟩ stop := by
  have plain : ∀ t ∈ (n :: ts).head?, t.kind ∉ [Token.Kind.var, .const, .openBrace] := by
    intro t first
    cases first
    rw [name]
    decide
  unfold named at failed
  split at failed
  · rename_i q more
    split at failed
    · rename_i sign
      have assigns := isAssignment_iff.mp sign
      unfold assignment at failed
      split at failed
      · rename_i text
        exact .inl ⟨[n, q], more, rfl, .assigned name assigns (.inl text)⟩
      · cases failed
      · cases failed
      · rename_i equals increment decrement
        split at failed
        · rename_i unknown
          cases failed
          refine .inr ⟨.after [n, q] (by simp) _ more, ?_⟩
          refine .unknownAssignment (by simp) assigns ?_ (compoundOf?_eq_none unknown)
          simp only [List.mem_cons, List.not_mem_nil, or_false, not_or]
          exact ⟨equals, increment, decrement⟩
        · rename_i op known
          have text := compoundOf?_eq_some.mp known
          exact .inl ⟨[n, q], more, rfl, .assigned name assigns (.inr ⟨op, text⟩)⟩
    · rename_i bare
      refine .inl ⟨[], n :: q :: more, rfl, .alone plain ?_⟩
      intro n' q' rest same _ assigns
      cases same
      exact bare (isAssignment_iff.mpr assigns)
  · exact .inl ⟨[], [n], rfl, .alone plain (fun _ _ _ same => by cases same)⟩

/-- A statement that is refused has an expression or is a block, or it finds the error. -/
theorem bareStatement_cases (room : Nat) {ts : List Token}
    (failed : verdict (bareStatement value inner ts) = .error stop) :
    (∃ before us, ts = before ++ us ∧ Leads before us) ∨
      (∃ brace us, ts = brace :: us ∧ brace.kind = .openBrace) ∨
      Finds ⟨.statement, room, ts⟩ stop := by
  unfold bareStatement at failed
  split at failed
  · exact .inl ⟨[], [], rfl, .alone (by simp) (fun _ _ _ same => by cases same)⟩
  rename_i t rest
  split at failed
  · rename_i keyword
    exact (declaration_cases (.inl keyword) failed).imp_right .inr
  · rename_i keyword
    exact (declaration_cases (.inr keyword) failed).imp_right .inr
  · rename_i opening
    exact .inr (.inl ⟨t, rest, rfl, opening⟩)
  · rename_i name
    exact (named_cases name failed).imp_right .inr
  · rename_i var const opening identifier
    refine .inl ⟨[], t :: rest, rfl, .alone ?_ ?_⟩
    · intro u first
      cases first
      simp only [List.mem_cons, List.not_mem_nil, or_false, not_or]
      exact ⟨var, const, opening⟩
    · intro n q more same name
      cases same
      exact absurd name identifier

end Statements

/-! ## Errors are passed on -/

theorem negated_of_plain {operand : Rule Expression} {ts : List Token}
    (plain : ∀ t ∈ ts.head?, t.kind ≠ .notOperator) : negated operand ts = operand.run ts := by
  cases ts with
  | nil => rfl
  | cons t more => rw [negated, if_neg (plain t rfl)]

section Errors

variable {g g' : Goal} {stop : Stop}

theorem statement_fails {room : Nat} {ts : List Token} :
    Goal.outcome ⟨.statement, room, ts⟩ = .error stop ↔
      verdict (bareStatement (Tree.expression room) (below? Tree.statement room) ts) =
        .error stop := by
  show verdict ((Tree.statement room).run ts) = _ ↔ _
  rw [statement_eq]
  exact verdict_map_eq_error

/-- A goal fails with every error of the goals that it asks for. -/
theorem Calls.fails (calls : Calls g g') (failed : g'.outcome = .error stop) :
    g.outcome = .error stop := by
  cases calls with
  | first going =>
    show verdict (Tree.sequence _ _ _) = _
    rw [sequence_of_going going]
    exact verdict_andThen_eq_error.mpr (.inl failed)
  | next going run =>
    show verdict (Tree.sequence _ _ _) = _
    rw [sequence_of_going going]
    exact verdict_andThen_eq_error.mpr (.inr ⟨_, _, run, verdict_map_eq_error.mpr failed⟩)
  | @block room brace ts opening =>
    rw [statement_fails, bareStatement, opening]
    exact verdict_map_eq_error.mpr (verdict_closed_eq_error.mpr (.inl failed))
  | @value room before ts leads =>
    obtain ⟨f, read⟩ := bareStatement_of_leads leads
    rw [statement_fails, read]
    refine verdict_map_eq_error.mpr ?_
    rw [← phrase_joint]
    exact failed
  | @operand tier room ts loose plain =>
    have chained (binary : tier.IsBinary) :
        verdict ((phrase room tier).run ts) = .error stop := by
      rw [phrase_binary room binary]
      exact verdict_andThen_eq_error.mpr (.inl failed)
    cases tier with
    | joint | comparison | sum | product => exact chained (by simp [Tier.IsBinary])
    | primary => exact absurd rfl loose
    | negation =>
      show verdict (Tree.negated _ ts) = _
      rw [negated_of_plain (plain rfl)]
      exact failed
  | @negated room t ts kind =>
    show verdict (Tree.negated (phrase room .sum) (t :: ts)) = _
    rw [Tree.negated, if_pos kind]
    exact verdict_andThen_eq_error.mpr (.inl failed)
  | operators binary run =>
    show verdict ((phrase _ _).run _) = _
    rw [phrase_binary _ binary]
    exact verdict_andThen_eq_error.mpr (.inr ⟨_, _, run, failed⟩)
  | right op =>
    show verdict (chainFrom _ _ _ _) = _
    rw [chainFrom_of_operator (operators?_of_operator op)]
    exact verdict_andThen_eq_error.mpr (.inl failed)
  | more op run low =>
    show verdict (chainFrom _ _ _ _) = _
    rw [chainFrom_of_step (operators?_of_operator op) run low]
    exact failed
  | @group room o ts opening =>
    show verdict (primary (some (Tree.expression room)) (o :: ts)) = _
    rw [primary, opening]
    refine verdict_closed_eq_error.mpr (.inl ?_)
    rw [← phrase_joint]
    exact failed

/-! ## Errors are found -/

theorem body_cases {inBlock : Bool} {room : Nat} {ts : List Token}
    (failed : Goal.outcome ⟨.body inBlock, room, ts⟩ = .error stop) :
    ∃ g', Calls ⟨.body inBlock, room, ts⟩ g' ∧ g'.outcome = .error stop := by
  replace failed : verdict (Tree.sequence (Tree.statement room) (ends inBlock) ts) =
    .error stop := failed
  cases ts with
  | nil =>
    rw [Tree.sequence] at failed
    cases failed
  | cons t more =>
    cases going : ends inBlock t with
    | true =>
      rw [Tree.sequence, if_pos going] at failed
      cases failed
    | false =>
      rw [sequence_of_going going] at failed
      rcases verdict_andThen_eq_error.mp failed with first | ⟨s, rest, run, later⟩
      · exact ⟨_, .first going, first⟩
      · exact ⟨_, .next going run, verdict_map_eq_error.mp later⟩

theorem block_cases {room : Nat} {brace : Token} {ts : List Token}
    (opening : brace.kind = .openBrace)
    (failed : Goal.outcome ⟨.statement, room, brace :: ts⟩ = .error stop) :
    Finds ⟨.statement, room, brace :: ts⟩ stop ∨
      ∃ g', Calls ⟨.statement, room, brace :: ts⟩ g' ∧ g'.outcome = .error stop := by
  rw [statement_fails, bareStatement, opening] at failed
  replace failed : verdict (block (below? Tree.statement room) brace ts) = .error stop := failed
  cases room with
  | zero =>
    cases failed
    exact .inl ⟨.before [] _ (brace :: ts), .tooManyGroups⟩
  | succ room =>
    rcases verdict_closed_eq_error.mp (verdict_map_eq_error.mp failed) with inside | unclosed
    · exact .inr ⟨_, .block opening, inside⟩
    · obtain ⟨body, rest, run, none⟩ := unclosed
      obtain ⟨read, rfl, _⟩ := sequence_sound (statement_reads room) run
      rw [verdict_expect_eq_error none]
      exact .inl ⟨.before (brace :: read) _ rest, .expected⟩

theorem statement_cases {room : Nat} {ts : List Token}
    (failed : Goal.outcome ⟨.statement, room, ts⟩ = .error stop) :
    Finds ⟨.statement, room, ts⟩ stop ∨
      ∃ g', Calls ⟨.statement, room, ts⟩ g' ∧ g'.outcome = .error stop := by
  rcases bareStatement_cases room (statement_fails.mp failed) with
    ⟨before, us, rfl, leads⟩ | ⟨brace, us, rfl, opening⟩ | finds
  · obtain ⟨f, read⟩ := bareStatement_of_leads leads
    rw [statement_fails, read] at failed
    refine .inr ⟨_, .value leads, ?_⟩
    show verdict ((phrase room .joint).run us) = _
    rw [phrase_joint]
    exact verdict_map_eq_error.mp failed
  · exact block_cases opening failed
  · exact .inl finds

theorem verdict_bounded {e : Expression} {op : Token} {rest : List Token}
    (failed : verdict (bounded e op rest) = .error stop) : stop = .after .tooHigh op rest := by
  unfold bounded at failed
  split at failed
  · cases failed
  · cases failed
    rfl

theorem binary_cases {tier : Tier} (binary : tier.IsBinary) {room : Nat} {ts : List Token}
    (failed : Goal.outcome ⟨.tier tier, room, ts⟩ = .error stop) :
    ∃ g', Calls ⟨.tier tier, room, ts⟩ g' ∧ g'.outcome = .error stop := by
  replace failed : verdict ((phrase room tier).run ts) = .error stop := failed
  rw [phrase_binary room binary] at failed
  rcases verdict_andThen_eq_error.mp failed with first | ⟨left, rest, run, later⟩
  · refine ⟨_, .operand binary.ne_primary ?_, first⟩
    rintro rfl
    exact absurd binary (by unfold Tier.IsBinary; decide)
  · exact ⟨_, .operators binary run, later⟩

theorem negation_cases {room : Nat} {ts : List Token}
    (failed : Goal.outcome ⟨.tier .negation, room, ts⟩ = .error stop) :
    Finds ⟨.tier .negation, room, ts⟩ stop ∨
      ∃ g', Calls ⟨.tier .negation, room, ts⟩ g' ∧ g'.outcome = .error stop := by
  by_cases negates : ∃ t more, ts = t :: more ∧ t.kind = .notOperator
  · obtain ⟨t, more, rfl, kind⟩ := negates
    replace failed : verdict (Tree.negated (phrase room .sum) (t :: more)) = .error stop := failed
    rw [Tree.negated, if_pos kind] at failed
    rcases verdict_andThen_eq_error.mp failed with inner | ⟨e, rest, run, high⟩
    · exact .inr ⟨_, .negated kind, inner⟩
    · obtain ⟨read, rfl, _⟩ := (phrase_reads room .sum).sound run
      rw [verdict_bounded high]
      exact .inl ⟨.after (t :: read) List.mem_cons_self _ rest, .tooHigh⟩
  · have plain : ∀ t ∈ ts.head?, t.kind ≠ .notOperator := by
      intro t first kind
      obtain ⟨more, rfl⟩ := List.head?_eq_some_iff.mp first
      exact negates ⟨t, more, rfl, kind⟩
    replace failed : verdict (Tree.negated (phrase room .sum) ts) = .error stop := failed
    rw [negated_of_plain plain] at failed
    exact .inr ⟨_, .operand (by decide) fun _ => plain, failed⟩

theorem operators_cases {tier : Tier} {left : Expression} {room : Nat} {ts : List Token}
    (failed : Goal.outcome ⟨.operators tier left, room, ts⟩ = .error stop) :
    Finds ⟨.operators tier left, room, ts⟩ stop ∨
      ∃ g', Calls ⟨.operators tier left, room, ts⟩ g' ∧ g'.outcome = .error stop := by
  replace failed : verdict (chainFrom (phrase room tier.next) (operators? tier) left ts) =
    .error stop := failed
  cases ts with
  | nil =>
    rw [chainFrom_of_stops (by simp)] at failed
    cases failed
  | cons t more =>
    cases found : operators? tier t with
    | none =>
      rw [chainFrom_of_stops (by simpa using found)] at failed
      cases failed
    | some result =>
      obtain ⟨build, op, rfl⟩ := operators?_eq_some found
      rw [chainFrom_of_operator found] at failed
      rcases verdict_andThen_eq_error.mp failed with inner | ⟨right, rest, run, later⟩
      · exact .inr ⟨_, .right op, inner⟩
      rcases verdict_andThen_eq_error.mp later with high | ⟨e, rest', node, later⟩
      · obtain ⟨read, rfl, _⟩ := (phrase_reads room tier.next).sound run
        rw [verdict_bounded high]
        exact .inl ⟨.after (t :: read) List.mem_cons_self _ rest, .tooHigh⟩
      · obtain ⟨low, rfl, rfl⟩ := bounded_eq_ok.mp node
        exact .inr ⟨_, .more op run low, later⟩

theorem finds_unexpected (room : Nat) (ts : List Token) :
    Finds ⟨.tier .primary, room, ts⟩ (.before .unexpected ts) :=
  ⟨.before [] _ ts, .unexpected⟩

theorem finds_converted {room : Nat} (read : List Token) {rest : List Token} {negative : Bool}
    {t : Token} (numeral : StartsNumber negative t (read ++ rest)) (mem : t ∈ read)
    (failed : verdict (converted t (signed negative t.text) rest) = .error stop) :
    Finds ⟨.tier .primary, room, read ++ rest⟩ stop := by
  unfold converted at failed
  split at failed
  · cases failed
  · rename_i invalid
    cases failed
    exact ⟨.after read mem _ rest, .invalidLiteral rfl numeral invalid⟩

theorem finds_numberLiteral {room : Nat} (read : List Token) {rest : List Token} {negative : Bool}
    {t : Token} (numeral : StartsNumber negative t (read ++ rest)) (mem : t ∈ read)
    (kind : Signed t.kind)
    (failed : verdict (numberLiteral t (signed negative t.text) rest) = .error stop) :
    Finds ⟨.tier .primary, room, read ++ rest⟩ stop := by
  rw [numberLiteral_of_signed kind] at failed
  exact finds_converted read numeral mem failed

theorem finds_signedNumber {room : Nat} {s : Token} {ts : List Token}
    (sign : s.kind = .binaryOperator) (failed : verdict (signedNumber s ts) = .error stop) :
    Finds ⟨.tier .primary, room, s :: ts⟩ stop := by
  unfold signedNumber at failed
  split at failed
  · cases failed
    exact finds_unexpected room [s]
  rename_i t rest
  split at failed
  · rename_i signs
    obtain ⟨text, number⟩ := signs
    have kind := takesSign_iff.mp number
    have mem : t ∈ [s, t] := by simp
    by_cases minus : s.text = "-"
    · rw [if_pos minus] at failed
      exact finds_numberLiteral [s, t] (.minus sign minus kind) mem
        kind failed
    · rw [if_neg minus] at failed
      have plus := text.resolve_right minus
      exact finds_numberLiteral [s, t] (.plus sign plus kind) mem
        kind failed
  · cases failed
    exact finds_unexpected room (s :: t :: rest)

theorem group_cases {room : Nat} {o : Token} {ts : List Token} (opening : o.kind = .openParen)
    (failed : Goal.outcome ⟨.tier .primary, room, o :: ts⟩ = .error stop) :
    Finds ⟨.tier .primary, room, o :: ts⟩ stop ∨
      ∃ g', Calls ⟨.tier .primary, room, o :: ts⟩ g' ∧ g'.outcome = .error stop := by
  cases room with
  | zero =>
    replace failed : verdict (primary none (o :: ts)) = .error stop := failed
    rw [primary, opening] at failed
    cases failed
    exact .inl ⟨.before [] _ (o :: ts), .tooManyGroups⟩
  | succ room =>
    replace failed : verdict (primary (some (Tree.expression room)) (o :: ts)) = .error stop :=
      failed
    rw [primary, opening] at failed
    rcases verdict_closed_eq_error.mp failed with inside | ⟨e, rest, run, none⟩
    · refine .inr ⟨_, .group opening, ?_⟩
      show verdict ((phrase room .joint).run ts) = _
      rw [phrase_joint]
      exact inside
    · obtain ⟨read, rfl, _⟩ := (expression_reads room).sound run
      rw [verdict_expect_eq_error none]
      exact .inl ⟨.before (o :: read) _ rest, .expected⟩

theorem primary_cases {room : Nat} {ts : List Token}
    (failed : Goal.outcome ⟨.tier .primary, room, ts⟩ = .error stop) :
    Finds ⟨.tier .primary, room, ts⟩ stop ∨
      ∃ g', Calls ⟨.tier .primary, room, ts⟩ g' ∧ g'.outcome = .error stop := by
  cases ts with
  | nil =>
    cases failed
    exact .inl (finds_unexpected room [])
  | cons t rest =>
    by_cases opening : t.kind = .openParen
    · exact group_cases opening failed
    refine .inl ?_
    replace failed : verdict (primary (below? Tree.expression room) (t :: rest)) = .error stop :=
      failed
    unfold primary at failed
    simp only at failed
    split at failed
    · contradiction
    · cases failed
    · rename_i sign
      exact finds_signedNumber sign failed
    · cases failed
    · cases failed
    · cases failed
    · rename_i kind
      split at failed
      · cases failed
      · rename_i other
        cases failed
        exact ⟨.after [t] (by simp) _ rest, .charLength (by simp) kind other⟩
    · rename_i kind
      exact finds_converted [t] (.plain (.inl kind)) (by simp) failed
    -- The kinds that take a sign are left, each with a case of its own.
    all_goals try
      rename_i kind
      have number : Signed t.kind := by simp [Signed, kind]
      exact finds_numberLiteral [t] (.plain (.inr number)) (by simp) number failed
    · cases failed
      exact finds_unexpected room (t :: rest)

/-- An error of a goal is one that it finds or one of a goal that it asks for. -/
theorem finds_or_calls (failed : g.outcome = .error stop) :
    Finds g stop ∨ ∃ g', Calls g g' ∧ g'.outcome = .error stop := by
  obtain ⟨task, room, ts⟩ := g
  cases task with
  | body inBlock => exact .inr (body_cases failed)
  | statement => exact statement_cases failed
  | operators tier left => exact operators_cases failed
  | tier tier =>
    cases tier with
    | joint | comparison | sum | product =>
      exact .inr (binary_cases (by simp [Tier.IsBinary]) failed)
    | negation => exact negation_cases failed
    | primary => exact primary_cases failed

/-! ## Descending to the goal that finds the error -/

def Task.rank : Task → Nat
  | .body _ => 8
  | .statement => 7
  | .tier place => 6 - place.rank
  | .operators _ _ => 0

/-- Tokens are read, or else the task becomes a smaller one. -/
def Goal.size (g : Goal) : Nat :=
  9 * g.tokens.length + g.task.rank

theorem Calls.suffix (calls : Calls g g') : g'.tokens <:+ g.tokens := by
  cases calls with
  | first | operand => exact List.suffix_refl _
  | next going run =>
    obtain ⟨_, read, semicolon, same, _⟩ := (statement_reads _).sound run
    exact ⟨read ++ semicolon, by rw [List.append_assoc]; exact same.symm⟩
  | block | negated | right | group => exact List.suffix_cons _ _
  | value => exact List.suffix_append _ _
  | operators binary run =>
    obtain ⟨read, same, _⟩ := (phrase_reads _ _).sound run
    exact ⟨read, same.symm⟩
  | more op run low =>
    obtain ⟨read, same, _⟩ := (phrase_reads _ _).sound run
    exact List.IsSuffix.trans ⟨read, same.symm⟩ (List.suffix_cons _ _)

theorem Calls.size_lt (calls : Calls g g') : g'.size < g.size := by
  have bound (tier : Tier) : Task.rank (.tier tier) ≤ 6 := Nat.sub_le _ _
  unfold Goal.size
  -- A call that reads no token goes to a task of a lower rank.
  cases calls with
  | first =>
    simp only [Task.rank]
    omega
  | next going run =>
    have := (Tree.statement _).moves run
    simp only
    omega
  | block | negated | group | right =>
    have := bound .joint
    have := bound .sum
    simp only [List.length_cons, Task.rank]
    omega
  | value =>
    have := bound .joint
    simp only [List.length_append, Task.rank]
    omega
  | @operand tier room ts loose =>
    have tighter : Task.rank (.tier tier.next) < Task.rank (.tier tier) := by
      cases tier <;> first | decide | exact absurd rfl loose
    simp only
    omega
  | operators binary run =>
    have := (phrase _ _).moves run
    simp only [Task.rank]
    omega
  | more op run low =>
    have := (phrase _ _).moves run
    simp only [List.length_cons, Task.rank]
    omega

theorem Comes.suffix (comes : Comes g g') : g'.tokens <:+ g.tokens := by
  induction comes with
  | refl => exact List.suffix_refl _
  | tail _ calls ih => exact calls.suffix.trans ih

theorem Comes.fails (comes : Comes g g') (failed : g'.outcome = .error stop) :
    g.outcome = .error stop := by
  induction comes using Relation.ReflTransGen.head_induction_on with
  | refl => exact failed
  | head calls _ ih => exact calls.fails ih

/-- Every error is found by one goal. -/
theorem exists_finds {g : Goal} (failed : g.outcome = .error stop) :
    ∃ h, Comes g h ∧ h.outcome = .error stop ∧ Finds h stop := by
  rcases finds_or_calls failed with finds | ⟨g', calls, failed'⟩
  · exact ⟨g, .refl, failed, finds⟩
  · obtain ⟨h, comes, found⟩ := exists_finds failed'
    exact ⟨h, .head calls comes, found⟩
termination_by g.size
decreasing_by exact calls.size_lt

end Errors

/-! ## Programs -/

/-- The goal of a program: all tokens before the end mark. -/
def program (tokens : List Token) : Goal :=
  ⟨.body false, maxGroups, tokens.takeWhile (·.kind ≠ .endOfFile)⟩

section Programs

variable {tokens : List Token}

/-- The parser does what the goal of its program does, and an error after the last token is at
the end mark. -/
theorem tree_eq (tokens : List Token) :
    match (program tokens).outcome with
    | .ok rest => ∃ tree, (Parser.ofTokens tokens).tree.1 = .ok tree ∧
        (Parser.ofTokens tokens).tree.2.rest = rest
    | .error stop => (Parser.ofTokens tokens).tree.1 =
          .error ⟨stop.cause, stop.token.getD (Parser.ofTokens tokens).marker⟩ ∧
        (Parser.ofTokens tokens).tree.2.rest = stop.rest := by
  have outcome : (program tokens).outcome = verdict (Tree.sequence (Tree.statement maxGroups)
      (fun _ => false) (tokens.takeWhile (·.kind ≠ .endOfFile))) := rfl
  have tree : (Parser.ofTokens tokens).tree =
      (Parser.ofTokens tokens).resume ((Tree.sequence (Tree.statement maxGroups) (fun _ => false)
        (tokens.takeWhile (·.kind ≠ .endOfFile))).andThen fun body rest =>
          .ok (⟨body⟩, rest)) := rfl
  rw [outcome, tree]
  generalize Tree.sequence _ _ _ = read
  cases read with
  | ok result => exact ⟨_, rfl, rfl⟩
  | error stop => exact ⟨rfl, rfl⟩

theorem exists_stop {e : ParseError} (failed : parse tokens = .error e) :
    ∃ stop, (program tokens).outcome = .error stop ∧
      e = ⟨stop.cause, stop.token.getD (Parser.ofTokens tokens).marker⟩ ∧
      (Parser.ofTokens tokens).tree.2.rest = stop.rest := by
  have same := tree_eq tokens
  cases outcome : (program tokens).outcome with
  | ok rest =>
    rw [outcome] at same
    obtain ⟨tree, ok, _⟩ := same
    cases ok.symm.trans failed
  | error stop =>
    rw [outcome] at same
    obtain ⟨error, rest⟩ := same
    exact ⟨stop, rfl, Except.error.inj (failed.symm.trans error), rest⟩

/-- The error of any goal that the parser comes to is the error of the parser. -/
theorem parse_of_comes {g : Goal} {stop : Stop} (comes : Comes (program tokens) g)
    (failed : g.outcome = .error stop) :
    parse tokens = .error ⟨stop.cause, stop.token.getD (Parser.ofTokens tokens).marker⟩ := by
  have same := tree_eq tokens
  rw [comes.fails failed] at same
  exact same.1

/-- Programs have no decidable equality, but errors have. -/
instance (tokens : List Token) (e : ParseError) : Decidable (parse tokens = .error e) :=
  match parse tokens with
  | .ok _ => isFalse nofun
  | .error other => decidable_of_iff (other = e) ⟨congrArg Except.error, Except.error.inj⟩

end Programs

end KindScript.Descent
