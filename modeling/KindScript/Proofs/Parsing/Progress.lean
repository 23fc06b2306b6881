import KindScript.Proofs.Parsing.Correspondence
import KindScript.Proofs.Parsing.Descent

/-!
# Progress

However malformed a list of tokens is, reading it by position ends, since nothing is read again
at a place where it was read before. A statement or an expression that is read leads at least
one token further on, no reading goes past the first end mark, and what stands behind that mark
has no bearing on any answer.
-/

namespace KindScript.Tree.Parser

/-- The answers to requests one after another. -/
def answers (parser : Parser) : List Request → List (Except ParseError Reply)
  | [] => []
  | asked :: later => (parser.ask asked).1 :: (parser.ask asked).2.answers later

/-- The groups that a request leaves open are taken from the room. -/
theorem room_ask (parser : Parser) (asked : Request) (le : parser.room ≤ maxGroups) :
    (parser.ask asked).2.room + Counting.opened (asked.run parser.room parser.rest) =
      parser.room := by
  let s : Counting.State := ⟨parser.rest, maxGroups - parser.room, 0, []⟩
  have tracks : Counting.Tracks s parser := ⟨rfl, Nat.sub_add_cancel le⟩
  have follows := (tracks.ask asked).2
  have nesting := follows.nesting
  have room := follows.tracks.room
  have start := tracks.room
  rw [Counting.leaves_eq] at nesting
  omega

end KindScript.Tree.Parser

namespace KindScript.Walking

open KindScript.Tree Grammar
open Counting (phrase phrase_joint)
open Descent (operators? operators?_eq_some)

/-! ## One reading -/

/-- A reading from a state on, where the first end mark stands at the limit. It ends at the
limit at the latest and, unless it fails, further on than it began, and it fails only with an
error in the tokens. -/
structure Progresses {α : Type} (limit : Nat) (s : State) (out : Except Fault α × State) :
    Prop where
  inside : out.2.position ≤ limit
  further : ∀ value, out.1 = .ok value → s.position < out.2.position
  fault : ∀ fault, out.1 = .error fault → ∃ e, fault = .error e

/-- A turn of a loop that is not the last one leads further on, to the limit at most. -/
def Turns {α : Type} (limit : Nat) (turn : α → Walker (Option α)) (s : State) : Prop :=
  ∀ value next after, turn value s = (.ok (some next), after) →
    s.position < after.position ∧ after.position ≤ limit

section Reading

variable {α : Type} {input : Input} {s : State} {ts : List Token}

theorem Input.Stands.of_le (inside : s.position ≤ input.body.length) :
    input.Stands s (input.body.drop s.position) :=
  ⟨input.body.take s.position, (List.take_append_drop _ _).symm,
    (List.length_take_of_le inside).symm⟩

theorem Meets.progresses {rule : Rule α} {out : Except Fault α × State}
    (meets : Meets input s.nesting (rule.run ts) out) (here : input.Stands s ts) :
    Progresses input.body.length s out := by
  have start := here.length_eq
  generalize run : rule.run ts = result at meets
  cases meets with
  | @ok value rest s' there _ =>
    have stop := there.length_eq
    have fewer := rule.moves run
    refine ⟨?_, fun _ _ => ?_, ?_⟩
    · show s'.position ≤ _
      omega
    · show s.position < s'.position
      omega
    · rintro fault ⟨⟩
  | error stop there _ =>
    refine ⟨?_, nofun, ?_⟩
    · exact (Nat.le_add_right _ _).trans_eq there.length_eq
    · rintro fault ⟨⟩
      exact ⟨_, rfl⟩

theorem Input.Stands.eq {s' : State} (here : input.Stands s ts) (there : input.Stands s' ts)
    (same : s.nesting = s'.nesting) : s = s' := by
  have before := here.length_eq
  have after := there.length_eq
  ext
  · omega
  · exact same

/-- A rule determines what a reading does that agrees with it. -/
theorem Meets.unique {nesting : Nat} {result : Parsed α} {out out' : Except Fault α × State}
    (meets : Meets input nesting result out) (meets' : Meets input nesting result out') :
    out = out' := by
  cases meets with
  | ok there same =>
    cases meets' with
    | ok there' same' => rw [there.eq there' (same.trans same'.symm)]
  | error stop there opened =>
    cases meets' with
    | error stop there' opened' => rw [there.eq there' (opened.trans opened'.symm)]

end Reading

section Agreeing

variable {α : Type} {input : Input} {s : State} (inside : s.position ≤ input.body.length)
  (nesting : s.nesting ≤ maxGroups)
include inside nesting

theorem Agrees.meets {rule : List Token → Parsed α} {walker : Walker α}
    (agrees : Agrees input (input.body.length + 1) (maxGroups - s.nesting) rule walker) :
    Meets input s.nesting (rule (input.body.drop s.position)) (walker s) := by
  refine agrees s _ ?_ (.of_le inside) (Nat.add_sub_of_le nesting)
  rw [List.length_drop]
  omega

theorem Agrees.progresses {rule : Rule α} {walker : Walker α}
    (agrees : Agrees input (input.body.length + 1) (maxGroups - s.nesting) rule.run walker) :
    Progresses input.body.length s (walker s) :=
  (agrees.meets inside nesting).progresses (.of_le inside)

/-- An expression is read by the loosest tier, with expressions in its parentheses: that they
stand further on needs no test. -/
theorem expression_eq : expression input.tokens s = tier input.tokens .joint s := by
  refine ((expression_agrees _ _).meets inside nesting).unique ?_
  rw [← phrase_joint]
  exact (tier_agrees .joint).meets inside nesting

theorem statement_eq : statement input.tokens s =
    statementOver input.tokens (statement input.tokens) s := by
  refine ((statement_agrees _ _).meets inside nesting).unique ?_
  rw [Counting.statement_eq]
  exact (statementOver_agrees (.of_agrees statement_agrees _ _)).meets inside nesting

theorem progresses_descend {opening : Token.Kind} (plain : opening ≠ .endOfFile) :
    Progresses input.body.length s (descend input.tokens opening s) := by
  have here := Input.Stands.of_le inside
  rcases Nat.lt_or_eq_of_le nesting with room | full
  · let open' : State := { s with nesting := s.nesting + 1 }
    let rule : Rule Token := ⟨expect opening, expect_moves⟩
    have meets : Meets input open'.nesting (rule.run _) _ := meets_eat plain here
    have reads := meets.progresses here
    rw [descend_of_room room]
    exact ⟨reads.inside, reads.further, reads.fault⟩
  · rw [descend_of_full here full]
    refine ⟨inside, nofun, ?_⟩
    rintro fault ⟨⟩
    exact ⟨_, rfl⟩

theorem statements_turn (ends : Token → Bool) :
    Turns input.body.length (another input.tokens (statement input.tokens) ends) s := by
  have item := (statement_agrees _ _).progresses inside nesting
  intro body more after turn
  rw [another, bind_of_ok (Input.Stands.of_le inside).current] at turn
  split at turn
  · cases turn
  · rcases run : statement input.tokens s with ⟨fault | statement, after⟩
    · rw [bind_of_error run] at turn
      cases turn
    · rw [bind_of_ok run] at turn
      rw [run] at item
      cases turn
      exact ⟨item.further _ rfl, item.inside⟩

theorem operations_turn (level : Tier) :
    Turns input.body.length
      (operation input.tokens (tier input.tokens level.next) (operators? level)) s := by
  intro left e after turn
  have here := Input.Stands.of_le inside
  generalize input.body.drop s.position = ts at here
  cases found : operators? level (ts.head?.getD input.mark) with
  | none =>
    rw [operation, bind_of_ok here.current, found] at turn
    cases turn
  | some result =>
    obtain ⟨build, op, rfl⟩ := operators?_eq_some found
    cases ts with
    | nil => exact absurd op.kind_mem (by rw [List.head?_nil, Option.getD_none, input.ends]; decide)
    | cons t rest =>
      have there : s.advanced.position ≤ input.body.length :=
        (Nat.le_add_right _ _).trans_eq here.advanced.length_eq
      have operand := (tier_agrees level.next).progresses there nesting
      rw [operation_of_operator here found] at turn
      rcases run : tier input.tokens level.next s.advanced with ⟨fault | right, after⟩
      · rw [bind_of_error run] at turn
        cases turn
      · rw [bind_of_ok run, bounded] at turn
        rw [run] at operand
        split at turn
        · cases turn
          exact ⟨Nat.lt_of_succ_lt (operand.further _ rfl), operand.inside⟩
        · cases turn

end Agreeing

/-! ## Requests -/

/-- The state of the reading goes with the parser. -/
structure Tracks (input : Input) (s : State) (parser : Parser) : Prop where
  stands : input.Stands s parser.rest
  marker : parser.marker = input.mark
  room : s.nesting + parser.room = maxGroups

namespace Tracks

variable {input : Input} {s : State} {parser : Parser}

/-- What one request does, whether it fails or not. -/
theorem ask (h : Tracks input s parser) (asked : Request) :
    (request input.tokens asked s).1 = (parser.ask asked).1.mapError Fault.error ∧
      Tracks input (request input.tokens asked s).2 (parser.ask asked).2 := by
  have meets := request_agrees asked _ parser.room s parser.rest (Nat.lt_succ_self _) h.stands
    h.room
  have left := parser.room_ask asked ((Nat.le_add_left _ _).trans_eq h.room)
  have room := h.room
  rw [parser.ask_eq] at left ⊢
  generalize request input.tokens asked s = out at meets
  generalize asked.run parser.room parser.rest = result at meets left
  cases meets with
  | ok there same =>
    refine ⟨rfl, there, h.marker, ?_⟩
    rw [same]
    exact room
  | @error stop s' there opened =>
    refine ⟨?_, there, h.marker, ?_⟩
    · rw [Parser.resume, h.marker]
      rfl
    · change (parser.resume (.error stop : Parsed Reply)).2.room + stop.opened = _ at left
      show s'.nesting + (parser.resume (.error stop : Parsed Reply)).2.room = maxGroups
      omega

theorem answers_eq (h : Tracks input s parser) (requests : List Request) :
    answers input.tokens s requests =
      (parser.answers requests).map (·.mapError Fault.error) := by
  induction requests generalizing s parser with
  | nil => rfl
  | cons asked later ih =>
    obtain ⟨answer, next⟩ := h.ask asked
    rw [answers, Parser.answers, List.map_cons, answer, ih next]

theorem after (h : Tracks input s parser) (requests : List Request) :
    Tracks input (s.after input.tokens requests) (parser.after requests) := by
  induction requests generalizing s parser with
  | nil => exact h
  | cons asked later ih => exact ih (h.ask asked).2

end Tracks

/-- A list with an end mark where it lacks one, cut at the first of them. -/
theorem exists_input (tokens : List Token) : ∃ input : Input,
    input.tokens = Parser.ended tokens ∧ input.body = (Parser.ofTokens tokens).rest ∧
      Tracks input .fresh (.ofTokens tokens) := by
  obtain ⟨later, whole, plain, kind⟩ := Parser.exists_ended tokens
  exact ⟨⟨_, _, later, plain, kind⟩, whole.symm, rfl, ⟨[], rfl, rfl⟩, rfl, Nat.zero_add _⟩

/-- Reading a list of tokens ends, and takes a token at least for each statement and each
expression. At every place up to the first end mark and in any number of groups a statement,
an expression or a tier of expressions is read further on and never past the mark, or fails
with an error in the tokens. So does every turn of a loop lead further on and every step into a
group, no reading is stuck, and phrases that stand inside themselves need no test of that. Read
in this way a list gives the answers of the parser to every run of requests and is left where
the parser leaves it, and no answer depends on what follows the first end mark. -/
theorem walks_onwards (tokens : List Token) :
    let whole := Parser.ended tokens
    let start := Parser.ofTokens tokens
    let limit := start.rest.length
    (whole[limit]? = some start.marker ∧ start.marker.kind = .endOfFile ∧
      ∀ t ∈ whole.take limit, t.kind ≠ .endOfFile) ∧
    (∀ s : State, s.position ≤ limit → s.nesting ≤ maxGroups →
      Progresses limit s (statement whole s) ∧ Progresses limit s (expression whole s) ∧
      (∀ level, Progresses limit s (tier whole level s)) ∧
      (∀ ends, Turns limit (another whole (statement whole) ends) s) ∧
      (∀ level, Turns limit (operation whole (tier whole level.next) (operators? level)) s) ∧
      (∀ opening, opening ≠ .endOfFile → Progresses limit s (descend whole opening s)) ∧
      statement whole s = statementOver whole (statement whole) s ∧
      expression whole s = tier whole .joint s) ∧
    (∀ requests,
      answers whole .fresh requests = (start.answers requests).map (·.mapError Fault.error) ∧
      (State.fresh.after whole requests).position + (start.after requests).rest.length = limit) ∧
    ∀ p e q, (∀ t ∈ p, t.kind ≠ .endOfFile) → e.kind = .endOfFile → tokens = p ++ e :: q →
      ∀ requests, start.answers requests = (Parser.ofTokens (p ++ [e])).answers requests ∧
        answers whole .fresh requests = answers (Parser.ended (p ++ [e])) .fresh requests := by
  intro whole start limit
  obtain ⟨input, list, body, tracks⟩ : ∃ input : Input, input.tokens = whole ∧
    input.body = start.rest ∧ Tracks input .fresh start := exists_input tokens
  have limited : limit = input.body.length := congrArg List.length body.symm
  refine ⟨⟨?_, ?_, ?_⟩, ?_, ?_, ?_⟩
  · rw [← list, limited, tracks.marker, Input.tokens,
      List.getElem?_append_right (Nat.le_refl _), Nat.sub_self]
    rfl
  · rw [tracks.marker]
    exact input.ends
  · rw [← list, limited, Input.tokens, List.take_left]
    exact input.plain
  · intro s inside nesting
    rw [limited] at inside ⊢
    rw [← list]
    exact ⟨(statement_agrees _ _).progresses inside nesting,
      (expression_agrees _ _).progresses inside nesting,
      fun level => (tier_agrees level).progresses inside nesting,
      statements_turn inside nesting, operations_turn inside nesting,
      fun _ => progresses_descend inside nesting,
      statement_eq inside nesting, expression_eq inside nesting⟩
  · intro requests
    rw [← list, limited]
    exact ⟨tracks.answers_eq requests, (tracks.after requests).stands.length_eq⟩
  · intro p e q plain kind split requests
    have same : start = Parser.ofTokens (p ++ [e]) := by
      show Parser.ofTokens tokens = _
      rw [split, Parser.ofTokens_of_mark plain kind, Parser.ofTokens_of_mark plain kind]
    refine ⟨by rw [same], ?_⟩
    obtain ⟨input', list', _, tracks'⟩ := exists_input (p ++ [e])
    rw [← list, ← list', tracks.answers_eq, tracks'.answers_eq, same]

/-- Of `( a`, where the group is not closed before the end mark but behind it. -/
theorem walks_onwards_unclosed :
    let place := Position.first
    let mark : Token := .endOfFile place
    let close : Token := ⟨.closeParen, ")", place, place⟩
    let p : List Token := [⟨.openParen, "(", place, place⟩, ⟨.identifier, "a", place, place⟩]
    Progresses 2 .fresh (expression (Parser.ended (p ++ mark :: [close])) .fresh) ∧
      answers (Parser.ended (p ++ mark :: [close])) .fresh [.expression] =
        answers (Parser.ended (p ++ [mark])) .fresh [.expression] ∧
      answers (Parser.ended (p ++ [mark])) .fresh [.expression] =
        [.error (.error ⟨.expected .closeParen, mark⟩)] := by
  intro place mark close p
  obtain ⟨_, reads, _, cut⟩ := walks_onwards (p ++ mark :: [close])
  obtain ⟨_, _, requests, _⟩ := walks_onwards (p ++ [mark])
  have asked := ((Counting.Tracks.fresh (p ++ [mark])).ask .expression).1
  have refused : ((Parser.ofTokens (p ++ [mark])).ask .expression).1 =
      .error ⟨.expected .closeParen, mark⟩ := (congrArg Prod.fst (Option.some.inj asked)).symm
  have plain : ∀ t ∈ p, t.kind ≠ .endOfFile := by decide
  have limit : (Parser.ofTokens (p ++ mark :: [close])).rest.length = 2 := by
    rw [Parser.ofTokens_of_mark plain rfl]
    rfl
  have same := (cut p mark [close] plain rfl rfl [.expression]).2
  refine ⟨?_, same, ?_⟩
  · rw [← limit]
    exact (reads .fresh (Nat.zero_le _) (Nat.zero_le _)).2.1
  · rw [(requests [.expression]).1, Parser.answers, refused]
    rfl

end KindScript.Walking
