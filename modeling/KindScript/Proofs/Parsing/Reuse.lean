import KindScript.Proofs.Parsing.Bounds
import KindScript.Proofs.Parsing.Groups
import Mathlib.Data.List.TakeWhile

/-!
# Parsers that are asked again

A parser answers one request after another, also after errors. Of an earlier request it
keeps which tokens were read, and of one that failed how many groups were left open. It
keeps nothing else: it answers like a new parser of the tokens from its position on, in
which so many groups are open. The parser with counters is asked in the same way, and what
a failing request leaves in its second counter has no bearing on the answers.
-/

namespace KindScript.Tree

open Grammar

/-! ## Requests -/

/-- What a parser can be asked for. -/
inductive Request where
  | expression
  | tree
deriving DecidableEq, Repr

inductive Reply where
  | expression (e : Expression)
  | tree (tree : Tree)

namespace Parser

/-- The answer to a request, and the parser after it. -/
def ask (parser : Parser) : Request → Except ParseError Reply × Parser
  | .expression => (parser.expression.1.map .expression, parser.expression.2)
  | .tree => (parser.tree.1.map .tree, parser.tree.2)

/-- The parser after some requests. -/
def after (parser : Parser) : List Request → Parser
  | [] => parser
  | request :: later => (parser.ask request).2.after later

/-- The tokens that are read for a request, whether it fails or not. -/
def reads (parser : Parser) (request : Request) : List Token :=
  parser.rest.take (parser.rest.length - (parser.ask request).2.rest.length)

/-- The tokens that are read for some requests. -/
def allRead (parser : Parser) : List Request → List Token
  | [] => []
  | request :: later => parser.reads request ++ (parser.ask request).2.allRead later

/-- How many groups a request opens and does not close, if it fails. -/
def leaves (parser : Parser) (request : Request) : Nat :=
  match (parser.ask request).1 with
  | .ok _ => 0
  | .error _ => (leftOpen (parser.reads request)).length

/-- How many groups the failing ones among some requests open and do not close. -/
def allLeft (parser : Parser) : List Request → Nat
  | [] => 0
  | request :: later => parser.leaves request + (parser.ask request).2.allLeft later

/-- The tokens with an end mark after the last, unless that is one. -/
def ended (tokens : List Token) : List Token :=
  if tokens.getLast?.map (·.kind) = some .endOfFile then tokens
  else tokens ++ [.endOfFile (endOf tokens)]

/-- A new parser of the tokens from a position on, in which so many groups are open. -/
def resumed (tokens : List Token) (position nesting : Nat) : Parser :=
  { ofTokens ((ended tokens).drop position) with room := maxGroups - nesting }

/-! ## Positions -/

section Positions

variable {before later : List Token} {mark : Token}

theorem ofTokens_of_mark (plain : ∀ t ∈ before, t.kind ≠ .endOfFile)
    (kind : mark.kind = .endOfFile) :
    ofTokens (before ++ mark :: later) = ⟨before, mark, maxGroups⟩ := by
  have rest : (before ++ mark :: later).takeWhile (·.kind ≠ .endOfFile) = before := by
    rw [List.takeWhile_append_of_pos (by simpa using plain), List.takeWhile_cons_of_neg]
    · exact List.append_nil before
    · simp [kind]
  have none : before.find? (·.kind = .endOfFile) = none := by simpa using plain
  have found : (before ++ mark :: later).find? (·.kind = .endOfFile) = some mark := by
    simp [List.find?_append, none, kind]
  rw [ofTokens, rest, found]
  rfl

/-- The tokens that a parser reads and its end mark stand first in its list. -/
theorem exists_ended (tokens : List Token) :
    ∃ later, ended tokens = (ofTokens tokens).rest ++ (ofTokens tokens).marker :: later ∧
      (∀ t ∈ (ofTokens tokens).rest, t.kind ≠ .endOfFile) ∧
      (ofTokens tokens).marker.kind = .endOfFile := by
  cases found : tokens.find? (·.kind = .endOfFile) with
  | none =>
    have plain : ∀ t ∈ tokens, t.kind ≠ .endOfFile := by simpa using found
    have whole : (ofTokens tokens).rest = tokens :=
      List.takeWhile_eq_self_iff.mpr fun t mem => decide_eq_true (plain t mem)
    have mark : (ofTokens tokens).marker = .endOfFile (endOf tokens) := by
      rw [ofTokens, found]
      rfl
    have unended : tokens.getLast?.map (·.kind) ≠ some .endOfFile := by
      intro last
      obtain ⟨t, mem, kind⟩ := Option.map_eq_some_iff.mp last
      exact plain t (List.mem_of_getLast? mem) kind
    rw [ended, if_neg unended, whole, mark]
    exact ⟨[], rfl, plain, rfl⟩
  | some mark =>
    obtain ⟨kind, before, later, rfl, plain⟩ := List.find?_eq_some_iff_append.mp found
    have kind : mark.kind = .endOfFile := by simpa using kind
    have plain : ∀ t ∈ before, t.kind ≠ .endOfFile := by simpa using plain
    rw [ofTokens_of_mark plain kind, ended]
    -- After an end mark inside the list another one may be put, which nobody reads.
    split
    · exact ⟨later, rfl, plain, kind⟩
    · exact ⟨later ++ [_], List.append_assoc _ _ _, plain, kind⟩

/-- A parser that has read some of its tokens is a new one of the others. -/
theorem resumed_eq {tokens read : List Token} {parser : Parser} {nesting : Nat}
    (tokensLeft : (ofTokens tokens).rest = read ++ parser.rest)
    (marker : parser.marker = (ofTokens tokens).marker)
    (room : parser.room + nesting = maxGroups) :
    resumed tokens read.length nesting = parser := by
  obtain ⟨later, whole, plain, kind⟩ := exists_ended tokens
  rw [tokensLeft] at whole plain
  have rest : (ended tokens).drop read.length =
      parser.rest ++ (ofTokens tokens).marker :: later := by
    rw [whole, List.append_assoc, List.drop_left]
  have unread : ∀ t ∈ parser.rest, t.kind ≠ .endOfFile :=
    fun t mem => plain t (List.mem_append_right read mem)
  have left : maxGroups - nesting = parser.room := by omega
  rw [resumed, rest, ofTokens_of_mark unread kind, left, ← marker]

/-- The token at the position is the first one left, or the end mark, and the position is
not behind the first end mark. -/
theorem token_at {tokens read : List Token} {parser : Parser}
    (tokensLeft : (ofTokens tokens).rest = read ++ parser.rest)
    (marker : parser.marker = (ofTokens tokens).marker) :
    (ended tokens)[read.length]? = some (parser.rest.head?.getD parser.marker) ∧
      ∀ t ∈ (ended tokens).take read.length, t.kind ≠ .endOfFile := by
  obtain ⟨later, whole, plain, _⟩ := exists_ended tokens
  rw [tokensLeft, List.append_assoc, ← marker] at whole
  rw [whole]
  constructor
  · rw [List.getElem?_append_right (Nat.le_refl _), Nat.sub_self]
    cases parser.rest <;> rfl
  · intro t mem
    rw [List.take_left] at mem
    exact plain t (tokensLeft ▸ List.mem_append_left _ mem)

end Positions

end Parser

/-! ## Rules -/

/-- The rule for what is asked. -/
def Request.run (room : Nat) : Request → List Token → Parsed Reply
  | .expression => fun ts =>
    ((Tree.expression room).run ts).andThen fun e rest => .ok (.expression e, rest)
  | .tree => fun ts =>
    ((sequence (statement room) (fun _ => false) ts).andThen fun body rest =>
      .ok (⟨body⟩, rest)).andThen fun tree rest => .ok (.tree tree, rest)

theorem Parser.resume_map {α β : Type} (parser : Parser) (read : Parsed α) (f : α → β) :
    parser.resume (read.andThen fun value rest => .ok (f value, rest)) =
      ((parser.resume read).1.map f, (parser.resume read).2) := by
  cases read <;> rfl

theorem Parser.ask_eq (parser : Parser) (request : Request) :
    parser.ask request = parser.resume (request.run parser.room parser.rest) := by
  cases request with
  | expression => exact (parser.resume_map _ Reply.expression).symm
  | tree => exact (parser.resume_map _ Reply.tree).symm

theorem accounts_request (room : Nat) (request : Request) (ts : List Token) :
    Accounts ts (request.run room ts) := by
  cases request with
  | expression => exact (accounting_expression room ts).map Reply.expression
  | tree =>
    have body := accounts_sequence (accounting_statement room) (fun _ => false) ts
    exact (body.map Tree.mk).map Reply.tree

end KindScript.Tree

namespace KindScript.Counting

open KindScript.Tree Grammar

/-! ## Requests with counters -/

def request : Request → Reader Reply
  | .expression => do return .expression (← expression)
  | .tree => do return .tree (← program)

/-- The state after some requests. What a failing one leaves in it stays. -/
def State.after (s : State) : List Request → State
  | [] => s
  | asked :: later => (request asked s).2.after later

theorem request_agrees (room : Nat) (asked : Request) :
    Agrees room Unmeasured (asked.run room) (request asked) := by
  intro s nesting
  cases asked with
  | expression => exact (expression_agrees room s nesting).map Reply.expression
  | tree => exact (program_agrees room s nesting).map Reply.tree

/-- The state of the parser with counters goes with the parser. -/
structure Tracks (s : State) (parser : Parser) : Prop where
  rest : s.rest = parser.rest
  room : s.nesting + parser.room = maxGroups

namespace Tracks

variable {s : State} {parser : Parser}

theorem fresh (tokens : List Token) : Tracks (.fresh tokens) (.ofTokens tokens) :=
  ⟨rfl, Nat.zero_add _⟩

theorem nesting_le (h : Tracks s parser) : s.nesting ≤ maxGroups := by
  have room := h.room
  omega

theorem parser_eq (h : Tracks s parser) : s.parser parser.marker = parser := by
  have room : maxGroups - s.nesting = parser.room := by
    have room := h.room
    omega
  rw [State.parser, h.rest, room]

/-- What is left in the second counter and in the log does not matter. -/
theorem setDepth (h : Tracks s parser) (depth : Nat) (log : List Event) :
    Tracks { s with depth, log } parser :=
  ⟨h.rest, h.room⟩

end Tracks

/-- From one state and its parser to others some tokens are read and so many groups left open,
and at each event in between the first counter keeps its bound. -/
structure Follows (s : State) (parser : Parser) (s' : State) (parser' : Parser)
    (read : List Token) (left : Nat) : Prop where
  tracks : Tracks s' parser'
  marker : parser'.marker = parser.marker
  rest : parser.rest = read ++ parser'.rest
  nesting : s'.nesting = s.nesting + left
  log : ∃ new, s'.log = s.log ++ new ∧ tokensRead new = read ∧
    ∀ event ∈ new, event.nesting ≤ maxGroups

namespace Follows

variable {s s' s'' : State} {parser parser' parser'' : Parser} {read later : List Token}
  {left more : Nat}

theorem refl (tracks : Tracks s parser) : Follows s parser s parser [] 0 :=
  ⟨tracks, rfl, rfl, rfl, [], (List.append_nil _).symm, rfl, nofun⟩

theorem trans (h : Follows s parser s' parser' read left)
    (h' : Follows s' parser' s'' parser'' later more) :
    Follows s parser s'' parser'' (read ++ later) (left + more) := by
  obtain ⟨new, log, tokens, bound⟩ := h.log
  obtain ⟨new', log', tokens', bound'⟩ := h'.log
  refine ⟨h'.tracks, h'.marker.trans h.marker, ?_, ?_, new ++ new', ?_, ?_, ?_⟩
  · rw [h.rest, h'.rest, List.append_assoc]
  · rw [h'.nesting, h.nesting, Nat.add_assoc]
  · rw [log', log, List.append_assoc]
  · rw [tokensRead_append, tokens, tokens']
  · intro event mem
    rcases List.mem_append.mp mem with earlier | here
    · exact bound event earlier
    · exact bound' event here

end Follows

/-! ## One request -/

section Asked

variable {s : State} {parser : Parser}

theorem parser_of_answer {α : Type} {marker : Token} {out : Except Fault α × State}
    {answered : Except ParseError α × Parser} (h : answer marker out = some answered) :
    answered.2 = out.2.parser marker := by
  obtain ⟨result, after⟩ := out
  cases result with
  | ok value =>
    cases h
    rfl
  | error fault =>
    cases fault with
    | stop cause token =>
      cases h
      rfl
    | underflow => cases h
    | exhausted => cases h

/-- The groups that a reading says it leaves open. -/
def opened {α : Type} : Parsed α → Nat
  | .ok _ => 0
  | .error stop => stop.opened

theorem Meets.nesting_eq {α : Type} {counts : α → Nat → Prop} {read : Parsed α}
    {out : Except Fault α × State} (h : Meets counts s read out) :
    out.2.nesting = s.nesting + opened read := by
  cases h with
  | ok _ nesting _ => exact nesting
  | error stop _ _ nesting => exact nesting

theorem reads_eq {asked : Request} {read : List Token}
    (rest : parser.rest = read ++ (parser.ask asked).2.rest) : parser.reads asked = read := by
  have count : parser.rest.length - (parser.ask asked).2.rest.length = read.length := by
    have lengths := congrArg List.length rest
    rw [List.length_append] at lengths
    omega
  rw [Parser.reads, count, rest, List.take_left]

/-- The groups that a failing request leaves open among the tokens it read are those that the
rule has counted. -/
theorem leaves_eq (parser : Parser) (asked : Request) :
    parser.leaves asked = opened (asked.run parser.room parser.rest) := by
  have accounts := accounts_request parser.room asked parser.rest
  have answered := parser.ask_eq asked
  generalize asked.run parser.room parser.rest = result at accounts answered
  -- The error says how many groups are open; which tokens were read is found in what it left.
  cases accounts with
  | ok =>
    rw [Parser.leaves, answered]
    rfl
  | @error stop read kinds tokens left count =>
    have rest : (parser.ask asked).2.rest = stop.rest := by rw [answered, Parser.resume]
    have taken : parser.reads asked = read := reads_eq (by rw [rest, tokens])
    rw [Parser.leaves, taken, left.leftOpen_eq, answered]
    exact count

/-- What one request does, whether it fails or not. -/
theorem Tracks.ask (h : Tracks s parser) (asked : Request) :
    answer parser.marker (request asked s) = some (parser.ask asked) ∧
      Follows s parser (request asked s).2 (parser.ask asked).2 (parser.reads asked)
        (parser.leaves asked) := by
  have meets := request_agrees parser.room asked s h.room
  obtain ⟨new, done⟩ := meets.exact h.nesting_le parser.marker
  rw [h.parser_eq, h.rest, ← parser.ask_eq] at done
  -- The answer with counters is that of the parser, so both are left with the same tokens.
  have next := parser_of_answer done.answer
  have bound := done.groups.last.2
  have rest : (request asked s).2.rest = (parser.ask asked).2.rest := by
    rw [next]
    rfl
  have tokens : parser.rest = tokensRead new ++ (parser.ask asked).2.rest := by
    rw [← rest, ← done.tokens, h.rest]
  have taken := reads_eq tokens
  refine ⟨done.answer, ⟨⟨rest, ?_⟩, ?_, ?_, ?_, new, done.log, taken.symm, ?_⟩⟩
  · rw [next]
    exact Nat.add_sub_cancel' bound
  · rw [next]
    rfl
  · rw [taken]
    exact tokens
  · rw [meets.nesting_eq, leaves_eq, h.rest]
  · intro event mem
    obtain ⟨before, after, rfl⟩ := List.append_of_mem mem
    have head : before ++ [event] <+: before ++ event :: after := ⟨after, by simp⟩
    exact (done.groups.events before event head).2

end Asked

/-- What a run of requests does, failing ones among them. -/
theorem Tracks.run {s : State} {parser : Parser} (h : Tracks s parser) (requests : List Request) :
    Follows s parser (s.after requests) (parser.after requests) (parser.allRead requests)
      (parser.allLeft requests) := by
  induction requests generalizing s parser with
  | nil => exact .refl h
  | cons asked later ih =>
    have first := (h.ask asked).2
    exact first.trans (ih first.tracks)

end KindScript.Counting

namespace KindScript.Tree

open Counting Grammar

/-- A parser can be asked again after errors, up to the groups left open. After any requests
it stands inside its list, at the first end mark at the latest, and its counter of groups has
kept its bounds at every moment: it is the number of groups that failing requests left open.
Such a parser answers like a new one of the tokens from its position on in which so many
groups are open, whatever the other counter is, and where it does not fail the counter of
groups stays the same. -/
theorem Parser.ask_after (tokens : List Token) (earlier : List Request) (next : Request) :
    let start := Parser.ofTokens tokens
    let parser := start.after earlier
    let position := (start.allRead earlier).length
    let k := start.allLeft earlier
    let s := (State.fresh tokens).after earlier
    ((ended tokens)[position]? = some (parser.rest.head?.getD parser.marker) ∧
      ∀ t ∈ (ended tokens).take position, t.kind ≠ .endOfFile) ∧
    (tokensRead s.log = start.allRead earlier ∧ s.nesting = k ∧ k ≤ maxGroups ∧
      ∀ event ∈ s.log, event.nesting ≤ maxGroups) ∧
    parser.ask next = (resumed tokens position k).ask next ∧
    (∀ depth log, answer start.marker (request next { s with depth, log }) =
      some (parser.ask next)) ∧
    ∀ reply, (parser.ask next).1 = .ok reply → (request next s).2.nesting = k := by
  intro start parser position k s
  have run : Follows (State.fresh tokens) start s parser (start.allRead earlier) k :=
    (Tracks.fresh tokens).run earlier
  have nesting : s.nesting = k := by
    rw [run.nesting]
    exact Nat.zero_add k
  refine ⟨token_at run.rest run.marker, ⟨?_, nesting, ?_, ?_⟩, ?_, ?_, ?_⟩
  · obtain ⟨new, log, read, _⟩ := run.log
    rw [log]
    exact read
  · rw [← nesting]
    exact run.tracks.nesting_le
  · obtain ⟨new, log, _, bound⟩ := run.log
    rw [log]
    exact bound
  · rw [resumed_eq run.rest run.marker]
    rw [← nesting, Nat.add_comm]
    exact run.tracks.room
  · intro depth log
    rw [← run.marker]
    exact ((run.tracks.setDepth depth log).ask next).1
  · intro reply done
    have none : parser.leaves next = 0 := by rw [Parser.leaves, done]
    rw [(run.tracks.ask next).2.nesting, none, nesting, Nat.add_zero]

/-- Of `(a b)`, where the group is not closed after `a` and `b` is asked for next. -/
theorem Parser.ask_after_unclosed :
    let place := Position.first
    let close : Token := ⟨.closeParen, ")", place, place⟩
    let tokens : List Token := [⟨.openParen, "(", place, place⟩,
      ⟨.identifier, "a", place, place⟩, ⟨.identifier, "b", place, place⟩, close]
    (ofTokens tokens).allLeft [.expression] = 1 ∧
      (resumed tokens 2 1).ask .expression =
        (.ok (.expression (.identifier "b")), ⟨[close], .endOfFile place, 127⟩) := by
  intro place close tokens
  obtain ⟨_, ⟨read, open', _⟩, same, answers, _⟩ :=
    ask_after tokens [.expression] .expression
  have left : (ofTokens tokens).allLeft [.expression] = 1 := open'.symm
  have position : ((ofTokens tokens).allRead [.expression]).length = 2 :=
    (congrArg List.length read).symm
  have name : some (((ofTokens tokens).after [.expression]).ask .expression) =
      some (.ok (.expression (.identifier "b")), ⟨[close], .endOfFile place, 127⟩) :=
    (answers 0 []).symm
  rw [position, left] at same
  exact ⟨left, same.symm.trans (Option.some.inj name)⟩

end KindScript.Tree
