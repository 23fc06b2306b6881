import KindScript.Proofs.Parsing.Recognition

/-!
# Groups left open

Which groups a list of tokens opens and does not close. What a rule of the parser reads
closes every group that it opens. Where a rule stops with an error it has read some of the
tokens as well, and the groups that it counts are those that these tokens leave open.
-/

namespace KindScript.Grammar

open KindScript.Tree

/-! ## Open groups -/

/-- The tokens that the open groups wait for, the innermost group first, after one more
token. A token that closes another group than the innermost one closes none. -/
def awaitedAfter (awaited : List Token.Kind) (t : Token) : List Token.Kind :=
  match t.kind with
  | .openParen => .closeParen :: awaited
  | .openBrace => .closeBrace :: awaited
  | .closeParen | .closeBrace => if awaited.head? = some t.kind then awaited.tail else awaited
  | _ => awaited

/-- One for each group that the tokens open and do not close. -/
def leftOpen (ts : List Token) : List Token.Kind :=
  ts.foldl awaitedAfter []

/-- Inside any groups the tokens leave these ones open and close none of the others. -/
def Awaits (ts : List Token) (kinds : List Token.Kind) : Prop :=
  ∀ outer, ts.foldl awaitedAfter outer = kinds ++ outer

/-- The token opens a group that a token of the kind closes. -/
def Pairs (o : Token) (close : Token.Kind) : Prop :=
  (o.kind = .openParen ∧ close = .closeParen) ∨ (o.kind = .openBrace ∧ close = .closeBrace)

namespace Awaits

variable {ts us : List Token} {kinds kinds' : List Token.Kind}

theorem leftOpen_eq (h : Awaits ts kinds) : leftOpen ts = kinds := by
  rw [leftOpen, h, List.append_nil]

theorem nil : Awaits [] [] :=
  fun _ => rfl

theorem append (h : Awaits ts kinds) (h' : Awaits us kinds') :
    Awaits (ts ++ us) (kinds' ++ kinds) := by
  intro outer
  rw [List.foldl_append, h, h', List.append_assoc]

theorem single {t : Token} (plain : t.kind ∉ groupKinds) : Awaits [t] [] := by
  intro outer
  show awaitedAfter outer t = outer
  unfold awaitedAfter
  split <;> simp_all [groupKinds]

/-- A group that is opened first is the outermost of those left open. -/
theorem opening {o : Token} {close : Token.Kind} (pairs : Pairs o close) (h : Awaits ts kinds) :
    Awaits (o :: ts) (kinds ++ [close]) := by
  have first : Awaits [o] [close] := by
    intro outer
    rcases pairs with ⟨kind, rfl⟩ | ⟨kind, rfl⟩ <;> simp [awaitedAfter, kind]
  exact first.append h

/-- The token that a group waits for closes it. -/
theorem closing {c : Token} {close : Token.Kind} (closes : c.kind = close)
    (bracket : close = .closeParen ∨ close = .closeBrace) (h : Awaits ts [close]) :
    Awaits (ts ++ [c]) [] := by
  intro outer
  rw [List.foldl_append, h]
  rcases bracket with rfl | rfl <;> simp [awaitedAfter, closes]

theorem group {o c : Token} {close : Token.Kind} (pairs : Pairs o close) (closes : c.kind = close)
    (h : Awaits ts []) : Awaits (o :: (ts ++ [c])) [] := by
  have bracket : close = .closeParen ∨ close = .closeBrace := pairs.imp And.right And.right
  exact (h.opening pairs).closing closes bracket

end Awaits

/-! ## Readings -/

/-- What is read of the tokens leaves no group open, and where the reading stops as many as
the error says. -/
inductive Accounts {α : Type} (ts : List Token) : Parsed α → Prop where
  | ok {value : α} {read rest : List Token} (tokens : ts = read ++ rest)
    (closed : Awaits read []) : Accounts ts (.ok (value, rest))
  | error {stop : Stop} {read : List Token} {kinds : List Token.Kind}
    (tokens : ts = read ++ stop.rest) (left : Awaits read kinds)
    (count : kinds.length = stop.opened) : Accounts ts (.error stop)

/-- The rule accounts for the groups in all that it reads. -/
def Accounting {α : Type} (rule : Rule α) : Prop :=
  ∀ ts, Accounts ts (rule.run ts)

namespace Accounts

variable {α β : Type} {ts rest : List Token} {result : Parsed α}

/-- A reading of the tokens after some that leave no group open. -/
theorem after {read : List Token} (tokens : ts = read ++ rest) (closed : Awaits read [])
    (h : Accounts rest result) : Accounts ts result := by
  cases h with
  | ok tokens' closed' =>
    rw [tokens', ← List.append_assoc] at tokens
    exact .ok tokens (closed.append closed')
  | error tokens' left count =>
    rw [tokens', ← List.append_assoc] at tokens
    have both := closed.append left
    rw [List.append_nil] at both
    exact .error tokens both count

theorem cons {t : Token} (plain : t.kind ∉ groupKinds) (h : Accounts rest result) :
    Accounts (t :: rest) result :=
  h.after rfl (.single plain)

/-- Nothing is read. -/
theorem done {value : α} : Accounts ts (.ok (value, ts)) :=
  .ok rfl .nil

/-- A reading that stops where it stands. -/
theorem stopped {stop : Stop} (here : stop.rest = ts) (none : stop.opened = 0) :
    Accounts ts (.error stop : Parsed α) := by
  have tokens : ts = [] ++ stop.rest := here.symm
  exact .error tokens .nil none.symm

/-- A reading that goes on after a value. -/
theorem resumed {value : α} {later : Parsed β} (first : Accounts ts (.ok (value, rest)))
    (h : Accounts rest later) : Accounts ts later := by
  cases first with
  | ok tokens closed => exact h.after tokens closed

/-- The error of a part is the error of the whole. -/
theorem failed {stop : Stop} (part : Accounts ts (.error stop : Parsed α)) :
    Accounts ts (.error stop : Parsed β) := by
  cases part with
  | error tokens left count => exact .error tokens left count

theorem andThen {next : α → List Token → Parsed β} (first : Accounts ts result)
    (later : ∀ value rest, Accounts rest (next value rest)) : Accounts ts (result.andThen next) := by
  cases first with
  | ok tokens closed => exact (later _ _).after tokens closed
  | error tokens left count => exact .error tokens left count

theorem map (first : Accounts ts result) (f : α → β) :
    Accounts ts (result.andThen fun value rest => .ok (f value, rest)) :=
  first.andThen fun _ _ => .done

/-- The token that opens a group is read already. The group is left open by all that stops
inside it. -/
theorem closed {inside : List Token → Parsed α} {o : Token} {close : Token.Kind}
    (pairs : Pairs o close) (inner : Accounts ts (inside ts)) :
    Accounts (o :: ts) (Tree.closed inside close ts) := by
  unfold Tree.closed
  generalize inside ts = result at inner
  cases inner with
  | @error stop read kinds tokens left count =>
    refine .error (congrArg (o :: ·) tokens) (left.opening pairs) ?_
    show (kinds ++ [close]).length = stop.opened + 1
    rw [List.length_append, count]
    rfl
  | @ok value read rest tokens whole =>
    -- Where the closing token is missing, the inside is whole and the group alone is open.
    have unclosed : Accounts (o :: ts)
        (.error (Stop.before (.expected close) rest).inGroup : Parsed α) :=
      .error (congrArg (o :: ·) tokens) (whole.opening pairs) rfl
    cases rest with
    | nil => exact unclosed
    | cons c rest =>
      by_cases closes : c.kind = close
      · simp only [Parsed.andThen, expect, if_pos closes]
        refine .ok ?_ (whole.group pairs closes)
        rw [tokens, List.cons_append, List.append_assoc]
        rfl
      · simp only [Parsed.andThen, expect, if_neg closes]
        exact unclosed

end Accounts

section Words

variable {t : Token} {rest : List Token}

theorem accounts_expect {kind : Token.Kind} (plain : kind ∉ groupKinds) (ts : List Token) :
    Accounts ts (expect kind ts) := by
  cases ts with
  | nil => exact .stopped rfl rfl
  | cons t rest =>
    rw [expect]
    split
    · rename_i fits
      exact .cons (fits ▸ plain) .done
    · exact .stopped rfl rfl

theorem accounts_converted (text : String) (plain : t.kind ∉ groupKinds) :
    Accounts (t :: rest) (converted t text rest) := by
  apply Accounts.cons plain
  unfold converted
  split
  · exact .done
  · exact .stopped rfl rfl

theorem accounts_numberLiteral (text : String) (plain : t.kind ∉ groupKinds) :
    Accounts (t :: rest) (numberLiteral t text rest) := by
  unfold numberLiteral
  split
  · exact accounts_converted text plain
  · exact .cons plain (.stopped rfl rfl)

theorem accounts_signedNumber {sign : Token} (kind : sign.kind = .binaryOperator)
    (ts : List Token) : Accounts (sign :: ts) (signedNumber sign ts) := by
  cases ts with
  | nil => exact .stopped rfl rfl
  | cons t rest =>
    rw [signedNumber]
    split
    · rename_i signs
      have number : t.kind ∉ groupKinds := (takesSign_iff.mp signs.2).not_group
      exact .cons (by rw [kind]; decide) (accounts_numberLiteral _ number)
    · exact .stopped rfl rfl

theorem accounts_bounded (e : Expression) (op : Token) (ts : List Token) :
    Accounts ts (bounded e op ts) := by
  unfold bounded
  split
  · exact .done
  · exact .stopped rfl rfl

end Words

/-! ## Expressions -/

section Expressions

variable {group : Option (Rule Expression)} {operand : Rule Expression}

theorem accounts_primary (groups : ∀ inner ∈ group, Accounting inner) (ts : List Token) :
    Accounts ts (primary group ts) := by
  cases ts with
  | nil => exact .stopped rfl rfl
  | cons t rest =>
    unfold primary
    dsimp only
    cases kind : t.kind with
    | openParen =>
      cases group with
      | none => exact .stopped rfl rfl
      | some inner => exact .closed (.inl ⟨kind, rfl⟩) (groups inner rfl rest)
    | identifier | boolean | null | string => exact .cons (by rw [kind]; decide) .done
    | binaryOperator => exact accounts_signedNumber kind rest
    | byte => exact accounts_converted t.text (by rw [kind]; decide)
    | integer | long | float | double => exact accounts_numberLiteral t.text (by rw [kind]; decide)
    | char =>
      apply Accounts.cons (by rw [kind]; decide)
      dsimp only
      split
      · exact .done
      · exact .stopped rfl rfl
    | _ => exact .stopped rfl rfl

theorem accounts_chainFrom {operator? : Operators} {tier : Tier}
    (operands : Accounting operand) (table : Tabulates operator? tier) (left : Expression)
    (ts : List Token) : Accounts ts (chainFrom operand operator? left ts) := by
  have plain {t : Token} {result} (op : operator? t = some result) : t.kind ∉ groupKinds := by
    obtain ⟨build, op, _⟩ := table.mp op
    exact op.not_group
  -- An operator is read before its operand, also where the operand or the node then fails.
  fun_induction chainFrom operand operator? left ts with
  | case1 => exact .done
  | case2 => exact .done
  | case3 left t more cause op => exact .cons (plain op) (.stopped rfl rfl)
  | case4 left t more build op stop failed =>
    exact .cons (plain op) (failed ▸ operands more)
  | case5 left t more build op right rest step low ih =>
    exact .cons (plain op) (.resumed (step ▸ operands more) ih)
  | case6 left t more build op right rest step high =>
    exact .cons (plain op) (.resumed (step ▸ operands more) (.stopped rfl rfl))

theorem accounting_chain {operator? : Operators} {tier : Tier} (operands : Accounting operand)
    (table : Tabulates operator? tier) : Accounting (chain operator? operand) :=
  fun ts => (operands ts).andThen (accounts_chainFrom operands table)

theorem accounts_negated (operands : Accounting operand) (ts : List Token) :
    Accounts ts (negated operand ts) := by
  cases ts with
  | nil => exact operands []
  | cons t more =>
    rw [negated]
    split
    · rename_i kind
      apply Accounts.cons (by rw [kind]; decide)
      exact (operands more).andThen fun e rest => accounts_bounded (.not e) t rest
    · exact operands (t :: more)

theorem accounting_expressionOver (groups : ∀ inner ∈ group, Accounting inner) :
    Accounting (expressionOver group) := by
  have primaries : Accounting ⟨primary group, primary_moves⟩ := accounts_primary groups
  have products := accounting_chain primaries multiplicative?_tabulates
  have sums := accounting_chain products additive?_tabulates
  have negations : Accounting ⟨negated _, negated_moves⟩ := accounts_negated sums
  have comparisons := accounting_chain negations comparison?_tabulates
  exact accounting_chain comparisons joint?_tabulates

theorem accounting_expression (room : Nat) : Accounting (expression room) := by
  induction room with
  | zero => exact accounting_expressionOver nofun
  | succ room ih =>
    apply accounting_expressionOver
    intro inner mem
    cases mem
    exact ih

end Expressions

/-! ## Statements -/

section Statements

variable {value : Rule Expression} {item : Rule Statement} {inner : Option (Rule Statement)}

theorem accounts_sequence (items : Accounting item) (ends : Token → Bool) (ts : List Token) :
    Accounts ts (sequence item ends ts) := by
  fun_induction sequence item ends ts with
  | case1 => exact .done
  | case2 => exact .done
  | case3 t more _ stop failed => exact .failed (failed ▸ items (t :: more))
  | case4 t more _ value rest step ih => exact .resumed (step ▸ items (t :: more)) (ih.map _)

theorem accounts_block (items : ∀ item ∈ inner, Accounting item) {brace : Token}
    (kind : brace.kind = .openBrace) (ts : List Token) :
    Accounts (brace :: ts) (block inner brace ts) := by
  cases inner with
  | none => exact .stopped rfl rfl
  | some item =>
    have body := accounts_sequence (items item rfl) (fun t => t.kind = .closeBrace) ts
    exact (Accounts.closed (.inr ⟨kind, rfl⟩) body).map Statement.block

theorem accounts_skipSemicolon (s : Statement) (ts : List Token) :
    Accounts ts (.ok (s, skipSemicolon ts)) := by
  cases ts with
  | nil => exact .done
  | cons t rest =>
    rw [skipSemicolon]
    split
    · rename_i kind
      exact .cons (by rw [kind]; decide) .done
    · exact .done

variable (values : Accounting value)
include values

theorem accounts_assignment (name : String) (op : Token) (ts : List Token) :
    Accounts ts (assignment value name op ts) := by
  unfold assignment
  split
  · exact (values ts).map _
  · exact .done
  · exact .done
  · split
    · exact .stopped rfl rfl
    · exact (values ts).map _

theorem accounts_initializer (constant : Bool) (name : String) (ts : List Token) :
    Accounts ts (initializer value constant name ts) := by
  unfold initializer
  split
  · split
    · exact .stopped rfl rfl
    · exact .done
  · rename_i t rest
    split
    · rename_i kind
      exact .cons (by rw [kind]; decide) ((values rest).map _)
    · split
      · exact .stopped rfl rfl
      · exact .done

theorem accounts_declaration (constant : Bool) (ts : List Token) :
    Accounts ts (declaration value constant ts) :=
  (accounts_expect (by decide) ts).andThen fun name =>
    accounts_initializer values constant name.text

theorem accounts_named {name : Token} (kind : name.kind = .identifier) (ts : List Token) :
    Accounts (name :: ts) (named value name ts) := by
  cases ts with
  | nil => exact (values [name]).map _
  | cons op rest =>
    rw [named]
    split
    · rename_i assigns
      have sign : op.kind ∉ groupKinds := (isAssignment_iff.mp assigns).plain
      apply Accounts.cons (by rw [kind]; decide)
      exact .cons sign (accounts_assignment values name.text op rest)
    · exact (values (name :: op :: rest)).map _

theorem accounts_bareStatement (items : ∀ item ∈ inner, Accounting item) (ts : List Token) :
    Accounts ts (bareStatement value inner ts) := by
  cases ts with
  | nil => exact (values []).map _
  | cons t rest =>
    unfold bareStatement
    dsimp only
    cases kind : t.kind with
    | var => exact .cons (by rw [kind]; decide) (accounts_declaration values false rest)
    | const => exact .cons (by rw [kind]; decide) (accounts_declaration values true rest)
    | openBrace => exact accounts_block items kind rest
    | identifier => exact accounts_named values kind rest
    | _ => exact (values (t :: rest)).map _

theorem accounting_statementOver (items : ∀ item ∈ inner, Accounting item) :
    Accounting (statementOver value inner) :=
  fun ts => (accounts_bareStatement values items ts).andThen accounts_skipSemicolon

omit values

theorem accounting_statement (room : Nat) : Accounting (statement room) := by
  induction room with
  | zero => exact accounting_statementOver (accounting_expression 0) nofun
  | succ room ih =>
    apply accounting_statementOver (accounting_expression (room + 1))
    intro item mem
    cases mem
    exact ih

end Statements

end KindScript.Grammar
