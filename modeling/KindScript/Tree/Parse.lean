import KindScript.Tree
import KindScript.Tree.Literal
import KindScript.Tree.Rule

/-!
# Parsing

The grammar of the language as rules. Binary operators group to the left in four
tiers, loosest first: `&&` and `||`; comparisons; `+` and `-`; `*`, `/` and `%`.
A single `!` stands between comparisons and sums. The rules take the number of
groups that may still be opened, so that the bound on groups is also what makes
the recursion end.
-/

namespace KindScript.Tree

/-! ## Expressions -/

/-- An expression, unless it is higher than allowed; the error is at the operator. -/
def bounded (e : Expression) (op : Token) (rest : List Token) : Parsed Expression :=
  if e.height ≤ maxHeight then .ok (e, rest) else .error (.after .tooHigh op rest)

/-- The number of a token's kind that a text spells. -/
def converted (t : Token) (text : String) (rest : List Token) : Parsed Expression :=
  match Number.ofToken? t.kind text with
  | some n => .ok (.literal (.number n), rest)
  | none => .error (.after (.invalidLiteral text) t rest)

/-- The kinds of number that take a sign into their literal. -/
def takesSign (kind : Token.Kind) : Bool :=
  kind = .integer || kind = .float || kind = .long || kind = .double

/-- The number that a token spells, perhaps with a sign before it. -/
def numberLiteral (t : Token) (text : String) (rest : List Token) : Parsed Expression :=
  if takesSign t.kind then converted t text rest else .error (.after .unsignedKind t rest)

/-- A sign with the number directly after it. -/
def signedNumber (sign : Token) (ts : List Token) : Parsed Expression :=
  match ts with
  | [] => .error (.before .unexpected [sign])
  | t :: rest =>
    if (sign.text = "+" ∨ sign.text = "-") ∧ takesSign t.kind then
      numberLiteral t (if sign.text = "-" then "-" ++ t.text else t.text) rest
    else .error (.before .unexpected (sign :: t :: rest))

/-- A literal, a name, or an expression in parentheses. -/
def primary (group : Option (Rule Expression)) (ts : List Token) : Parsed Expression :=
  match ts with
  | [] => .error (.before .unexpected [])
  | t :: rest =>
    match t.kind with
    | .openParen =>
      match group with
      | none => .error (.before .tooManyGroups (t :: rest))
      | some inner => closed inner.run .closeParen rest
    | .identifier => .ok (.identifier t.text, rest)
    | .binaryOperator => signedNumber t rest
    | .boolean => .ok (.literal (.boolean (t.text = "true")), rest)
    | .null => .ok (.literal .null, rest)
    | .string => .ok (.literal (.string t.text), rest)
    | .char =>
      match t.text.toList with
      | [c] => .ok (.literal (.number (.char c)), rest)
      | _ => .error (.after .charLength t rest)
    | .byte => converted t t.text rest
    | .integer | .long | .float | .double => numberLiteral t t.text rest
    | _ => .error (.before .unexpected (t :: rest))

/-- What a token builds where it stands as an operator of a tier, or why it builds nothing
there. The other tokens end the tier. -/
abbrev Operators :=
  Token → Option (Except ParseError.Cause (Expression → Expression → Expression))

/-- Operators of one tier and their right operands, after a left operand. -/
def chainFrom (operand : Rule Expression) (operator? : Operators) (left : Expression)
    (ts : List Token) : Parsed Expression :=
  match ts with
  | [] => .ok (left, [])
  | t :: more =>
    match operator? t with
    | none => .ok (left, t :: more)
    | some (.error cause) => .error (.after cause t more)
    | some (.ok build) =>
      match _h : operand.run more with
      | .error stop => .error stop
      | .ok (right, rest) =>
        if (build left right).height ≤ maxHeight then
          chainFrom operand operator? (build left right) rest
        else .error (.after .tooHigh t rest)
termination_by ts.length
decreasing_by
  have := operand.moves _h
  simp only [List.length_cons]
  omega

/-- The optional `!` before an operand. -/
def negated (operand : Rule Expression) (ts : List Token) : Parsed Expression :=
  match ts with
  | [] => operand.run []
  | t :: more =>
    if t.kind = .notOperator then
      (operand.run more).andThen fun e rest => bounded (.not e) t rest
    else operand.run (t :: more)

theorem converted_rest {t : Token} {text : String} {rest : List Token} {e : Expression}
    {after : List Token} (h : converted t text rest = .ok (e, after)) : after = rest := by
  unfold converted at h
  split at h
  · cases h; rfl
  · cases h

theorem numberLiteral_rest {t : Token} {text : String} {rest : List Token} {e : Expression}
    {after : List Token} (h : numberLiteral t text rest = .ok (e, after)) : after = rest := by
  unfold numberLiteral at h
  split at h
  · exact converted_rest h
  · cases h

theorem primary_moves {group : Option (Rule Expression)} {ts : List Token} {e : Expression}
    {rest : List Token} (h : primary group ts = .ok (e, rest)) : rest.length < ts.length := by
  unfold primary at h
  split at h
  · cases h
  split at h
  · split at h
    · cases h
    · obtain ⟨middle, t, inside, close⟩ := closed_eq_ok.mp h
      have := Rule.moves _ inside
      have := expect_moves close
      simp only [List.length_cons]
      omega
  · cases h; simp
  · unfold signedNumber at h
    split at h
    · cases h
    · split at h
      · rw [numberLiteral_rest h]
        simp only [List.length_cons]
        omega
      · cases h
  · cases h; simp
  · cases h; simp
  · cases h; simp
  · split at h
    · cases h; simp
    · cases h
  · rw [converted_rest h]; simp
  · rw [numberLiteral_rest h]; simp
  · rw [numberLiteral_rest h]; simp
  · rw [numberLiteral_rest h]; simp
  · rw [numberLiteral_rest h]; simp
  · cases h

theorem chainFrom_length_le {operand : Rule Expression} {operator? : Operators}
    {left : Expression} {ts : List Token} {e : Expression} {rest : List Token}
    (h : chainFrom operand operator? left ts = .ok (e, rest)) : rest.length ≤ ts.length := by
  fun_induction chainFrom operand operator? left ts with
  | case1 => cases h; exact Nat.le_refl _
  | case2 => cases h; exact Nat.le_refl _
  | case3 => cases h
  | case4 => cases h
  | case5 left t more build op right middle step low ih =>
    have := operand.moves step
    have := ih h
    simp only [List.length_cons]
    omega
  | case6 => cases h

theorem negated_moves {operand : Rule Expression} {ts : List Token} {e : Expression}
    {rest : List Token} (h : negated operand ts = .ok (e, rest)) : rest.length < ts.length := by
  unfold negated at h
  split at h
  · exact operand.moves h
  split at h
  · obtain ⟨inner, middle, run, cap⟩ := Parsed.andThen_eq_ok.mp h
    have := operand.moves run
    unfold bounded at cap
    split at cap
    · cases cap
      simp only [List.length_cons]
      omega
    · cases cap
  · exact operand.moves h

/-- One tier: operands with the tier's operators between them. -/
def chain (operator? : Operators) (operand : Rule Expression) : Rule Expression where
  run ts := (operand.run ts).andThen fun left rest => chainFrom operand operator? left rest
  moves h := by
    obtain ⟨left, middle, first, later⟩ := Parsed.andThen_eq_ok.mp h
    have := operand.moves first
    have := chainFrom_length_le later
    omega

/-- What a token with the symbol of an arithmetic operator builds. -/
def arithmetic (t : Token) : Except ParseError.Cause (Expression → Expression → Expression) :=
  match ArithmeticOp.ofSymbol? t.text with
  | some op => .ok (.binary op)
  | none => .error .unknownOperator

def multiplicative? : Operators := fun t =>
  if t.kind = .binaryOperator ∧ (t.text = "*" ∨ t.text = "/" ∨ t.text = "%") then
    some (arithmetic t)
  else none

def additive? : Operators := fun t =>
  if t.kind = .binaryOperator ∧ (t.text = "+" ∨ t.text = "-") then some (arithmetic t) else none

/-- The comparison that a token stands for. `is` is no reserved word. -/
def comparisonOf? (t : Token) : Option CompareOp :=
  if t.kind = .compareOperator then
    match t.text with
    | "==" => some .equal
    | "!=" => some .notEqual
    | ">=" => some .greaterOrEqual
    | "<=" => some .lessOrEqual
    | ">" => some .greater
    | "<" => some .less
    | _ => none
  else if t.kind = .identifier ∧ t.text = "is" then some .is
  else none

def comparison? : Operators := fun t =>
  (comparisonOf? t).map fun op => .ok (.comparison op)

def joint? : Operators := fun t =>
  if t.kind = .jointOperator then
    some (.ok (.joint (if t.text = "&&" ∨ t.text = "and" then .and else .or)))
  else none

/-- The rule of expressions over one for what stands in parentheses. -/
def expressionOver (group : Option (Rule Expression)) : Rule Expression :=
  let product := chain multiplicative? ⟨primary group, primary_moves⟩
  let sum := chain additive? product
  chain joint? (chain comparison? ⟨negated sum, negated_moves⟩)

/-- An expression inside which `room` groups may be opened. -/
def expression : (room : Nat) → Rule Expression
  | 0 => expressionOver none
  | room + 1 => expressionOver (some (expression room))

/-! ## Statements -/

/-- The operator of an assignment like `+=`. -/
def compoundOf? : String → Option ArithmeticOp
  | "+=" => some .add
  | "-=" => some .subtract
  | "*=" => some .multiply
  | "/=" => some .divide
  | "%=" => some .remainder
  | _ => none

/-- An assignment whose name and operator are read. -/
def assignment (value : Rule Expression) (name : String) (op : Token) (ts : List Token) :
    Parsed Statement :=
  match op.text with
  | "=" => (value.run ts).andThen fun e rest => .ok (.assign name none e, rest)
  | "++" => .ok (.assign name (some .add) (.literal (.number (.integer 1))), ts)
  | "--" => .ok (.assign name (some .subtract) (.literal (.number (.integer 1))), ts)
  | text =>
    match compoundOf? text with
    | none => .error (.after .unknownAssignment op ts)
    | some arithmetic =>
      (value.run ts).andThen fun e rest => .ok (.assign name (some arithmetic) e, rest)

/-- What follows the name of a declaration. A constant needs a value. -/
def initializer (value : Rule Expression) (constant : Bool) (name : String) (ts : List Token) :
    Parsed Statement :=
  match ts with
  | [] =>
    if constant then .error (.before (.uninitializedConstant name) [])
    else .ok (.declare name false none, [])
  | t :: rest =>
    if t.kind = .equalsOperator then
      (value.run rest).andThen fun e rest => .ok (.declare name constant (some e), rest)
    else if constant then .error (.before (.uninitializedConstant name) (t :: rest))
    else .ok (.declare name false none, t :: rest)

/-- A declaration whose first word is read. -/
def declaration (value : Rule Expression) (constant : Bool) (ts : List Token) :
    Parsed Statement :=
  (expect .identifier ts).andThen fun name rest => initializer value constant name.text rest

/-- A block, from its opening brace on. -/
def block (inner : Option (Rule Statement)) (brace : Token) (ts : List Token) :
    Parsed Statement :=
  match inner with
  | none => .error (.before .tooManyGroups (brace :: ts))
  | some item =>
    (closed (sequence item fun t => t.kind = .closeBrace) .closeBrace ts).andThen
      fun body rest => .ok (.block body, rest)

def isAssignment (t : Token) : Bool :=
  t.kind = .equalsOperator || t.kind = .assignmentOperator

/-- A name with an assignment after it, or an expression that begins with a name. -/
def named (value : Rule Expression) (name : Token) (ts : List Token) : Parsed Statement :=
  match ts with
  | op :: rest =>
    if isAssignment op then assignment value name.text op rest
    else (value.run (name :: op :: rest)).andThen fun e rest => .ok (.expression e, rest)
  | [] => (value.run [name]).andThen fun e rest => .ok (.expression e, rest)

/-- A statement without the semicolon after it. -/
def bareStatement (value : Rule Expression) (inner : Option (Rule Statement))
    (ts : List Token) : Parsed Statement :=
  match ts with
  | [] => (value.run []).andThen fun e rest => .ok (.expression e, rest)
  | t :: rest =>
    match t.kind with
    | .var => declaration value false rest
    | .const => declaration value true rest
    | .openBrace => block inner t rest
    | .identifier => named value t rest
    | _ => (value.run (t :: rest)).andThen fun e rest => .ok (.expression e, rest)

/-- The tokens after the semicolon that may end a statement. -/
def skipSemicolon : List Token → List Token
  | [] => []
  | t :: rest => if t.kind = .semicolon then rest else t :: rest

theorem skipSemicolon_length_le (ts : List Token) : (skipSemicolon ts).length ≤ ts.length := by
  unfold skipSemicolon
  split
  · exact Nat.le_refl _
  · split <;> simp

theorem expressionStatement_moves {value : Rule Expression} {ts : List Token} {s : Statement}
    {rest : List Token}
    (h : (value.run ts).andThen (fun e rest => .ok (.expression e, rest)) = .ok (s, rest)) :
    rest.length < ts.length := by
  obtain ⟨e, middle, run, done⟩ := Parsed.andThen_eq_ok.mp h
  cases done
  exact value.moves run

theorem assignment_length_le {value : Rule Expression} {name : String} {op : Token}
    {ts : List Token} {s : Statement} {rest : List Token}
    (h : assignment value name op ts = .ok (s, rest)) : rest.length ≤ ts.length := by
  unfold assignment at h
  split at h
  · obtain ⟨e, middle, run, done⟩ := Parsed.andThen_eq_ok.mp h
    cases done
    exact Nat.le_of_lt (value.moves run)
  · cases h; exact Nat.le_refl _
  · cases h; exact Nat.le_refl _
  · split at h
    · cases h
    · obtain ⟨e, middle, run, done⟩ := Parsed.andThen_eq_ok.mp h
      cases done
      exact Nat.le_of_lt (value.moves run)

theorem declaration_length_le {value : Rule Expression} {constant : Bool} {ts : List Token}
    {s : Statement} {rest : List Token}
    (h : declaration value constant ts = .ok (s, rest)) : rest.length ≤ ts.length := by
  obtain ⟨name, middle, word, h⟩ := Parsed.andThen_eq_ok.mp h
  have := expect_moves word
  unfold initializer at h
  split at h
  · split at h
    · cases h
    · cases h; omega
  · split at h
    · obtain ⟨e, after, run, done⟩ := Parsed.andThen_eq_ok.mp h
      cases done
      have := value.moves run
      simp only [List.length_cons] at *
      omega
    · split at h
      · cases h
      · cases h; omega

theorem block_length_le {inner : Option (Rule Statement)} {brace : Token} {ts : List Token}
    {s : Statement} {rest : List Token} (h : block inner brace ts = .ok (s, rest)) :
    rest.length ≤ ts.length := by
  unfold block at h
  split at h
  · cases h
  · obtain ⟨body, middle, run, done⟩ := Parsed.andThen_eq_ok.mp h
    cases done
    obtain ⟨after, t, items, close⟩ := closed_eq_ok.mp run
    have := sequence_length_le _ _ items
    have := expect_moves close
    omega

theorem bareStatement_moves {value : Rule Expression} {inner : Option (Rule Statement)}
    {ts : List Token} {s : Statement} {rest : List Token}
    (h : bareStatement value inner ts = .ok (s, rest)) : rest.length < ts.length := by
  unfold bareStatement at h
  split at h
  · exact expressionStatement_moves h
  split at h
  · have := declaration_length_le h
    simp only [List.length_cons]
    omega
  · have := declaration_length_le h
    simp only [List.length_cons]
    omega
  · have := block_length_le h
    simp only [List.length_cons]
    omega
  · unfold named at h
    split at h
    · split at h
      · have := assignment_length_le h
        simp only [List.length_cons]
        omega
      · exact expressionStatement_moves h
    · exact expressionStatement_moves h
  · exact expressionStatement_moves h

/-- The rule of statements over those for expressions and for what stands in braces. -/
def statementOver (value : Rule Expression) (inner : Option (Rule Statement)) :
    Rule Statement where
  run ts := (bareStatement value inner ts).andThen fun s rest => .ok (s, skipSemicolon rest)
  moves h := by
    obtain ⟨s, middle, run, done⟩ := Parsed.andThen_eq_ok.mp h
    cases done
    have := bareStatement_moves run
    have := skipSemicolon_length_le middle
    omega

/-- A statement inside which `room` groups may be opened. -/
def statement : (room : Nat) → Rule Statement
  | 0 => statementOver (expression 0) none
  | room + 1 => statementOver (expression (room + 1)) (some (statement room))

end KindScript.Tree
