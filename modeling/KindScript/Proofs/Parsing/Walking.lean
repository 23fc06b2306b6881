import KindScript.Proofs.Parsing.Reuse

/-!
# The parser as a position in its list

The rules of the parser get the tokens before the first end mark and hand on those that are
left. Here the same reading is done by a position in the whole list, with all end marks and
with whatever stands behind them. It looks at the token there and at the next one, and a step
forward from an end mark goes nowhere. Nothing in the shape of the rules bounds the recursion,
so progress does: a loop takes another turn, an operator reads its operand and a group its
inside only at a place further on, and the reading is stuck where that is not so.
-/

namespace KindScript.Walking

open KindScript.Tree Grammar

/-! ## Steps -/

/-- The position of the next token and the number of open groups. -/
@[ext]
structure State where
  position : Nat
  nesting : Nat
deriving DecidableEq

inductive Fault where
  /-- The tokens spell no program. -/
  | error (e : ParseError)
  /-- What must go on further on would go on where it began, or behind the list. -/
  | stuck
  /-- There is no token at the position. -/
  | outside
  /-- A group is closed and none is open. -/
  | unopened

/-- A reading that may fail. The state is kept also where it fails. -/
abbrev Walker := ExceptT Fault (StateM State)

section Steps

variable (tokens : List Token) {α : Type}

/-- The token at the position. -/
def current : Walker Token := fun s =>
  match tokens[s.position]? with
  | some t => (.ok t, s)
  | none => (.error .outside, s)

/-- The token after that one, or the last token again. -/
def following : Walker Token := fun s =>
  match tokens[min (s.position + 1) (tokens.length - 1)]? with
  | some t => (.ok t, s)
  | none => (.error .outside, s)

/-- One token further on. -/
def State.advanced (s : State) : State :=
  { s with position := s.position + 1 }

/-- Reads the token at the position and goes on to the next one, but never past an end mark. -/
def next : Walker Token := do
  let t ← current tokens
  if t.kind ≠ .endOfFile then modify State.advanced
  return t

def fail (cause : ParseError.Cause) (t : Token) : Walker α :=
  throw (.error ⟨cause, t⟩)

/-- Reads a token of one kind. -/
def eat (kind : Token.Kind) : Walker Token := do
  let t ← current tokens
  if t.kind = kind then next tokens else fail (.expected kind) t

/-- The second place is further on than the first one, and in the list. -/
def Advances (s after : State) : Prop :=
  s.position < after.position ∧ after.position < tokens.length

instance (s after : State) : Decidable (Advances tokens s after) :=
  inferInstanceAs (Decidable (_ ∧ _))

theorem Advances.left_lt {tokens : List Token} {s after : State} (h : Advances tokens s after) :
    tokens.length - after.position < tokens.length - s.position := by
  have further := h.1
  have inside := h.2
  omega

/-- Reads on at a place further on than the given one, and nowhere else. -/
def onwards (start : State) (walker : Walker α) : Walker α := fun s =>
  if Advances tokens start s then walker s else (.error .stuck, s)

/-- Takes turns from a value on until a turn gives no other value. Each turn must lead
further on. -/
def repeated (turn : α → Walker (Option α)) (value : α) : Walker α := fun s =>
  match turn value s with
  | (.error fault, after) => (.error fault, after)
  | (.ok none, after) => (.ok value, after)
  | (.ok (some value), after) =>
    if _h : Advances tokens s after then repeated turn value after else (.error .stuck, after)
termination_by s => tokens.length - s.position
decreasing_by exact _h.left_lt

/-- A phrase that may stand inside itself, there further on than where it begins. -/
def nested (phrase : Walker α → Walker α) : Walker α := fun s =>
  phrase (fun inner =>
    if _h : Advances tokens s inner then nested phrase inner else (.error .stuck, inner)) s
termination_by s => tokens.length - s.position
decreasing_by exact _h.left_lt

/-- Counts one more open group, which the token at the position is to open. -/
def enter : Walker Unit := do
  if maxGroups ≤ (← get).nesting then fail .tooManyGroups (← current tokens)
  else modify fun s => { s with nesting := s.nesting + 1 }

/-- Counts one open group less. -/
def leave : Walker Unit := fun s =>
  match s.nesting with
  | 0 => (.error .unopened, s)
  | nesting + 1 => (.ok (), { s with nesting })

/-- Goes into a group, behind the token that opens it. -/
def descend (opening : Token.Kind) : Walker Token := do
  enter tokens
  eat tokens opening

/-- Reads a group, from the token that opens it to the one that closes it. -/
def grouped (opening closing : Token.Kind) (inside : Walker α) : Walker α := do
  let start ← get
  let _ ← descend tokens opening
  let value ← onwards tokens start inside
  let _ ← eat tokens closing
  leave
  return value

end Steps

/-! ## Expressions -/

/-- An expression, unless it is higher than allowed. -/
def bounded (e : Expression) (op : Token) : Walker Expression :=
  if e.height ≤ maxHeight then return e else fail .tooHigh op

def converted (t : Token) (text : String) : Walker Expression :=
  match Number.ofToken? t.kind text with
  | some n => return .literal (.number n)
  | none => fail (.invalidLiteral text) t

def numberLiteral (t : Token) (text : String) : Walker Expression :=
  if takesSign t.kind then converted t text else fail .unsignedKind t

section Expressions

variable (tokens : List Token)

def signedNumber : Walker Expression := do
  let sign ← next tokens
  let t ← next tokens
  numberLiteral t (if sign.text = "-" then "-" ++ t.text else t.text)

def primary (group : Walker Expression) : Walker Expression := do
  let t ← current tokens
  match t.kind with
  | .openParen => grouped tokens .openParen .closeParen group
  | .identifier => return .identifier (← next tokens).text
  | .binaryOperator =>
    let number ← following tokens
    if (t.text = "+" ∨ t.text = "-") ∧ takesSign number.kind then signedNumber tokens
    else fail .unexpected t
  | .boolean => return .literal (.boolean ((← next tokens).text = "true"))
  | .null =>
    let _ ← next tokens
    return .literal .null
  | .string => return .literal (.string (← next tokens).text)
  | .char =>
    let t ← next tokens
    match t.text.toList with
    | [c] => return .literal (.number (.char c))
    | _ => fail .charLength t
  | .byte =>
    let t ← next tokens
    converted t t.text
  | .integer | .long | .float | .double =>
    let t ← next tokens
    numberLiteral t t.text
  | _ => fail .unexpected t

/-- One operator of a tier after a left operand, with its right operand. There is none where
another token stands. -/
def operation (operand : Walker Expression) (operator? : Operators) (left : Expression) :
    Walker (Option Expression) := do
  let t ← current tokens
  match operator? t with
  | none => return none
  | some built =>
    let start ← get
    let op ← next tokens
    match built with
    | .error cause => fail cause op
    | .ok build =>
      let right ← onwards tokens start operand
      return some (← bounded (build left right) op)

def chain (operator? : Operators) (operand : Walker Expression) : Walker Expression := do
  let first ← operand
  repeated tokens (operation tokens operand operator?) first

def negated (operand : Walker Expression) : Walker Expression := do
  let t ← current tokens
  if t.kind = .notOperator then
    let op ← next tokens
    let e ← operand
    bounded (.not e) op
  else operand

/-- The reading of each tier over that of what stands in parentheses. -/
def tierOver (tier : Tier) (group : Walker Expression) : Walker Expression :=
  let product := chain tokens multiplicative? (primary tokens group)
  let sum := chain tokens additive? product
  let comparison := chain tokens comparison? (negated tokens sum)
  match tier with
  | .primary => primary tokens group
  | .product => product
  | .sum => sum
  | .negation => negated tokens sum
  | .comparison => comparison
  | .joint => chain tokens joint? comparison

def expression : Walker Expression :=
  nested tokens (tierOver tokens .joint)

/-- The reading of a tier with expressions in its parentheses. -/
def tier (tier : Tier) : Walker Expression :=
  tierOver tokens tier (expression tokens)

end Expressions

/-! ## Statements -/

section Statements

variable (tokens : List Token)

def expressionStatement : Walker Statement := do
  return .expression (← expression tokens)

def assignment : Walker Statement := do
  let name ← eat tokens .identifier
  let op ← next tokens
  match op.text with
  | "=" => return .assign name.text none (← expression tokens)
  | "++" => return .assign name.text (some .add) (.literal (.number (.integer 1)))
  | "--" => return .assign name.text (some .subtract) (.literal (.number (.integer 1)))
  | text =>
    match compoundOf? text with
    | none => fail .unknownAssignment op
    | some arithmetic => return .assign name.text (some arithmetic) (← expression tokens)

def declaration : Walker Statement := do
  let constant := decide ((← next tokens).kind = .const)
  let name ← eat tokens .identifier
  let t ← current tokens
  if t.kind = .equalsOperator then
    let _ ← eat tokens .equalsOperator
    return .declare name.text constant (some (← expression tokens))
  else if constant then fail (.uninitializedConstant name.text) t
  else return .declare name.text false none

/-- One more statement, unless an end mark or a token that ends them is next. -/
def another (item : Walker Statement) (ends : Token → Bool) (body : List Statement) :
    Walker (Option (List Statement)) := do
  let t ← current tokens
  if t.kind = .endOfFile ∨ ends t then return none else return some (body ++ [← item])

/-- Statements one after another. -/
def sequence (item : Walker Statement) (ends : Token → Bool) : Walker (List Statement) :=
  repeated tokens (another tokens item ends) []

def block (item : Walker Statement) : Walker Statement := do
  let body ← grouped tokens .openBrace .closeBrace
    (sequence tokens item fun t => t.kind = .closeBrace)
  return .block body

def bareStatement (inner : Walker Statement) : Walker Statement := do
  let t ← current tokens
  match t.kind with
  | .var | .const => declaration tokens
  | .openBrace => block tokens inner
  | .identifier =>
    if isAssignment (← following tokens) then assignment tokens else expressionStatement tokens
  | _ => expressionStatement tokens

def statementOver (inner : Walker Statement) : Walker Statement := do
  let s ← bareStatement tokens inner
  if (← current tokens).kind = .semicolon then
    let _ ← eat tokens .semicolon
  return s

def statement : Walker Statement :=
  nested tokens (statementOver tokens)

/-- Reads statements to the first end mark. -/
def program : Walker Tree := do
  return ⟨← sequence tokens (statement tokens) fun _ => false⟩

/-! ## Requests -/

def request : Request → Walker Reply
  | .expression => do return .expression (← expression tokens)
  | .tree => do return .tree (← program tokens)

/-- The state before any token is read. -/
def State.fresh : State := ⟨0, 0⟩

/-- The answers to requests one after another. -/
def answers (s : State) : List Request → List (Except Fault Reply)
  | [] => []
  | asked :: later => (request tokens asked s).1 :: answers (request tokens asked s).2 later

/-- The state after requests, failing ones among them. -/
def State.after (s : State) : List Request → State
  | [] => s
  | asked :: later => (request tokens asked s).2.after later

end Statements

end KindScript.Walking
