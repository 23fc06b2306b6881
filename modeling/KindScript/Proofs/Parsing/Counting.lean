import KindScript.Proofs.Parsing.Grammar
import KindScript.Tree.Parser

/-!
# The parser with its counters

The rules of the parser know how many groups may still be opened, and they measure every
expression that they build. Here the same reading is done with two counters and a log: the
groups that are open, and the height of the expression that was read last. An operator
keeps the second counter before it reads its right operand. The recursion is bounded by
numbers of its own, and running out of one is a fault like closing a group when none is
open. Reading in either way gives the same, so neither fault ever arises.
-/

namespace KindScript.Counting

open KindScript.Tree Grammar

/-! ## States -/

/-- What happens while reading. -/
inductive Event where
  /-- A token was read, and so many groups are open after it. -/
  | read (t : Token) (nesting : Nat)
  /-- A token is about to open a group while so many are open. -/
  | opening (t : Token) (nesting : Nat)
  /-- An operator is about to become a node while so many groups are open. -/
  | building (op : Token) (e : Expression) (nesting : Nat)

/-- The groups that are open then. -/
def Event.nesting : Event → Nat
  | read _ nesting => nesting
  | opening _ nesting => nesting
  | building _ _ nesting => nesting

structure State where
  rest : List Token
  nesting : Nat
  depth : Nat
  log : List Event

inductive Fault where
  | stop (cause : ParseError.Cause) (token : Option Token)
  | underflow
  | exhausted

/-- A step of reading. The state is kept also where it fails. -/
def Reader (α : Type) : Type :=
  State → Except Fault α × State

/-- Takes a step and goes on from the state after it, unless it failed. -/
def Reader.andThen {α β : Type} (first : Reader α) (next : α → Reader β) : Reader β := fun s =>
  match first s with
  | (.ok value, after) => next value after
  | (.error fault, after) => (.error fault, after)

instance : Monad Reader where
  pure value := fun s => (.ok value, s)
  bind := Reader.andThen

section Steps

variable {α : Type}

def fail (cause : ParseError.Cause) (token : Option Token) : Reader α :=
  fun s => (.error (.stop cause token), s)

/-- Fails at the first of the tokens left. -/
def failHere (cause : ParseError.Cause) : Reader α :=
  fun s => (.error (.stop cause s.rest.head?), s)

def exhausted : Reader α :=
  fun s => (.error .exhausted, s)

/-- The tokens left. -/
def left : Reader (List Token) :=
  fun s => (.ok s.rest, s)

def State.take (s : State) (t : Token) (rest : List Token) : State :=
  { s with rest, log := s.log ++ [.read t s.nesting] }

/-- Reads the first of the tokens left. -/
def take (t : Token) (rest : List Token) : Reader Unit :=
  fun s => (.ok (), s.take t rest)

/-- Counts a group and reads the token that opens it. -/
def openGroup (t : Token) (rest : List Token) : Reader Unit := fun s =>
  let asked := { s with log := s.log ++ [.opening t s.nesting] }
  if maxGroups ≤ s.nesting then (.error (.stop .tooManyGroups (some t)), asked)
  else (.ok (), State.take { asked with nesting := s.nesting + 1 } t rest)

/-- Reads the token that closes a group and counts the group off. -/
def closeGroup (close : Token.Kind) : Reader Unit := fun s =>
  match s.rest with
  | [] => (.error (.stop (.expected close) none), s)
  | t :: rest =>
    if t.kind = close then
      match s.nesting with
      | 0 => (.error .underflow, s)
      | nesting + 1 => (.ok (), State.take { s with nesting } t rest)
    else (.error (.stop (.expected close) (some t)), s)

def depth : Reader Nat :=
  fun s => (.ok s.depth, s)

def setDepth (depth : Nat) : Reader Unit :=
  fun s => (.ok (), { s with depth })

/-- Counts a node over an operand of the given height and the operand just read. What the
node is has no bearing on whether it fails. -/
def grow (left : Nat) (op : Token) (e : Expression) : Reader Expression := fun s =>
  let grown :=
    { s with depth := max left s.depth + 1, log := s.log ++ [.building op e s.nesting] }
  if maxHeight < grown.depth then (.error (.stop .tooHigh (some op)), grown) else (.ok e, grown)

/-- Reads a group, from the token that opens it to the one that closes it. -/
def grouped (t : Token) (rest : List Token) (close : Token.Kind) (inside : Reader α) :
    Reader α := do
  openGroup t rest
  let value ← inside
  closeGroup close
  return value

/-- Reads a token of one kind. -/
def expect (kind : Token.Kind) : Reader Token := do
  match ← left with
  | [] => failHere (.expected kind)
  | t :: rest =>
    if t.kind = kind then
      take t rest
      return t
    else failHere (.expected kind)

end Steps

/-! ## Expressions -/

/-- A literal or a name in one token. -/
def leaf (t : Token) (rest : List Token) (e : Expression) : Reader Expression := do
  take t rest
  setDepth 1
  return e

def converted (t : Token) (text : String) (rest : List Token) : Reader Expression := do
  take t rest
  match Number.ofToken? t.kind text with
  | some n =>
    setDepth 1
    return .literal (.number n)
  | none => fail (.invalidLiteral text) (some t)

def numberLiteral (t : Token) (text : String) (rest : List Token) : Reader Expression :=
  if takesSign t.kind then converted t text rest
  else do
    take t rest
    fail .unsignedKind (some t)

def signedNumber (sign : Token) (more : List Token) : Reader Expression :=
  match more with
  | [] => failHere .unexpected
  | t :: rest =>
    if (sign.text = "+" ∨ sign.text = "-") ∧ takesSign t.kind then do
      take sign more
      numberLiteral t (if sign.text = "-" then "-" ++ t.text else t.text) rest
    else failHere .unexpected

def primary (group : Option (Reader Expression)) : Reader Expression := do
  match ← left with
  | [] => failHere .unexpected
  | t :: rest =>
    match t.kind with
    | .openParen => grouped t rest .closeParen (group.getD exhausted)
    | .identifier => leaf t rest (.identifier t.text)
    | .binaryOperator => signedNumber t rest
    | .boolean => leaf t rest (.literal (.boolean (t.text = "true")))
    | .null => leaf t rest (.literal .null)
    | .string => leaf t rest (.literal (.string t.text))
    | .char =>
      match t.text.toList with
      | [c] => leaf t rest (.literal (.number (.char c)))
      | _ =>
        take t rest
        fail .charLength (some t)
    | .byte => converted t t.text rest
    | .integer | .long | .float | .double => numberLiteral t t.text rest
    | _ => failHere .unexpected

/-- Operators of one tier and their right operands, at most as many as the steps. -/
def chainFrom (operand : Reader Expression) (operator? : Operators) :
    (steps : Nat) → Expression → Reader Expression
  | 0, _ => exhausted
  | steps + 1, first => do
    match ← left with
    | [] => return first
    | t :: rest =>
      match operator? t with
      | none => return first
      | some (.error cause) =>
        take t rest
        fail cause (some t)
      | some (.ok build) =>
        let height ← depth
        take t rest
        let second ← operand
        let node ← grow height t (build first second)
        chainFrom operand operator? steps node

def chain (operator? : Operators) (operand : Reader Expression) : Reader Expression := do
  let first ← operand
  let rest ← left
  chainFrom operand operator? (rest.length + 1) first

def negated (operand : Reader Expression) : Reader Expression := do
  match ← left with
  | [] => operand
  | t :: rest =>
    if t.kind = .notOperator then
      take t rest
      let e ← operand
      grow 0 t (.not e)
    else operand

/-- The reading of each tier over that of what stands in parentheses. -/
def tierOver (group : Option (Reader Expression)) (tier : Tier) : Reader Expression :=
  let product := chain multiplicative? (primary group)
  let sum := chain additive? product
  let comparison := chain comparison? (negated sum)
  match tier with
  | .primary => primary group
  | .product => product
  | .sum => sum
  | .negation => negated sum
  | .comparison => comparison
  | .joint => chain joint? comparison

/-- The reading of parentheses, so many levels deep. -/
def group? : (level : Nat) → Option (Reader Expression)
  | 0 => none
  | level + 1 => some (tierOver (group? level) .joint)

/-- The reading of a tier, with as many levels of parentheses as may be opened. -/
def tier (tier : Tier) : Reader Expression :=
  fun s => tierOver (group? (maxGroups - s.nesting)) tier s

def expression : Reader Expression :=
  tier .joint

/-! ## Statements -/

def expressionStatement (value : Reader Expression) : Reader Statement := do
  return .expression (← value)

/-- An assignment whose name and operator are read. -/
def assignment (value : Reader Expression) (name : String) (op : Token) : Reader Statement :=
  if op.text = "=" then do return .assign name none (← value)
  else if op.text = "++" then return .assign name (some .add) (.literal (.number (.integer 1)))
  else if op.text = "--" then
    return .assign name (some .subtract) (.literal (.number (.integer 1)))
  else
    match compoundOf? op.text with
    | none => fail .unknownAssignment (some op)
    | some arithmetic => do return .assign name (some arithmetic) (← value)

/-- What follows the name of a declaration. -/
def initializer (value : Reader Expression) (constant : Bool) (name : String) :
    Reader Statement := do
  match ← left with
  | [] =>
    if constant then failHere (.uninitializedConstant name) else return .declare name false none
  | t :: rest =>
    if t.kind = .equalsOperator then
      take t rest
      return .declare name constant (some (← value))
    else if constant then failHere (.uninitializedConstant name)
    else return .declare name false none

def declaration (value : Reader Expression) (constant : Bool) (keyword : Token)
    (rest : List Token) : Reader Statement := do
  take keyword rest
  let name ← expect .identifier
  initializer value constant name.text

/-- Statements one after another, at most as many as the steps. -/
def sequenceFrom (item : Reader Statement) (ends : Token → Bool) :
    (steps : Nat) → Reader (List Statement)
  | 0 => exhausted
  | steps + 1 => do
    match ← left with
    | [] => return []
    | t :: _ =>
      if ends t then return []
      else
        let s ← item
        let more ← sequenceFrom item ends steps
        return s :: more

def sequence (item : Reader Statement) (ends : Token → Bool) : Reader (List Statement) := do
  let rest ← left
  sequenceFrom item ends (rest.length + 1)

def block (inner : Option (Reader Statement)) (brace : Token) (rest : List Token) :
    Reader Statement := do
  let body ← grouped brace rest .closeBrace
    (sequence (inner.getD exhausted) fun t => t.kind = .closeBrace)
  return .block body

def named (value : Reader Expression) (name : Token) (rest : List Token) : Reader Statement :=
  match rest with
  | op :: more =>
    if isAssignment op then do
      take name rest
      take op more
      assignment value name.text op
    else expressionStatement value
  | [] => expressionStatement value

def bareStatement (value : Reader Expression) (inner : Option (Reader Statement)) :
    Reader Statement := do
  match ← left with
  | [] => expressionStatement value
  | t :: rest =>
    match t.kind with
    | .var => declaration value false t rest
    | .const => declaration value true t rest
    | .openBrace => block inner t rest
    | .identifier => named value t rest
    | _ => expressionStatement value

def skipSemicolon : Reader Unit := do
  match ← left with
  | [] => return ()
  | t :: rest => if t.kind = .semicolon then take t rest else return ()

def statementOver (value : Reader Expression) (inner : Option (Reader Statement)) :
    Reader Statement := do
  let s ← bareStatement value inner
  skipSemicolon
  return s

/-- The reading of statements in braces, so many levels deep. -/
def braces? : (level : Nat) → Option (Reader Statement)
  | 0 => none
  | level + 1 => some (statementOver expression (braces? level))

def statement : Reader Statement :=
  fun s => statementOver expression (braces? (maxGroups - s.nesting)) s

/-- Reads statements to the end. -/
def program : Reader Tree := do
  let body ← sequence statement fun _ => false
  return ⟨body⟩

end KindScript.Counting
