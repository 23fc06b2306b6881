import KindScript.Number.Promotion
import KindScript.Scope
import KindScript.Tree

/-!
# Sessions

A session evaluates programs one after another. Its root scope lives as long as
the session does; a block has a scope of its own that is released when the block
is left, also by an error. Both operands of an operator are evaluated, the left
one first, also where the left one alone would decide.
-/

namespace KindScript

/-! ## Errors -/

inductive EvalError where
  | unsupportedOperation (op : ArithmeticOp) (left right : String)
  | unsupportedComparison (op : CompareOp) (left right : String)
  | nonBooleanOperand (operator : String) (operand : String)
  | divisionByZero
  | scope (e : Scope.Error)
deriving DecidableEq, Repr

def EvalError.message : EvalError → String
  | unsupportedOperation op left right =>
    "Cannot do operation [" ++ op.symbol ++ "] for those types [" ++ left ++ ", " ++ right ++ "]"
  | unsupportedComparison op left right =>
    "Cannot do comparison [" ++ op.symbol ++ "] for those types [" ++ left ++ ", " ++ right ++ "]"
  | nonBooleanOperand operator operand =>
    "Operator [" ++ operator ++ "] expects Boolean operands but got [" ++ operand ++ "]"
  | divisionByZero => "Division by zero"
  | scope e => e.message

/-! ## Operators on values -/

namespace Value

/-- The text that a value adds to a string; bytes add none. -/
def joined? : Value → Option String
  | string s => some s
  | number (.byte _) => none
  | number n => some n.text
  | _ => none

def isString : Value → Bool
  | string _ => true
  | _ => false

/-- Two values joined into a string, where one of them is a string. -/
def concatenated? (left right : Value) : Option Value :=
  if left.isString || right.isString then
    left.joined?.bind fun a => right.joined?.map fun b => string (a ++ b)
  else none

/-- The result of an arithmetic operator. Strings can only be added. -/
def arithmetic (op : ArithmeticOp) (left right : Value) : Except EvalError Value :=
  match left, right with
  | number a, number b =>
    match Number.arithmetic? op a b with
    | some n => .ok (number n)
    | none => .error .divisionByZero
  | _, _ =>
    match if op = .add then concatenated? left right else none with
    | some joined => .ok joined
    | none => .error (.unsupportedOperation op left.typeName right.typeName)

/-- The answer to whether two things are equal or differ; they have no order. -/
def equalityOnly? (op : CompareOp) (same : Bool) : Option Bool :=
  match op with
  | .equal => some same
  | .notEqual => some !same
  | _ => none

/-- The answer of a comparison. Null can be compared with everything. -/
def compare? (op : CompareOp) (left right : Value) : Option Bool :=
  match left, right with
  | number a, number b => Number.compare? op a b
  | null, null => equalityOnly? op true
  | null, _ => equalityOnly? op false
  | _, null => equalityOnly? op false
  | boolean a, boolean b => equalityOnly? op (a == b)
  | string a, string b => equalityOnly? op (a == b)
  | _, _ => none

def comparison (op : CompareOp) (left right : Value) : Except EvalError Value :=
  match compare? op left right with
  | some answer => .ok (boolean answer)
  | none => .error (.unsupportedComparison op left.typeName right.typeName)

/-- Both operands of `&&` and `||` are truth values; the first that is none is reported. -/
def joint (op : JointOp) (left right : Value) : Except EvalError Value :=
  match left, right with
  | boolean a, boolean b => .ok (boolean (op.apply a b))
  | boolean _, other => .error (.nonBooleanOperand op.symbol other.typeName)
  | other, _ => .error (.nonBooleanOperand op.symbol other.typeName)

def negation : Value → Except EvalError Value
  | boolean b => .ok (boolean !b)
  | other => .error (.nonBooleanOperand "!" other.typeName)

end Value

/-! ## Expressions -/

/-- What a name stands for in a scope. -/
def Arena.valueOf (arena : Arena) (scope : Scope.Handle) (name : String) :
    Except EvalError Value :=
  match arena.lookup scope name with
  | .ok v => .ok v.value
  | .error e => .error (.scope e)

/-- The value of an expression in a scope. Evaluation changes nothing. -/
def Expression.evaluate (arena : Arena) (scope : Scope.Handle) :
    Expression → Except EvalError Value
  | literal value => .ok value
  | identifier name => arena.valueOf scope name
  | binary op left right => do
    let a ← left.evaluate arena scope
    let b ← right.evaluate arena scope
    Value.arithmetic op a b
  | comparison op left right => do
    let a ← left.evaluate arena scope
    let b ← right.evaluate arena scope
    Value.comparison op a b
  | joint op left right => do
    let a ← left.evaluate arena scope
    let b ← right.evaluate arena scope
    Value.joint op a b
  | not operand => do
    let a ← operand.evaluate arena scope
    Value.negation a

/-! ## Statements -/

/-- The scopes of a session and the serial number that its next scope gets. -/
structure Memory where
  arena : Arena
  next : Nat
deriving DecidableEq

namespace Memory

/-- The memory after a change that may have failed. -/
def commit (memory : Memory) (value : Value) (change : Except Scope.Error Arena) :
    Except EvalError Value × Memory :=
  match change with
  | .ok arena => (.ok value, { memory with arena })
  | .error e => (.error (.scope e), memory)

/-- A declaration. Its own value is null. -/
def declare (memory : Memory) (scope : Scope.Handle) (name : String) (constant : Bool)
    (value : Option Expression) : Except EvalError Value × Memory :=
  match value.elim (.ok .null) (Expression.evaluate memory.arena scope) with
  | .error e => (.error e, memory)
  | .ok v => memory.commit .null (memory.arena.define scope name ⟨v, constant⟩)

/-- The value that an assignment gives to its name. The right side is evaluated before
the name is looked up. -/
def assigned (memory : Memory) (scope : Scope.Handle) (name : String)
    (op : Option ArithmeticOp) (value : Expression) : Except EvalError Value := do
  let right ← value.evaluate memory.arena scope
  match op with
  | none => pure right
  | some op => do
    let current ← memory.arena.valueOf scope name
    Value.arithmetic op current right

/-- An assignment. Its own value is that of the name afterwards. -/
def assign (memory : Memory) (scope : Scope.Handle) (name : String)
    (op : Option ArithmeticOp) (value : Expression) : Except EvalError Value × Memory :=
  match memory.assigned scope name op value with
  | .error e => (.error e, memory)
  | .ok v => memory.commit v (memory.arena.update scope name v)

end Memory

mutual

/-- Runs a statement in a scope. -/
def Statement.evaluate (scope : Scope.Handle) (memory : Memory) :
    Statement → Except EvalError Value × Memory
  | .expression value => (value.evaluate memory.arena scope, memory)
  | .declare name constant value => memory.declare scope name constant value
  | .assign name op value => memory.assign scope name op value
  | .block body =>
    match memory.arena.push memory.next scope with
    | .error e => (.error (.scope e), memory)
    | .ok (inner, arena) =>
      let (result, after) := Statement.evaluateBlock inner ⟨arena, memory.next + 1⟩ .null body
      match after.arena.release inner with
      | .ok arena => (result, { after with arena })
      | .error e => (.error (.scope e), after)

/-- Runs the statements of a block up to the first error. The value is that of the
last statement, or the given one where there is none. -/
def Statement.evaluateBlock (scope : Scope.Handle) (memory : Memory) (last : Value) :
    List Statement → Except EvalError Value × Memory
  | [] => (.ok last, memory)
  | statement :: more =>
    match statement.evaluate scope memory with
    | (.error e, after) => (.error e, after)
    | (.ok value, after) => Statement.evaluateBlock scope after value more

end

/-! ## Programs -/

/-- Memory with a root scope. -/
structure Session where
  memory : Memory
  root : Scope.Handle
deriving DecidableEq

namespace Session

/-- A session whose root scope takes the given serial number. -/
def start (serial : Nat) : Session :=
  let (root, arena) := Arena.pushRoot [] serial
  ⟨⟨arena, serial + 1⟩, root⟩

/-- Runs one statement in any scope. -/
def evaluate (session : Session) (statement : Statement) (scope : Scope.Handle) :
    Except EvalError Value × Session :=
  let (result, memory) := statement.evaluate scope session.memory
  (result, { session with memory })

/-- The value of an expression in any scope. -/
def evaluateExpression (session : Session) (expression : Expression) (scope : Scope.Handle) :
    Except EvalError Value :=
  expression.evaluate session.memory.arena scope

/-- Runs statements in the root scope up to the first error. What was done before an
error stays done. -/
def evaluateAll (session : Session) : List Statement → Except EvalError (List Value) × Session
  | [] => (.ok [], session)
  | statement :: more =>
    match session.evaluate statement session.root with
    | (.error e, after) => (.error e, after)
    | (.ok value, after) =>
      let (values, last) := after.evaluateAll more
      (values.map (value :: ·), last)

/-- Runs statements in any scope, each one whatever became of those before it. -/
def evaluateEach (session : Session) (scope : Scope.Handle) :
    List Statement → List (Except EvalError Value) × Session
  | [] => ([], session)
  | statement :: more =>
    let (result, after) := session.evaluate statement scope
    let (results, last) := after.evaluateEach scope more
    (result :: results, last)

/-- Runs a program. -/
def evaluateTree (session : Session) (tree : Tree) : Except EvalError (List Value) × Session :=
  session.evaluateAll tree.body

end Session

end KindScript
