import KindScript.Session
import Mathlib.Data.Finmap

/-!
# Lexical scoping

A semantics of programs over a stack of finite maps, the innermost first. It knows no
handles, serial numbers or records: a block pushes an empty map and pops it again, and
a name means what the nearest map that has it says. What an operator makes of two
values is the same here as in a session.
-/

namespace KindScript.Lexical

/-- The names of one scope. -/
abbrev Frame := Finmap fun _ : String => Variable

/-- The scopes around a statement, the innermost first. -/
abbrev Env := List Frame

namespace Env

/-- What a name stands for in the nearest frame that has it. -/
def find? : Env → String → Option Variable
  | [], _ => none
  | frame :: outer, name => (frame.lookup name).or (find? outer name)

/-- Something else for a name to stand for in the nearest frame that has it. -/
def put : Env → String → Variable → Env
  | [], _, _ => []
  | frame :: outer, name, v =>
    if name ∈ frame then frame.insert name v :: outer else frame :: put outer name v

end Env

/-! ## Expressions -/

/-- The operators with two operands and what they make of two values. -/
inductive Denotes :
    (Expression → Expression → Expression) → (Value → Value → Except EvalError Value) → Prop where
  | arithmetic (op : ArithmeticOp) : Denotes (.binary op) (Value.arithmetic op)
  | comparison (op : CompareOp) : Denotes (.comparison op) (Value.comparison op)
  | joint (op : JointOp) : Denotes (.joint op) (Value.joint op)

/-- The expression has the value, or fails with the error. The left operand comes first,
and the right one is evaluated whatever the value of the left one is. -/
inductive Yields (env : Env) : Expression → Except EvalError Value → Prop where
  | literal (v : Value) : Yields env (.literal v) (.ok v)
  | name {name : String} {v : Variable} (found : env.find? name = some v) :
    Yields env (.identifier name) (.ok v.value)
  | unknown {name : String} (missing : env.find? name = none) :
    Yields env (.identifier name) (.error (.scope (.undefined name)))
  | operation {build : Expression → Expression → Expression}
    {meaning : Value → Value → Except EvalError Value} {l r : Expression} {a b : Value}
    (op : Denotes build meaning) (left : Yields env l (.ok a)) (right : Yields env r (.ok b)) :
    Yields env (build l r) (meaning a b)
  | left_error {build : Expression → Expression → Expression}
    {meaning : Value → Value → Except EvalError Value} {l r : Expression} {e : EvalError}
    (op : Denotes build meaning) (left : Yields env l (.error e)) :
    Yields env (build l r) (.error e)
  | right_error {build : Expression → Expression → Expression}
    {meaning : Value → Value → Except EvalError Value} {l r : Expression} {a : Value}
    {e : EvalError} (op : Denotes build meaning) (left : Yields env l (.ok a))
    (right : Yields env r (.error e)) : Yields env (build l r) (.error e)
  | negation {operand : Expression} {a : Value} (value : Yields env operand (.ok a)) :
    Yields env (.not operand) (Value.negation a)
  | negation_error {operand : Expression} {e : EvalError}
    (value : Yields env operand (.error e)) : Yields env (.not operand) (.error e)

/-! ## Statements -/

/-- The value that a declaration gives to its name: null where it has no expression. -/
inductive Initial (env : Env) : Option Expression → Except EvalError Value → Prop where
  | none : Initial env none (.ok .null)
  | some {e : Expression} {result : Except EvalError Value} (value : Yields env e result) :
    Initial env (some e) result

/-- The value that an assignment gives to its name. A compound one reads the name after
it has evaluated its right side. -/
inductive Assigned (env : Env) (name : String) :
    Option ArithmeticOp → Expression → Except EvalError Value → Prop where
  | plain {e : Expression} {result : Except EvalError Value} (value : Yields env e result) :
    Assigned env name none e result
  | compound {op : ArithmeticOp} {e : Expression} {right : Value} {current : Variable}
    (value : Yields env e (.ok right)) (found : env.find? name = some current) :
    Assigned env name (some op) e (Value.arithmetic op current.value right)
  | compound_unknown {op : ArithmeticOp} {e : Expression} {right : Value}
    (value : Yields env e (.ok right)) (missing : env.find? name = none) :
    Assigned env name (some op) e (.error (.scope (.undefined name)))
  | compound_error {op : ArithmeticOp} {e : Expression} {error : EvalError}
    (value : Yields env e (.error error)) : Assigned env name (some op) e (.error error)

mutual

/-- The statement leads from one stack of frames to another, with its value or its error. -/
inductive Executes : Env → Statement → Except EvalError Value → Env → Prop where
  | expression {env : Env} {e : Expression} {result : Except EvalError Value}
    (value : Yields env e result) : Executes env (.expression e) result env
  | declaration {frame : Frame} {outer : Env} {name : String} {constant : Bool}
    {init : Option Expression} {v : Value} (value : Initial (frame :: outer) init (.ok v))
    (fresh : name ∉ frame) :
    Executes (frame :: outer) (.declare name constant init) (.ok .null)
      (frame.insert name ⟨v, constant⟩ :: outer)
  | redeclaration {frame : Frame} {outer : Env} {name : String} {constant : Bool}
    {init : Option Expression} {v : Value} (value : Initial (frame :: outer) init (.ok v))
    (taken : name ∈ frame) :
    Executes (frame :: outer) (.declare name constant init)
      (.error (.scope (.alreadyDefined name))) (frame :: outer)
  | declaration_error {env : Env} {name : String} {constant : Bool} {init : Option Expression}
    {e : EvalError} (value : Initial env init (.error e)) :
    Executes env (.declare name constant init) (.error e) env
  | assignment {env : Env} {name : String} {op : Option ArithmeticOp} {e : Expression}
    {v old : Value} (value : Assigned env name op e (.ok v))
    (found : env.find? name = some ⟨old, false⟩) :
    Executes env (.assign name op e) (.ok v) (env.put name ⟨v, false⟩)
  | constant_assignment {env : Env} {name : String} {op : Option ArithmeticOp} {e : Expression}
    {v old : Value} (value : Assigned env name op e (.ok v))
    (found : env.find? name = some ⟨old, true⟩) :
    Executes env (.assign name op e) (.error (.scope (.constant name))) env
  | unknown_assignment {env : Env} {name : String} {op : Option ArithmeticOp} {e : Expression}
    {v : Value} (value : Assigned env name op e (.ok v)) (missing : env.find? name = none) :
    Executes env (.assign name op e) (.error (.scope (.undefined name))) env
  | assignment_error {env : Env} {name : String} {op : Option ArithmeticOp} {e : Expression}
    {error : EvalError} (value : Assigned env name op e (.error error)) :
    Executes env (.assign name op e) (.error error) env
  | block {env after : Env} {frame : Frame} {body : List Statement}
    {result : Except EvalError Value}
    (inside : ExecutesBlock (∅ :: env) .null body result (frame :: after)) :
    Executes env (.block body) result after

/-- The statements of a block up to the first error, after a statement with the given value. -/
inductive ExecutesBlock :
    Env → Value → List Statement → Except EvalError Value → Env → Prop where
  | done {env : Env} (last : Value) : ExecutesBlock env last [] (.ok last) env
  | error {env after : Env} {last : Value} {s : Statement} {more : List Statement}
    {e : EvalError} (first : Executes env s (.error e) after) :
    ExecutesBlock env last (s :: more) (.error e) after
  | next {env middle after : Env} {last v : Value} {s : Statement} {more : List Statement}
    {result : Except EvalError Value} (first : Executes env s (.ok v) middle)
    (later : ExecutesBlock middle v more result after) :
    ExecutesBlock env last (s :: more) result after

end

/-! ## Programs -/

/-- The statements of a program with their values, or the first error. -/
inductive Completes :
    Env → List Statement → Except EvalError (List Value) → Env → Prop where
  | done (env : Env) : Completes env [] (.ok []) env
  | error {env after : Env} {s : Statement} {more : List Statement} {e : EvalError}
    (first : Executes env s (.error e) after) : Completes env (s :: more) (.error e) after
  | next {env middle after : Env} {v : Value} {s : Statement} {more : List Statement}
    {result : Except EvalError (List Value)} (first : Executes env s (.ok v) middle)
    (later : Completes middle more result after) :
    Completes env (s :: more) (result.map (v :: ·)) after

/-- Programs one after another, each with its result and the names it leaves. Names
outlive an error. -/
inductive Transcript :
    Frame → List Tree → List (Except EvalError (List Value) × Frame) → Prop where
  | done (frame : Frame) : Transcript frame [] []
  | next {frame after : Frame} {tree : Tree} {more : List Tree}
    {result : Except EvalError (List Value)}
    {entries : List (Except EvalError (List Value) × Frame)}
    (program : Completes [frame] tree.body result [after])
    (later : Transcript after more entries) :
    Transcript frame (tree :: more) ((result, after) :: entries)

end KindScript.Lexical
