import KindScript.Proofs.Evaluation.Refinement
import KindScript.Tree.Nodes

/-!
# Expressions as instructions

The literals, names and operators of an expression make a list of instructions for a stack
of values, the left operand before the right one and both before their operator. There are
no jumps among them. Running the list does what evaluating the expression does: it leaves
the value alone on the stack, or fails with the error of the first instruction that fails.
-/

namespace KindScript.Postorder

open Scope Lexical

/-! ## The machine -/

inductive Instruction where
  | push (value : Value)
  | load (name : String)
  | arithmetic (op : ArithmeticOp)
  | comparison (op : CompareOp)
  | joint (op : JointOp)
  | negation
deriving DecidableEq

/-- Why an instruction fails. -/
inductive Fault where
  /-- There are fewer values on the stack than the instruction takes. -/
  | underflow
  | error (e : EvalError)
deriving DecidableEq

/-- A value on top of a stack, unless there is an error in its place. -/
def put (stack : List Value) : Except EvalError Value → Except Fault (List Value)
  | .ok v => .ok (v :: stack)
  | .error e => .error (.error e)

section Machine

variable (arena : Arena) (scope : Handle)

/-- The stack after an instruction. An operator takes its operands from the stack, the right
one first, as that was put there last. -/
def step : Instruction → List Value → Except Fault (List Value)
  | .push v, stack => .ok (v :: stack)
  | .load name, stack => put stack (arena.valueOf scope name)
  | .arithmetic op, right :: left :: stack => put stack (Value.arithmetic op left right)
  | .comparison op, right :: left :: stack => put stack (Value.comparison op left right)
  | .joint op, right :: left :: stack => put stack (Value.joint op left right)
  | .negation, operand :: stack => put stack (Value.negation operand)
  | _, _ => .error .underflow

/-- The stack after instructions one after another, or the fault of the first that fails. -/
def run : List Instruction → List Value → Except Fault (List Value)
  | [], stack => .ok stack
  | i :: more, stack => do
    let next ← step arena scope i stack
    run more next

/-- The instructions before one of them can be run, and that one fails. -/
def Fails (program : List Instruction) (stack : List Value) (fault : Fault) : Prop :=
  ∃ before i after reached, program = before ++ i :: after ∧
    run arena scope before stack = .ok reached ∧ step arena scope i reached = .error fault

end Machine

/-- The instructions of an expression. -/
def code : Expression → List Instruction
  | .literal v => [.push v]
  | .identifier name => [.load name]
  | .binary op left right => code left ++ (code right ++ [.arithmetic op])
  | .comparison op left right => code left ++ (code right ++ [.comparison op])
  | .joint op left right => code left ++ (code right ++ [.joint op])
  | .not operand => code operand ++ [.negation]

/-- There is one instruction for each node. -/
theorem length_code (depth : Nat) (e : Expression) :
    (code e).length = (e.nodes depth).length := by
  induction e generalizing depth with
  | literal | identifier => rfl
  | binary op l r ihl ihr | comparison op l r ihl ihr | joint op l r ihl ihr =>
    simp only [code, Expression.nodes, List.length_append, List.length_cons, List.length_nil,
      ihl (depth + 1), ihr (depth + 1), Nat.add_assoc]
  | not operand ih =>
    simp only [code, Expression.nodes, List.length_append, List.length_cons, List.length_nil,
      ih (depth + 1)]

/-! ## Running -/

section Running

variable {arena : Arena} {scope : Handle} {program : List Instruction} {stack : List Value}
  {fault : Fault}

theorem run_cons_of_ok {i : Instruction} {next : List Value}
    (done : step arena scope i stack = .ok next) :
    run arena scope (i :: program) stack = run arena scope program next := by
  rw [run, done]
  rfl

theorem run_cons_of_error {i : Instruction} (failed : step arena scope i stack = .error fault) :
    run arena scope (i :: program) stack = .error fault := by
  rw [run, failed]
  rfl

/-- A run that fails does so at its first instruction or after that. -/
theorem fails_cons_iff {i : Instruction} :
    Fails arena scope (i :: program) stack fault ↔ step arena scope i stack = .error fault ∨
      ∃ next, step arena scope i stack = .ok next ∧ Fails arena scope program next fault := by
  constructor
  · rintro ⟨before, j, after, reached, split, ran, failed⟩
    cases before with
    | nil =>
      cases split
      cases ran
      exact .inl failed
    | cons first before =>
      obtain ⟨rfl, rfl⟩ := List.cons_eq_cons.mp split
      cases done : step arena scope i stack with
      | error other =>
        rw [run_cons_of_error done] at ran
        cases ran
      | ok next =>
        rw [run_cons_of_ok done] at ran
        exact .inr ⟨next, rfl, before, j, after, reached, rfl, ran, failed⟩
  · rintro (failed | ⟨next, done, before, j, after, reached, rfl, ran, failed⟩)
    · exact ⟨[], i, program, stack, rfl, rfl, failed⟩
    · refine ⟨i :: before, j, after, reached, rfl, ?_, failed⟩
      rw [run_cons_of_ok done]
      exact ran

/-- A run has the fault of the first instruction that fails. -/
theorem run_eq_error_iff :
    run arena scope program stack = .error fault ↔ Fails arena scope program stack fault := by
  induction program generalizing stack with
  | nil =>
    refine ⟨nofun, ?_⟩
    rintro ⟨before, i, after, _, split, _⟩
    exact absurd split.symm (by simp)
  | cons i more ih =>
    rw [fails_cons_iff]
    cases done : step arena scope i stack with
    | error other =>
      rw [run_cons_of_error done]
      simp
    | ok next =>
      rw [run_cons_of_ok done, ih]
      simp

end Running

/-! ## Running the instructions of an expression -/

section Code

variable {arena : Arena} {scope : Handle}

/-- An operator with two operands is one instruction after those of its operands, and makes
of two values on the stack what it makes of two values. -/
theorem code_of_denotes {build : Expression → Expression → Expression}
    {meaning : Value → Value → Except EvalError Value} (op : Denotes build meaning) :
    ∃ i, (∀ l r, code (build l r) = code l ++ (code r ++ [i])) ∧
      ∀ left right stack,
        step arena scope i (right :: left :: stack) = put stack (meaning left right) := by
  cases op with
  | arithmetic op => exact ⟨.arithmetic op, fun _ _ => rfl, fun _ _ _ => rfl⟩
  | comparison op => exact ⟨.comparison op, fun _ _ => rfl, fun _ _ _ => rfl⟩
  | joint op => exact ⟨.joint op, fun _ _ => rfl, fun _ _ _ => rfl⟩

/-- The instructions of the expression put its result on any stack, and the run goes on from
there with whatever follows, unless the result is an error. -/
def Runs (arena : Arena) (scope : Handle) (e : Expression) : Prop :=
  ∀ more stack, run arena scope (code e ++ more) stack =
    (put stack (e.evaluate arena scope)).bind (run arena scope more)

theorem runs_operation {build : Expression → Expression → Expression}
    {meaning : Value → Value → Except EvalError Value} (op : Denotes build meaning)
    {l r : Expression} (left : Runs arena scope l) (right : Runs arena scope r) :
    Runs arena scope (build l r) := by
  intro more stack
  obtain ⟨i, split, made⟩ := @code_of_denotes arena scope _ _ op
  rw [split, List.append_assoc, List.append_assoc, left, op.evaluate_eq]
  cases l.evaluate arena scope with
  | error e => rfl
  | ok a =>
    show run arena scope (code r ++ ([i] ++ more)) (a :: stack) = _
    rw [right]
    cases r.evaluate arena scope with
    | error e => rfl
    | ok b =>
      show (step arena scope i (b :: a :: stack)).bind (run arena scope more) = _
      rw [made]
      rfl

theorem runs_code (e : Expression) : Runs arena scope e := by
  induction e with
  | literal v => exact fun more stack => rfl
  | identifier name => exact fun more stack => rfl
  | binary op l r ihl ihr => exact runs_operation (.arithmetic op) ihl ihr
  | comparison op l r ihl ihr => exact runs_operation (.comparison op) ihl ihr
  | joint op l r ihl ihr => exact runs_operation (.joint op) ihl ihr
  | not operand ih =>
    intro more stack
    rw [code, List.append_assoc, ih, Expression.evaluate]
    cases operand.evaluate arena scope with
    | error e => rfl
    | ok a => rfl

/-- The instructions of an expression never take a value that they have not put there. -/
theorem run_code (e : Expression) (stack : List Value) :
    run arena scope (code e) stack = put stack (e.evaluate arena scope) := by
  have whole : run arena scope (code e ++ []) stack = _ := runs_code e [] stack
  rw [List.append_nil] at whole
  rw [whole]
  cases e.evaluate arena scope <;> rfl

end Code

end KindScript.Postorder

namespace KindScript.Session

open Scope Postorder

/-- An expression does in any session and any scope what its instructions do, one for each of
its nodes: it has the value that they leave alone on the stack, or fails with the error of the
first of them that fails, and none of them lacks an operand. So a right operand of `&&` or `||`
that fails is reported whatever the value of the left one is. -/
theorem evaluateExpression_postorder (session : Session) (scope : Handle) (e : Expression) :
    let arena := session.memory.arena
    (code e).length = (e.nodes 0).length ∧
      (∀ v, session.evaluateExpression e scope = .ok v ↔
        run arena scope (code e) [] = .ok [v]) ∧
      (∀ error, session.evaluateExpression e scope = .error error ↔
        Fails arena scope (code e) [] (.error error)) ∧
      ¬ Fails arena scope (code e) [] .underflow ∧
      ∀ (op : JointOp) (left right : Expression) (a : Value) (error : EvalError),
        session.evaluateExpression left scope = .ok a →
          session.evaluateExpression right scope = .error error →
            session.evaluateExpression (.joint op left right) scope = .error error := by
  intro arena
  have whole : run arena scope (code e) [] = put [] (session.evaluateExpression e scope) :=
    run_code e []
  refine ⟨length_code 0 e, fun v => ?_, fun error => ?_, ?_, ?_⟩
  · rw [whole]
    cases session.evaluateExpression e scope <;> simp [put]
  · rw [← run_eq_error_iff, whole]
    cases session.evaluateExpression e scope <;> simp [put]
  · rw [← run_eq_error_iff, whole]
    cases session.evaluateExpression e scope <;> simp [put]
  · intro op left right a error decided failed
    show (Expression.joint op left right).evaluate arena scope = .error error
    have reached : left.evaluate arena scope = .ok a := decided
    have refused : right.evaluate arena scope = .error error := failed
    rw [Expression.evaluate, reached, refused]
    rfl

/-- Of `1 && 1 / 0`, where the left operand is no truth value. -/
theorem evaluateExpression_postorder_join :
    let one : Expression := .literal (.number (.integer 1))
    let ratio : Expression := .binary .divide one (.literal (.number (.integer 0)))
    (start 0).evaluateExpression one ⟨0, 0⟩ = .ok (.number (.integer 1)) ∧
      (start 0).evaluateExpression ratio ⟨0, 0⟩ = .error .divisionByZero ∧
      (start 0).evaluateExpression (.joint .and one ratio) ⟨0, 0⟩ = .error .divisionByZero ∧
      Fails (start 0).memory.arena ⟨0, 0⟩ (code (.joint .and one ratio)) []
        (.error .divisionByZero) := by
  intro one ratio
  have left : (start 0).evaluateExpression one ⟨0, 0⟩ = .ok (.number (.integer 1)) := rfl
  have right : (start 0).evaluateExpression ratio ⟨0, 0⟩ = .error .divisionByZero := rfl
  obtain ⟨_, _, fails, _, joined⟩ :=
    (start 0).evaluateExpression_postorder ⟨0, 0⟩ (.joint .and one ratio)
  have whole := joined .and one ratio _ _ left right
  exact ⟨left, right, whole, (fails _).mp whole⟩

end KindScript.Session
