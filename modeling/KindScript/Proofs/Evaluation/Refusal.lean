import KindScript.Proofs.Evaluation.Independence
import KindScript.Proofs.Evaluation.Relevance

/-!
# Handles that reach nothing

A handle that was released, or that belongs to another interpreter, is not looked at before
a scope is needed, so some operands may have been evaluated by then. Here it is shown that
nothing is half done all the same: a statement with such a handle leaves the session as it
is, fails unless it needs no scope at all, and tells nothing about the session.
-/

namespace KindScript

open Scope Lexical

section Operations

variable {arena : Arena} {h : Handle} {build : Expression → Expression → Expression}
  {meaning : Value → Value → Except EvalError Value} {l r : Expression} {v : Value}

/-- An operation on two expressions has a value only if both of them have one. -/
theorem Lexical.Denotes.operands_of_ok (op : Denotes build meaning)
    (done : (build l r).evaluate arena h = .ok v) :
    (∃ a, l.evaluate arena h = .ok a) ∧ ∃ b, r.evaluate arena h = .ok b := by
  rw [op.evaluate_eq] at done
  cases left : l.evaluate arena h with
  | error e =>
    rw [left] at done
    cases done
  | ok a =>
    cases right : r.evaluate arena h with
    | error e =>
      rw [left, right] at done
      cases done
    | ok b => exact ⟨⟨a, rfl⟩, b, rfl⟩

theorem Lexical.Denotes.names_of_ok (op : Denotes build meaning)
    (left : ∀ a, l.evaluate arena h = .ok a → l.names = [])
    (right : ∀ b, r.evaluate arena h = .ok b → r.names = [])
    (done : (build l r).evaluate arena h = .ok v) : (build l r).names = [] := by
  obtain ⟨⟨a, first⟩, b, second⟩ := op.operands_of_ok done
  rw [op.names_eq, left a first, right b second]
  rfl

end Operations

section Refused

variable {memory : Memory} {scope : Handle} (invalid : ¬ memory.arena.Valid scope)
include invalid

/-- Both operands are evaluated, so an expression that has a value without a scope has no
name in it anywhere. -/
theorem Expression.names_of_not_valid {e : Expression} {v : Value}
    (done : e.evaluate memory.arena scope = .ok v) : e.names = [] := by
  induction e generalizing v with
  | literal => rfl
  | identifier name =>
    rw [evaluate, Arena.valueOf_of_not_valid invalid] at done
    cases done
  | binary op l r ihl ihr => exact (Denotes.arithmetic op).names_of_ok @ihl @ihr done
  | comparison op l r ihl ihr => exact (Denotes.comparison op).names_of_ok @ihl @ihr done
  | joint op l r ihl ihr => exact (Denotes.joint op).names_of_ok @ihl @ihr done
  | not operand ih =>
    rw [evaluate] at done
    cases value : operand.evaluate memory.arena scope with
    | error e =>
      rw [value] at done
      cases done
    | ok a => exact ih value

/-- A declaration evaluates what it gives to its name and is refused then. -/
theorem Memory.declare_of_not_valid (name : String) (constant : Bool)
    (init : Option Expression) :
    (memory.declare scope name constant init).1 =
      (init.elim (.ok .null) (Expression.evaluate memory.arena scope)).bind fun _ =>
        .error (.scope .invalidScope) := by
  rw [declare]
  cases init.elim (.ok .null) (Expression.evaluate memory.arena scope) with
  | error e => rfl
  | ok v =>
    simp only [Arena.define_of_not_valid invalid]
    rfl

/-- An assignment evaluates its right side and is refused then, with an operator because the
name has no value, without one because it cannot get one. -/
theorem Memory.assign_of_not_valid (name : String) (op : Option ArithmeticOp)
    (e : Expression) :
    (memory.assign scope name op e).1 =
      (e.evaluate memory.arena scope).bind fun _ => .error (.scope .invalidScope) := by
  rw [assign, assigned]
  cases e.evaluate memory.arena scope with
  | error e => rfl
  | ok v =>
    cases op with
    | none =>
      show (memory.commit v (memory.arena.update scope name v)).1 = _
      rw [Arena.update_of_not_valid invalid]
      rfl
    | some op =>
      simp only [Arena.valueOf_of_not_valid invalid]
      rfl

/-- Only an expression without names has a value. -/
theorem Statement.expression_of_not_valid {s : Statement} {v : Value}
    (done : (s.evaluate scope memory).1 = .ok v) : ∃ e, s = .expression e ∧ e.names = [] := by
  have refused (value : Except EvalError Value) :
      (value.bind fun _ => .error (.scope .invalidScope)) ≠ .ok v := by
    cases value <;> exact nofun
  cases s with
  | expression e => exact ⟨e, rfl, e.names_of_not_valid invalid done⟩
  | declare name constant init =>
    exact absurd ((memory.declare_of_not_valid invalid name constant init).symm.trans done)
      (refused _)
  | assign name op e =>
    exact absurd ((memory.assign_of_not_valid invalid name op e).symm.trans done) (refused _)
  | block body =>
    rw [Statement.evaluate_block_of_not_valid invalid] at done
    cases done

end Refused

namespace Session

variable {session : Session} {scope : Handle}

theorem evaluate_of_not_valid (invalid : ¬ session.memory.arena.Valid scope) (s : Statement) :
    (session.evaluate s scope).2 = session := by
  rw [evaluate, s.evaluate_of_not_valid invalid invalid]

/-- Statements one after another in a scope that is not there have each its own result. -/
theorem evaluateEach_of_not_valid (invalid : ¬ session.memory.arena.Valid scope)
    (body : List Statement) :
    session.evaluateEach scope body =
      (body.map fun s => (session.evaluate s scope).1, session) := by
  induction body with
  | nil => rfl
  | cons s more ih =>
    rw [evaluateEach]
    simp only [evaluate_of_not_valid invalid, ih]
    rfl

/-- A handle that is not valid in a session, because its scope was released or is one of
another interpreter, can neither read nor write there. A statement with it leaves the session
as it was, and so do any statements one after another. It has a value only if it is an
expression without names, and its result is that in any other session with any handle not
valid there. A declaration and an assignment fail with the error of what they assign, or else
for the handle; a block fails for the handle at once. -/
theorem evaluate_detached (invalid : ¬ session.memory.arena.Valid scope) :
    (∀ s, (session.evaluate s scope).2 = session) ∧
      (∀ body, session.evaluateEach scope body =
        (body.map fun s => (session.evaluate s scope).1, session)) ∧
      (∀ s v, (session.evaluate s scope).1 = .ok v → ∃ e, s = .expression e ∧ e.names = []) ∧
      (∀ s (other : Session) (elsewhere : Handle), ¬ other.memory.arena.Valid elsewhere →
        (other.evaluate s elsewhere).1 = (session.evaluate s scope).1) ∧
      (∀ name constant init, (session.evaluate (.declare name constant init) scope).1 =
        (init.elim (.ok .null) (session.evaluateExpression · scope)).bind fun _ =>
          .error (.scope .invalidScope)) ∧
      (∀ name op e, (session.evaluate (.assign name op e) scope).1 =
        (session.evaluateExpression e scope).bind fun _ => .error (.scope .invalidScope)) ∧
      ∀ body, (session.evaluate (.block body) scope).1 = .error (.scope .invalidScope) := by
  refine ⟨evaluate_of_not_valid invalid, evaluateEach_of_not_valid invalid, fun s v done => ?_,
    fun s other elsewhere unknown => ?_, fun name constant init => ?_, fun name op e => ?_,
    fun body => ?_⟩
  · exact s.expression_of_not_valid invalid done
  · rw [evaluate, s.evaluate_of_not_valid unknown invalid]
    rfl
  · exact session.memory.declare_of_not_valid invalid name constant init
  · exact session.memory.assign_of_not_valid invalid name op e
  · exact congrArg Prod.fst (Statement.evaluate_block_of_not_valid invalid body)

/-- A session with a variable, in which the scope of a block was released. -/
private def leftBehind : Session :=
  (start 0).after [.evaluate (.declare "x" false none) ⟨0, 0⟩, .evaluate (.block []) ⟨0, 0⟩]

theorem evaluate_detached_released :
    let change : Statement :=
      .assign "x" (some .add) (.binary .divide (.literal (.number (.integer 1)))
        (.literal (.number (.integer 0))))
    let read : Statement := .expression (.identifier "x")
    ¬ leftBehind.memory.arena.Valid ⟨1, 1⟩ ∧
      ¬ leftBehind.memory.arena.Valid (start 5).root ∧
      leftBehind.evaluateEach ⟨1, 1⟩ [change, read, .block []] =
        ([.error .divisionByZero, .error (.scope .invalidScope), .error (.scope .invalidScope)],
          leftBehind) ∧
      (leftBehind.evaluate change (start 5).root).1 = (leftBehind.evaluate change ⟨1, 1⟩).1 := by
  intro change read
  have released : ¬ leftBehind.memory.arena.Valid ⟨1, 1⟩ := by decide
  have foreign : ¬ leftBehind.memory.arena.Valid (start 5).root := by decide
  obtain ⟨_, run, _, same, _⟩ := evaluate_detached released
  exact ⟨released, foreign, run [change, read, .block []],
    same change leftBehind (start 5).root foreign⟩

end Session

end KindScript
