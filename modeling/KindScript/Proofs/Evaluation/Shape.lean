import KindScript.Proofs.Scopes.Arena
import KindScript.Session

/-!
# Evaluation and the shape of the arena

Evaluation may give scopes other bindings. It leaves their serial numbers and their
parents alone, whatever the statement, the handle and the outcome, because a block
drops the one scope it made.
-/

namespace KindScript

open Scope

namespace Memory

variable (memory : Memory) (scope : Handle) (name : String)

theorem shape_commit (value : Value) {change : Except Error Arena}
    (same : ∀ arena, change = .ok arena → arena.shape = memory.arena.shape) :
    (memory.commit value change).2.arena.shape = memory.arena.shape := by
  unfold commit
  split
  · exact same _ rfl
  · rfl

theorem shape_declare (constant : Bool) (value : Option Expression) :
    (memory.declare scope name constant value).2.arena.shape = memory.arena.shape := by
  unfold declare
  split
  · rfl
  · exact memory.shape_commit .null fun _ done => Arena.shape_of_define done

theorem shape_assign (op : Option ArithmeticOp) (value : Expression) :
    (memory.assign scope name op value).2.arena.shape = memory.arena.shape := by
  unfold assign
  split
  · rfl
  · exact memory.shape_commit _ fun _ done => Arena.shape_of_update done

end Memory

theorem Arena.eq_cons_of_shape {arena older : Arena} {serial : Nat} {parent : Option Handle}
    (same : arena.shape = (serial, parent) :: older.shape) :
    ∃ bindings rest, arena = ⟨serial, parent, bindings⟩ :: rest ∧
      Arena.shape rest = older.shape := by
  cases arena with
  | nil => cases same
  | cons record rest =>
    obtain ⟨top, rest_same⟩ := List.cons_eq_cons.mp same
    cases top
    exact ⟨record.bindings, rest, rfl, rest_same⟩

/-- The memory in which the statements of a block start. -/
def Memory.entered (memory : Memory) (scope : Handle) : Memory :=
  ⟨⟨memory.next, some scope, []⟩ :: memory.arena, memory.next + 1⟩

/-- The handle of the scope in which the statements of a block run. -/
def Memory.inner (memory : Memory) : Handle :=
  ⟨memory.arena.length, memory.next⟩

/-- A block whose statements keep the shape of the arena drops the scope it made. -/
theorem Statement.evaluate_block_of_shape {scope : Handle} {memory after : Memory}
    {body : List Statement} {result : Except EvalError Value}
    (valid : memory.arena.Valid scope)
    (run : Statement.evaluateBlock memory.inner (memory.entered scope) .null body = (result, after))
    (same : after.arena.shape = (memory.entered scope).arena.shape) :
    ∃ bindings rest, after.arena = ⟨memory.next, some scope, bindings⟩ :: rest ∧
      Arena.shape rest = memory.arena.shape ∧
      (Statement.block body).evaluate scope memory = (result, { after with arena := rest }) := by
  obtain ⟨bindings, rest, shape, rest_same⟩ := Arena.eq_cons_of_shape same
  have released := Arena.release_newest rest ⟨memory.next, some scope, bindings⟩
  rw [Arena.length_eq_of_shape rest_same, ← shape] at released
  refine ⟨bindings, rest, shape, rest_same, ?_⟩
  unfold Memory.inner Memory.entered at run
  rw [Statement.evaluate, Arena.push_of_valid valid]
  simp only [Arena.insert, run, released]

theorem Statement.evaluate_block_of_not_valid {scope : Handle} {memory : Memory}
    (invalid : ¬ memory.arena.Valid scope) (body : List Statement) :
    (Statement.block body).evaluate scope memory = (.error (.scope .invalidScope), memory) := by
  rw [Statement.evaluate, Arena.push_of_not_valid invalid]

mutual

/-- Evaluating a statement leaves the serial numbers and the parents of all scopes alone. -/
theorem Statement.shape_evaluate (scope : Handle) (memory : Memory) (s : Statement) :
    (s.evaluate scope memory).2.arena.shape = memory.arena.shape := by
  match s with
  | .expression value => rfl
  | .declare name constant value => exact memory.shape_declare scope name constant value
  | .assign name op value => exact memory.shape_assign scope name op value
  | .block body =>
    by_cases valid : memory.arena.Valid scope
    · have same := Statement.shape_evaluateBlock memory.inner (memory.entered scope) .null body
      obtain ⟨_, rest, _, rest_same, run⟩ := Statement.evaluate_block_of_shape valid rfl same
      rw [run]
      exact rest_same
    · rw [Statement.evaluate_block_of_not_valid valid]

theorem Statement.shape_evaluateBlock (scope : Handle) (memory : Memory) (last : Value)
    (body : List Statement) :
    (Statement.evaluateBlock scope memory last body).2.arena.shape = memory.arena.shape := by
  match body with
  | [] => rfl
  | s :: more =>
    have first := s.shape_evaluate scope memory
    unfold Statement.evaluateBlock
    split
    · rename_i failed
      rw [failed] at first
      exact first
    · rename_i value after done
      rw [done] at first
      exact (Statement.shape_evaluateBlock scope after value more).trans first

end

/-- Evaluating a block runs its statements in a new scope and drops that scope afterwards. -/
theorem Statement.evaluate_block {scope : Handle} {memory : Memory}
    (valid : memory.arena.Valid scope) (body : List Statement) :
    ∃ result after bindings rest,
      Statement.evaluateBlock memory.inner (memory.entered scope) .null body = (result, after) ∧
      after.arena = ⟨memory.next, some scope, bindings⟩ :: rest ∧
      Arena.shape rest = memory.arena.shape ∧
      (Statement.block body).evaluate scope memory = (result, { after with arena := rest }) := by
  have same := Statement.shape_evaluateBlock memory.inner (memory.entered scope) .null body
  obtain ⟨bindings, rest, shape, rest_same, run⟩ :=
    Statement.evaluate_block_of_shape valid rfl same
  exact ⟨_, _, bindings, rest, rfl, shape, rest_same, run⟩

end KindScript
