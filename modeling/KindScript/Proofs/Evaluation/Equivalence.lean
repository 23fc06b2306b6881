import KindScript.Proofs.Evaluation.Independence
import KindScript.Proofs.Scopes.Spacing

/-!
# Statements that do the same

An assignment with an operator does what the assignment of the whole operation does. A
block in which nothing is declared but in blocks inside it does what its statements do one
after another in the scope around it.
-/

namespace KindScript

open Scope

/-! ## Assignments with an operator -/

/-- A name that cannot be resolved has no value, and any other name has one. -/
theorem Arena.valueOf_cases (arena : Arena) (h : Handle) (name : String) :
    (∃ v, arena.valueOf h name = .ok v) ∨
      ∃ e, arena.resolve h name = .error e ∧ arena.valueOf h name = .error (.scope e) := by
  rw [valueOf, lookup]
  cases found : arena.resolve h name with
  | error e => exact .inr ⟨e, rfl, rfl⟩
  | ok owner =>
    obtain ⟨v, named⟩ := (Bindings.contains_iff _ _).mp (contains_of_resolve found)
    exact .inl ⟨v.value, by simp only [named]⟩

namespace Memory

variable (memory : Memory) (scope : Handle) (name : String)

/-- The value that an assignment with an operator gives is that of the operation, unless
neither operand has a value. Then each of the two reports another operand. -/
theorem assigned_compound (op : ArithmeticOp) (e : Expression) :
    memory.assigned scope name (some op) e =
        memory.assigned scope name none (.binary op (.identifier name) e) ∨
      ∃ unresolved error, memory.arena.resolve scope name = .error unresolved ∧
        e.evaluate memory.arena scope = .error error ∧
        memory.assigned scope name (some op) e = .error error ∧
        memory.assigned scope name none (.binary op (.identifier name) e) =
          .error (.scope unresolved) := by
  have operation : memory.assigned scope name none (.binary op (.identifier name) e) = (do
      let current ← memory.arena.valueOf scope name
      let right ← e.evaluate memory.arena scope
      Value.arithmetic op current right) := by
    rw [assigned_none]
    rfl
  cases value : e.evaluate memory.arena scope with
  | ok right =>
    left
    rw [assigned_some value, operation, value]
    rfl
  | error error =>
    rw [assigned_of_error value, operation, value]
    rcases memory.arena.valueOf_cases scope name with ⟨current, known⟩ | ⟨e, failed, unknown⟩
    · left
      rw [known]
      rfl
    · right
      rw [unknown]
      exact ⟨e, error, failed, rfl, rfl, rfl⟩

/-- An assignment does what its value makes it do. -/
theorem assign_congr {op op' : Option ArithmeticOp} {e e' : Expression}
    (same : memory.assigned scope name op e = memory.assigned scope name op' e') :
    memory.assign scope name op e = memory.assign scope name op' e' := by
  rw [assign, assign, same]

theorem assign_of_error {op : Option ArithmeticOp} {e : Expression} {error : EvalError}
    (failed : memory.assigned scope name op e = .error error) :
    memory.assign scope name op e = (.error error, memory) := by
  rw [assign, failed]

end Memory

/-- `name op= e` does what `name = name op e` does, in any session and any scope, with the
same value or the same error. Only where the name cannot be resolved and `e` fails as well
may the errors differ, and then neither of the two changes anything. -/
theorem Session.evaluate_compound (session : Session) (scope : Handle) (name : String)
    (op : ArithmeticOp) (e : Expression) :
    session.evaluate (.assign name (some op) e) scope =
        session.evaluate (.assign name none (.binary op (.identifier name) e)) scope ∨
      ∃ unresolved error, session.memory.arena.resolve scope name = .error unresolved ∧
        session.evaluateExpression e scope = .error error ∧
        session.evaluate (.assign name (some op) e) scope = (.error error, session) ∧
        session.evaluate (.assign name none (.binary op (.identifier name) e)) scope =
          (.error (.scope unresolved), session) := by
  simp only [Session.evaluate, Statement.evaluate]
  rcases session.memory.assigned_compound scope name op e with
    same | ⟨unresolved, error, missing, failed, compound, operation⟩
  · left
    rw [session.memory.assign_congr scope name same]
  · right
    rw [session.memory.assign_of_error scope name compound,
      session.memory.assign_of_error scope name operation]
    exact ⟨unresolved, error, missing, failed, rfl, rfl⟩

/-! ## Statements around an empty scope -/

/-- The statement declares a name in the scope that it runs in. -/
def Statement.Declares : Statement → Prop
  | .declare _ _ _ => True
  | _ => False

instance : DecidablePred Statement.Declares
  | .declare _ _ _ => .isTrue trivial
  | .block _ | .assign _ _ _ | .expression _ => .isFalse id

section Spaced

variable {spacer : Spacer} {memory : Memory} {scope : Handle}

/-- The memory in which the empty scope was made before the scopes above it. -/
def Memory.spaced (spacer : Spacer) (memory : Memory) : Memory :=
  ⟨memory.arena.spaced spacer, memory.next + 1⟩

theorem Expression.evaluate_spaced {arena : Arena} (fits : spacer.slot ≤ arena.length)
    (scope : Handle) (e : Expression) :
    e.evaluate (arena.spaced spacer) (spacer.inside scope) = e.evaluate arena scope :=
  e.evaluate_congr (Arena.valueOf_spaced fits scope)

theorem Memory.commit_spaced (value : Value) (change : Except Error Arena) :
    (memory.spaced spacer).commit value (change.map (Arena.spaced spacer)) =
      ((memory.commit value change).1, (memory.commit value change).2.spaced spacer) := by
  cases change <;> rfl

theorem Memory.assign_spaced (fits : spacer.slot ≤ memory.arena.length) (scope : Handle)
    (name : String) (op : Option ArithmeticOp) (e : Expression) :
    (memory.spaced spacer).assign (spacer.inside scope) name op e =
      ((memory.assign scope name op e).1, (memory.assign scope name op e).2.spaced spacer) := by
  have value : (memory.spaced spacer).assigned (spacer.inside scope) name op e =
      memory.assigned scope name op e := by
    rw [assigned, assigned]
    simp only [spaced, e.evaluate_spaced fits, Arena.valueOf_spaced fits]
  rw [assign, assign, value]
  split
  · rfl
  · rename_i v _
    rw [← commit_spaced, ← Arena.update_spaced fits]
    rfl

theorem Memory.declare_spaced (fits : spacer.slot ≤ memory.arena.length)
    (above : spacer.slot ≤ scope.index) (name : String) (constant : Bool)
    (init : Option Expression) :
    (memory.spaced spacer).declare (spacer.inside scope) name constant init =
      ((memory.declare scope name constant init).1,
        (memory.declare scope name constant init).2.spaced spacer) := by
  have value : init.elim (.ok .null)
        (Expression.evaluate (memory.spaced spacer).arena (spacer.inside scope)) =
      init.elim (.ok .null) (Expression.evaluate memory.arena scope) := by
    cases init with
    | none => rfl
    | some e => exact e.evaluate_spaced fits scope
  rw [declare, declare, value]
  split
  · rfl
  · rename_i v _
    rw [← commit_spaced, ← Arena.define_spaced fits above]
    rfl

/-- The scope of a block stands above the empty scope. -/
theorem Memory.inner_spaced (fits : spacer.slot ≤ memory.arena.length) :
    (memory.spaced spacer).inner = spacer.inside memory.inner := by
  rw [Spacer.inside_of_le (show spacer.slot ≤ memory.inner.index from fits), inner, spaced,
    Arena.length_spaced]
  rfl

theorem Memory.entered_spaced (fits : spacer.slot ≤ memory.arena.length) (scope : Handle) :
    (memory.spaced spacer).entered (spacer.inside scope) = (memory.entered scope).spaced spacer := by
  rw [spaced, spaced, entered, entered, Arena.spaced_cons fits]
  rfl

end Spaced

mutual

/-- A statement does the same where an empty scope stands between its scope and a scope
around it. It must not declare a name in the empty scope itself. -/
theorem Statement.evaluate_spaced (spacer : Spacer) (memory : Memory) (scope : Handle)
    (fits : spacer.slot ≤ memory.arena.length) (known : memory.arena.Valid spacer.outer)
    (s : Statement) (free : s.Declares → spacer.slot ≤ scope.index) :
    s.evaluate (spacer.inside scope) (memory.spaced spacer) =
      ((s.evaluate scope memory).1, (s.evaluate scope memory).2.spaced spacer) := by
  match s with
  | .expression e =>
    rw [Statement.evaluate, Statement.evaluate, Memory.spaced, e.evaluate_spaced fits]
  | .declare name constant init =>
    exact Memory.declare_spaced fits (free trivial) name constant init
  | .assign name op e => exact Memory.assign_spaced fits scope name op e
  | .block body =>
    have valid_iff : (memory.spaced spacer).arena.Valid (spacer.inside scope) ↔
        memory.arena.Valid scope := Arena.valid_spaced fits known scope
    by_cases valid : memory.arena.Valid scope
    · have inside := Statement.evaluateBlock_spaced spacer (memory.entered scope) memory.inner
        (Nat.le_succ_of_le fits) (known.grow _) .null body (fun _ _ _ => fits)
      obtain ⟨result, after, names, rest, run, shape, same, whole⟩ :=
        Statement.evaluate_block valid body
      obtain ⟨result', after', names', rest', run', shape', _, whole'⟩ :=
        Statement.evaluate_block (valid_iff.mpr valid) body
      rw [Memory.inner_spaced fits, Memory.entered_spaced fits, inside, run] at run'
      obtain ⟨rfl, rfl⟩ := Prod.mk.inj run'
      -- The scope of the block is dropped above the empty scope as it is without that.
      have left : after.arena.spaced spacer = _ := shape'
      rw [shape, Arena.spaced_cons (Arena.length_eq_of_shape same ▸ fits)] at left
      obtain ⟨_, rfl⟩ := List.cons_eq_cons.mp left
      rw [whole, whole']
      rfl
    · rw [Statement.evaluate_block_of_not_valid valid,
        Statement.evaluate_block_of_not_valid (mt valid_iff.mp valid)]

theorem Statement.evaluateBlock_spaced (spacer : Spacer) (memory : Memory) (scope : Handle)
    (fits : spacer.slot ≤ memory.arena.length) (known : memory.arena.Valid spacer.outer)
    (last : Value) (body : List Statement)
    (free : ∀ s ∈ body, s.Declares → spacer.slot ≤ scope.index) :
    Statement.evaluateBlock (spacer.inside scope) (memory.spaced spacer) last body =
      ((Statement.evaluateBlock scope memory last body).1,
        (Statement.evaluateBlock scope memory last body).2.spaced spacer) := by
  match body with
  | [] => rfl
  | s :: more =>
    have first := Statement.evaluate_spaced spacer memory scope fits known s
      (free s List.mem_cons_self)
    have same := s.shape_evaluate scope memory
    rw [Statement.evaluateBlock, Statement.evaluateBlock, first]
    generalize s.evaluate scope memory = out at same
    obtain ⟨result, after⟩ := out
    cases result with
    | error e => rfl
    | ok v =>
      have fits' : spacer.slot ≤ after.arena.length := Arena.length_eq_of_shape same ▸ fits
      have known' := (Arena.valid_iff_of_shape same).mpr known
      exact Statement.evaluateBlock_spaced spacer after scope fits' known' v more
        fun s mem => free s (List.mem_cons_of_mem _ mem)

end

/-! ## Blocks without declarations -/

/-- The scope of a block in which nothing is declared is an empty scope, so the statements
of the block do what they do without it. -/
theorem Statement.evaluate_block_of_not_declares {memory : Memory} {scope : Handle}
    (valid : memory.arena.Valid scope) {body : List Statement}
    (plain : ∀ s ∈ body, ¬ s.Declares) :
    (Statement.block body).evaluate scope memory =
      ((Statement.evaluateBlock scope memory .null body).1,
        { (Statement.evaluateBlock scope memory .null body).2 with
          next := (Statement.evaluateBlock scope memory .null body).2.next + 1 }) := by
  let spacer : Spacer := ⟨memory.arena.length, memory.next, scope, valid.index_lt⟩
  have inner : memory.inner = spacer.inside scope := (if_pos rfl).symm
  have entered : memory.entered scope = memory.spaced spacer := by
    rw [Memory.spaced, Arena.spaced_of_length rfl]
    rfl
  have inside := Statement.evaluateBlock_spaced spacer memory scope (Nat.le_refl _) valid .null
    body fun s mem declares => absurd declares (plain s mem)
  obtain ⟨result, after, names, rest, run, shape, _, whole⟩ := Statement.evaluate_block valid body
  have kept := Statement.shape_evaluateBlock scope memory .null body
  rw [inner, entered, inside] at run
  obtain ⟨rfl, rfl⟩ := Prod.mk.inj run
  have left : Arena.spaced spacer _ = _ := shape
  rw [Arena.spaced_of_length (Arena.length_eq_of_shape kept)] at left
  obtain ⟨_, rfl⟩ := List.cons_eq_cons.mp left
  exact whole

namespace Session

/-- Runs statements one after another in any scope up to the first error. -/
def evaluateInTurn (session : Session) (scope : Handle) :
    List Statement → Except EvalError (List Value) × Session
  | [] => (.ok [], session)
  | s :: more =>
    match session.evaluate s scope with
    | (.error e, after) => (.error e, after)
    | (.ok v, after) =>
      let (values, left) := after.evaluateInTurn scope more
      (values.map (v :: ·), left)

theorem root_evaluateInTurn (session : Session) (scope : Handle) (body : List Statement) :
    (session.evaluateInTurn scope body).2.root = session.root := by
  induction body generalizing session with
  | nil => rfl
  | cons s more ih =>
    rw [evaluateInTurn, evaluate]
    rcases s.evaluate scope session.memory with ⟨e | v, after⟩
    · rfl
    · exact ih ⟨after, session.root⟩

/-- The value of a block is that of its last statement. -/
theorem evaluateBlock_eq (session : Session) (scope : Handle) (last : Value)
    (body : List Statement) :
    Statement.evaluateBlock scope session.memory last body =
      ((session.evaluateInTurn scope body).1.map fun values => values.getLast?.getD last,
        (session.evaluateInTurn scope body).2.memory) := by
  induction body generalizing session last with
  | nil => rfl
  | cons s more ih =>
    rw [Statement.evaluateBlock, evaluateInTurn, evaluate]
    rcases s.evaluate scope session.memory with ⟨e | v, after⟩
    · rfl
    · simp only
      rw [ih ⟨after, session.root⟩ v]
      cases (evaluateInTurn ⟨after, session.root⟩ scope more).1 with
      | error e => rfl
      | ok values => cases values <;> rfl

/-- A block in which nothing is declared but in blocks inside it does in any known scope what
its statements do there one after another: it has the value of the last one, or null where
there is none, or the first error, and all scopes have the same names afterwards. -/
theorem evaluate_transparent (session : Session) {scope : Handle}
    (valid : session.memory.arena.Valid scope) {body : List Statement}
    (plain : ∀ s ∈ body, ¬ s.Declares) :
    (session.evaluate (.block body) scope).1 =
        (session.evaluateInTurn scope body).1.map (fun values => values.getLast?.getD .null) ∧
      (session.evaluate (.block body) scope).2.memory.arena =
        (session.evaluateInTurn scope body).2.memory.arena ∧
      (session.evaluate (.block body) scope).2.root =
        (session.evaluateInTurn scope body).2.root := by
  rw [root_evaluateInTurn, evaluate, Statement.evaluate_block_of_not_declares valid plain,
    evaluateBlock_eq]
  exact ⟨rfl, rfl, rfl⟩

/-- A block that gives the variable around it another value, hides it in a block inside, and
fails at the end. -/
private def overshadowed : List Statement :=
  [.assign "x" none (.literal (.boolean true)),
    .block [.declare "x" false none, .assign "x" none (.literal (.string "inner"))],
    .expression (.identifier "y")]

private def around : Session :=
  ((start 4).evaluate (.declare "x" false none) ⟨0, 4⟩).2

theorem evaluate_transparent_overshadowed :
    around.memory.arena.Valid ⟨0, 4⟩ ∧ (∀ s ∈ overshadowed, ¬ s.Declares) ∧
      (around.evaluate (.block overshadowed) ⟨0, 4⟩).1 = .error (.scope (.undefined "y")) ∧
      (around.evaluate (.block overshadowed) ⟨0, 4⟩).2.memory.arena =
        [⟨4, none, [("x", ⟨.boolean true, false⟩)]⟩] := by
  have valid : around.memory.arena.Valid ⟨0, 4⟩ := by decide
  have plain : ∀ s ∈ overshadowed, ¬ s.Declares := by decide
  obtain ⟨result, arena, _⟩ := around.evaluate_transparent valid plain
  exact ⟨valid, plain, result.trans rfl, arena.trans rfl⟩

end Session

end KindScript
