import KindScript.Proofs.Evaluation.Refinement

/-!
# Evaluation restores the arena

Whatever a session is asked for, with whatever handles, it has its root scope alone
afterwards, and the root knows its own names. A block can always release the scope that
it made. That the root is never refused comes from the semantics of
`KindScript.Lexical`, which has no handles and so no error about them.
-/

namespace KindScript

open Scope Lexical

/-! ## Calls on a session -/

namespace Session

/-- What can happen to a session. Other arenas draw from the same counter, so serial numbers
may go by between two calls. -/
inductive Call where
  | evaluate (s : Statement) (scope : Handle)
  | tree (tree : Tree)
  | expression (e : Expression) (scope : Handle)
  | elsewhere (scopes : Nat)

/-- The session after a call, whether or not the call failed. -/
def perform (session : Session) : Call → Session
  | .evaluate s scope => (session.evaluate s scope).2
  | .tree tree => (session.evaluateTree tree).2
  | .expression _ _ => session
  | .elsewhere scopes =>
    { session with memory := { session.memory with next := session.memory.next + scopes } }

/-- The session after calls one after another. -/
def after (session : Session) (calls : List Call) : Session :=
  calls.foldl perform session

theorem after_append (session : Session) (calls later : List Call) :
    session.after (calls ++ later) = (session.after calls).after later :=
  List.foldl_append

/-- What every statement in every scope keeps of a session, every call keeps. -/
theorem perform_induction {P : Session → Session → Prop} (refl : ∀ session, P session session)
    (trans : ∀ {a b c}, P a b → P b c → P a c)
    (statement : ∀ session s scope, P session (session.evaluate s scope).2)
    (elsewhere : ∀ session scopes, P session (session.perform (.elsewhere scopes)))
    (session : Session) (call : Call) : P session (session.perform call) := by
  cases call with
  | evaluate s scope => exact statement session s scope
  | tree tree =>
    rw [perform, evaluateTree]
    generalize tree.body = body
    induction body generalizing session with
    | nil => exact refl session
    | cons s more ih =>
      have first := statement session s session.root
      rw [evaluateAll]
      split
      · rename_i failed
        rw [failed] at first
        exact first
      · rename_i done
        rw [done] at first
        exact trans first (ih _)
  | expression e scope => exact refl session
  | elsewhere scopes => exact elsewhere session scopes

/-- What every call keeps of a session, calls one after another keep. -/
theorem after_induction {P : Session → Session → Prop} (refl : ∀ session, P session session)
    (trans : ∀ {a b c}, P a b → P b c → P a c)
    (statement : ∀ session s scope, P session (session.evaluate s scope).2)
    (elsewhere : ∀ session scopes, P session (session.perform (.elsewhere scopes)))
    (session : Session) (calls : List Call) : P session (session.after calls) := by
  induction calls generalizing session with
  | nil => exact refl session
  | cons call more ih =>
    exact trans (perform_induction refl trans statement elsewhere session call) (ih _)

/-- The scopes of a session, apart from their names, and its root handle. -/
def outline (session : Session) : List (Nat × Option Handle) × Handle :=
  (session.memory.arena.shape, session.root)

theorem outline_evaluate (session : Session) (s : Statement) (scope : Handle) :
    (session.evaluate s scope).2.outline = session.outline :=
  congrArg (·, session.root) (s.shape_evaluate scope session.memory)

theorem outline_after (session : Session) (calls : List Call) :
    (session.after calls).outline = session.outline := by
  refine Eq.symm (after_induction (P := fun a b => a.outline = b.outline) ?_ ?_ ?_ ?_
    session calls)
  · exact fun _ => rfl
  · exact fun first later => first.trans later
  · exact fun session s scope => (session.outline_evaluate s scope).symm
  · exact fun _ _ => rfl

/-- A session has its root scope alone, whatever happened to it. -/
theorem atRoot_after (serial : Nat) (calls : List Call) :
    ∃ bindings, ((start serial).after calls).AtRoot bindings := by
  have same := outline_after (start serial) calls
  have shape : ((start serial).after calls).memory.arena.shape =
      (serial, none) :: Arena.shape [] :=
    congrArg Prod.fst same
  have root : ((start serial).after calls).root = ⟨0, serial⟩ := congrArg Prod.snd same
  obtain ⟨bindings, rest, single, none⟩ := Arena.eq_cons_of_shape shape
  have alone : rest = [] := List.map_eq_nil_iff.mp none
  subst alone
  exact ⟨bindings, by rw [single, root], by rw [root]⟩

end Session

/-! ## The error about handles -/

/-- The result is not the error about a handle. Any other error is one of the program. -/
def HandleAccepted {α : Type} (result : Except EvalError α) : Prop :=
  result ≠ .error (.scope .invalidScope)

theorem Value.handleAccepted_arithmetic (op : ArithmeticOp) (a b : Value) :
    HandleAccepted (Value.arithmetic op a b) := by
  unfold Value.arithmetic HandleAccepted
  split <;> split <;> simp

namespace Lexical

theorem Denotes.handleAccepted {build : Expression → Expression → Expression}
    {meaning : Value → Value → Except EvalError Value} (op : Denotes build meaning)
    (a b : Value) : HandleAccepted (meaning a b) := by
  cases op with
  | arithmetic op => exact Value.handleAccepted_arithmetic op a b
  | comparison op =>
    unfold Value.comparison HandleAccepted
    split <;> simp
  | joint op =>
    unfold Value.joint HandleAccepted
    split <;> simp

theorem Yields.handleAccepted {env : Env} {e : Expression} {result : Except EvalError Value}
    (yields : Yields env e result) : HandleAccepted result := by
  induction yields with
  | literal | name | unknown => simp [HandleAccepted]
  | operation op => exact op.handleAccepted _ _
  | left_error _ _ ih => exact ih
  | right_error _ _ _ _ ih => exact ih
  | negation =>
    unfold Value.negation HandleAccepted
    split <;> simp
  | negation_error _ ih => exact ih

theorem Initial.handleAccepted {env : Env} {value : Option Expression}
    {result : Except EvalError Value} (initial : Initial env value result) :
    HandleAccepted result := by
  cases initial with
  | none => simp [HandleAccepted]
  | some yields => exact yields.handleAccepted

theorem Assigned.handleAccepted {env : Env} {name : String} {op : Option ArithmeticOp}
    {e : Expression} {result : Except EvalError Value}
    (assigned : Assigned env name op e result) : HandleAccepted result := by
  cases assigned with
  | plain value => exact value.handleAccepted
  | compound => exact Value.handleAccepted_arithmetic _ _ _
  | compound_unknown => simp [HandleAccepted]
  | compound_error value => exact value.handleAccepted

mutual

theorem Executes.handleAccepted {env after : Env} {s : Statement} {result : Except EvalError Value}
    (run : Executes env s result after) : HandleAccepted result := by
  match run with
  | .expression value => exact value.handleAccepted
  | .declaration _ _ | .redeclaration _ _ => simp [HandleAccepted]
  | .declaration_error value => exact value.handleAccepted
  | .assignment _ _ | .constant_assignment _ _ | .unknown_assignment _ _ => simp [HandleAccepted]
  | .assignment_error value => exact value.handleAccepted
  | .block inside => exact inside.handleAccepted

theorem ExecutesBlock.handleAccepted {env after : Env} {last : Value} {body : List Statement}
    {result : Except EvalError Value} (run : ExecutesBlock env last body result after) :
    HandleAccepted result := by
  match run with
  | .done last => simp [HandleAccepted]
  | .error first => exact first.handleAccepted
  | .next _ later => exact later.handleAccepted

end

theorem Completes.handleAccepted {env after : Env} {body : List Statement}
    {result : Except EvalError (List Value)} (run : Completes env body result after) :
    HandleAccepted result := by
  induction run with
  | done => simp [HandleAccepted]
  | error first =>
    have known := first.handleAccepted
    simpa [HandleAccepted] using known
  | @next _ _ _ _ _ _ result _ _ ih =>
    cases result with
    | error e => exact ih
    | ok values => simp [HandleAccepted, Except.map]

end Lexical

/-! ## What is restored -/

/-- The scope of a block is there to be released when its statements have run, however
they ended. -/
theorem Statement.release_evaluateBlock (memory : Memory) {scope inner : Handle} {arena : Arena}
    (pushed : memory.arena.push memory.next scope = .ok (inner, arena))
    (body : List Statement) :
    ∃ left, (Statement.evaluateBlock inner ⟨arena, memory.next + 1⟩ .null body).2.arena.release
      inner = .ok left ∧ left.shape = memory.arena.shape := by
  by_cases valid : memory.arena.Valid scope
  case neg =>
    rw [Arena.push_of_not_valid valid] at pushed
    cases pushed
  rw [Arena.push_of_valid valid] at pushed
  cases pushed
  have same := Statement.shape_evaluateBlock memory.inner (memory.entered scope) .null body
  obtain ⟨bindings, rest, grown, kept⟩ := Arena.eq_cons_of_shape same
  refine ⟨rest, ?_, kept⟩
  have released := Arena.release_newest rest ⟨memory.next, some scope, bindings⟩
  rw [Arena.length_eq_of_shape kept, ← grown] at released
  exact released

namespace Session

/-- After any calls, whether they failed or not, a session has its root scope alone and knows
it. Another statement in any scope leaves the serial numbers and parents of all scopes as
they were, so no handle goes stale, and no statement, expression or program in the root is
refused for its handle. In no memory at all can a block not release its scope. -/
theorem restored_after (serial : Nat) (calls : List Call) :
    (∀ (s : Statement) (scope : Handle),
      (((start serial).after calls).evaluate s scope).2.memory.arena.shape =
          ((start serial).after calls).memory.arena.shape ∧
        ∀ h, (((start serial).after calls).evaluate s scope).2.memory.arena.Valid h ↔
          ((start serial).after calls).memory.arena.Valid h) ∧
      (∀ (memory : Memory) (scope inner : Handle) (arena : Arena) (body : List Statement),
        memory.arena.push memory.next scope = .ok (inner, arena) →
          ∃ left, (Statement.evaluateBlock inner ⟨arena, memory.next + 1⟩ .null
            body).2.arena.release inner = .ok left) ∧
      ((start serial).after calls).memory.arena.length = 1 ∧
      ((start serial).after calls).memory.arena.Valid ((start serial).after calls).root ∧
      (∀ s, HandleAccepted (((start serial).after calls).evaluate s
        ((start serial).after calls).root).1) ∧
      (∀ e, HandleAccepted (((start serial).after calls).evaluateExpression e
        ((start serial).after calls).root)) ∧
      ∀ tree, HandleAccepted (((start serial).after calls).evaluateTree tree).1 := by
  obtain ⟨bindings, root⟩ := atRoot_after serial calls
  generalize (start serial).after calls = session at root ⊢
  refine ⟨fun s scope => ?_, fun memory scope inner arena body pushed => ?_, ?_, root.valid,
    fun s => ?_, fun e => ?_, fun tree => ?_⟩
  · have same : (session.evaluate s scope).2.memory.arena.shape = session.memory.arena.shape :=
      s.shape_evaluate scope session.memory
    exact ⟨same, fun h => Arena.valid_iff_of_shape same⟩
  · obtain ⟨left, released, _⟩ := Statement.release_evaluateBlock memory pushed body
    exact ⟨left, released⟩
  · rw [root.1]
    rfl
  · exact (s.executes session.root session.memory root.sound root.valid).handleAccepted
  · exact (e.yields root.sound root.valid).handleAccepted
  · obtain ⟨after, _, completes⟩ := root.evaluateAll tree.body
    exact ((completes _ _).mpr ⟨rfl, rfl⟩).handleAccepted

/-- A block in a block in which an unknown name is read. -/
private def failing : Statement :=
  .block [.block [.expression (.identifier "x")]]

theorem restored_after_failing :
    ((start 0).evaluate failing ⟨0, 0⟩).1 = .error (.scope (.undefined "x")) ∧
      ((start 0).after [.evaluate failing ⟨0, 0⟩, .elsewhere 3]).memory.arena.length = 1 ∧
      ∃ left, (Statement.evaluateBlock ⟨1, 6⟩ ⟨[⟨6, some ⟨0, 0⟩, []⟩, ⟨0, none, []⟩], 7⟩ .null
        [failing]).2.arena.release ⟨1, 6⟩ = .ok left := by
  obtain ⟨_, releases, single, _⟩ :=
    restored_after 0 [.evaluate failing ⟨0, 0⟩, .elsewhere 3]
  exact ⟨rfl, single, releases ⟨[⟨0, none, []⟩], 6⟩ ⟨0, 0⟩ _ _ _ rfl⟩

end Session

end KindScript
