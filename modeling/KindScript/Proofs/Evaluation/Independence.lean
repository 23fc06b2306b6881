import KindScript.Proofs.Evaluation.Restoration
import KindScript.Proofs.Scopes.Bindings
import KindScript.Proofs.Scopes.Renaming

/-!
# Interpreters do not interfere

A session has only its root scope between two calls, and only one handle reaches it. Any
other handle is refused in the same way wherever it comes from. What a session replies is
thus settled by the names in its root and by which of the calls are on the root. It has
to do neither with the serial number of the root nor with the interpreters that draw
from the same counter in between.
-/

namespace KindScript

open Scope Lexical

/-! ## Handles that are refused -/

section Refused

namespace Arena

variable {arena : Arena} {h : Handle}

theorem valueOf_of_not_valid (invalid : ¬ arena.Valid h) (name : String) :
    arena.valueOf h name = .error (.scope .invalidScope) := by
  rw [valueOf, lookup, resolve_of_not_valid invalid]

theorem define_of_not_valid (invalid : ¬ arena.Valid h) (name : String) (v : Variable) :
    arena.define h name v = .error .invalidScope := by
  rw [Valid, Option.not_isSome_iff_eq_none] at invalid
  rw [define, invalid]

theorem update_of_not_valid (invalid : ¬ arena.Valid h) (name : String) (value : Value) :
    arena.update h name value = .error .invalidScope := by
  rw [update, resolve_of_not_valid invalid]

end Arena

/-- An expression looks at nothing but the values of names. -/
theorem Expression.evaluate_congr {a b : Arena} {g h : Handle}
    (same : ∀ name, a.valueOf g name = b.valueOf h name) (e : Expression) :
    e.evaluate a g = e.evaluate b h := by
  induction e with
  | literal v => rfl
  | identifier name => exact same name
  | binary op l r ihl ihr | comparison op l r ihl ihr | joint op l r ihl ihr =>
    simp only [evaluate, ihl, ihr]
  | not operand ih => simp only [evaluate, ih]

theorem Expression.evaluate_of_not_valid {a b : Arena} {g h : Handle} (ha : ¬ a.Valid g)
    (hb : ¬ b.Valid h) (e : Expression) : e.evaluate a g = e.evaluate b h := by
  refine e.evaluate_congr fun name => ?_
  rw [Arena.valueOf_of_not_valid ha, Arena.valueOf_of_not_valid hb]

variable {a b : Memory} {g h : Handle}

theorem Memory.assigned_of_not_valid (ha : ¬ a.arena.Valid g) (hb : ¬ b.arena.Valid h)
    (name : String) (op : Option ArithmeticOp) (e : Expression) :
    a.assigned g name op e = b.assigned h name op e := by
  rw [assigned, assigned, e.evaluate_of_not_valid ha hb, Arena.valueOf_of_not_valid ha,
    Arena.valueOf_of_not_valid hb]

/-- A statement in a scope that is not there changes nothing and fails, or has its value,
whatever the memory and the handle. -/
theorem Statement.evaluate_of_not_valid (ha : ¬ a.arena.Valid g) (hb : ¬ b.arena.Valid h)
    (s : Statement) : s.evaluate g a = ((s.evaluate h b).1, a) := by
  cases s with
  | expression e => rw [evaluate, evaluate, e.evaluate_of_not_valid ha hb]
  | declare name constant init =>
    have value : init.elim (.ok .null) (Expression.evaluate a.arena g) =
        init.elim (.ok .null) (Expression.evaluate b.arena h) := by
      cases init with
      | none => rfl
      | some e => exact e.evaluate_of_not_valid ha hb
    rw [evaluate, evaluate, Memory.declare, Memory.declare, value]
    cases init.elim (.ok .null) (Expression.evaluate b.arena h) with
    | error e => rfl
    | ok v =>
      simp only [Arena.define_of_not_valid ha, Arena.define_of_not_valid hb]
      rfl
  | assign name op e =>
    rw [evaluate, evaluate, Memory.assign, Memory.assign, Memory.assigned_of_not_valid ha hb]
    cases b.assigned h name op e with
    | error e => rfl
    | ok v =>
      simp only [Arena.update_of_not_valid ha, Arena.update_of_not_valid hb]
      rfl
  | block body => rw [evaluate_block_of_not_valid ha, evaluate_block_of_not_valid hb]

end Refused

/-! ## Replies -/

namespace Session

/-- The same call with the handle that the scope has under other serial numbers. -/
def Call.rename (ρ : Nat → Nat) : Call → Call
  | .evaluate s scope => .evaluate s (scope.rename ρ)
  | .tree program => .tree program
  | .expression e scope => .expression e (scope.rename ρ)
  | .elsewhere scopes => .elsewhere scopes

/-- What a call returns. -/
inductive Reply where
  | value (result : Except EvalError Value)
  | values (result : Except EvalError (List Value))

/-- What a session replies to a call. What happens elsewhere is no call on it. -/
def reply? (session : Session) : Call → Option Reply
  | .evaluate s scope => some (.value (session.evaluate s scope).1)
  | .tree tree => some (.values (session.evaluateTree tree).1)
  | .expression e scope => some (.value (session.evaluateExpression e scope))
  | .elsewhere _ => none

/-- The replies of a session to calls one after another. -/
def replies (session : Session) : List Call → List Reply
  | [] => []
  | call :: more => (session.reply? call).toList ++ (session.perform call).replies more

/-- The session has its root scope alone, with the names of the frame. -/
def Holds (session : Session) (frame : Frame) : Prop :=
  ∃ bindings, session.AtRoot bindings ∧ bindings.frame = frame

/-- Two sessions that differ at most in their serial numbers. -/
def Alike (ρ : Nat → Nat) (a b : Session) : Prop :=
  b.root = a.root.rename ρ ∧ ∃ frame, a.Holds frame ∧ b.Holds frame

section Two

variable {ρ : Nat → Nat} {a b session : Session} {frame : Frame}

theorem Holds.valid_iff (holds : session.Holds frame) {h : Handle} :
    session.memory.arena.Valid h ↔ h = session.root := by
  obtain ⟨bindings, ⟨single, index⟩, _⟩ := holds
  have root : session.root = ⟨0, session.root.serial⟩ := by rw [← index]
  rw [single, Arena.valid_cons_iff, root]
  exact or_iff_left Bool.false_ne_true

/-- What a statement does in the root is settled by the names there. -/
theorem Holds.evaluate (holds : session.Holds frame) (s : Statement) :
    ∃ after, (session.evaluate s session.root).2.Holds after ∧
      ∀ result env, Executes [frame] s result env ↔
        (session.evaluate s session.root).1 = result ∧ [after] = env := by
  obtain ⟨bindings, root, rfl⟩ := holds
  obtain ⟨after, kept, run⟩ := root.evaluate s
  exact ⟨after.frame, ⟨after, kept, rfl⟩, run⟩

theorem Holds.evaluateAll (holds : session.Holds frame) (body : List Statement) :
    ∃ after, (session.evaluateAll body).2.Holds after ∧
      ∀ result env, Completes [frame] body result env ↔
        (session.evaluateAll body).1 = result ∧ [after] = env := by
  obtain ⟨bindings, root, rfl⟩ := holds
  obtain ⟨after, kept, run⟩ := root.evaluateAll body
  exact ⟨after.frame, ⟨after, kept, rfl⟩, run⟩

theorem Holds.yields_iff (holds : session.Holds frame) (e : Expression)
    (result : Except EvalError Value) :
    Yields [frame] e result ↔ session.evaluateExpression e session.root = result := by
  obtain ⟨bindings, root, rfl⟩ := holds
  have yields := e.yields root.sound root.valid
  rw [← root.env]
  constructor
  · exact fun run => run.evaluate_eq root.sound root.valid
  · rintro rfl
    exact yields

theorem Holds.binding? (holds : session.Holds frame) (name : String) :
    session.memory.arena.binding? session.root name = frame.lookup name := by
  obtain ⟨bindings, root, rfl⟩ := holds
  rw [Arena.binding?_of_get? root.get?, Bindings.lookup_frame]

theorem root_perform (session : Session) (call : Call) :
    (session.perform call).root = session.root :=
  congrArg Prod.snd (session.outline_after [call])

/-- A statement on any handle but that of the root leaves the session as it is. -/
theorem Holds.evaluate_of_ne (ha : a.Holds frame) {other : Frame} (hb : b.Holds other)
    {g h : Handle} (awayA : g ≠ a.root) (awayB : h ≠ b.root) (s : Statement) :
    a.evaluate s g = ((b.evaluate s h).1, a) := by
  have refused := s.evaluate_of_not_valid (mt ha.valid_iff.mp awayA) (mt hb.valid_iff.mp awayB)
  rw [Session.evaluate, refused]
  rfl

theorem Alike.evaluate (alike : Alike ρ a b) (injective : Function.Injective ρ) (s : Statement)
    (h : Handle) :
    (b.evaluate s (h.rename ρ)).1 = (a.evaluate s h).1 ∧
      Alike ρ (a.evaluate s h).2 (b.evaluate s (h.rename ρ)).2 := by
  obtain ⟨root, frame, ha, hb⟩ := alike
  by_cases here : h = a.root
  · obtain ⟨after, kept, run⟩ := ha.evaluate s
    obtain ⟨after', kept', run'⟩ := hb.evaluate s
    -- Both go through the one step that the semantics has for the names of the root.
    obtain ⟨same, framed⟩ := (run' _ _).mp ((run _ _).mpr ⟨rfl, rfl⟩)
    obtain rfl : after' = after := List.singleton_inj.mp framed
    rw [here, ← root]
    exact ⟨same, root, after', kept, kept'⟩
  · have away : h.rename ρ ≠ b.root := by
      rw [root]
      exact fun same => here (Handle.rename_injective injective same)
    rw [ha.evaluate_of_ne hb here away, hb.evaluate_of_ne hb away away]
    exact ⟨rfl, root, frame, ha, hb⟩

/-- A call does the same to two such sessions, and they stay alike. -/
theorem Alike.perform (alike : Alike ρ a b) (injective : Function.Injective ρ) (call : Call) :
    b.reply? (call.rename ρ) = a.reply? call ∧
      Alike ρ (a.perform call) (b.perform (call.rename ρ)) := by
  cases call with
  | evaluate s h =>
    obtain ⟨same, kept⟩ := alike.evaluate injective s h
    exact ⟨congrArg (fun result => some (Reply.value result)) same, kept⟩
  | tree program =>
    obtain ⟨root, frame, ha, hb⟩ := alike
    obtain ⟨after, kept, run⟩ := ha.evaluateAll program.body
    obtain ⟨after', kept', run'⟩ := hb.evaluateAll program.body
    obtain ⟨same, framed⟩ := (run' _ _).mp ((run _ _).mpr ⟨rfl, rfl⟩)
    obtain rfl : after' = after := List.singleton_inj.mp framed
    refine ⟨congrArg (fun result => some (Reply.values result)) same, ?_, after', kept, kept'⟩
    rw [root_perform, root_perform, root]
  | expression e h =>
    refine ⟨congrArg (fun result => some (Reply.value result)) ?_, alike⟩
    obtain ⟨root, frame, ha, hb⟩ := alike
    by_cases here : h = a.root
    · have yields := (ha.yields_iff e _).mpr rfl
      rw [here, ← root]
      exact (hb.yields_iff e _).mp yields
    · have away : h.rename ρ ≠ b.root := by
        rw [root]
        exact fun same => here (Handle.rename_injective injective same)
      exact e.evaluate_of_not_valid (mt hb.valid_iff.mp away) (mt ha.valid_iff.mp here)
  | elsewhere scopes => exact ⟨rfl, alike⟩

end Two

theorem holds_start (serial : Nat) : (start serial).Holds ∅ :=
  ⟨[], ⟨rfl, rfl⟩, rfl⟩

end Session

/-! ## Many interpreters -/

/-- Interpreters that draw their serial numbers from one counter: of each one its scopes
and the handle of its root. -/
structure World where
  interpreters : List (Arena × Handle)
  next : Nat

namespace World

open Session

/-- What can happen: another interpreter is made, or one of them is called. -/
inductive Action where
  | create
  | call (number : Nat) (call : Call)

/-- An interpreter as a session on the counter of all. -/
def session? (world : World) (number : Nat) : Option Session :=
  world.interpreters[number]?.map fun (arena, root) => ⟨⟨arena, world.next⟩, root⟩

/-- An interpreter and the counter as a session leaves them. -/
def put (world : World) (number : Nat) (session : Session) : World :=
  ⟨world.interpreters.set number (session.memory.arena, session.root), session.memory.next⟩

def perform (world : World) : Action → World
  | .create =>
    let made := start world.next
    ⟨world.interpreters ++ [(made.memory.arena, made.root)], made.memory.next⟩
  | .call number call =>
    match world.session? number with
    | none => world
    | some session => world.put number (session.perform call)

/-- The interpreters after all actions. -/
def after (world : World) (actions : List Action) : World :=
  actions.foldl perform world

/-- The call that an action is on one of the interpreters. -/
def Action.call? (number : Nat) : Action → Option Call
  | .create | .call _ (.elsewhere _) => none
  | .call other asked => if other = number then some asked else none

/-- The calls on one of the interpreters. -/
def calls (number : Nat) (actions : List Action) : List Call :=
  actions.filterMap (Action.call? number)

/-- What one of the interpreters replies while all of them are used. -/
def replies (world : World) (number : Nat) : List Action → List Reply
  | [] => []
  | action :: more =>
    ((world.session? number).bind fun session =>
      (action.call? number).bind session.reply?).toList ++
        (world.perform action).replies number more

/-- One of the interpreters is like a session by itself. -/
def Shows (ρ : Nat → Nat) (world : World) (number : Nat) (solo : Session) : Prop :=
  ∃ session, world.session? number = some session ∧ Alike ρ session solo

section Runs

variable {ρ : Nat → Nat} {world : World} {number : Nat} {solo : Session}

theorem session?_put_self {session : Session} (known : world.session? number = some session)
    (after : Session) : (world.put number after).session? number = some after := by
  obtain ⟨entry, found, _⟩ := Option.map_eq_some_iff.mp known
  obtain ⟨lt, _⟩ := List.getElem?_eq_some_iff.mp found
  show ((world.interpreters.set number _)[number]?).map _ = _
  rw [List.getElem?_set_self lt]
  rfl

/-- The others see of what happens to an interpreter that the counter goes on. -/
theorem Shows.put_of_ne (shown : Shows ρ world number solo) {other : Nat} (away : other ≠ number)
    (after : Session) : Shows ρ (world.put other after) number solo := by
  obtain ⟨session, known, alike⟩ := shown
  obtain ⟨entry, found, rfl⟩ := Option.map_eq_some_iff.mp known
  refine ⟨⟨⟨entry.1, after.memory.next⟩, entry.2⟩, ?_, alike⟩
  show ((world.interpreters.set other _)[number]?).map _ = _
  rw [List.getElem?_set_ne away, found]
  rfl

theorem Shows.create (shown : Shows ρ world number solo) :
    Shows ρ (world.perform .create) number solo := by
  obtain ⟨session, known, alike⟩ := shown
  obtain ⟨entry, found, rfl⟩ := Option.map_eq_some_iff.mp known
  obtain ⟨lt, _⟩ := List.getElem?_eq_some_iff.mp found
  refine ⟨⟨⟨entry.1, world.next + 1⟩, entry.2⟩, ?_, alike⟩
  show ((world.interpreters ++ _)[number]?).map _ = _
  rw [List.getElem?_append_left lt, found]
  rfl

/-- Whatever is no call on an interpreter leaves it as it is, but for the counter. -/
theorem Shows.perform_of_none (shown : Shows ρ world number solo) {action : Action}
    (foreign : action.call? number = none) : Shows ρ (world.perform action) number solo := by
  cases action with
  | create => exact shown.create
  | call other asked =>
    by_cases here : other = number
    · obtain ⟨session, known, alike⟩ := shown
      cases asked with
      | elsewhere scopes =>
        refine ⟨session.perform (.elsewhere scopes), ?_, alike⟩
        rw [here, World.perform, known]
        exact session?_put_self known _
      | evaluate | tree | expression =>
        rw [Action.call?, if_pos here] at foreign
        · cases foreign
        · simp
    · rw [World.perform]
      cases world.session? other with
      | none => exact shown
      | some session => exact shown.put_of_ne here _

/-- A call on an interpreter has the reply that a session by itself gives. -/
theorem Shows.perform_of_some (shown : Shows ρ world number solo)
    (injective : Function.Injective ρ) {action : Action} {call : Call}
    (own : action.call? number = some call) :
    ((world.session? number).bind fun session => session.reply? call) =
        solo.reply? (call.rename ρ) ∧
      Shows ρ (world.perform action) number (solo.perform (call.rename ρ)) := by
  obtain ⟨session, known, alike⟩ := shown
  obtain ⟨same, kept⟩ := alike.perform injective call
  have here : action = .call number call := by
    unfold Action.call? at own
    split at own
    · cases own
    · cases own
    · split at own
      · rename_i here
        cases own
        rw [here]
      · cases own
  rw [known, same, here, World.perform, known]
  exact ⟨rfl, session.perform call, session?_put_self known _, kept⟩

theorem Shows.run (shown : Shows ρ world number solo) (injective : Function.Injective ρ)
    (actions : List Action) :
    world.replies number actions = solo.replies ((calls number actions).map (Call.rename ρ)) ∧
      Shows ρ (world.after actions) number
        (solo.after ((calls number actions).map (Call.rename ρ))) := by
  induction actions generalizing world solo with
  | nil => exact ⟨rfl, shown⟩
  | cons action more ih =>
    rw [calls]
    cases asked : action.call? number with
    | none =>
      obtain ⟨replies, after⟩ := ih (shown.perform_of_none asked)
      have silent : ((world.session? number).bind fun session =>
          (none : Option Call).bind session.reply?) = none := Option.bind_fun_none _
      rw [List.filterMap_cons_none asked]
      refine ⟨?_, after⟩
      rw [World.replies, asked, silent]
      exact replies
    | some call =>
      obtain ⟨same, kept⟩ := shown.perform_of_some injective asked
      obtain ⟨replies, after⟩ := ih kept
      rw [List.filterMap_cons_some asked]
      refine ⟨?_, after⟩
      rw [World.replies, asked, List.map_cons, Session.replies, ← same]
      exact congrArg _ replies

/-- A new interpreter is like a session whose root has another serial number. -/
theorem shows_create (ρ : Nat → Nat) (world : World) :
    Shows ρ (world.perform .create) world.interpreters.length (start (ρ world.next)) := by
  refine ⟨start world.next, ?_, rfl, ∅, holds_start _, holds_start _⟩
  show ((world.interpreters ++ _)[world.interpreters.length]?).map _ = _
  rw [List.getElem?_concat_length]
  rfl

end Runs

/-- Among operations on many arenas those on one of them give the answers and leave the
scopes that they do alone, under other serial numbers, and it refuses every handle that
another arena returns, before or after that. So an interpreter replies to the calls on it,
and has the names afterwards, that a session by itself does whose root has any other serial
number, whatever interpreters there are before, and whatever is done to them in between. -/
theorem isolated {count : Nat} {events : List Event} {store : Store}
    (history : History count events store) (number : Fin count) {ρ : Nat → Nat}
    (injective : Function.Injective ρ) (world : World) (actions : List Action) :
    (∃ σ solo, Function.Injective σ ∧ History count (alone σ number events) solo ∧
        solo.arena number = (store.arena number).rename σ) ∧
      (∀ e ∈ events, e.number = number → ∀ other ≠ (number : Nat), ∀ h,
        e.op.target? = some h → Returned events other h → e.answer = .error .invalidScope) ∧
      ∀ own, own = (calls world.interpreters.length actions).map (Call.rename ρ) →
        (world.perform .create).replies world.interpreters.length actions =
            (start (ρ world.next)).replies own ∧
          ∃ session, ((world.perform .create).after actions).session? world.interpreters.length =
              some session ∧
            ∀ name, session.memory.arena.binding? session.root name =
              ((start (ρ world.next)).after own).memory.arena.binding?
                ((start (ρ world.next)).after own).root name := by
  refine ⟨?_, ?_, ?_⟩
  · obtain ⟨σ, solo, injective, run, arena⟩ := history.exists_alone number
    exact ⟨σ, solo, injective, run, arena⟩
  · intro e mem here other away h target returned
    rw [← here] at away
    exact history.refuses_foreign mem target returned away
  · rintro own rfl
    obtain ⟨replies, session, known, _, frame, holds, holds'⟩ :=
      (shows_create ρ world).run injective actions
    refine ⟨replies, session, known, fun name => ?_⟩
    rw [holds.binding?, holds'.binding?]

/-- Two arenas with a root each. The second one is asked about the root of the first. -/
private def shared : Store :=
  ((((Store.empty 2).run 0 .pushRoot).2.run 1 .pushRoot).2.run 1 (.parent ⟨0, 0⟩)).2

private def told : List Event :=
  [⟨0, .pushRoot, .ok (.handle ⟨0, 0⟩)⟩, ⟨1, .pushRoot, .ok (.handle ⟨0, 1⟩)⟩,
    ⟨1, .parent ⟨0, 0⟩, .error .invalidScope⟩]

/-- A name is declared and read again, and another interpreter is used in between. -/
private def busy : List Action :=
  [.call 0 (.evaluate (.declare "x" false none) ⟨0, 5⟩), .create,
    .call 1 (.tree ⟨[.block []]⟩), .call 0 (.expression (.identifier "x") ⟨0, 5⟩)]

theorem isolated_shared :
    (∃ σ solo, History 2 (alone σ 1 told) solo ∧ solo.arena 1 = (shared.arena 1).rename σ) ∧
      (∃ e ∈ told, e.op = .parent ⟨0, 0⟩ ∧ e.answer = .error .invalidScope) ∧
      ((⟨[], 5⟩ : World).perform .create).replies 0 busy =
        (start 8).replies [.evaluate (.declare "x" false none) ⟨0, 8⟩,
          .expression (.identifier "x") ⟨0, 8⟩] := by
  have history : History 2 told shared :=
    .step (.step (.step .start 0 .pushRoot) 1 .pushRoot) 1 (.parent ⟨0, 0⟩)
  obtain ⟨⟨σ, solo, _, run, arena⟩, refused, replies⟩ :=
    isolated history 1 (add_left_injective 3) ⟨[], 5⟩ busy
  have returned : Returned told 0 ⟨0, 0⟩ := ⟨_, .head _, rfl, .handle ⟨0, 0⟩, rfl, rfl⟩
  have last : ⟨1, .parent ⟨0, 0⟩, .error .invalidScope⟩ ∈ told := .tail _ (.tail _ (.head _))
  have answer := refused _ last rfl 0 Nat.zero_ne_one ⟨0, 0⟩ rfl returned
  exact ⟨⟨σ, solo, run, arena⟩, ⟨_, last, rfl, answer⟩, (replies _ rfl).1⟩

end World

end KindScript
