import KindScript.Proofs.Evaluation.Lexical
import KindScript.Proofs.Evaluation.Shape

/-!
# Sessions scope lexically

The chain of a handle, read as a stack of frames, goes through the steps of the
semantics of `KindScript.Lexical`. This holds for every known handle of an arena whose
parents are known, so the slots and serial numbers of the scopes and the handles by
which they are reached have no bearing on a result.
-/

namespace KindScript

open Scope Lexical

/-! ## Bindings as frames -/

namespace Bindings

variable {bindings : Bindings} {name : String}

/-- The bindings without the order in which they were made. -/
def frame (bindings : Bindings) : Frame :=
  bindings.foldr (fun entry frame => frame.insert entry.1 entry.2) ∅

theorem lookup_frame (bindings : Bindings) (name : String) :
    bindings.frame.lookup name = bindings.get? name := by
  induction bindings with
  | nil => rfl
  | cons entry more ih =>
    obtain ⟨key, v⟩ := entry
    have head : frame ((key, v) :: more) = (frame more).insert key v := rfl
    rw [head, get?_cons]
    by_cases same : name = key
    · subst same
      rw [if_pos rfl, Finmap.lookup_insert]
    · rw [if_neg same, Finmap.lookup_insert_of_ne _ same, ih]

theorem mem_frame_iff : name ∈ bindings.frame ↔ bindings.contains name = true := by
  rw [contains, ← lookup_frame, Finmap.lookup_isSome]

theorem frame_add (v : Variable) (fresh : name ∉ bindings.frame) :
    (bindings.add name v).frame = bindings.frame.insert name v := by
  have none : bindings.get? name = none := by
    rw [← lookup_frame]
    exact Finmap.lookup_eq_none.mpr fresh
  refine Finmap.ext_lookup fun key => ?_
  rw [lookup_frame, get?_add]
  by_cases same : key = name
  · subst same
    rw [none, if_pos rfl, Finmap.lookup_insert, Option.none_or]
  · rw [if_neg same, Option.or_none, Finmap.lookup_insert_of_ne _ same, lookup_frame]

theorem frame_set {old : Variable} (value : Value) (found : bindings.get? name = some old) :
    (bindings.set name value).frame = bindings.frame.insert name { old with value } := by
  refine Finmap.ext_lookup fun key => ?_
  rw [lookup_frame, get?_set]
  by_cases same : key = name
  · subst same
    rw [found, Option.map_some, if_pos rfl, Finmap.lookup_insert]
  · rw [Finmap.lookup_insert_of_ne _ same, lookup_frame]
    simp [same]

end Bindings

/-! ## Chains as stacks of frames -/

/-- The frames of the scopes from a handle outwards. -/
def Arena.env (arena : Arena) (h : Handle) : Env :=
  (arena.chain h).map fun link => link.2.bindings.frame

theorem Lexical.Env.find?_map (chain : List (Handle × Record)) (name : String) :
    Env.find? (chain.map fun link => link.2.bindings.frame) name =
      (chain.find? fun link => link.2.bindings.contains name).bind fun link =>
        link.2.bindings.get? name := by
  induction chain with
  | nil => rfl
  | cons link outer ih =>
    rw [List.map_cons, Env.find?, Bindings.lookup_frame, List.find?_cons, ih]
    cases has : link.2.bindings.contains name with
    | true =>
      obtain ⟨v, found⟩ := (Bindings.contains_iff _ _).mp has
      rw [found, Option.bind_some, found]
      rfl
    | false => rw [(Bindings.contains_eq_false_iff _ _).mp has, Option.none_or]

/-- Setting a name in the scope that has it is putting it into the frames of the chain. -/
theorem Lexical.Env.put_map {chain : List (Handle × Record)} {owner : Handle} {record : Record}
    {name : String} {old : Variable}
    (order : chain.Pairwise fun inner outer => outer.1.index < inner.1.index)
    (first : (chain.find? fun link => link.2.bindings.contains name) = some (owner, record))
    (found : record.bindings.get? name = some old) (value : Value) :
    (chain.map (Arena.rebind owner.index (record.bindings.set name value))).map
        (fun link => link.2.bindings.frame) =
      Env.put (chain.map fun link => link.2.bindings.frame) name { old with value } := by
  induction chain with
  | nil => cases first
  | cons link outer ih =>
    obtain ⟨lower, order⟩ := List.pairwise_cons.mp order
    rw [List.find?_cons] at first
    rw [List.map_cons, List.map_cons, List.map_cons, Env.put]
    cases has : link.2.bindings.contains name with
    | true =>
      rw [has] at first
      cases first
      rw [if_pos (Bindings.mem_frame_iff.mpr has), Arena.map_rebind_of_lt _ lower, Arena.rebind,
        if_pos rfl, Bindings.frame_set value found]
    | false =>
      rw [has] at first
      have below : owner.index < link.1.index :=
        lower (owner, record) (List.mem_of_find?_eq_some first)
      have absent : name ∉ link.2.bindings.frame := by
        rw [Bindings.mem_frame_iff, has]
        exact Bool.false_ne_true
      rw [if_neg absent, ih order first, Arena.rebind, if_neg (Nat.ne_of_gt below)]

namespace Arena

variable {arena : Arena} {h : Handle} {name : String}

theorem resolve_of_find?_none (sound : arena.Sound) (valid : arena.Valid h)
    (missing : (arena.env h).find? name = none) :
    arena.resolve h name = .error (.undefined name) := by
  rw [env, Env.find?_map] at missing
  rw [resolve_eq_find? sound valid]
  cases first : (arena.chain h).find? fun link => link.2.bindings.contains name with
  | none => rfl
  | some link =>
    have has := List.find?_some first
    obtain ⟨v, found⟩ := (Bindings.contains_iff _ _).mp has
    rw [first, Option.bind_some, found] at missing
    cases missing

/-- A name that a frame has is resolved to a scope in which setting it puts it into the frames. -/
theorem resolve_of_find?_some {v : Variable} (sound : arena.Sound) (valid : arena.Valid h)
    (found : (arena.env h).find? name = some v) :
    ∃ owner record, arena.resolve h name = .ok (owner, record) ∧
      record.bindings.get? name = some v ∧
      ∀ value, (arena.setBindings owner.index (record.bindings.set name value)).env h =
        (arena.env h).put name { v with value } := by
  rw [env, Env.find?_map] at found
  obtain ⟨⟨owner, record⟩, first, found⟩ := Option.bind_eq_some_iff.mp found
  refine ⟨owner, record, ?_, found, fun value => ?_⟩
  · rw [resolve_eq_find? sound valid, first]
    rfl
  · rw [env, chain_setBindings]
    exact Env.put_map (chain_pairwise arena h) first found value

theorem valueOf_of_find?_some {v : Variable} (sound : arena.Sound) (valid : arena.Valid h)
    (found : (arena.env h).find? name = some v) : arena.valueOf h name = .ok v.value := by
  obtain ⟨owner, record, resolved, named, _⟩ := resolve_of_find?_some sound valid found
  simp only [valueOf, lookup, resolved, named]

theorem valueOf_of_find?_none (sound : arena.Sound) (valid : arena.Valid h)
    (missing : (arena.env h).find? name = none) :
    arena.valueOf h name = .error (.scope (.undefined name)) := by
  simp only [valueOf, lookup, resolve_of_find?_none sound valid missing]

theorem update_of_find?_none (sound : arena.Sound) (valid : arena.Valid h)
    (missing : (arena.env h).find? name = none) (value : Value) :
    arena.update h name value = .error (.undefined name) := by
  rw [update, resolve_of_find?_none sound valid missing]

theorem update_of_constant {old : Value} (sound : arena.Sound) (valid : arena.Valid h)
    (found : (arena.env h).find? name = some ⟨old, true⟩) (value : Value) :
    arena.update h name value = .error (.constant name) := by
  obtain ⟨owner, record, resolved, named, _⟩ := resolve_of_find?_some sound valid found
  simp only [update, resolved, named, if_pos]

theorem update_of_variable {old : Value} (sound : arena.Sound) (valid : arena.Valid h)
    (found : (arena.env h).find? name = some ⟨old, false⟩) (value : Value) :
    ∃ after, arena.update h name value = .ok after ∧
      env after h = (arena.env h).put name ⟨value, false⟩ := by
  obtain ⟨owner, record, resolved, named, put⟩ := resolve_of_find?_some sound valid found
  refine ⟨arena.setBindings owner.index (record.bindings.set name value), ?_, put value⟩
  simp only [update, resolved, named, Bool.false_eq_true, if_false]

/-- The innermost frame of a known handle is that of its own scope. -/
theorem env_of_get? {record : Record} (found : arena.get? h = some record) :
    ∃ outer, arena.env h = record.bindings.frame :: outer ∧
      ∀ bindings, (arena.setBindings h.index bindings).env h = bindings.frame :: outer := by
  obtain ⟨outer, chained⟩ := chain_of_get? found
  have order := chain_pairwise arena h
  rw [chained] at order
  obtain ⟨lower, _⟩ := List.pairwise_cons.mp order
  refine ⟨outer.map fun link => link.2.bindings.frame, ?_, fun bindings => ?_⟩
  · rw [env, chained]
    rfl
  · rw [env, chain_setBindings, chained, List.map_cons, map_rebind_of_lt bindings lower, rebind,
      if_pos rfl]
    rfl

theorem define_of_fresh {frame : Frame} {outer : Env} (valid : arena.Valid h)
    (framed : arena.env h = frame :: outer) (fresh : name ∉ frame) (v : Variable) :
    ∃ after, arena.define h name v = .ok after ∧
      env after h = frame.insert name v :: outer := by
  obtain ⟨record, found⟩ := Option.isSome_iff_exists.mp valid
  obtain ⟨rest, top, rebound⟩ := env_of_get? found
  obtain ⟨rfl, rfl⟩ := List.cons_eq_cons.mp (framed.symm.trans top)
  have absent : ¬ record.bindings.contains name = true := fun has =>
    fresh (Bindings.mem_frame_iff.mpr has)
  refine ⟨arena.setBindings h.index (record.bindings.add name v), ?_, ?_⟩
  · simp only [define, found, if_neg absent]
  · rw [rebound, Bindings.frame_add v fresh]

theorem define_of_taken {frame : Frame} {outer : Env} (valid : arena.Valid h)
    (framed : arena.env h = frame :: outer) (taken : name ∈ frame) (v : Variable) :
    arena.define h name v = .error (.alreadyDefined name) := by
  obtain ⟨record, found⟩ := Option.isSome_iff_exists.mp valid
  obtain ⟨rest, top, _⟩ := env_of_get? found
  obtain ⟨rfl, rfl⟩ := List.cons_eq_cons.mp (framed.symm.trans top)
  simp only [define, found, if_pos (Bindings.mem_frame_iff.mp taken)]

theorem env_newest (older : Arena) {record : Record} {outer : Handle}
    (outwards : record.parent = some outer) :
    env (record :: older) ⟨older.length, record.serial⟩ =
      record.bindings.frame :: older.env outer := by
  rw [env, chain_newest, outwards]
  rfl

end Arena

/-! ## Expressions -/

section Expressions

variable {arena : Arena} {h : Handle}

theorem Lexical.Denotes.evaluate_eq {build : Expression → Expression → Expression}
    {meaning : Value → Value → Except EvalError Value} (op : Denotes build meaning)
    (l r : Expression) :
    (build l r).evaluate arena h = (do
      let a ← l.evaluate arena h
      let b ← r.evaluate arena h
      meaning a b) := by
  cases op <;> rfl

/-- An operator fails with the error of its left operand, else with that of its right one. -/
theorem Lexical.Denotes.yields {env : Env} {build : Expression → Expression → Expression}
    {meaning : Value → Value → Except EvalError Value} (op : Denotes build meaning)
    {l r : Expression} {left right : Except EvalError Value} (hl : Yields env l left)
    (hr : Yields env r right) :
    Yields env (build l r) (do
      let a ← left
      let b ← right
      meaning a b) := by
  cases left with
  | error e => exact .left_error op hl
  | ok a =>
    cases right with
    | error e => exact .right_error op hl hr
    | ok b => exact .operation op hl hr

theorem Expression.yields (sound : arena.Sound) (valid : arena.Valid h) (e : Expression) :
    Yields (arena.env h) e (e.evaluate arena h) := by
  induction e with
  | literal v => exact .literal v
  | identifier name =>
    rw [Expression.evaluate]
    cases found : (arena.env h).find? name with
    | none =>
      rw [Arena.valueOf_of_find?_none sound valid found]
      exact .unknown found
    | some v =>
      rw [Arena.valueOf_of_find?_some sound valid found]
      exact .name found
  | binary op l r ihl ihr => exact (Denotes.arithmetic op).yields ihl ihr
  | comparison op l r ihl ihr => exact (Denotes.comparison op).yields ihl ihr
  | joint op l r ihl ihr => exact (Denotes.joint op).yields ihl ihr
  | not operand ih =>
    rw [Expression.evaluate]
    cases value : operand.evaluate arena h with
    | error e =>
      rw [value] at ih
      exact .negation_error ih
    | ok a =>
      rw [value] at ih
      exact .negation ih

theorem Lexical.Yields.evaluate_eq {e : Expression} {result : Except EvalError Value}
    (sound : arena.Sound) (valid : arena.Valid h) (yields : Yields (arena.env h) e result) :
    e.evaluate arena h = result := by
  induction yields with
  | literal v => rfl
  | name found => exact Arena.valueOf_of_find?_some sound valid found
  | unknown missing => exact Arena.valueOf_of_find?_none sound valid missing
  | operation op _ _ ihl ihr =>
    rw [op.evaluate_eq, ihl, ihr]
    rfl
  | left_error op _ ih =>
    rw [op.evaluate_eq, ih]
    rfl
  | right_error op _ _ ihl ihr =>
    rw [op.evaluate_eq, ihl, ihr]
    rfl
  | negation _ ih =>
    rw [Expression.evaluate, ih]
    rfl
  | negation_error _ ih =>
    rw [Expression.evaluate, ih]
    rfl

end Expressions

/-! ## Statements -/

section Statements

variable {memory : Memory} {scope : Handle}

theorem Memory.initial (sound : memory.arena.Sound) (valid : memory.arena.Valid scope)
    (value : Option Expression) :
    Initial (memory.arena.env scope) value
      (value.elim (.ok .null) (Expression.evaluate memory.arena scope)) := by
  cases value with
  | none => exact .none
  | some e => exact .some (e.yields sound valid)

theorem Lexical.Initial.evaluate_eq {value : Option Expression}
    {result : Except EvalError Value} (sound : memory.arena.Sound)
    (valid : memory.arena.Valid scope) (initial : Initial (memory.arena.env scope) value result) :
    value.elim (.ok .null) (Expression.evaluate memory.arena scope) = result := by
  cases initial with
  | none => rfl
  | some yields => exact yields.evaluate_eq sound valid

theorem Memory.assigned_none (name : String) (e : Expression) :
    memory.assigned scope name none e = e.evaluate memory.arena scope := by
  rw [Memory.assigned]
  cases e.evaluate memory.arena scope <;> rfl

theorem Memory.assigned_of_error {e : Expression} {error : EvalError}
    (value : e.evaluate memory.arena scope = .error error) (name : String)
    (op : Option ArithmeticOp) : memory.assigned scope name op e = .error error := by
  rw [Memory.assigned, value]
  rfl

theorem Memory.assigned_some {e : Expression} {right : Value}
    (value : e.evaluate memory.arena scope = .ok right) (name : String) (op : ArithmeticOp) :
    memory.assigned scope name (some op) e =
      memory.arena.valueOf scope name >>= fun current => Value.arithmetic op current right := by
  rw [Memory.assigned, value]
  rfl

theorem Memory.assigned_assigned (sound : memory.arena.Sound) (valid : memory.arena.Valid scope)
    (name : String) (op : Option ArithmeticOp) (e : Expression) :
    Assigned (memory.arena.env scope) name op e (memory.assigned scope name op e) := by
  have value := e.yields sound valid
  cases op with
  | none =>
    rw [Memory.assigned_none]
    exact .plain value
  | some op =>
    cases result : e.evaluate memory.arena scope with
    | error error =>
      rw [result] at value
      rw [Memory.assigned_of_error result]
      exact .compound_error value
    | ok right =>
      rw [result] at value
      rw [Memory.assigned_some result]
      cases found : (memory.arena.env scope).find? name with
      | none =>
        rw [Arena.valueOf_of_find?_none sound valid found]
        exact .compound_unknown value found
      | some current =>
        rw [Arena.valueOf_of_find?_some sound valid found]
        exact .compound value found

theorem Lexical.Assigned.assigned_eq {name : String} {op : Option ArithmeticOp} {e : Expression}
    {result : Except EvalError Value} (sound : memory.arena.Sound)
    (valid : memory.arena.Valid scope)
    (assigned : Assigned (memory.arena.env scope) name op e result) :
    memory.assigned scope name op e = result := by
  cases assigned with
  | plain value => rw [Memory.assigned_none, value.evaluate_eq sound valid]
  | compound value found =>
    rw [Memory.assigned_some (value.evaluate_eq sound valid),
      Arena.valueOf_of_find?_some sound valid found]
    rfl
  | compound_unknown value missing =>
    rw [Memory.assigned_some (value.evaluate_eq sound valid),
      Arena.valueOf_of_find?_none sound valid missing]
    rfl
  | compound_error value => exact Memory.assigned_of_error (value.evaluate_eq sound valid) _ _

theorem Memory.executes_declare (sound : memory.arena.Sound) (valid : memory.arena.Valid scope)
    (name : String) (constant : Bool) (value : Option Expression) :
    Executes (memory.arena.env scope) (.declare name constant value)
      (memory.declare scope name constant value).1
      ((memory.declare scope name constant value).2.arena.env scope) := by
  have init := Memory.initial sound valid value
  obtain ⟨record, found⟩ := Option.isSome_iff_exists.mp valid
  obtain ⟨outer, framed, _⟩ := Arena.env_of_get? found
  rw [Memory.declare]
  split
  · rename_i failed
    rw [failed] at init
    exact .declaration_error init
  · rename_i v done
    rw [done] at init
    by_cases taken : name ∈ record.bindings.frame
    · rw [Arena.define_of_taken valid framed taken]
      show Executes (memory.arena.env scope) _ _ (memory.arena.env scope)
      rw [framed] at init ⊢
      exact .redeclaration init taken
    · obtain ⟨after, defined, grown⟩ := Arena.define_of_fresh valid framed taken ⟨v, constant⟩
      rw [defined]
      show Executes (memory.arena.env scope) _ _ (Arena.env after scope)
      rw [framed] at init
      rw [framed, grown]
      exact .declaration init taken

theorem Memory.executes_assign (sound : memory.arena.Sound) (valid : memory.arena.Valid scope)
    (name : String) (op : Option ArithmeticOp) (e : Expression) :
    Executes (memory.arena.env scope) (.assign name op e)
      (memory.assign scope name op e).1
      ((memory.assign scope name op e).2.arena.env scope) := by
  have value := Memory.assigned_assigned sound valid name op e
  rw [Memory.assign]
  split
  · rename_i failed
    rw [failed] at value
    exact .assignment_error value
  · rename_i v done
    rw [done] at value
    cases found : (memory.arena.env scope).find? name with
    | none =>
      rw [Arena.update_of_find?_none sound valid found]
      exact .unknown_assignment value found
    | some old =>
      obtain ⟨old, constant⟩ := old
      cases constant with
      | true =>
        rw [Arena.update_of_constant sound valid found]
        exact .constant_assignment value found
      | false =>
        obtain ⟨after, updated, put⟩ := Arena.update_of_variable sound valid found v
        rw [updated]
        show Executes _ _ _ (Arena.env after scope)
        rw [put]
        exact .assignment value found

theorem Memory.sound_entered (sound : memory.arena.Sound) (valid : memory.arena.Valid scope) :
    (memory.entered scope).arena.Sound := by
  refine ⟨fun h parent => ?_, sound⟩
  cases parent
  exact valid

theorem Memory.valid_inner : (memory.entered scope).arena.Valid memory.inner :=
  Arena.valid_cons_iff.mpr (.inl rfl)

theorem Memory.env_entered :
    (memory.entered scope).arena.env memory.inner = ∅ :: memory.arena.env scope :=
  Arena.env_newest memory.arena rfl

/-- The frames around a statement of a block, seen from the scope of the block. -/
theorem Memory.env_inner {after : Memory} {bindings : Bindings} {rest : Arena}
    (shape : after.arena = ⟨memory.next, some scope, bindings⟩ :: rest)
    (same : Arena.shape rest = memory.arena.shape) :
    after.arena.env memory.inner = bindings.frame :: Arena.env rest scope := by
  have newest : Record.parent ⟨memory.next, some scope, bindings⟩ = some scope := rfl
  rw [shape, Memory.inner, ← Arena.length_eq_of_shape same]
  exact Arena.env_newest rest newest

end Statements

mutual

/-- Every statement goes through a step of the lexical semantics. -/
theorem Statement.executes (scope : Handle) (memory : Memory) (sound : memory.arena.Sound)
    (valid : memory.arena.Valid scope) (s : Statement) :
    Executes (memory.arena.env scope) s (s.evaluate scope memory).1
      ((s.evaluate scope memory).2.arena.env scope) := by
  match s with
  | .expression e => exact .expression (e.yields sound valid)
  | .declare name constant value => exact Memory.executes_declare sound valid name constant value
  | .assign name op e => exact Memory.executes_assign sound valid name op e
  | .block body =>
    -- The scope of the block is the newest one, and its chain goes on with that of `scope`.
    have inside := Statement.executesBlock memory.inner (memory.entered scope)
      (Memory.sound_entered sound valid) Memory.valid_inner .null body
    obtain ⟨result, after, bindings, rest, run, shape, same, whole⟩ :=
      Statement.evaluate_block valid body
    rw [run, Memory.env_entered, Memory.env_inner shape same] at inside
    rw [whole]
    exact .block inside

theorem Statement.executesBlock (scope : Handle) (memory : Memory) (sound : memory.arena.Sound)
    (valid : memory.arena.Valid scope) (last : Value) (body : List Statement) :
    ExecutesBlock (memory.arena.env scope) last body
      (Statement.evaluateBlock scope memory last body).1
      ((Statement.evaluateBlock scope memory last body).2.arena.env scope) := by
  match body with
  | [] => exact .done last
  | s :: more =>
    have first := s.executes scope memory sound valid
    have same := s.shape_evaluate scope memory
    unfold Statement.evaluateBlock
    split
    · rename_i failed
      rw [failed] at first
      exact .error first
    · rename_i v after done
      rw [done] at first same
      have sound' := (Arena.sound_iff_of_shape same).mpr sound
      have valid' := (Arena.valid_iff_of_shape same).mpr valid
      exact .next first (Statement.executesBlock scope after sound' valid' v more)

end

mutual

/-- A step of the lexical semantics is what evaluation does. -/
theorem Lexical.Executes.evaluate_eq {env env' : Env} {s : Statement}
    {result : Except EvalError Value} (run : Executes env s result env') {scope : Handle}
    {memory : Memory} (sound : memory.arena.Sound) (valid : memory.arena.Valid scope)
    (framed : memory.arena.env scope = env) :
    (s.evaluate scope memory).1 = result ∧ (s.evaluate scope memory).2.arena.env scope = env' := by
  match run with
  | .expression value =>
    subst framed
    exact ⟨value.evaluate_eq sound valid, rfl⟩
  | @Executes.declaration _ _ name constant _ v value fresh =>
    obtain ⟨after, defined, grown⟩ := Arena.define_of_fresh valid framed fresh ⟨v, constant⟩
    rw [← framed] at value
    rw [Statement.evaluate, Memory.declare, value.evaluate_eq sound valid]
    simp only [defined, Memory.commit, grown, and_self]
  | .redeclaration value taken =>
    rw [← framed] at value
    rw [Statement.evaluate, Memory.declare, value.evaluate_eq sound valid]
    simp only [Arena.define_of_taken valid framed taken, Memory.commit, framed, and_self]
  | .declaration_error value =>
    rw [← framed] at value
    rw [Statement.evaluate, Memory.declare, value.evaluate_eq sound valid]
    exact ⟨rfl, framed⟩
  | .assignment (v := v) value found =>
    subst framed
    obtain ⟨after, updated, put⟩ := Arena.update_of_variable sound valid found v
    rw [Statement.evaluate, Memory.assign, value.assigned_eq sound valid]
    simp only [updated, Memory.commit, put, and_self]
  | .constant_assignment value found =>
    subst framed
    rw [Statement.evaluate, Memory.assign, value.assigned_eq sound valid]
    simp only [Arena.update_of_constant sound valid found, Memory.commit, and_self]
  | .unknown_assignment value missing =>
    subst framed
    rw [Statement.evaluate, Memory.assign, value.assigned_eq sound valid]
    simp only [Arena.update_of_find?_none sound valid missing, Memory.commit, and_self]
  | .assignment_error value =>
    subst framed
    rw [Statement.evaluate, Memory.assign, value.assigned_eq sound valid]
    exact ⟨rfl, rfl⟩
  | @Executes.block _ _ _ body _ inside =>
    subst framed
    obtain ⟨done, left⟩ := inside.evaluateBlock_eq (Memory.sound_entered sound valid)
      Memory.valid_inner Memory.env_entered
    obtain ⟨result', after, bindings, rest, run, shape, same, whole⟩ :=
      Statement.evaluate_block valid body
    rw [run] at done left
    rw [Memory.env_inner shape same] at left
    obtain ⟨_, outer⟩ := List.cons_eq_cons.mp left
    rw [whole]
    exact ⟨done, outer⟩

theorem Lexical.ExecutesBlock.evaluateBlock_eq {env env' : Env} {last : Value}
    {body : List Statement} {result : Except EvalError Value}
    (run : ExecutesBlock env last body result env') {scope : Handle} {memory : Memory}
    (sound : memory.arena.Sound) (valid : memory.arena.Valid scope)
    (framed : memory.arena.env scope = env) :
    (Statement.evaluateBlock scope memory last body).1 = result ∧
      (Statement.evaluateBlock scope memory last body).2.arena.env scope = env' := by
  match run with
  | .done last => exact ⟨rfl, framed⟩
  | .error (s := s) first =>
    obtain ⟨failed, left⟩ := first.evaluate_eq sound valid framed
    unfold Statement.evaluateBlock
    split
    · rename_i run
      rw [run] at failed left
      cases failed
      exact ⟨rfl, left⟩
    · rename_i run
      rw [run] at failed
      cases failed
  | .next (s := s) first later =>
    obtain ⟨done, left⟩ := first.evaluate_eq sound valid framed
    have same := s.shape_evaluate scope memory
    unfold Statement.evaluateBlock
    split
    · rename_i run
      rw [run] at done
      cases done
    · rename_i run
      rw [run] at done left same
      cases done
      exact later.evaluateBlock_eq ((Arena.sound_iff_of_shape same).mpr sound)
        ((Arena.valid_iff_of_shape same).mpr valid) left

end

/-! ## Sessions -/

namespace Session

/-- The session has one scope, its root. -/
def AtRoot (session : Session) (bindings : Bindings) : Prop :=
  session.memory.arena = [⟨session.root.serial, none, bindings⟩] ∧ session.root.index = 0

/-- Programs one after another in a session, each with its result and with the names that
the root scope, if it is there, has afterwards. -/
def transcript (session : Session) :
    List Tree → List (Except EvalError (List Value) × Option Frame)
  | [] => []
  | tree :: more =>
    let (result, after) := session.evaluateTree tree
    (result, (after.memory.arena.get? after.root).map (·.bindings.frame)) :: after.transcript more

variable {session : Session} {bindings : Bindings}

theorem AtRoot.get? (root : session.AtRoot bindings) :
    session.memory.arena.get? session.root = some ⟨session.root.serial, none, bindings⟩ := by
  obtain ⟨single, index⟩ := root
  rw [single, Arena.get?, index]
  simp

theorem AtRoot.valid (root : session.AtRoot bindings) : session.memory.arena.Valid session.root :=
  Option.isSome_iff_exists.mpr ⟨_, root.get?⟩

theorem AtRoot.sound (root : session.AtRoot bindings) : session.memory.arena.Sound := by
  rw [root.1]
  refine ⟨fun h parent => ?_, trivial⟩
  cases parent

theorem AtRoot.env (root : session.AtRoot bindings) :
    session.memory.arena.env session.root = [bindings.frame] := by
  obtain ⟨single, index⟩ := root
  rw [Arena.env, single, Arena.chain, index]
  simp

/-- A statement leaves a session with its root scope alone, and does there what the
lexical semantics says. -/
theorem AtRoot.evaluate (root : session.AtRoot bindings) (s : Statement) :
    ∃ after, (session.evaluate s session.root).2.AtRoot after ∧
      ∀ result env, Executes [bindings.frame] s result env ↔
        (session.evaluate s session.root).1 = result ∧ [after.frame] = env := by
  have same : (s.evaluate session.root session.memory).2.arena.shape =
      (session.root.serial, none) :: Arena.shape [] := by
    rw [s.shape_evaluate, root.1]
    rfl
  obtain ⟨after, rest, shape, none⟩ := Arena.eq_cons_of_shape same
  have alone : rest = [] := List.map_eq_nil_iff.mp none
  subst alone
  have kept : (session.evaluate s session.root).2.AtRoot after := ⟨shape, root.2⟩
  have left : (s.evaluate session.root session.memory).2.arena.env session.root = [after.frame] :=
    kept.env
  refine ⟨after, kept, fun result env => ⟨fun run => ?_, ?_⟩⟩
  · obtain ⟨done, framed⟩ := run.evaluate_eq root.sound root.valid root.env
    exact ⟨done, left.symm.trans framed⟩
  · rintro ⟨rfl, rfl⟩
    have run := s.executes session.root session.memory root.sound root.valid
    rw [root.env, left] at run
    exact run

theorem AtRoot.evaluateAll (root : session.AtRoot bindings) (body : List Statement) :
    ∃ after, (session.evaluateAll body).2.AtRoot after ∧
      ∀ result env, Completes [bindings.frame] body result env ↔
        (session.evaluateAll body).1 = result ∧ [after.frame] = env := by
  induction body generalizing session bindings with
  | nil =>
    refine ⟨bindings, root, fun result env => ⟨fun run => ?_, ?_⟩⟩
    · cases run
      exact ⟨rfl, rfl⟩
    · rintro ⟨rfl, rfl⟩
      exact .done _
  | cons s more ih =>
    obtain ⟨middle, kept, first⟩ := root.evaluate s
    rw [Session.evaluateAll]
    split
    · rename_i e after failed
      rw [failed] at kept first
      refine ⟨middle, kept, fun result env => ⟨fun run => ?_, ?_⟩⟩
      · cases run with
        | error run =>
          obtain ⟨same, framed⟩ := (first _ _).mp run
          cases same
          exact ⟨rfl, framed⟩
        | next run _ => cases ((first _ _).mp run).1
      · rintro ⟨rfl, rfl⟩
        exact .error ((first _ _).mpr ⟨rfl, rfl⟩)
    · rename_i v session' done
      rw [done] at kept first
      obtain ⟨after, kept', later⟩ := ih kept
      refine ⟨after, kept', fun result env => ⟨fun run => ?_, ?_⟩⟩
      · cases run with
        | error run => cases ((first _ _).mp run).1
        | next run rest =>
          obtain ⟨same, rfl⟩ := (first _ _).mp run
          cases same
          obtain ⟨rfl, framed⟩ := (later _ _).mp rest
          exact ⟨rfl, framed⟩
      · rintro ⟨rfl, rfl⟩
        exact .next ((first _ _).mpr ⟨rfl, rfl⟩) ((later _ _).mpr ⟨rfl, rfl⟩)

theorem AtRoot.transcript (root : session.AtRoot bindings) (trees : List Tree) :
    ∃ entries, session.transcript trees = entries.map (fun entry => (entry.1, some entry.2)) ∧
      ∀ other, Transcript bindings.frame trees other ↔ other = entries := by
  induction trees generalizing session bindings with
  | nil =>
    refine ⟨[], rfl, fun other => ⟨fun run => ?_, ?_⟩⟩
    · cases run
      rfl
    · rintro rfl
      exact .done _
  | cons tree more ih =>
    obtain ⟨after, kept, program⟩ := root.evaluateAll tree.body
    obtain ⟨entries, same, later⟩ := ih kept
    refine ⟨((session.evaluateAll tree.body).1, after.frame) :: entries, ?_, fun other => ?_⟩
    · simp only [Session.transcript, evaluateTree, kept.get?, same, Option.map_some, List.map_cons]
    constructor
    · intro run
      cases run with
      | next first rest =>
        obtain ⟨rfl, single⟩ := (program _ _).mp first
        cases single
        rw [(later _).mp rest]
    · rintro rfl
      exact .next ((program _ _).mpr ⟨rfl, rfl⟩) ((later _).mpr rfl)

/-- A session that runs programs one after another, also after errors, gives the results
of the lexical semantics started from one empty frame and no others, and its root scope
has the names of that frame after every program. -/
theorem transcript_start (serial : Nat) (trees : List Tree) :
    ∃ entries, (start serial).transcript trees =
        entries.map (fun entry => (entry.1, some entry.2)) ∧
      ∀ other, Transcript ∅ trees other ↔ other = entries := by
  have root : (start serial).AtRoot [] := ⟨rfl, rfl⟩
  exact root.transcript trees

end Session

end KindScript
