import KindScript.Proofs.Evaluation.Restoration
import KindScript.Proofs.Scopes.Bindings

/-!
# What a statement changes

A statement may give another value to a variable that it assigns, at any depth, and a
declaration may bind its name in the scope that it runs in. Everything else that any
scope binds is as before, also where the statement fails halfway. So what a root scope
has as a constant it keeps for as long as the session lasts.
-/

namespace KindScript

open Scope

/-- The statement is an assignment to the name, or a block with one in it at any depth. -/
inductive Statement.Assigns (name : String) : Statement → Prop where
  | here (op : Option ArithmeticOp) (value : Expression) : Assigns name (.assign name op value)
  | inside {body : List Statement} {s : Statement} (mem : s ∈ body) (assigns : Assigns name s) :
    Assigns name (.block body)

/-! ## Bindings that stay -/

namespace Arena

/-- Every binding stays, with its flag. Only that of a variable for one of the given names
may have another value. -/
def Keeps (assigned : String → Prop) (before after : Arena) : Prop :=
  ∀ h name v, before.binding? h name = some v →
    ∃ value, after.binding? h name = some { v with value } ∧
      (value ≠ v.value → v.constant = false ∧ assigned name)

/-- No scope but the given one binds a name that it did not bind. -/
def GrowsOnly (scope : Handle) (before after : Arena) : Prop :=
  ∀ h name, before.binding? h name = none → after.binding? h name ≠ none → h = scope

variable {assigned wider : String → Prop} {a b c older rest : Arena} {scope : Handle}

theorem Keeps.refl (a : Arena) : Keeps assigned a a :=
  fun _ _ v bound => ⟨v.value, bound, fun changed => absurd rfl changed⟩

theorem Keeps.trans (first : Keeps assigned a b) (later : Keeps assigned b c) :
    Keeps assigned a c := by
  intro h name v bound
  obtain ⟨middle, bound, first⟩ := first h name v bound
  obtain ⟨value, bound, later⟩ := later h name _ bound
  refine ⟨value, bound, fun changed => ?_⟩
  by_cases same : middle = v.value
  · exact later (by rwa [same])
  · exact first same

theorem Keeps.mono (keeps : Keeps assigned a b) (wide : ∀ name, assigned name → wider name) :
    Keeps wider a b := by
  intro h name v bound
  obtain ⟨value, bound, free⟩ := keeps h name v bound
  exact ⟨value, bound, fun changed => ⟨(free changed).1, wide name (free changed).2⟩⟩

theorem GrowsOnly.refl (a : Arena) : GrowsOnly scope a a :=
  fun _ _ unbound bound => absurd unbound bound

theorem GrowsOnly.trans (first : GrowsOnly scope a b) (later : GrowsOnly scope b c) :
    GrowsOnly scope a c := by
  intro h name unbound bound
  cases middle : b.binding? h name with
  | none => exact later h name middle bound
  | some v => exact first h name unbound (by simp [middle])

/-- What the newest scope and those below it keep, those below it keep. -/
theorem Keeps.below {record record' : Record} (same : shape rest = shape older)
    (keeps : Keeps assigned (record :: older) (record' :: rest)) : Keeps assigned older rest := by
  intro h name v bound
  have low : h.index < older.length := by
    obtain ⟨found, get, _⟩ := Option.bind_eq_some_iff.mp bound
    exact index_lt_of_get? get
  rw [← binding?_older h record low] at bound
  obtain ⟨value, bound, free⟩ := keeps h name v bound
  rw [binding?_older h record' (length_eq_of_shape same ▸ low)] at bound
  exact ⟨value, bound, free⟩

/-- Where only the newest scope grows, those below it do not. -/
theorem GrowsOnly.below {record record' : Record} (same : shape rest = shape older)
    (grows : GrowsOnly ⟨older.length, record.serial⟩ (record :: older) (record' :: rest))
    {h : Handle} {name : String} (unbound : binding? older h name = none) :
    binding? rest h name = none := by
  by_cases valid : Valid older h
  · have low := valid.index_lt
    rw [← binding?_older h record low] at unbound
    rw [← binding?_older h record' (length_eq_of_shape same ▸ low)]
    by_contra bound
    have newest := grows h name unbound bound
    rw [newest] at low
    exact Nat.lt_irrefl _ low
  · have missing := get?_eq_none_of_shape same.symm (Option.not_isSome_iff_eq_none.mp valid)
    rw [binding?, missing]
    rfl

theorem Keeps.of_update {h : Handle} {name : String} {value : Value}
    (done : a.update h name value = .ok b) : Keeps (· = name) a b := by
  obtain ⟨owner, old, settable, after⟩ := binding?_of_update done
  intro k key v bound
  rw [after]
  by_cases here : k = owner ∧ key = name
  · obtain ⟨rfl, rfl⟩ := here
    cases settable.symm.trans bound
    rw [if_pos ⟨rfl, rfl⟩]
    exact ⟨value, rfl, fun _ => ⟨rfl, rfl⟩⟩
  · rw [if_neg here]
    exact ⟨v.value, bound, fun changed => absurd rfl changed⟩

/-- An update binds no name. -/
theorem unbound_of_update {h k : Handle} {name key : String} {value : Value}
    (done : a.update h name value = .ok b) (unbound : a.binding? k key = none) :
    b.binding? k key = none := by
  obtain ⟨owner, old, settable, after⟩ := binding?_of_update done
  rw [after, if_neg]
  · exact unbound
  · rintro ⟨rfl, rfl⟩
    cases unbound.symm.trans settable

theorem Keeps.of_define {h : Handle} {name : String} {v : Variable}
    (done : a.define h name v = .ok b) : Keeps assigned a b := by
  obtain ⟨fresh, after⟩ := binding?_of_define done
  intro k key old bound
  rw [after, if_neg]
  · exact ⟨old.value, bound, fun changed => absurd rfl changed⟩
  · rintro ⟨rfl, rfl⟩
    cases fresh.symm.trans bound

/-- A definition binds one name in one scope. -/
theorem eq_of_define {h k : Handle} {name key : String} {v : Variable}
    (done : a.define h name v = .ok b) (unbound : a.binding? k key = none)
    (bound : b.binding? k key ≠ none) : k = h ∧ key = name := by
  by_contra elsewhere
  rw [(binding?_of_define done).2, if_neg elsewhere] at bound
  exact bound unbound

end Arena

/-! ## Declarations and assignments -/

namespace Memory

variable (memory : Memory) (scope : Handle) (name : String)

theorem commit_cases (value : Value) (change : Except Error Arena) :
    (∃ e, memory.commit value change = (.error e, memory)) ∨
      ∃ arena, change = .ok arena ∧
        memory.commit value change = (.ok value, { memory with arena }) := by
  cases change with
  | error e => exact .inl ⟨_, rfl⟩
  | ok arena => exact .inr ⟨arena, rfl, rfl⟩

/-- A declaration fails and changes nothing, or defines its name. -/
theorem declare_cases (constant : Bool) (value : Option Expression) :
    (∃ e, memory.declare scope name constant value = (.error e, memory)) ∨
      ∃ v arena, memory.arena.define scope name ⟨v, constant⟩ = .ok arena ∧
        memory.declare scope name constant value = (.ok .null, { memory with arena }) := by
  unfold declare
  split
  · exact .inl ⟨_, rfl⟩
  · rename_i v _
    rcases memory.commit_cases .null (memory.arena.define scope name ⟨v, constant⟩) with
      failed | ⟨arena, defined, done⟩
    · exact .inl failed
    · exact .inr ⟨v, arena, defined, done⟩

/-- An assignment fails and changes nothing, or updates its name. -/
theorem assign_cases (op : Option ArithmeticOp) (value : Expression) :
    (∃ e, memory.assign scope name op value = (.error e, memory)) ∨
      ∃ v arena, memory.arena.update scope name v = .ok arena ∧
        memory.assign scope name op value = (.ok v, { memory with arena }) := by
  unfold assign
  split
  · exact .inl ⟨_, rfl⟩
  · rename_i v _
    rcases memory.commit_cases v (memory.arena.update scope name v) with
      failed | ⟨arena, updated, done⟩
    · exact .inl failed
    · exact .inr ⟨v, arena, updated, done⟩

end Memory

/-! ## Statements -/

/-- A block keeps what its statements keep, and no scope gains a name by it. -/
theorem Statement.evaluate_block_of_inside {scope : Handle} {memory : Memory}
    {body : List Statement} {assigned : String → Prop}
    (keeps : Arena.Keeps assigned (memory.entered scope).arena
      (Statement.evaluateBlock memory.inner (memory.entered scope) .null body).2.arena)
    (grows : Arena.GrowsOnly memory.inner (memory.entered scope).arena
      (Statement.evaluateBlock memory.inner (memory.entered scope) .null body).2.arena) :
    Arena.Keeps assigned memory.arena
        ((Statement.block body).evaluate scope memory).2.arena ∧
      ∀ h name, memory.arena.binding? h name = none →
        ((Statement.block body).evaluate scope memory).2.arena.binding? h name = none := by
  by_cases valid : memory.arena.Valid scope
  · obtain ⟨result, after, bindings, rest, run, shape, same, whole⟩ :=
      Statement.evaluate_block valid body
    rw [run, shape] at keeps grows
    rw [whole]
    exact ⟨keeps.below same, fun h name unbound => grows.below same unbound⟩
  · rw [Statement.evaluate_block_of_not_valid valid]
    exact ⟨.refl _, fun _ _ unbound => unbound⟩

mutual

/-- Whatever becomes of a statement, bindings stay as far as it does not assign them, and
its own scope alone can gain a name. -/
theorem Statement.keeps_evaluate (scope : Handle) (memory : Memory) (s : Statement) :
    Arena.Keeps (s.Assigns ·) memory.arena (s.evaluate scope memory).2.arena ∧
      Arena.GrowsOnly scope memory.arena (s.evaluate scope memory).2.arena := by
  match s with
  | .expression value => exact ⟨.refl _, .refl _⟩
  | .declare name constant value =>
    rw [Statement.evaluate]
    rcases memory.declare_cases scope name constant value with
      ⟨e, failed⟩ | ⟨v, arena, defined, done⟩
    · rw [failed]
      exact ⟨.refl _, .refl _⟩
    · rw [done]
      exact ⟨.of_define defined, fun h key unbound bound =>
        (Arena.eq_of_define defined unbound bound).1⟩
  | .assign name op value =>
    rw [Statement.evaluate]
    rcases memory.assign_cases scope name op value with
      ⟨e, failed⟩ | ⟨v, arena, updated, done⟩
    · rw [failed]
      exact ⟨.refl _, .refl _⟩
    · rw [done]
      refine ⟨(Arena.Keeps.of_update updated).mono ?_, fun h key unbound bound =>
        absurd (Arena.unbound_of_update updated unbound) bound⟩
      rintro key rfl
      exact .here op value
  | .block body =>
    obtain ⟨keeps, grows⟩ :=
      Statement.keeps_evaluateBlock memory.inner (memory.entered scope) .null body
    obtain ⟨keeps, grows⟩ := Statement.evaluate_block_of_inside keeps grows
    refine ⟨keeps.mono ?_, fun h name unbound bound => absurd (grows h name unbound) bound⟩
    rintro name ⟨s, mem, assigns⟩
    exact .inside mem assigns

theorem Statement.keeps_evaluateBlock (scope : Handle) (memory : Memory) (last : Value)
    (body : List Statement) :
    Arena.Keeps (fun name => ∃ s ∈ body, s.Assigns name) memory.arena
        (Statement.evaluateBlock scope memory last body).2.arena ∧
      Arena.GrowsOnly scope memory.arena
        (Statement.evaluateBlock scope memory last body).2.arena := by
  match body with
  | [] => exact ⟨.refl _, .refl _⟩
  | s :: more =>
    obtain ⟨keeps, grows⟩ := s.keeps_evaluate scope memory
    have first : Arena.Keeps (fun name => ∃ t ∈ s :: more, t.Assigns name) memory.arena
        (s.evaluate scope memory).2.arena :=
      keeps.mono fun name assigns => ⟨s, List.mem_cons_self, assigns⟩
    unfold Statement.evaluateBlock
    split
    · rename_i failed
      rw [failed] at first grows
      exact ⟨first, grows⟩
    · rename_i value after done
      rw [done] at first grows
      obtain ⟨keeps', grows'⟩ := Statement.keeps_evaluateBlock scope after value more
      refine ⟨first.trans (keeps'.mono ?_), grows.trans grows'⟩
      rintro name ⟨t, mem, assigns⟩
      exact ⟨t, List.mem_cons_of_mem s mem, assigns⟩

end

/-- What evaluating a statement in a scope may do to the bindings of all scopes. -/
structure Statement.Changes (s : Statement) (scope : Handle) (before : Memory)
    (result : Except EvalError Value) (after : Memory) : Prop where
  /-- A binding stays where it is and keeps its flag. -/
  kept {h : Handle} {name : String} {v : Variable}
    (bound : before.arena.binding? h name = some v) :
    ∃ w, after.arena.binding? h name = some w ∧ w.constant = v.constant
  /-- The value of a constant is as before. -/
  constant {h : Handle} {name : String} {v : Value}
    (bound : before.arena.binding? h name = some ⟨v, true⟩) :
    after.arena.binding? h name = some ⟨v, true⟩
  /-- Only a name that the statement assigns has another value. -/
  assigned {h : Handle} {name : String} {v w : Variable}
    (bound : before.arena.binding? h name = some v)
    (bound' : after.arena.binding? h name = some w) (changed : w.value ≠ v.value) :
    s.Assigns name
  /-- Only a declaration that succeeds binds a name, its own one in its own scope. -/
  gained {h : Handle} {name : String} (unbound : before.arena.binding? h name = none)
    (bound : after.arena.binding? h name ≠ none) :
    h = scope ∧ (∃ constant value, s = .declare name constant value) ∧ ∃ v, result = .ok v
  /-- A declaration or an assignment that fails changes nothing. -/
  failed {e : EvalError} (error : result = .error e)
    (simple : (∃ name constant value, s = .declare name constant value) ∨
      ∃ name op value, s = .assign name op value) : after = before

theorem Statement.changes_evaluate (scope : Handle) (memory : Memory) (s : Statement) :
    s.Changes scope memory (s.evaluate scope memory).1 (s.evaluate scope memory).2 := by
  obtain ⟨keeps, grows⟩ := s.keeps_evaluate scope memory
  constructor
  case kept =>
    intro h name v bound
    obtain ⟨value, bound', _⟩ := keeps h name v bound
    exact ⟨_, bound', rfl⟩
  case constant =>
    intro h name v bound
    obtain ⟨value, bound', free⟩ := keeps h name _ bound
    by_cases same : value = v
    · rw [bound', same]
    · cases (free same).1
  case assigned =>
    intro h name v w bound bound' changed
    obtain ⟨value, found, free⟩ := keeps h name v bound
    cases found.symm.trans bound'
    exact (free changed).2
  case gained =>
    intro h name unbound bound
    cases s with
    | expression value => exact absurd unbound bound
    | declare key constant value =>
      rw [Statement.evaluate] at bound ⊢
      rcases memory.declare_cases scope key constant value with
        ⟨e, failed⟩ | ⟨v, arena, defined, done⟩
      · rw [failed] at bound
        exact absurd unbound bound
      · rw [done] at bound ⊢
        obtain ⟨here, rfl⟩ := Arena.eq_of_define defined unbound bound
        exact ⟨here, ⟨constant, value, rfl⟩, .null, rfl⟩
    | assign key op value =>
      rw [Statement.evaluate] at bound
      rcases memory.assign_cases scope key op value with
        ⟨e, failed⟩ | ⟨v, arena, updated, done⟩
      · rw [failed] at bound
        exact absurd unbound bound
      · rw [done] at bound
        exact absurd (Arena.unbound_of_update updated unbound) bound
    | block body =>
      obtain ⟨keeps, grows⟩ :=
        Statement.keeps_evaluateBlock memory.inner (memory.entered scope) .null body
      exact absurd ((Statement.evaluate_block_of_inside keeps grows).2 h name unbound) bound
  case failed =>
    rintro e error (⟨name, constant, value, rfl⟩ | ⟨name, op, value, rfl⟩)
    · rw [Statement.evaluate] at error ⊢
      rcases memory.declare_cases scope name constant value with ⟨e, failed⟩ | ⟨v, arena, _, done⟩
      · rw [failed]
      · rw [done] at error
        cases error
    · rw [Statement.evaluate] at error ⊢
      rcases memory.assign_cases scope name op value with ⟨e, failed⟩ | ⟨v, arena, _, done⟩
      · rw [failed]
      · rw [done] at error
        cases error

/-! ## Sessions -/

namespace Session

theorem root_after (serial : Nat) (calls : List Call) :
    ((start serial).after calls).root = ⟨0, serial⟩ :=
  congrArg Prod.snd (outline_after (start serial) calls)

/-- Constants outlast any calls. -/
theorem constant_after (session : Session) (calls : List Call) (h : Handle) (name : String)
    (v : Value) (bound : session.memory.arena.binding? h name = some ⟨v, true⟩) :
    (session.after calls).memory.arena.binding? h name = some ⟨v, true⟩ := by
  refine after_induction (P := fun a b => a.memory.arena.binding? h name = some ⟨v, true⟩ →
    b.memory.arena.binding? h name = some ⟨v, true⟩) ?_ ?_ ?_ ?_ session calls bound
  · exact fun _ bound => bound
  · exact fun first later bound => later (first bound)
  · exact fun session s scope bound => (s.changes_evaluate scope session.memory).constant bound
  · exact fun _ _ bound => bound

/-- A statement changes no more than `Statement.Changes` says, in any session, and in any
scope. So whatever happens to a session, a name that its root has as a constant keeps its
value and stays a constant. -/
theorem evaluate_changes :
    (∀ (session : Session) (scope : Handle) (s : Statement),
      s.Changes scope session.memory (session.evaluate s scope).1
        (session.evaluate s scope).2.memory) ∧
      ∀ (serial : Nat) (calls later : List Call) (name : String) (v : Value),
        ((start serial).after calls).memory.arena.binding? ⟨0, serial⟩ name = some ⟨v, true⟩ →
          ((start serial).after (calls ++ later)).root = ⟨0, serial⟩ ∧
            ((start serial).after (calls ++ later)).memory.arena.binding? ⟨0, serial⟩ name =
              some ⟨v, true⟩ := by
  refine ⟨fun session scope s => s.changes_evaluate scope session.memory,
    fun serial calls later name v bound => ⟨root_after serial _, ?_⟩⟩
  rw [after_append]
  exact constant_after _ later ⟨0, serial⟩ name v bound

/-- A constant that a block tries to assign after it has assigned a variable. -/
private def attempt : List Call :=
  [.evaluate (.block [.declare "x" false none, .assign "v" none (.literal (.boolean true)),
    .assign "c" none (.literal (.boolean false))]) ⟨0, 0⟩]

private def declared : List Call :=
  [.evaluate (.declare "c" true (some (.literal (.boolean true)))) ⟨0, 0⟩,
    .evaluate (.declare "v" false none) ⟨0, 0⟩]

theorem evaluate_changes_attempt :
    ((start 0).after (declared ++ attempt)).memory.arena.binding? ⟨0, 0⟩ "c" =
        some ⟨.boolean true, true⟩ ∧
      ((start 0).after (declared ++ attempt)).memory.arena.binding? ⟨0, 0⟩ "v" =
        some ⟨.boolean true, false⟩ ∧
      Statement.Assigns "v" (.block [.assign "v" none (.literal (.boolean true))]) := by
  obtain ⟨changes, constant⟩ := evaluate_changes
  have kept := constant 0 declared attempt "c" (.boolean true) rfl
  have before : ((start 0).after declared).memory.arena.binding? ⟨0, 0⟩ "v" =
      some ⟨.null, false⟩ := rfl
  have block := changes ((start 0).after declared) ⟨0, 0⟩
    (.block [.assign "v" none (.literal (.boolean true))])
  exact ⟨kept.2, rfl, block.assigned before rfl (by decide)⟩

end Session

end KindScript
