import KindScript.Proofs.Scopes.Arena
import KindScript.Scope.Store

/-!
# What an operation does to an arena

An operation that succeeds makes a scope, drops some, tells a parent, or changes no
more than bindings. One on a scope that the arena does not know is refused, and in an
arena whose parents are known it is refused for no other reason.
-/

namespace KindScript

open Scope

namespace Arena

variable {arena : Arena} {h : Handle} {name : String}

theorem shape_of_delete {found : Bool} {other : Arena}
    (done : arena.delete h name = .ok (found, other)) : other.shape = arena.shape := by
  unfold delete at done
  split at done
  · cases done
    rfl
  · cases done
  · cases done
    exact shape_setBindings arena _ _

theorem resolve_ne_invalidScope (sound : arena.Sound) (valid : arena.Valid h) :
    arena.resolve h name ≠ .error .invalidScope := by
  rw [resolve_eq_find? sound valid]
  cases (arena.chain h).find? fun link => link.2.bindings.contains name <;> simp

end Arena

namespace Scope

/-- The scope that an operation is asked of. -/
def Operation.target? : Operation → Option Handle
  | pushRoot | isEmpty => none
  | push h | release h | parent h | contains h _ | define h _ _ | lookup h _ | update h _ _
  | delete h _ => some h

/-- The scope that the operation drops together with the newer ones. -/
def Operation.dropped? : Operation → Option Handle
  | release h => some h
  | _ => none

/-- The handle that an answer tells. -/
def Answer.handle? : Answer → Option Handle
  | handle h => some h
  | parent h => h
  | _ => none

/-- What operations that succeed do, where the next scope gets the given serial number. -/
inductive Effect (serial : Nat) (arena : Arena) : Operation → Answer → Arena → Prop where
  | made {op : Operation} {parent : Option Handle} (makes : op.makesScope = true)
    (known : ∀ h, parent = some h → arena.Valid h) :
    Effect serial arena op (.handle ⟨arena.length, serial⟩) (⟨serial, parent, []⟩ :: arena)
  | released {h : Handle} (valid : arena.Valid h) :
    Effect serial arena (.release h) .done (arena.drop (arena.length - h.index))
  | told {h : Handle} {record : Record} (found : arena.get? h = some record) :
    Effect serial arena (.parent h) (.parent record.parent) arena
  | kept {op : Operation} {answer : Answer} {after : Arena} (makes : op.makesScope = false)
    (keeps : op.dropped? = none) (quiet : answer.handle? = none)
    (same : after.shape = arena.shape) : Effect serial arena op answer after

variable {op : Operation} {serial : Nat} {arena after : Arena} {answer : Answer} {h : Handle}

theorem map_eq_ok {α β : Type} {x : Except Error α} {f : α → β} {b : β} :
    x.map f = .ok b ↔ ∃ a, x = .ok a ∧ f a = b := by
  cases x <;> simp [Except.map]

theorem record_eq_ok {record : Record} :
    arena.record h = .ok record ↔ arena.get? h = some record := by
  unfold Arena.record
  split <;> simp [*]

theorem Operation.effect_of_run (done : op.run serial arena = .ok (answer, after)) :
    Effect serial arena op answer after := by
  cases op with
  | pushRoot =>
    cases done
    refine .made rfl fun h parent => ?_
    cases parent
  | push outer =>
    obtain ⟨made, pushed, same⟩ := map_eq_ok.mp done
    obtain ⟨record, found, rfl⟩ := map_eq_ok.mp pushed
    cases same
    refine .made rfl fun h parent => ?_
    cases parent
    exact Option.isSome_iff_exists.mpr ⟨record, record_eq_ok.mp found⟩
  | release h =>
    obtain ⟨rest, dropped, same⟩ := map_eq_ok.mp done
    obtain ⟨record, found, rfl⟩ := map_eq_ok.mp dropped
    cases same
    exact .released (Option.isSome_iff_exists.mpr ⟨record, record_eq_ok.mp found⟩)
  | parent h =>
    obtain ⟨outer, read, same⟩ := map_eq_ok.mp done
    obtain ⟨record, found, rfl⟩ := map_eq_ok.mp read
    cases same
    exact .told (record_eq_ok.mp found)
  | contains h name =>
    obtain ⟨has, _, same⟩ := map_eq_ok.mp done
    cases same
    exact .kept rfl rfl rfl rfl
  | define h name v =>
    obtain ⟨grown, defined, same⟩ := map_eq_ok.mp done
    cases same
    exact .kept rfl rfl rfl (Arena.shape_of_define defined)
  | lookup h name =>
    obtain ⟨v, _, same⟩ := map_eq_ok.mp done
    cases same
    exact .kept rfl rfl rfl rfl
  | update h name value =>
    obtain ⟨changed, updated, same⟩ := map_eq_ok.mp done
    cases same
    exact .kept rfl rfl rfl (Arena.shape_of_update updated)
  | delete h name =>
    obtain ⟨left, deleted, same⟩ := map_eq_ok.mp done
    cases same
    exact .kept rfl rfl rfl (Arena.shape_of_delete deleted)
  | isEmpty =>
    cases done
    exact .kept rfl rfl rfl rfl

/-- An operation on a scope that the arena does not know is refused. -/
theorem Operation.run_of_not_valid (target : op.target? = some h) (invalid : ¬ arena.Valid h) :
    op.run serial arena = .error .invalidScope := by
  have record := Arena.record_of_not_valid invalid
  have resolve := Arena.resolve_of_not_valid invalid
  have missing := Option.not_isSome_iff_eq_none.mp invalid
  cases op <;> cases target
  case push => simp only [run, Arena.push_of_not_valid invalid, Except.map]
  case release => simp only [run, Arena.release, record, Except.map]
  case parent => simp only [run, Arena.parent, record, Except.map]
  case contains => simp only [run, Arena.contains, record, Except.map]
  case define => simp only [run, Arena.define, missing, Except.map]
  case lookup => simp only [run, Arena.lookup, resolve, Except.map]
  case update => simp only [run, Arena.update, resolve, Except.map]
  case delete => simp only [run, Arena.delete, resolve, Except.map]

/-- An operation on a known scope is never refused for its handle. -/
theorem Operation.run_ne_invalidScope (target : op.target? = some h) (sound : arena.Sound)
    (valid : arena.Valid h) : op.run serial arena ≠ .error .invalidScope := by
  obtain ⟨record, found⟩ := Option.isSome_iff_exists.mp valid
  have known : arena.record h = .ok record := record_eq_ok.mpr found
  have resolves (name : String) : arena.resolve h name ≠ .error .invalidScope :=
    Arena.resolve_ne_invalidScope sound valid
  cases op <;> cases target
  case push => simp [run, Arena.push, known, Except.map]
  case release => simp [run, Arena.release, known, Except.map]
  case parent => simp [run, Arena.parent, known, Except.map]
  case contains => simp [run, Arena.contains, known, Except.map]
  case define name v =>
    simp only [run, Arena.define, found]
    split <;> simp [Except.map]
  case lookup name =>
    simp only [run, Arena.lookup]
    split
    · rename_i e failed
      have other : e ≠ .invalidScope := fun same => resolves name (same ▸ failed)
      simpa [Except.map] using other
    · split <;> simp [Except.map]
  case update name value =>
    simp only [run, Arena.update]
    split
    · rename_i e failed
      have other : e ≠ .invalidScope := fun same => resolves name (same ▸ failed)
      simpa [Except.map] using other
    · split
      · simp [Except.map]
      · split <;> simp [Except.map]
  case delete name =>
    simp only [run, Arena.delete]
    split
    · simp [Except.map]
    · rename_i e _ failed
      have other : e ≠ .invalidScope := fun same => resolves name (same ▸ failed)
      simpa [Except.map] using other
    · simp [Except.map]

/-! ## One arena of a store -/

section Stores

variable {store : Store} {number : Nat}

theorem Store.run_of_error {e : Error}
    (failed : op.run store.next (store.arena number) = .error e) :
    store.run number op = (.error e, store) := by
  rw [Store.run, failed]

theorem Store.run_of_ok (done : op.run store.next (store.arena number) = .ok (answer, arena)) :
    store.run number op =
      (.ok answer, ⟨store.arenas.set number arena,
        if op.makesScope = true then store.next + 1 else store.next⟩) := by
  rw [Store.run, done]

end Stores

end Scope

end KindScript
