import KindScript.Proofs.Scopes.Handles
import KindScript.Proofs.Scopes.Recasting
import Mathlib.Data.Nat.Count

/-!
# Arenas do not interfere

An arena works alike under any injective renaming of serial numbers. What the operations
on other arenas do to one arena is no more than to take serial numbers away from it. Its
own operations alone therefore give the same answers and the same scopes, with the serial
numbers they take then.
-/

namespace KindScript

open Scope

/-! ## Renaming serial numbers -/

namespace Scope

variable (ρ : Nat → Nat)

def Operation.rename : Operation → Operation
  | pushRoot => .pushRoot
  | push h => .push (h.rename ρ)
  | release h => .release (h.rename ρ)
  | parent h => .parent (h.rename ρ)
  | contains h name => .contains (h.rename ρ) name
  | define h name v => .define (h.rename ρ) name v
  | lookup h name => .lookup (h.rename ρ) name
  | update h name value => .update (h.rename ρ) name value
  | delete h name => .delete (h.rename ρ) name
  | isEmpty => .isEmpty

def Answer.rename : Answer → Answer
  | done => .done
  | handle h => .handle (h.rename ρ)
  | parent h => .parent (h.map (Handle.rename ρ))
  | truth b => .truth b
  | found v => .found v

/-- The same operation with the same answer under other serial numbers. -/
def Event.rename (e : Event) : Event :=
  ⟨e.number, e.op.rename ρ, e.answer.map (Answer.rename ρ)⟩

end Scope

/-- The same scopes under other serial numbers. -/
def Arena.rename (ρ : Nat → Nat) (arena : Arena) : Arena :=
  arena.recast ρ fun value => value

/-! ## Operations -/

namespace Scope

section Operations

variable {ρ : Nat → Nat} {op : Operation} {arena after : Arena} {answer : Answer}

theorem Operation.answer_of_makesScope {serial : Nat} (makes : op.makesScope = true)
    (done : op.run serial arena = .ok (answer, after)) :
    answer = .handle ⟨arena.length, serial⟩ := by
  cases Operation.effect_of_run done with
  | made => rfl
  | released | told => cases makes
  | kept none =>
    rw [makes] at none
    cases none

/-- An operation on renamed scopes does what it does on the scopes themselves. It takes
another serial number only where it makes a scope. -/
theorem Operation.run_rename (injective : Function.Injective ρ) (op : Operation) (arena : Arena)
    {serial serial' : Nat}
    (fits : ∀ done, op.makesScope = true → op.run serial arena = .ok done → ρ serial = serial') :
    (op.rename ρ).run serial' (arena.rename ρ) =
      (op.run serial arena).map fun done => (done.1.rename ρ, done.2.rename ρ) := by
  -- Each answer and each arena is made from what the operation on the arena itself gives.
  cases op <;> simp only [Operation.rename, Operation.run, Arena.rename]
  case pushRoot =>
    rw [← fits _ rfl rfl]
    show Except.ok (Answer.handle ⟨(arena.recast ρ _).length, ρ serial⟩, _) = _
    rw [arena.length_recast]
    rfl
  case push h =>
    rw [arena.push_recast h injective fun made pushed => fits _ rfl (by rw [run, pushed]; rfl)]
    cases arena.push serial h <;> rfl
  case release h =>
    rw [arena.release_recast h injective]
    cases arena.release h <;> rfl
  case parent h =>
    rw [arena.parent_recast h injective]
    cases arena.parent h <;> rfl
  case contains h name =>
    rw [arena.contains_recast h injective]
    cases arena.contains h name <;> rfl
  case define h name v =>
    have defined := arena.define_recast h injective name v (f := fun value => value)
    rw [show v.recast (fun value => value) = v from rfl] at defined
    rw [defined]
    cases arena.define h name v <;> rfl
  case lookup h name =>
    rw [arena.lookup_recast h injective]
    cases arena.lookup h name <;> rfl
  case update h name value =>
    rw [arena.update_recast h injective]
    cases arena.update h name value <;> rfl
  case delete h name =>
    rw [arena.delete_recast h injective]
    cases arena.delete h name <;> rfl
  case isEmpty =>
    show Except.ok (Answer.truth (List.map _ arena).isEmpty, _) = _
    rw [List.isEmpty_map]
    rfl

end Operations

/-! ## Two stores -/

section Stores

variable {ρ : Nat → Nat} {own : Nat → Prop} [DecidablePred own] {store solo : Store}
  {number other : Nat} {op : Operation} {answer : Answer} {arena : Arena}

theorem Operation.makesScope_rename (ρ : Nat → Nat) (op : Operation) :
    (op.rename ρ).makesScope = op.makesScope := by
  cases op <;> rfl

/-- One arena of a store by itself in another store. The counter of that one has given out
a serial number for every one that the arena has taken. -/
structure Shadows (ρ : Nat → Nat) (own : Nat → Prop) [DecidablePred own] (number : Nat)
    (store solo : Store) : Prop where
  arena : solo.arena number = (store.arena number).rename ρ
  next : solo.next = Nat.count own store.next

/-- An operation on the arena does the same in both stores. -/
theorem Shadows.own_step (shadows : Shadows ρ own number store solo)
    (injective : Function.Injective ρ)
    (ranks : ∀ serial, own serial → ρ serial = Nat.count own serial)
    (inside : number < store.arenas.length) (inside' : number < solo.arenas.length)
    (takes : ∀ done, op.makesScope = true → op.run store.next (store.arena number) = .ok done →
      own store.next) :
    (solo.run number (op.rename ρ)).1 = (store.run number op).1.map (Answer.rename ρ) ∧
      Shadows ρ own number (store.run number op).2 (solo.run number (op.rename ρ)).2 := by
  have fits (done : Answer × Arena) (makes : op.makesScope = true)
      (ran : op.run store.next (store.arena number) = .ok done) : ρ store.next = solo.next := by
    rw [ranks _ (takes done makes ran), shadows.next]
  have run' := op.run_rename injective (store.arena number) fits
  rw [← shadows.arena] at run'
  cases run : op.run store.next (store.arena number) with
  | error e =>
    rw [run] at run'
    rw [Store.run_of_error run, Store.run_of_error run']
    exact ⟨rfl, shadows⟩
  | ok done =>
    obtain ⟨answer, arena⟩ := done
    rw [run] at run'
    rw [Store.run_of_ok run, Store.run_of_ok run', Operation.makesScope_rename]
    refine ⟨rfl, ?_, ?_⟩
    · rw [arena_set inside', if_pos rfl, arena_set inside, if_pos rfl]
    · by_cases makes : op.makesScope = true
      · show (if op.makesScope = true then _ else _) = Nat.count own (if _ then _ else _)
        rw [if_pos makes, if_pos makes, Nat.count_succ, if_pos (takes _ makes run), shadows.next]
      · show (if op.makesScope = true then _ else _) = Nat.count own (if _ then _ else _)
        rw [if_neg makes, if_neg makes, shadows.next]

/-- An operation on another arena does nothing that the lone arena could see. -/
theorem Shadows.foreign_step (shadows : Shadows ρ own number store solo) (away : number ≠ other)
    (inside : other < store.arenas.length)
    (takes : ∀ done, op.makesScope = true → op.run store.next (store.arena other) = .ok done →
      ¬ own store.next) :
    Shadows ρ own number (store.run other op).2 solo := by
  cases run : op.run store.next (store.arena other) with
  | error e =>
    rw [Store.run_of_error run]
    exact shadows
  | ok done =>
    obtain ⟨answer, arena⟩ := done
    rw [Store.run_of_ok run]
    refine ⟨?_, ?_⟩
    · rw [arena_set inside, if_neg away, shadows.arena]
    · by_cases makes : op.makesScope = true
      · show solo.next = Nat.count own (if _ then _ else _)
        rw [if_pos makes, Nat.count_succ, if_neg (takes _ makes run), shadows.next, Nat.add_zero]
      · show solo.next = Nat.count own (if _ then _ else _)
        rw [if_neg makes, shadows.next]

end Stores

/-! ## Histories -/

section Histories

variable {count : Nat} {events : List Event} {store : Store}

/-- The operations on one arena, with the answers, under other serial numbers. -/
def alone (ρ : Nat → Nat) (number : Nat) (events : List Event) : List Event :=
  (events.filter (·.number = number)).map (Event.rename ρ)

/-- The scope that an operation makes has the next serial number. -/
theorem made_next {number : Nat} {op : Operation} {done : Answer × Arena}
    (makes : op.makesScope = true) (run : op.run store.next (store.arena number) = .ok done) :
    ∃ h, Made (events ++ [⟨number, op, (store.run number op).1⟩]) number h ∧
      h.serial = store.next := by
  have answered := Operation.answer_of_makesScope makes run
  refine ⟨⟨(store.arena number).length, store.next⟩, made_snoc_iff.mpr (.inr ⟨rfl, ?_⟩), rfl⟩
  rw [Store.run_of_ok run, answered]

/-- The operations on one arena do alone what they do among those on others, where the
renaming numbers the scopes of the arena in the order in which they are made. -/
theorem History.alone (history : History count events store) (number : Fin count)
    {own : Nat → Prop} [DecidablePred own] {ρ : Nat → Nat} (injective : Function.Injective ρ)
    (ranks : ∀ serial, own serial → ρ serial = Nat.count own serial)
    (made_iff : ∀ other h, Made events other h → (own h.serial ↔ other = number)) :
    ∃ solo, History count (Scope.alone ρ number events) solo ∧
      Shadows ρ own number store solo := by
  induction history with
  | start => exact ⟨.empty count, .start, by rw [arena_empty]; rfl, (Nat.count_zero own).symm⟩
  | @step events store before other op ih =>
    obtain ⟨solo, history, shadows⟩ :=
      ih fun other h made => made_iff other h (made_snoc_iff.mpr (.inl made))
    have inside : (other : Nat) < store.arenas.length := by
      rw [before.consistent.arenas]
      exact other.isLt
    -- A serial number that is taken now belongs to the arena that takes it.
    have taken (done : Answer × Arena) (makes : op.makesScope = true)
        (run : op.run store.next (store.arena other) = .ok done) :
        own store.next ↔ (other : Nat) = number := by
      obtain ⟨h, made, serial⟩ := made_next makes run
      rw [← serial]
      exact made_iff other h made
    by_cases here : (other : Nat) = number
    · have inside' : (number : Nat) < solo.arenas.length := by
        rw [history.consistent.arenas]
        exact number.isLt
      rw [here] at inside taken ⊢
      have step := history.step number (op.rename ρ)
      obtain ⟨answers, shadows⟩ := shadows.own_step injective ranks inside inside'
        fun done makes run => (taken done makes run).mpr rfl
      refine ⟨_, ?_, shadows⟩
      rw [answers] at step
      simpa [Scope.alone, Event.rename] using step
    · refine ⟨solo, ?_, ?_⟩
      · simpa [Scope.alone, here] using history
      · exact shadows.foreign_step (Ne.symm here) inside fun done makes run counted =>
          here ((taken done makes run).mp counted)

/-- Numbers with a property below a bound can be numbered from zero on in their order, and
the others so that no two numbers become one. -/
theorem exists_numbering {own : Nat → Prop} [DecidablePred own] {bound : Nat}
    (below : ∀ serial, own serial → serial < bound) :
    ∃ ρ : Nat → Nat, Function.Injective ρ ∧
      ∀ serial, own serial → ρ serial = Nat.count own serial := by
  refine ⟨fun serial => if own serial then Nat.count own serial else bound + serial, ?_,
    fun serial counted => if_pos counted⟩
  intro a b same
  have low (serial : Nat) (counted : own serial) : Nat.count own serial < bound :=
    Nat.lt_of_le_of_lt (Nat.count_le own) (below serial counted)
  by_cases ha : own a <;> by_cases hb : own b <;> simp only [ha, hb, if_true, if_false] at same
  · exact Nat.count_injective ha hb same
  · have lt := low a ha
    omega
  · have lt := low b hb
    omega
  · omega

/-- One arena among others has done what it does by itself. -/
theorem History.exists_alone (history : History count events store) (number : Fin count) :
    ∃ ρ solo, Function.Injective ρ ∧ History count (Scope.alone ρ number events) solo ∧
      solo.arena number = (store.arena number).rename ρ := by
  classical
  have numbered := history.consistent.numbered
  let own (serial : Nat) : Prop := ∃ h, Made events number h ∧ h.serial = serial
  have below (serial : Nat) (counted : own serial) : serial < store.next := by
    obtain ⟨h, made, rfl⟩ := counted
    exact numbered.fresh made
  have made_iff (other : Nat) (h : Handle) (made : Made events other h) :
      own h.serial ↔ other = number := by
    constructor
    · rintro ⟨k, made', same⟩
      exact (numbered.unique made made' same.symm).1
    · rintro rfl
      exact ⟨h, made, rfl⟩
  obtain ⟨ρ, injective, ranks⟩ := exists_numbering below
  obtain ⟨solo, run, shadows⟩ := history.alone number injective ranks made_iff
  exact ⟨ρ, solo, injective, run, shadows.arena⟩

/-- What an operation was answered it was answered after the operations before it. -/
theorem History.exists_before (history : History count events store) {e : Event}
    (mem : e ∈ events) :
    ∃ (before : List Event) (earlier : Store) (number : Fin count) (op : Operation),
      History count before earlier ∧ before <+: events ∧
        e = ⟨number, op, (earlier.run number op).1⟩ := by
  induction history with
  | start => cases mem
  | @step events store history number op ih =>
    rcases List.mem_append.mp mem with mem | mem
    · obtain ⟨before, earlier, number, op, history, inside, same⟩ := ih mem
      exact ⟨before, earlier, number, op, history, inside.trans (List.prefix_append _ _), same⟩
    · obtain rfl := List.mem_singleton.mp mem
      exact ⟨events, store, number, op, history, List.prefix_append _ _, rfl⟩

/-- An arena refuses a handle that another one returns, before or after that. -/
theorem History.refuses_foreign (history : History count events store) {e : Event}
    (mem : e ∈ events) {h : Handle} (target : e.op.target? = some h) {other : Nat}
    (returned : Returned events other h) (away : other ≠ e.number) :
    e.answer = .error .invalidScope := by
  obtain ⟨before, earlier, number, op, history', ⟨later, rfl⟩, rfl⟩ := history.exists_before mem
  by_cases valid : (earlier.arena number).Valid h
  · obtain ⟨e, inside, makes⟩ := history'.consistent.made valid
    have made : Made (before ++ later) number h := ⟨e, List.mem_append_left later inside, makes⟩
    have foreign := history.consistent.returned returned
    exact absurd (history.consistent.numbered.unique foreign made rfl).1 away
  · have refused : op.run earlier.next (earlier.arena number) = .error .invalidScope :=
      Operation.run_of_not_valid target valid
    show (earlier.run number op).1 = _
    rw [Store.run_of_error refused]

end Histories

end Scope

end KindScript
