import KindScript.Proofs.Scopes.Bindings
import KindScript.Proofs.Scopes.Parents

/-!
# The nearest binding

From a known scope its parents lead outwards to a scope without a parent. A name is read,
updated and deleted in the first scope on this way that binds it, and defined in the scope
where the way begins. No other binding changes, in this arena or another one, and an
operation that fails changes nothing at all.
-/

namespace KindScript

open Scope

theorem Bindings.get?_erase (bindings : Bindings) (name key : String) :
    (bindings.erase name).get? key = if key = name then none else bindings.get? key := by
  induction bindings with
  | nil =>
    show none = if key = name then none else none
    rw [ite_self]
  | cons entry more ih =>
    obtain ⟨other, v⟩ := entry
    by_cases named : other = name
    · have head : erase ((other, v) :: more) name = erase more name := by simp [erase, named]
      rw [head, ih, get?_cons, named]
      split <;> rfl
    · have head : erase ((other, v) :: more) name = (other, v) :: erase more name := by
        simp [erase, named]
      rw [head, get?_cons, get?_cons, ih]
      by_cases same : key = other
      · rw [if_pos same, if_pos same, if_neg fun both => named (same.symm.trans both)]
      · rw [if_neg same, if_neg same]

namespace Arena

/-! ## The way outwards -/

/-- The scopes on the way outwards from one: the scope itself, its parent, and so on up to a
scope without a parent. -/
inductive Outwards (arena : Arena) : Handle → List Handle → Prop where
  | last {h : Handle} (alone : arena.parent h = .ok none) : Outwards arena h [h]
  | inside {h outer : Handle} {scopes : List Handle} (parent : arena.parent h = .ok (some outer))
    (way : Outwards arena outer scopes) : Outwards arena h (h :: scopes)

/-- `owner` is the first of the scopes that binds the name, and `beyond` are the scopes after
it. -/
structure Nearest (arena : Arena) (name : String) (scopes : List Handle) (owner : Handle)
    (v : Variable) (beyond : List Handle) : Prop where
  way : ∃ within, scopes = within ++ owner :: beyond ∧
    ∀ k ∈ within, arena.binding? k name = none
  bound : arena.binding? owner name = some v

/-- No scope on the way binds the name. -/
def Unbound (arena : Arena) (name : String) (scopes : List Handle) : Prop :=
  ∀ k ∈ scopes, arena.binding? k name = none

/-- What a name stands for by the first of the scopes that binds it. -/
def seen (arena : Arena) (scopes : List Handle) (name : String) : Except Error Variable :=
  (scopes.findSome? (arena.binding? · name)).elim (.error (.undefined name)) .ok

/-- How many of the scopes bind the name. -/
def definitions (arena : Arena) (scopes : List Handle) (name : String) : Nat :=
  scopes.countP fun k => (arena.binding? k name).isSome

/-- The same scopes with the same bindings, but for the one that `owner` has for the name. -/
structure Rebinds (arena after : Arena) (owner : Handle) (name : String)
    (bound : Option Variable) : Prop where
  shape : after.shape = arena.shape
  binding : ∀ k key, after.binding? k key =
    if k = owner ∧ key = name then bound else arena.binding? k key

section Ways

variable {arena after : Arena} {h k owner : Handle} {name : String} {v : Variable}
  {record : Record} {scopes beyond : List Handle}

theorem parent_of_get? (found : arena.get? h = some record) :
    arena.parent h = .ok record.parent := by
  rw [Arena.parent, record_eq_ok.mpr found]
  rfl

theorem get?_of_parent {outer : Option Handle} (told : arena.parent h = .ok outer) :
    ∃ record, arena.get? h = some record ∧ record.parent = outer := by
  obtain ⟨record, found, same⟩ := map_eq_ok.mp told
  exact ⟨record, record_eq_ok.mp found, same⟩

theorem Outwards.unique (way : arena.Outwards h scopes) {other : List Handle}
    (way' : arena.Outwards h other) : other = scopes := by
  induction way generalizing other with
  | last alone =>
    cases way' with
    | last => rfl
    | inside parent =>
      rw [alone] at parent
      cases parent
  | inside parent _ ih =>
    cases way' with
    | last alone =>
      rw [alone] at parent
      cases parent
    | inside parent' way' =>
      rw [parent] at parent'
      cases parent'
      rw [ih way']

theorem exists_outwards {h : Handle} (sound : arena.Sound) (valid : arena.Valid h) :
    ∃ scopes, arena.Outwards h scopes := by
  obtain ⟨record, found⟩ := Option.isSome_iff_exists.mp valid
  have told := parent_of_get? found
  cases outwards : record.parent with
  | none =>
    rw [outwards] at told
    exact ⟨_, .last told⟩
  | some outer =>
    rw [outwards] at told
    have lower := sound.parent_index_lt found outwards
    obtain ⟨scopes, way⟩ := exists_outwards sound (sound.parent_valid found outwards)
    exact ⟨_, .inside told way⟩
termination_by h.index

/-- The way leads to ever lower slots. -/
theorem Outwards.index_le (way : arena.Outwards h scopes) (sound : arena.Sound) :
    ∀ k ∈ scopes, k.index ≤ h.index := by
  induction way with
  | last =>
    intro k mem
    exact Nat.le_of_eq (congrArg Handle.index (List.mem_singleton.mp mem))
  | inside parent _ ih =>
    obtain ⟨record, found, outwards⟩ := get?_of_parent parent
    have lower := sound.parent_index_lt found outwards
    intro k mem
    rcases List.mem_cons.mp mem with rfl | mem
    · exact Nat.le_refl _
    · exact Nat.le_trans (ih k mem) (Nat.le_of_lt lower)

theorem Outwards.nodup (way : arena.Outwards h scopes) (sound : arena.Sound) : scopes.Nodup := by
  induction way with
  | last => exact List.pairwise_singleton _ _
  | inside parent way ih =>
    obtain ⟨record, found, outwards⟩ := get?_of_parent parent
    have lower := sound.parent_index_lt found outwards
    refine List.nodup_cons.mpr ⟨fun mem => ?_, ih⟩
    have most := way.index_le sound _ mem
    omega

theorem Outwards.of_parents (way : arena.Outwards h scopes)
    (parents : ∀ k, after.parent k = arena.parent k) : after.Outwards h scopes := by
  induction way with
  | last alone => exact .last ((parents _).trans alone)
  | inside parent _ ih => exact .inside ((parents _).trans parent) ih

theorem Outwards.exists_record (way : arena.Outwards h scopes) :
    ∃ record, arena.get? h = some record := by
  cases way with
  | last told =>
    obtain ⟨record, found, _⟩ := get?_of_parent told
    exact ⟨record, found⟩
  | inside told =>
    obtain ⟨record, found, _⟩ := get?_of_parent told
    exact ⟨record, found⟩

/-! ## Resolving on the way -/

theorem nearest_or_unbound (arena : Arena) (name : String) (scopes : List Handle) :
    arena.Unbound name scopes ∨ ∃ owner v beyond, arena.Nearest name scopes owner v beyond := by
  induction scopes with
  | nil => exact .inl nofun
  | cons h scopes ih =>
    cases bound : arena.binding? h name with
    | some v => exact .inr ⟨h, v, scopes, ⟨[], rfl, nofun⟩, bound⟩
    | none =>
      rcases ih with unbound | ⟨owner, v, beyond, ⟨within, rfl, free⟩, here⟩
      · exact .inl (List.forall_mem_cons.mpr ⟨bound, unbound⟩)
      · exact .inr ⟨owner, v, beyond, ⟨h :: within, rfl, List.forall_mem_cons.mpr ⟨bound, free⟩⟩,
          here⟩

theorem Unbound.seen_eq (unbound : arena.Unbound name scopes) :
    arena.seen scopes name = .error (.undefined name) := by
  rw [seen, List.findSome?_eq_none_iff.mpr unbound]
  rfl

theorem Nearest.seen_eq (nearest : arena.Nearest name scopes owner v beyond) :
    arena.seen scopes name = .ok v := by
  obtain ⟨⟨within, rfl, free⟩, bound⟩ := nearest
  rw [seen, List.findSome?_append, List.findSome?_eq_none_iff.mpr free, Option.none_or,
    List.findSome?_cons, bound]
  rfl

theorem contains_of_binding? (found : arena.get? h = some record) :
    record.bindings.contains name = (arena.binding? h name).isSome := by
  rw [binding?_of_get? found, Bindings.contains]

theorem Outwards.resolve_of_unbound (way : arena.Outwards h scopes) (sound : arena.Sound)
    (unbound : arena.Unbound name scopes) : arena.resolve h name = .error (.undefined name) := by
  induction way with
  | last alone =>
    obtain ⟨record, found, outwards⟩ := get?_of_parent alone
    have free := unbound _ List.mem_cons_self
    rw [resolve_of_get? sound found, contains_of_binding? found, free, outwards]
    rfl
  | inside parent _ ih =>
    obtain ⟨record, found, outwards⟩ := get?_of_parent parent
    have free := unbound _ List.mem_cons_self
    rw [resolve_of_get? sound found, contains_of_binding? found, free, outwards]
    exact ih fun k mem => unbound k (List.mem_cons_of_mem _ mem)

theorem Outwards.resolve_of_nearest (way : arena.Outwards h scopes) (sound : arena.Sound)
    (nearest : arena.Nearest name scopes owner v beyond) :
    ∃ record, arena.resolve h name = .ok (owner, record) ∧ arena.get? owner = some record ∧
      record.bindings.get? name = some v := by
  obtain ⟨⟨within, split, free⟩, bound⟩ := nearest
  have here {record : Record} (found : arena.get? owner = some record) :
      ∃ record, arena.resolve owner name = .ok (owner, record) ∧ arena.get? owner = some record ∧
        record.bindings.get? name = some v := by
    refine ⟨record, ?_, found, ?_⟩
    · rw [resolve_of_get? sound found, contains_of_binding? found, bound]
      rfl
    · rw [← binding?_of_get? found, bound]
  induction way generalizing within with
  | last alone =>
    obtain ⟨record, found, _⟩ := get?_of_parent alone
    cases within with
    | nil =>
      cases split
      exact here found
    | cons k within => cases within <;> cases split
  | inside parent _ ih =>
    obtain ⟨record, found, outwards⟩ := get?_of_parent parent
    cases within with
    | nil =>
      cases split
      exact here found
    | cons k within =>
      cases split
      obtain ⟨own, free⟩ := List.forall_mem_cons.mp free
      rw [resolve_of_get? sound found, contains_of_binding? found, own, outwards]
      exact ih within rfl free

/-! ## Changing one binding -/

theorem parent_eq_elim (arena : Arena) (k : Handle) :
    arena.parent k = ((arena.get? k).map (·.parent)).elim (.error .invalidScope) .ok := by
  unfold Arena.parent Arena.record
  cases arena.get? k <;> rfl

theorem parent_of_shape (same : after.shape = arena.shape) (k : Handle) :
    after.parent k = arena.parent k := by
  have outer : (after.get? k).map (·.parent) = (arena.get? k).map (·.parent) := by
    induction arena generalizing after with
    | nil =>
      cases after with
      | nil => rfl
      | cons => cases same
    | cons record older ih =>
      cases after with
      | nil => cases same
      | cons record' older' =>
        obtain ⟨top, rest⟩ := List.cons_eq_cons.mp same
        have serial : record'.serial = record.serial := congrArg Prod.fst top
        have outer : record'.parent = record.parent := congrArg Prod.snd top
        rw [get?, get?, length_eq_of_shape rest, serial]
        split
        · split
          · exact congrArg some outer
          · rfl
        · exact ih rest
  rw [parent_eq_elim, parent_eq_elim, outer]

theorem Rebinds.of_setBindings (found : arena.get? owner = some record) {bindings : Bindings}
    {bound : Option Variable}
    (changed : ∀ key, bindings.get? key = if key = name then bound else record.bindings.get? key) :
    arena.Rebinds (arena.setBindings owner.index bindings) owner name bound := by
  refine ⟨shape_setBindings arena _ _, fun k key => ?_⟩
  rw [binding?_setBindings found, changed]
  by_cases here : k = owner
  · rw [if_pos here, here, binding?_of_get? found]
    simp only [true_and]
  · rw [if_neg here, if_neg fun both => here both.1]

theorem define_of_unbound (found : arena.get? h = some record)
    (free : arena.binding? h name = none) (v : Variable) :
    ∃ after, arena.define h name v = .ok after ∧ arena.Rebinds after h name (some v) := by
  have unbound := free
  rw [binding?_of_get? found] at unbound
  refine ⟨arena.setBindings h.index (record.bindings.add name v), ?_, .of_setBindings found ?_⟩
  · simp only [define, found, Bindings.contains, unbound, Option.isSome_none, Bool.false_eq_true,
      if_false]
  · intro key
    rw [Bindings.get?_add]
    by_cases same : key = name
    · rw [if_pos same, if_pos same, same, unbound, Option.none_or]
    · rw [if_neg same, if_neg same, Option.or_none]

theorem define_of_bound {old : Variable} (bound : arena.binding? h name = some old)
    (v : Variable) : arena.define h name v = .error (.alreadyDefined name) := by
  obtain ⟨record, found, named⟩ := Option.bind_eq_some_iff.mp bound
  simp only [define, found, Bindings.contains, named, Option.isSome_some, if_true]

section Resolved

variable (way : arena.Outwards h scopes) (sound : arena.Sound)
include way sound

theorem lookup_eq_seen : arena.lookup h name = arena.seen scopes name := by
  unfold lookup
  rcases nearest_or_unbound arena name scopes with unbound | ⟨owner, v, beyond, nearest⟩
  · rw [way.resolve_of_unbound sound unbound, unbound.seen_eq]
  · obtain ⟨record, resolved, _, named⟩ := way.resolve_of_nearest sound nearest
    rw [resolved, nearest.seen_eq]
    simp only [named]

theorem update_of_unbound (unbound : arena.Unbound name scopes) (value : Value) :
    arena.update h name value = .error (.undefined name) := by
  rw [update, way.resolve_of_unbound sound unbound]

theorem update_of_nearest_constant (nearest : arena.Nearest name scopes owner v beyond)
    (constant : v.constant = true) (value : Value) :
    arena.update h name value = .error (.constant name) := by
  obtain ⟨record, resolved, _, named⟩ := way.resolve_of_nearest sound nearest
  rw [update, resolved]
  simp only [named, constant, if_true]

theorem update_of_nearest_variable (nearest : arena.Nearest name scopes owner v beyond)
    (varies : v.constant = false) (value : Value) :
    ∃ after, arena.update h name value = .ok after ∧
      arena.Rebinds after owner name (some ⟨value, false⟩) := by
  obtain ⟨record, resolved, found, named⟩ := way.resolve_of_nearest sound nearest
  refine ⟨arena.setBindings owner.index (record.bindings.set name value), ?_,
    .of_setBindings found ?_⟩
  · rw [update, resolved]
    simp only [named, varies, Bool.false_eq_true, if_false]
  · intro key
    rw [Bindings.get?_set]
    by_cases same : key = name
    · rw [if_pos same, same, named, Option.map_some, if_pos rfl, varies]
    · simp only [if_neg same, Option.map_id']

theorem delete_of_unbound (unbound : arena.Unbound name scopes) :
    arena.delete h name = .ok (false, arena) := by
  rw [delete, way.resolve_of_unbound sound unbound]

theorem delete_of_nearest (nearest : arena.Nearest name scopes owner v beyond) :
    ∃ after, arena.delete h name = .ok (true, after) ∧ arena.Rebinds after owner name none := by
  obtain ⟨record, resolved, found, _⟩ := way.resolve_of_nearest sound nearest
  refine ⟨arena.setBindings owner.index (record.bindings.erase name), ?_,
    .of_setBindings found fun key => Bindings.get?_erase _ _ _⟩
  rw [delete, resolved]

end Resolved

/-! ## After a deletion -/

theorem Rebinds.binding_of_ne {bound : Option Variable}
    (rebinds : arena.Rebinds after owner name bound) (away : k ≠ owner) (key : String) :
    after.binding? k key = arena.binding? k key := by
  rw [rebinds.binding, if_neg fun both => away both.1]

section Deletions

variable (nearest : arena.Nearest name scopes owner v beyond) (distinct : scopes.Nodup)
  (rebinds : arena.Rebinds after owner name none)
include nearest distinct rebinds

/-- The scopes up to the owner no longer bind the name, and those beyond it do as before. -/
theorem Nearest.deleted :
    ∃ within, scopes = within ++ owner :: beyond ∧ arena.Unbound name within ∧
      after.Unbound name within ∧ after.binding? owner name = none ∧
      ∀ k ∈ beyond, after.binding? k name = arena.binding? k name := by
  obtain ⟨⟨within, rfl, free⟩, bound⟩ := nearest
  have out := (List.nodup_cons.mp (List.nodup_append.mp distinct).2.1).1
  have gone : after.binding? owner name = none := by
    rw [rebinds.binding, if_pos ⟨rfl, rfl⟩]
  refine ⟨within, rfl, free, fun k mem => ?_, gone, fun k mem => ?_⟩
  · by_cases here : k = owner
    · rw [here, gone]
    · rw [rebinds.binding_of_ne here, free k mem]
  · exact rebinds.binding_of_ne (fun same => out (same ▸ mem)) name

/-- Afterwards the name is seen as the next scope outwards defines it. -/
theorem Nearest.seen_deleted : after.seen scopes name = arena.seen beyond name := by
  obtain ⟨within, rfl, _, free, gone, same⟩ := nearest.deleted distinct rebinds
  have later : beyond.findSome? (after.binding? · name) =
      beyond.findSome? (arena.binding? · name) := by
    clear nearest distinct
    induction beyond with
    | nil => rfl
    | cons k more ih =>
      obtain ⟨here, same⟩ := List.forall_mem_cons.mp same
      rw [List.findSome?_cons, List.findSome?_cons, here, ih same]
  rw [seen, seen, List.findSome?_append, List.findSome?_eq_none_iff.mpr free, Option.none_or,
    List.findSome?_cons, gone]
  simp only [later]

theorem Nearest.definitions_deleted :
    arena.definitions scopes name = after.definitions scopes name + 1 := by
  obtain ⟨within, rfl, free, free', gone, same⟩ := nearest.deleted distinct rebinds
  have none {arena : Arena} (free : arena.Unbound name within) :
      within.countP (fun k => (arena.binding? k name).isSome) = 0 := by
    rw [List.countP_eq_zero]
    intro k mem
    rw [free k mem]
    exact Bool.false_ne_true
  have later : beyond.countP (fun k => (after.binding? k name).isSome) =
      beyond.countP fun k => (arena.binding? k name).isSome := by
    refine List.countP_congr fun k mem => ?_
    rw [same k mem]
  simp only [definitions, List.countP_append, List.countP_cons, none free, none free', later,
    nearest.bound, gone, Option.isSome_some, Option.isSome_none, if_true, Bool.false_eq_true,
    if_false]
  omega

end Deletions

theorem Unbound.definitions_eq (unbound : arena.Unbound name scopes) :
    arena.definitions scopes name = 0 := by
  rw [definitions, List.countP_eq_zero]
  intro k mem
  rw [unbound k mem]
  exact Bool.false_ne_true

end Ways

end Arena

/-! ## Operations of a store -/

namespace Scope

/-- The same arenas with the same bindings, but for the one that a scope of one arena has for
the name. -/
structure Store.Rebinds (store after : Store) (number : Nat) (owner : Handle) (name : String)
    (bound : Option Variable) : Prop where
  arena : (store.arena number).Rebinds (after.arena number) owner name bound
  others : ∀ other, other ≠ number → after.arena other = store.arena other
  count : after.arenas.length = store.arenas.length
  next : after.next = store.next

/-- The answers to deleting a name so many times from a scope, and the store afterwards. -/
def Store.deletions (store : Store) (number : Nat) (h : Handle) (name : String) :
    Nat → List (Except Error Answer) × Store
  | 0 => ([], store)
  | times + 1 =>
    let (answer, after) := store.run number (.delete h name)
    let (answers, last) := after.deletions number h name times
    (answer :: answers, last)

/-- What is done to a name from a scope is done to the nearest binding that it has in the
scopes on the way outwards, and to no other one. -/
structure ActsOnNearest (store : Store) (number : Nat) (h : Handle) (name : String)
    (scopes : List Handle) : Prop where
  lookup : store.run number (.lookup h name) =
    (((store.arena number).seen scopes name).map .found, store)
  update : ∀ owner v beyond value, (store.arena number).Nearest name scopes owner v beyond →
    if v.constant then
      store.run number (.update h name value) = (.error (.constant name), store)
    else ∃ after, store.run number (.update h name value) = (.ok .done, after) ∧
      store.Rebinds after number owner name (some ⟨value, false⟩)
  updateUnbound : ∀ value, (store.arena number).Unbound name scopes →
    store.run number (.update h name value) = (.error (.undefined name), store)
  delete : ∀ owner v beyond, (store.arena number).Nearest name scopes owner v beyond →
    ∃ after, store.run number (.delete h name) = (.ok (.truth true), after) ∧
      store.Rebinds after number owner name none ∧
      (after.run number (.lookup h name)).1 =
        ((store.arena number).seen beyond name).map .found
  deleteUnbound : (store.arena number).Unbound name scopes →
    store.run number (.delete h name) = (.ok (.truth false), store)
  deletions : ∀ times, (store.deletions number h name times).1 =
    List.replicate (min times ((store.arena number).definitions scopes name))
        (.ok (.truth true)) ++
      List.replicate (times - (store.arena number).definitions scopes name) (.ok (.truth false))
  define : ∀ v, (store.arena number).binding? h name = none →
    ∃ after, store.run number (.define h name v) = (.ok .done, after) ∧
      store.Rebinds after number h name (some v)
  defineTaken : ∀ v old, (store.arena number).binding? h name = some old →
    store.run number (.define h name v) = (.error (.alreadyDefined name), store)

section Stores

variable {store after : Store} {number : Nat} {op : Operation} {answer : Answer}
  {h owner : Handle} {name : String} {bound : Option Variable} {scopes beyond : List Handle}

theorem Store.run_of_same (lt : number < store.arenas.length) (makes : op.makesScope = false)
    (done : op.run store.next (store.arena number) = .ok (answer, store.arena number)) :
    store.run number op = (.ok answer, store) := by
  have same : store.arenas.set number (store.arena number) = store.arenas := by
    rw [Store.arena, List.getElem?_eq_getElem lt, Option.getD_some, List.set_getElem_self]
  rw [Store.run_of_ok done, same, makes]
  rfl

theorem Store.exists_rebinds {arena : Arena} (lt : number < store.arenas.length)
    (makes : op.makesScope = false)
    (done : op.run store.next (store.arena number) = .ok (answer, arena))
    (rebinds : (store.arena number).Rebinds arena owner name bound) :
    ∃ after, store.run number op = (.ok answer, after) ∧
      store.Rebinds after number owner name bound := by
  refine ⟨_, Store.run_of_ok done, ?_, ?_, List.length_set, ?_⟩
  · rw [arena_set lt, if_pos rfl]
    exact rebinds
  · intro other away
    rw [arena_set lt, if_neg away]
  · rw [makes]
    rfl

section Ways

variable (lt : number < store.arenas.length) (sound : (store.arena number).Sound)
  (way : (store.arena number).Outwards h scopes)
include lt sound way

theorem Store.run_lookup : store.run number (.lookup h name) =
    (((store.arena number).seen scopes name).map .found, store) := by
  have looked : (store.arena number).lookup h name = (store.arena number).seen scopes name :=
    Arena.lookup_eq_seen way sound
  cases found : (store.arena number).seen scopes name with
  | error e =>
    rw [found] at looked
    exact Store.run_of_error (by rw [Operation.run, looked]; rfl)
  | ok v =>
    rw [found] at looked
    exact Store.run_of_same lt rfl (by rw [Operation.run, looked]; rfl)

theorem Store.run_delete_of_unbound (unbound : (store.arena number).Unbound name scopes) :
    store.run number (.delete h name) = (.ok (.truth false), store) :=
  Store.run_of_same lt rfl (by
    rw [Operation.run, Arena.delete_of_unbound way sound unbound]
    rfl)

theorem Store.run_delete_of_nearest {v : Variable}
    (nearest : (store.arena number).Nearest name scopes owner v beyond) :
    ∃ after, store.run number (.delete h name) = (.ok (.truth true), after) ∧
      store.Rebinds after number owner name none := by
  obtain ⟨arena, deleted, rebinds⟩ := Arena.delete_of_nearest way sound nearest
  refine Store.exists_rebinds lt rfl ?_ rebinds
  rw [Operation.run, deleted]
  rfl

end Ways

theorem Store.Rebinds.sound (rebinds : store.Rebinds after number owner name bound)
    (sound : (store.arena number).Sound) : (after.arena number).Sound :=
  (Arena.sound_iff_of_shape rebinds.arena.shape).mpr sound

theorem Store.Rebinds.outwards (rebinds : store.Rebinds after number owner name bound)
    (way : (store.arena number).Outwards h scopes) : (after.arena number).Outwards h scopes :=
  way.of_parents (Arena.parent_of_shape rebinds.arena.shape)

/-- Each deletion takes one definition off the way, as long as there is one. -/
theorem Store.deletions_eq (lt : number < store.arenas.length)
    (sound : (store.arena number).Sound) (way : (store.arena number).Outwards h scopes)
    (times : Nat) :
    (store.deletions number h name times).1 =
      List.replicate (min times ((store.arena number).definitions scopes name))
          (.ok (.truth true)) ++
        List.replicate (times - (store.arena number).definitions scopes name)
          (.ok (.truth false)) := by
  induction times generalizing store with
  | zero => simp [Store.deletions]
  | succ times ih =>
    rcases Arena.nearest_or_unbound (store.arena number) name scopes with
      unbound | ⟨owner, v, beyond, nearest⟩
    · have deleted := Store.run_delete_of_unbound lt sound way unbound
      have rest := ih lt sound way
      rw [unbound.definitions_eq] at rest ⊢
      simp only [Store.deletions, deleted, rest, Nat.min_zero, Nat.sub_zero, List.replicate_zero,
        List.nil_append, List.replicate_succ]
    · obtain ⟨after, deleted, rebinds⟩ := Store.run_delete_of_nearest lt sound way nearest
      have rest := ih (rebinds.count ▸ lt) (rebinds.sound sound) (rebinds.outwards way)
      rw [nearest.definitions_deleted (way.nodup sound) rebinds.arena]
      simp only [Store.deletions, deleted, rest, Nat.succ_min_succ, Nat.reduceSubDiff,
        List.replicate_succ, List.cons_append]

theorem actsOnNearest (lt : number < store.arenas.length) (sound : (store.arena number).Sound)
    (way : (store.arena number).Outwards h scopes) :
    ActsOnNearest store number h name scopes := by
  constructor
  case lookup => exact Store.run_lookup lt sound way
  case update =>
    intro owner v beyond value nearest
    split
    · rename_i constant
      refine Store.run_of_error ?_
      rw [Operation.run, Arena.update_of_nearest_constant way sound nearest constant]
      rfl
    · rename_i varies
      obtain ⟨arena, updated, rebinds⟩ := Arena.update_of_nearest_variable way sound nearest
        (Bool.eq_false_iff.mpr varies) value
      refine Store.exists_rebinds lt rfl ?_ rebinds
      rw [Operation.run, updated]
      rfl
  case updateUnbound =>
    intro value unbound
    refine Store.run_of_error ?_
    rw [Operation.run, Arena.update_of_unbound way sound unbound]
    rfl
  case delete =>
    intro owner v beyond nearest
    obtain ⟨after, deleted, rebinds⟩ := Store.run_delete_of_nearest lt sound way nearest
    refine ⟨after, deleted, rebinds, ?_⟩
    rw [Store.run_lookup (rebinds.count ▸ lt) (rebinds.sound sound) (rebinds.outwards way),
      nearest.seen_deleted (way.nodup sound) rebinds.arena]
  case deleteUnbound => exact Store.run_delete_of_unbound lt sound way
  case deletions => exact Store.deletions_eq lt sound way
  case define =>
    intro v free
    obtain ⟨record, found⟩ := way.exists_record
    obtain ⟨arena, defined, rebinds⟩ := Arena.define_of_unbound found free v
    refine Store.exists_rebinds lt rfl ?_ rebinds
    rw [Operation.run, defined]
    rfl
  case defineTaken =>
    intro v old bound
    refine Store.run_of_error ?_
    rw [Operation.run, Arena.define_of_bound bound v]
    rfl

/-- In every arena that operations lead to, exactly one way leads outwards from a known
scope, and what is done to a name from there is done to its nearest binding on that way. What
fails changes nothing. -/
theorem nearest_of_history {count : Nat} {events : List Event}
    (history : History count events store) (number : Fin count) (h : Handle)
    (valid : (store.arena number).Valid h) (name : String) :
    (∃ scopes, (∀ way, (store.arena number).Outwards h way ↔ way = scopes) ∧
      ActsOnNearest store number h name scopes) ∧
      ∀ op e, (store.run number op).1 = .error e → (store.run number op).2 = store := by
  have consistent := history.consistent
  have lt : (number : Nat) < store.arenas.length := by
    rw [consistent.arenas]
    exact number.isLt
  have sound := consistent.sound number
  obtain ⟨scopes, way⟩ := Arena.exists_outwards sound valid
  refine ⟨⟨scopes, fun other => ⟨way.unique, ?_⟩, actsOnNearest lt sound way⟩, ?_⟩
  · rintro rfl
    exact way
  · intro op e failed
    cases run : op.run store.next (store.arena number) with
    | error e => rw [Store.run_of_error run]
    | ok done =>
      rw [Store.run_of_ok run] at failed
      cases failed

/-- A root with a name, a scope inside it that has the name as a constant, and one inside that
without the name. -/
private def shadowed : Store :=
  (((((Store.empty 1).run 0 .pushRoot).2.run 0 (.define ⟨0, 0⟩ "x" ⟨.null, false⟩)).2.run 0
    (.push ⟨0, 0⟩)).2.run 0 (.define ⟨1, 1⟩ "x" ⟨.boolean true, true⟩)).2.run 0
    (.push ⟨1, 1⟩) |>.2

theorem nearest_of_history_shadowed :
    (∃ events, History 1 events shadowed) ∧
      (shadowed.run 0 (.update ⟨2, 2⟩ "x" .null)) = (.error (.constant "x"), shadowed) ∧
      (shadowed.deletions 0 ⟨2, 2⟩ "x" 3).1 =
        [.ok (.truth true), .ok (.truth true), .ok (.truth false)] := by
  have history : History 1 _ shadowed :=
    .step (.step (.step (.step (.step .start 0 .pushRoot) 0 (.define ⟨0, 0⟩ "x" ⟨.null, false⟩)) 0
      (.push ⟨0, 0⟩)) 0 (.define ⟨1, 1⟩ "x" ⟨.boolean true, true⟩)) 0 (.push ⟨1, 1⟩)
  have valid : (shadowed.arena 0).Valid ⟨2, 2⟩ := by decide
  have way : (shadowed.arena 0).Outwards ⟨2, 2⟩ [⟨2, 2⟩, ⟨1, 1⟩, ⟨0, 0⟩] :=
    .inside rfl (.inside rfl (.last rfl))
  obtain ⟨⟨scopes, ways, acts⟩, _⟩ := nearest_of_history history 0 ⟨2, 2⟩ valid "x"
  rw [← (ways _).mp way] at acts
  have constant : (shadowed.arena 0).Nearest "x" [⟨2, 2⟩, ⟨1, 1⟩, ⟨0, 0⟩] ⟨1, 1⟩
      ⟨.boolean true, true⟩ [⟨0, 0⟩] := by
    refine ⟨⟨[⟨2, 2⟩], rfl, ?_⟩, rfl⟩
    intro k mem
    rw [List.mem_singleton.mp mem]
    rfl
  exact ⟨⟨_, history⟩, acts.update _ _ _ _ constant, acts.deletions 3⟩

end Stores

end Scope

end KindScript
