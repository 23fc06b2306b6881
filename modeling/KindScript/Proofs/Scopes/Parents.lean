import KindScript.Proofs.Scopes.Handles

/-!
# Parents and the walk outwards

After any operations on any arenas the slots of an arena hold scopes with ever greater serial
numbers, and the parent of a scope stands in a lower slot. So the walk from a scope by its
parents, which tests of no scope that it is older than the one before, comes to an end, never
stands at a scope that was released, and finds what resolving the name finds.
-/

namespace KindScript

open Scope

namespace Arena

/-- The scope in a slot, counted from the oldest one. -/
def slot? (arena : Arena) (index : Nat) : Option Record :=
  arena.reverse[index]?

/-- The walk outwards in search of a name, one scope at a step. Running out of steps is no
answer. -/
def walk (arena : Arena) (name : String) :
    (steps : Nat) → Handle → Option (Except Error (Handle × Record))
  | 0, _ => none
  | steps + 1, h =>
    match arena.get? h with
    | none => some (.error .invalidScope)
    | some record =>
      if record.bindings.contains name then some (.ok (h, record))
      else
        match record.parent with
        | none => some (.error (.undefined name))
        | some outer => walk arena name steps outer

/-- Serial numbers grow from slot to slot, and parents stand in lower slots. -/
structure Chained (arena : Arena) : Prop where
  serials : ∀ i j lower upper, arena.slot? i = some lower → arena.slot? j = some upper → i < j →
    lower.serial < upper.serial
  parents : ∀ i record h, arena.slot? i = some record → record.parent = some h →
    h.index < i ∧ ∃ outer, arena.slot? h.index = some outer ∧ outer.serial = h.serial

/-- From the scope outwards there are known scopes only, up to one without a parent. -/
structure LeadsOut (arena : Arena) (h : Handle) : Prop where
  walk : ∀ name, arena.walk name (h.index + 1) h = some (arena.resolve h name) ∧
    arena.resolve h name ≠ .error .invalidScope
  parent : ∃ outer, arena.parent h = .ok outer ∧ ∀ k, outer = some k → arena.Valid k
  lookup : ∀ name e, arena.lookup h name = .error e → e = .undefined name
  update : ∀ name value e, arena.update h name value = .error e →
    e = .undefined name ∨ e = .constant name
  delete : ∀ name, ∃ found, arena.delete h name = .ok found

section Slots

variable {arena older : Arena} {record : Record} {h outer : Handle} {name : String}

theorem slot?_cons (newest : Record) (older : Arena) (index : Nat) :
    slot? (newest :: older) index =
      if index = older.length then some newest else older.slot? index := by
  unfold slot?
  rw [List.reverse_cons]
  rcases Nat.lt_trichotomy index older.length with lt | rfl | gt
  · rw [if_neg (Nat.ne_of_lt lt), List.getElem?_append_left (by simpa using lt)]
  · simp
  · rw [if_neg (Nat.ne_of_gt gt), List.getElem?_eq_none (by simp; omega),
      List.getElem?_eq_none (by simp; omega)]

/-- A handle names the scope in its slot, if that one has its serial number. -/
theorem get?_eq_some_iff :
    arena.get? h = some record ↔ arena.slot? h.index = some record ∧ record.serial = h.serial := by
  induction arena with
  | nil => simp [get?, slot?]
  | cons newest older ih =>
    rw [get?, slot?_cons]
    by_cases top : h.index = older.length
    · rw [if_pos top, if_pos top]
      by_cases fits : newest.serial = h.serial
      · rw [if_pos fits, iff_self_and]
        intro same
        rw [← Option.some.inj same]
        exact fits
      · rw [if_neg fits]
        refine iff_of_false (fun same => by cases same) ?_
        rintro ⟨same, serial⟩
        exact fits (Option.some.inj same ▸ serial)
    · rw [if_neg top, if_neg top]
      exact ih

theorem get?_of_slot? {index : Nat} (held : arena.slot? index = some record) :
    arena.get? ⟨index, record.serial⟩ = some record :=
  get?_eq_some_iff.mpr ⟨held, rfl⟩

theorem valid_of_get? (found : arena.get? h = some record) : arena.Valid h :=
  Option.isSome_iff_exists.mpr ⟨record, found⟩

/-! ## The walk -/

theorem Sound.parent_index_lt (sound : arena.Sound) (found : arena.get? h = some record)
    (outwards : record.parent = some outer) : outer.index < h.index := by
  induction arena with
  | nil => cases found
  | cons newest older ih =>
    rw [get?] at found
    split at found
    · rename_i top
      split at found
      · cases found
        rw [top]
        exact (sound.1 outer outwards).index_lt
      · cases found
    · exact ih sound.2 found

theorem resolve_grow (newest : Record) (lt : h.index < older.length) (name : String) :
    resolve (newest :: older) h name = resolve older h name := by
  rw [resolve, if_neg (Nat.ne_of_lt lt)]

/-- Resolving looks at the scope itself and then goes on at its parent. -/
theorem resolve_of_get? (sound : arena.Sound) (found : arena.get? h = some record)
    (name : String) :
    arena.resolve h name =
      if record.bindings.contains name then .ok (h, record)
      else record.parent.elim (.error (.undefined name)) fun outer => arena.resolve outer name := by
  induction arena with
  | nil => cases found
  | cons newest older ih =>
    -- The parent is known below the newest scope, which it does not notice.
    have outwards {outer : Handle} (known : Valid older outer) :
        resolve older outer name = resolve (newest :: older) outer name :=
      (resolve_grow newest known.index_lt name).symm
    rw [get?] at found
    split at found
    · rename_i top
      split at found
      · rename_i fits
        cases found
        rw [resolve, if_pos top, if_pos fits]
        cases parent : record.parent with
        | none => rfl
        | some outer =>
          simp only [Option.elim_some]
          rw [outwards (sound.1 outer parent)]
      · cases found
    · rename_i low
      rw [resolve, if_neg low, ih sound.2 found]
      cases parent : record.parent with
      | none => rfl
      | some outer =>
        simp only [Option.elim_some]
        rw [outwards (sound.2.parent_valid found parent)]

/-- Every step of the walk is at a lower slot, so there are steps enough. -/
theorem walk_eq_resolve (sound : arena.Sound) (valid : arena.Valid h) {steps : Nat}
    (enough : h.index < steps) (name : String) :
    arena.walk name steps h = some (arena.resolve h name) := by
  induction steps generalizing h with
  | zero => exact absurd enough (Nat.not_lt_zero _)
  | succ steps ih =>
    obtain ⟨record, found⟩ := Option.isSome_iff_exists.mp valid
    rw [walk, resolve_of_get? sound found]
    simp only [found]
    split
    · rfl
    · cases parent : record.parent with
      | none => rfl
      | some outer =>
        have lower := sound.parent_index_lt found parent
        exact ih (sound.parent_valid found parent) (by omega)

theorem resolve_error (sound : arena.Sound) (valid : arena.Valid h) {e : Error}
    (failed : arena.resolve h name = .error e) : e = .undefined name := by
  rw [resolve_eq_find? sound valid] at failed
  cases found : (arena.chain h).find? fun link => link.2.bindings.contains name with
  | none =>
    rw [found] at failed
    cases failed
    rfl
  | some link =>
    rw [found] at failed
    cases failed

/-! ## Reachable arenas -/

theorem Sound.chained (sound : arena.Sound) (sorted : arena.Sorted) : arena.Chained := by
  constructor
  case serials =>
    intro i j lower upper hi hj lt
    have order := sorted.index_lt_iff (valid_of_get? (get?_of_slot? hj))
      (valid_of_get? (get?_of_slot? hi))
    exact order.mp lt
  case parents =>
    intro i record h held outwards
    have found := get?_of_slot? held
    obtain ⟨outer, known⟩ := Option.isSome_iff_exists.mp (sound.parent_valid found outwards)
    exact ⟨sound.parent_index_lt found outwards, outer, get?_eq_some_iff.mp known⟩

theorem Sound.leadsOut (sound : arena.Sound) (valid : arena.Valid h) : arena.LeadsOut h := by
  obtain ⟨record, found⟩ := Option.isSome_iff_exists.mp valid
  constructor
  case walk =>
    intro name
    exact ⟨walk_eq_resolve sound valid (Nat.lt_succ_self _) name,
      resolve_ne_invalidScope sound valid⟩
  case parent =>
    refine ⟨record.parent, ?_, fun k outwards => sound.parent_valid found outwards⟩
    rw [Arena.parent, record_eq_ok.mpr found]
    rfl
  case lookup =>
    intro name e failed
    unfold lookup at failed
    split at failed
    · cases failed
      exact resolve_error sound valid ‹_›
    · split at failed
      · cases failed
      · cases failed
        rfl
  case update =>
    intro name value e failed
    unfold update at failed
    split at failed
    · cases failed
      exact .inl (resolve_error sound valid ‹_›)
    · split at failed
      · cases failed
        exact .inl rfl
      · split at failed
        · cases failed
          exact .inr rfl
        · cases failed
  case delete =>
    intro name
    unfold delete
    split
    · exact ⟨_, rfl⟩
    · rename_i e other failed
      exact absurd (resolve_error sound valid failed) (other name)
    · exact ⟨_, rfl⟩

end Slots

/-- In every arena that operations lead to, serial numbers grow from slot to slot and parents
stand in lower slots. The walk from any known scope takes one step for each slot at most and
never meets an unknown one, and nothing asked of that scope is refused for its handle. -/
theorem chained_of_history {count : Nat} {events : List Event} {store : Store}
    (history : History count events store) (number : Fin count) :
    (store.arena number).Chained ∧
      ∀ h, (store.arena number).Valid h → (store.arena number).LeadsOut h := by
  have consistent := history.consistent
  have sound := consistent.sound number
  exact ⟨sound.chained (consistent.sorted number), fun h valid => sound.leadsOut valid⟩

/-- A scope inside the older one of two roots, in the slot of a scope of the younger one that
was released, next to another arena. -/
private def branched : Store :=
  ((((((Store.empty 2).run 0 .pushRoot).2.run 1 .pushRoot).2.run 0 .pushRoot).2.run 0
    (.push ⟨1, 2⟩)).2.run 0 (.release ⟨2, 3⟩)).2.run 0 (.push ⟨0, 0⟩) |>.2

theorem chained_of_history_branched :
    (∃ events, History 2 events branched) ∧ (branched.arena 0).Chained ∧
      (branched.arena 0).walk "x" 3 ⟨2, 4⟩ = some (.error (.undefined "x")) ∧
      (branched.arena 0).walk "x" 1 ⟨2, 4⟩ = none := by
  have history : History 2 _ branched :=
    .step (.step (.step (.step (.step (.step .start 0 .pushRoot) 1 .pushRoot) 0 .pushRoot) 0
      (.push ⟨1, 2⟩)) 0 (.release ⟨2, 3⟩)) 0 (.push ⟨0, 0⟩)
  obtain ⟨chained, leads⟩ := chained_of_history history 0
  have valid : (branched.arena 0).Valid ⟨2, 4⟩ := by decide
  exact ⟨⟨_, history⟩, chained, ((leads _ valid).walk "x").1, rfl⟩

end Arena

end KindScript
