import KindScript.Scope

/-!
# Handles, chains and shapes

Which handles an arena knows depends on its shape alone, that is on the serial
numbers and the parents of its scopes and not on their bindings. From a known handle
a chain of scopes leads outwards. In an arena whose parents are known it ends at a
scope without a parent, and resolving a name takes the first scope of the chain that
has the name.
-/

namespace KindScript

open Scope

/-! ## Bindings -/

namespace Bindings

variable (bindings : Bindings) (name key : String)

theorem contains_iff : bindings.contains name = true ↔ ∃ v, bindings.get? name = some v :=
  Option.isSome_iff_exists

theorem contains_eq_false_iff : bindings.contains name = false ↔ bindings.get? name = none := by
  simp [contains]

theorem get?_cons (v : Variable) :
    get? ((name, v) :: bindings) key = if key = name then some v else bindings.get? key := by
  unfold get?
  by_cases same : key = name
  · rw [if_pos same, same, List.lookup_cons_self]
  · rw [if_neg same, List.lookup_cons, beq_false_of_ne same]

theorem get?_add (v : Variable) :
    (bindings.add name v).get? key =
      (bindings.get? key).or (if key = name then some v else none) := by
  have last := get?_cons [] name key v
  rw [add, get?, List.lookup_append]
  exact congrArg (Option.or _) last

theorem get?_set (value : Value) :
    (bindings.set name value).get? key =
      (bindings.get? key).map fun old => if key = name then { old with value } else old := by
  induction bindings with
  | nil => rfl
  | cons entry more ih =>
    obtain ⟨other, old⟩ := entry
    have head : set ((other, old) :: more) name value =
        (other, if other = name then { old with value } else old) :: set more name value := by
      by_cases named : other = name <;> simp [set, named]
    rw [head, get?_cons, get?_cons]
    by_cases same : key = other
    · rw [if_pos same, if_pos same, same, Option.map_some]
    · rw [if_neg same, if_neg same, ih]

end Bindings

namespace Arena

/-! ## Shapes -/

/-- The serial numbers and parents of the scopes. -/
def shape (arena : Arena) : List (Nat × Option Handle) :=
  arena.map fun record => (record.serial, record.parent)

/-- The parent of every scope is an older scope of the arena. -/
def Sound : Arena → Prop
  | [] => True
  | record :: older => (∀ h, record.parent = some h → Valid older h) ∧ Sound older

variable {arena other older : Arena} {record : Record} {h : Handle}

theorem length_eq_of_shape (same : arena.shape = other.shape) : arena.length = other.length := by
  have h := congrArg List.length same
  simpa [shape] using h

theorem get?_newest (older : Arena) (record : Record) :
    get? (record :: older) ⟨older.length, record.serial⟩ = some record := by
  rw [get?, if_pos rfl, if_pos rfl]

theorem get?_older (h : Handle) (record : Record) (lt : h.index < older.length) :
    get? (record :: older) h = get? older h := by
  rw [get?, if_neg (Nat.ne_of_lt lt)]

theorem index_lt_of_get? (found : arena.get? h = some record) : h.index < arena.length := by
  induction arena with
  | nil => cases found
  | cons newest older ih =>
    rw [get?] at found
    split at found
    · rename_i top
      rw [top, List.length_cons]
      omega
    · have lt := ih found
      rw [List.length_cons]
      omega

theorem Valid.index_lt (valid : arena.Valid h) : h.index < arena.length := by
  obtain ⟨record, found⟩ := Option.isSome_iff_exists.mp valid
  exact index_lt_of_get? found

theorem Valid.grow (valid : Valid older h) (record : Record) : Valid (record :: older) h := by
  rw [Valid, get?_older h record valid.index_lt]
  exact valid

theorem valid_cons_iff :
    Valid (record :: older) h ↔ h = ⟨older.length, record.serial⟩ ∨ Valid older h := by
  constructor
  · intro valid
    rw [Valid, get?] at valid
    split at valid
    · rename_i top
      split at valid
      · rename_i fits
        exact .inl (by rw [← top, fits])
      · cases valid
    · exact .inr valid
  · rintro (rfl | valid)
    · rw [Valid, get?_newest]
      rfl
    · exact valid.grow record

theorem valid_iff_of_shape (same : arena.shape = other.shape) : arena.Valid h ↔ other.Valid h := by
  induction arena generalizing other with
  | nil =>
    cases other with
    | nil => rfl
    | cons => cases same
  | cons record older ih =>
    cases other with
    | nil => cases same
    | cons record' older' =>
      obtain ⟨top, rest⟩ := List.cons_eq_cons.mp same
      have serial : record.serial = record'.serial := congrArg Prod.fst top
      rw [valid_cons_iff, valid_cons_iff, ih rest, length_eq_of_shape rest, serial]

theorem sound_iff_of_shape (same : arena.shape = other.shape) : arena.Sound ↔ other.Sound := by
  induction arena generalizing other with
  | nil =>
    cases other with
    | nil => rfl
    | cons => cases same
  | cons record older ih =>
    cases other with
    | nil => cases same
    | cons record' older' =>
      obtain ⟨top, rest⟩ := List.cons_eq_cons.mp same
      have parent : record.parent = record'.parent := congrArg Prod.snd top
      simp only [Sound, parent, ih rest, valid_iff_of_shape rest]

/-- The parent of a known scope is known. -/
theorem Sound.parent_valid (sound : arena.Sound) (found : arena.get? h = some record)
    {outer : Handle} (outwards : record.parent = some outer) : arena.Valid outer := by
  induction arena with
  | nil => cases found
  | cons newest older ih =>
    rw [get?] at found
    split at found
    · split at found
      · cases found
        exact (sound.1 outer outwards).grow record
      · cases found
    · exact (ih sound.2 found).grow newest

theorem Sound.drop (sound : arena.Sound) (n : Nat) : Sound (arena.drop n) := by
  induction n generalizing arena with
  | zero => exact sound
  | succ n ih =>
    cases arena with
    | nil => exact sound
    | cons record older => exact ih sound.2

theorem shape_setBindings (arena : Arena) (index : Nat) (bindings : Bindings) :
    (arena.setBindings index bindings).shape = arena.shape := by
  induction arena with
  | nil => rfl
  | cons record older ih =>
    rw [setBindings]
    split
    · rfl
    · exact congrArg (_ :: ·) ih

/-! ## Chains -/

/-- The scopes from a handle outwards, each with its own handle. -/
def chain : Arena → Handle → List (Handle × Record)
  | [], _ => []
  | record :: older, h =>
    if h.index = older.length then
      if record.serial = h.serial then (h, record) :: record.parent.elim [] (chain older) else []
    else chain older h

theorem chain_newest (older : Arena) (record : Record) :
    chain (record :: older) ⟨older.length, record.serial⟩ =
      (⟨older.length, record.serial⟩, record) :: record.parent.elim [] (chain older) := by
  rw [chain, if_pos rfl, if_pos rfl]

theorem chain_grow (record : Record) (lt : h.index < older.length) :
    chain (record :: older) h = chain older h := by
  rw [chain, if_neg (Nat.ne_of_lt lt)]

theorem chain_of_get? (found : arena.get? h = some record) :
    ∃ outer, arena.chain h = (h, record) :: outer := by
  induction arena with
  | nil => cases found
  | cons newest older ih =>
    rw [get?] at found
    rw [chain]
    split at found
    · rename_i top
      split at found
      · rename_i fits
        cases found
        rw [if_pos top, if_pos fits]
        exact ⟨_, rfl⟩
      · cases found
    · rename_i low
      rw [if_neg low]
      exact ih found

theorem index_lt_of_mem_chain {link : Handle × Record} (inside : link ∈ arena.chain h) :
    link.1.index < arena.length := by
  induction arena generalizing h with
  | nil => cases inside
  | cons newest older ih =>
    rw [chain] at inside
    rw [List.length_cons]
    split at inside
    · rename_i top
      split at inside
      · rcases List.mem_cons.mp inside with rfl | inside
        · exact Nat.lt_succ_of_le (Nat.le_of_eq top)
        · cases outwards : newest.parent with
          | none =>
            rw [outwards] at inside
            cases inside
          | some outer =>
            rw [outwards] at inside
            exact Nat.lt_succ_of_lt (ih inside)
      · cases inside
    · exact Nat.lt_succ_of_lt (ih inside)

/-- A chain leads to ever older slots. -/
theorem chain_pairwise (arena : Arena) (h : Handle) :
    (arena.chain h).Pairwise fun inner outer => outer.1.index < inner.1.index := by
  induction arena generalizing h with
  | nil => exact .nil
  | cons newest older ih =>
    rw [chain]
    split
    · rename_i top
      split
      · cases newest.parent with
        | none => exact List.pairwise_singleton _ _
        | some outer =>
          refine List.pairwise_cons.mpr ⟨?_, ih outer⟩
          intro link inside
          rw [top]
          exact index_lt_of_mem_chain inside
      · exact .nil
    · exact ih h

/-- A link of a chain after the bindings in one slot were replaced. -/
def rebind (index : Nat) (bindings : Bindings) (link : Handle × Record) : Handle × Record :=
  if link.1.index = index then (link.1, { link.2 with bindings }) else link

theorem map_rebind_of_lt {chain : List (Handle × Record)} {index : Nat} (bindings : Bindings)
    (lt : ∀ link ∈ chain, link.1.index < index) : chain.map (rebind index bindings) = chain := by
  conv => rhs; rw [← List.map_id chain]
  refine List.map_congr_left fun link inside => ?_
  exact if_neg (Nat.ne_of_lt (lt link inside))

theorem chain_setBindings (arena : Arena) (index : Nat) (bindings : Bindings) (h : Handle) :
    (arena.setBindings index bindings).chain h =
      (arena.chain h).map (rebind index bindings) := by
  induction arena generalizing h with
  | nil => rfl
  | cons newest older ih =>
    have length : (setBindings older index bindings).length = older.length :=
      length_eq_of_shape (shape_setBindings older index bindings)
    rw [setBindings]
    by_cases slot : index = older.length
    · have unchanged (h : Handle) : (chain older h).map (rebind index bindings) = chain older h :=
        map_rebind_of_lt bindings fun link inside => slot ▸ index_lt_of_mem_chain inside
      have outwards (parent : Option Handle) :
          parent.elim [] (chain older) =
            (parent.elim [] (chain older)).map (rebind index bindings) := by
        cases parent with
        | none => rfl
        | some outer => exact (unchanged outer).symm
      rw [if_pos slot, chain, chain]
      split
      · rename_i top
        split
        · rw [List.map_cons, rebind, if_pos (top.trans slot.symm), ← outwards]
        · rfl
      · exact (unchanged h).symm
    · have outwards (parent : Option Handle) :
          parent.elim [] (chain (setBindings older index bindings)) =
            (parent.elim [] (chain older)).map (rebind index bindings) := by
        cases parent with
        | none => rfl
        | some outer => exact ih outer
      rw [if_neg slot, chain, chain, length]
      split
      · rename_i top
        have other : ¬ h.index = index := fun same => slot (same.symm.trans top)
        split
        · rw [List.map_cons, rebind, if_neg other, outwards]
        · rfl
      · exact ih h

/-! ## Operations on known scopes -/

/-- Resolving a name from a known scope takes the first scope of its chain that has the name. -/
theorem resolve_eq_find? (sound : arena.Sound) (valid : arena.Valid h) (name : String) :
    arena.resolve h name =
      ((arena.chain h).find? fun link => link.2.bindings.contains name).elim
        (.error (.undefined name)) .ok := by
  induction arena generalizing h with
  | nil => cases valid
  | cons newest older ih =>
    rcases valid_cons_iff.mp valid with rfl | valid
    · rw [resolve, if_pos rfl, if_pos rfl, chain_newest, List.find?_cons]
      cases has : newest.bindings.contains name with
      | true => rfl
      | false =>
        cases outwards : newest.parent with
        | none => rfl
        | some outer => exact ih sound.2 (sound.1 outer outwards)
    · rw [resolve, if_neg (Nat.ne_of_lt valid.index_lt), chain_grow newest valid.index_lt]
      exact ih sound.2 valid

theorem resolve_of_not_valid (invalid : ¬ arena.Valid h) (name : String) :
    arena.resolve h name = .error .invalidScope := by
  induction arena with
  | nil => rfl
  | cons newest older ih =>
    rw [valid_cons_iff, not_or] at invalid
    rw [resolve]
    split
    · rename_i top
      rw [if_neg]
      intro fits
      exact invalid.1 (by rw [← top, fits])
    · exact ih invalid.2

theorem record_of_not_valid (invalid : ¬ arena.Valid h) :
    arena.record h = .error .invalidScope := by
  rw [Valid, Option.not_isSome_iff_eq_none] at invalid
  rw [Arena.record, invalid]

/-- Releasing the newest scope drops it alone. -/
theorem release_newest (older : Arena) (record : Record) :
    release (record :: older) ⟨older.length, record.serial⟩ = .ok older := by
  have one : (record :: older).length - older.length = 1 := by
    rw [List.length_cons]
    omega
  rw [release, Arena.record, get?_newest]
  simp only [Except.map, one, List.drop_succ_cons, List.drop_zero]

theorem push_of_valid (valid : arena.Valid h) (serial : Nat) :
    arena.push serial h = .ok (arena.insert serial (some h)) := by
  obtain ⟨record, found⟩ := Option.isSome_iff_exists.mp valid
  rw [push, Arena.record, found]
  rfl

theorem push_of_not_valid (invalid : ¬ arena.Valid h) (serial : Nat) :
    arena.push serial h = .error .invalidScope := by
  rw [push, record_of_not_valid invalid]
  rfl

variable {name : String}

theorem shape_of_define {v : Variable} (done : arena.define h name v = .ok other) :
    other.shape = arena.shape := by
  unfold define at done
  split at done
  · cases done
  split at done
  · cases done
  · cases done
    exact shape_setBindings arena _ _

theorem shape_of_update {value : Value} (done : arena.update h name value = .ok other) :
    other.shape = arena.shape := by
  unfold update at done
  split at done
  · cases done
  split at done
  · cases done
  split at done
  · cases done
  · cases done
    exact shape_setBindings arena _ _

end Arena

end KindScript
