import KindScript.Proofs.Scopes.Arena

/-!
# What a scope itself binds

Defining a name and updating one each change what one name means in one scope, and
nothing else in the arena. A name is defined where it was unbound, and updated where it
was a variable.
-/

namespace KindScript

open Scope

namespace Arena

variable {arena after older rest : Arena} {record : Record} {h k owner : Handle} {name : String}

/-- One slot has one known handle. -/
theorem Valid.eq_of_index (hh : arena.Valid h) (hk : arena.Valid k) (slot : h.index = k.index) :
    h = k := by
  induction arena with
  | nil => cases hh
  | cons newest older ih =>
    rcases valid_cons_iff.mp hh with rfl | hh <;> rcases valid_cons_iff.mp hk with rfl | hk
    · rfl
    · exact absurd slot (Nat.ne_of_gt hk.index_lt)
    · exact absurd slot (Nat.ne_of_lt hh.index_lt)
    · exact ih hh hk

theorem get?_eq_none_of_shape (same : arena.shape = after.shape) (missing : arena.get? h = none) :
    after.get? h = none := by
  rw [← Option.not_isSome_iff_eq_none] at missing ⊢
  exact mt (valid_iff_of_shape same).mpr missing

theorem get?_setBindings (arena : Arena) (index : Nat) (bindings : Bindings) (h : Handle) :
    (arena.setBindings index bindings).get? h =
      (arena.get? h).map fun record =>
        if h.index = index then { record with bindings } else record := by
  induction arena with
  | nil => rfl
  | cons newest older ih =>
    have length : (setBindings older index bindings).length = older.length :=
      length_eq_of_shape (shape_setBindings older index bindings)
    rw [setBindings]
    by_cases slot : index = older.length
    · rw [if_pos slot, get?, get?]
      split
      · rename_i top
        split
        · rw [Option.map_some, if_pos (top.trans slot.symm)]
        · rfl
      · rename_i lower
        cases found : get? older h with
        | none => rfl
        | some record =>
          rw [Option.map_some, if_neg fun same => lower (same.trans slot)]
    · rw [if_neg slot, get?, get?, length]
      split
      · rename_i top
        split
        · rw [Option.map_some, if_neg (fun same => slot (same.symm.trans top))]
        · rfl
      · exact ih

theorem get?_of_resolve (resolved : arena.resolve h name = .ok (owner, record)) :
    arena.get? owner = some record := by
  induction arena generalizing h with
  | nil => cases resolved
  | cons newest older ih =>
    have grow {owner : Handle} (found : get? older owner = some record) :
        get? (newest :: older) owner = some record :=
      (get?_older owner newest (index_lt_of_get? found)).trans found
    rw [resolve] at resolved
    split at resolved
    · rename_i top
      split at resolved
      · rename_i fits
        split at resolved
        · cases resolved
          rw [get?, if_pos top, if_pos fits]
        · split at resolved
          · cases resolved
          · exact grow (ih resolved)
      · cases resolved
    · exact grow (ih resolved)

/-- A name is resolved to a scope that has it. -/
theorem contains_of_resolve (resolved : arena.resolve h name = .ok (owner, record)) :
    record.bindings.contains name = true := by
  induction arena generalizing h with
  | nil => cases resolved
  | cons newest older ih =>
    rw [resolve] at resolved
    split at resolved
    · split at resolved
      · split at resolved
        · rename_i has
          cases resolved
          exact has
        · split at resolved
          · cases resolved
          · exact ih resolved
      · cases resolved
    · exact ih resolved

/-! ## Names -/

/-- What the scope itself, without those around it, binds the name to. -/
def binding? (arena : Arena) (h : Handle) (name : String) : Option Variable :=
  (arena.get? h).bind fun record => record.bindings.get? name

theorem binding?_of_get? (found : arena.get? h = some record) (name : String) :
    arena.binding? h name = record.bindings.get? name := by
  rw [binding?, found, Option.bind_some]

theorem binding?_older (h : Handle) (record : Record) (lt : h.index < older.length)
    (name : String) : binding? (record :: older) h name = binding? older h name := by
  rw [binding?, binding?, get?_older h record lt]

/-- Other bindings in a slot are other bindings of the scope in it. -/
theorem binding?_setBindings (found : arena.get? owner = some record) (bindings : Bindings)
    (k : Handle) (key : String) :
    (arena.setBindings owner.index bindings).binding? k key =
      if k = owner then bindings.get? key else arena.binding? k key := by
  rw [binding?, binding?, get?_setBindings]
  by_cases same : k = owner
  · rw [if_pos same, same, found, Option.map_some, if_pos rfl, Option.bind_some]
  · rw [if_neg same]
    cases other : arena.get? k with
    | none => rfl
    | some record' =>
      have valid {h : Handle} {record : Record} (found : arena.get? h = some record) :
          arena.Valid h := Option.isSome_iff_exists.mpr ⟨record, found⟩
      rw [Option.map_some, if_neg fun slot => same ((valid other).eq_of_index (valid found) slot)]

/-- A definition binds a name that the scope itself did not bind. -/
theorem binding?_of_define {v : Variable} (done : arena.define h name v = .ok after) :
    arena.binding? h name = none ∧
      ∀ k key, after.binding? k key =
        if k = h ∧ key = name then some v else arena.binding? k key := by
  unfold define at done
  split at done
  · cases done
  rename_i record found
  split at done
  · cases done
  rename_i fresh
  cases done
  have unbound : record.bindings.get? name = none :=
    (Bindings.contains_eq_false_iff _ _).mp (Bool.eq_false_iff.mpr fresh)
  refine ⟨(binding?_of_get? found name).trans unbound, fun k key => ?_⟩
  rw [binding?_setBindings found, Bindings.get?_add]
  by_cases here : k = h
  · subst here
    rw [if_pos rfl, binding?_of_get? found]
    by_cases same : key = name
    · rw [if_pos same, if_pos ⟨rfl, same⟩, same, unbound, Option.none_or]
    · rw [if_neg same, if_neg fun both => same both.2, Option.or_none]
  · rw [if_neg here, if_neg fun both => here both.1]

/-- An update gives another value to a variable of one scope. -/
theorem binding?_of_update {value : Value} (done : arena.update h name value = .ok after) :
    ∃ owner old, arena.binding? owner name = some ⟨old, false⟩ ∧
      ∀ k key, after.binding? k key =
        if k = owner ∧ key = name then some ⟨value, false⟩ else arena.binding? k key := by
  unfold update at done
  split at done
  · cases done
  rename_i owner record resolved
  split at done
  · cases done
  rename_i v named
  split at done
  · cases done
  rename_i flag
  cases done
  have flag : v.constant = false := Bool.eq_false_iff.mpr flag
  have found := get?_of_resolve resolved
  refine ⟨owner, v.value, ?_, fun k key => ?_⟩
  · rw [binding?_of_get? found, named, ← flag]
  rw [binding?_setBindings found, Bindings.get?_set]
  by_cases here : k = owner
  · subst here
    rw [if_pos rfl, binding?_of_get? found]
    by_cases same : key = name
    · simp only [same, named, Option.map_some, if_pos, and_self, flag]
    · simp [same]
  · rw [if_neg here, if_neg fun both => here both.1]

end Arena

end KindScript
