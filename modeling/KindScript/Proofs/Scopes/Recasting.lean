import KindScript.Proofs.Scopes.Arena

/-!
# Arenas under other serial numbers and with other values

An arena looks at serial numbers only to tell whether two are the same, and it never looks
at the values of names. So every operation does the same, up to that, to an arena whose
serial numbers are renamed without two becoming one and whose values are replaced by any
others.
-/

namespace KindScript

open Scope

/-! ## What is replaced -/

namespace Scope

variable (ρ : Nat → Nat) (f : Value → Value)

def Handle.rename (h : Handle) : Handle :=
  { h with serial := ρ h.serial }

theorem Handle.rename_injective {ρ : Nat → Nat} (injective : Function.Injective ρ) :
    Function.Injective (Handle.rename ρ) := by
  rintro ⟨index, serial⟩ ⟨index', serial'⟩ same
  obtain ⟨slot, serials⟩ := Handle.mk.inj same
  obtain rfl : index = index' := slot
  obtain rfl : serial = serial' := injective serials
  rfl

end Scope

def Variable.recast (f : Value → Value) (v : Variable) : Variable :=
  { v with value := f v.value }

namespace Bindings

variable (f : Value → Value)

def recast (bindings : Bindings) : Bindings :=
  bindings.map fun (name, v) => (name, v.recast f)

variable (bindings : Bindings) (name : String)

theorem get?_recast : (bindings.recast f).get? name = (bindings.get? name).map (·.recast f) := by
  induction bindings with
  | nil => rfl
  | cons entry more ih =>
    obtain ⟨key, v⟩ := entry
    show get? ((key, v.recast f) :: recast f more) name = _
    rw [get?_cons, get?_cons, ih]
    by_cases here : name = key
    · rw [if_pos here, if_pos here]
      rfl
    · rw [if_neg here, if_neg here]

theorem contains_recast : (bindings.recast f).contains name = bindings.contains name := by
  rw [contains, contains, get?_recast, Option.isSome_map]

theorem add_recast (v : Variable) :
    (bindings.recast f).add name (v.recast f) = (bindings.add name v).recast f := by
  rw [add, add, recast, recast, List.map_append]
  rfl

theorem set_recast (value : Value) :
    (bindings.recast f).set name (f value) = (bindings.set name value).recast f := by
  rw [set, set, recast, recast, List.map_map, List.map_map]
  refine List.map_congr_left fun entry _ => ?_
  show (if entry.1 = name then _ else _) = Prod.map id _ (if entry.1 = name then _ else _)
  split <;> rfl

theorem erase_recast : (bindings.recast f).erase name = (bindings.erase name).recast f := by
  rw [erase, erase, recast, recast, List.filter_map]
  rfl

end Bindings

/-- The same scope under another serial number and with other values. -/
def Scope.Record.recast (ρ : Nat → Nat) (f : Value → Value) (record : Record) : Record :=
  ⟨ρ record.serial, record.parent.map (Handle.rename ρ), record.bindings.recast f⟩

namespace Arena

/-- The same scopes under other serial numbers and with other values. -/
def recast (ρ : Nat → Nat) (f : Value → Value) (arena : Arena) : Arena :=
  arena.map (Record.recast ρ f)

/-! ## Operations -/

section Transport

variable {ρ : Nat → Nat} {f : Value → Value} (arena : Arena) (h : Handle)

@[simp] theorem length_recast : (arena.recast ρ f).length = arena.length :=
  List.length_map _

theorem setBindings_recast (index : Nat) (bindings : Bindings) :
    (arena.recast ρ f).setBindings index (bindings.recast f) =
      (arena.setBindings index bindings).recast ρ f := by
  induction arena with
  | nil => rfl
  | cons record older ih =>
    show setBindings (record.recast ρ f :: recast ρ f older) index _ = _
    rw [setBindings, setBindings, length_recast]
    by_cases top : index = older.length
    · rw [if_pos top, if_pos top]
      rfl
    · rw [if_neg top, if_neg top, ih]
      rfl

variable (injective : Function.Injective ρ)
include injective

theorem get?_recast :
    (arena.recast ρ f).get? (h.rename ρ) = (arena.get? h).map (Record.recast ρ f) := by
  induction arena with
  | nil => rfl
  | cons record older ih =>
    show get? (record.recast ρ f :: recast ρ f older) (h.rename ρ) = _
    rw [get?, get?, length_recast]
    by_cases top : h.index = older.length
    · have fits : (record.recast ρ f).serial = (h.rename ρ).serial ↔ record.serial = h.serial :=
        injective.eq_iff
      rw [if_pos (show (h.rename ρ).index = older.length from top), if_pos top]
      simp only [fits]
      split <;> rfl
    · rw [if_neg (show ¬ (h.rename ρ).index = older.length from top), if_neg top, ih]

theorem record_recast :
    (arena.recast ρ f).record (h.rename ρ) = (arena.record h).map (Record.recast ρ f) := by
  rw [Arena.record, Arena.record, get?_recast arena h injective]
  cases arena.get? h <;> rfl

theorem resolve_recast (name : String) :
    (arena.recast ρ f).resolve (h.rename ρ) name =
      (arena.resolve h name).map fun owner => (owner.1.rename ρ, owner.2.recast ρ f) := by
  induction arena generalizing h with
  | nil => rfl
  | cons record older ih =>
    show resolve (record.recast ρ f :: recast ρ f older) (h.rename ρ) name = _
    have fits : (record.recast ρ f).serial = (h.rename ρ).serial ↔ record.serial = h.serial :=
      injective.eq_iff
    have has : (record.recast ρ f).bindings.contains name = record.bindings.contains name :=
      record.bindings.contains_recast f name
    rw [resolve, resolve, length_recast]
    by_cases top : h.index = older.length
    · rw [if_pos (show (h.rename ρ).index = older.length from top), if_pos top]
      simp only [fits, has]
      by_cases same : record.serial = h.serial
      · rw [if_pos same, if_pos same]
        by_cases named : record.bindings.contains name = true
        · rw [if_pos named, if_pos named]
          rfl
        · rw [if_neg named, if_neg named]
          have parent : (record.recast ρ f).parent = record.parent.map (Handle.rename ρ) := rfl
          rw [parent]
          cases record.parent with
          | none => rfl
          | some outer => exact ih outer
      · rw [if_neg same, if_neg same]
        rfl
    · rw [if_neg (show ¬ (h.rename ρ).index = older.length from top), if_neg top, ih]

theorem push_recast {serial serial' : Nat}
    (fits : ∀ made, arena.push serial h = .ok made → ρ serial = serial') :
    (arena.recast ρ f).push serial' (h.rename ρ) =
      (arena.push serial h).map fun made => (made.1.rename ρ, made.2.recast ρ f) := by
  rw [push] at fits
  rw [push, push, record_recast arena h injective]
  cases known : arena.record h with
  | error e => rfl
  | ok record =>
    rw [known] at fits
    rw [← fits _ rfl]
    show Except.ok (Handle.mk (arena.recast ρ f).length (ρ serial), _) = _
    rw [length_recast]
    rfl

theorem release_recast :
    (arena.recast ρ f).release (h.rename ρ) = (arena.release h).map (recast ρ f) := by
  rw [release, release, record_recast arena h injective, length_recast]
  cases arena.record h with
  | error e => rfl
  | ok record =>
    show Except.ok (List.drop _ (List.map _ arena)) = .ok (List.map _ (List.drop _ arena))
    rw [List.map_drop]
    rfl

theorem parent_recast :
    (arena.recast ρ f).parent (h.rename ρ) =
      (arena.parent h).map (Option.map (Handle.rename ρ)) := by
  rw [parent, parent, record_recast arena h injective]
  cases arena.record h <;> rfl

theorem contains_recast (name : String) :
    (arena.recast ρ f).contains (h.rename ρ) name = arena.contains h name := by
  rw [contains, contains, record_recast arena h injective]
  cases arena.record h with
  | error e => rfl
  | ok record => exact congrArg Except.ok (record.bindings.contains_recast f name)

theorem define_recast (name : String) (v : Variable) :
    (arena.recast ρ f).define (h.rename ρ) name (v.recast f) =
      (arena.define h name v).map (recast ρ f) := by
  rw [define, define, get?_recast arena h injective]
  cases arena.get? h with
  | none => rfl
  | some record =>
    show (if (record.bindings.recast f).contains name = true then _ else _) = _
    rw [record.bindings.contains_recast]
    by_cases taken : record.bindings.contains name = true
    · simp only [if_pos taken]
      rfl
    · simp only [if_neg taken]
      show Except.ok ((arena.recast ρ f).setBindings _ ((record.bindings.recast f).add name _)) = _
      rw [record.bindings.add_recast, setBindings_recast]
      rfl

theorem lookup_recast (name : String) :
    (arena.recast ρ f).lookup (h.rename ρ) name = (arena.lookup h name).map (·.recast f) := by
  rw [lookup, lookup, resolve_recast arena h injective]
  rcases arena.resolve h name with e | ⟨owner, record⟩
  · rfl
  have found : (record.recast ρ f).bindings.get? name =
      (record.bindings.get? name).map (·.recast f) := record.bindings.get?_recast f name
  simp only [Except.map, found]
  cases record.bindings.get? name <;> rfl

theorem update_recast (name : String) (value : Value) :
    (arena.recast ρ f).update (h.rename ρ) name (f value) =
      (arena.update h name value).map (recast ρ f) := by
  rw [update, update, resolve_recast arena h injective]
  rcases arena.resolve h name with e | ⟨owner, record⟩
  · rfl
  have found : (record.recast ρ f).bindings.get? name =
      (record.bindings.get? name).map (·.recast f) := record.bindings.get?_recast f name
  simp only [Except.map, found]
  cases record.bindings.get? name with
  | none => rfl
  | some v =>
    show (if v.constant = true then _ else _) = Except.map _ (if v.constant = true then _ else _)
    by_cases constant : v.constant = true
    · rw [if_pos constant, if_pos constant]
      rfl
    · rw [if_neg constant, if_neg constant]
      show Except.ok ((arena.recast ρ f).setBindings _ ((record.bindings.recast f).set name _)) = _
      rw [record.bindings.set_recast]
      exact congrArg Except.ok (setBindings_recast arena _ _)

theorem delete_recast (name : String) :
    (arena.recast ρ f).delete (h.rename ρ) name =
      (arena.delete h name).map fun left => (left.1, left.2.recast ρ f) := by
  rw [delete, delete, resolve_recast arena h injective]
  rcases arena.resolve h name with e | ⟨owner, record⟩
  · cases e <;> rfl
  · show Except.ok (true, (arena.recast ρ f).setBindings _ ((record.bindings.recast f).erase _)) = _
    rw [record.bindings.erase_recast]
    exact congrArg (fun left => Except.ok (true, left)) (setBindings_recast arena _ _)

end Transport

end Arena

end KindScript
