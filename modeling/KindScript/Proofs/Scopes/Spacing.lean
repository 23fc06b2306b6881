import KindScript.Proofs.Scopes.Bindings
import KindScript.Session

/-!
# An empty scope among others

An empty scope can be put between a scope and those inside it. The scopes above it get
other slots and serial numbers, and what had the outer scope for its parent has the empty
one. Names mean what they meant before, and what is changed by way of a name is the same.
-/

namespace KindScript

open Scope

namespace Scope

/-- An empty scope that is put in a slot. Its parent is older. -/
structure Spacer where
  slot : Nat
  serial : Nat
  outer : Handle
  older : outer.index < slot

namespace Spacer

variable (spacer : Spacer) {h : Handle}

def handle : Handle :=
  ⟨spacer.slot, spacer.serial⟩

def record : Record :=
  ⟨spacer.serial, some spacer.outer, []⟩

/-- The handle of a scope after the empty one was put among the others. -/
def moved (h : Handle) : Handle :=
  if h.index < spacer.slot then h else ⟨h.index + 1, h.serial + 1⟩

/-- The scope where a name is looked up: the empty one where it was its parent. -/
def inside (h : Handle) : Handle :=
  if h = spacer.outer then spacer.handle else spacer.moved h

/-- A scope above the empty one. -/
def lift (record : Record) : Record :=
  ⟨record.serial + 1, record.parent.map spacer.inside, record.bindings⟩

/-- A scope with its handle, as they are after the empty one was put among the others. -/
def link (found : Handle × Record) : Handle × Record :=
  (spacer.moved found.1,
    if found.1.index < spacer.slot then found.2 else spacer.lift found.2)

variable {spacer}

theorem moved_of_le (above : spacer.slot ≤ h.index) :
    spacer.moved h = ⟨h.index + 1, h.serial + 1⟩ :=
  if_neg (Nat.not_lt.mpr above)

theorem inside_of_le (above : spacer.slot ≤ h.index) :
    spacer.inside h = ⟨h.index + 1, h.serial + 1⟩ := by
  have other : h ≠ spacer.outer := by
    rintro rfl
    exact Nat.not_lt.mpr above spacer.older
  rw [inside, if_neg other, moved_of_le above]

theorem index_inside_le (low : h.index < spacer.slot) :
    (spacer.inside h).index ≤ spacer.slot := by
  rw [inside]
  split
  · exact Nat.le_refl _
  · rw [moved, if_pos low]
    exact Nat.le_of_lt low

theorem bindings_link (found : Handle × Record) :
    (spacer.link found).2.bindings = found.2.bindings := by
  rw [link]
  split <;> rfl

theorem link_of_lt {found : Handle × Record} (low : found.1.index < spacer.slot) :
    spacer.link found = found := by
  rw [link, moved, if_pos low, if_pos low]

end Spacer

end Scope

namespace Arena

/-- The scopes with the empty one in its slot. -/
def spaced (spacer : Spacer) : Arena → Arena
  | [] => [spacer.record]
  | record :: older =>
    if older.length < spacer.slot then spacer.record :: record :: older
    else spacer.lift record :: spaced spacer older

variable {spacer : Spacer} {arena older : Arena} {h : Handle} {name : String}

theorem length_spaced (spacer : Spacer) (arena : Arena) :
    (arena.spaced spacer).length = arena.length + 1 := by
  induction arena with
  | nil => rfl
  | cons record older ih =>
    rw [spaced]
    split
    · rfl
    · rw [List.length_cons, ih, List.length_cons]

theorem spaced_of_length (full : arena.length = spacer.slot) :
    arena.spaced spacer = spacer.record :: arena := by
  cases arena with
  | nil => rfl
  | cons record older =>
    rw [List.length_cons] at full
    rw [spaced, if_pos (by omega)]

theorem spaced_cons (fits : spacer.slot ≤ older.length) (record : Record) :
    spaced spacer (record :: older) = spacer.lift record :: older.spaced spacer := by
  rw [spaced, if_neg (Nat.not_lt.mpr fits)]

/-- The empty scope is put on top of all others, or below some of them. -/
theorem spaced_induction {motive : (arena : Arena) → spacer.slot ≤ arena.length → Prop}
    (top : ∀ (arena : Arena) (full : arena.length = spacer.slot),
      motive arena (Nat.le_of_eq full.symm))
    (below : ∀ (record : Record) (older : Arena) (fits : spacer.slot ≤ older.length),
      motive older fits → motive (record :: older) (Nat.le_succ_of_le fits))
    (arena : Arena) (fits : spacer.slot ≤ arena.length) : motive arena fits := by
  induction arena with
  | nil => exact top [] (Nat.le_antisymm (Nat.zero_le _) fits)
  | cons record older ih =>
    by_cases full : (record :: older).length = spacer.slot
    · exact top _ full
    · have fits : spacer.slot ≤ older.length := by
        rw [List.length_cons] at fits full
        omega
      exact below record older fits (ih fits)

/-! ## Handles -/

theorem not_valid_of_length_le (high : arena.length ≤ h.index) : ¬ arena.Valid h :=
  fun valid => Nat.not_lt.mpr high valid.index_lt

theorem get?_of_length_le (high : arena.length ≤ h.index) : arena.get? h = none :=
  Option.not_isSome_iff_eq_none.mp (not_valid_of_length_le high)

theorem get?_spaced (fits : spacer.slot ≤ arena.length) (h : Handle) :
    (arena.spaced spacer).get? (spacer.moved h) =
      (arena.get? h).map fun record =>
        if h.index < spacer.slot then record else spacer.lift record := by
  induction arena, fits using spaced_induction with
  | top arena full =>
    rw [spaced_of_length full]
    by_cases low : h.index < spacer.slot
    · rw [Spacer.moved, if_pos low, get?_older h _ (full ▸ low)]
      simp only [if_pos low, Option.map_id']
    · have high : arena.length ≤ h.index := full ▸ Nat.not_lt.mp low
      rw [Spacer.moved, if_neg low, get?, if_neg (by simp only; omega),
        get?_of_length_le high, get?_of_length_le (by simp only; omega)]
      rfl
  | below record older fits ih =>
    rw [spaced_cons fits, get?, get?, length_spaced]
    by_cases low : h.index < spacer.slot
    · rw [if_neg (by rw [Spacer.moved, if_pos low]; omega), if_neg (by omega), ih]
    · have above := Nat.not_lt.mp low
      rw [ih, Spacer.moved_of_le above]
      simp only [Nat.add_right_cancel_iff, Spacer.lift, if_neg low]
      split
      · split <;> rfl
      · rfl

theorem get?_spaced_handle (fits : spacer.slot ≤ arena.length) :
    (arena.spaced spacer).get? spacer.handle = some spacer.record := by
  induction arena, fits using spaced_induction with
  | top arena full =>
    rw [spaced_of_length full, Spacer.handle, ← full]
    exact get?_newest arena spacer.record
  | below record older fits ih =>
    have lower : spacer.handle.index ≠ older.length + 1 := Nat.ne_of_lt (Nat.lt_succ_of_le fits)
    rw [spaced_cons fits, get?, length_spaced, if_neg lower, ih]

theorem valid_spaced (fits : spacer.slot ≤ arena.length) (known : arena.Valid spacer.outer)
    (h : Handle) : (arena.spaced spacer).Valid (spacer.inside h) ↔ arena.Valid h := by
  rw [Spacer.inside]
  split
  · rename_i same
    rw [same, Valid, get?_spaced_handle fits]
    exact iff_of_true rfl known
  · rw [Valid, get?_spaced fits, Option.isSome_map, Valid]

/-! ## Names -/

theorem resolve_spaced (fits : spacer.slot ≤ arena.length) (h : Handle) (name : String) :
    (arena.spaced spacer).resolve (spacer.inside h) name =
      (arena.resolve h name).map spacer.link := by
  induction arena, fits using spaced_induction generalizing h with
  | top arena full =>
    -- All scopes that there are stand below the empty one and are found as they are.
    have unmoved (k : Handle) :
        (arena.resolve k name).map spacer.link = arena.resolve k name := by
      cases found : arena.resolve k name with
      | error e => rfl
      | ok owner =>
        have low := index_lt_of_get? (get?_of_resolve found)
        rw [Except.map, Spacer.link_of_lt (full ▸ low)]
    rw [spaced_of_length full, unmoved]
    by_cases same : h = spacer.outer
    · have newest : spacer.handle.index = arena.length := full.symm
      have fitting : spacer.record.serial = spacer.handle.serial := rfl
      rw [same, Spacer.inside, if_pos rfl, resolve, if_pos newest, if_pos fitting]
      rfl
    rw [Spacer.inside, if_neg same]
    by_cases low : h.index < spacer.slot
    · rw [Spacer.moved, if_pos low, resolve, if_neg (by omega)]
    · have above := Nat.not_lt.mp low
      rw [Spacer.moved_of_le above, resolve, if_neg (by simp only; omega),
        resolve_of_not_valid (not_valid_of_length_le (by simp only; omega)),
        resolve_of_not_valid (not_valid_of_length_le (by omega))]
  | below record older fits ih =>
    rw [spaced_cons fits, resolve, resolve, length_spaced]
    by_cases low : h.index < spacer.slot
    · have lower := Spacer.index_inside_le low
      rw [if_neg (by omega), if_neg (by omega), ih]
    have above := Nat.not_lt.mp low
    by_cases newest : h.index = older.length
    · rw [if_pos newest, if_pos (by rw [Spacer.inside_of_le above, newest])]
      by_cases fitting : record.serial = h.serial
      · rw [if_pos fitting, if_pos (by rw [Spacer.inside_of_le above, ← fitting]; rfl)]
        have names : (spacer.lift record).bindings = record.bindings := rfl
        have outwards : (spacer.lift record).parent = record.parent.map spacer.inside := rfl
        rw [names, outwards]
        split
        · rw [Except.map, Spacer.link, if_neg low, Spacer.inside_of_le above,
            Spacer.moved_of_le above]
        · cases record.parent with
          | none => rfl
          | some outer => exact ih outer
      · have other : ¬ (spacer.lift record).serial = (spacer.inside h).serial := by
          rw [Spacer.inside_of_le above]
          exact fun same => fitting (Nat.succ.inj same)
        rw [if_neg fitting, if_neg other]
        rfl
    · rw [if_neg newest, if_neg (by rw [Spacer.inside_of_le above]; simpa using newest), ih]

theorem valueOf_spaced (fits : spacer.slot ≤ arena.length) (h : Handle) (name : String) :
    (arena.spaced spacer).valueOf (spacer.inside h) name = arena.valueOf h name := by
  rw [valueOf, valueOf, lookup, lookup, resolve_spaced fits]
  rcases arena.resolve h name with e | owner
  · rfl
  · simp only [Except.map, Spacer.bindings_link]

theorem setBindings_spaced (fits : spacer.slot ≤ arena.length) (lt : h.index < arena.length)
    (bindings : Bindings) :
    (arena.spaced spacer).setBindings (spacer.moved h).index bindings =
      (arena.setBindings h.index bindings).spaced spacer := by
  have length (arena : Arena) : (arena.setBindings h.index bindings).length = arena.length :=
    length_eq_of_shape (shape_setBindings arena h.index bindings)
  induction arena, fits using spaced_induction with
  | top arena full =>
    have low : h.index < spacer.slot := full ▸ lt
    rw [spaced_of_length full, spaced_of_length ((length arena).trans full), Spacer.moved,
      if_pos low, setBindings, if_neg (Nat.ne_of_lt lt)]
  | below record older fits ih =>
    rw [spaced_cons fits, setBindings, setBindings, length_spaced]
    by_cases newest : h.index = older.length
    · have above : spacer.slot ≤ h.index := newest ▸ fits
      rw [if_pos newest, spaced_cons fits, if_pos (by rw [Spacer.moved_of_le above, newest])]
      rfl
    · rw [List.length_cons] at lt
      have other : ¬ (spacer.moved h).index = older.length + 1 := by
        rw [Spacer.moved]
        split
        · omega
        · simpa using newest
      rw [if_neg newest, if_neg other, ih (by omega),
        spaced_cons (by rw [length older]; exact fits)]

theorem update_spaced (fits : spacer.slot ≤ arena.length) (h : Handle) (name : String)
    (value : Value) :
    (arena.spaced spacer).update (spacer.inside h) name value =
      (arena.update h name value).map (spaced spacer) := by
  rw [update, update, resolve_spaced fits]
  cases found : arena.resolve h name with
  | error e => rfl
  | ok owner =>
    have lt := index_lt_of_get? (get?_of_resolve found)
    simp only [Except.map, Spacer.bindings_link]
    cases owner.2.bindings.get? name with
    | none => rfl
    | some v =>
      simp only
      split
      · rfl
      · exact congrArg Except.ok (setBindings_spaced fits lt _)

/-- A name is defined in a scope above the empty one. -/
theorem define_spaced (fits : spacer.slot ≤ arena.length) (above : spacer.slot ≤ h.index)
    (name : String) (v : Variable) :
    (arena.spaced spacer).define (spacer.inside h) name v =
      (arena.define h name v).map (spaced spacer) := by
  have same : spacer.inside h = spacer.moved h := by
    rw [Spacer.inside_of_le above, Spacer.moved_of_le above]
  rw [define, define, same, get?_spaced fits]
  cases found : arena.get? h with
  | none => rfl
  | some record =>
    simp only [Option.map_some, if_neg (Nat.not_lt.mpr above), Spacer.lift]
    split
    · rfl
    · exact congrArg Except.ok (setBindings_spaced fits (index_lt_of_get? found) _)

end Arena

end KindScript
