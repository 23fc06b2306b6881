import KindScript.Proofs.Scopes.Operations

/-!
# Which handles work

Whether an arena takes a handle is read off the history of all operations: the arena
has returned the handle, and since then it has released neither the scope of the handle
nor one that it made before that scope. Serial numbers are never given out twice, which
is what tells a new scope from a dropped one in the same slot and the scopes of one
arena from those of another. They are natural numbers here and have no greatest one.
-/

namespace KindScript

open Scope

/-! ## Slots and serial numbers -/

namespace Arena

variable {arena : Arena} {r h : Handle}

/-- A newer scope has a greater serial number. -/
def Sorted (arena : Arena) : Prop :=
  arena.shape.Pairwise fun newer older => older.1 < newer.1

theorem Valid.mem_shape (valid : arena.Valid h) : ∃ parent, (h.serial, parent) ∈ arena.shape := by
  induction arena with
  | nil => cases valid
  | cons record older ih =>
    rcases valid_cons_iff.mp valid with rfl | valid
    · exact ⟨record.parent, List.mem_cons_self⟩
    · obtain ⟨parent, inside⟩ := ih valid
      exact ⟨parent, List.mem_cons_of_mem _ inside⟩

theorem valid_of_mem_shape {serial : Nat} {parent : Option Handle}
    (inside : (serial, parent) ∈ arena.shape) : ∃ h, arena.Valid h ∧ h.serial = serial := by
  induction arena with
  | nil => cases inside
  | cons record older ih =>
    rcases List.mem_cons.mp inside with same | inside
    · cases same
      exact ⟨⟨older.length, record.serial⟩, valid_cons_iff.mpr (.inl rfl), rfl⟩
    · obtain ⟨h, valid, serial⟩ := ih inside
      exact ⟨h, valid.grow record, serial⟩

/-- Among known scopes the order of the slots is that of the serial numbers. -/
theorem Sorted.index_lt_iff (sorted : arena.Sorted) (hr : arena.Valid r) (hh : arena.Valid h) :
    h.index < r.index ↔ h.serial < r.serial := by
  induction arena with
  | nil => cases hr
  | cons record older ih =>
    obtain ⟨newest, sorted⟩ := List.pairwise_cons.mp sorted
    have below {k : Handle} (valid : Valid older k) :
        k.index < older.length ∧ k.serial < record.serial := by
      obtain ⟨parent, inside⟩ := valid.mem_shape
      exact ⟨valid.index_lt, newest _ inside⟩
    rcases valid_cons_iff.mp hr with rfl | hr <;> rcases valid_cons_iff.mp hh with rfl | hh
    · simp
    · simp [below hh]
    · have lower := below hr
      simp only
      omega
    · exact ih sorted hr hh

theorem Sorted.drop (sorted : arena.Sorted) (n : Nat) : Sorted (arena.drop n) := by
  unfold Sorted shape at sorted ⊢
  rw [List.map_drop]
  exact sorted.drop

theorem valid_drop_iff (n : Nat) :
    Valid (arena.drop (arena.length - n)) h ↔ arena.Valid h ∧ h.index < n := by
  induction arena with
  | nil =>
    rw [List.drop_nil]
    constructor
    · intro valid
      cases valid
    · rintro ⟨valid, _⟩
      cases valid
  | cons record older ih =>
    by_cases whole : older.length < n
    · have none : (record :: older).length - n = 0 := by
        rw [List.length_cons]
        omega
      rw [none, List.drop_zero]
      constructor
      · intro valid
        have lt := valid.index_lt
        rw [List.length_cons] at lt
        exact ⟨valid, by omega⟩
      · exact fun kept => kept.1
    · have some : (record :: older).length - n = older.length - n + 1 := by
        rw [List.length_cons]
        omega
      rw [some, List.drop_succ_cons, ih, valid_cons_iff]
      constructor
      · exact fun kept => ⟨.inr kept.1, kept.2⟩
      · rintro ⟨rfl | valid, lt⟩
        · exact absurd lt whole
        · exact ⟨valid, lt⟩

end Arena

namespace Scope

/-! ## Histories -/

/-- An operation that one of many arenas was asked for, with the answer. -/
structure Event where
  number : Nat
  op : Operation
  answer : Except Error Answer

namespace Event

/-- The arena made the scope of the handle. -/
def Makes (e : Event) (number : Nat) (h : Handle) : Prop :=
  e.number = number ∧ e.answer = .ok (.handle h)

/-- The arena returned the handle, for a new scope or for a parent. -/
def Returns (e : Event) (number : Nat) (h : Handle) : Prop :=
  e.number = number ∧ ∃ answer, e.answer = .ok answer ∧ answer.handle? = some h

/-- The arena released the scope of the handle. -/
def Releases (e : Event) (number : Nat) (h : Handle) : Prop :=
  e.number = number ∧ e.op = .release h ∧ ∃ answer, e.answer = .ok answer

end Event

/-- Any operations on some arenas, and the store that they lead to. -/
inductive History (count : Nat) : List Event → Store → Prop where
  | start : History count [] (.empty count)
  | step {events : List Event} {store : Store} (before : History count events store)
    (number : Fin count) (op : Operation) :
    History count (events ++ [⟨number, op, (store.run number op).1⟩]) (store.run number op).2

def Made (events : List Event) (number : Nat) (h : Handle) : Prop :=
  ∃ e ∈ events, e.Makes number h

def Returned (events : List Event) (number : Nat) (h : Handle) : Prop :=
  ∃ e ∈ events, e.Returns number h

/-- The arena made the scope of `r` before that of `h`. -/
def Older (events : List Event) (number : Nat) (r h : Handle) : Prop :=
  ∃ before e after, events = before ++ e :: after ∧ e.Makes number h ∧ Made before number r

/-- The arena has returned the handle, and has released neither its scope nor an older one
since then. -/
def Live (events : List Event) (number : Nat) (h : Handle) : Prop :=
  ∃ before e after, events = before ++ e :: after ∧ e.Returns number h ∧
    ∀ later ∈ after, ∀ r, later.Releases number r → r ≠ h ∧ ¬ Older events number r h

section Events

variable {events : List Event} {e : Event} {number : Nat} {r h : Handle}

theorem snoc_eq_split_iff {before after : List Event} {x : Event} :
    events ++ [e] = before ++ x :: after ↔
      (events = before ∧ e = x ∧ after = []) ∨
        ∃ rest, after = rest ++ [e] ∧ events = before ++ x :: rest := by
  constructor
  · intro split
    rcases List.eq_nil_or_concat after with rfl | ⟨rest, last, rfl⟩
    · obtain ⟨same, last⟩ := List.append_inj' split rfl
      exact .inl ⟨same, List.head_eq_of_cons_eq last, rfl⟩
    · rw [List.concat_eq_append, ← List.cons_append, ← List.append_assoc] at split
      obtain ⟨same, last⟩ := List.append_inj' split rfl
      cases last
      exact .inr ⟨rest, List.concat_eq_append, same⟩
  · rintro (⟨rfl, rfl, rfl⟩ | ⟨rest, rfl, rfl⟩)
    · rfl
    · rw [List.append_assoc, List.cons_append]

theorem made_snoc_iff :
    Made (events ++ [e]) number h ↔ Made events number h ∨ e.Makes number h := by
  simp [Made, or_and_right, exists_or]

theorem returned_snoc_iff :
    Returned (events ++ [e]) number h ↔ Returned events number h ∨ e.Returns number h := by
  simp [Returned, or_and_right, exists_or]

theorem older_snoc_iff :
    Older (events ++ [e]) number r h ↔
      Older events number r h ∨ e.Makes number h ∧ Made events number r := by
  constructor
  · rintro ⟨before, x, after, split, makes, made⟩
    rcases snoc_eq_split_iff.mp split with ⟨rfl, rfl, rfl⟩ | ⟨rest, rfl, same⟩
    · exact .inr ⟨makes, made⟩
    · exact .inl ⟨before, x, rest, same, makes, made⟩
  · rintro (⟨before, x, rest, rfl, makes, made⟩ | ⟨makes, made⟩)
    · exact ⟨before, x, rest ++ [e], by simp, makes, made⟩
    · exact ⟨events, e, [], rfl, makes, made⟩

theorem Older.made (older : Older events number r h) : Made events number r := by
  obtain ⟨before, x, after, rfl, _, e, inside, makes⟩ := older
  exact ⟨e, List.mem_append_left _ inside, makes⟩

/-- A handle that was live stays so until its scope or an older one is released. -/
theorem live_snoc_iff (once : Returned events number h → ¬ e.Makes number h) :
    Live (events ++ [e]) number h ↔
      e.Returns number h ∨
        Live events number h ∧ ∀ r, e.Releases number r → r ≠ h ∧ ¬ Older events number r h := by
  -- The scope is not made again, so the new event puts none before it.
  have same {before rest : List Event} {x : Event} (split : events = before ++ x :: rest)
      (returns : x.Returns number h) (r : Handle) :
      Older (events ++ [e]) number r h ↔ Older events number r h := by
    have returned : Returned events number h := ⟨x, by rw [split]; simp, returns⟩
    rw [older_snoc_iff]
    exact or_iff_left fun makes => once returned makes.1
  constructor
  · rintro ⟨before, x, after, split, returns, since⟩
    rcases snoc_eq_split_iff.mp split with ⟨rfl, rfl, rfl⟩ | ⟨rest, rfl, shorter⟩
    · exact .inl returns
    · refine .inr ⟨⟨before, x, rest, shorter, returns, fun later inside r releases => ?_⟩, ?_⟩
      · rw [← same shorter returns]
        exact since later (List.mem_append_left _ inside) r releases
      · intro r releases
        rw [← same shorter returns]
        exact since e (List.mem_append_right _ List.mem_cons_self) r releases
  · rintro (returns | ⟨⟨before, x, rest, split, returns, since⟩, last⟩)
    · refine ⟨events, e, [], rfl, returns, fun later inside => ?_⟩
      cases inside
    · refine ⟨before, x, rest ++ [e], by rw [split]; simp, returns, fun later inside r => ?_⟩
      rw [same split returns]
      rcases List.mem_append.mp inside with inside | inside
      · exact since later inside r
      · rw [List.mem_singleton.mp inside]
        exact last r

end Events

/-! ## Serial numbers and the order of scopes -/

/-- Serial numbers are below the next one, tell scopes apart, and grow in the order in which
scopes are made. -/
structure Numbered (events : List Event) (next : Nat) : Prop where
  fresh {number : Nat} {h : Handle} (made : Made events number h) : h.serial < next
  unique {number other : Nat} {h k : Handle} (hh : Made events number h)
    (hk : Made events other k) (same : h.serial = k.serial) : number = other ∧ h = k
  older {number : Nat} {r h : Handle} (hr : Made events number r) (hh : Made events number h) :
    Older events number r h ↔ r.serial < h.serial

theorem Numbered.start (next : Nat) : Numbered [] next := by
  constructor <;> simp [Made]

section Numbered

variable {events : List Event} {next : Nat} {e : Event}

theorem Numbered.quiet (before : Numbered events next)
    (makes : ∀ number h, ¬ e.Makes number h) : Numbered (events ++ [e]) next := by
  have made_iff {number : Nat} {h : Handle} :
      Made (events ++ [e]) number h ↔ Made events number h := by
    rw [made_snoc_iff, or_iff_left (makes number h)]
  constructor
  case fresh => exact fun made => before.fresh (made_iff.mp made)
  case unique => exact fun hh hk => before.unique (made_iff.mp hh) (made_iff.mp hk)
  case older =>
    intro number r h hr hh
    rw [older_snoc_iff, or_iff_left fun making => makes number h making.1]
    exact before.older (made_iff.mp hr) (made_iff.mp hh)

theorem Numbered.make (before : Numbered events next) {number : Nat} {new : Handle}
    (serial : new.serial = next)
    (makes_iff : ∀ other h, e.Makes other h ↔ number = other ∧ new = h) :
    Numbered (events ++ [e]) (next + 1) := by
  have made_iff {other : Nat} {h : Handle} :
      Made (events ++ [e]) other h ↔ Made events other h ∨ number = other ∧ new = h := by
    rw [made_snoc_iff, makes_iff]
  have lt_new {other : Nat} {h : Handle} (old : Made events other h) : h.serial < new.serial := by
    rw [serial]
    exact before.fresh old
  have not_old {other : Nat} : ¬ Made events other new := fun old => Nat.lt_irrefl _ (lt_new old)
  constructor
  case fresh =>
    intro other h made
    rcases made_iff.mp made with old | ⟨_, rfl⟩
    · exact Nat.lt_succ_of_lt (before.fresh old)
    · omega
  case unique =>
    intro one other h k hh hk same
    rcases made_iff.mp hh with hh | ⟨rfl, rfl⟩ <;> rcases made_iff.mp hk with hk | ⟨rfl, rfl⟩
    · exact before.unique hh hk same
    · have lt := lt_new hh
      omega
    · have lt := lt_new hk
      omega
    · exact ⟨rfl, rfl⟩
  case older =>
    intro other r h hr hh
    rw [older_snoc_iff, makes_iff]
    rcases made_iff.mp hh with hh | ⟨rfl, rfl⟩
    · have old : ¬ new = h := fun same => not_old (same ▸ hh)
      simp only [old, and_false, false_and, or_false]
      rcases made_iff.mp hr with hr | ⟨_, rfl⟩
      · exact before.older hr hh
      · have lt := lt_new hh
        constructor
        · exact fun older => absurd older.made not_old
        · omega
    · rcases made_iff.mp hr with hr | ⟨_, rfl⟩
      · simp [hr, lt_new hr]
      · have unordered : ¬ Older events number new new := fun older => not_old older.made
        simp [not_old, unordered]

end Numbered

/-! ## What every history keeps -/

/-- The arenas agree with the history that led to them. -/
structure Consistent (count : Nat) (events : List Event) (store : Store) : Prop where
  arenas : store.arenas.length = count
  sorted (number : Nat) : (store.arena number).Sorted
  sound (number : Nat) : (store.arena number).Sound
  numbered : Numbered events store.next
  made {number : Nat} {h : Handle} (valid : (store.arena number).Valid h) : Made events number h
  returned {number : Nat} {h : Handle} (returned : Returned events number h) : Made events number h
  live {number : Nat} {h : Handle} : (store.arena number).Valid h ↔ Live events number h

theorem arena_empty (count number : Nat) : (Store.empty count).arena number = [] := by
  unfold Store.arena Store.empty
  rw [List.getElem?_replicate]
  split <;> rfl

theorem Consistent.start (count : Nat) : Consistent count [] (.empty count) := by
  have empty (number : Nat) : (Store.empty count).arena number = [] := arena_empty count number
  constructor
  case arenas => exact List.length_replicate
  case sorted =>
    intro number
    rw [empty]
    exact .nil
  case sound =>
    intro number
    rw [empty]
    trivial
  case numbered => exact .start 0
  case made =>
    intro number h valid
    rw [empty] at valid
    cases valid
  case returned =>
    rintro number h ⟨e, inside, _⟩
    cases inside
  case live =>
    intro number h
    rw [empty]
    constructor
    · intro valid
      cases valid
    · rintro ⟨before, e, after, split, _⟩
      cases before <;> cases split

section Steps

variable {count : Nat} {events : List Event} {store : Store} {e : Event}

/-- An event that makes and drops no scope and returns known handles only leaves the
arenas in agreement with the history. -/
theorem Consistent.quiet (before : Consistent count events store) {after : Store}
    (arenas : after.arenas.length = count) (next : after.next = store.next)
    (same : ∀ number, (after.arena number).shape = (store.arena number).shape)
    (makes : ∀ number h, ¬ e.Makes number h) (releases : ∀ number r, ¬ e.Releases number r)
    (known : ∀ number h, e.Returns number h → (store.arena number).Valid h) :
    Consistent count (events ++ [e]) after := by
  constructor
  case arenas => exact arenas
  case sorted =>
    intro number
    rw [Arena.Sorted, same]
    exact before.sorted number
  case sound =>
    intro number
    rw [Arena.sound_iff_of_shape (same number)]
    exact before.sound number
  case numbered =>
    rw [next]
    exact before.numbered.quiet makes
  case made =>
    intro number h valid
    rw [Arena.valid_iff_of_shape (same number)] at valid
    exact made_snoc_iff.mpr (.inl (before.made valid))
  case returned =>
    intro number h returned
    rcases returned_snoc_iff.mp returned with returned | returns
    · exact made_snoc_iff.mpr (.inl (before.returned returned))
    · exact made_snoc_iff.mpr (.inl (before.made (known number h returns)))
  case live =>
    intro number h
    rw [Arena.valid_iff_of_shape (same number), live_snoc_iff fun _ => makes number h]
    constructor
    · exact fun valid =>
        .inr ⟨before.live.mp valid, fun r releasing => absurd releasing (releases number r)⟩
    · rintro (returns | ⟨live, _⟩)
      · exact known number h returns
      · exact before.live.mpr live

/-- What holds of the arena that an operation changed and held of all of them before holds
of all of them afterwards. -/
private theorem forall_arena {P : Arena → Prop} {number : Nat} {after : Store}
    (others : ∀ other, other ≠ number → after.arena other = store.arena other)
    (changed : P (after.arena number)) (before : ∀ other, P (store.arena other)) (other : Nat) :
    P (after.arena other) := by
  by_cases here : other = number
  · rw [here]
    exact changed
  · rw [others other here]
    exact before other

/-- A new scope takes a serial number greater than all that were given out. -/
theorem Consistent.make (before : Consistent count events store) {number : Nat} {op : Operation}
    {parent : Option Handle} {after : Store} (makes : op.makesScope = true)
    (known : ∀ h, parent = some h → (store.arena number).Valid h)
    (arenas : after.arenas.length = count) (next : after.next = store.next + 1)
    (grown : after.arena number = ⟨store.next, parent, []⟩ :: store.arena number)
    (others : ∀ other, other ≠ number → after.arena other = store.arena other) :
    Consistent count
      (events ++ [⟨number, op, .ok (.handle ⟨(store.arena number).length, store.next⟩)⟩])
      after := by
  generalize made : Handle.mk (store.arena number).length store.next = new
  have serial : new.serial = store.next := by rw [← made]
  generalize asked : Event.mk number op (.ok (.handle new)) = e
  have makes_iff (other : Nat) (h : Handle) : e.Makes other h ↔ number = other ∧ new = h := by
    simp [← asked, Event.Makes]
  have returns_iff (other : Nat) (h : Handle) : e.Returns other h ↔ number = other ∧ new = h := by
    simp [← asked, Event.Returns, Answer.handle?]
  have releases (other : Nat) (r : Handle) : ¬ e.Releases other r := by
    rw [← asked]
    rintro ⟨_, rfl, _⟩
    cases makes
  have valid_iff {other : Nat} {h : Handle} :
      (after.arena other).Valid h ↔
        number = other ∧ new = h ∨ (store.arena other).Valid h := by
    by_cases here : other = number
    · subst here
      rw [grown, Arena.valid_cons_iff, made]
      simp [eq_comm]
    · rw [others other here]
      simp [Ne.symm here]
  constructor
  case arenas => exact arenas
  case sorted =>
    refine forall_arena others ?_ before.sorted
    rw [grown]
    refine List.pairwise_cons.mpr ⟨fun entry inside => ?_, before.sorted number⟩
    obtain ⟨h, valid, same⟩ := Arena.valid_of_mem_shape inside
    rw [← same]
    exact before.numbered.fresh (before.made valid)
  case sound =>
    refine forall_arena others ?_ before.sound
    rw [grown]
    exact ⟨known, before.sound number⟩
  case numbered =>
    rw [next]
    exact before.numbered.make serial makes_iff
  case made =>
    intro other h valid
    rcases valid_iff.mp valid with new | old
    · exact made_snoc_iff.mpr (.inr ((makes_iff other h).mpr new))
    · exact made_snoc_iff.mpr (.inl (before.made old))
  case returned =>
    intro other h returned
    rcases returned_snoc_iff.mp returned with old | new
    · exact made_snoc_iff.mpr (.inl (before.returned old))
    · exact made_snoc_iff.mpr (.inr ((makes_iff other h).mpr ((returns_iff other h).mp new)))
  case live =>
    intro other h
    have once (returned : Returned events other h) : ¬ e.Makes other h := by
      intro making
      obtain ⟨_, rfl⟩ := (makes_iff other h).mp making
      have lt := before.numbered.fresh (before.returned returned)
      omega
    rw [valid_iff, live_snoc_iff once, returns_iff, before.live]
    exact or_congr_right (iff_self_and.mpr fun _ r releasing => absurd releasing (releases other r))

/-- Releasing a scope drops those that are not older. -/
theorem Consistent.release (before : Consistent count events store) {number : Nat} {r : Handle}
    {after : Store} (valid : (store.arena number).Valid r)
    (arenas : after.arenas.length = count) (next : after.next = store.next)
    (dropped : after.arena number =
      (store.arena number).drop ((store.arena number).length - r.index))
    (others : ∀ other, other ≠ number → after.arena other = store.arena other) :
    Consistent count (events ++ [⟨number, .release r, .ok .done⟩]) after := by
  have makes (other : Nat) (h : Handle) :
      ¬ Event.Makes ⟨number, .release r, .ok .done⟩ other h := by
    simp [Event.Makes]
  have returns (other : Nat) (h : Handle) :
      ¬ Event.Returns ⟨number, .release r, .ok .done⟩ other h := by
    simp [Event.Returns, Answer.handle?]
  have releases_iff {other : Nat} {k : Handle} :
      Event.Releases ⟨number, .release r, .ok .done⟩ other k ↔ number = other ∧ r = k := by
    simp [Event.Releases]
  have valid_iff {other : Nat} {h : Handle} :
      (after.arena other).Valid h ↔
        (store.arena other).Valid h ∧ (number = other → h.serial < r.serial) := by
    by_cases here : other = number
    · subst here
      rw [dropped, Arena.valid_drop_iff]
      refine and_congr_right fun kept => ?_
      rw [(before.sorted other).index_lt_iff valid kept]
      simp
    · rw [others other here]
      simp [Ne.symm here]
  constructor
  case arenas => exact arenas
  case sorted =>
    refine forall_arena others ?_ before.sorted
    rw [dropped]
    exact (before.sorted number).drop _
  case sound =>
    refine forall_arena others ?_ before.sound
    rw [dropped]
    exact (before.sound number).drop _
  case numbered =>
    rw [next]
    exact before.numbered.quiet makes
  case made =>
    intro other h valid
    exact made_snoc_iff.mpr (.inl (before.made (valid_iff.mp valid).1))
  case returned =>
    intro other h returned
    rcases returned_snoc_iff.mp returned with old | new
    · exact made_snoc_iff.mpr (.inl (before.returned old))
    · exact absurd new (returns other h)
  case live =>
    intro other h
    rw [valid_iff, live_snoc_iff fun _ => makes other h, or_iff_right (returns other h),
      ← before.live]
    -- Between known scopes, older means a smaller serial number.
    refine and_congr_right fun kept => ?_
    constructor
    · intro lower k releases
      obtain ⟨rfl, rfl⟩ := releases_iff.mp releases
      have lt := lower rfl
      rw [before.numbered.older (before.made valid) (before.made kept)]
      refine ⟨?_, by omega⟩
      rintro rfl
      exact Nat.lt_irrefl _ lt
    · rintro since rfl
      obtain ⟨other_scope, newer⟩ := since r (releases_iff.mpr ⟨rfl, rfl⟩)
      rw [before.numbered.older (before.made valid) (before.made kept)] at newer
      have distinct : r.serial ≠ h.serial := fun same =>
        other_scope (before.numbered.unique (before.made valid) (before.made kept) same).2
      omega

theorem arena_set {number : Nat} (lt : number < store.arenas.length) (arena : Arena)
    (next other : Nat) :
    Store.arena ⟨store.arenas.set number arena, next⟩ other =
      if other = number then arena else store.arena other := by
  unfold Store.arena
  rw [List.getElem?_set]
  by_cases here : other = number
  · subst here
    rw [if_pos rfl, if_pos lt, if_pos rfl]
    rfl
  · rw [if_neg (Ne.symm here), if_neg here]

/-- One more operation leaves the arenas in agreement with the history. -/
theorem Consistent.step (before : Consistent count events store) (number : Fin count)
    (op : Operation) :
    Consistent count (events ++ [⟨number, op, (store.run number op).1⟩])
      (store.run number op).2 := by
  have lt : (number : Nat) < store.arenas.length := by
    rw [before.arenas]
    exact number.isLt
  unfold Store.run
  cases run : op.run store.next (store.arena number) with
  | error e =>
    refine before.quiet before.arenas rfl (fun _ => rfl) ?_ ?_ ?_
    · simp [Event.Makes]
    · simp [Event.Releases]
    · simp [Event.Returns]
  | ok done =>
    obtain ⟨answer, arena⟩ := done
    have set := arena_set lt arena
    have arenas (next : Nat) :
        (Store.mk (store.arenas.set number arena) next).arenas.length = count := by
      rw [List.length_set, before.arenas]
    have here (next : Nat) : Store.arena ⟨store.arenas.set number arena, next⟩ number = arena := by
      rw [set, if_pos rfl]
    have others (next other : Nat) (away : other ≠ number) :
        Store.arena ⟨store.arenas.set number arena, next⟩ other = store.arena other := by
      rw [set, if_neg away]
    have shapes (next other : Nat) (same : arena.shape = (store.arena number).shape) :
        (Store.arena ⟨store.arenas.set number arena, next⟩ other).shape =
          (store.arena other).shape := by
      by_cases away : other = number
      · rw [away, here, same]
      · rw [others next other away]
    cases Operation.effect_of_run run with
    | made makes known =>
      simp only [makes, if_true]
      exact before.make makes known (arenas _) rfl (here _) (others _)
    | released valid => exact before.release valid (arenas _) rfl (here _) (others _)
    | told found =>
      refine before.quiet (arenas _) rfl (fun _ => shapes _ _ rfl) ?_ ?_ ?_
      · simp [Event.Makes]
      · simp [Event.Releases]
      · rintro other h ⟨rfl, told, same, returned⟩
        cases same
        exact (before.sound number).parent_valid found returned
    | kept makes keeps silent same =>
      simp only [makes, Bool.false_eq_true, if_false]
      refine before.quiet (arenas _) rfl (fun _ => shapes _ _ same) ?_ ?_ ?_
      · rintro other h ⟨rfl, making⟩
        cases making
        cases silent
      · rintro other r ⟨rfl, releasing, _⟩
        cases releasing
        cases keeps
      · rintro other h ⟨rfl, told, answered, returned⟩
        cases answered
        rw [silent] at returned
        cases returned

theorem History.consistent (history : History count events store) :
    Consistent count events store := by
  induction history with
  | start => exact .start count
  | step _ number op ih => exact ih.step number op

/-- After any operations on any arenas, an operation accepts a handle exactly when its
arena has returned the handle and has since released neither that scope nor an older one.
Otherwise it is refused and changes nothing. No handle belongs to two arenas. -/
theorem accepts_iff_live (history : History count events store) (number : Fin count)
    {op : Operation} {h : Handle} (target : op.target? = some h) :
    ((store.run number op).1 ≠ .error .invalidScope ↔ Live events number h) ∧
      (¬ Live events number h → store.run number op = (.error .invalidScope, store)) ∧
      ∀ other, Returned events number h → Returned events other h → other = number := by
  have consistent := history.consistent
  have refused (dead : ¬ Live events number h) :
      store.run number op = (.error .invalidScope, store) := by
    rw [Store.run, Operation.run_of_not_valid target (mt consistent.live.mp dead)]
  refine ⟨⟨fun accepted => ?_, fun live => ?_⟩, refused, fun other here there => ?_⟩
  · exact Classical.byContradiction fun dead => accepted (congrArg Prod.fst (refused dead))
  · have valid := consistent.live.mpr live
    have accepted : op.run store.next (store.arena number) ≠ .error .invalidScope :=
      Operation.run_ne_invalidScope target (consistent.sound number) valid
    rw [Store.run]
    split
    · rename_i e failed
      rw [failed] at accepted
      simpa using accepted
    · simp
  · exact (consistent.numbered.unique (consistent.returned there) (consistent.returned here) rfl).1

/-- Two scopes of one arena in the same slot, the first one released. -/
private def reused : Store :=
  ((((Store.empty 2).run 0 .pushRoot).2.run 0 (.release ⟨0, 0⟩)).2.run 0 .pushRoot).2

theorem accepts_iff_live_reused :
    ∃ events, History 2 events reused ∧ Live events 0 ⟨0, 1⟩ ∧ ¬ Live events 0 ⟨0, 0⟩ := by
  have history : History 2 _ reused :=
    .step (.step (.step .start 0 .pushRoot) 0 (.release ⟨0, 0⟩)) 0 .pushRoot
  have stale := accepts_iff_live history 0 (rfl : Operation.target? (.parent ⟨0, 0⟩) = some _)
  have new := accepts_iff_live history 0 (rfl : Operation.target? (.parent ⟨0, 1⟩) = some _)
  have told : (reused.run 0 (.parent ⟨0, 1⟩)).1 = .ok (.parent none) := rfl
  have refused : (reused.run 0 (.parent ⟨0, 0⟩)).1 = .error .invalidScope := rfl
  refine ⟨_, history, new.1.mp ?_, fun live => stale.1.mpr live refused⟩
  intro failed
  cases told.symm.trans failed

end Steps

end Scope

end KindScript
