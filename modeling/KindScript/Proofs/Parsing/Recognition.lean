import KindScript.Proofs.Parsing.Grammar
import KindScript.Tree.Parser

/-!
# The parser recognizes the grammar

Every rule of the parser is shown to read what its part of the grammar spells: what
it accepts is a derivation that cannot be continued, and every such derivation it
accepts with the same tree. The bound on groups is an index of the rules and a
condition on the tokens here; the bound on heights is tested by the rules at every
operator and is one condition on the finished tree here.
-/

namespace KindScript.Grammar

open KindScript.Tree

/-- The reader accepts what the relation spells and nothing else, where the tokens after
it let it stop. -/
structure Reads {α : Type} (run : List Token → Parsed α) (spells : List Token → α → Prop)
    (stops : List Token → Prop) : Prop where
  sound : ∀ {ts rest : List Token} {value : α}, run ts = .ok (value, rest) →
    ∃ read, ts = read ++ rest ∧ spells read value ∧ stops rest
  complete : ∀ {read rest : List Token} {value : α}, spells read value → stops rest →
    run (read ++ rest) = .ok (value, rest)

/-! ## Operators -/

/-- The tokens at which a tier goes on are its operators, and each builds a node. -/
def Tabulates (operator? : Operators) (tier : Tier) : Prop :=
  ∀ {t : Token} {result : Except ParseError.Cause (Expression → Expression → Expression)},
    operator? t = some result ↔ ∃ build, Operator tier t build ∧ result = .ok build

theorem joint?_tabulates : Tabulates joint? .joint := by
  intro t result
  unfold joint?
  constructor
  · intro h
    split at h
    · rename_i kind
      cases h
      split
      · exact ⟨_, .conjunction kind ‹_›, rfl⟩
      · exact ⟨_, .disjunction kind ‹_›, rfl⟩
    · cases h
  · rintro ⟨build, op, rfl⟩
    cases op with
    | conjunction kind text => rw [if_pos kind, if_pos text]
    | disjunction kind text => rw [if_pos kind, if_neg text]

theorem comparison?_tabulates : Tabulates comparison? .comparison := by
  intro t result
  unfold comparison? comparisonOf?
  constructor
  · intro h
    obtain ⟨op, hop, rfl⟩ := Option.map_eq_some_iff.mp h
    refine ⟨_, ?_, rfl⟩
    split at hop
    · rename_i kind
      split at hop
      all_goals first
        | (rename_i text; cases hop; exact .comparison kind text (by decide))
        | cases hop
    · split at hop
      · rename_i word
        cases hop
        exact .is word.1 word.2
      · cases hop
  · rintro ⟨build, op, rfl⟩
    cases op with
    | @comparison _ op kind text sign =>
      rw [if_pos kind, text]
      cases op <;> first | rfl | exact absurd rfl sign
    | is kind text => simp [kind, text]

theorem arithmetic_eq {t : Token} {op : ArithmeticOp} (text : t.text = op.symbol) :
    arithmetic t = .ok (.binary op) := by
  rw [arithmetic, text, ArithmeticOp.ofSymbol?_symbol]

theorem additive?_tabulates : Tabulates additive? .sum := by
  intro t result
  unfold additive?
  constructor
  · intro h
    split at h
    · rename_i sign
      cases h
      obtain ⟨op, text, known⟩ :
          ∃ op : ArithmeticOp, t.text = op.symbol ∧ (op = .add ∨ op = .subtract) := by
        rcases sign.2 with text | text
        · exact ⟨.add, text, .inl rfl⟩
        · exact ⟨.subtract, text, .inr rfl⟩
      exact ⟨_, .additive sign.1 text known, arithmetic_eq text⟩
    · cases h
  · rintro ⟨build, op, rfl⟩
    cases op with
    | additive kind text sign =>
      rw [arithmetic_eq text, text]
      rcases sign with rfl | rfl <;> exact if_pos ⟨kind, by decide⟩

theorem multiplicative?_tabulates : Tabulates multiplicative? .product := by
  intro t result
  unfold multiplicative?
  constructor
  · intro h
    split at h
    · rename_i sign
      cases h
      obtain ⟨op, text, known⟩ : ∃ op : ArithmeticOp,
          t.text = op.symbol ∧ (op = .multiply ∨ op = .divide ∨ op = .remainder) := by
        rcases sign.2 with text | text | text
        · exact ⟨.multiply, text, .inl rfl⟩
        · exact ⟨.divide, text, .inr (.inl rfl)⟩
        · exact ⟨.remainder, text, .inr (.inr rfl)⟩
      exact ⟨_, .multiplicative sign.1 text known, arithmetic_eq text⟩
    · cases h
  · rintro ⟨build, op, rfl⟩
    cases op with
    | multiplicative kind text sign =>
      rw [arithmetic_eq text, text]
      rcases sign with rfl | rfl | rfl <;> exact if_pos ⟨kind, by decide⟩

/-! ## Tiers -/

/-- A phrase within the bounds, where `room` groups may be opened. -/
structure Fits (room : Nat) (tier : Tier) (ts : List Token) (e : Expression) : Prop where
  phrase : Phrase tier ts e
  low : e.height ≤ maxHeight
  groups : mostOpen 0 ts ≤ room

theorem Fits.tighter {room : Nat} {tier : Tier} {ts : List Token} {e : Expression}
    (h : Fits room tier.next ts e) (loose : tier ≠ .primary) : Fits room tier ts e :=
  ⟨.tighter loose h.phrase, h.low, h.groups⟩

/-- The bounds of an operation are its height and the bounds of its operands. -/
theorem Operator.fits_iff {room : Nat} {tier : Tier} {t : Token}
    {build : Expression → Expression → Expression} {ls rs : List Token} {l r : Expression}
    (op : Operator tier t build) (left : Phrase tier ls l) (right : Phrase tier.next rs r) :
    Fits room tier (ls ++ t :: rs) (build l r) ↔
      Fits room tier ls l ∧ Fits room tier.next rs r ∧ (build l r).height ≤ maxHeight := by
  obtain ⟨dl, hl⟩ := left.nests
  obtain ⟨dr, hr⟩ := right.nests
  have groups := (op.nests hl hr).mostOpen_eq
  have height := op.height_eq l r
  have hdl := hl.mostOpen_eq
  have hdr := hr.mostOpen_eq
  constructor
  · intro h
    have low := h.low
    have room := h.groups
    exact ⟨⟨left, by omega, by omega⟩, ⟨right, by omega, by omega⟩, low⟩
  · rintro ⟨hl', hr', low⟩
    have left' := hl'.groups
    have right' := hr'.groups
    exact ⟨.operation op left right, low, by omega⟩

section Chain

variable {operand : Rule Expression} {operator? : Operators}

theorem chainFrom_of_stops {left : Expression} {ts : List Token}
    (h : ∀ t ∈ ts.head?, operator? t = none) :
    chainFrom operand operator? left ts = .ok (left, ts) := by
  cases ts with
  | nil => rw [chainFrom]
  | cons t ts => rw [chainFrom, h t rfl]

theorem chainFrom_of_operator {left : Expression} {t : Token} {ts : List Token}
    {build : Expression → Expression → Expression} (op : operator? t = some (.ok build)) :
    chainFrom operand operator? left (t :: ts) =
      (operand.run ts).andThen fun right rest =>
        (bounded (build left right) t rest).andThen (chainFrom operand operator?) := by
  rw [chainFrom]
  split
  · simp_all
  · simp_all
  · rename_i build' op'
    obtain rfl : build = build' := Except.ok.inj (Option.some.inj (op.symm.trans op'))
    split
    · rename_i stop run
      rw [run]
      rfl
    · rename_i right rest run
      rw [run]
      show _ = (bounded (build left right) t rest).andThen _
      rw [bounded]
      split <;> rfl

theorem chainFrom_of_step {left right : Expression} {t : Token} {ts rest : List Token}
    {build : Expression → Expression → Expression} (op : operator? t = some (.ok build))
    (run : operand.run ts = .ok (right, rest)) (low : (build left right).height ≤ maxHeight) :
    chainFrom operand operator? left (t :: ts) =
      chainFrom operand operator? (build left right) rest := by
  rw [chainFrom_of_operator op, run]
  show (bounded (build left right) t rest).andThen _ = _
  rw [bounded, if_pos low]
  rfl

variable {room : Nat} {tier : Tier} (binary : tier.IsBinary)
  (table : Tabulates operator? tier)
  (operands : Reads operand.run (Fits room tier.next) (Stops tier.next))
include table operands

/-- A chain that goes on after a phrase of its tier ends with a longer one. -/
theorem chainFrom_sound {before ts rest : List Token} {left e : Expression}
    (start : Fits room tier before left) (stopped : Stops tier.next ts)
    (h : chainFrom operand operator? left ts = .ok (e, rest)) :
    ∃ read, ts = read ++ rest ∧ Fits room tier (before ++ read) e ∧ Stops tier rest := by
  fun_induction chainFrom operand operator? left ts generalizing before with
  | case1 left =>
    cases h
    refine ⟨[], rfl, by simpa using start, ?_⟩
    intro t ht
    simp at ht
  | case2 left t ts none =>
    cases h
    refine ⟨[], rfl, by simpa using start, stopped.of_next ?_⟩
    intro u hu build op
    obtain rfl : t = u := by simpa using hu
    rw [table.mpr ⟨build, op, rfl⟩] at none
    cases none
  | case3 => cases h
  | case4 => cases h
  | case5 left t ts build op right rest' run low ih =>
    obtain ⟨rs, hts, hr, stopped'⟩ := operands.sound run
    obtain ⟨_, hop, same⟩ := table.mp op
    cases same
    have step : Fits room tier (before ++ t :: rs) (build left right) :=
      (hop.fits_iff start.phrase hr.phrase).mpr ⟨start, hr, low⟩
    obtain ⟨read, hrest, fits, stops⟩ := ih step stopped' h
    refine ⟨t :: (rs ++ read), ?_, ?_, stops⟩
    · rw [hts, hrest, List.cons_append, List.append_assoc]
    · simpa using fits
  | case6 => cases h

include binary

theorem chain_complete {read : List Token} {e : Expression} (phrase : Phrase tier read e) :
    e.height ≤ maxHeight → mostOpen 0 read ≤ room → ∀ rest, Stops tier.next rest →
    (chain operator? operand).run (read ++ rest) = chainFrom operand operator? e rest := by
  refine Phrase.chain_induction
    (motive := fun read e => e.height ≤ maxHeight → mostOpen 0 read ≤ room →
    ∀ rest, Stops tier.next rest →
    (chain operator? operand).run (read ++ rest) = chainFrom operand operator? e rest)
    binary ?_ ?_ phrase
  · intro ts e inner low groups rest stops
    change (operand.run (ts ++ rest)).andThen _ = _
    rw [operands.complete ⟨inner, low, groups⟩ stops]
    rfl
  · intro t build ls rs l r op left ih right low groups rest stops
    obtain ⟨hl, hr, hlow⟩ := (op.fits_iff left right).mp ⟨.operation op left right, low, groups⟩
    have ht := op.stops_of_lt binary.rank_lt_next (rs ++ rest)
    rw [List.append_assoc, List.cons_append, ih hl.low hl.groups _ ht,
      chainFrom_of_step (table.mpr ⟨build, op, rfl⟩) (operands.complete hr stops) hlow]

/-- A chain of operands reads a tier of binary operators. -/
theorem chain_reads : Reads (chain operator? operand).run (Fits room tier) (Stops tier) := by
  constructor
  · intro ts rest e h
    obtain ⟨left, middle, first, later⟩ := Parsed.andThen_eq_ok.mp h
    obtain ⟨ls, hts, hl, stopped⟩ := operands.sound first
    obtain ⟨read, hm, fits, stops⟩ :=
      chainFrom_sound table operands (hl.tighter binary.ne_primary) stopped later
    exact ⟨ls ++ read, by rw [hts, hm, List.append_assoc], fits, stops⟩
  · intro read rest e fits stops
    have hnext := stops.mono tier.rank_le_next
    rw [chain_complete binary table operands fits.phrase fits.low fits.groups rest hnext]
    apply chainFrom_of_stops
    intro t ht
    rw [Option.eq_none_iff_forall_ne_some]
    intro result hop
    obtain ⟨build, op, _⟩ := table.mp hop
    exact stops t ht tier build (Nat.le_refl _) op

end Chain

/-- No operator stands between the operands of a tier that has none. -/
theorem Stops.next_iff (tier : Tier) (none : ¬ tier.IsBinary) {ts : List Token} :
    Stops tier.next ts ↔ Stops tier ts :=
  ⟨fun h => h.of_next fun _ _ _ op => none op.isBinary, fun h => h.mono tier.rank_le_next⟩

theorem bounded_eq_ok {e e' : Expression} {t : Token} {ts rest : List Token} :
    bounded e t ts = .ok (e', rest) ↔ e.height ≤ maxHeight ∧ e = e' ∧ ts = rest := by
  unfold bounded
  split
  · rename_i low
    simp [low]
  · rename_i high
    simp [high]

/-- The rule of negation reads its tier, which has one operator before its operand. -/
theorem negated_reads {room : Nat} {operand : Rule Expression}
    (operands : Reads operand.run (Fits room .sum) (Stops .sum)) :
    Reads (negated operand) (Fits room .negation) (Stops .negation) := by
  have stops {ts : List Token} : Stops .sum ts ↔ Stops .negation ts :=
    Stops.next_iff .negation (by unfold Tier.IsBinary; decide)
  constructor
  · intro ts rest e h
    unfold negated at h
    split at h
    · obtain ⟨read, hts, fits, hs⟩ := operands.sound h
      exact ⟨read, hts, fits.tighter (by decide), stops.mp hs⟩
    split at h
    · rename_i t more kind
      obtain ⟨inner, middle, run, cap⟩ := Parsed.andThen_eq_ok.mp h
      obtain ⟨low, rfl, rfl⟩ := bounded_eq_ok.mp cap
      obtain ⟨read, hts, fits, hs⟩ := operands.sound run
      obtain ⟨d, hd⟩ := fits.phrase.nests
      have groups := (hd.cons (t := t) (by rw [kind]; decide)).mostOpen_eq
      have room := fits.groups
      rw [hd.mostOpen_eq, ← groups] at room
      exact ⟨t :: read, by rw [hts, List.cons_append], ⟨.negation kind fits.phrase, low, room⟩,
        stops.mp hs⟩
    · obtain ⟨read, hts, fits, hs⟩ := operands.sound h
      exact ⟨read, hts, fits.tighter (by decide), stops.mp hs⟩
  · intro read rest e fits hs
    cases fits.phrase with
    | tighter _ inner =>
      have run := operands.complete ⟨inner, fits.low, fits.groups⟩ (stops.mpr hs)
      obtain ⟨t, ts, rfl⟩ := List.exists_cons_of_ne_nil inner.kinds.1
      have head := inner.head_ne_not (by decide) t rfl
      rw [List.cons_append, negated, if_neg head]
      exact run
    | operation op => exact absurd op.isBinary (by unfold Tier.IsBinary; decide)
    | @negation t ts inner kind operand =>
      obtain ⟨d, hd⟩ := operand.nests
      have groups := fits.groups
      rw [(hd.cons (t := t) (by rw [kind]; decide)).mostOpen_eq, ← hd.mostOpen_eq] at groups
      have low : inner.height ≤ maxHeight := Nat.le_of_succ_le fits.low
      rw [List.cons_append, negated, if_pos kind,
        operands.complete ⟨operand, low, groups⟩ (stops.mpr hs)]
      exact bounded_eq_ok.mpr ⟨fits.low, rfl, rfl⟩

/-! ## Primary expressions -/

theorem expect_eq_ok {kind : Token.Kind} {ts rest : List Token} {t : Token} :
    expect kind ts = .ok (t, rest) ↔ ts = t :: rest ∧ t.kind = kind := by
  unfold expect
  split
  · simp
  · rename_i u us
    split
    · rename_i hk
      constructor
      · intro h
        cases h
        exact ⟨rfl, hk⟩
      · rintro ⟨h, _⟩
        cases h
        rfl
    · rename_i hk
      constructor
      · intro h
        cases h
      · rintro ⟨h, hk'⟩
        cases h
        exact absurd hk' hk

theorem converted_eq_ok {t : Token} {text : String} {ts rest : List Token} {e : Expression} :
    converted t text ts = .ok (e, rest) ↔
      ∃ n, Number.ofToken? t.kind text = some n ∧ .literal (.number n) = e ∧ ts = rest := by
  unfold converted
  split
  · rename_i n h
    simp [h]
  · rename_i h
    simp [h]

theorem takesSign_iff {kind : Token.Kind} : takesSign kind = true ↔ Signed kind := by
  simp [takesSign, Signed, or_assoc]

/-- Of the kinds of number only bytes take no sign. -/
theorem numberLiteral_of_signed {t : Token} (kind : Signed t.kind) (text : String)
    (ts : List Token) : numberLiteral t text ts = converted t text ts :=
  if_pos (takesSign_iff.mpr kind)

theorem Stops.primary (ts : List Token) : Stops .primary ts := by
  intro t _ other build le op
  rcases op.isBinary with rfl | rfl | rfl | rfl <;> exact absurd le (by decide)

/-- Literals and names are as low as an expression can be and open no group. -/
theorem Phrase.fits_leaf {room : Nat} {ts : List Token} {e : Expression}
    (h : Phrase .primary ts e) (height : e.height = 1) (nests : Nests ts 0) :
    Fits room .primary ts e :=
  ⟨h, by rw [height]; decide, by rw [nests.mostOpen_eq]; exact Nat.zero_le _⟩

theorem Phrase.nests_single {tier : Tier} {t : Token} {e : Expression} (h : Phrase tier [t] e) :
    Nests [t] 0 := by
  obtain ⟨d, hd⟩ := h.nests
  have none := (hd 0).1
  have deep := hd.mostOpen_eq
  simp only [List.foldl_cons, List.foldl_nil] at none
  simp only [mostOpen, none] at deep
  rwa [← deep] at hd

/-- What stands in parentheses is read with one group less, where any may be opened. -/
def Within (room : Nat) (group : Option (Rule Expression)) : Prop :=
  match group with
  | none => room = 0
  | some inner => ∃ less, room = less + 1 ∧ Reads inner.run (Fits less .joint) (Stops .joint)

theorem primary_sound {room : Nat} {group : Option (Rule Expression)} (inside : Within room group)
    {ts rest : List Token} {e : Expression} (h : Tree.primary group ts = .ok (e, rest)) :
    ∃ read, ts = read ++ rest ∧ Fits room .primary read e := by
  unfold Tree.primary at h
  split at h
  · cases h
  rename_i t more
  have leaf {v : Expression} (phrase : Phrase .primary [t] v) (low : v.height = 1) :
      ∃ read, t :: more = read ++ more ∧ Fits room .primary read v :=
    ⟨[t], rfl, phrase.fits_leaf low phrase.nests_single⟩
  split at h
  · rename_i opening
    split at h
    · cases h
    rename_i inner
    obtain ⟨less, rfl, reads⟩ := inside
    obtain ⟨middle, c, run, close⟩ := closed_eq_ok.mp h
    obtain ⟨rfl, closing⟩ := expect_eq_ok.mp close
    obtain ⟨read, rfl, fits, _⟩ := reads.sound run
    obtain ⟨d, hd⟩ := fits.phrase.nests
    have groups := (hd.group (.inl opening) (.inl closing)).mostOpen_eq
    have room := fits.groups
    rw [hd.mostOpen_eq] at room
    refine ⟨t :: (read ++ [c]), by simp, .group opening fits.phrase closing, fits.low, ?_⟩
    rw [groups]
    exact Nat.succ_le_succ room
  · rename_i kind
    cases h
    exact leaf (.name kind) rfl
  · rename_i sign
    unfold signedNumber at h
    split at h
    · cases h
    rename_i u us
    split at h
    · rename_i cond
      have kind := takesSign_iff.mp cond.2
      rw [numberLiteral_of_signed kind] at h
      obtain ⟨n, value, rfl, rfl⟩ := converted_eq_ok.mp h
      refine ⟨[t, u], rfl, Phrase.fits_leaf ?_ rfl (kind.nests sign)⟩
      by_cases minus : t.text = "-"
      · rw [if_pos minus] at value
        exact .minus sign minus kind value
      · rw [if_neg minus] at value
        exact .plus sign (cond.1.resolve_right minus) kind value
    · cases h
  · rename_i kind
    cases h
    exact leaf (.boolean kind) rfl
  · rename_i kind
    cases h
    exact leaf (.null kind) rfl
  · rename_i kind
    cases h
    exact leaf (.string kind) rfl
  · rename_i kind
    split at h
    · rename_i c text
      cases h
      exact leaf (.char kind text) rfl
    · cases h
  · obtain ⟨n, value, rfl, rfl⟩ := converted_eq_ok.mp h
    exact leaf (.number value) rfl
  all_goals first
    | contradiction
    | rename_i kind
      rw [numberLiteral_of_signed (by simp [Signed, kind])] at h
      obtain ⟨n, value, rfl, rfl⟩ := converted_eq_ok.mp h
      exact leaf (.number value) rfl

theorem primary_complete {room : Nat} {group : Option (Rule Expression)}
    (inside : Within room group) {read : List Token} {e : Expression}
    (fits : Fits room .primary read e) (rest : List Token) :
    Tree.primary group (read ++ rest) = .ok (e, rest) := by
  cases fits.phrase with
  | tighter loose => exact absurd rfl loose
  | operation op => exact absurd op.isBinary (by unfold Tier.IsBinary; decide)
  | @group o c ts _ opening inner closing =>
    obtain ⟨d, hd⟩ := inner.nests
    have groups := fits.groups
    rw [(hd.group (.inl opening) (.inl closing)).mostOpen_eq, ← hd.mostOpen_eq] at groups
    unfold Within at inside
    split at inside
    · omega
    rename_i rule
    obtain ⟨less, rfl, reads⟩ := inside
    have stops : Stops .joint (c :: rest) := .of_kind (by rw [closing]; decide)
    have run := reads.complete ⟨inner, fits.low, Nat.le_of_succ_le_succ groups⟩ stops
    rw [List.cons_append, List.append_assoc, Tree.primary, opening]
    exact closed_eq_ok.mpr ⟨_, c, run, expect_eq_ok.mpr ⟨rfl, closing⟩⟩
  | name kind => simp [Tree.primary, kind]
  | null kind => simp [Tree.primary, kind]
  | boolean kind => simp [Tree.primary, kind]
  | string kind => simp [Tree.primary, kind]
  | char kind text => simp [Tree.primary, kind, text]
  | @number t n value =>
    have hk := numberKind_of_ofToken? value
    simp only [List.mem_cons, List.not_mem_nil, or_false] at hk
    have literal : converted t t.text rest = .ok (.literal (.number n), rest) :=
      converted_eq_ok.mpr ⟨n, value, rfl, rfl⟩
    rcases hk with hk | hk | hk | hk | hk <;>
      simpa [Tree.primary, hk, numberLiteral, takesSign] using literal
  | @plus s t n sign text kind value =>
    have literal : numberLiteral t t.text rest = .ok (.literal (.number n), rest) :=
      (numberLiteral_of_signed kind ..).trans (converted_eq_ok.mpr ⟨n, value, rfl, rfl⟩)
    simpa [Tree.primary, sign, signedNumber, text, takesSign_iff.mpr kind] using literal
  | @minus s t n sign text kind value =>
    have literal : numberLiteral t ("-" ++ t.text) rest = .ok (.literal (.number n), rest) :=
      (numberLiteral_of_signed kind ..).trans (converted_eq_ok.mpr ⟨n, value, rfl, rfl⟩)
    simpa [Tree.primary, sign, signedNumber, text, takesSign_iff.mpr kind] using literal

theorem primary_reads {room : Nat} {group : Option (Rule Expression)}
    (inside : Within room group) :
    Reads (Tree.primary group) (Fits room .primary) (Stops .primary) := by
  constructor
  · intro ts rest e h
    obtain ⟨read, hts, fits⟩ := primary_sound inside h
    exact ⟨read, hts, fits, Stops.primary rest⟩
  · intro read rest e fits _
    exact primary_complete inside fits rest

/-! ## Expressions -/

theorem expressionOver_reads {room : Nat} {group : Option (Rule Expression)}
    (inside : Within room group) :
    Reads (expressionOver group).run (Fits room .joint) (Stops .joint) := by
  have product : Reads (chain multiplicative? ⟨Tree.primary group, primary_moves⟩).run
      (Fits room .product) (Stops .product) :=
    chain_reads (by simp [Tier.IsBinary]) multiplicative?_tabulates (primary_reads inside)
  have sum : Reads (chain additive? (chain multiplicative? ⟨Tree.primary group, primary_moves⟩)).run
      (Fits room .sum) (Stops .sum) :=
    chain_reads (by simp [Tier.IsBinary]) additive?_tabulates product
  have comparison : Reads (chain comparison? ⟨_, negated_moves⟩).run
      (Fits room .comparison) (Stops .comparison) :=
    chain_reads (by simp [Tier.IsBinary]) comparison?_tabulates (negated_reads sum)
  exact chain_reads (by simp [Tier.IsBinary]) joint?_tabulates comparison

/-- The rule of expressions reads the phrases of the loosest tier. -/
theorem expression_reads (room : Nat) :
    Reads (Tree.expression room).run (Fits room .joint) (Stops .joint) := by
  induction room with
  | zero => exact expressionOver_reads rfl
  | succ room ih => exact expressionOver_reads ⟨room, rfl, ih⟩

/-! ## Sentences -/

/-- A sentence within the bounds, where `room` groups may be opened. -/
structure SentenceFits (room : Nat) (reaches : Bool) (ts : List Token) (s : Statement) : Prop where
  sentence : Sentence reaches ts s
  low : Everywhere IsLow [s]
  groups : mostOpen 0 ts ≤ room

/-- A body within the bounds, where `room` groups may be opened. -/
structure BodyFits (room : Nat) (ts : List Token) (body : List Statement) : Prop where
  spelled : Body ts body
  low : Everywhere IsLow body
  groups : mostOpen 0 ts ≤ room

/-- The tokens do not go on with a statement that ends before them. -/
def Follows (ts : List Token) : Prop :=
  ∀ t ∈ ts.head?, t.kind ≠ .semicolon ∧ ¬ Assigns t

theorem Follows.of_kind {t : Token} {ts : List Token}
    (h : t.kind ∉ [Token.Kind.semicolon, .equalsOperator, .assignmentOperator]) :
    Follows (t :: ts) := by
  intro u hu
  obtain rfl : t = u := by simpa using hu
  simp only [List.mem_cons, List.not_mem_nil, or_false, not_or] at h
  exact ⟨h.1, fun sign => sign.elim h.2.1 h.2.2⟩

/-- A body goes on with none of the statements before it. -/
theorem Follows.of_body {ts rest : List Token} {body : List Statement} (h : Body ts body)
    (last : ts = [] → Follows rest) : Follows (ts ++ rest) := by
  cases ts with
  | nil => exact last rfl
  | cons t ts =>
    have start := h.head t rfl
    refine .of_kind fun other => ?_
    simp only [List.mem_cons, List.not_mem_nil, or_false] at other
    rcases other with hk | hk | hk <;> rw [hk] at start <;> exact absurd start (by decide)

theorem isAssignment_iff {t : Token} : isAssignment t = true ↔ Assigns t := by
  simp [isAssignment, Assigns]

theorem compoundOf?_eq_some {text : String} {op : ArithmeticOp} :
    compoundOf? text = some op ↔ text = op.symbol ++ "=" := by
  constructor
  · intro h
    unfold compoundOf? at h
    split at h <;> cases h <;> rfl
  · rintro rfl
    cases op <;> rfl

section Sentences

variable {room : Nat} {value : Rule Expression}

theorem expression_sound (values : Reads value.run (Fits room .joint) (Stops .joint))
    {ts rest : List Token} {s : Statement}
    (h : (value.run ts).andThen (fun e rest => .ok (.expression e, rest)) = .ok (s, rest)) :
    ∃ read, ts = read ++ rest ∧ SentenceFits room true read s ∧ Stops .joint rest := by
  obtain ⟨e, middle, run, done⟩ := Parsed.andThen_eq_ok.mp h
  cases done
  obtain ⟨read, rfl, fits, stops⟩ := values.sound run
  have low : Everywhere IsLow [.expression e] :=
    (Everywhere.single_iff rfl).mpr ((isLow_iff rfl).mpr fits.low)
  exact ⟨read, rfl, ⟨.expression fits.phrase, low, fits.groups⟩, stops⟩

/-- The sentences that hold one expression after some tokens that open no group. -/
theorem Fits.sentence {read before : List Token} {e : Expression} {s : Statement}
    (h : Fits room .joint read e) (sentence : Sentence true (before ++ read) s)
    (plain : Nests before 0) (holds : within s = [s] ∧ value? s = some e) :
    SentenceFits room true (before ++ read) s := by
  obtain ⟨d, hd⟩ := h.phrase.nests
  have groups := (plain.append hd).mostOpen_eq
  rw [Nat.zero_max, ← hd.mostOpen_eq] at groups
  have low := (Everywhere.single_iff holds.1).mpr ((isLow_iff holds.2).mpr h.low)
  exact ⟨sentence, low, by rw [groups]; exact h.groups⟩

theorem assignment_sound (values : Reads value.run (Fits room .joint) (Stops .joint))
    {n q : Token} {ts rest : List Token} {s : Statement} (name : n.kind = .identifier)
    (sign : Assigns q) (h : Tree.assignment value n.text q ts = .ok (s, rest)) :
    ∃ reaches read, n :: q :: ts = read ++ rest ∧ SentenceFits room reaches read s ∧
      (reaches = true → Stops .joint rest) := by
  have plain := sign.nests name
  have step {op : ArithmeticOp}
      (sentence :
        Sentence false [n, q] (.assign n.text (some op) (.literal (.number (.integer 1))))) :
      SentenceFits room false [n, q] (.assign n.text (some op) (.literal (.number (.integer 1)))) :=
    ⟨sentence, (Everywhere.single_iff rfl).mpr ((isLow_iff rfl).mpr (by decide)),
      by rw [plain.mostOpen_eq]; exact Nat.zero_le _⟩
  unfold Tree.assignment at h
  split at h
  · rename_i text
    obtain ⟨e, middle, run, done⟩ := Parsed.andThen_eq_ok.mp h
    cases done
    obtain ⟨read, rfl, fits, stops⟩ := values.sound run
    exact ⟨true, [n, q] ++ read, rfl,
      fits.sentence (.assignment name sign text fits.phrase) plain ⟨rfl, rfl⟩, fun _ => stops⟩
  · rename_i text
    cases h
    exact ⟨false, [n, q], rfl, step (.increment name sign text), Bool.false_ne_true.elim⟩
  · rename_i text
    cases h
    exact ⟨false, [n, q], rfl, step (.decrement name sign text), Bool.false_ne_true.elim⟩
  · split at h
    · cases h
    rename_i op known
    obtain ⟨e, middle, run, done⟩ := Parsed.andThen_eq_ok.mp h
    cases done
    obtain ⟨read, rfl, fits, stops⟩ := values.sound run
    have text := compoundOf?_eq_some.mp known
    exact ⟨true, [n, q] ++ read, rfl,
      fits.sentence (.compound name sign text fits.phrase) plain ⟨rfl, rfl⟩, fun _ => stops⟩

theorem declaration_sound (values : Reads value.run (Fits room .joint) (Stops .joint))
    (constant : Bool) {v : Token} {ts rest : List Token} {s : Statement}
    (keyword : v.kind = if constant then .const else .var)
    (h : Tree.declaration value constant ts = .ok (s, rest)) :
    ∃ reaches read, v :: ts = read ++ rest ∧ SentenceFits room reaches read s ∧
      (reaches = true → Stops .joint rest) := by
  obtain ⟨n, middle, word, init⟩ := Parsed.andThen_eq_ok.mp h
  obtain ⟨rfl, name⟩ := expect_eq_ok.mp word
  have bare (var : v.kind = .var) :
      SentenceFits room false [v, n] (.declare n.text false none) := by
    have plain : Nests [v, n] 0 := .cons (by rw [var]; decide) (.single (by rw [name]; decide))
    exact ⟨.declaration var name, (Everywhere.single_iff rfl).mpr (isLow_of_none rfl),
      by rw [plain.mostOpen_eq]; exact Nat.zero_le _⟩
  unfold initializer at init
  split at init
  · split at init
    · cases init
    · cases init
      exact ⟨false, [v, n], rfl, bare (by simp [*]), Bool.false_ne_true.elim⟩
  split at init
  · rename_i q more sign
    obtain ⟨e, middle, run, done⟩ := Parsed.andThen_eq_ok.mp init
    cases done
    obtain ⟨read, rfl, fits, stops⟩ := values.sound run
    have kind : v.kind = .var ∨ v.kind = .const := by cases constant <;> simp [keyword]
    have plain := Assigns.nests_declared (.inl sign) name kind
    have sentence : Sentence true ([v, n, q] ++ read) (.declare n.text constant (some e)) := by
      cases constant
      · exact .initialized keyword name sign fits.phrase
      · exact .constant keyword name sign fits.phrase
    exact ⟨true, [v, n, q] ++ read, rfl, fits.sentence sentence plain ⟨rfl, rfl⟩, fun _ => stops⟩
  · split at init
    · cases init
    · cases init
      exact ⟨false, [v, n], rfl, bare (by simp [*]), Bool.false_ne_true.elim⟩

theorem named_sound (values : Reads value.run (Fits room .joint) (Stops .joint)) {n : Token}
    {ts rest : List Token} {s : Statement} (name : n.kind = .identifier)
    (h : Tree.named value n ts = .ok (s, rest)) :
    ∃ reaches read, n :: ts = read ++ rest ∧ SentenceFits room reaches read s ∧
      (reaches = true → Stops .joint rest) := by
  unfold Tree.named at h
  split at h
  · split at h
    · rename_i sign
      exact assignment_sound values name (isAssignment_iff.mp sign) h
    · obtain ⟨read, hts, fits, stops⟩ := expression_sound values h
      exact ⟨true, read, hts, fits, fun _ => stops⟩
  · obtain ⟨read, hts, fits, stops⟩ := expression_sound values h
    exact ⟨true, read, hts, fits, fun _ => stops⟩

end Sentences

/-! ## Runs of sentences -/

/-- The rule reads the sentences of the grammar, each with the semicolon that may follow. -/
structure ReadsSentences (room : Nat) (item : Rule Statement) : Prop where
  sound : ∀ {ts rest : List Token} {s : Statement}, item.run ts = .ok (s, rest) →
    ∃ reaches read semicolon, ts = read ++ (semicolon ++ rest) ∧
      SentenceFits room reaches read s ∧ Terminator semicolon ∧
      (semicolon = [] → reaches = true → Stops .joint rest)
  complete : ∀ {reaches : Bool} {read semicolon rest : List Token} {s : Statement},
    SentenceFits room reaches read s → Terminator semicolon →
    (semicolon = [] → (reaches = true → Stops .joint rest) ∧ Follows rest) →
    item.run (read ++ (semicolon ++ rest)) = .ok (s, rest)

theorem BodyFits.nil (room : Nat) : BodyFits room [] [] :=
  ⟨.nil, .nil, Nat.zero_le _⟩

/-- The bounds of a body are those of its sentences. -/
theorem bodyFits_cons_iff {room : Nat} {reaches : Bool} {ts semicolon rest : List Token}
    {s : Statement} {more : List Statement} (first : Sentence reaches ts s)
    (terminator : Terminator semicolon)
    (longest : semicolon = [] → reaches = true → Stops .joint rest) (later : Body rest more) :
    BodyFits room (ts ++ (semicolon ++ rest)) (s :: more) ↔
      SentenceFits room reaches ts s ∧ BodyFits room rest more := by
  obtain ⟨d, hd⟩ := first.nests
  obtain ⟨d', hd'⟩ := later.nests
  have groups := (hd.append (terminator.nests.append hd')).mostOpen_eq
  have hts := hd.mostOpen_eq
  have hrest := hd'.mostOpen_eq
  constructor
  · intro h
    have room := h.groups
    obtain ⟨low, lows⟩ := Everywhere.cons_iff.mp h.low
    exact ⟨⟨first, low, by omega⟩, ⟨later, lows, by omega⟩⟩
  · rintro ⟨hs, hb⟩
    have room := hs.groups
    have rooms := hb.groups
    exact ⟨.cons first terminator longest later, Everywhere.cons_iff.mpr ⟨hs.low, hb.low⟩, by omega⟩

section Sequences

variable {room : Nat} {item : Rule Statement} {ends : Token → Bool}
  (items : ReadsSentences room item)

theorem sequence_of_going {t : Token} {ts : List Token} (going : ends t = false) :
    Tree.sequence item ends (t :: ts) =
      (item.run (t :: ts)).andThen fun s rest =>
        (Tree.sequence item ends rest).andThen fun body rest => .ok (s :: body, rest) := by
  rw [Tree.sequence, going]
  simp only [Bool.false_eq_true, if_false]
  split
  · rename_i stop run
    rw [run]
    rfl
  · rename_i s rest run
    rw [run]
    rfl

theorem sequence_of_step {ts rest : List Token} {s : Statement}
    (going : ∃ t more, ts = t :: more ∧ ends t = false) (run : item.run ts = .ok (s, rest)) :
    Tree.sequence item ends ts =
      (Tree.sequence item ends rest).andThen fun body rest => .ok (s :: body, rest) := by
  obtain ⟨t, more, rfl, going⟩ := going
  rw [sequence_of_going going, run]
  rfl

include items

theorem sequence_sound {ts rest : List Token} {body : List Statement}
    (h : Tree.sequence item ends ts = .ok (body, rest)) :
    ∃ read, ts = read ++ rest ∧ BodyFits room read body ∧ ∀ t ∈ rest.head?, ends t = true := by
  fun_induction Tree.sequence item ends ts generalizing body with
  | case1 =>
    cases h
    exact ⟨[], rfl, .nil room, by simp⟩
  | case2 t more stop =>
    cases h
    refine ⟨[], rfl, .nil room, ?_⟩
    intro u hu
    cases hu
    exact stop
  | case3 => cases h
  | case4 t more going s middle run ih =>
    obtain ⟨body, rest, later, done⟩ := Parsed.andThen_eq_ok.mp h
    cases done
    obtain ⟨reaches, ts, semicolon, hts, fits, terminator, longest⟩ := items.sound run
    obtain ⟨read, rfl, fits', last⟩ := ih later
    have stops : semicolon = [] → reaches = true → Stops .joint read :=
      fun none ends => (longest none ends).of_append
    refine ⟨ts ++ (semicolon ++ read), by simpa using hts, ?_, last⟩
    exact (bodyFits_cons_iff fits.sentence terminator stops fits'.spelled).mpr ⟨fits, fits'⟩

/-- What ends a run of sentences goes on with none of them. -/
theorem sequence_complete (closes : ∀ t, ends t = true → t.kind = .closeBrace)
    {read rest : List Token} {body : List Statement} (fits : BodyFits room read body)
    (last : ∀ t ∈ rest.head?, ends t = true) :
    Tree.sequence item ends (read ++ rest) = .ok (body, rest) := by
  have closed : ∀ t ∈ rest.head?, t.kind = .closeBrace := fun t ht => closes t (last t ht)
  induction body generalizing read with
  | nil =>
    cases fits.spelled
    cases rest with
    | nil => rw [List.append_nil, Tree.sequence]
    | cons t more =>
      rw [List.nil_append, Tree.sequence, last t rfl]
      rfl
  | cons s more ih =>
    cases fits.spelled with
    | @cons reaches ts semicolon later _ _ first terminator longest body =>
    obtain ⟨fits', rests⟩ := (bodyFits_cons_iff first terminator longest body).mp fits
    have follows : Follows (later ++ rest) := .of_body body fun _ => by
      cases rest with
      | nil =>
        intro t none
        cases none
      | cons t _ => exact .of_kind (by rw [closed t rfl]; decide)
    have stops : semicolon = [] → reaches = true → Stops .joint (later ++ rest) := by
      intro none ends
      refine (longest none ends).append fun _ => ?_
      cases rest with
      | nil => exact .nil
      | cons t _ => exact .of_kind (by rw [closed t rfl]; decide)
    have run := items.complete fits' terminator fun none => ⟨stops none, follows⟩
    have going : ∃ t us, ts ++ (semicolon ++ (later ++ rest)) = t :: us ∧ ends t = false := by
      obtain ⟨t, us, rfl, start⟩ := first.head
      refine ⟨t, us ++ (semicolon ++ (later ++ rest)), rfl, ?_⟩
      rw [← Bool.not_eq_true]
      intro brace
      rw [closes t brace] at start
      exact absurd start (by decide)
    rw [List.append_assoc, List.append_assoc, sequence_of_step going run, ih rests]
    rfl

end Sequences

/-! ## Statements -/

/-- What stands in braces is read with one group less, where any may be opened. -/
def WithinBraces (room : Nat) (inner : Option (Rule Statement)) : Prop :=
  match inner with
  | none => room = 0
  | some item => ∃ less, room = less + 1 ∧ ReadsSentences less item

section Statements

variable {room : Nat} {value : Rule Expression} {inner : Option (Rule Statement)}

theorem block_sound (inside : WithinBraces room inner) {o : Token} {ts rest : List Token}
    {s : Statement} (opening : o.kind = .openBrace) (h : Tree.block inner o ts = .ok (s, rest)) :
    ∃ read, o :: ts = read ++ rest ∧ SentenceFits room false read s := by
  unfold Tree.block at h
  split at h
  · cases h
  obtain ⟨less, rfl, items⟩ := inside
  obtain ⟨body, middle, run, done⟩ := Parsed.andThen_eq_ok.mp h
  cases done
  obtain ⟨after, c, run, close⟩ := closed_eq_ok.mp run
  obtain ⟨rfl, closing⟩ := expect_eq_ok.mp close
  obtain ⟨read, rfl, fits, _⟩ := sequence_sound items run
  obtain ⟨d, hd⟩ := fits.spelled.nests
  have groups := (hd.group (.inr opening) (.inr closing)).mostOpen_eq
  have room := fits.groups
  rw [hd.mostOpen_eq] at room
  refine ⟨o :: (read ++ [c]), by simp, .block opening fits.spelled closing,
    Everywhere.block_iff.mpr ⟨isLow_of_none rfl, fits.low⟩, ?_⟩
  rw [groups]
  exact Nat.succ_le_succ room

theorem block_complete (inside : WithinBraces room inner) {o c : Token} {ts : List Token}
    {body : List Statement} (opening : o.kind = .openBrace) (closing : c.kind = .closeBrace)
    (fits : SentenceFits room false (o :: (ts ++ [c])) (.block body)) (spelled : Body ts body)
    (rest : List Token) : Tree.block inner o (ts ++ c :: rest) = .ok (.block body, rest) := by
  obtain ⟨d, hd⟩ := spelled.nests
  have groups := fits.groups
  rw [(hd.group (.inr opening) (.inr closing)).mostOpen_eq, ← hd.mostOpen_eq] at groups
  unfold WithinBraces at inside
  split at inside
  · omega
  rename_i item
  obtain ⟨less, rfl, items⟩ := inside
  have inner : BodyFits less ts body :=
    ⟨spelled, (Everywhere.block_iff.mp fits.low).2, Nat.le_of_succ_le_succ groups⟩
  have run : Tree.sequence item (fun t => t.kind = .closeBrace) (ts ++ c :: rest) =
      .ok (body, c :: rest) :=
    sequence_complete items (fun t brace => of_decide_eq_true brace) inner (by simp [closing])
  refine Parsed.andThen_eq_ok.mpr ⟨body, rest, ?_, rfl⟩
  exact closed_eq_ok.mpr ⟨c :: rest, c, run, expect_eq_ok.mpr ⟨rfl, closing⟩⟩

/-- The expression of a sentence keeps to the bounds of the sentence. -/
theorem SentenceFits.phrase_fits (before : List Token) {read : List Token} {e : Expression}
    {s : Statement} (h : SentenceFits room true (before ++ read) s) (phrase : Phrase .joint read e)
    (plain : Nests before 0) (holds : within s = [s] ∧ value? s = some e) :
    Fits room .joint read e := by
  obtain ⟨d, hd⟩ := phrase.nests
  have groups := h.groups
  rw [(plain.append hd).mostOpen_eq, Nat.zero_max, ← hd.mostOpen_eq] at groups
  have low := h.low
  rw [Everywhere.single_iff holds.1] at low
  exact ⟨phrase, low e holds.2, groups⟩

theorem declaration_of_value {constant : Bool} {n q : Token} {ts rest : List Token}
    {e : Expression} (name : n.kind = .identifier) (sign : q.kind = .equalsOperator)
    (run : value.run ts = .ok (e, rest)) :
    Tree.declaration value constant (n :: q :: ts) =
      .ok (.declare n.text constant (some e), rest) := by
  refine Parsed.andThen_eq_ok.mpr ⟨n, q :: ts, expect_eq_ok.mpr ⟨rfl, name⟩, ?_⟩
  rw [initializer, if_pos sign, run]
  rfl

theorem declaration_of_not_assigns {n : Token} {ts : List Token} (name : n.kind = .identifier)
    (h : ∀ t ∈ ts.head?, ¬ Assigns t) :
    Tree.declaration value false (n :: ts) = .ok (.declare n.text false none, ts) := by
  refine Parsed.andThen_eq_ok.mpr ⟨n, ts, expect_eq_ok.mpr ⟨rfl, name⟩, ?_⟩
  cases ts with
  | nil => rfl
  | cons t ts =>
    have sign : t.kind ≠ .equalsOperator := fun sign => h t rfl (.inl sign)
    rw [initializer, if_neg sign]
    rfl

theorem assignment_of_compound {name : String} {q : Token} {op : ArithmeticOp}
    {ts rest : List Token} {e : Expression} (text : q.text = op.symbol ++ "=")
    (run : value.run ts = .ok (e, rest)) :
    Tree.assignment value name q ts = .ok (.assign name (some op) e, rest) := by
  unfold Tree.assignment
  rw [text, run]
  cases op <;> rfl

/-- An expression that begins with a name holds no sign of an assignment. -/
theorem named_of_expression {n : Token} {ts rest : List Token} {e : Expression}
    (phrase : Phrase .joint (n :: ts) e) (follows : ∀ t ∈ rest.head?, ¬ Assigns t)
    (run : value.run (n :: (ts ++ rest)) = .ok (e, rest)) :
    Tree.named value n (ts ++ rest) = .ok (.expression e, rest) := by
  have other : ∀ t ∈ (ts ++ rest).head?, isAssignment t = false := by
    intro t ht
    rw [← Bool.not_eq_true, isAssignment_iff]
    cases ts with
    | nil => exact follows t ht
    | cons u us =>
      obtain rfl : u = t := by simpa using ht
      have hk := phrase.kinds.2 u (by simp)
      rintro (sign | sign) <;> rw [sign] at hk <;> exact absurd hk (by decide)
  unfold Tree.named
  split
  · rename_i op more eq
    rw [eq] at other run
    rw [other op rfl, run]
    rfl
  · rename_i eq
    rw [eq] at run
    rw [run]
    rfl

variable (values : Reads value.run (Fits room .joint) (Stops .joint))
  (inside : WithinBraces room inner)
include values inside

theorem bareStatement_sound {ts rest : List Token} {s : Statement}
    (h : bareStatement value inner ts = .ok (s, rest)) :
    ∃ reaches read, ts = read ++ rest ∧ SentenceFits room reaches read s ∧
      (reaches = true → Stops .joint rest) := by
  unfold bareStatement at h
  split at h
  · obtain ⟨read, hts, fits, stops⟩ := expression_sound values h
    exact ⟨true, read, hts, fits, fun _ => stops⟩
  split at h
  · rename_i keyword
    exact declaration_sound values false keyword h
  · rename_i keyword
    exact declaration_sound values true keyword h
  · rename_i opening
    obtain ⟨read, hts, fits⟩ := block_sound inside opening h
    exact ⟨false, read, hts, fits, Bool.false_ne_true.elim⟩
  · rename_i name
    exact named_sound values name h
  · obtain ⟨read, hts, fits, stops⟩ := expression_sound values h
    exact ⟨true, read, hts, fits, fun _ => stops⟩

theorem bareStatement_complete {reaches : Bool} {read rest : List Token} {s : Statement}
    (fits : SentenceFits room reaches read s) (stops : reaches = true → Stops .joint rest)
    (follows : ∀ t ∈ rest.head?, ¬ Assigns t) :
    bareStatement value inner (read ++ rest) = .ok (s, rest) := by
  cases fits.sentence with
  | declaration keyword name =>
    simpa [bareStatement, keyword] using declaration_of_not_assigns name follows
  | @initialized v n q ts e keyword name sign phrase =>
    have plain := Assigns.nests_declared (.inl sign) name (.inl keyword)
    have run := values.complete (fits.phrase_fits [v, n, q] phrase plain ⟨rfl, rfl⟩) (stops rfl)
    simpa [bareStatement, keyword] using declaration_of_value name sign run
  | @constant v n q ts e keyword name sign phrase =>
    have plain := Assigns.nests_declared (.inl sign) name (.inr keyword)
    have run := values.complete (fits.phrase_fits [v, n, q] phrase plain ⟨rfl, rfl⟩) (stops rfl)
    simpa [bareStatement, keyword] using declaration_of_value name sign run
  | @assignment n q ts e name sign text phrase =>
    have plain := sign.nests name
    have run := values.complete (fits.phrase_fits [n, q] phrase plain ⟨rfl, rfl⟩) (stops rfl)
    have done : Tree.assignment value n.text q (ts ++ rest) =
        .ok (.assign n.text none e, rest) := by
      rw [Tree.assignment, text, run]
      rfl
    simpa [bareStatement, name, Tree.named, isAssignment_iff.mpr sign] using done
  | @compound n q ts e op name sign text phrase =>
    have plain := sign.nests name
    have run := values.complete (fits.phrase_fits [n, q] phrase plain ⟨rfl, rfl⟩) (stops rfl)
    have done : Tree.assignment value n.text q (ts ++ rest) =
        .ok (.assign n.text (some op) e, rest) := assignment_of_compound text run
    simpa [bareStatement, name, Tree.named, isAssignment_iff.mpr sign] using done
  | increment name sign text =>
    simp [bareStatement, name, Tree.named, isAssignment_iff.mpr sign, Tree.assignment, text]
  | decrement name sign text =>
    simp [bareStatement, name, Tree.named, isAssignment_iff.mpr sign, Tree.assignment, text]
  | expression phrase =>
    have run := values.complete (fits.phrase_fits [] phrase .nil ⟨rfl, rfl⟩) (stops rfl)
    obtain ⟨t, ts, rfl⟩ := List.exists_cons_of_ne_nil phrase.kinds.1
    have hk := phrase.kinds.2 t (by simp)
    rw [List.cons_append] at run ⊢
    unfold bareStatement
    simp only
    split
    · rename_i keyword
      rw [keyword] at hk
      exact absurd hk (by decide)
    · rename_i keyword
      rw [keyword] at hk
      exact absurd hk (by decide)
    · rename_i opening
      rw [opening] at hk
      exact absurd hk (by decide)
    · exact named_of_expression phrase follows run
    · rw [run]
      rfl
  | @block o c ts body opening spelled closing =>
    have run := block_complete inside opening closing fits spelled rest
    simpa [bareStatement, opening] using run

theorem statementOver_reads : ReadsSentences room (statementOver value inner) := by
  constructor
  · intro ts rest s h
    obtain ⟨s, middle, run, done⟩ := Parsed.andThen_eq_ok.mp h
    cases done
    obtain ⟨reaches, read, rfl, fits, stops⟩ := bareStatement_sound values inside run
    unfold skipSemicolon
    split
    · exact ⟨reaches, read, [], rfl, fits, .inl rfl, fun _ => stops⟩
    rename_i t more
    by_cases kind : t.kind = .semicolon
    · rw [if_pos kind]
      have some : [t] ≠ [] := List.cons_ne_nil t []
      exact ⟨reaches, read, [t], rfl, fits, .inr ⟨t, kind, rfl⟩, fun none => absurd none some⟩
    · rw [if_neg kind]
      exact ⟨reaches, read, [], rfl, fits, .inl rfl, fun _ => stops⟩
  · intro reaches read semicolon rest s fits terminator last
    have skipped : skipSemicolon (semicolon ++ rest) = rest := by
      rcases terminator with rfl | ⟨t, kind, rfl⟩
      · cases rest with
        | nil => rfl
        | cons t more => exact if_neg ((last rfl).2 t rfl).1
      · exact if_pos kind
    have stops : reaches = true → Stops .joint (semicolon ++ rest) := by
      rcases terminator with rfl | ⟨t, kind, rfl⟩
      · exact (last rfl).1
      · exact fun _ => .of_kind (by rw [kind]; decide)
    have follows : ∀ t ∈ (semicolon ++ rest).head?, ¬ Assigns t := by
      rcases terminator with rfl | ⟨t, kind, rfl⟩
      · exact fun t ht => ((last rfl).2 t ht).2
      · intro u hu
        obtain rfl : t = u := by simpa using hu
        rintro (sign | sign) <;> rw [kind] at sign <;> cases sign
    have run := bareStatement_complete values inside fits stops follows
    refine Parsed.andThen_eq_ok.mpr ⟨s, semicolon ++ rest, run, ?_⟩
    rw [skipped]

end Statements

/-- The rule of statements reads the sentences of the grammar. -/
theorem statement_reads (room : Nat) : ReadsSentences room (Tree.statement room) := by
  induction room with
  | zero => exact statementOver_reads (expression_reads 0) rfl
  | succ room ih => exact statementOver_reads (expression_reads (room + 1)) ⟨room, rfl, ih⟩

/-! ## Programs -/

theorem resume_eq_ok {α : Type} {parser : Parser} {read : Parsed α} {value : α} :
    (parser.resume read).1 = .ok value ↔ ∃ rest, read = .ok (value, rest) := by
  unfold Parser.resume
  split <;> simp

/-- Reading a program from its tokens is deriving it. -/
theorem sequence_eq_ok_iff {room : Nat} {ts : List Token} {body : List Statement} :
    (∃ rest, Tree.sequence (Tree.statement room) (fun _ => false) ts = .ok (body, rest)) ↔
      BodyFits room ts body := by
  constructor
  · rintro ⟨rest, h⟩
    obtain ⟨read, rfl, fits, last⟩ := sequence_sound (statement_reads room) h
    cases rest with
    | nil => rwa [List.append_nil]
    | cons t _ => exact absurd (last t rfl) Bool.false_ne_true
  · intro fits
    have run : Tree.sequence (Tree.statement room) (fun _ => false) (ts ++ []) = .ok (body, []) :=
      sequence_complete (statement_reads room) (fun _ never => absurd never Bool.false_ne_true)
        fits (by simp)
    rw [List.append_nil] at run
    exact ⟨[], run⟩

theorem spells_of_parse {tokens : List Token} {tree : Tree} (h : parse tokens = .ok tree) :
    Spells tokens tree := by
  obtain ⟨rest, h⟩ := resume_eq_ok.mp h
  obtain ⟨body, middle, run, done⟩ := Parsed.andThen_eq_ok.mp h
  cases done
  have fits := sequence_eq_ok_iff.mp ⟨_, run⟩
  exact ⟨fits.spelled, fits.groups, fits.low⟩

theorem parse_of_spells {tokens : List Token} {tree : Tree} (h : Spells tokens tree) :
    parse tokens = .ok tree := by
  obtain ⟨rest, run⟩ := sequence_eq_ok_iff.mpr ⟨h.body, h.low, h.groups⟩
  exact resume_eq_ok.mpr ⟨rest, Parsed.andThen_eq_ok.mpr ⟨_, _, run, rfl⟩⟩

/-- The parser returns a program where the grammar derives it from the tokens, and there
only. So no list of tokens spells two programs. -/
theorem parse_eq_ok_iff_spells (tokens : List Token) :
    (∀ tree, parse tokens = .ok tree ↔ Spells tokens tree) ∧
      ∀ tree other, Spells tokens tree → Spells tokens other → tree = other := by
  refine ⟨fun tree => ⟨spells_of_parse, parse_of_spells⟩, ?_⟩
  intro tree other h h'
  have same := (parse_of_spells h).symm.trans (parse_of_spells h')
  exact Except.ok.inj same

end KindScript.Grammar
