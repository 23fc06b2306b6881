import KindScript.Tree
import KindScript.Tree.Literal
import KindScript.Tree.ParseError

/-!
# The grammar of the language

Which lists of tokens spell which programs, as derivations and not as a way of
reading. The operators are left-recursive productions over six tiers. A program
is a run of sentences with at most one semicolon after each; a sentence that ends
in an expression reaches as far as it can. The bounds on groups and on heights
are conditions on the tokens and on the tree, and no part of a derivation.
-/

namespace KindScript.Grammar

/-! ## Expressions -/

/-- The tiers of expressions, the loosest first. -/
inductive Tier where
  | joint
  | comparison
  | negation
  | sum
  | product
  | primary
deriving DecidableEq, Repr

namespace Tier

/-- The tier of the operands. -/
def next : Tier → Tier
  | joint => comparison
  | comparison => negation
  | negation => sum
  | sum => product
  | product => primary
  | primary => primary

/-- The place in the order of the tiers. -/
def rank : Tier → Nat
  | joint => 0
  | comparison => 1
  | negation => 2
  | sum => 3
  | product => 4
  | primary => 5

/-- The operators of the tier stand between two operands. -/
def IsBinary (tier : Tier) : Prop :=
  tier = joint ∨ tier = comparison ∨ tier = sum ∨ tier = product

end Tier

/-- The tokens that stand between two operands of a tier, and what they build. Of the
joint operators `&&` and `and` are conjunctions and the others, `||` and `or`, are
disjunctions. `is` is an identifier that compares. -/
inductive Operator : Tier → Token → (Expression → Expression → Expression) → Prop where
  | conjunction {t : Token} (kind : t.kind = .jointOperator)
      (text : t.text = "&&" ∨ t.text = "and") :
    Operator .joint t (.joint .and)
  | disjunction {t : Token} (kind : t.kind = .jointOperator)
    (text : ¬ (t.text = "&&" ∨ t.text = "and")) : Operator .joint t (.joint .or)
  | comparison {t : Token} {op : CompareOp} (kind : t.kind = .compareOperator)
    (text : t.text = op.symbol) (sign : op ≠ .is) : Operator .comparison t (.comparison op)
  | is {t : Token} (kind : t.kind = .identifier) (text : t.text = "is") :
    Operator .comparison t (.comparison .is)
  | additive {t : Token} {op : ArithmeticOp} (kind : t.kind = .binaryOperator)
    (text : t.text = op.symbol) (sign : op = .add ∨ op = .subtract) : Operator .sum t (.binary op)
  | multiplicative {t : Token} {op : ArithmeticOp} (kind : t.kind = .binaryOperator)
    (text : t.text = op.symbol) (sign : op = .multiply ∨ op = .divide ∨ op = .remainder) :
    Operator .product t (.binary op)

/-- The kinds of number that take a sign into their literal. -/
def Signed (kind : Token.Kind) : Prop :=
  kind = .integer ∨ kind = .float ∨ kind = .long ∨ kind = .double

/-- `Phrase tier ts e`: the tokens spell the expression in the tier. -/
inductive Phrase : Tier → List Token → Expression → Prop where
  | tighter {tier : Tier} {ts : List Token} {e : Expression} (loose : tier ≠ .primary)
    (inner : Phrase tier.next ts e) : Phrase tier ts e
  | operation {tier : Tier} {t : Token} {build : Expression → Expression → Expression}
    {ls rs : List Token} {l r : Expression} (op : Operator tier t build) (left : Phrase tier ls l)
    (right : Phrase tier.next rs r) : Phrase tier (ls ++ t :: rs) (build l r)
  | negation {t : Token} {ts : List Token} {e : Expression} (kind : t.kind = .notOperator)
    (operand : Phrase .sum ts e) : Phrase .negation (t :: ts) (.not e)
  | group {o c : Token} {ts : List Token} {e : Expression} (opening : o.kind = .openParen)
    (inner : Phrase .joint ts e) (closing : c.kind = .closeParen) :
    Phrase .primary (o :: (ts ++ [c])) e
  | name {t : Token} (kind : t.kind = .identifier) : Phrase .primary [t] (.identifier t.text)
  | null {t : Token} (kind : t.kind = .null) : Phrase .primary [t] (.literal .null)
  | boolean {t : Token} (kind : t.kind = .boolean) :
    Phrase .primary [t] (.literal (.boolean (t.text = "true")))
  | string {t : Token} (kind : t.kind = .string) : Phrase .primary [t] (.literal (.string t.text))
  | char {t : Token} {c : Char} (kind : t.kind = .char) (text : t.text.toList = [c]) :
    Phrase .primary [t] (.literal (.number (.char c)))
  | number {t : Token} {n : Number} (value : Number.ofToken? t.kind t.text = some n) :
    Phrase .primary [t] (.literal (.number n))
  | plus {s t : Token} {n : Number} (sign : s.kind = .binaryOperator) (text : s.text = "+")
    (kind : Signed t.kind) (value : Number.ofToken? t.kind t.text = some n) :
    Phrase .primary [s, t] (.literal (.number n))
  | minus {s t : Token} {n : Number} (sign : s.kind = .binaryOperator) (text : s.text = "-")
    (kind : Signed t.kind) (value : Number.ofToken? t.kind ("-" ++ t.text) = some n) :
    Phrase .primary [s, t] (.literal (.number n))

/-! ## Statements -/

/-- The tokens do not go on with an expression of the tier that ends before them. -/
def Stops (tier : Tier) (ts : List Token) : Prop :=
  ∀ t ∈ ts.head?, ∀ other build, tier.rank ≤ other.rank → ¬ Operator other t build

/-- The tokens that stand after the name in an assignment. -/
def Assigns (t : Token) : Prop :=
  t.kind = .equalsOperator ∨ t.kind = .assignmentOperator

/-- The end of a sentence: one semicolon or none. -/
def Terminator (ts : List Token) : Prop :=
  ts = [] ∨ ∃ t, t.kind = .semicolon ∧ ts = [t]

mutual

/-- `Sentence reaches ts s`: the tokens spell the statement, without the semicolon after
it. `reaches` says whether it ends in an expression. -/
inductive Sentence : (reaches : Bool) → List Token → Statement → Prop where
  | declaration {v n : Token} (keyword : v.kind = .var) (name : n.kind = .identifier) :
    Sentence false [v, n] (.declare n.text false none)
  | initialized {v n q : Token} {ts : List Token} {e : Expression} (keyword : v.kind = .var)
    (name : n.kind = .identifier) (sign : q.kind = .equalsOperator) (value : Phrase .joint ts e) :
    Sentence true (v :: n :: q :: ts) (.declare n.text false (some e))
  | constant {v n q : Token} {ts : List Token} {e : Expression} (keyword : v.kind = .const)
    (name : n.kind = .identifier) (sign : q.kind = .equalsOperator) (value : Phrase .joint ts e) :
    Sentence true (v :: n :: q :: ts) (.declare n.text true (some e))
  | assignment {n q : Token} {ts : List Token} {e : Expression} (name : n.kind = .identifier)
    (sign : Assigns q) (text : q.text = "=") (value : Phrase .joint ts e) :
    Sentence true (n :: q :: ts) (.assign n.text none e)
  | compound {n q : Token} {ts : List Token} {e : Expression} {op : ArithmeticOp}
    (name : n.kind = .identifier) (sign : Assigns q) (text : q.text = op.symbol ++ "=")
    (value : Phrase .joint ts e) : Sentence true (n :: q :: ts) (.assign n.text (some op) e)
  | increment {n q : Token} (name : n.kind = .identifier) (sign : Assigns q)
    (text : q.text = "++") :
    Sentence false [n, q] (.assign n.text (some .add) (.literal (.number (.integer 1))))
  | decrement {n q : Token} (name : n.kind = .identifier) (sign : Assigns q)
    (text : q.text = "--") :
    Sentence false [n, q] (.assign n.text (some .subtract) (.literal (.number (.integer 1))))
  | expression {ts : List Token} {e : Expression} (value : Phrase .joint ts e) :
    Sentence true ts (.expression e)
  | block {o c : Token} {ts : List Token} {body : List Statement} (opening : o.kind = .openBrace)
    (inner : Body ts body) (closing : c.kind = .closeBrace) :
    Sentence false (o :: (ts ++ [c])) (.block body)

/-- `Body ts body`: the tokens spell the statements. An expression without a semicolon
after it goes on as far as it can. -/
inductive Body : List Token → List Statement → Prop where
  | nil : Body [] []
  | cons {reaches : Bool} {ts semicolon rest : List Token} {s : Statement} {more : List Statement}
    (first : Sentence reaches ts s) (terminator : Terminator semicolon)
    (longest : semicolon = [] → reaches = true → Stops .joint rest) (later : Body rest more) :
    Body (ts ++ (semicolon ++ rest)) (s :: more)

end

/-! ## Bounds -/

/-- The groups that are open after a token, with those open before it. -/
def openAfter (count : Nat) (t : Token) : Nat :=
  match t.kind with
  | .openParen | .openBrace => count + 1
  | .closeParen | .closeBrace => count - 1
  | _ => count

/-- The most parentheses and blocks open at once in a list of tokens, with those open
before it. -/
def mostOpen (count : Nat) : List Token → Nat
  | [] => count
  | t :: ts => max count (mostOpen (openAfter count t) ts)

/-- The expression that a statement holds itself. -/
def value? : Statement → Option Expression
  | .block _ => none
  | .declare _ _ value => value
  | .assign _ _ value => some value
  | .expression value => some value

mutual

/-- A statement with those inside it. -/
def within : Statement → List Statement
  | .block body => .block body :: withinAll body
  | s => [s]

/-- Statements with those inside them. -/
def withinAll : List Statement → List Statement
  | [] => []
  | s :: more => within s ++ withinAll more

end

/-- The statements and all those inside them have a property. -/
def Everywhere (P : Statement → Prop) (body : List Statement) : Prop :=
  ∀ s ∈ withinAll body, P s

/-- The statement's own expression is not higher than allowed. -/
def IsLow (s : Statement) : Prop :=
  ∀ e ∈ value? s, e.height ≤ Tree.maxHeight

/-- The tokens before the first end mark spell the program, and the program keeps to the
bounds on groups and heights. -/
structure Spells (tokens : List Token) (tree : Tree) : Prop where
  body : Body (tokens.takeWhile (·.kind ≠ .endOfFile)) tree.body
  groups : mostOpen 0 (tokens.takeWhile (·.kind ≠ .endOfFile)) ≤ Tree.maxGroups
  low : Everywhere IsLow tree.body

/-! ## Operators -/

namespace Operator

variable {tier other : Tier} {t : Token} {build build' : Expression → Expression → Expression}

theorem isBinary (op : Operator tier t build) : tier.IsBinary := by
  unfold Tier.IsBinary
  cases op <;> simp

/-- An operator is one more than the higher operand. -/
theorem height_eq (op : Operator tier t build) (l r : Expression) :
    (build l r).height = max l.height r.height + 1 := by
  cases op <;> rfl

theorem kind_mem (op : Operator tier t build) :
    t.kind ∈ [Token.Kind.jointOperator, .compareOperator, .identifier, .binaryOperator] := by
  cases op <;> simp [*]

/-- The tier in which a token can be an operator. -/
private def wordTier (t : Token) : Tier :=
  if t.kind = .jointOperator then .joint
  else if t.kind = .binaryOperator then
    if t.text = "+" ∨ t.text = "-" then .sum else .product
  else .comparison

private theorem wordTier_eq (op : Operator tier t build) : wordTier t = tier := by
  unfold wordTier
  cases op with
  | conjunction kind | disjunction kind => rw [if_pos kind]
  | comparison kind | is kind => simp [kind]
  | additive kind text sign => rcases sign with rfl | rfl <;> simp [kind, text, ArithmeticOp.symbol]
  | multiplicative kind text sign =>
    rcases sign with rfl | rfl | rfl <;> simp [kind, text, ArithmeticOp.symbol]

/-- A token is an operator of at most one tier. -/
theorem tier_unique (op : Operator tier t build) (op' : Operator other t build') :
    tier = other :=
  op.wordTier_eq.symm.trans op'.wordTier_eq

theorem stops_of_lt (op : Operator tier t build) (lt : tier.rank < other.rank) (ts : List Token) :
    Stops other (t :: ts) := by
  intro u hu third build' le op'
  obtain rfl : t = u := by simpa using hu
  have h := op.tier_unique op'
  subst h
  omega

end Operator

theorem Stops.mono {tier other : Tier} {ts : List Token} (h : Stops tier ts)
    (le : tier.rank ≤ other.rank) : Stops other ts :=
  fun t ht third build le' => h t ht third build (Nat.le_trans le le')

theorem Stops.nil {tier : Tier} : Stops tier [] := by
  intro t ht
  simp at ht

theorem Stops.of_kind {tier : Tier} {t : Token} {ts : List Token}
    (h : t.kind ∉ [Token.Kind.jointOperator, .compareOperator, .identifier, .binaryOperator]) :
    Stops tier (t :: ts) := by
  intro u hu other build _ op
  obtain rfl : t = u := by simpa using hu
  exact h op.kind_mem

/-- Only the first token decides. -/
theorem Stops.append {tier : Tier} {ts us : List Token} (h : Stops tier ts)
    (later : ts = [] → Stops tier us) : Stops tier (ts ++ us) := by
  cases ts with
  | nil => exact later rfl
  | cons t ts => exact h

theorem Stops.of_append {tier : Tier} {ts us : List Token} (h : Stops tier (ts ++ us)) :
    Stops tier ts := by
  cases ts with
  | nil => exact .nil
  | cons t ts => exact h

theorem Tier.rank_le_next (tier : Tier) : tier.rank ≤ tier.next.rank := by
  cases tier <;> decide

theorem Tier.IsBinary.ne_primary {tier : Tier} (h : tier.IsBinary) : tier ≠ .primary := by
  rcases h with rfl | rfl | rfl | rfl <;> decide

theorem Tier.IsBinary.rank_lt_next {tier : Tier} (h : tier.IsBinary) :
    tier.rank < tier.next.rank := by
  rcases h with rfl | rfl | rfl | rfl <;> decide

theorem Tier.eq_or_rank_next_le {tier other : Tier} (h : tier.rank ≤ other.rank) :
    tier = other ∨ tier.next.rank ≤ other.rank := by
  cases tier <;> cases other <;>
    first | exact .inl rfl | exact .inr (by decide) | cases h <;> contradiction

/-- Where the operands stop and no operator of the tier follows, the tier stops. -/
theorem Stops.of_next {tier : Tier} {ts : List Token} (h : Stops tier.next ts)
    (none : ∀ t ∈ ts.head?, ∀ build, ¬ Operator tier t build) : Stops tier ts := by
  intro t ht other build le
  rcases Tier.eq_or_rank_next_le le with rfl | le'
  · exact none t ht build
  · exact h t ht other build le'

/-- The kinds of the tokens of an expression. -/
def expressionKinds : List Token.Kind :=
  [.openParen, .closeParen, .identifier, .null, .boolean, .string, .char, .byte, .integer, .float,
   .long, .double, .binaryOperator, .compareOperator, .jointOperator, .notOperator]

theorem numberKind_of_ofToken? {kind : Token.Kind} {text : String} {n : Number}
    (h : Number.ofToken? kind text = some n) :
    kind ∈ [Token.Kind.byte, .integer, .long, .float, .double] := by
  unfold Number.ofToken? at h
  split at h
  all_goals first | decide | cases h

/-- A phrase has tokens, and all are of the kinds of expressions. -/
theorem Phrase.kinds {tier : Tier} {ts : List Token} {e : Expression} (h : Phrase tier ts e) :
    ts ≠ [] ∧ ∀ t ∈ ts, t.kind ∈ expressionKinds := by
  have joined (ls rs : List Token) {t : Token} (hl : ∀ u ∈ ls, u.kind ∈ expressionKinds)
      (ht : t.kind ∈ expressionKinds) (hr : ∀ u ∈ rs, u.kind ∈ expressionKinds) :
      ∀ u ∈ ls ++ t :: rs, u.kind ∈ expressionKinds := by
    intro u hu
    rcases List.mem_append.mp hu with hu | hu
    · exact hl u hu
    · rcases List.mem_cons.mp hu with rfl | hu
      · exact ht
      · exact hr u hu
  induction h with
  | tighter _ _ ih => exact ih
  | operation op _ _ ihl ihr =>
    refine ⟨by simp, joined _ _ ihl.2 ?_ ihr.2⟩
    have hk := op.kind_mem
    simp only [List.mem_cons, List.not_mem_nil, or_false] at hk
    rcases hk with hk | hk | hk | hk <;> rw [hk] <;> decide
  | negation kind _ ih => exact ⟨by simp, joined [] _ (by simp) (by rw [kind]; decide) ih.2⟩
  | group opening _ closing ih =>
    refine ⟨by simp, ?_⟩
    have hi := joined _ [] ih.2 (by rw [closing]; decide) (by simp)
    exact joined [] _ (by simp) (by rw [opening]; decide) hi
  | name kind | null kind | boolean kind | string kind | char kind =>
    exact ⟨by simp, by simp [kind, expressionKinds]⟩
  | number value =>
    refine ⟨by simp, ?_⟩
    have hk := numberKind_of_ofToken? value
    simp only [List.mem_cons, List.not_mem_nil, or_false] at hk
    rcases hk with hk | hk | hk | hk | hk <;> simp [hk, expressionKinds]
  | plus sign _ kind | minus sign _ kind =>
    refine ⟨by simp, ?_⟩
    rcases kind with kind | kind | kind | kind <;> simp [sign, kind, expressionKinds]

/-- A negation stands only at the begin of its tier and of looser ones. -/
theorem Phrase.head_ne_not {tier : Tier} {ts : List Token} {e : Expression}
    (h : Phrase tier ts e) (close : Tier.negation.rank < tier.rank) :
    ∀ t ∈ ts.head?, t.kind ≠ .notOperator := by
  induction h with
  | @tighter tier _ _ _ _ ih => exact ih (Nat.lt_of_lt_of_le close tier.rank_le_next)
  | operation _ left _ ih =>
    intro t ht
    obtain ⟨u, us, rfl⟩ := List.exists_cons_of_ne_nil left.kinds.1
    exact ih close t ht
  | negation => exact absurd close (Nat.lt_irrefl _)
  | group kind | name kind | null kind | boolean kind | string kind | char kind
  | plus kind | minus kind =>
    intro t ht
    cases ht
    rw [kind]
    decide
  | number value =>
    intro t ht
    cases ht
    have hk := numberKind_of_ofToken? value
    intro kind
    rw [kind] at hk
    exact absurd hk (by decide)

/-- Derivations in a tier of binary operators, by the operators at its own level. -/
theorem Phrase.chain_induction {tier : Tier} (binary : tier.IsBinary)
    {motive : List Token → Expression → Prop}
    (first : ∀ {ts e}, Phrase tier.next ts e → motive ts e)
    (more : ∀ {t build ls rs l r}, Operator tier t build → Phrase tier ls l → motive ls l →
      Phrase tier.next rs r → motive (ls ++ t :: rs) (build l r))
    {ts : List Token} {e : Expression} (h : Phrase tier ts e) : motive ts e := by
  have excluded : tier ≠ .negation ∧ tier ≠ .primary := by
    rcases binary with rfl | rfl | rfl | rfl <;> decide
  induction h with
  | tighter _ inner => exact first inner
  | operation op left right ih => exact more op left (ih binary first more excluded) right
  | negation => exact absurd rfl excluded.1
  | _ => exact absurd rfl excluded.2

/-! ## Groups -/

/-- The kinds of the tokens that open and close groups. -/
def groupKinds : List Token.Kind :=
  [.openParen, .closeParen, .openBrace, .closeBrace]

/-- All groups that the tokens open they also close, and `depth` of them at most are open
at once. -/
def Nests (ts : List Token) (depth : Nat) : Prop :=
  ∀ count, ts.foldl openAfter count = count ∧ mostOpen count ts = count + depth

theorem le_mostOpen (count : Nat) (ts : List Token) : count ≤ mostOpen count ts := by
  cases ts with
  | nil => exact Nat.le_refl _
  | cons t ts => exact Nat.le_max_left _ _

theorem mostOpen_append (count : Nat) (ts us : List Token) :
    mostOpen count (ts ++ us) =
      max (mostOpen count ts) (mostOpen (ts.foldl openAfter count) us) := by
  induction ts generalizing count with
  | nil => exact (Nat.max_eq_right (le_mostOpen count us)).symm
  | cons t ts ih =>
    simp only [List.cons_append, mostOpen, List.foldl_cons]
    rw [ih, Nat.max_assoc]

namespace Nests

variable {ts us : List Token} {d d' : Nat}

theorem mostOpen_eq (h : Nests ts d) : mostOpen 0 ts = d := by
  rw [(h 0).2, Nat.zero_add]

theorem nil : Nests [] 0 := fun _ => ⟨rfl, rfl⟩

theorem append (h : Nests ts d) (h' : Nests us d') : Nests (ts ++ us) (max d d') := by
  intro count
  rw [List.foldl_append, mostOpen_append, (h count).1, (h count).2, (h' count).1, (h' count).2]
  exact ⟨rfl, Nat.add_max_add_left _ _ _⟩

theorem single {t : Token}
    (h : t.kind ∉ groupKinds) : Nests [t] 0 := by
  have plain (count : Nat) : openAfter count t = count := by
    unfold openAfter
    split <;> simp_all [groupKinds]
  intro count
  simp [mostOpen, plain]

theorem cons {t : Token}
    (h : t.kind ∉ groupKinds) (h' : Nests ts d) :
    Nests (t :: ts) d := by
  simpa using (single h).append h'

/-- Tokens in parentheses or braces nest one group deeper. -/
theorem group {o c : Token} (opening : o.kind = .openParen ∨ o.kind = .openBrace)
    (closing : c.kind = .closeParen ∨ c.kind = .closeBrace) (h : Nests ts d) :
    Nests (o :: (ts ++ [c])) (d + 1) := by
  have opens (count : Nat) : openAfter count o = count + 1 := by
    rcases opening with ho | ho <;> simp [openAfter, ho]
  have closes (count : Nat) : openAfter (count + 1) c = count := by
    rcases closing with hc | hc <;> simp [openAfter, hc]
  intro count
  rw [List.foldl_cons, List.foldl_append, mostOpen, opens, mostOpen_append, (h _).1, (h _).2]
  simp only [List.foldl_cons, List.foldl_nil, closes, mostOpen, true_and]
  omega

end Nests

theorem Operator.not_group {tier : Tier} {t : Token}
    {build : Expression → Expression → Expression} (op : Operator tier t build) :
    t.kind ∉ groupKinds := by
  have hk := op.kind_mem
  simp only [List.mem_cons, List.not_mem_nil, or_false] at hk
  rcases hk with hk | hk | hk | hk <;> rw [hk] <;> decide

theorem Signed.not_group {kind : Token.Kind} (h : Signed kind) : kind ∉ groupKinds := by
  rcases h with hk | hk | hk | hk <;> rw [hk] <;> decide

theorem Operator.nests {tier : Tier} {t : Token} {build : Expression → Expression → Expression}
    {ls rs : List Token} {d d' : Nat} (op : Operator tier t build) (left : Nests ls d)
    (right : Nests rs d') : Nests (ls ++ t :: rs) (max d d') :=
  left.append (right.cons op.not_group)

theorem Signed.nests {s t : Token} (sign : s.kind = .binaryOperator) (kind : Signed t.kind) :
    Nests [s, t] 0 :=
  .cons (by rw [sign]; decide) (.single kind.not_group)

theorem Phrase.nests {tier : Tier} {ts : List Token} {e : Expression} (h : Phrase tier ts e) :
    ∃ d, Nests ts d := by
  induction h with
  | tighter _ _ ih => exact ih
  | operation op _ _ ihl ihr =>
    obtain ⟨dl, hl⟩ := ihl
    obtain ⟨dr, hr⟩ := ihr
    exact ⟨_, op.nests hl hr⟩
  | negation kind _ ih =>
    obtain ⟨d, h⟩ := ih
    exact ⟨d, h.cons (by rw [kind]; decide)⟩
  | group opening _ closing ih =>
    obtain ⟨d, h⟩ := ih
    exact ⟨_, h.group (.inl opening) (.inl closing)⟩
  | name kind | null kind | boolean kind | string kind | char kind =>
    exact ⟨0, .single (by rw [kind]; decide)⟩
  | number value =>
    refine ⟨0, .single ?_⟩
    have hk := numberKind_of_ofToken? value
    simp only [List.mem_cons, List.not_mem_nil, or_false] at hk
    rcases hk with hk | hk | hk | hk | hk <;> rw [hk] <;> decide
  | plus sign _ kind | minus sign _ kind => exact ⟨0, Signed.nests sign kind⟩

/-! ## Sentences -/

/-- The kinds of the first tokens of sentences. -/
def startKinds : List Token.Kind :=
  .var :: .const :: .openBrace :: expressionKinds

theorem Sentence.head {reaches : Bool} {ts : List Token} {s : Statement}
    (h : Sentence reaches ts s) : ∃ t more, ts = t :: more ∧ t.kind ∈ startKinds := by
  cases h with
  | declaration keyword | initialized keyword | constant keyword | block keyword =>
    exact ⟨_, _, rfl, by rw [keyword]; decide⟩
  | assignment name | compound name | increment name | decrement name =>
    exact ⟨_, _, rfl, by rw [name]; decide⟩
  | expression value =>
    obtain ⟨t, more, rfl⟩ := List.exists_cons_of_ne_nil value.kinds.1
    have hk := value.kinds.2 t (by simp)
    exact ⟨t, more, rfl, by simp [startKinds, hk]⟩

theorem Body.head {ts : List Token} {body : List Statement} (h : Body ts body) :
    ∀ t ∈ ts.head?, t.kind ∈ startKinds := by
  intro t ht
  cases h with
  | nil => cases ht
  | cons first =>
    obtain ⟨u, more, rfl, hk⟩ := first.head
    cases ht
    exact hk

theorem Assigns.plain {t : Token} (h : Assigns t) :
    t.kind ∉ groupKinds := by
  rcases h with h | h <;> rw [h] <;> decide

theorem Assigns.not_end {t : Token} (h : Assigns t) : t.kind ≠ .endOfFile := by
  rcases h with h | h <;> rw [h] <;> decide

theorem Phrase.not_end {tier : Tier} {ts : List Token} {e : Expression} (h : Phrase tier ts e) :
    ∀ t ∈ ts, t.kind ≠ .endOfFile := by
  intro t ht kind
  have hk := h.kinds.2 t ht
  rw [kind] at hk
  exact absurd hk (by decide)

theorem Terminator.nests {ts : List Token} (h : Terminator ts) : Nests ts 0 := by
  rcases h with rfl | ⟨t, kind, rfl⟩
  · exact .nil
  · exact .single (by rw [kind]; decide)

/-- What stands before the value of an assignment is no group. -/
theorem Assigns.nests {n q : Token} (sign : Assigns q) (name : n.kind = .identifier) :
    Nests [n, q] 0 :=
  .cons (by rw [name]; decide) (.single sign.plain)

/-- What stands before the value of a declaration is no group. -/
theorem Assigns.nests_declared {v n q : Token} (sign : Assigns q) (name : n.kind = .identifier)
    (keyword : v.kind = .var ∨ v.kind = .const) : Nests [v, n, q] 0 := by
  refine (sign.nests name).cons ?_
  rcases keyword with kind | kind <;> rw [kind] <;> decide

mutual

theorem Sentence.nests {reaches : Bool} {ts : List Token} {s : Statement}
    (h : Sentence reaches ts s) : ∃ d, Nests ts d := by
  match h with
  | .declaration keyword name =>
    exact ⟨0, .cons (by rw [keyword]; decide) (.single (by rw [name]; decide))⟩
  | .initialized keyword name sign value | .constant keyword name sign value =>
    obtain ⟨d, hd⟩ := value.nests
    exact ⟨_, (Assigns.nests_declared (.inl sign) name (by simp [keyword])).append hd⟩
  | .assignment name sign _ value | .compound name sign _ value =>
    obtain ⟨d, hd⟩ := value.nests
    exact ⟨_, (sign.nests name).append hd⟩
  | .increment name sign _ | .decrement name sign _ => exact ⟨0, sign.nests name⟩
  | .expression value => exact value.nests
  | .block opening inner closing =>
    obtain ⟨d, hd⟩ := inner.nests
    exact ⟨d + 1, hd.group (.inr opening) (.inr closing)⟩

theorem Body.nests {ts : List Token} {body : List Statement} (h : Body ts body) :
    ∃ d, Nests ts d := by
  match h with
  | .nil => exact ⟨0, .nil⟩
  | .cons first terminator _ later =>
    obtain ⟨d, hd⟩ := first.nests
    obtain ⟨d', hd'⟩ := later.nests
    exact ⟨_, hd.append (terminator.nests.append hd')⟩

end

mutual

theorem Sentence.not_end {reaches : Bool} {ts : List Token} {s : Statement}
    (h : Sentence reaches ts s) : ∀ t ∈ ts, t.kind ≠ .endOfFile := by
  match h with
  | .declaration keyword name => simp [keyword, name]
  | .initialized keyword name sign value | .constant keyword name sign value =>
    simpa [keyword, name, sign] using value.not_end
  | .assignment name sign _ value | .compound name sign _ value =>
    simpa [name, sign.not_end] using value.not_end
  | .increment name sign _ | .decrement name sign _ => simp [name, sign.not_end]
  | .expression value => exact value.not_end
  | .block opening inner closing =>
    simpa [opening, closing, or_imp, forall_and] using inner.not_end

theorem Body.not_end {ts : List Token} {body : List Statement} (h : Body ts body) :
    ∀ t ∈ ts, t.kind ≠ .endOfFile := by
  match h with
  | .nil => simp
  | .cons first terminator _ later =>
    intro t ht
    simp only [List.mem_append] at ht
    rcases ht with ht | ht | ht
    · exact first.not_end t ht
    · rcases terminator with rfl | ⟨u, kind, rfl⟩
      · cases ht
      · obtain rfl : t = u := by simpa using ht
        rw [kind]
        decide
    · exact later.not_end t ht

end

namespace Everywhere

variable {P : Statement → Prop}

theorem nil : Everywhere P [] := by
  simp [Everywhere, withinAll]

theorem cons_iff {s : Statement} {more : List Statement} :
    Everywhere P (s :: more) ↔ Everywhere P [s] ∧ Everywhere P more := by
  simp [Everywhere, withinAll, or_imp, forall_and]

theorem block_iff {body : List Statement} :
    Everywhere P [.block body] ↔ P (.block body) ∧ Everywhere P body := by
  simp [Everywhere, withinAll, within]

/-- A statement that is no block has no others inside. -/
theorem single_iff {s : Statement} (flat : within s = [s]) : Everywhere P [s] ↔ P s := by
  simp [Everywhere, withinAll, flat]

end Everywhere

theorem isLow_iff {s : Statement} {e : Expression} (holds : value? s = some e) :
    IsLow s ↔ e.height ≤ Tree.maxHeight := by
  simp [IsLow, holds]

theorem isLow_of_none {s : Statement} (none : value? s = none) : IsLow s := by
  simp [IsLow, none]

end KindScript.Grammar
