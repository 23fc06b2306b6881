import KindScript.Proofs.Parsing.Recognition
import Mathlib.Data.List.TakeWhile

/-!
# Rendering trees as tokens

A tree is written with parentheses only where an operand is of a looser tier than
its place, and with a semicolon after every statement. Parsing gives the tree back,
and no other tokens that spell it have fewer groups open at once. How the digits of
a floating-point literal are written is a parameter; all that is asked of it is that
the text reads back.
-/

namespace KindScript.Grammar

open KindScript.Tree

/-! ## Literals -/

/-- A token at no place in particular. -/
def word (kind : Token.Kind) (text : String) : Token :=
  ⟨kind, text, .first, .first⟩

def numberKind : Number → Token.Kind
  | .byte _ => .byte
  | .integer _ => .integer
  | .float _ => .float
  | .long _ => .long
  | .double _ => .double
  | .char _ => .char

/-- The sign bit of a floating-point number. -/
def hasMinus {f : Format} : Binary f → Bool
  | .nan => false
  | .infinity negative => negative
  | .finite negative _ _ => negative

/-- The literal of the number begins with a minus. -/
def negative : Number → Bool
  | .integer v => v.toInt < 0
  | .long v => v.toInt < 0
  | .float x => hasMinus x
  | .double x => hasMinus x
  | _ => false

/-- The text of a number without its sign. -/
def magnitude (write : Number → String) : Number → String
  | .byte v => v.toNat.repr
  | .integer v => v.toInt.natAbs.repr
  | .long v => v.toInt.natAbs.repr
  | .char c => c.toString
  | n => write n

def renderNumber (write : Number → String) (n : Number) : List Token :=
  if negative n then [word .binaryOperator "-", word (numberKind n) (magnitude write n)]
  else [word (numberKind n) (magnitude write n)]

def renderLiteral (write : Number → String) : Value → List Token
  | .null => [word .null "null"]
  | .boolean b => [word .boolean (if b then "true" else "false")]
  | .string s => [word .string s]
  | .number n => renderNumber write n

/-- The text of a number with its sign. -/
def numberText (write : Number → String) (n : Number) : String :=
  if negative n then "-" ++ magnitude write n else magnitude write n

/-- The text of a number spells the number. -/
def ReadsBack (write : Number → String) (n : Number) : Prop :=
  Number.ofToken? (numberKind n) (numberText write n) = some n

/-! ## Expressions -/

def arithmeticTier (op : ArithmeticOp) : Tier :=
  if op.isMultiplicative then .product else .sum

/-- The tightest tier in which the expression stands without parentheses. -/
def tierOf : Expression → Tier
  | .literal _ => .primary
  | .identifier _ => .primary
  | .binary op _ _ => arithmeticTier op
  | .comparison _ _ _ => .comparison
  | .joint _ _ _ => .joint
  | .not _ => .negation

/-- The tokens of an operand of a given tier at a place that asks for another one. -/
def placed (place tier : Tier) (ts : List Token) : List Token :=
  if tier.rank < place.rank then word .openParen "(" :: (ts ++ [word .closeParen ")"]) else ts

theorem placed_self (tier : Tier) (ts : List Token) : placed tier tier ts = ts :=
  if_neg (Nat.lt_irrefl _)

def comparisonWord (op : CompareOp) : Token :=
  word (if op = .is then .identifier else .compareOperator) op.symbol

def renderExpression (write : Number → String) : Expression → List Token
  | .literal v => renderLiteral write v
  | .identifier name => [word .identifier name]
  | .binary op l r =>
    placed (arithmeticTier op) (tierOf l) (renderExpression write l) ++
      word .binaryOperator op.symbol ::
      placed (arithmeticTier op).next (tierOf r) (renderExpression write r)
  | .comparison op l r =>
    placed .comparison (tierOf l) (renderExpression write l) ++
      comparisonWord op :: placed .negation (tierOf r) (renderExpression write r)
  | .joint op l r =>
    placed .joint (tierOf l) (renderExpression write l) ++
      word .jointOperator op.symbol :: placed .comparison (tierOf r) (renderExpression write r)
  | .not e => word .notOperator "!" :: placed .sum (tierOf e) (renderExpression write e)

/-! ## Statements -/

mutual

def renderStatement (write : Number → String) : Statement → List Token
  | .block body =>
    word .openBrace "\x7b" ::
      (renderBody write body ++ [word .closeBrace "\x7d", word .semicolon ";"])
  | .declare name constant value =>
    word (if constant then .const else .var) (if constant then "const" else "var") ::
      word .identifier name ::
      (value.elim [] (fun e => word .equalsOperator "=" :: renderExpression write e) ++
        [word .semicolon ";"])
  | .assign name op value =>
    word .identifier name ::
      op.elim (word .equalsOperator "=") (fun op => word .assignmentOperator (op.symbol ++ "=")) ::
      (renderExpression write value ++ [word .semicolon ";"])
  | .expression value => renderExpression write value ++ [word .semicolon ";"]

def renderBody (write : Number → String) : List Statement → List Token
  | [] => []
  | s :: more => renderStatement write s ++ renderBody write more

end

/-- The tokens of a program. -/
def render (write : Number → String) (tree : Tree) : List Token :=
  renderBody write tree.body

/-- The statement is no constant without a value. -/
def IsInitialized (s : Statement) : Prop :=
  ∀ name, s ≠ .declare name true none

def literals : Expression → List Value
  | .literal v => [v]
  | .identifier _ => []
  | .binary _ l r => literals l ++ literals r
  | .comparison _ l r => literals l ++ literals r
  | .joint _ l r => literals l ++ literals r
  | .not e => literals e

def IsFloating : Number → Prop
  | .float _ => True
  | .double _ => True
  | _ => False

/-- The floating-point literals of an expression are written so that they read back. -/
def Legible (write : Number → String) (e : Expression) : Prop :=
  ∀ n, .number n ∈ literals e → IsFloating n → ReadsBack write n

/-- The floating-point literals of a statement's own expression read back. -/
def IsLegible (write : Number → String) (s : Statement) : Prop :=
  ∀ e ∈ value? s, Legible write e

/-! ## Reading numbers back -/

theorem decimal?_repr (n : Nat) : Text.decimal? n.repr.toList = some n := by
  have digits : ∀ c ∈ Nat.toDigits 10 n, c.isDigit = true :=
    fun c hc => Nat.isDigit_of_mem_toDigits (by decide) (by decide) hc
  have value : Text.decimalValue (Nat.toDigits 10 n) = n := Nat.ofDigitChars_ten_toDigits
  have some_digit : (Nat.toDigits 10 n).isEmpty = false := by simp [Nat.toDigits_ne_nil]
  rw [Nat.toList_repr, Text.decimal?, value, some_digit, List.all_eq_true.mpr digits]
  rfl

theorem decimal?_cons_of_not_digit {c : Char} (sign : c.isDigit = false) (rest : List Char) :
    Text.decimal? (c :: rest) = none := by
  simp [Text.decimal?, sign]

theorem wholeNumber?_of_decimal? {s : List Char} {n : Nat} (h : Text.decimal? s = some n) :
    Text.wholeNumber? s = some (n : Int) := by
  unfold Text.wholeNumber?
  split
  · rw [decimal?_cons_of_not_digit (by decide)] at h
    cases h
  · rw [decimal?_cons_of_not_digit (by decide)] at h
    cases h
  · rw [h]
    rfl

/-- The text of a whole number with its sign. -/
def signedText (z : Int) : String :=
  if z < 0 then "-" ++ z.natAbs.repr else z.natAbs.repr

theorem wholeNumber?_signedText (z : Int) : Text.wholeNumber? (signedText z).toList = some z := by
  have digits := decimal?_repr z.natAbs
  unfold signedText
  split
  · rename_i neg
    have minus : ("-" ++ z.natAbs.repr).toList = '-' :: z.natAbs.repr.toList :=
      String.toList_append
    rw [minus, Text.wholeNumber?, digits]
    change some (-(z.natAbs : Int)) = some z
    congr 1
    omega
  · rename_i pos
    rw [wholeNumber?_of_decimal? digits]
    congr 1
    omega

/-- Whole numbers are written so that they read back, up to the ends of their ranges. -/
theorem readsBack_of_whole (write : Number → String) {n : Number} (whole : ¬ IsFloating n)
    (kind : numberKind n ≠ .char) : ReadsBack write n := by
  cases n with
  | byte v =>
    have digits := decimal?_repr v.toNat
    have small : (v.toNat : Int) < 256 := Int.ofNat_lt.mpr v.toNat_lt
    have text : Number.byteOfText? v.toNat.repr = some v := by
      unfold Number.byteOfText?
      split
      · rename_i rest minus
        rw [minus, decimal?_cons_of_not_digit (by decide)] at digits
        cases digits
      · rw [wholeNumber?_of_decimal? digits, Option.bind_some, if_pos small, Int.toNat_natCast,
          UInt8.ofNat_toNat]
    change (Number.byteOfText? v.toNat.repr).map Number.byte = some (.byte v)
    rw [text, Option.map_some]
  | integer v =>
    have text : numberText write (.integer v) = signedText v.toInt := by
      simp [numberText, signedText, negative, magnitude]
    change (Number.integerOfText? (numberText write (.integer v))).map Number.integer = _
    rw [text, Number.integerOfText?, wholeNumber?_signedText, Option.bind_some,
      if_pos ⟨v.minValue_le_toInt, v.toInt_le⟩, Int32.ofInt_toInt, Option.map_some]
  | long v =>
    have text : numberText write (.long v) = signedText v.toInt := by
      simp [numberText, signedText, negative, magnitude]
    change (Number.longOfText? (numberText write (.long v))).map Number.long = _
    rw [text, Number.longOfText?, wholeNumber?_signedText, Option.bind_some,
      if_pos ⟨v.minValue_le_toInt, v.toInt_le⟩, Int64.ofInt_toInt, Option.map_some]
  | float x => exact absurd trivial whole
  | double x => exact absurd trivial whole
  | char c => exact absurd rfl kind

/-! ## Rendered trees are derived -/

theorem Phrase.loosen {tier other : Tier} {ts : List Token} {e : Expression}
    (h : Phrase tier ts e) (le : other.rank ≤ tier.rank) : Phrase other ts e := by
  by_cases same : other = tier
  · exact same ▸ h
  · have loose : other ≠ .primary := by
      rintro rfl
      cases tier <;> first | exact same rfl | exact absurd le (by decide)
    have le' := (Tier.eq_or_rank_next_le le).resolve_left same
    have lt : other.rank < other.next.rank := by
      cases other <;> first | decide | exact absurd rfl loose
    have bound : other.next.rank ≤ 5 := by
      cases other <;> decide
    exact .tighter loose (h.loosen le')
termination_by 5 - other.rank

/-- An expression stands at every place, in parentheses where its tier is too loose. -/
theorem Phrase.at_place {tier : Tier} {ts : List Token} {e : Expression} (h : Phrase tier ts e)
    (place : Tier) : Phrase place (placed place tier ts) e := by
  unfold placed
  split
  · have group : Phrase .primary (word .openParen "(" :: (ts ++ [word .closeParen ")"])) e :=
      .group rfl (h.loosen (Nat.zero_le _)) rfl
    exact group.loosen (by cases place <;> decide)
  · rename_i le
    exact h.loosen (Nat.not_lt.mp le)

theorem operator_arithmetic (op : ArithmeticOp) :
    Operator (arithmeticTier op) (word .binaryOperator op.symbol) (.binary op) := by
  cases op
  · exact .additive rfl rfl (by simp)
  · exact .additive rfl rfl (by simp)
  · exact .multiplicative rfl rfl (by simp)
  · exact .multiplicative rfl rfl (by simp)
  · exact .multiplicative rfl rfl (by simp)

theorem operator_comparison (op : CompareOp) :
    Operator .comparison (comparisonWord op) (.comparison op) := by
  by_cases sign : op = .is
  · subst sign
    exact .is rfl rfl
  · exact .comparison (by simp [comparisonWord, word, sign]) rfl sign

theorem operator_joint (op : JointOp) :
    Operator .joint (word .jointOperator op.symbol) (.joint op) := by
  cases op
  · exact .conjunction rfl (.inl rfl)
  · exact .disjunction rfl (by decide)

/-- An operation is rendered as its operands at their places around a word for it. -/
theorem Operator.renders {tier : Tier} {t : Token} {build : Expression → Expression → Expression}
    (op : Operator tier t build) (write : Number → String) :
    ∃ u, Operator tier u build ∧ ∀ l r, tierOf (build l r) = tier ∧
      renderExpression write (build l r) =
        placed tier (tierOf l) (renderExpression write l) ++
          u :: placed tier.next (tierOf r) (renderExpression write r) := by
  cases op with
  | conjunction | disjunction => exact ⟨_, operator_joint _, fun _ _ => ⟨rfl, rfl⟩⟩
  | comparison | is => exact ⟨_, operator_comparison _, fun _ _ => ⟨rfl, rfl⟩⟩
  | @additive _ op _ _ sign =>
    have tier : Tier.sum = arithmeticTier op := by rcases sign with rfl | rfl <;> rfl
    rw [tier]
    exact ⟨_, operator_arithmetic op, fun _ _ => ⟨rfl, rfl⟩⟩
  | @multiplicative _ op _ _ sign =>
    have tier : Tier.product = arithmeticTier op := by rcases sign with rfl | rfl | rfl <;> rfl
    rw [tier]
    exact ⟨_, operator_arithmetic op, fun _ _ => ⟨rfl, rfl⟩⟩

theorem signed_of_negative {n : Number} (h : negative n = true) : Signed (numberKind n) := by
  cases n <;> first | cases h | simp [Signed, numberKind]

theorem phrase_renderNumber {write : Number → String} {n : Number} (h : ReadsBack write n) :
    Phrase .primary (renderNumber write n) (.literal (.number n)) := by
  unfold ReadsBack numberText at h
  unfold renderNumber
  by_cases minus : negative n = true
  · rw [if_pos minus] at h ⊢
    exact .minus rfl rfl (signed_of_negative minus) h
  · rw [if_neg minus] at h ⊢
    exact .number h

theorem phrase_renderLiteral {write : Number → String} {v : Value}
    (h : ∀ n, v = .number n → IsFloating n → ReadsBack write n) :
    Phrase .primary (renderLiteral write v) (.literal v) := by
  cases v with
  | null => exact .null rfl
  | boolean b => cases b <;> exact .boolean (t := word .boolean _) rfl
  | string s => exact .string (t := word .string s) rfl
  | number n =>
    by_cases char : numberKind n = .char
    · cases n with
      | char c => exact .char rfl (by simp [word, magnitude])
      | _ => cases char
    · by_cases floating : IsFloating n
      · exact phrase_renderNumber (h n rfl floating)
      · exact phrase_renderNumber (readsBack_of_whole write floating char)

theorem Legible.operands {write : Number → String} {e l r : Expression}
    (h : Legible write e) (operands : literals e = literals l ++ literals r) :
    Legible write l ∧ Legible write r := by
  constructor
  · intro n hn
    exact h n (by rw [operands]; exact List.mem_append_left _ hn)
  · intro n hn
    exact h n (by rw [operands]; exact List.mem_append_right _ hn)

theorem phrase_renderExpression {write : Number → String} {e : Expression}
    (legible : Legible write e) : Phrase (tierOf e) (renderExpression write e) e := by
  have joined {l r : Expression} {build : Expression → Expression → Expression} {tier : Tier}
      {t : Token} (op : Operator tier t build)
      (left : Phrase (tierOf l) (renderExpression write l) l)
      (right : Phrase (tierOf r) (renderExpression write r) r) :
      Phrase (tierOf (build l r)) (renderExpression write (build l r)) (build l r) := by
    obtain ⟨u, op', shape⟩ := op.renders write
    rw [(shape l r).1, (shape l r).2]
    exact .operation op' (left.at_place tier) (right.at_place tier.next)
  induction e with
  | literal v =>
    refine phrase_renderLiteral fun n hn => ?_
    subst hn
    exact legible n (by simp [literals])
  | identifier name => exact .name (t := word .identifier name) rfl
  | binary op l r ihl ihr =>
    obtain ⟨hl, hr⟩ := legible.operands (l := l) (r := r) rfl
    exact joined (operator_arithmetic op) (ihl hl) (ihr hr)
  | comparison op l r ihl ihr =>
    obtain ⟨hl, hr⟩ := legible.operands (l := l) (r := r) rfl
    exact joined (operator_comparison op) (ihl hl) (ihr hr)
  | joint op l r ihl ihr =>
    obtain ⟨hl, hr⟩ := legible.operands (l := l) (r := r) rfl
    exact joined (operator_joint op) (ihl hl) (ihr hr)
  | not e ih => exact .negation rfl ((ih legible).at_place .sum)

/-- A value is rendered in the loosest tier, without parentheses around it. -/
theorem phrase_value {write : Number → String} {e : Expression} (legible : Legible write e) :
    Phrase .joint (renderExpression write e) e :=
  (phrase_renderExpression legible).loosen (Nat.zero_le _)

mutual

/-- A statement is rendered as a sentence and a semicolon. -/
theorem sentence_renderStatement {write : Number → String} (s : Statement)
    (initialized : Everywhere IsInitialized [s]) (legible : Everywhere (IsLegible write) [s]) :
    ∃ reaches ts, renderStatement write s = ts ++ [word .semicolon ";"] ∧
      Sentence reaches ts s := by
  match s with
  | .block body =>
    have inner := body_renderBody body (Everywhere.block_iff.mp initialized).2
      (Everywhere.block_iff.mp legible).2
    exact ⟨false, word .openBrace "\x7b" :: (renderBody write body ++ [word .closeBrace "\x7d"]),
      by simp [renderStatement], .block rfl inner rfl⟩
  | .declare name constant none =>
    cases constant with
    | true => exact absurd rfl ((Everywhere.single_iff rfl).mp initialized name)
    | false => exact ⟨false, [word .var "var", word .identifier name], rfl, .declaration rfl rfl⟩
  | .declare name constant (some e) =>
    have value := phrase_value ((Everywhere.single_iff rfl).mp legible e rfl)
    cases constant with
    | true =>
      exact ⟨true, word .const "const" :: word .identifier name :: word .equalsOperator "=" ::
        renderExpression write e, rfl, .constant rfl rfl rfl value⟩
    | false =>
      exact ⟨true, word .var "var" :: word .identifier name :: word .equalsOperator "=" ::
        renderExpression write e, rfl, .initialized rfl rfl rfl value⟩
  | .assign name none e =>
    have value := phrase_value ((Everywhere.single_iff rfl).mp legible e rfl)
    exact ⟨true, word .identifier name :: word .equalsOperator "=" :: renderExpression write e, rfl,
      .assignment rfl (.inl rfl) rfl value⟩
  | .assign name (some op) e =>
    have value := phrase_value ((Everywhere.single_iff rfl).mp legible e rfl)
    exact ⟨true, word .identifier name :: word .assignmentOperator (op.symbol ++ "=") ::
      renderExpression write e, rfl, .compound rfl (.inr rfl) rfl value⟩
  | .expression e =>
    have value := phrase_value ((Everywhere.single_iff rfl).mp legible e rfl)
    exact ⟨true, _, rfl, .expression value⟩

theorem body_renderBody {write : Number → String} (body : List Statement)
    (initialized : Everywhere IsInitialized body) (legible : Everywhere (IsLegible write) body) :
    Body (renderBody write body) body := by
  match body with
  | [] => exact .nil
  | s :: more =>
    obtain ⟨hs, hmore⟩ := Everywhere.cons_iff.mp initialized
    obtain ⟨ls, lmore⟩ := Everywhere.cons_iff.mp legible
    obtain ⟨reaches, ts, shape, first⟩ := sentence_renderStatement s hs ls
    rw [renderBody, shape, List.append_assoc]
    exact .cons first (.inr ⟨_, rfl, rfl⟩) nofun (body_renderBody more hmore lmore)

end

/-! ## Rendered trees nest least -/

theorem Nests.placed {ts : List Token} {d : Nat} (h : Nests ts d) (place tier : Tier) :
    Nests (placed place tier ts) (if tier.rank < place.rank then d + 1 else d) := by
  unfold Grammar.placed
  split
  · exact h.group (.inl rfl) (.inl rfl)
  · exact h

theorem Nests.word {kind : Token.Kind} (h : kind ∉ groupKinds) (text : String) :
    Nests [word kind text] 0 :=
  .single h

theorem Nests.word_cons {kind : Token.Kind} {ts : List Token} {d : Nat} (h : Nests ts d)
    (plain : kind ∉ groupKinds) (text : String) : Nests (Grammar.word kind text :: ts) d :=
  h.cons plain

theorem nests_renderLiteral (write : Number → String) (v : Value) :
    Nests (renderLiteral write v) 0 := by
  cases v with
  | null => exact .word (by decide) _
  | boolean b => exact .word (by decide) _
  | string s => exact .word (by decide) _
  | number n =>
    have plain : Nests [word (numberKind n) (magnitude write n)] 0 :=
      .word (by cases n <;> exact of_decide_eq_true rfl) _
    rw [renderLiteral, renderNumber]
    split
    · exact plain.word_cons (by decide) _
    · exact plain

theorem nests_renderExpression (write : Number → String) (e : Expression) :
    ∃ d, Nests (renderExpression write e) d := by
  have joined {l r : Expression} {build : Expression → Expression → Expression} {tier : Tier}
      {t : Token} (op : Operator tier t build) (left : ∃ d, Nests (renderExpression write l) d)
      (right : ∃ d, Nests (renderExpression write r) d) :
      ∃ d, Nests (renderExpression write (build l r)) d := by
    obtain ⟨u, op', shape⟩ := op.renders write
    obtain ⟨dl, hl⟩ := left
    obtain ⟨dr, hr⟩ := right
    rw [(shape l r).2]
    exact ⟨_, op'.nests (hl.placed _ _) (hr.placed _ _)⟩
  induction e with
  | literal v => exact ⟨0, nests_renderLiteral write v⟩
  | identifier name => exact ⟨0, .word (by decide) name⟩
  | binary op l r ihl ihr => exact joined (operator_arithmetic op) ihl ihr
  | comparison op l r ihl ihr => exact joined (operator_comparison op) ihl ihr
  | joint op l r ihl ihr => exact joined (operator_joint op) ihl ihr
  | not e ih =>
    obtain ⟨d, h⟩ := ih
    exact ⟨_, (h.placed .sum (tierOf e)).word_cons (by decide) _⟩

/-- However an expression is spelled in a tier, its rendering there nests no deeper. -/
theorem Phrase.groups_le {tier : Tier} {ts : List Token} {e : Expression} (h : Phrase tier ts e)
    (write : Number → String) :
    mostOpen 0 (placed tier (tierOf e) (renderExpression write e)) ≤ mostOpen 0 ts := by
  induction h with
  | @tighter tier ts e _ _ ih =>
    obtain ⟨d, hd⟩ := nests_renderExpression write e
    rw [(hd.placed _ _).mostOpen_eq] at ih ⊢
    have le := tier.rank_le_next
    split at ih <;> split <;> omega
  | @operation tier t build ls rs l r op left right ihl ihr =>
    obtain ⟨u, op', shape⟩ := op.renders write
    obtain ⟨dl, hl⟩ := nests_renderExpression write l
    obtain ⟨dr, hr⟩ := nests_renderExpression write r
    obtain ⟨el, gl⟩ := left.nests
    obtain ⟨er, gr⟩ := right.nests
    rw [(hl.placed _ _).mostOpen_eq, gl.mostOpen_eq] at ihl
    rw [(hr.placed _ _).mostOpen_eq, gr.mostOpen_eq] at ihr
    rw [(shape l r).1, (shape l r).2, placed_self,
      (op'.nests (hl.placed _ _) (hr.placed _ _)).mostOpen_eq, (op.nests gl gr).mostOpen_eq]
    omega
  | @negation t ts e kind operand ih =>
    obtain ⟨d, hd⟩ := nests_renderExpression write e
    obtain ⟨f, hf⟩ := operand.nests
    have rendered : Nests (renderExpression write (.not e)) _ :=
      (hd.placed .sum (tierOf e)).word_cons (by decide) _
    rw [(hd.placed _ _).mostOpen_eq, hf.mostOpen_eq] at ih
    change mostOpen 0 (placed .negation .negation _) ≤ _
    rw [placed_self, rendered.mostOpen_eq, (hf.cons (by rw [kind]; decide)).mostOpen_eq]
    exact ih
  | @group o c ts e opening inner closing ih =>
    obtain ⟨d, hd⟩ := nests_renderExpression write e
    obtain ⟨f, hf⟩ := inner.nests
    have loosest : ¬ (tierOf e).rank < Tier.joint.rank := Nat.not_lt_zero _
    rw [(hd.placed _ _).mostOpen_eq, hf.mostOpen_eq, if_neg loosest] at ih
    rw [(hd.placed _ _).mostOpen_eq, (hf.group (.inl opening) (.inl closing)).mostOpen_eq]
    split <;> omega
  | @name t _ =>
    have rendered : Nests (renderExpression write (.identifier t.text)) 0 := .word (by decide) _
    change mostOpen 0 (placed .primary .primary _) ≤ _
    rw [placed_self, rendered.mostOpen_eq]
    exact Nat.zero_le _
  | null | boolean | string | char | number | plus | minus =>
    change mostOpen 0 (placed .primary .primary (renderLiteral write _)) ≤ _
    rw [placed_self, (nests_renderLiteral write _).mostOpen_eq]
    exact Nat.zero_le _

theorem Phrase.rendered_le {ts : List Token} {e : Expression} (h : Phrase .joint ts e)
    (write : Number → String) :
    ∃ d, Nests (renderExpression write e) d ∧ d ≤ mostOpen 0 ts := by
  obtain ⟨d, hd⟩ := nests_renderExpression write e
  have le := h.groups_le write
  have loosest : ¬ (tierOf e).rank < Tier.joint.rank := Nat.not_lt_zero _
  rw [(hd.placed _ _).mostOpen_eq, if_neg loosest] at le
  exact ⟨d, hd, le⟩

/-- A statement opens no groups besides those of its expression. -/
theorem nests_renderStatement {write : Number → String} {s : Statement} {e : Expression} {d : Nat}
    (holds : value? s = some e) (h : Nests (renderExpression write e) d) :
    Nests (renderStatement write s) d := by
  have ended : Nests (renderExpression write e ++ [word .semicolon ";"]) d := by
    simpa using h.append (.word (by decide) ";")
  cases s with
  | block body => cases holds
  | declare name constant value =>
    cases holds
    have assigned : Nests (word .identifier name :: word .equalsOperator "=" ::
        (renderExpression write e ++ [word .semicolon ";"])) d :=
      (ended.word_cons (by decide) "=").word_cons (by decide) name
    cases constant
    · exact assigned.word_cons (by decide) "var"
    · exact assigned.word_cons (by decide) "const"
  | assign name op value =>
    cases holds
    cases op with
    | none => exact (ended.word_cons (by decide) "=").word_cons (by decide) name
    | some op => exact (ended.word_cons (by decide) (op.symbol ++ "=")).word_cons (by decide) name
  | expression value =>
    cases holds
    exact ended

mutual

/-- However a statement is spelled, its rendering nests no deeper. -/
theorem Sentence.rendered_le {reaches : Bool} {ts : List Token} {s : Statement}
    (h : Sentence reaches ts s) (write : Number → String) :
    ∃ d, Nests (renderStatement write s) d ∧ d ≤ mostOpen 0 ts := by
  -- The tokens before the expression of a statement are no groups.
  have valued (before : List Token) {read : List Token} {e : Expression} {s : Statement}
      (value : Phrase .joint read e) (plain : Nests before 0) (holds : value? s = some e) :
      ∃ d, Nests (renderStatement write s) d ∧ d ≤ mostOpen 0 (before ++ read) := by
    obtain ⟨d, hd, le⟩ := value.rendered_le write
    obtain ⟨f, hf⟩ := value.nests
    rw [hf.mostOpen_eq] at le
    rw [(plain.append hf).mostOpen_eq, Nat.zero_max]
    exact ⟨d, nests_renderStatement holds hd, le⟩
  match h with
  | .declaration (v := v) (n := n) _ _ =>
    have rendered : Nests (renderStatement write (.declare n.text false none)) 0 :=
      ((Nests.word (by decide) ";").word_cons (by decide) n.text).word_cons (by decide) "var"
    exact ⟨0, rendered, Nat.zero_le _⟩
  | .initialized (v := v) (n := n) (q := q) keyword name sign value =>
    exact valued _ value (Assigns.nests_declared (.inl sign) name (by simp [keyword])) rfl
  | .constant (v := v) (n := n) (q := q) keyword name sign value =>
    exact valued _ value (Assigns.nests_declared (.inl sign) name (by simp [keyword])) rfl
  | .assignment (n := n) (q := q) name sign _ value =>
    exact valued _ value (sign.nests name) rfl
  | .compound (n := n) (q := q) name sign _ value =>
    exact valued _ value (sign.nests name) rfl
  | .increment _ _ _ | .decrement _ _ _ =>
    exact ⟨0, nests_renderStatement rfl (nests_renderLiteral write _), Nat.zero_le _⟩
  | .expression value => exact valued [] value .nil rfl
  | @Sentence.block o c ts body opening inner closing =>
    obtain ⟨d, hd, le⟩ := inner.rendered_le write
    obtain ⟨f, hf⟩ := inner.nests
    rw [hf.mostOpen_eq] at le
    have braces : Nests (renderStatement write (.block body)) (d + 1) := by
      have group := hd.group (o := word .openBrace "\x7b") (c := word .closeBrace "\x7d")
        (.inr rfl) (.inr rfl)
      simpa [renderStatement] using group.append (.word (by decide) ";")
    rw [(hf.group (.inr opening) (.inr closing)).mostOpen_eq]
    exact ⟨d + 1, braces, Nat.succ_le_succ le⟩

theorem Body.rendered_le {ts : List Token} {body : List Statement} (h : Body ts body)
    (write : Number → String) :
    ∃ d, Nests (renderBody write body) d ∧ d ≤ mostOpen 0 ts := by
  match h with
  | .nil => exact ⟨0, .nil, Nat.zero_le _⟩
  | .cons first terminator _ later =>
    obtain ⟨d, hd, le⟩ := first.rendered_le write
    obtain ⟨d', hd', le'⟩ := later.rendered_le write
    obtain ⟨f, hf⟩ := first.nests
    obtain ⟨f', hf'⟩ := later.nests
    rw [hf.mostOpen_eq] at le
    rw [hf'.mostOpen_eq] at le'
    refine ⟨_, hd.append hd', ?_⟩
    rw [(hf.append (terminator.nests.append hf')).mostOpen_eq]
    omega

end

/-! ## Parsing what was rendered -/

theorem spells_render {write : Number → String} {tree : Tree}
    (initialized : Everywhere IsInitialized tree.body) (low : Everywhere IsLow tree.body)
    (groups : mostOpen 0 (render write tree) ≤ maxGroups)
    (legible : Everywhere (IsLegible write) tree.body) : Spells (render write tree) tree := by
  have body := body_renderBody tree.body initialized legible
  have whole : (render write tree).takeWhile (·.kind ≠ .endOfFile) = render write tree :=
    List.takeWhile_eq_self_iff.mpr fun t ht => decide_eq_true (body.not_end t ht)
  exact ⟨by rw [whole]; exact body, by rw [whole]; exact groups, low⟩

mutual

theorem Sentence.isInitialized {reaches : Bool} {ts : List Token} {s : Statement}
    (h : Sentence reaches ts s) : Everywhere IsInitialized [s] := by
  match h with
  | .block _ inner _ => exact Everywhere.block_iff.mpr ⟨nofun, inner.isInitialized⟩
  | .declaration _ _ | .initialized _ _ _ _ | .constant _ _ _ _ | .assignment _ _ _ _
  | .compound _ _ _ _ | .increment _ _ _ | .decrement _ _ _ | .expression _ =>
    exact (Everywhere.single_iff rfl).mpr (by simp [IsInitialized])

theorem Body.isInitialized {ts : List Token} {body : List Statement} (h : Body ts body) :
    Everywhere IsInitialized body := by
  match h with
  | .nil => exact .nil
  | .cons first _ _ later =>
    exact Everywhere.cons_iff.mpr ⟨first.isInitialized, later.isInitialized⟩

end

/-- Parsing gives back every tree that keeps to the bounds when it is rendered, and every
tree that the parser returns does. -/
theorem parse_render (write : Number → String) :
    (∀ tree : Tree, Everywhere IsInitialized tree.body → Everywhere IsLow tree.body →
      mostOpen 0 (render write tree) ≤ maxGroups → Everywhere (IsLegible write) tree.body →
      parse (render write tree) = .ok tree) ∧
    ∀ tokens tree, parse tokens = .ok tree →
      Everywhere IsInitialized tree.body ∧ Everywhere IsLow tree.body ∧
        mostOpen 0 (render write tree) ≤ maxGroups ∧
        (Everywhere (IsLegible write) tree.body → parse (render write tree) = .ok tree) := by
  refine ⟨fun tree initialized low groups legible =>
    parse_of_spells (spells_render initialized low groups legible), ?_⟩
  intro tokens tree h
  have spells := spells_of_parse h
  have initialized := spells.body.isInitialized
  obtain ⟨d, hd, le⟩ := spells.body.rendered_le write
  have groups : mostOpen 0 (render write tree) ≤ maxGroups := by
    rw [render, hd.mostOpen_eq]
    exact le.trans spells.groups
  exact ⟨initialized, spells.low, groups,
    fun legible => parse_of_spells (spells_render initialized spells.low groups legible)⟩

/-- A fraction below zero, the least integer, an operand looser than its place and a variable
with the name of an operator. -/
private def sample : Tree :=
  ⟨[.block [.declare "is" true
      (some (.literal (.number (.float (.ofDecimal .single true 25 (-1))))))],
    .expression (.not (.binary .subtract (.identifier "is")
      (.binary .add (.literal (.number (.integer Int32.minValue))) (.identifier "x"))))]⟩

theorem parse_render_sample :
    parse (render (fun _ => "2.5") sample) = .ok sample ∧ Everywhere IsLow sample.body := by
  have initialized : Everywhere IsInitialized sample.body := by
    simp [Everywhere, withinAll, within, sample, IsInitialized]
  have low : Everywhere IsLow sample.body := by
    simp [Everywhere, withinAll, within, sample, IsLow, value?, Expression.height, maxHeight]
  have groups : mostOpen 0 (render (fun _ => "2.5") sample) ≤ maxGroups := by
    decide +kernel
  have legible : Everywhere (IsLegible fun _ => "2.5") sample.body := by
    have half : Number.ofToken? .float "-2.5" =
        some (.float (.ofDecimal .single true 25 (-1))) := by decide +kernel
    have sign : hasMinus (.ofDecimal .single true 25 (-1)) = true := by decide +kernel
    simp [Everywhere, withinAll, within, sample, IsLegible, value?, Legible, literals, IsFloating,
      ReadsBack, numberText, negative, magnitude, numberKind, sign, half]
  obtain ⟨whole, back⟩ := parse_render fun _ => "2.5"
  have parsed := whole sample initialized low groups legible
  exact ⟨parsed, (back _ sample parsed).2.1⟩

end KindScript.Grammar
