import KindScript.Proofs.Numbers.Exactness
import KindScript.Proofs.Numbers.Laws

/-!
# Comparisons are coherent

A comparison read from the right has the answer of the exchanged operator, whatever the two
values are. What is equal is not unequal as well; the two are opposites where nothing is
compared within a tolerance. Numbers have an order that only what is not a number is left out
of, and whole numbers have the order of the integers, across their kinds.
-/

namespace KindScript

/-- The operator that says the same of exchanged operands. -/
def CompareOp.swap : CompareOp → CompareOp
  | greater => less
  | less => greater
  | greaterOrEqual => lessOrEqual
  | lessOrEqual => greaterOrEqual
  | op => op

/-! ## Numbers -/

namespace Number

variable {left right : Number}

/-- A float or a double that is not a number. -/
def IsNan : Number → Prop
  | float v => v = .nan
  | double v => v = .nan
  | _ => False

theorem domain_comm (l r : Kind) : domain l r = domain r l := by
  cases l <;> cases r <;> rfl

theorem tolerance_comm (l r : Kind) : tolerance l r = tolerance r l := by
  cases l <;> cases r <;> rfl

theorem order?_swap (left right : Number) :
    order? right left = (order? left right).map Ordering.swap := by
  rw [order?, order?, domain_comm]
  cases domain left.kind right.kind with
  | int | long => exact congrArg some Std.OrientedOrd.eq_swap
  | float | double => exact Binary.compare?_swap _ _

theorem differs_comm {f : Format} (bound x y : Binary f) (equal : Bool) :
    differs bound x y equal = differs bound y x equal := by
  rw [differs, differs, Binary.abs_sub_comm]

/-- Two numbers are compared exactly, or their difference with a bound, from either side. -/
theorem equality_cases (left right : Number) :
    (∃ same : Bool, ∀ equal, equality left right equal = (same == equal) ∧
        equality right left equal = (same == equal)) ∨
      ∃ (f : Format) (bound x y : Binary f), ∀ equal,
        equality left right equal = differs bound x y equal ∧
          equality right left equal = differs bound x y equal := by
  unfold equality
  simp only [tolerance_comm right.kind left.kind, domain_comm right.kind left.kind]
  cases tolerance left.kind right.kind with
  | exact =>
    left
    cases domain left.kind right.kind with
    | int =>
      exact ⟨decide (left.toInt32 = right.toInt32), fun equal =>
        ⟨rfl, congrArg (· == equal) (decide_eq_decide.mpr eq_comm)⟩⟩
    | long | float | double =>
      exact ⟨decide (left.toInt64 = right.toInt64), fun equal =>
        ⟨rfl, congrArg (· == equal) (decide_eq_decide.mpr eq_comm)⟩⟩
  | floatMixed | floatSingle | doubleMixed | doubleSingle =>
    exact .inr ⟨_, _, _, _, fun _ => ⟨rfl, differs_comm _ _ _ _⟩⟩

theorem equality_comm (left right : Number) (equal : Bool) :
    equality left right equal = equality right left equal := by
  rcases equality_cases left right with ⟨_, sides⟩ | ⟨_, _, _, _, sides⟩ <;>
    rw [(sides equal).1, (sides equal).2]

/-- Numbers that are equal are not unequal. -/
theorem equality_exclusive (equal : equality left right true = true) :
    equality left right false = false := by
  rcases equality_cases left right with ⟨same, sides⟩ | ⟨_, bound, x, y, sides⟩
  · rw [(sides true).1, beq_true] at equal
    rw [(sides false).1, equal]
    rfl
  · rw [(sides true).1] at equal
    rw [(sides false).1]
    exact Binary.lt_asymm equal

theorem compare?_swap (op : CompareOp) (left right : Number) :
    compare? op left right = compare? op.swap right left := by
  cases op with
  | equal | notEqual => exact congrArg some (equality_comm _ _ _)
  | is => rfl
  | greater | greaterOrEqual | less | lessOrEqual =>
    unfold CompareOp.swap compare?
    simp only
    rw [order?_swap left right]
    cases order? left right with
    | none => rfl
    | some order => cases order <;> rfl

/-! ### What is not a number -/

theorem toSingle_ne_nan {n : Number} (number : ¬ n.IsNan) : n.toSingle ≠ .nan := by
  cases n with
  | float => exact number
  | double => exact Binary.convert_ne_nan number
  | byte | integer | long | char => exact Binary.ofInt_ne_nan _ _

theorem toDouble_ne_nan {n : Number} (number : ¬ n.IsNan) : n.toDouble ≠ .nan := by
  cases n with
  | float => exact Binary.convert_ne_nan number
  | double => exact number
  | byte | integer | long | char => exact Binary.ofInt_ne_nan _ _

/-- Only what is not a number is left out of the order. -/
theorem exists_order (l : ¬ left.IsNan) (r : ¬ right.IsNan) :
    ∃ order, order? left right = some order := by
  unfold order?
  cases domain left.kind right.kind with
  | int | long => exact ⟨_, rfl⟩
  | float => exact Binary.compare?_isSome (toSingle_ne_nan l) (toSingle_ne_nan r)
  | double => exact Binary.compare?_isSome (toDouble_ne_nan l) (toDouble_ne_nan r)

/-! ### Whole numbers -/

variable {a b : Int}

theorem order?_of_whole (l : left.whole? = some a) (r : right.whole? = some b) :
    order? left right = some (compare a b) := by
  unfold order?
  rcases meet_of_whole l r with ⟨meet, _, rfl, rfl⟩ | ⟨meet, _⟩
  · rw [meet]
  · rw [meet]
    simp only
    rw [toInt_toInt64 l, toInt_toInt64 r]

theorem equality_of_whole (l : left.whole? = some a) (r : right.whole? = some b) (equal : Bool) :
    equality left right equal = (decide (a = b) == equal) := by
  have exact : tolerance left.kind right.kind = .exact := by
    cases left <;> cases l <;> cases right <;> cases r <;> rfl
  unfold equality
  simp only [exact]
  rcases meet_of_whole l r with ⟨meet, _, rfl, rfl⟩ | ⟨meet, _⟩
  · simp only [meet, Int32.toInt_inj]
  · simp only [meet, ← toInt_toInt64 l, ← toInt_toInt64 r, Int64.toInt_inj]

end Number

/-! ## Values -/

namespace Value

variable {op : CompareOp} {left right : Value}

/-- The comparison of two values succeeds with an answer. -/
def Answers (op : CompareOp) (left right : Value) (answer : Bool) : Prop :=
  comparison op left right = .ok (boolean answer)

/-- A number within which equality goes by a tolerance. -/
def IsFloating : Value → Prop
  | number n => n.whole? = none
  | _ => False

theorem comparison_eq_ok_iff {result : Value} :
    comparison op left right = .ok result ↔
      ∃ answer, compare? op left right = some answer ∧ result = boolean answer := by
  rw [comparison]
  cases compare? op left right with
  | none => simp
  | some answer => simp [eq_comm]

theorem answers_iff {answer : Bool} :
    Answers op left right answer ↔ compare? op left right = some answer := by
  rw [Answers, comparison_eq_ok_iff]
  constructor
  · rintro ⟨_, found, ⟨⟩⟩
    exact found
  · exact fun found => ⟨answer, found, rfl⟩

theorem answers_number {a b : Number} {answer : Bool} :
    Answers op (number a) (number b) answer ↔ Number.compare? op a b = some answer :=
  answers_iff

theorem equalityOnly?_swap (op : CompareOp) (same : Bool) :
    equalityOnly? op same = equalityOnly? op.swap same := by
  cases op <;> rfl

theorem compare?_swap (op : CompareOp) (left right : Value) :
    compare? op left right = compare? op.swap right left := by
  cases left with
  | null => cases right <;> exact equalityOnly?_swap op _
  | boolean a =>
    cases right with
    | null => exact equalityOnly?_swap op _
    | boolean b => exact (equalityOnly?_swap op _).trans (congrArg _ BEq.comm)
    | string | number => rfl
  | string a =>
    cases right with
    | null => exact equalityOnly?_swap op _
    | string b => exact (equalityOnly?_swap op _).trans (congrArg _ BEq.comm)
    | boolean | number => rfl
  | number a =>
    cases right with
    | null => exact equalityOnly?_swap op _
    | number b => exact Number.compare?_swap op a b
    | boolean | string => rfl

/-- `==` and `!=` are both refused, or they are opposites, or they compare numbers. -/
theorem equalities (left right : Value) :
    (compare? .equal left right = none ∧ compare? .notEqual left right = none) ∨
      (∃ same : Bool, compare? .equal left right = some same ∧
        compare? .notEqual left right = some !same) ∨
      ∃ a b, left = number a ∧ right = number b := by
  cases left <;> cases right <;>
    first
    | exact .inl ⟨rfl, rfl⟩
    | exact .inr (.inl ⟨_, rfl, rfl⟩)
    | exact .inr (.inr ⟨_, _, rfl, rfl⟩)

/-- What comparisons of two values have in common. -/
structure Coherent (left right : Value) : Prop where
  swapped : ∀ op result, comparison op left right = .ok result ↔
    comparison op.swap right left = .ok result
  together : (∃ answer, Answers .equal left right answer) ↔
    ∃ answer, Answers .notEqual left right answer
  exclusive : ¬ (Answers .equal left right true ∧ Answers .notEqual left right true)
  opposite : ¬ left.IsFloating → ¬ right.IsFloating →
    ∀ answer, Answers .equal left right answer ↔ Answers .notEqual left right !answer

theorem coherent (left right : Value) : Coherent left right := by
  constructor
  case swapped =>
    intro op result
    rw [comparison_eq_ok_iff, comparison_eq_ok_iff, compare?_swap]
  case together =>
    simp only [answers_iff]
    rcases equalities left right with ⟨equal, unequal⟩ | ⟨same, equal, unequal⟩ | ⟨a, b, rfl, rfl⟩
    · rw [equal, unequal]
    · exact ⟨fun _ => ⟨_, unequal⟩, fun _ => ⟨_, equal⟩⟩
    · exact ⟨fun _ => ⟨_, rfl⟩, fun _ => ⟨_, rfl⟩⟩
  case exclusive =>
    rw [answers_iff, answers_iff]
    rintro ⟨yes, no⟩
    rcases equalities left right with ⟨equal, unequal⟩ | ⟨same, equal, unequal⟩ | ⟨a, b, rfl, rfl⟩
    · rw [equal] at yes
      cases yes
    · rw [equal] at yes
      rw [unequal] at no
      cases yes
      cases no
    · have unequal := Number.equality_exclusive (Option.some.inj yes)
      rw [compare?, Number.compare?, unequal] at no
      cases no
  case opposite =>
    intro l r answer
    rw [answers_iff, answers_iff]
    rcases equalities left right with ⟨equal, unequal⟩ | ⟨same, equal, unequal⟩ | ⟨a, b, rfl, rfl⟩
    · simp [equal, unequal]
    · simp [equal, unequal]
    · obtain ⟨x, whole⟩ := Option.ne_none_iff_exists'.mp l
      obtain ⟨y, whole'⟩ := Option.ne_none_iff_exists'.mp r
      rw [compare?, compare?, Number.compare?, Number.compare?, Number.equality_of_whole whole whole',
        Number.equality_of_whole whole whole']
      simp

end Value

/-! ## The order of numbers -/

namespace Number

open Value (Answers answers_number)

/-- What the order of two numbers keeps, floats and doubles among them. -/
structure Ordered (left right : Number) : Prop where
  exclusive : ¬ (Answers .less (.number left) (.number right) true ∧
    Answers .greater (.number left) (.number right) true)
  not_greater : ¬ left.IsNan → ¬ right.IsNan → ∃ answer,
    Answers .lessOrEqual (.number left) (.number right) answer ∧
      Answers .greater (.number left) (.number right) !answer
  not_less : ¬ left.IsNan → ¬ right.IsNan → ∃ answer,
    Answers .greaterOrEqual (.number left) (.number right) answer ∧
      Answers .less (.number left) (.number right) !answer

/-- Two numbers compare as two integers do. -/
structure ComparesAs (left right : Number) (a b : Int) : Prop where
  equal : Answers .equal (.number left) (.number right) (a = b)
  notEqual : Answers .notEqual (.number left) (.number right) (a ≠ b)
  greaterOrEqual : Answers .greaterOrEqual (.number left) (.number right) (b ≤ a)
  lessOrEqual : Answers .lessOrEqual (.number left) (.number right) (a ≤ b)
  greater : Answers .greater (.number left) (.number right) (b < a)
  less : Answers .less (.number left) (.number right) (a < b)

theorem ordered (left right : Number) : Ordered left right := by
  constructor
  case exclusive =>
    simp only [answers_number, compare?, Option.some.injEq, decide_eq_true_eq]
    rintro ⟨less, greater⟩
    rw [less] at greater
    cases greater
  case not_greater =>
    intro l r
    obtain ⟨order, found⟩ := exists_order l r
    simp only [answers_number, compare?, found]
    cases order <;> exact ⟨_, rfl, rfl⟩
  case not_less =>
    intro l r
    obtain ⟨order, found⟩ := exists_order l r
    simp only [answers_number, compare?, found]
    cases order <;> exact ⟨_, rfl, rfl⟩

theorem comparesAs {left right : Number} {a b : Int} (l : left.whole? = some a)
    (r : right.whole? = some b) : ComparesAs left right a b := by
  have order := order?_of_whole l r
  have same := equality_of_whole l r
  constructor <;> rw [answers_number, compare?]
  case equal | notEqual =>
    rw [same]
    simp
  case greaterOrEqual | lessOrEqual | greater | less =>
    rw [order]
    rcases Int.lt_trichotomy a b with less | equal | greater
    · rw [Std.compare_eq_lt.mpr less]
      simp
      omega
    · rw [compare_eq_iff_eq.mpr equal]
      simp
      omega
    · rw [Std.compare_eq_gt.mpr greater]
      simp
      omega

/-- One number is found to be at most another. -/
def AtMost (left right : Number) : Prop :=
  Answers .lessOrEqual (.number left) (.number right) true

theorem atMost_iff {left right : Number} {a b : Int} (l : left.whole? = some a)
    (r : right.whole? = some b) : AtMost left right ↔ a ≤ b := by
  have found := answers_number.mp (comparesAs l r).lessOrEqual
  rw [AtMost, answers_number, found, Option.some.injEq, decide_eq_true_iff]

/-- Three numbers are in a total order, where numbers that `==` answers for are in one place. -/
structure InOrder (x y z : Number) : Prop where
  total : AtMost x y ∨ AtMost y x
  antisymm : AtMost x y → AtMost y x → Answers .equal (.number x) (.number y) true
  trans : AtMost x y → AtMost y z → AtMost x z

theorem inOrder {x y z : Number} {a b c : Int} (hx : x.whole? = some a) (hy : y.whole? = some b)
    (hz : z.whole? = some c) : InOrder x y z := by
  constructor
  case total =>
    rw [atMost_iff hx hy, atMost_iff hy hx]
    exact Int.le_total a b
  case antisymm =>
    intro below above
    have same : a = b :=
      Int.le_antisymm ((atMost_iff hx hy).mp below) ((atMost_iff hy hx).mp above)
    have equal := (comparesAs hx hy).equal
    rwa [decide_eq_true same] at equal
  case trans =>
    rw [atMost_iff hx hy, atMost_iff hy hz, atMost_iff hx hz]
    exact Int.le_trans

end Number

/-- Exchanging the operands of a comparison exchanges its operator and nothing else. What is
equal is never unequal too, and one of the two holds where no float or double takes part. The
order of two numbers has its strict and its other operators as opposites, but for what is not a
number. Whole numbers of all kinds are compared as the integers they are, in one total order. -/
theorem comparison_coherent :
    (∀ left right : Value, left.Coherent right) ∧
      (∀ left right : Number, left.Ordered right) ∧
      (∀ (left right : Number) (a b : Int), left.whole? = some a → right.whole? = some b →
        left.ComparesAs right a b) ∧
      ∀ (x y z : Number) (a b c : Int), x.whole? = some a → y.whole? = some b →
        z.whole? = some c → x.InOrder y z :=
  ⟨Value.coherent, Number.ordered, fun _ _ _ _ => Number.comparesAs,
    fun _ _ _ _ _ _ => Number.inOrder⟩

/-- A byte, a character and a long number of different sizes, and a double that is compared with
one of them. -/
theorem comparison_coherent_kinds :
    Value.comparison .less (.number (.byte 98)) (.number (.char 'c')) = .ok (.boolean true) ∧
      Value.comparison .equal (.number (.char 'c')) (.number (.long 99)) = .ok (.boolean true) ∧
      (Number.byte 98).InOrder (.char 'c') (.long 99) ∧
      ∃ answer,
        Value.Answers .lessOrEqual (.number (.double (.zero false))) (.number (.byte 98)) answer ∧
          Value.Answers .greater (.number (.double (.zero false))) (.number (.byte 98)) !answer := by
  obtain ⟨_, ordered, compares, ranked⟩ := comparison_coherent
  refine ⟨?_, ?_, ?_, ?_⟩
  · exact (compares (.byte 98) (.char 'c') 98 99 rfl rfl).less
  · exact (compares (.char 'c') (.long 99) 99 99 rfl rfl).equal
  · exact ranked _ _ _ 98 99 99 rfl rfl rfl
  · exact (ordered _ _).not_greater nofun nofun

end KindScript
