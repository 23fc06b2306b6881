import KindScript.Proofs.Numbers.Coherence

/-!
# Equality of results

A number is equal to itself as long as it is finite: the difference of an infinity and itself is
not a number, and no tolerance holds it. Two numbers of different kinds are equal too where one
is the other taken to a double. That is all by which a sum or a product differs from the one
with its operands exchanged.
-/

namespace KindScript

open Binary (isFinite_ofInt isFinite_convert roomy_double)

namespace Number

variable {n left right : Number} {op : ArithmeticOp}

/-! ## Bounds -/

/-- Neither an infinity nor what is not a number. -/
def isFinite : Number → Bool
  | float v => v.isFinite
  | double v => v.isFinite
  | _ => true

/-- The bounds of all tolerances are positive in the format in which they are used. -/
theorem epsilon_pos (near : Tolerance) (inexact : near ≠ .exact) :
    (Binary.zero false).lt near.epsilon = true ∧
      (Binary.zero false).lt (near.epsilon.convert .single) = true := by
  cases near with
  | exact => exact absurd rfl inexact
  | floatMixed | floatSingle | doubleMixed | doubleSingle => decide +kernel

/-- A finite number differs from itself by less than any bound. The difference of an infinity
and itself cannot be compared with one. -/
theorem differs_self {f : Format} {bound : Binary f} (positive : (Binary.zero false).lt bound = true)
    (x : Binary f) (equal : Bool) : differs bound x x equal = (x.isFinite && equal) := by
  cases finite : x.isFinite with
  | true =>
    have none : (x.sub x).abs = .zero false := by
      rw [Binary.sub_self_of_finite finite]
      rfl
    rw [differs, none, positive, Binary.lt_asymm positive]
    cases equal <;> rfl
  | false =>
    have none : (x.sub x).abs = .nan := by
      rw [Binary.sub_self_of_not_finite (Bool.not_eq_true _ ▸ finite)]
      rfl
    rw [differs, none]
    cases bound <;> cases equal <;> rfl

/-! ## A number and itself -/

theorem isFinite_toDouble (finite : n.isFinite) : n.toDouble.isFinite := by
  have short (v : Int32) : (Binary.ofInt .double v.toInt).isFinite := by
    have low := v.le_toInt
    have high := v.toInt_lt
    exact isFinite_ofInt roomy_double (by omega)
  cases n with
  | float => exact isFinite_convert finite (by decide) (by decide) (by decide)
  | double => exact finite
  | long v =>
    have low := v.le_toInt
    have high := v.toInt_lt
    exact isFinite_ofInt roomy_double (by omega)
  | byte | integer | char => exact short _

/-- A finite number is equal to itself, and no number is unequal to itself. -/
theorem equality_self (n : Number) (equal : Bool) : equality n n equal = (n.isFinite && equal) := by
  have same {α : Type} [DecidableEq α] (x : α) : (decide (x = x) == equal) = (true && equal) := by
    rw [decide_eq_true rfl]
    cases equal <;> rfl
  cases n with
  | byte | integer | char | long => exact same _
  | float v => exact differs_self (epsilon_pos .floatSingle nofun).2 v equal
  | double v => exact differs_self (epsilon_pos .doubleSingle nofun).1 v equal

/-- A finite number is equal to the double that it is taken to. -/
theorem equality_toDouble (finite : n.isFinite) (equal : Bool) :
    equality n (.double n.toDouble) equal = equal := by
  have same (near : Tolerance) (inexact : near ≠ .exact) :
      differs near.epsilon n.toDouble n.toDouble equal = equal := by
    rw [differs_self (epsilon_pos near inexact).1, isFinite_toDouble finite, Bool.true_and]
  cases n with
  | double => exact same .doubleSingle nofun
  | byte | integer | float | long | char => exact same .doubleMixed nofun

/-! ## Sums and products -/

theorem native?_comm (commutes : op = .add ∨ op = .multiply) (left right : Number) (d : Domain) :
    native? op right left d = native? op left right d := by
  rcases commutes with rfl | rfl
  · cases d with
    | int => exact congrArg (fun v => some (integer v)) (Int32.add_comm _ _)
    | long => exact congrArg (fun v => some (long v)) (Int64.add_comm _ _)
    | float => exact congrArg (fun v => some (float v)) (Binary.add_comm _ _)
    | double => exact congrArg (fun v => some (double v)) (Binary.add_comm _ _)
  · cases d with
    | int => exact congrArg (fun v => some (integer v)) (Int32.mul_comm _ _)
    | long => exact congrArg (fun v => some (long v)) (Int64.mul_comm _ _)
    | float => exact congrArg (fun v => some (float v)) (Binary.mul_comm _ _)
    | double => exact congrArg (fun v => some (double v)) (Binary.mul_comm _ _)

/-- The tables leave a result in the machine type where its operands meet, or make it a double. -/
theorem resultFor_cases (other : op ≠ .remainder) (l r : Kind) :
    resultFor op l r = domain l r ∨ resultFor op l r = .double := by
  rw [resultFor, if_neg fun taken => other taken.1]
  cases l <;> cases r <;> first | exact .inl rfl | exact .inr rfl

/-- One number is another, or the double that this is taken to. -/
def IsTaken (native n : Number) : Prop :=
  n = native ∨ n = .double native.toDouble

theorem equality_of_isTaken {native a b : Number} (one : IsTaken native a)
    (other : IsTaken native b) (finite : native.isFinite) (equal : Bool) :
    equality a b equal = equal := by
  have finite_double : (double native.toDouble).isFinite := isFinite_toDouble finite
  rcases one with rfl | rfl <;> rcases other with rfl | rfl
  · rw [equality_self, finite, Bool.true_and]
  · exact equality_toDouble finite equal
  · rw [equality_comm]
    exact equality_toDouble finite equal
  · rw [equality_self, finite_double, Bool.true_and]

/-- The result of an operation is what the machine gives, as it is or taken to a double. -/
theorem arithmetic?_isTaken {native : Number} (other : op ≠ .remainder)
    (found : native? op left right (domain left.kind right.kind) = some native) :
    ∃ n, arithmetic? op left right = some n ∧ IsTaken native n := by
  refine ⟨_, arithmetic?_of_native found, ?_⟩
  rcases resultFor_cases other left.kind right.kind with meet | double
  · left
    rw [meet]
    exact promote_self (kind_of_native? found)
  · right
    rw [double]
    rfl

end Number

/-! ## Values -/

namespace Value

/-- A value that is neither an infinity nor a number that is not one. -/
def isFinite : Value → Bool
  | number n => n.isFinite
  | _ => true

/-- A float or a double that is not a number. -/
def IsNan : Value → Prop
  | number n => n.IsNan
  | _ => False

/-- A finite value is equal to itself. -/
theorem comparison_equal_self (v : Value) : comparison .equal v v = .ok (boolean v.isFinite) := by
  apply answers_iff.mpr
  cases v with
  | null => rfl
  | boolean b => exact congrArg some (beq_self_eq_true b)
  | string s => exact congrArg some (beq_self_eq_true s)
  | number n => exact congrArg some ((Number.equality_self n true).trans (Bool.and_true _))

/-- No value is unequal to itself. -/
theorem comparison_notEqual_self (v : Value) : comparison .notEqual v v = .ok (boolean false) := by
  apply answers_iff.mpr
  cases v with
  | null => rfl
  | boolean b => exact congrArg (fun same => some !same) (beq_self_eq_true b)
  | string s => exact congrArg (fun same => some !same) (beq_self_eq_true s)
  | number n => exact congrArg some ((Number.equality_self n false).trans (Bool.and_false _))

end Value

/-! ## Results -/

/-- Sums and products always have a result, and the one with the operands exchanged is equal to
it as long as the machine's own result is finite. The two can differ in their kinds, but then
one of them is the double that the other is taken to. -/
theorem arithmetic_commutes {op : ArithmeticOp} (commutes : op = .add ∨ op = .multiply)
    (left right : Number) :
    ∃ native one other,
      Number.native? op left right (Number.domain left.kind right.kind) = some native ∧
        Value.arithmetic op (.number left) (.number right) = .ok (.number one) ∧
        Value.arithmetic op (.number right) (.number left) = .ok (.number other) ∧
        (native.isFinite →
          Value.comparison .equal (.number one) (.number other) = .ok (.boolean true) ∧
            Value.comparison .notEqual (.number one) (.number other) = .ok (.boolean false)) := by
  have no_remainder : op ≠ .remainder := by
    rcases commutes with rfl | rfl <;> nofun
  obtain ⟨native, found⟩ : ∃ native,
      Number.native? op left right (Number.domain left.kind right.kind) = some native := by
    rcases commutes with rfl | rfl <;>
      cases Number.domain left.kind right.kind <;> exact ⟨_, rfl⟩
  have exchanged : Number.native? op right left (Number.domain right.kind left.kind) = some native := by
    rw [Number.native?_comm commutes, Number.domain_comm]
    exact found
  obtain ⟨one, first, taken⟩ := Number.arithmetic?_isTaken no_remainder found
  obtain ⟨other, second, taken'⟩ := Number.arithmetic?_isTaken no_remainder exchanged
  refine ⟨native, one, other, found, Value.arithmetic_eq_ok first, Value.arithmetic_eq_ok second,
    fun finite => ?_⟩
  have same := Number.equality_of_isTaken taken taken' finite
  constructor
  · apply Value.answers_number.mpr
    exact congrArg some (same true)
  · apply Value.answers_number.mpr
    exact congrArg some (same false)

/-- The sum of a byte and a long number is a double, and this one is not exact. The sum of a long
number and a byte is long. -/
theorem arithmetic_commutes_byte_long :
    ∃ one other,
      Value.arithmetic .add (.number (.byte 1)) (.number (.long 9007199254740992)) =
          .ok (.number one) ∧
        Value.arithmetic .add (.number (.long 9007199254740992)) (.number (.byte 1)) =
          .ok (.number other) ∧
        Value.comparison .equal (.number one) (.number other) = .ok (.boolean true) ∧
        Value.comparison .notEqual (.number one) (.number other) = .ok (.boolean false) := by
  obtain ⟨native, one, other, found, first, second, same⟩ :=
    arithmetic_commutes (.inl rfl) (.byte 1) (.long 9007199254740992)
  cases found
  obtain ⟨equal, unequal⟩ := same rfl
  exact ⟨one, other, first, second, equal, unequal⟩

theorem Expression.evaluate_comparison {arena : Arena} {scope : Scope.Handle}
    {left right : Expression} {a b : Value} (op : CompareOp) (l : left.evaluate arena scope = .ok a)
    (r : right.evaluate arena scope = .ok b) :
    (Expression.comparison op left right).evaluate arena scope = Value.comparison op a b := by
  rw [Expression.evaluate, l, r]
  rfl

/-- The expression `1.0d / 0`. -/
def Expression.oneByZero : Expression :=
  .binary .divide (.literal (.number (.double (.ofDecimal .double false 10 (-1)))))
    (.literal (.number (.integer 0)))

theorem Expression.evaluate_oneByZero :
    oneByZero.evaluate [] ⟨0, 0⟩ = .ok (.number (.double (.infinity false))) := by
  decide +kernel

/-- Two expressions of one value are found equal where it is finite, and never unequal. -/
theorem equal_self {arena : Arena} {scope : Scope.Handle} {left right : Expression} {v : Value}
    (left_eq : left.evaluate arena scope = .ok v) (right_eq : right.evaluate arena scope = .ok v) :
    (Expression.comparison .equal left right).evaluate arena scope = .ok (.boolean v.isFinite) ∧
      (Expression.comparison .notEqual left right).evaluate arena scope = .ok (.boolean false) := by
  rw [Expression.evaluate_comparison .equal left_eq right_eq,
    Expression.evaluate_comparison .notEqual left_eq right_eq]
  exact ⟨Value.comparison_equal_self v, Value.comparison_notEqual_self v⟩

/-- An infinity is neither equal nor unequal to itself, and a truth value is equal. -/
theorem equal_self_infinity :
    Expression.oneByZero.evaluate [] ⟨0, 0⟩ = .ok (.number (.double (.infinity false))) ∧
      (Expression.comparison .equal .oneByZero .oneByZero).evaluate [] ⟨0, 0⟩ =
        .ok (.boolean false) ∧
      (Expression.comparison .notEqual .oneByZero .oneByZero).evaluate [] ⟨0, 0⟩ =
        .ok (.boolean false) ∧
      (Expression.comparison .equal (.literal (.boolean true))
        (.not (.literal (.boolean false)))).evaluate [] ⟨0, 0⟩ = .ok (.boolean true) := by
  obtain ⟨equal, unequal⟩ :=
    equal_self Expression.evaluate_oneByZero Expression.evaluate_oneByZero
  have written : (Expression.literal (.boolean true)).evaluate [] ⟨0, 0⟩ = .ok (.boolean true) := rfl
  have negated : (Expression.not (.literal (.boolean false))).evaluate [] ⟨0, 0⟩ =
      .ok (.boolean true) := rfl
  exact ⟨Expression.evaluate_oneByZero, equal, unequal, (equal_self written negated).1⟩

/-- Leaving out what is not a number does not make equality reflexive. -/
theorem not_equal_self :
    Expression.oneByZero.evaluate [] ⟨0, 0⟩ = .ok (.number (.double (.infinity false))) ∧
      ¬ (Value.number (.double (.infinity false))).IsNan ∧
      ¬ ∀ (arena : Arena) (scope : Scope.Handle) (expression : Expression) (v : Value),
        expression.evaluate arena scope = .ok v → ¬ v.IsNan →
          (Expression.comparison .equal expression expression).evaluate arena scope =
              .ok (.boolean true) ∧
            (Expression.comparison .notEqual expression expression).evaluate arena scope =
              .ok (.boolean false) := by
  have number : ¬ (Value.number (.double (.infinity false))).IsNan := nofun
  refine ⟨Expression.evaluate_oneByZero, number, fun reflexive => ?_⟩
  have claimed := (reflexive [] ⟨0, 0⟩ _ _ Expression.evaluate_oneByZero number).1
  have found := Value.comparison_equal_self (.number (.double (.infinity false)))
  rw [← Expression.evaluate_comparison .equal Expression.evaluate_oneByZero
    Expression.evaluate_oneByZero, claimed] at found
  cases found

end KindScript
