import KindScript.Proofs.Evaluation.Kinds
import KindScript.Proofs.Numbers.Approximation

/-!
# Arithmetic on whole numbers

Whole numbers meet in machine integers of 64 bits where one of them is long, and of 32 bits
otherwise. The result is what whole numbers without bounds have as theirs, taken into the range
of these integers. The tables of kinds never lose any of it, but for a byte or a character with
a long number on its right: there it is taken to the nearest double.
-/

namespace KindScript

attribute [local instance (10000)] instPowNat

open Binary (ofInt roomy_double)

/-! ## Whole numbers -/

namespace ArithmeticOp

/-- The operation on whole numbers without bounds. The quotient is cut off toward zero, and the
remainder has the sign of the dividend. -/
def exact : ArithmeticOp → Int → Int → Int
  | add, a, b => a + b
  | subtract, a, b => a - b
  | multiply, a, b => a * b
  | divide, a, b => a.tdiv b
  | remainder, a, b => a.tmod b

/-- The right operand must not be zero. -/
def Divides (op : ArithmeticOp) : Prop :=
  op = divide ∨ op = remainder

instance (op : ArithmeticOp) : Decidable op.Divides :=
  inferInstanceAs (Decidable (_ ∨ _))

end ArithmeticOp

namespace Number

/-- The whole number that a number is by its kind. A character is its code point. -/
def whole? : Number → Option Int
  | byte v => some v.toNat
  | integer v => some v.toInt
  | long v => some v.toInt
  | char v => some v.toNat
  | _ => none

/-- What a number stands for. -/
def value? : Number → Option Rat
  | float v => v.value?
  | double v => v.value?
  | n => n.whole?.map fun a => (a : Rat)

namespace Kind

/-- The width of the machine integers in which whole numbers of two kinds meet. -/
def width (left right : Kind) : Nat :=
  if left = long ∨ right = long then 64 else 32

/-- The kinds to the right of which a long number makes a double. -/
def IsShort (kind : Kind) : Prop :=
  kind = byte ∨ kind = char

end Kind

/-! ## Machine integers -/

/-- On 32 bits the result is that of whole numbers without bounds, taken into the range. -/
theorem int32Arithmetic?_eq (op : ArithmeticOp) (a b : Int32) :
    int32Arithmetic? op a b =
      if op.Divides ∧ b.toInt = 0 then none else some (Int32.ofInt (op.exact a.toInt b.toInt)) := by
  have zero : b.toInt = 0 ↔ b = 0 := by
    rw [← Int32.toInt_inj]
    rfl
  simp only [zero]
  cases op with
  | add | subtract | multiply => simp [int32Arithmetic?, ArithmeticOp.Divides, ArithmeticOp.exact]
  | divide =>
    have same : Int32.ofInt (a.toInt.tdiv b.toInt) = a / b := by
      rw [← Int32.toInt_inj, Int32.toInt_ofInt, Int32.toInt_div]
    simp [int32Arithmetic?, ArithmeticOp.Divides, ArithmeticOp.exact, same]
  | remainder =>
    have same : Int32.ofInt (a.toInt.tmod b.toInt) = a % b := by
      rw [← Int32.toInt_mod, Int32.ofInt_toInt]
    simp [int32Arithmetic?, ArithmeticOp.Divides, ArithmeticOp.exact, same]

/-- So it is on 64 bits. -/
theorem int64Arithmetic?_eq (op : ArithmeticOp) (a b : Int64) :
    int64Arithmetic? op a b =
      if op.Divides ∧ b.toInt = 0 then none else some (Int64.ofInt (op.exact a.toInt b.toInt)) := by
  have zero : b.toInt = 0 ↔ b = 0 := by
    rw [← Int64.toInt_inj]
    rfl
  simp only [zero]
  cases op with
  | add | subtract | multiply => simp [int64Arithmetic?, ArithmeticOp.Divides, ArithmeticOp.exact]
  | divide =>
    have same : Int64.ofInt (a.toInt.tdiv b.toInt) = a / b := by
      rw [← Int64.toInt_inj, Int64.toInt_ofInt, Int64.toInt_div]
    simp [int64Arithmetic?, ArithmeticOp.Divides, ArithmeticOp.exact, same]
  | remainder =>
    have same : Int64.ofInt (a.toInt.tmod b.toInt) = a % b := by
      rw [← Int64.toInt_mod, Int64.ofInt_toInt]
    simp [int64Arithmetic?, ArithmeticOp.Divides, ArithmeticOp.exact, same]

/-! ## Where kinds meet -/

variable {n left right native : Number} {op : ArithmeticOp} {a b : Int}

/-- A whole number is one of 32 bits, or it is long. -/
theorem domain_of_whole (whole : n.whole? = some a) :
    n.kind.domain = .int ∧ n.kind ≠ .long ∧ n.toInt32.toInt = a ∨
      n.kind.domain = .long ∧ n.kind = .long := by
  cases n with
  | byte v =>
    cases whole
    exact .inl ⟨rfl, nofun, Int32.toInt_ofNat_of_lt (Nat.lt_trans v.toNat_lt (by decide))⟩
  | integer v =>
    cases whole
    exact .inl ⟨rfl, nofun, rfl⟩
  | float | double => cases whole
  | long => exact .inr ⟨rfl, rfl⟩
  | char v =>
    cases whole
    have small : v.toNat < 2 ^ 31 := by
      have valid : v.toNat < 0xd800 ∨ 0xdfff < v.toNat ∧ v.toNat < 0x110000 := v.valid
      omega
    exact .inl ⟨rfl, nofun, Int32.toInt_ofNat_of_lt small⟩

theorem toInt_toInt64 (whole : n.whole? = some a) : n.toInt64.toInt = a := by
  rcases domain_of_whole whole with ⟨_, short, same⟩ | ⟨_, long⟩
  · cases n with
    | byte | integer | char => exact (Int32.toInt_toInt64 _).trans same
    | float | double => cases whole
    | long => exact absurd rfl short
  · cases n <;> cases long
    cases whole
    rfl

/-- The machine integers in which two whole numbers meet have the width for their kinds. -/
theorem meet_of_whole (l : left.whole? = some a) (r : right.whole? = some b) :
    domain left.kind right.kind = .int ∧ Kind.width left.kind right.kind = 32 ∧
        left.toInt32.toInt = a ∧ right.toInt32.toInt = b ∨
      domain left.kind right.kind = .long ∧ Kind.width left.kind right.kind = 64 := by
  rcases domain_of_whole l with ⟨dl, short, same⟩ | ⟨dl, long⟩
  · rcases domain_of_whole r with ⟨dr, short', same'⟩ | ⟨dr, long'⟩
    · left
      rw [domain, dl, dr, Kind.width, if_neg (not_or.mpr ⟨short, short'⟩)]
      exact ⟨rfl, rfl, same, same'⟩
    · right
      rw [domain, dl, dr, Kind.width, if_pos (.inr long')]
      exact ⟨rfl, rfl⟩
  · right
    rw [domain, dl, Kind.width, if_pos (.inl long)]
    rcases domain_of_whole r with ⟨dr, _⟩ | ⟨dr, _⟩ <;> rw [dr] <;> exact ⟨rfl, rfl⟩

theorem kind_of_native? {d : Domain} (found : native? op left right d = some native) :
    native.kind = d.kind := by
  cases d with
  | int | long =>
    obtain ⟨v, _, rfl⟩ := Option.map_eq_some_iff.mp found
    rfl
  | float | double =>
    cases found
    rfl

/-- What the operation makes of two whole numbers before it is taken into the kind of the
result. -/
theorem native?_of_whole (op : ArithmeticOp) (l : left.whole? = some a)
    (r : right.whole? = some b) :
    (op.Divides ∧ b = 0 → native? op left right (domain left.kind right.kind) = none) ∧
      (¬ (op.Divides ∧ b = 0) → ∃ native,
        native? op left right (domain left.kind right.kind) = some native ∧
          native.whole? = some ((op.exact a b).bmod (2 ^ Kind.width left.kind right.kind))) := by
  rcases meet_of_whole l r with ⟨meet, width, rfl, rfl⟩ | ⟨meet, width⟩
  · rw [meet, width, native?, int32Arithmetic?_eq]
    refine ⟨fun zero => by rw [if_pos zero]; rfl, fun defined => ?_⟩
    rw [if_neg defined]
    exact ⟨_, rfl, congrArg some Int32.toInt_ofInt⟩
  · rw [meet, width, native?, int64Arithmetic?_eq, toInt_toInt64 l, toInt_toInt64 r]
    refine ⟨fun zero => by rw [if_pos zero]; rfl, fun defined => ?_⟩
    rw [if_neg defined]
    exact ⟨_, rfl, congrArg some Int64.toInt_ofInt⟩

/-! ## Results -/

theorem promote_self {d : Domain} (kind : n.kind = d.kind) : n.promote d = n := by
  cases d <;> cases n <;> cases kind <;> rfl

theorem arithmetic?_of_native
    (found : native? op left right (domain left.kind right.kind) = some native) :
    arithmetic? op left right = some (native.promote (resultFor op left.kind right.kind)) := by
  rw [arithmetic?, found]
  rfl

theorem resultFor_of_int {l r : Kind} (op : ArithmeticOp) (meet : domain l r = .int) :
    ¬ (l.IsShort ∧ r = .long) ∧ (resultFor op l r = .int ∨ resultFor op l r = .double) := by
  cases l <;> cases r <;> cases meet <;> simp [resultFor, resultDomain]

theorem resultFor_of_long {l r : Kind} (op : ArithmeticOp) (meet : domain l r = .long) :
    (l.IsShort ∧ r = .long) ∧ resultFor op l r = .double ∨
      ¬ (l.IsShort ∧ r = .long) ∧ resultFor op l r = .long := by
  cases l <;> cases r <;> cases meet <;> simp [resultFor, resultDomain, Kind.IsShort]

theorem exists_integer (kind : n.kind = .integer) : ∃ v, n = integer v := by
  cases n <;> cases kind
  exact ⟨_, rfl⟩

theorem exists_long (kind : n.kind = .long) : ∃ v, n = long v := by
  cases n <;> cases kind
  exact ⟨_, rfl⟩

/-- An integer is taken to a double as it is. -/
theorem value?_toDouble (kind : n.kind = .integer) (whole : n.whole? = some a) :
    (n.promote .double).value? = some (a : Rat) := by
  obtain ⟨v, rfl⟩ := exists_integer kind
  cases whole
  have low := v.le_toInt
  have high := v.toInt_lt
  have short : v.toInt.natAbs ≤ 2 ^ 53 := by omega
  show (ofInt .double v.toInt).value? = _
  exact Binary.value?_ofInt roomy_double (by omega) short

/-- A long number is taken to the nearest double. -/
theorem isNearest_toDouble (kind : n.kind = .long) (whole : n.whole? = some a) :
    ∃ (x : Double) (value : Rat), n.promote .double = .double x ∧ x.IsNearest value a := by
  obtain ⟨v, rfl⟩ := exists_long kind
  cases whole
  have low := v.le_toInt
  have high := v.toInt_lt
  obtain ⟨value, nearest⟩ := Binary.ofInt_isNearest roomy_double (n := v.toInt) (by omega)
  exact ⟨_, value, rfl, nearest⟩

theorem value?_of_whole (whole : n.whole? = some a) : n.value? = some (a : Rat) := by
  cases n <;> cases whole <;> rfl

/-- The result of an operation on two whole numbers is of the kind that the table has for it,
and it is the exact result, or the nearest double. -/
structure IsResult (op : ArithmeticOp) (left right result : Number) (exact : Int) : Prop where
  kind : result.kind = resultKind op left.kind right.kind
  value : ¬ (left.kind.IsShort ∧ right.kind = .long) → result.value? = some (exact : Rat)
  nearest : left.kind.IsShort ∧ right.kind = .long →
    ∃ (x : Double) (value : Rat), result = .double x ∧ x.IsNearest value exact

theorem arithmetic?_of_whole (op : ArithmeticOp) (l : left.whole? = some a)
    (r : right.whole? = some b) (defined : ¬ (op.Divides ∧ b = 0)) :
    ∃ result, arithmetic? op left right = some result ∧
      IsResult op left right result
        ((op.exact a b).bmod (2 ^ Kind.width left.kind right.kind)) := by
  obtain ⟨native, found, whole⟩ := (native?_of_whole op l r).2 defined
  have kind := kind_of_native? found
  have done := arithmetic?_of_native found
  refine ⟨_, done, ?_⟩
  have resultKind_eq := kind_of_arithmetic? done
  rcases meet_of_whole l r with ⟨meet, _⟩ | ⟨meet, _⟩
  · rw [meet] at kind
    obtain ⟨other, same | double⟩ := resultFor_of_int op meet
    · rw [same, promote_self kind] at resultKind_eq ⊢
      exact ⟨resultKind_eq, fun _ => value?_of_whole whole, fun short => absurd short other⟩
    · rw [double] at resultKind_eq ⊢
      exact ⟨resultKind_eq, fun _ => value?_toDouble kind whole, fun short => absurd short other⟩
  · rw [meet] at kind
    rcases resultFor_of_long op meet with ⟨short, double⟩ | ⟨other, same⟩
    · rw [double] at resultKind_eq ⊢
      exact ⟨resultKind_eq, fun other => absurd short other, fun _ => isNearest_toDouble kind whole⟩
    · rw [same, promote_self kind] at resultKind_eq ⊢
      exact ⟨resultKind_eq, fun _ => value?_of_whole whole, fun short => absurd short other⟩

/-- Where one of the numbers is no whole number every operation has a result. -/
theorem arithmetic?_of_floating (op : ArithmeticOp)
    (floating : left.whole? = none ∨ right.whole? = none) :
    ∃ result, arithmetic? op left right = some result := by
  have meet : domain left.kind right.kind = .float ∨ domain left.kind right.kind = .double := by
    cases left <;> cases right <;> simp_all [whole?, kind, domain, Kind.domain, Domain.join,
      Domain.rank]
  rcases meet with meet | meet <;> exact ⟨_, by rw [arithmetic?, meet]; rfl⟩

end Number

/-! ## Quotient and remainder -/

/-- The quotient and the remainder make up the dividend, also in a range that the quotient
leaves. -/
theorem bmod_quotient_remainder (a b : Int) (m : Nat) :
    (((a.tdiv b).bmod m * b).bmod m + a.tmod b).bmod m = a.bmod m := by
  rw [Int.bmod_mul_bmod, Int.bmod_add_bmod, Int.tdiv_mul_add_tmod]

theorem int32_quotient_remainder (a b : Int32) : a / b * b + a % b = a := by
  rw [← Int32.toInt_inj, Int32.toInt_add, Int32.toInt_mul, Int32.toInt_div, Int32.toInt_mod,
    bmod_quotient_remainder]
  exact Int32.toInt_bmod_size a

theorem int64_quotient_remainder (a b : Int64) : a / b * b + a % b = a := by
  rw [← Int64.toInt_inj, Int64.toInt_add, Int64.toInt_mul, Int64.toInt_div, Int64.toInt_mod,
    bmod_quotient_remainder]
  exact Int64.toInt_bmod_size a

theorem Expression.evaluate_binary {arena : Arena} {scope : Scope.Handle} {left right : Expression}
    {a b : Value} (op : ArithmeticOp) (l : left.evaluate arena scope = .ok a)
    (r : right.evaluate arena scope = .ok b) :
    (Expression.binary op left right).evaluate arena scope = Value.arithmetic op a b := by
  rw [Expression.evaluate, l, r]
  rfl

theorem Value.arithmetic_eq_ok {op : ArithmeticOp} {a b n : Number}
    (done : Number.arithmetic? op a b = some n) :
    Value.arithmetic op (.number a) (.number b) = .ok (.number n) := by
  rw [Value.arithmetic, done]

theorem Number.arithmetic?_integer {op : ArithmeticOp} {a b c : Int32}
    (done : int32Arithmetic? op a b = some c) :
    arithmetic? op (.integer a) (.integer b) = some (.integer c) := by
  show ((int32Arithmetic? op a b).map Number.integer).map _ = _
  rw [done]
  cases op <;> rfl

theorem Number.arithmetic?_long {op : ArithmeticOp} {a b c : Int64}
    (done : int64Arithmetic? op a b = some c) :
    arithmetic? op (.long a) (.long b) = some (.long c) := by
  show ((int64Arithmetic? op a b).map Number.long).map _ = _
  rw [done]
  cases op <;> rfl

/-- The expression `(l / r) * r + l % r`. -/
def Expression.recombined (left right : Expression) : Expression :=
  .binary .add (.binary .multiply (.binary .divide left right) right) (.binary .remainder left right)

/-- Quotient times divisor and remainder, evaluated one after another. -/
theorem Expression.evaluate_recombined {arena : Arena} {scope : Scope.Handle}
    {left right : Expression} {l r quotient product rest sum : Number}
    (left_eq : left.evaluate arena scope = .ok (.number l))
    (right_eq : right.evaluate arena scope = .ok (.number r))
    (divided : Number.arithmetic? .divide l r = some quotient)
    (multiplied : Number.arithmetic? .multiply quotient r = some product)
    (left_over : Number.arithmetic? .remainder l r = some rest)
    (added : Number.arithmetic? .add product rest = some sum) :
    (recombined left right).evaluate arena scope = .ok (.number sum) := by
  have quotient_eq := (evaluate_binary .divide left_eq right_eq).trans (Value.arithmetic_eq_ok divided)
  have product_eq :=
    (evaluate_binary .multiply quotient_eq right_eq).trans (Value.arithmetic_eq_ok multiplied)
  have rest_eq :=
    (evaluate_binary .remainder left_eq right_eq).trans (Value.arithmetic_eq_ok left_over)
  exact (evaluate_binary .add product_eq rest_eq).trans (Value.arithmetic_eq_ok added)

/-- Two integers or two long numbers, the right one not zero, recombine to the left one. -/
theorem Expression.evaluate_recombined_self {arena : Arena} {scope : Scope.Handle}
    {left right : Expression} {l r : Number}
    (left_eq : left.evaluate arena scope = .ok (.number l))
    (right_eq : right.evaluate arena scope = .ok (.number r))
    (kinds : l.kind = .integer ∧ r.kind = .integer ∨ l.kind = .long ∧ r.kind = .long)
    (nonzero : r.whole? ≠ some 0) :
    (recombined left right).evaluate arena scope = .ok (.number l) := by
  rcases kinds with ⟨hl, hr⟩ | ⟨hl, hr⟩
  · obtain ⟨a, rfl⟩ := Number.exists_integer hl
    obtain ⟨b, rfl⟩ := Number.exists_integer hr
    have divides : b ≠ 0 := by
      rintro rfl
      exact nonzero rfl
    have sum : Number.arithmetic? .add (.integer (a / b * b)) (.integer (a % b)) = some _ :=
      Number.arithmetic?_integer rfl
    rw [int32_quotient_remainder] at sum
    exact evaluate_recombined left_eq right_eq
      (Number.arithmetic?_integer (if_neg divides)) (Number.arithmetic?_integer rfl)
      (Number.arithmetic?_integer (if_neg divides)) sum
  · obtain ⟨a, rfl⟩ := Number.exists_long hl
    obtain ⟨b, rfl⟩ := Number.exists_long hr
    have divides : b ≠ 0 := by
      rintro rfl
      exact nonzero rfl
    have sum : Number.arithmetic? .add (.long (a / b * b)) (.long (a % b)) = some _ :=
      Number.arithmetic?_long rfl
    rw [int64_quotient_remainder] at sum
    exact evaluate_recombined left_eq right_eq
      (Number.arithmetic?_long (if_neg divides)) (Number.arithmetic?_long rfl)
      (Number.arithmetic?_long (if_neg divides)) sum

/-! ## Arithmetic -/

open Number (IsResult)

/-- Arithmetic on whole numbers fails where it divides by zero and nowhere else, and has what
whole numbers without bounds have for its result, taken into the range of the machine integers.
So a quotient and a remainder make up the dividend. Where a float or a double takes part there
is always a result. -/
theorem arithmetic_exact :
    (∀ (op : ArithmeticOp) (left right : Number) (a b : Int),
      left.whole? = some a → right.whole? = some b →
        (Value.arithmetic op (.number left) (.number right) = .error .divisionByZero ↔
            op.Divides ∧ b = 0) ∧
          (¬ (op.Divides ∧ b = 0) → ∃ result,
            Value.arithmetic op (.number left) (.number right) = .ok (.number result) ∧
              IsResult op left right result
                ((op.exact a b).bmod (2 ^ Number.Kind.width left.kind right.kind)))) ∧
      (∀ (arena : Arena) (scope : Scope.Handle) (left right : Expression) (l r : Number),
        left.evaluate arena scope = .ok (.number l) →
          right.evaluate arena scope = .ok (.number r) →
            (l.kind = .integer ∧ r.kind = .integer ∨ l.kind = .long ∧ r.kind = .long) →
              r.whole? ≠ some 0 →
                (Expression.recombined left right).evaluate arena scope = .ok (.number l)) ∧
      ∀ (op : ArithmeticOp) (left right : Number), left.whole? = none ∨ right.whole? = none →
        ∃ result, Value.arithmetic op (.number left) (.number right) = .ok (.number result) := by
  refine ⟨fun op left right a b l r => ?_, fun _ _ _ _ _ _ => Expression.evaluate_recombined_self,
    fun op left right floating => ?_⟩
  · have done := Number.arithmetic?_of_whole op l r
    constructor
    · constructor
      · intro failed
        by_contra defined
        obtain ⟨result, found, _⟩ := done defined
        rw [Value.arithmetic_eq_ok found] at failed
        cases failed
      · intro zero
        rw [Value.arithmetic, Number.arithmetic?, (Number.native?_of_whole op l r).1 zero]
        rfl
    · intro defined
      obtain ⟨result, found, is⟩ := done defined
      exact ⟨result, Value.arithmetic_eq_ok found, is⟩
  · obtain ⟨result, found⟩ := Number.arithmetic?_of_floating op floating
    exact ⟨result, Value.arithmetic_eq_ok found⟩

/-- The least integer divided by minus one, a sum that no double is equal to, the least long
number put together again, and a division by zero that is none of whole numbers. -/
theorem arithmetic_exact_extremes :
    (∃ result, Value.arithmetic .divide (.number (.integer Int32.minValue))
          (.number (.integer (-1))) = .ok (.number result) ∧
        result.value? = some ((-2147483648 : Int) : Rat)) ∧
      (∃ (x : Double) (value : Rat), Value.arithmetic .add (.number (.byte 1))
          (.number (.long 9007199254740992)) = .ok (.number (.double x)) ∧
        x.IsNearest value (9007199254740993 : Int)) ∧
      (Expression.recombined (.literal (.number (.long Int64.minValue)))
          (.literal (.number (.long (-1))))).evaluate [] ⟨0, 0⟩ =
        .ok (.number (.long Int64.minValue)) ∧
      ∃ result, Value.arithmetic .remainder (.number (.integer 1))
        (.number (.float (.zero false))) = .ok (.number result) := by
  obtain ⟨whole, recombines, floating⟩ := arithmetic_exact
  refine ⟨?_, ?_, ?_, ?_⟩
  · obtain ⟨result, done, is⟩ :=
      (whole .divide (.integer Int32.minValue) (.integer (-1)) _ _ rfl rfl).2 (by decide)
    exact ⟨result, done, is.value nofun⟩
  · obtain ⟨result, done, is⟩ :=
      (whole .add (.byte 1) (.long 9007199254740992) _ _ rfl rfl).2 (by decide)
    obtain ⟨x, value, rfl, nearest⟩ := is.nearest ⟨.inl rfl, rfl⟩
    exact ⟨x, value, done, nearest⟩
  · exact recombines [] ⟨0, 0⟩ _ _ _ _ rfl rfl (.inr ⟨rfl, rfl⟩) nofun
  · exact floating .remainder _ _ (.inr rfl)

end KindScript
