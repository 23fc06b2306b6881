import KindScript.Binary

/-!
# Rounding goes by the value

Rounding a quotient depends on its value alone, and it keeps the numbers of the format. So a
decimal number is read as the same number of the format with and without zeros at its end,
whatever its sign, and one that stands for a number of the format is read as that number.
-/

namespace KindScript

attribute [local instance (10000)] instPowNat

/-! ## Quotients -/

theorem roundEven_mul_right {k : Nat} (num den : Nat) (positive : 0 < k) :
    roundEven (num * k) (den * k) = roundEven num den := by
  have below : 2 * (num % den * k) < den * k ↔ 2 * (num % den) < den := by
    rw [← Nat.mul_assoc]
    exact Nat.mul_lt_mul_right positive
  have above : den * k < 2 * (num % den * k) ↔ den < 2 * (num % den) := by
    rw [← Nat.mul_assoc]
    exact Nat.mul_lt_mul_right positive
  unfold roundEven
  simp only [Nat.mul_div_mul_right _ _ positive, Nat.mul_mod_mul_right, below, above]

theorem roundEven_mul_self {den : Nat} (n : Nat) (positive : 0 < den) :
    roundEven (n * den) den = n := by
  have scaled := roundEven_mul_right n 1 positive
  rwa [Nat.one_mul, roundEven_one] at scaled

namespace Binary

variable {f : Format} {units num den num' den' : Nat}

/-- The magnitude to which a quotient is rounded. -/
def rounded (f : Format) (num den : Nat) : Nat :=
  roundEven num (den * spacing f num den) * spacing f num den

theorem round_congr (negative : Bool) (same : rounded f num den = rounded f num' den') :
    round f negative num den = round f negative num' den' := by
  unfold rounded at same
  unfold round
  simp only [same]

theorem rounded_mul_right {k : Nat} (f : Format) (num den : Nat) (positive : 0 < k) :
    rounded f (num * k) (den * k) = rounded f num den := by
  have spacing_eq : spacing f (num * k) (den * k) = spacing f num den := by
    unfold spacing
    rw [Nat.mul_div_mul_right _ _ positive]
  have den_eq : den * k * spacing f num den = den * spacing f num den * k := Nat.mul_right_comm ..
  unfold rounded
  rw [spacing_eq, den_eq, roundEven_mul_right _ _ positive]

/-- Numbers of the format are rounded to themselves. -/
theorem round_one (negative : Bool) (holds : f.Holds units) :
    round f negative units 1 = finite negative units holds := by
  have spacing_eq : spacing f units 1 = 2 ^ f.shift units := by
    unfold spacing
    rw [Nat.div_one]
  obtain ⟨significand, whole⟩ := holds.1
  have exact : rounded f units 1 = units := by
    unfold rounded
    rw [spacing_eq, Nat.one_mul]
    calc roundEven units (2 ^ f.shift units) * 2 ^ f.shift units
        = roundEven (significand * 2 ^ f.shift units) (2 ^ f.shift units) * 2 ^ f.shift units := by
          rw [Nat.mul_comm significand, ← whole]
      _ = significand * 2 ^ f.shift units := by
          rw [roundEven_mul_self _ (Nat.two_pow_pos _)]
      _ = units := by rw [Nat.mul_comm, ← whole]
  unfold rounded at exact
  unfold round
  simp only [exact, dif_pos holds.2]

/-! ## Decimal numbers -/

theorem length_toDigits_mul_ten {n : Nat} (positive : 0 < n) :
    (Nat.toDigits 10 (n * 10)).length = (Nat.toDigits 10 n).length + 1 := by
  have last : Nat.toDigits 10 (n * 10) = Nat.toDigits 10 n ++ Nat.toDigits 10 0 := by
    rw [Nat.toDigits_append_toDigits (by decide) positive (by decide), Nat.mul_comm, Nat.add_zero]
  rw [last, List.length_append]
  rfl

theorem ofDecimal_zero (f : Format) (negative : Bool) (exponent : Int) :
    ofDecimal f negative 0 exponent = zero negative := by
  unfold ofDecimal
  exact if_pos (.inl rfl)

theorem ofDecimal_mul_ten (f : Format) (negative : Bool) (n : Nat) (exponent : Int) :
    ofDecimal f negative (n * 10) exponent = ofDecimal f negative n (exponent + 1) := by
  rcases Nat.eq_zero_or_pos n with rfl | positive
  · rw [Nat.zero_mul, ofDecimal_zero, ofDecimal_zero]
  have magnitude : ((Nat.toDigits 10 (n * 10)).length + exponent : Int) =
      (Nat.toDigits 10 n).length + (exponent + 1) := by
    rw [length_toDigits_mul_ten positive]
    omega
  have filled : n * 10 = 0 ↔ n = 0 := by omega
  have value : round f negative (n * 10 * 10 ^ exponent.toNat * 2 ^ f.fraction)
        (10 ^ (-exponent).toNat) =
      round f negative (n * 10 ^ (exponent + 1).toNat * 2 ^ f.fraction)
        (10 ^ (-(exponent + 1)).toNat) := by
    by_cases below : exponent < 0
    · have places : (-exponent).toNat = (-(exponent + 1)).toNat + 1 := by omega
      have none : exponent.toNat = 0 := by omega
      have none' : (exponent + 1).toNat = 0 := by omega
      have num_eq : n * 10 * 10 ^ exponent.toNat * 2 ^ f.fraction =
          n * 10 ^ (exponent + 1).toNat * 2 ^ f.fraction * 10 := by
        rw [none, none', Nat.pow_zero, Nat.mul_one, Nat.mul_one, Nat.mul_right_comm]
      rw [num_eq, places, Nat.pow_succ]
      exact round_congr negative (rounded_mul_right f _ _ (by decide))
    · have places : (exponent + 1).toNat = exponent.toNat + 1 := by omega
      have none : (-exponent).toNat = 0 := by omega
      have none' : (-(exponent + 1)).toNat = 0 := by omega
      rw [places, none, none', Nat.pow_succ, Nat.mul_assoc n, Nat.mul_comm 10]
  unfold ofDecimal
  simp only [magnitude, filled, value]

/-- Zeros at the end of the digits count as a power of ten. -/
theorem ofDecimal_mul_pow (f : Format) (negative : Bool) (n k : Nat) (exponent : Int) :
    ofDecimal f negative (n * 10 ^ k) exponent = ofDecimal f negative n (exponent + k) := by
  induction k generalizing exponent with
  | zero => rw [Nat.pow_zero, Nat.mul_one, Int.natCast_zero, Int.add_zero]
  | succ k ih =>
    rw [Nat.pow_succ, ← Nat.mul_assoc, ofDecimal_mul_ten, ih]
    congr 1
    omega

theorem round_sign {negative : Bool} {holds : f.Holds units} (other : Bool)
    (read : round f negative num den = finite negative units holds) :
    round f other num den = finite other units holds := by
  unfold round at read ⊢
  simp only at read ⊢
  split at read
  · rename_i small
    rw [dif_pos small]
    cases read
    rfl
  · cases read

/-- The sign of a decimal number goes to the number that it is read as. -/
theorem ofDecimal_sign {negative : Bool} {n : Nat} {exponent : Int} {holds : f.Holds units}
    (other : Bool) (read : ofDecimal f negative n exponent = finite negative units holds) :
    ofDecimal f other n exponent = finite other units holds := by
  unfold ofDecimal at read ⊢
  simp only at read ⊢
  split at read
  · rename_i small
    rw [if_pos small]
    cases read
    rfl
  rename_i large
  split at read
  · cases read
  rename_i within
  rw [if_neg large, if_neg within]
  exact round_sign other read

/-! ## Exact values -/

/-- The numbers of the format lie within the powers of ten that reading tells apart: the
smallest unit, and the bound of all magnitudes. -/
structure InReach (f : Format) : Prop where
  least : 10 ^ (f.fraction - 401) ≤ 5 ^ f.fraction
  greatest : 2 ^ (f.precision + f.span) * 5 ^ f.fraction ≤ 10 ^ (f.fraction + 400)

theorem inReach_single : InReach .single := by
  constructor <;> decide +kernel

theorem inReach_double : InReach .double := by
  constructor <;> decide +kernel

/-- The decimal number that is exactly some units is read as them. -/
theorem ofDecimal_exact (reach : InReach f) (some : units ≠ 0) (negative : Bool)
    (holds : f.Holds units) :
    ofDecimal f negative (units * 5 ^ f.fraction) (-f.fraction) =
      finite negative units holds := by
  have least : 10 ^ (f.fraction - 401) ≤ units * 5 ^ f.fraction :=
    Nat.le_trans reach.least (Nat.le_mul_of_pos_left _ (Nat.pos_of_ne_zero some))
  have greatest : units * 5 ^ f.fraction < 10 ^ (f.fraction + 400) :=
    Nat.lt_of_lt_of_le ((Nat.mul_lt_mul_right (Nat.pow_pos (by decide))).mpr holds.2)
      reach.greatest
  have filled : units * 5 ^ f.fraction ≠ 0 :=
    Nat.mul_ne_zero some (Nat.ne_of_gt (Nat.pow_pos (by decide)))
  have value : round f negative (units * 5 ^ f.fraction * 10 ^ (-(f.fraction : Int)).toNat *
        2 ^ f.fraction) (10 ^ (- -(f.fraction : Int)).toNat) = finite negative units holds := by
    have none : (-(f.fraction : Int)).toNat = 0 := by omega
    have places : (- -(f.fraction : Int)).toNat = f.fraction := by omega
    have tens : units * 5 ^ f.fraction * 2 ^ f.fraction = units * 10 ^ f.fraction := by
      rw [Nat.mul_assoc, ← Nat.mul_pow]
    have scaled := rounded_mul_right f units 1 (Nat.pow_pos (n := f.fraction) (Nat.zero_lt_succ 9))
    rw [none, places, Nat.pow_zero, Nat.mul_one, tens]
    rw [Nat.one_mul] at scaled
    exact (round_congr negative scaled).trans (round_one negative holds)
  generalize length_eq : (Nat.toDigits 10 (units * 5 ^ f.fraction)).length = length
  have long : f.fraction - 401 < length := by
    have some : 0 < length := length_eq ▸ Nat.length_toDigits_pos
    refine Nat.lt_of_not_le fun short => ?_
    rw [← length_eq, Nat.length_toDigits_le_iff (by decide) (by omega)] at short
    omega
  have short : length ≤ f.fraction + 400 := by
    rw [← length_eq, Nat.length_toDigits_le_iff (by decide) (by omega)]
    exact greatest
  unfold ofDecimal decimalReach
  simp only [length_eq, value]
  rw [if_neg (by omega), if_neg (by omega)]

end Binary

end KindScript
