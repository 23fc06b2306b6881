import KindScript.Proofs.Dumps.Rounding
import Mathlib.Algebra.Order.Field.Rat
import Mathlib.Tactic.FieldSimp
import Mathlib.Tactic.Positivity
import Mathlib.Tactic.Ring

/-!
# Rounding takes the nearest number

A finite number of a format stands for a fraction. Rounding a quotient gives the number of the
format that stands for the nearest one, and of two that are equally near the one with the even
significand, unless the quotient is so large that infinity takes its place. So the conversion
of a whole number to a double is exact up to the size of a significand, and the nearest double
beyond that.
-/

namespace KindScript

attribute [local instance (10000)] instPowNat

/-! ## Whole quotients -/

/-- The rounded quotient is the whole part or the number after it, by what is left. -/
theorem roundEven_cases (num den : Nat) :
    2 * (num % den) < den ∧ roundEven num den = num / den ∨
      den < 2 * (num % den) ∧ roundEven num den = num / den + 1 ∨
      2 * (num % den) = den ∧ 2 ∣ roundEven num den ∧
        (roundEven num den = num / den ∨ roundEven num den = num / den + 1) := by
  unfold roundEven
  simp only
  split
  · omega
  · split <;> omega

/-- How far a whole number is from a quotient. -/
theorem distance_cases (num : Nat) {den : Nat} (positive : 0 < den) (k : Int) :
    k = (num / den : Nat) ∧ (k * den - num).natAbs = num % den ∨
      k = (num / den : Nat) + 1 ∧ (k * den - num).natAbs = den - num % den ∨
      (k < (num / den : Nat) ∨ (num / den : Nat) + 1 < k) ∧ den ≤ (k * den - num).natAbs := by
  have left : num % den < den := Nat.mod_lt num positive
  have away : k * den - num = (k - (num / den : Nat)) * den - (num % den : Nat) := by
    have whole : (num : Int) = (num / den : Nat) * den + (num % den : Nat) := by
      rw [Int.mul_comm]
      exact_mod_cast (Nat.div_add_mod num den).symm
    rw [Int.sub_mul]
    omega
  rw [away]
  generalize steps_eq : k - (num / den : Nat) = steps
  have cases : steps ≤ -1 ∨ steps = 0 ∨ steps = 1 ∨ 2 ≤ steps := by omega
  rcases cases with before | rfl | rfl | after
  · have := Int.mul_le_mul_of_nonneg_right before (Int.natCast_nonneg den)
    omega
  · omega
  · omega
  · have := Int.mul_le_mul_of_nonneg_right after (Int.natCast_nonneg den)
    omega

/-- No whole number is nearer to a quotient than the rounded one. One that is as near is the
rounded one itself, or the rounded one is even. -/
theorem roundEven_nearest (num : Nat) {den : Nat} (positive : 0 < den) (k : Int) :
    (roundEven num den * den - num : Int).natAbs ≤ (k * den - num).natAbs ∧
      ((k * den - num).natAbs = (roundEven num den * den - num : Int).natAbs →
        k = roundEven num den ∨ 2 ∣ roundEven num den) := by
  have left : num % den < den := Nat.mod_lt num positive
  have rounded := roundEven_cases num den
  have nearest := distance_cases num positive (roundEven num den)
  have other := distance_cases num positive k
  generalize (roundEven num den * den - num : Int).natAbs = least at *
  generalize (k * den - num).natAbs = distance at *
  omega

/-! ## Counts of units -/

namespace Binary

variable {f : Format} {num den units : Nat} {negative : Bool}

/-- A magnitude of the format that is not below the power of two under a quotient lies on the
numbers to which the quotient can be rounded. -/
theorem spacing_dvd (holds : f.Holds units) (large : 2 ^ (num / den).log2 ≤ units) :
    spacing f num den ∣ units := by
  have some : units ≠ 0 := by
    have := Nat.two_pow_pos (num / den).log2
    omega
  have order : (num / den).log2 ≤ units.log2 := (Nat.le_log2 some).mpr large
  refine Nat.dvd_trans (Nat.pow_dvd_pow 2 ?_) holds.1
  unfold Format.shift
  omega

/-- So does that power of two. -/
theorem spacing_dvd_pow (f : Format) (num den : Nat) :
    spacing f num den ∣ 2 ^ (num / den).log2 := by
  have := f.precision_pos
  apply Nat.pow_dvd_pow
  unfold Format.shift
  omega

/-- No magnitude of the format, of either sign, is nearer to a quotient than the one that it
is rounded to. -/
theorem rounded_nearest (num : Nat) (positive : 0 < den) (holds : f.Holds units)
    (negative : Bool) :
    (rounded f num den * den - num : Int).natAbs ≤ (signed negative units * den - num).natAbs ∧
      ((signed negative units * den - num).natAbs = (rounded f num den * den - num : Int).natAbs →
        signed negative units = rounded f num den ∨
          2 ∣ roundEven num (den * spacing f num den)) := by
  have step : 0 < spacing f num den := Nat.two_pow_pos _
  have scaled (k : Int) : k * spacing f num den * den = k * (den * spacing f num den : Nat) := by
    push_cast
    ring
  have rounded_eq : (rounded f num den : Int) =
      (roundEven num (den * spacing f num den) : Int) * spacing f num den := Int.natCast_mul ..
  by_cases onto : (spacing f num den : Int) ∣ signed negative units
  · obtain ⟨k, multiple⟩ := onto
    rw [Int.mul_comm] at multiple
    obtain ⟨least, even⟩ := roundEven_nearest num (Nat.mul_pos positive step) k
    rw [multiple, rounded_eq, scaled, scaled]
    refine ⟨least, fun same => ?_⟩
    rcases even same with rfl | even
    · exact .inl rfl
    · exact .inr even
  · -- a power of two lies between the number and the quotient, and rounding can reach it
    have off : ¬ spacing f num den ∣ units := by
      intro dvd
      apply onto
      rw [signed]
      split
      · exact (Int.dvd_neg).mpr (Int.natCast_dvd_natCast.mpr dvd)
      · exact Int.natCast_dvd_natCast.mpr dvd
    have below : units < 2 ^ (num / den).log2 :=
      Nat.lt_of_not_le fun large => off (spacing_dvd holds large)
    have some : num / den ≠ 0 := by
      intro zero
      rw [zero, Nat.log2_zero, Nat.pow_zero] at below
      exact off ((show units = 0 by omega) ▸ Nat.dvd_zero _)
    have between : 2 ^ (num / den).log2 * den ≤ num :=
      (Nat.le_div_iff_mul_le positive).mp (Nat.log2_self_le some)
    obtain ⟨k, reached⟩ := spacing_dvd_pow f num den
    generalize 2 ^ (num / den).log2 = power at *
    have least := (roundEven_nearest num (Nat.mul_pos positive step) k).1
    rw [← scaled, ← scaled, ← rounded_eq, ← Int.natCast_mul k, Nat.mul_comm k, ← reached] at least
    have under : signed negative units * den ≤ (power - 1) * den := by
      apply Int.mul_le_mul_of_nonneg_right _ (Int.natCast_nonneg den)
      rw [signed]
      split <;> omega
    rw [Int.sub_mul, Int.one_mul] at under
    rw [← Int.natCast_mul] at under least
    omega

/-! ## Fractions -/

/-- What a finite number stands for. -/
def value? : Binary f → Option Rat
  | finite negative units _ => some (signed negative units / (2 ^ f.fraction : Nat))
  | _ => none

/-- The last digit of the significand is a zero. -/
def IsEven : Binary f → Prop
  | finite _ units _ => 2 ∣ units / 2 ^ f.shift units
  | _ => False

/-- The number stands for a fraction to which that of no other number is nearer. It is even
where another one is as near. -/
structure IsNearest (x : Binary f) (value exact : Rat) : Prop where
  stands : x.value? = some value
  least {y : Binary f} {other : Rat} (stands : y.value? = some other) :
    |value - exact| ≤ |other - exact|
  even {y : Binary f} {other : Rat} (stands : y.value? = some other)
    (near : |other - exact| = |value - exact|) : other = value ∨ x.IsEven

theorem signed_eq_of_xor {a b : Bool} {m n : Nat} (same : signed (a ^^ b) m = n) :
    signed a m = signed b n := by
  cases a <;> cases b <;> simp [signed] at same ⊢ <;> omega

/-- The distance of two fractions in units. -/
theorem distance_eq (f : Format) (positive : 0 < den) (a negative : Bool) (units num : Nat) :
    |(signed a units / (2 ^ f.fraction : Nat) : Rat) -
        signed negative num / (den * (2 ^ f.fraction : Nat))| =
      (signed (a ^^ negative) units * den - num).natAbs / (den * (2 ^ f.fraction : Nat)) := by
  have scale : (0 : Rat) < den * (2 ^ f.fraction : Nat) := by positivity
  have difference : (signed a units / (2 ^ f.fraction : Nat) : Rat) -
      signed negative num / (den * (2 ^ f.fraction : Nat)) =
        (signed a units * den - signed negative num : Int) / (den * (2 ^ f.fraction : Nat)) := by
    push_cast
    field_simp
  have turned : (signed a units * den - signed negative num).natAbs =
      (signed (a ^^ negative) units * den - num).natAbs := by
    cases a <;> cases negative <;> simp [signed] <;> omega
  rw [difference, abs_div, abs_of_pos scale, ← Int.cast_abs, Int.abs_eq_natAbs, turned,
    Int.cast_natCast]

theorem round_eq (negative : Bool) (small : rounded f num den < 2 ^ (f.precision + f.span)) :
    ∃ holds, round f negative num den = finite negative (rounded f num den) holds := by
  unfold rounded at small
  refine ⟨⟨f.shift_dvd _ (roundEven_spacing_le f num den), small⟩, ?_⟩
  unfold round
  exact dif_pos small

/-- A quotient below a power of two is not rounded to more than that. -/
theorem rounded_le {k : Nat} (small : num / den < 2 ^ k) (wide : f.precision ≤ k) :
    rounded f num den ≤ 2 ^ k := by
  have digits : (num / den).log2 + 1 ≤ k ∨ num / den = 0 := by
    rcases Nat.eq_zero_or_pos (num / den) with zero | some
    · exact .inr zero
    · exact .inl ((Nat.log2_lt (Nat.ne_of_gt some)).mpr small)
  calc rounded f num den
      ≤ 2 ^ f.precision * 2 ^ f.shift (num / den) :=
        Nat.mul_le_mul_right _ (roundEven_spacing_le f num den)
    _ = 2 ^ (f.precision + f.shift (num / den)) := (Nat.pow_add ..).symm
    _ ≤ 2 ^ k := by
        apply Nat.pow_le_pow_right (by decide)
        unfold Format.shift
        rcases digits with bits | zero
        · omega
        · rw [zero, Nat.log2_zero]
          have := f.precision_pos
          omega

/-- An even multiple of the spacing has an even significand. -/
theorem isEven_of_rounded (wide : 1 < f.precision) {holds : f.Holds (rounded f num den)}
    (even : 2 ∣ roundEven num (den * spacing f num den)) :
    IsEven (finite negative (rounded f num den) holds) := by
  have bound := roundEven_spacing_le f num den
  show 2 ∣ rounded f num den / 2 ^ f.shift (rounded f num den)
  unfold rounded spacing at *
  generalize f.shift (num / den) = k at *
  generalize roundEven num (den * 2 ^ k) = significand at *
  rcases Nat.lt_or_eq_of_le bound with less | rfl
  · have fits : f.shift (significand * 2 ^ k) ≤ k := by
      rcases Nat.eq_zero_or_pos significand with rfl | positive
      · rw [Nat.zero_mul, Format.shift, Nat.log2_zero]
        have := f.precision_pos
        omega
      · have bits : (significand * 2 ^ k).log2 < f.precision + k := by
          rw [Nat.log2_lt (Nat.ne_of_gt (Nat.mul_pos positive (Nat.two_pow_pos k))), Nat.pow_add]
          exact (Nat.mul_lt_mul_right (Nat.two_pow_pos k)).mpr less
        unfold Format.shift
        omega
    rw [Nat.mul_div_assoc _ (Nat.pow_dvd_pow 2 fits)]
    exact Nat.dvd_mul_right_of_dvd even _
  · -- the significand has run over into a new digit
    rw [← Nat.pow_add, Format.shift, Nat.log2_two_pow, Nat.pow_div (by omega) (by decide)]
    exact Nat.pow_dvd_pow 2 (show 1 ≤ f.precision + k - (f.precision + k + 1 - f.precision) by omega)

/-- Rounding a quotient gives the number that is nearest to it, if it is not too large. -/
theorem round_isNearest (negative : Bool) (positive : 0 < den) (wide : 1 < f.precision)
    (small : rounded f num den < 2 ^ (f.precision + f.span)) :
    ∃ value, (round f negative num den).IsNearest value
      (signed negative num / (den * (2 ^ f.fraction : Nat))) := by
  obtain ⟨holds, round_eq⟩ := round_eq negative small
  rw [round_eq]
  have scale : (0 : Rat) < den * (2 ^ f.fraction : Nat) := by positivity
  have self : (negative ^^ negative) = false := by cases negative <;> rfl
  refine ⟨_, rfl, ?_, ?_⟩
  · intro y other stands
    cases y with
    | nan | infinity => cases stands
    | finite a units holds' =>
      cases stands
      have least := (rounded_nearest num positive holds' (a ^^ negative)).1
      rw [distance_eq f positive, distance_eq f positive, self]
      exact div_le_div_of_nonneg_right (Nat.cast_le.mpr least) scale.le
  · intro y other stands near
    cases y with
    | nan | infinity => cases stands
    | finite a units holds' =>
      cases stands
      have even := (rounded_nearest num positive holds' (a ^^ negative)).2
      rw [distance_eq f positive, distance_eq f positive, self,
        div_left_inj' scale.ne', Nat.cast_inj] at near
      rcases even near with same | even
      · left
        rw [signed_eq_of_xor same]
      · exact .inr (isEven_of_rounded wide even)

theorem isFinite_round {k : Nat} (negative : Bool) (small : num / den < 2 ^ k)
    (wide : f.precision ≤ k) (room : k < f.precision + f.span) :
    (round f negative num den).isFinite := by
  have bound : rounded f num den < 2 ^ (f.precision + f.span) :=
    Nat.lt_of_le_of_lt (rounded_le small wide) (Nat.pow_lt_pow_right (by decide) room)
  obtain ⟨holds, round_eq⟩ := round_eq negative bound
  rw [round_eq]
  rfl

/-- A fraction that is a number of the format is the nearest to itself. -/
theorem IsNearest.eq_of_stands {x y : Binary f} {value exact : Rat}
    (nearest : x.IsNearest value exact) (stands : y.value? = some exact) : value = exact := by
  have least := nearest.least stands
  rw [sub_self, abs_zero] at least
  exact sub_eq_zero.mp (abs_nonpos_iff.mp least)

/-! ## Conversions -/

theorem signed_natAbs_mul (n : Int) (scale : Nat) :
    signed (n < 0) (n.natAbs * scale) = n * scale := by
  have sign : signed (n < 0) n.natAbs = n := by
    unfold signed
    split <;> simp only [decide_eq_true_eq] at * <;> omega
  have scaled (negative : Bool) (m : Nat) : signed negative (m * scale) = signed negative m * scale := by
    cases negative <;> simp [signed]
  rw [scaled, sign]

/-- What the units of a whole number stand for. -/
theorem stands_natAbs (f : Format) (n : Int) :
    (signed (n < 0) (n.natAbs * 2 ^ f.fraction) : Rat) / (2 ^ f.fraction : Nat) = n := by
  rw [signed_natAbs_mul, Int.cast_mul, Int.cast_natCast]
  exact mul_div_cancel_right₀ _ (Nat.cast_ne_zero.mpr (Nat.ne_of_gt (Nat.two_pow_pos _)))

/-- Whole numbers of 64 bits are neither too large for the format nor too small for the digits
of its significand. -/
structure Roomy (f : Format) : Prop where
  digits : 1 < f.precision
  low : f.precision ≤ f.fraction + 64
  high : f.fraction + 64 < f.precision + f.span

theorem roomy_double : Roomy .double := by
  constructor <;> decide

theorem units_lt {n : Int} (small : n.natAbs < 2 ^ 64) :
    n.natAbs * 2 ^ f.fraction < 2 ^ (f.fraction + 64) := by
  rw [Nat.add_comm, Nat.pow_add]
  exact (Nat.mul_lt_mul_right (Nat.two_pow_pos _)).mpr small

theorem isFinite_ofInt (roomy : Roomy f) {n : Int} (small : n.natAbs < 2 ^ 64) :
    (ofInt f n).isFinite := by
  apply isFinite_round _ _ roomy.low roomy.high
  rw [Nat.div_one]
  exact units_lt small

/-- The number that a whole number of 64 bits is converted to is the nearest one. -/
theorem ofInt_isNearest (roomy : Roomy f) {n : Int} (small : n.natAbs < 2 ^ 64) :
    ∃ value, (ofInt f n).IsNearest value n := by
  have bound : rounded f (n.natAbs * 2 ^ f.fraction) 1 < 2 ^ (f.precision + f.span) := by
    apply Nat.lt_of_le_of_lt (rounded_le _ roomy.low) (Nat.pow_lt_pow_right (by decide) roomy.high)
    rw [Nat.div_one]
    exact units_lt small
  obtain ⟨value, nearest⟩ := round_isNearest (n < 0) Nat.one_pos roomy.digits bound
  have exact_eq : (signed (n < 0) (n.natAbs * 2 ^ f.fraction) : Rat) /
      ((1 : Nat) * (2 ^ f.fraction : Nat)) = n := by
    rw [Nat.cast_one, one_mul, stands_natAbs]
  exact ⟨value, exact_eq ▸ nearest⟩

/-- A whole number of no more digits than a significand is converted to what it is. -/
theorem value?_ofInt (roomy : Roomy f) {n : Int} (small : n.natAbs < 2 ^ 64)
    (short : n.natAbs ≤ 2 ^ f.precision) : (ofInt f n).value? = some (n : Rat) := by
  have below : n.natAbs * 2 ^ f.fraction < 2 ^ (f.precision + f.span) :=
    Nat.lt_trans (units_lt small) (Nat.pow_lt_pow_right (by decide) roomy.high)
  have stands : (finite (n < 0) _ ⟨f.shift_dvd _ short, below⟩ : Binary f).value? = some (n : Rat) :=
    congrArg some (stands_natAbs f n)
  obtain ⟨value, nearest⟩ := ofInt_isNearest roomy small
  rw [nearest.stands, nearest.eq_of_stands stands]

/-- A number is finite in a format with more digits after the point that has room for its
magnitude. -/
theorem isFinite_convert {f g : Format} {x : Binary f} (finite : x.isFinite)
    (finer : f.fraction ≤ g.fraction)
    (low : g.precision ≤ f.precision + f.span + (g.fraction - f.fraction))
    (high : f.precision + f.span + (g.fraction - f.fraction) < g.precision + g.span) :
    (x.convert g).isFinite := by
  cases x with
  | nan | infinity => cases finite
  | finite negative units holds =>
    apply isFinite_round negative _ low high
    apply Nat.div_lt_of_lt_mul
    calc units * 2 ^ g.fraction
        < 2 ^ (f.precision + f.span) * 2 ^ g.fraction :=
          (Nat.mul_lt_mul_right (Nat.two_pow_pos _)).mpr holds.2
      _ = 2 ^ f.fraction * 2 ^ (f.precision + f.span + (g.fraction - f.fraction)) := by
          rw [← Nat.pow_add, ← Nat.pow_add]
          congr 1
          omega

end Binary

end KindScript
