/-!
# Binary floating-point numbers

Finite numbers are kept as a sign and a count of the format's smallest unit, so
that order, sums and remainders are those of whole numbers. Every operation is
the exact one followed by `round`, which takes the nearest number of the format
and an even significand at a tie. There is a single not-a-number; two zeros
differ by their sign alone.
-/

namespace KindScript

attribute [local instance (10000)] instPowNat

/-- A floating-point format: the bits of a significand, the binary digits after
the point, and the largest power of two by which a significand is scaled up. -/
structure Format where
  precision : Nat
  fraction : Nat
  span : Nat
  precision_pos : 0 < precision := by decide

namespace Format

def single : Format := ⟨24, 149, 253, by decide⟩

def double : Format := ⟨53, 1074, 2045, by decide⟩

/-- The power of two by which the significand of a count of units is scaled up. -/
def shift (f : Format) (units : Nat) : Nat :=
  units.log2 + 1 - f.precision

/-- The count of units is one of the format's magnitudes. -/
def Holds (f : Format) (units : Nat) : Prop :=
  2 ^ f.shift units ∣ units ∧ units < 2 ^ (f.precision + f.span)

instance (f : Format) (units : Nat) : Decidable (f.Holds units) :=
  inferInstanceAs (Decidable (_ ∧ _))

theorem holds_zero (f : Format) : f.Holds 0 :=
  ⟨Nat.dvd_zero _, Nat.two_pow_pos _⟩

end Format

/-- The whole number nearest to a quotient, the even one at a tie. -/
def roundEven (num den : Nat) : Nat :=
  let floor := num / den
  let left := num % den
  if 2 * left < den then floor
  else if den < 2 * left then floor + 1
  else floor + floor % 2

theorem roundEven_le (num den : Nat) : roundEven num den ≤ num / den + 1 := by
  unfold roundEven
  simp only
  split
  · omega
  · split <;> omega

theorem roundEven_one (n : Nat) : roundEven n 1 = n := by
  simp [roundEven, Nat.mod_one]

/-- A significand of at most `2 ^ precision`, scaled up, is divisible as a magnitude must be. -/
theorem Format.shift_dvd (f : Format) {m : Nat} (k : Nat) (small : m ≤ 2 ^ f.precision) :
    2 ^ f.shift (m * 2 ^ k) ∣ m * 2 ^ k := by
  rcases Nat.eq_zero_or_pos m with rfl | positive
  · simp
  rcases Nat.lt_or_eq_of_le small with less | rfl
  · have bits : (m * 2 ^ k).log2 < f.precision + k := by
      rw [Nat.log2_lt (Nat.ne_of_gt (Nat.mul_pos positive (Nat.two_pow_pos k))), Nat.pow_add]
      exact (Nat.mul_lt_mul_right (Nat.two_pow_pos k)).mpr less
    exact Nat.dvd_trans (Nat.pow_dvd_pow 2 (by unfold Format.shift; omega)) (Nat.dvd_mul_left _ _)
  · rw [← Nat.pow_add, Format.shift, Nat.log2_two_pow]
    exact Nat.pow_dvd_pow 2 (by have := f.precision_pos; omega)

/-- A number of the format. -/
inductive Binary (f : Format) where
  | nan
  | infinity (negative : Bool)
  | finite (negative : Bool) (units : Nat) (holds : f.Holds units)
deriving DecidableEq

namespace Binary

variable {f : Format}

def zero (negative : Bool) : Binary f :=
  finite negative 0 f.holds_zero

/-- The distance of neighbouring magnitudes around a quotient of units. -/
def spacing (f : Format) (num den : Nat) : Nat :=
  2 ^ f.shift (num / den)

theorem roundEven_spacing_le (f : Format) (num den : Nat) :
    roundEven num (den * spacing f num den) ≤ 2 ^ f.precision := by
  have below : num / den / spacing f num den < 2 ^ f.precision := by
    unfold spacing
    rw [Nat.div_lt_iff_lt_mul (Nat.two_pow_pos _), ← Nat.pow_add]
    refine Nat.lt_of_lt_of_le Nat.lt_log2_self (Nat.pow_le_pow_right (by decide) ?_)
    unfold Format.shift
    omega
  have := roundEven_le num (den * spacing f num den)
  rw [← Nat.div_div_eq_div_mul] at this
  omega

/-- The number nearest to a quotient of units, of a given sign. -/
def round (f : Format) (negative : Bool) (num den : Nat) : Binary f :=
  let units := roundEven num (den * spacing f num den) * spacing f num den
  if h : units < 2 ^ (f.precision + f.span) then
    finite negative units ⟨f.shift_dvd _ (roundEven_spacing_le f num den), h⟩
  else infinity negative

/-- A count of units with its sign. -/
def signed (negative : Bool) (units : Nat) : Int :=
  if negative then -(units : Int) else units

/-- The number nearest to a signed quotient of units; zero takes the given sign. -/
def roundSigned (f : Format) (zeroNegative : Bool) (num : Int) (den : Nat) : Binary f :=
  if num = 0 then zero zeroNegative else round f (num < 0) num.natAbs den

/-! ## Sign and order -/

def neg : Binary f → Binary f
  | nan => nan
  | infinity negative => infinity !negative
  | finite negative units holds => finite (!negative) units holds

def abs : Binary f → Binary f
  | nan => nan
  | infinity _ => infinity false
  | finite _ units holds => finite false units holds

def isFinite : Binary f → Bool
  | finite .. => true
  | _ => false

/-- The order of two numbers; a not-a-number has none. The two zeros are equal. -/
def compare? : Binary f → Binary f → Option Ordering
  | nan, _ => none
  | _, nan => none
  | infinity a, infinity b => some (if a = b then .eq else if a then .lt else .gt)
  | infinity a, finite .. => some (if a then .lt else .gt)
  | finite .., infinity b => some (if b then .gt else .lt)
  | finite a m _, finite b n _ => some (compare (signed a m) (signed b n))

def lt (x y : Binary f) : Bool :=
  compare? x y = some .lt

/-! ## Arithmetic -/

def add : Binary f → Binary f → Binary f
  | nan, _ => nan
  | _, nan => nan
  | infinity a, infinity b => if a = b then infinity a else nan
  | infinity a, finite .. => infinity a
  | finite .., infinity b => infinity b
  | finite a m _, finite b n _ => roundSigned f (a && b) (signed a m + signed b n) 1

def sub (x y : Binary f) : Binary f :=
  add x (neg y)

def mul : Binary f → Binary f → Binary f
  | nan, _ => nan
  | _, nan => nan
  | infinity a, infinity b => infinity (a ^^ b)
  | infinity a, finite b n _ => if n = 0 then nan else infinity (a ^^ b)
  | finite a m _, infinity b => if m = 0 then nan else infinity (a ^^ b)
  | finite a m _, finite b n _ => round f (a ^^ b) (m * n) (2 ^ f.fraction)

/-- Division; a nonzero number by zero is infinite. -/
def div : Binary f → Binary f → Binary f
  | nan, _ => nan
  | _, nan => nan
  | infinity _, infinity _ => nan
  | infinity a, finite b _ _ => infinity (a ^^ b)
  | finite a _ _, infinity b => zero (a ^^ b)
  | finite a m _, finite b n _ =>
    if n = 0 then if m = 0 then nan else infinity (a ^^ b)
    else round f (a ^^ b) (m * 2 ^ f.fraction) n

/-- The remainder of the division that truncates, with the sign of the dividend. -/
def rem : Binary f → Binary f → Binary f
  | nan, _ => nan
  | _, nan => nan
  | infinity _, _ => nan
  | finite a m h, infinity _ => finite a m h
  | finite a m _, finite _ n _ => if n = 0 then nan else round f a (m % n) 1

/-! ## Conversions -/

/-- The number nearest to a whole number. -/
def ofInt (f : Format) (n : Int) : Binary f :=
  round f (n < 0) (n.natAbs * 2 ^ f.fraction) 1

/-- The whole part, held between two bounds; a not-a-number gives zero. -/
def toIntBetween (least greatest : Int) : Binary f → Int
  | nan => 0
  | infinity negative => if negative then least else greatest
  | finite negative units _ =>
    max least (min greatest (signed negative (units / 2 ^ f.fraction)))

/-- The nearest number of another format. -/
def convert (g : Format) : Binary f → Binary g
  | nan => nan
  | infinity negative => infinity negative
  | finite negative units _ => round g negative (units * 2 ^ g.fraction) (2 ^ f.fraction)

/-- No number of either format lies beyond this power of ten or below its inverse. -/
def decimalReach : Int := 400

/-- The number nearest to `digits * 10 ^ exponent`. -/
def ofDecimal (f : Format) (negative : Bool) (digits : Nat) (exponent : Int) : Binary f :=
  let magnitude := (Nat.toDigits 10 digits).length + exponent
  if digits = 0 ∨ magnitude < -decimalReach then zero negative
  else if decimalReach < magnitude then infinity negative
  else round f negative (digits * 10 ^ exponent.toNat * 2 ^ f.fraction) (10 ^ (-exponent).toNat)

end Binary

end KindScript
