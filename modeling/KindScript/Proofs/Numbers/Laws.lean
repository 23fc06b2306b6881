import KindScript.Binary

/-!
# Laws of floating-point numbers

Sums and products do not depend on the order of their operands, nor does the size of a
difference. The order is the same seen from both sides, and only what is not a number has no
place in it.
-/

namespace KindScript.Binary

variable {f : Format} {num den : Nat} {x y : Binary f}

/-! ## Sums and products -/

protected theorem add_comm (x y : Binary f) : x.add y = y.add x := by
  cases x with
  | nan => cases y <;> rfl
  | infinity a =>
    cases y with
    | nan | finite => rfl
    | infinity b => cases a <;> cases b <;> rfl
  | finite a m _ =>
    cases y with
    | nan | infinity => rfl
    | finite b n _ => rw [add, add, Bool.and_comm, Int.add_comm]

protected theorem mul_comm (x y : Binary f) : x.mul y = y.mul x := by
  cases x with
  | nan => cases y <;> rfl
  | infinity a =>
    cases y with
    | nan => rfl
    | infinity b | finite b => rw [mul, mul, Bool.xor_comm]
  | finite a m _ =>
    cases y with
    | nan => rfl
    | infinity b => rw [mul, mul, Bool.xor_comm]
    | finite b n _ => rw [mul, mul, Bool.xor_comm, Nat.mul_comm]

/-! ## Differences -/

theorem signed_not (negative : Bool) (units : Nat) :
    signed (!negative) units = -signed negative units := by
  cases negative <;> simp [signed]

theorem abs_round (a b : Bool) : (round f a num den).abs = (round f b num den).abs := by
  unfold round
  simp only
  split <;> rfl

theorem abs_roundSigned_neg (a b : Bool) (n : Int) (den : Nat) :
    (roundSigned f a (-n) den).abs = (roundSigned f b n den).abs := by
  unfold roundSigned
  rw [Int.natAbs_neg]
  by_cases zero : n = 0
  · rw [if_pos zero, if_pos (by omega)]
    rfl
  · rw [if_neg zero, if_neg (by omega)]
    exact abs_round _ _

/-- The size of a difference does not depend on the order of the operands. -/
protected theorem abs_sub_comm (x y : Binary f) : (x.sub y).abs = (y.sub x).abs := by
  cases x with
  | nan => cases y <;> rfl
  | infinity a =>
    cases y with
    | nan | finite => rfl
    | infinity b => cases a <;> cases b <;> rfl
  | finite a m _ =>
    cases y with
    | nan | infinity => rfl
    | finite b n _ =>
      have opposite : signed a m + signed (!b) n = -(signed b n + signed (!a) m) := by
        rw [signed_not, signed_not]
        omega
      rw [sub, sub, neg, neg, add, add, opposite]
      exact abs_roundSigned_neg _ _ _ _

/-- A finite number differs from itself by zero. -/
theorem sub_self_of_finite (finite : x.isFinite) : x.sub x = zero false := by
  cases x with
  | nan | infinity => cases finite
  | finite a m _ =>
    have nothing : signed a m + signed (!a) m = 0 := by
      rw [signed_not]
      omega
    rw [sub, neg, add, nothing, Bool.and_not_self]
    rfl

/-- The difference of an infinity and itself is not a number. -/
theorem sub_self_of_not_finite (infinite : ¬ x.isFinite) : x.sub x = nan := by
  cases x with
  | nan => rfl
  | infinity a => cases a <;> rfl
  | finite => exact absurd rfl infinite

/-! ## What is not a number -/

theorem round_ne_nan (f : Format) (negative : Bool) (num den : Nat) :
    round f negative num den ≠ nan := by
  unfold round
  simp only
  split <;> nofun

theorem ofInt_ne_nan (f : Format) (n : Int) : ofInt f n ≠ nan :=
  round_ne_nan f _ _ _

theorem convert_ne_nan {g : Format} (number : x ≠ nan) : x.convert g ≠ nan := by
  cases x with
  | nan => exact absurd rfl number
  | infinity => nofun
  | finite negative units _ => exact round_ne_nan g _ _ _

/-! ## Order -/

theorem compare?_swap (x y : Binary f) : y.compare? x = (x.compare? y).map Ordering.swap := by
  cases x with
  | nan => cases y <;> rfl
  | infinity a =>
    cases y with
    | nan => rfl
    | infinity b => cases a <;> cases b <;> rfl
    | finite => cases a <;> rfl
  | finite a m _ =>
    cases y with
    | nan => rfl
    | infinity b => cases b <;> rfl
    | finite b n _ => exact congrArg some Std.OrientedOrd.eq_swap

theorem compare?_isSome (left : x ≠ nan) (right : y ≠ nan) : ∃ order, x.compare? y = some order := by
  cases x with
  | nan => exact absurd rfl left
  | infinity | finite =>
    cases y with
    | nan => exact absurd rfl right
    | infinity | finite => exact ⟨_, rfl⟩

theorem lt_asymm (less : x.lt y = true) : y.lt x = false := by
  have order := of_decide_eq_true less
  rw [lt, compare?_swap, order]
  rfl

end KindScript.Binary
