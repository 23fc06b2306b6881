import KindScript.Binary.Literal
import KindScript.Decimal.Shortest
import KindScript.Proofs.Compilation.Conversion
import KindScript.Proofs.Dumps.Rounding

/-!
# Written floats read back

The shortest digits are tested before they are taken, and where no test succeeds the exact
value is taken. Either way they read back, and so does the text that a style makes of them, a
sign in front or none. Hence no two numbers of a format have the same text.
-/

namespace KindScript

attribute [local instance (10000)] instPowNat

open Scanning (IsDigits isDigits_toDigits)

namespace Decimal

variable {f : Format}

/-! ## Digits -/

theorem ofDecimal_normalized (f : Format) (negative : Bool) (significand : Nat) (exponent : Int) :
    Binary.ofDecimal f negative (normalized significand exponent).significand
        (normalized significand exponent).exponent =
      Binary.ofDecimal f negative significand exponent := by
  fun_induction normalized significand exponent with
  | case1 significand exponent zeros ih =>
    have tens : significand / 10 * 10 = significand := by omega
    rw [ih, ← Binary.ofDecimal_mul_ten, tens]
  | case2 => rfl

theorem accepts_of_nearest? {tie : Tie} {accepts : Nat → Bool} {num den n : Nat} {exponent : Int}
    (found : nearest? tie accepts num den exponent = some n) : accepts n = true := by
  unfold nearest? at found
  grind

theorem ofDecimal_of_shortestFrom {tie : Tie} {x : Binary f} {num den : Nat} {order : Int}
    {counts : List Nat} {d : Decimal} (found : shortestFrom tie x num den order counts = some d) :
    Binary.ofDecimal f false d.significand d.exponent = x := by
  induction counts with
  | nil => cases found
  | cons count more ih =>
    rw [shortestFrom] at found
    split at found
    · rename_i n near
      cases found
      rw [ofDecimal_normalized]
      exact of_decide_eq_true (accepts_of_nearest? near)
    · exact ih found

/-- The shortest digits of a number are read as the number. -/
theorem ofDecimal_shortest (reach : Binary.InReach f) (tie : Tie) (negative : Bool) {units : Nat}
    (holds : f.Holds units) :
    Binary.ofDecimal f negative (shortest tie units holds).significand
      (shortest tie units holds).exponent = .finite negative units holds := by
  unfold shortest
  split
  · rename_i zero
    subst zero
    rw [Binary.ofDecimal_zero]
    rfl
  · rename_i some
    simp only
    split
    · rename_i d found
      exact Binary.ofDecimal_sign negative (ofDecimal_of_shortestFrom found)
    · rw [ofDecimal_normalized]
      exact Binary.ofDecimal_exact reach some negative holds

/-! ## Texts -/

/-- Digits with a point before those of the fraction, if there are any. -/
def pointed (whole fraction : List Char) : List Char :=
  whole ++ if fraction = [] then [] else '.' :: fraction

/-- The text has digits around a point and after them a power of ten, or nothing. Together
they stand for the number; some of the last zeros may be taken into the power. -/
inductive Spells : List Char → Decimal → Prop where
  | intro {whole fraction power : List Char} {e : Int} {zeros : Nat} {d : Decimal}
    (digits : IsDigits whole) (decimals : ∀ c ∈ fraction, c.isDigit = true)
    (reads : Binary.exponentOf? power = some e)
    (value : Text.decimalValue (whole ++ fraction) = d.significand * 10 ^ zeros)
    (exponent : d.exponent = e - fraction.length + zeros) :
    Spells (pointed whole fraction ++ power) d

theorem pointed_of_some {whole fraction : List Char} (some : fraction ≠ []) :
    pointed whole fraction = whole ++ '.' :: fraction := by
  rw [pointed, if_neg some]

theorem isDigit_of_zero {k : Nat} {c : Char} (mem : c ∈ List.replicate k '0') :
    c.isDigit = true := by
  rw [List.eq_of_mem_replicate mem]
  rfl

theorem isDigits_digits (d : Decimal) : IsDigits d.digits :=
  isDigits_toDigits d.significand

theorem decimalValue_digits (d : Decimal) : Text.decimalValue d.digits = d.significand :=
  Nat.ofDigitChars_ten_toDigits

theorem decimalValue_zeros (d : Decimal) (k : Nat) :
    Text.decimalValue (d.digits ++ List.replicate k '0') = d.significand * 10 ^ k := by
  change Nat.ofDigitChars 10 _ 0 = _
  rw [Nat.ofDigitChars_append, Nat.ofDigitChars_replicate_zero, Nat.mul_comm]
  exact congrArg (· * 10 ^ k) (decimalValue_digits d)

/-- Zeros before the digits do not count. -/
theorem decimalValue_after_zeros (d : Decimal) (k : Nat) :
    Text.decimalValue (List.replicate k '0' ++ d.digits) = d.significand := by
  change Nat.ofDigitChars 10 _ 0 = _
  rw [Nat.ofDigitChars_append, Nat.ofDigitChars_replicate_zero, Nat.mul_zero]
  exact decimalValue_digits d

section Positional

variable {d : Decimal}

/-- Digits around a point without a power of ten. -/
theorem spells_of_digits {whole fraction : List Char} {zeros : Nat} (digits : IsDigits whole)
    (decimals : ∀ c ∈ fraction, c.isDigit = true)
    (value : Text.decimalValue (whole ++ fraction) = d.significand * 10 ^ zeros)
    (exponent : d.exponent = zeros - fraction.length) : Spells (pointed whole fraction) d := by
  have power : Binary.exponentOf? [] = some 0 := rfl
  have spells := Spells.intro digits decimals power value (by omega)
  rwa [List.append_nil] at spells

/-- A whole number with zeros for its power of ten. -/
theorem spells_whole (whole : 0 ≤ d.exponent) (point : Bool) :
    Spells (d.digits ++ List.replicate d.exponent.toNat '0' ++ if point then ['.', '0'] else [])
      d := by
  have digits : IsDigits (d.digits ++ List.replicate d.exponent.toNat '0') :=
    ⟨List.append_ne_nil_of_left_ne_nil (isDigits_digits d).some _,
      List.forall_mem_append.mpr ⟨(isDigits_digits d).digits, fun _ => isDigit_of_zero⟩⟩
  cases point with
  | true =>
    have decimals : ∀ c ∈ ['0'], c.isDigit = true := fun c => isDigit_of_zero (k := 1)
    have value : Text.decimalValue (d.digits ++ List.replicate d.exponent.toNat '0' ++ ['0']) =
        d.significand * 10 ^ (d.exponent.toNat + 1) := by
      rw [List.append_assoc, ← List.replicate_succ', decimalValue_zeros]
    have spells := spells_of_digits digits decimals value (by rw [List.length_singleton]; omega)
    rwa [pointed_of_some (List.cons_ne_nil _ _)] at spells
  | false =>
    have decimals : ∀ c ∈ ([] : List Char), c.isDigit = true := fun c mem => nomatch mem
    have value := decimalValue_zeros d d.exponent.toNat
    rw [← List.append_nil (d.digits ++ _)] at value
    exact spells_of_digits digits decimals value (by rw [List.length_nil]; omega)

/-- A number with the point among its digits. -/
theorem spells_inside {point : Nat} (some : 0 < point) (below : d.exponent < 0)
    (point_eq : (point : Int) = d.digits.length + d.exponent) :
    Spells (d.digits.take point ++ '.' :: d.digits.drop point) d := by
  have digits := isDigits_digits d
  have whole : IsDigits (d.digits.take point) := by
    refine ⟨fun none => ?_, fun c mem => digits.digits c (List.mem_of_mem_take mem)⟩
    rcases List.take_eq_nil_iff.mp none with zero | none
    · omega
    · exact digits.some none
  have decimals : ∀ c ∈ d.digits.drop point, c.isDigit = true := fun c mem =>
    digits.digits c (List.mem_of_mem_drop mem)
  have more : d.digits.drop point ≠ [] := by
    rw [Ne, List.drop_eq_nil_iff]
    omega
  have value : Text.decimalValue (d.digits.take point ++ d.digits.drop point) =
      d.significand * 10 ^ 0 := by
    rw [List.take_append_drop, decimalValue_digits, Nat.pow_zero, Nat.mul_one]
  have spells := spells_of_digits whole decimals value (by rw [List.length_drop]; omega)
  rwa [pointed_of_some more] at spells

/-- A number with the point before its digits. -/
theorem spells_before {zeros : Nat} (zeros_eq : (zeros : Int) = -(d.digits.length + d.exponent)) :
    Spells ('0' :: '.' :: List.replicate zeros '0' ++ d.digits) d := by
  have digits := isDigits_digits d
  have whole : IsDigits ['0'] := ⟨List.cons_ne_nil _ _, fun c => isDigit_of_zero (k := 1)⟩
  have decimals : ∀ c ∈ List.replicate zeros '0' ++ d.digits, c.isDigit = true :=
    List.forall_mem_append.mpr ⟨fun _ => isDigit_of_zero, digits.digits⟩
  have value : Text.decimalValue (['0'] ++ (List.replicate zeros '0' ++ d.digits)) =
      d.significand * 10 ^ 0 := by
    rw [← List.append_assoc, List.singleton_append, ← List.replicate_succ,
      decimalValue_after_zeros, Nat.pow_zero, Nat.mul_one]
  have length_eq : (List.replicate zeros '0' ++ d.digits).length = zeros + d.digits.length := by
    rw [List.length_append, List.length_replicate]
  have spells := spells_of_digits whole decimals value (by omega)
  rwa [pointed_of_some (List.append_ne_nil_of_right_ne_nil _ digits.some)] at spells

theorem spells_positional (d : Decimal) (point : Bool) : Spells (d.positional point) d := by
  have order_eq : d.order + 1 = d.digits.length + d.exponent := by
    unfold order
    omega
  unfold positional
  simp only [order_eq]
  split
  · exact spells_whole ‹_› point
  split
  · exact spells_inside (by omega) (by omega) (by omega)
  · exact spells_before (by omega)

end Positional

theorem exponentOf?_signed (z : Int) :
    Binary.exponentOf? ('e' :: (if z < 0 then '-' else '+') :: Nat.toDigits 10 z.natAbs) =
      some z := by
  have digits := isDigits_toDigits z.natAbs
  have value : Text.decimal? (Nat.toDigits 10 z.natAbs) = some z.natAbs := by
    rw [decimal?_of_isDigits digits]
    exact congrArg some Nat.ofDigitChars_ten_toDigits
  rw [Binary.exponentOf?, if_pos (.inl rfl)]
  split
  · have back : -(z.natAbs : Int) = z := by omega
    rw [Text.wholeNumber?, value]
    exact congrArg some back
  · have back : (z.natAbs : Int) = z := by omega
    rw [Text.wholeNumber?, value]
    exact congrArg some back

theorem spells_scientific (d : Decimal) : Spells d.scientific d := by
  have digits := isDigits_digits d
  have value := decimalValue_digits d
  have power := exponentOf?_signed d.order
  have order_eq : d.order = d.digits.length - 1 + d.exponent := rfl
  unfold scientific
  generalize d.digits = all at digits value order_eq
  cases all with
  | nil => exact absurd rfl digits.some
  | cons first rest =>
    obtain ⟨digit, decimals⟩ := List.forall_mem_cons.mp digits.digits
    have whole : IsDigits [first] :=
      ⟨List.cons_ne_nil _ _, List.forall_mem_singleton.mpr digit⟩
    have value : Text.decimalValue ([first] ++ rest) = d.significand * 10 ^ 0 := by
      rw [Nat.pow_zero, Nat.mul_one]
      exact value
    rw [List.length_cons] at order_eq
    have spells := Spells.intro whole decimals power value (by omega)
    -- A single digit is written without a point.
    cases rest with
    | nil => exact spells
    | cons => exact spells

theorem spells_write (style : Style) (d : Decimal) : Spells (d.write style) d := by
  unfold write
  split
  · exact spells_positional d _
  · split
    · exact spells_positional d _
    · exact spells_scientific d

end Decimal

namespace Binary

variable {f : Format} {cs : List Char} {d : Decimal}

theorem ne_letter_of_isDigit {c : Char} (digit : c.isDigit = true) :
    c.toLower ≠ 'i' ∧ c.toLower ≠ 'n' :=
  Scanning.forall_isDigit (P := fun c => c.toLower ≠ 'i' ∧ c.toLower ≠ 'n') (by decide) digit

theorem head_of_spells (spells : Decimal.Spells cs d) :
    ∃ first more, cs = first :: more ∧ first.isDigit = true := by
  cases spells with
  | intro digits =>
    obtain ⟨first, more, rfl⟩ := List.exists_cons_of_ne_nil digits.some
    exact ⟨first, _, rfl, digits.digits first List.mem_cons_self⟩

/-- A power of ten begins with neither a digit nor a point. -/
theorem stops_of_exponentOf? {power : List Char} {e : Int} (reads : exponentOf? power = some e) :
    ∀ c ∈ power.head?, c.isDigit = false ∧ c ≠ '.' := by
  intro c mem
  cases power with
  | nil => cases mem
  | cons mark rest =>
    cases Option.some.inj mem
    rw [exponentOf?] at reads
    split at reads
    · rename_i marks
      rcases marks with rfl | rfl <;> decide
    · cases reads

theorem fractionOf_pointed {fraction power : List Char}
    (decimals : ∀ c ∈ fraction, c.isDigit = true)
    (stops : ∀ c ∈ power.head?, c.isDigit = false ∧ c ≠ '.') :
    fractionOf ((if fraction = [] then [] else '.' :: fraction) ++ power) = (fraction, power) := by
  cases fraction with
  | nil =>
    unfold fractionOf
    split
    · exact absurd rfl (stops '.' (by simp_all)).2
    · rfl
  | cons c more =>
    exact span_of_isDigits ⟨List.cons_ne_nil _ _, decimals⟩ power fun c mem => (stops c mem).1

theorem ofUnsigned?_of_spells (f : Format) (negative : Bool) (spells : Decimal.Spells cs d) :
    ofUnsigned? f negative cs = some (ofDecimal f negative d.significand d.exponent) := by
  obtain ⟨first, more, head, digit⟩ := head_of_spells spells
  obtain ⟨not_inf, not_nan⟩ := ne_letter_of_isDigit digit
  have unnamed {word : List Char} {c : Char} (starts : word.head? = some c)
      (ne : first.toLower ≠ c) : cs.map Char.toLower ≠ word := by
    rintro rfl
    rw [head] at starts
    exact ne (Option.some.inj starts)
  have plain : ¬ (cs.map Char.toLower = "inf".toList ∨ cs.map Char.toLower = "infinity".toList) :=
    not_or.mpr ⟨unnamed rfl not_inf, unnamed rfl not_inf⟩
  unfold ofUnsigned?
  simp only [if_neg plain, if_neg (unnamed rfl not_nan : cs.map Char.toLower ≠ "nan".toList)]
  cases spells with
  | @intro whole fraction power e zeros _ digits decimals reads value exponent =>
    have stops := stops_of_exponentOf? reads
    have nonempty : whole.isEmpty = false := List.isEmpty_eq_false_iff.mpr digits.some
    have point : ∀ c ∈ ((if fraction = [] then [] else '.' :: fraction) ++ power).head?,
        c.isDigit = false := by
      intro c mem
      split at mem
      · exact (stops c mem).1
      · cases Option.some.inj mem
        rfl
    rw [Decimal.pointed, List.append_assoc, span_of_isDigits digits _ point]
    simp only [fractionOf_pointed decimals stops, nonempty, Bool.false_and, reads, value,
      ofDecimal_mul_pow, exponent]
    rfl

theorem ofText?_of_takeSign {text : String} {negative : Bool} {x : Binary f}
    (sign : takeSign text.toList = (negative, cs)) (reads : ofUnsigned? f negative cs = some x) :
    ofText? f text = some x := by
  rw [ofText?, sign]
  exact reads

theorem takeSign_of_isDigit {first : Char} (digit : first.isDigit = true) (more : List Char) :
    takeSign (first :: more) = (false, first :: more) := by
  have unsigned := ne_sign_of_isDigit digit
  unfold takeSign
  split
  · exact absurd (List.cons.inj ‹_›).1 unsigned.1
  · exact absurd (List.cons.inj ‹_›).1 unsigned.2
  · rfl

theorem ofUnsigned?_inf (f : Format) (negative : Bool) :
    ofUnsigned? f negative "inf".toList = some (infinity negative) := by
  have name : "inf".toList.map Char.toLower = "inf".toList := by decide
  unfold ofUnsigned?
  exact if_pos (.inl name)

theorem ofUnsigned?_nan (f : Format) (negative : Bool) :
    ofUnsigned? f negative "NaN".toList = some nan := by
  have other : ¬ ("NaN".toList.map Char.toLower = "inf".toList ∨
      "NaN".toList.map Char.toLower = "infinity".toList) := by decide
  have name : "NaN".toList.map Char.toLower = "nan".toList := by decide
  unfold ofUnsigned?
  exact (if_neg other).trans (if_pos name)

/-- Every number is read back from its text, in any style. -/
theorem ofText?_write (reach : InReach f) (tie : Decimal.Tie) (style : Decimal.Style)
    (x : Binary f) : ofText? f (x.write tie style) = some x := by
  cases x with
  | nan =>
    have sign : takeSign "NaN".toList = (false, "NaN".toList) := by decide
    exact ofText?_of_takeSign sign (ofUnsigned?_nan f false)
  | infinity negative =>
    have sign : takeSign (if negative then "-inf" else "inf").toList =
        (negative, "inf".toList) := by
      cases negative <;> decide
    exact ofText?_of_takeSign sign (ofUnsigned?_inf f negative)
  | finite negative units holds =>
    have spells := Decimal.spells_write style (Decimal.shortest tie units holds)
    have reads := ofUnsigned?_of_spells f negative spells
    rw [Decimal.ofDecimal_shortest reach] at reads
    unfold write
    cases negative with
    | true => exact ofText?_of_takeSign (by rw [String.toList_ofList]; rfl) reads
    | false =>
      obtain ⟨first, more, head, digit⟩ := head_of_spells spells
      refine ofText?_of_takeSign ?_ reads
      rw [String.toList_ofList]
      exact head ▸ takeSign_of_isDigit digit more

/-- No two numbers have the same text. -/
theorem write_injective (reach : InReach f) {tie : Decimal.Tie} {style : Decimal.Style}
    {x y : Binary f} (same : x.write tie style = y.write tie style) : x = y :=
  Option.some.inj <| (ofText?_write reach tie style x).symm.trans
    (same ▸ ofText?_write reach tie style y)

end Binary

end KindScript
