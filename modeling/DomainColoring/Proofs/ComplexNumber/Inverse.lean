import DomainColoring.Proofs.Postfix.Depth
import DomainColoring.Proofs.Scalar.Arithmetic

/-!
# Inverses of finite numbers

Only zero has no inverse, whatever the parts are. But the inverse is divided by the square of the modulus, which is rounded to zero for
numbers that are not zero: where both squares are at most half of the least double, no part of the inverse is finite
(`ComplexNumber.inverse_unless_zero`). Everywhere else both parts are.
-/

namespace DomainColoring

open Float.Model Float.Model.UnpackedFloat

namespace Binary64

/-- The square is at most half of the least double. -/
def Vanishes (p : Rat) : Prop :=
  p * p ≤ 2 ^ (-1075 : Int)

instance (p : Rat) : Decidable (Vanishes p) :=
  inferInstanceAs (Decidable (_ ≤ _))

section Squares

variable {x y : Float} {p q s d : Rat}

/-- A square has the nearest value, or is infinite from the border on. -/
theorem square_cases (hx : HasValue x.toModel.unpack p) :
    (∃ s, Nearest (p * p) s ∧ HasValue (x * x).toModel.unpack s) ∨
      (border ≤ p * p ∧ (x * x).toModel.unpack = .infinity .positive) :=
  (rounded_mul hx hx).of_nonneg (mul_self_nonneg p)

/-- A square is rounded to zero exactly if it vanishes. -/
theorem vanishes_iff (square : Nearest (p * p) s) : s = 0 ↔ Vanishes p := by
  rw [square.eq_zero_iff, abs_of_nonneg (mul_self_nonneg p), Vanishes]

/-- A number over a double that is not below its square is within the range of doubles. -/
theorem quotient_small (short : Short p) (square : Nearest (p * p) s) (le : s ≤ d) (least : 2 ^ (-1074 : Int) ≤ d) :
    |p / d| < border := by
  have positive : 0 < d := lt_of_lt_of_le (by positivity) least
  rw [abs_div, abs_of_pos positive, div_lt_iff₀ positive]
  have far := two_pow_lt_border
  rcases le_or_gt 1 |p| with large | small
  · -- From one on the square is not below the number itself.
    have above : |p| ≤ p * p := by
      rw [← abs_mul_abs_self p]
      exact le_mul_of_one_le_left (abs_nonneg p) large
    have one : (1 : Rat) < border := (one_lt_zpow₀ (by norm_num) (by norm_num)).trans far
    calc |p| ≤ s := square.le_of_ge short.abs above
      _ ≤ d := le
      _ < border * d := lt_mul_of_one_lt_left positive one
  · rcases le_or_gt (2 ^ (-51 : Int)) |p| with medium | tiny
    · have above : (2 : Rat) ^ (-102 : Int) ≤ p * p := by
        rw [← abs_mul_abs_self p]
        calc (2 : Rat) ^ (-102 : Int) = 2 ^ (-51 : Int) * 2 ^ (-51 : Int) := by
              rw [← zpow_add₀ (by norm_num)]
              rfl
          _ ≤ |p| * |p| := mul_le_mul medium medium (by positivity) (abs_nonneg p)
      have part : (2 : Rat) ^ (-102 : Int) ≤ d := (square.le_of_ge (short_two_pow (by decide)) above).trans le
      calc |p| < 2 ^ (102 : Int) * 2 ^ (-102 : Int) := by
            rw [← zpow_add₀ (by norm_num)]
            exact small
        _ ≤ 2 ^ (1023 : Int) * d :=
          mul_le_mul (zpow_le_zpow_right₀ (by norm_num) (by norm_num)) part (by positivity) (by positivity)
        _ ≤ border * d := mul_le_mul_of_nonneg_right far.le positive.le
    · calc |p| < 2 ^ (1023 : Int) * 2 ^ (-1074 : Int) := by
            rw [← zpow_add₀ (by norm_num)]
            exact tiny
        _ ≤ 2 ^ (1023 : Int) * d := mul_le_mul_of_nonneg_left least (by positivity)
        _ ≤ border * d := mul_le_mul_of_nonneg_right far.le positive.le

theorem not_vanishes (far : border ≤ p * p) : ¬Vanishes p := by
  have less : (2 : Rat) ^ (-1075 : Int) < 2 ^ (1023 : Int) := zpow_lt_zpow_right₀ (by norm_num) (by norm_num)
  exact not_le.2 ((less.trans two_pow_lt_border).trans_le far)

/-- The sum of two squares is zero where both vanish. Otherwise neither number is too great to be divided by it. -/
theorem squares_cases (hx : HasValue x.toModel.unpack p) (hy : HasValue y.toModel.unpack q) :
    (∃ d, HasValue (x * x + y * y).toModel.unpack d ∧ (d = 0 ↔ Vanishes p ∧ Vanishes q) ∧
      (d ≠ 0 → |p / d| < border ∧ |q / d| < border)) ∨
    ((x * x + y * y).toModel.unpack = .infinity .positive ∧ ¬(Vanishes p ∧ Vanishes q)) := by
  rcases square_cases hx with ⟨s, squareX, valueX⟩ | ⟨farX, infiniteX⟩
  · rcases square_cases hy with ⟨t, squareY, valueY⟩ | ⟨farY, infiniteY⟩
    · have nonnegX : 0 ≤ s := squareX.le_of_ge .zero (mul_self_nonneg p)
      have nonnegY : 0 ≤ t := squareY.le_of_ge .zero (mul_self_nonneg q)
      rcases (rounded_add valueX valueY).of_nonneg (add_nonneg nonnegX nonnegY) with ⟨d, sum, value⟩ | ⟨far, infinite⟩
      · left
        have aboveX : s ≤ d := sum.le_of_ge valueX.short (le_add_of_nonneg_right nonnegY)
        have aboveY : t ≤ d := sum.le_of_ge valueY.short (le_add_of_nonneg_left nonnegX)
        refine ⟨d, value, ?_, ?_⟩
        · rw [← vanishes_iff squareX, ← vanishes_iff squareY]
          constructor
          · rintro rfl
            exact ⟨le_antisymm aboveX nonnegX, le_antisymm aboveY nonnegY⟩
          · rintro ⟨rfl, rfl⟩
            rw [add_zero] at sum
            exact sum.eq_of_short .zero
        · intro nonzero
          have least := sum.short.least (lt_of_le_of_ne (nonnegX.trans aboveX) nonzero.symm)
          exact ⟨quotient_small hx.short squareX aboveX least, quotient_small hy.short squareY aboveY least⟩
      · right
        refine ⟨infinite, ?_⟩
        rintro ⟨lostX, lostY⟩
        rw [(vanishes_iff squareX).2 lostX, (vanishes_iff squareY).2 lostY, add_zero] at far
        exact absurd far (not_le.2 (lt_trans (by positivity) two_pow_lt_border))
    · exact .inr ⟨add_infinity valueX infiniteY, fun lost => not_vanishes farY lost.2⟩
  · right
    refine ⟨?_, fun lost => not_vanishes farX lost.1⟩
    rcases square_cases hy with ⟨t, -, valueY⟩ | ⟨-, infiniteY⟩
    · exact infinity_add infiniteX valueY
    · exact infinity_add_infinity infiniteX infiniteY

end Squares

/-! ## Zeros -/

section Zeros

variable {x y : Float} {q : Rat}

/-- What is equal to a value is finite. -/
theorem isFinite_of_beq (hy : HasValue y.toModel.unpack q) (same : (x == y) = true) : x.isFinite = true := by
  change (x.toModel.unpack.compare y.toModel.unpack == some .eq) = true at same
  change x.toModel.unpack.isFinite = true
  generalize x.toModel.unpack = u, y.toModel.unpack = v at same hy
  cases u with
  | notANumber => cases same
  | infinity sign => cases hy <;> cases sign <;> cases same
  | zero sign => rfl
  | finite sign m e pos => rfl

/-- A double is equal to zero exactly if its value is zero, of either sign. -/
theorem beq_zero_iff : (x == Nat.cast 0) = true ↔ (ofFloat x).value? = some 0 := by
  have zero : HasValue (Nat.cast 0 : Float).toModel.unpack 0 := by
    have whole := hasValue_natCast (n := 0) (by decide)
    rwa [Nat.cast_zero] at whole
  cases finite : x.isFinite with
  | true =>
    obtain ⟨p, value⟩ := exists_value_of_isFinite finite
    rw [float_beq_iff_eq value zero, value?_eq_some_iff.2 value, Option.some_inj]
  | false =>
    constructor
    · intro same
      exact absurd (isFinite_of_beq zero same) (by rw [finite]; decide)
    · intro value
      exact absurd (isFinite_of_value? value) (by rw [finite]; decide)

/-- A quotient by zero is not finite, with either sign, and it is no number where zero is divided. -/
theorem div_zero_lost (hx : HasValue x.toModel.unpack q) (hy : HasValue y.toModel.unpack 0) :
    ((x / y).isFinite = false ∧ ((x / y).isNaN = true ↔ q = 0)) ∧
      (-(x / y)).isFinite = false ∧ ((-(x / y)).isNaN = true ↔ q = 0) := by
  have lost {z : Float} (h : (q = 0 ∧ z.toModel.unpack = .notANumber) ∨ (q ≠ 0 ∧ ∃ sign, z.toModel.unpack = .infinity sign)) :
      z.isFinite = false ∧ (z.isNaN = true ↔ q = 0) := by
    change z.toModel.unpack.isFinite = false ∧ (z.toModel.unpack.isNaN = true ↔ q = 0)
    rcases h with ⟨zero, undefined⟩ | ⟨nonzero, sign, infinite⟩
    · rw [undefined]
      exact ⟨rfl, iff_of_true rfl zero⟩
    · rw [infinite]
      exact ⟨rfl, iff_of_false Bool.false_ne_true nonzero⟩
  rcases div_zero hx hy with ⟨zero, undefined⟩ | ⟨nonzero, sign, infinite⟩
  · exact ⟨lost (.inl ⟨zero, undefined⟩), lost (.inl ⟨zero, neg_notANumber undefined⟩)⟩
  · exact ⟨lost (.inr ⟨nonzero, _, infinite⟩), lost (.inr ⟨nonzero, _, neg_infinity infinite⟩)⟩

end Zeros

end Binary64

namespace ComplexNumber

open Binary64

/-- Both parts are finite, and these are their exact values. -/
def HasParts (z : ComplexNumber Float) (p q : Rat) : Prop :=
  (ofFloat z.re).value? = some p ∧ (ofFloat z.im).value? = some q

instance (z : ComplexNumber Float) (p q : Rat) : Decidable (z.HasParts p q) :=
  inferInstanceAs (Decidable (_ ∧ _))

/-- A complex double is zero exactly if both parts have the value zero. -/
theorem isZero_iff {z : ComplexNumber Float} : z.isZero = true ↔ z.HasParts 0 0 := by
  rw [isZero, Bool.and_eq_true, beq_zero_iff, beq_zero_iff, HasParts]

/-- Only zero has no inverse and is no divisor. The inverse of any other finite number is finite, unless the squares of both parts vanish:
then the modulus is lost, neither part of the inverse is finite, and a part is no number where that of the number is zero. -/
theorem inverse_unless_zero {z : ComplexNumber Float} {p q : Rat} (parts : z.HasParts p q) (nonzero : ¬(p = 0 ∧ q = 0)) :
    (∀ a b : ComplexNumber Float, (b.inverse? = none ↔ b.HasParts 0 0) ∧ (a.divide? b = none ↔ b.HasParts 0 0)) ∧
    ((ofFloat z.normSq).value? = some 0 ↔ Vanishes p ∧ Vanishes q) ∧
    ∃ w, z.inverse? = some w ∧
      (¬(Vanishes p ∧ Vanishes q) → w.re.isFinite = true ∧ w.im.isFinite = true) ∧
      (Vanishes p ∧ Vanishes q → w.re.isFinite = false ∧ w.im.isFinite = false ∧
        (w.re.isNaN = true ↔ p = 0) ∧ (w.im.isNaN = true ↔ q = 0)) := by
  have undefined (a b : ComplexNumber Float) :
      (b.inverse? = none ↔ b.HasParts 0 0) ∧ (a.divide? b = none ↔ b.HasParts 0 0) := by
    rw [inverse?_eq_none, divide?_eq_none, isZero_iff]
    exact ⟨Iff.rfl, Iff.rfl⟩
  have re := value?_eq_some_iff.1 parts.1
  have im := value?_eq_some_iff.1 parts.2
  have inverse : z.inverse? = some ⟨z.re / z.normSq, -(z.im / z.normSq)⟩ := by
    refine if_neg fun zero => nonzero ?_
    obtain ⟨first, second⟩ := isZero_iff.1 zero
    rw [parts.1, Option.some_inj] at first
    rw [parts.2, Option.some_inj] at second
    exact ⟨first, second⟩
  rcases squares_cases re im with ⟨d, value, lost, small⟩ | ⟨infinite, kept⟩
  · have modulus : (ofFloat z.normSq).value? = some d := value?_eq_some_iff.2 value
    rw [modulus, Option.some_inj]
    refine ⟨undefined, lost, _, inverse, ?_, ?_⟩
    · intro kept
      have divisor : d ≠ 0 := mt lost.1 kept
      obtain ⟨smallRe, smallIm⟩ := small divisor
      obtain ⟨_, -, quotient⟩ := (rounded_div im value divisor).exists_value smallIm
      exact ⟨(rounded_div re value divisor).isFinite_iff.2 smallRe, (hasValue_neg quotient).isFinite⟩
    · intro both
      obtain rfl := lost.2 both
      obtain ⟨⟨lostRe, undefinedRe⟩, -⟩ := div_zero_lost re value
      obtain ⟨-, lostIm, undefinedIm⟩ := div_zero_lost im value
      exact ⟨lostRe, lostIm, undefinedRe, undefinedIm⟩
  · have infinite : z.normSq.toModel.unpack = .infinity .positive := infinite
    have beyond : ¬(ofFloat z.normSq).value? = some 0 := by
      intro zero
      have finite := isFinite_of_value? zero
      rw [isFinite_of_infinity infinite] at finite
      cases finite
    exact ⟨undefined, iff_of_false beyond kept, _, inverse,
      fun _ => ⟨(div_infinity re infinite).isFinite, (hasValue_neg (div_infinity im infinite)).isFinite⟩,
      fun lost => absurd lost kept⟩

/-- The inverse of `3 + 4i`. -/
theorem inverse_three_four :
    let z : ComplexNumber Float := ⟨3, 4⟩
    z.HasParts 3 4 ∧ ¬((3 : Rat) = 0 ∧ (4 : Rat) = 0) ∧ ¬(ofFloat z.normSq).value? = some 0 ∧
      ∃ w, z.inverse? = some w ∧ w.re.isFinite = true ∧ w.im.isFinite = true := by
  intro z
  have parts : z.HasParts 3 4 := by decide +kernel
  have nonzero : ¬((3 : Rat) = 0 ∧ (4 : Rat) = 0) := by decide
  obtain ⟨-, modulus, w, inverse, finite, -⟩ := inverse_unless_zero parts nonzero
  have kept : ¬(Vanishes 3 ∧ Vanishes 4) := by decide +kernel
  exact ⟨parts, nonzero, mt modulus.1 kept, w, inverse, finite kept⟩

/-- The square of the modulus of `2 ^ -540` is rounded to zero, and its inverse is no number. -/
theorem inverse_defined_false :
    let z : ComplexNumber Float := ⟨Float.ofBits 0x1e30000000000000, 0⟩
    z.isFinite = true ∧ z.isZero = false ∧ (z.normSq == 0) = true ∧ z.inverse?.any (·.im.isNaN) = true := by
  decide +kernel

end ComplexNumber

end DomainColoring
