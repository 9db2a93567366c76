import Mathlib.Analysis.SpecialFunctions.Pow.Complex
import DomainColoring.ComplexNumber
import DomainColoring.Proofs.Scalar.Reals

/-!
# The complex functions of analysis

Over the reals the arithmetic of complex numbers is that of `ℂ`, and the functions put together from the parts are the ones they are
named for: the exponential, sine and cosine, the principal logarithm and the principal power (`ComplexNumber.functions_of_analysis`).
Each operation has a lemma that says what becomes of it in `ℂ`.
-/

namespace DomainColoring.ComplexNumber

/-- The number as one of analysis. -/
def toComplex (a : ComplexNumber ℝ) : ℂ :=
  ⟨a.re, a.im⟩

/-- A complex number is known by its parts. -/
theorem toComplex_injective : Function.Injective toComplex := by
  intro a b same
  obtain ⟨re, im⟩ := a
  obtain ⟨re', im'⟩ := b
  rw [toComplex, toComplex, Complex.mk.injEq] at same
  rw [mk.injEq]
  exact same

/-! ## Arithmetic -/

section Arithmetic

variable (a b : ComplexNumber ℝ)

/-- Sums are those of the complex field. -/
theorem toComplex_add : (a + b).toComplex = a.toComplex + b.toComplex := by
  rfl

theorem toComplex_sub : (a - b).toComplex = a.toComplex - b.toComplex := by
  rfl

theorem toComplex_neg : (-a).toComplex = -a.toComplex := by
  rfl

/-- Products are those of the complex field. -/
theorem toComplex_mul : (a * b).toComplex = a.toComplex * b.toComplex := by
  apply Complex.ext
  · rfl
  · exact add_comm _ _

/-- Scaling is multiplication with a real number. -/
theorem toComplex_scale (k : ℝ) : (a.scale k).toComplex = a.toComplex * k := by
  apply Complex.ext
  · rw [Complex.re_mul_ofReal]
    rfl
  · rw [Complex.im_mul_ofReal]
    rfl

theorem toComplex_ofReal (x : ℝ) : (ofReal x).toComplex = x := by
  simp [toComplex, ofReal, Complex.ext_iff]

theorem toComplex_i : (i : ComplexNumber ℝ).toComplex = Complex.I := by
  simp [toComplex, i, Complex.ext_iff]

theorem normSq_toComplex : Complex.normSq a.toComplex = a.normSq := by
  rfl

theorem isZero_iff_toComplex : a.isZero = true ↔ a.toComplex = 0 := by
  simp [isZero, toComplex, Complex.ext_iff]

/-- Zero has no inverse, and every other number has its own. -/
theorem toComplex_inverse? : a.inverse?.map toComplex = if a.toComplex = 0 then none else some a.toComplex⁻¹ := by
  unfold inverse?
  by_cases zero : a.toComplex = 0
  · rw [if_pos ((isZero_iff_toComplex a).2 zero), if_pos zero, Option.map_none]
  · rw [if_neg (mt (isZero_iff_toComplex a).1 zero), if_neg zero, Option.map_some, Option.some.injEq]
    apply Complex.ext
    · rw [Complex.inv_re, normSq_toComplex]
      rfl
    · rw [Complex.inv_im, normSq_toComplex, neg_div]
      rfl

/-- Quotients are those of the complex field, and there is none for a zero divisor. -/
theorem toComplex_divide? :
    (a.divide? b).map toComplex = if b.toComplex = 0 then none else some (a.toComplex / b.toComplex) := by
  have product : toComplex ∘ (a * ·) = (a.toComplex * ·) ∘ toComplex := funext (toComplex_mul a)
  rw [divide?, Option.map_map, product, ← Option.map_map, toComplex_inverse?]
  split
  · rfl
  · rw [Option.map_some, div_eq_mul_inv]

end Arithmetic

/-! ## Functions -/

section Functions

variable (a b z : ComplexNumber ℝ)

/-- The modulus is the distance from zero. -/
theorem norm_toComplex : ‖z.toComplex‖ = z.norm := by
  rw [Complex.norm_def, normSq_toComplex]
  rfl

/-- The exponential is that of analysis. -/
theorem toComplex_exp : z.exp.toComplex = Complex.exp z.toComplex := by
  apply Complex.ext
  · rw [Complex.exp_re]
    rfl
  · rw [Complex.exp_im]
    rfl

/-- The logarithm is the principal one. -/
theorem toComplex_log : z.log.toComplex = Complex.log z.toComplex := by
  apply Complex.ext
  · rw [Complex.log_re, norm_toComplex]
    rfl
  · rw [Complex.log_im]
    rfl

/-- Powers are exponentials of multiples of the principal logarithm. -/
theorem toComplex_pow : (a.pow b).toComplex = Complex.exp (b.toComplex * Complex.log a.toComplex) := by
  rw [pow, toComplex_exp, toComplex_mul, toComplex_log, mul_comm]

/-- The one turn is the exponential of the number turned by a right angle. -/
theorem toComplex_turns_fst : z.turns.1.toComplex = Complex.exp (z.toComplex * Complex.I) := by
  simp only [turns]
  rw [toComplex_exp, toComplex_mul, toComplex_i, mul_comm]

theorem toComplex_turns_snd : z.turns.2.toComplex = Complex.exp (-z.toComplex * Complex.I) := by
  simp only [turns]
  rw [toComplex_exp, toComplex_neg, toComplex_mul, toComplex_i, neg_mul, mul_comm]

/-- The sine is that of analysis. -/
theorem toComplex_sin : z.sin.toComplex = Complex.sin z.toComplex := by
  have factor : (⟨Nat.cast 0, -half⟩ : ComplexNumber ℝ).toComplex = -Complex.I / 2 := by
    simp [toComplex, half, Complex.ext_iff, neg_div]
  simp only [sin]
  rw [toComplex_mul, toComplex_sub, toComplex_turns_fst, toComplex_turns_snd, factor, Complex.sin]
  ring

/-- The cosine is that of analysis. -/
theorem toComplex_cos : z.cos.toComplex = Complex.cos z.toComplex := by
  have factor : ((half : ℝ) : ℂ) = 1 / 2 := by
    simp [half]
  simp only [cos]
  rw [toComplex_scale, toComplex_add, toComplex_turns_fst, toComplex_turns_snd, factor, Complex.cos]
  ring

end Functions

/-- Over the reals, arithmetic and functions of complex numbers are those of analysis. Zero alone has no inverse and divides nothing; the
logarithm of any other number is the principal one, and so are its powers. Hence division undoes multiplication, the exponential undoes
the logarithm, and the squares of sine and cosine add up to one. -/
theorem functions_of_analysis (a b z : ComplexNumber ℝ) :
    (a * b).toComplex = a.toComplex * b.toComplex ∧
      (z.inverse?.map toComplex = if z.toComplex = 0 then none else some z.toComplex⁻¹) ∧
      ((a.divide? b).map toComplex = if b.toComplex = 0 then none else some (a.toComplex / b.toComplex)) ∧
      z.exp.toComplex = Complex.exp z.toComplex ∧
      z.sin.toComplex = Complex.sin z.toComplex ∧
      z.cos.toComplex = Complex.cos z.toComplex ∧
      (z.toComplex ≠ 0 → z.log.toComplex = Complex.log z.toComplex) ∧
      (a.toComplex ≠ 0 → (a.pow b).toComplex = Complex.exp (b.toComplex * Complex.log a.toComplex)) ∧
      (b.toComplex ≠ 0 → (a * b).divide? b = some a) ∧
      (z.toComplex ≠ 0 → z.log.exp = z) ∧
      z.sin * z.sin + z.cos * z.cos = ofReal 1 := by
  refine ⟨toComplex_mul a b, toComplex_inverse? z, toComplex_divide? a b, toComplex_exp z, toComplex_sin z, toComplex_cos z,
    fun _ => toComplex_log z, fun _ => toComplex_pow a b, ?_, ?_, ?_⟩
  · intro ne
    have quotient := toComplex_divide? (a * b) b
    rw [if_neg ne, toComplex_mul, mul_div_cancel_right₀ _ ne, Option.map_eq_some_iff] at quotient
    obtain ⟨c, divided, same⟩ := quotient
    rw [divided, toComplex_injective same]
  · intro ne
    apply toComplex_injective
    rw [toComplex_exp, toComplex_log, Complex.exp_log ne]
  · apply toComplex_injective
    rw [toComplex_add, toComplex_mul, toComplex_mul, toComplex_sin, toComplex_cos, toComplex_ofReal, ← sq, ← sq,
      Complex.sin_sq_add_cos_sq, Complex.ofReal_one]

/-- The power of the imaginary unit to itself is real. -/
theorem i_pow_i :
    (i : ComplexNumber ℝ).toComplex ≠ 0 ∧ (i.pow i : ComplexNumber ℝ) = ofReal (Real.exp (-(Real.pi / 2))) ∧
      (i * i : ComplexNumber ℝ).divide? i = some i ∧ (i : ComplexNumber ℝ).log.exp = i := by
  have ne : (i : ComplexNumber ℝ).toComplex ≠ 0 := by
    rw [toComplex_i]
    exact Complex.I_ne_zero
  obtain ⟨-, -, -, -, -, -, -, power, divided, logarithm, -⟩ := functions_of_analysis i i i
  have exponent : Complex.I * (Real.pi / 2 * Complex.I) = ((-(Real.pi / 2) : ℝ) : ℂ) := by
    push_cast
    rw [mul_left_comm, Complex.I_mul_I, mul_neg_one]
  refine ⟨ne, toComplex_injective ?_, divided ne, logarithm ne⟩
  rw [power ne, toComplex_i, Complex.log_I, exponent, ← Complex.ofReal_exp, toComplex_ofReal]

end DomainColoring.ComplexNumber
