import Mathlib.Analysis.SpecialFunctions.Complex.Arg
import Mathlib.Analysis.SpecialFunctions.Pow.Real
import DomainColoring.Proofs.Scalar.Exact

/-!
# Real numbers

The reals with the functions of analysis are numbers to compute with, though not on a machine. All of them are computed with
exactly (`exact_real`), and so are the rationals among them (`exact_rat`).
-/

namespace DomainColoring

noncomputable instance scalarReal : Scalar ℝ where
  isFinite _ := true
  floor? x := some ⌊x⌋
  remainder x y := x - y * (if 0 ≤ x / y then ⌊x / y⌋ else ⌈x / y⌉ : Int)

noncomputable instance elementaryReal : Elementary ℝ where
  pi := Real.pi
  sqrt := Real.sqrt
  exp := Real.exp
  log := Real.log
  sin := Real.sin
  cos := Real.cos
  exp2 x := 2 ^ x
  atan2 y x := Complex.arg ⟨x, y⟩

/-- The real numbers are computed with as they are. -/
theorem exact_real : Exact (id : ℝ → ℝ) where
  natCast _ := rfl
  add _ _ := rfl
  sub _ _ := rfl
  mul _ _ := rfl
  div _ _ _ := rfl
  neg _ := rfl
  lt_iff _ _ := Iff.rfl
  isFinite _ := rfl
  floor? _ := rfl
  remainder _ _ _ := rfl

/-- Among the real numbers the rational ones are computed with as they are. -/
theorem exact_rat : Exact (Rat.cast : ℚ → ℝ) where
  natCast n := (Rat.cast_natCast n).symm
  add x y := (Rat.cast_add x y).symm
  sub x y := (Rat.cast_sub x y).symm
  mul x y := (Rat.cast_mul x y).symm
  div x y _ := (Rat.cast_div x y).symm
  neg x := (Rat.cast_neg x).symm
  lt_iff _ _ := Rat.cast_lt
  isFinite _ := rfl
  floor? x := congrArg some (Rat.floor_cast x)
  remainder x y _ := by
    have quotient : (x : ℝ) / y = (x / y : ℚ) := (Rat.cast_div x y).symm
    change (x : ℝ) - y * (if 0 ≤ (x : ℝ) / y then ⌊(x : ℝ) / y⌋ else ⌈(x : ℝ) / y⌉ : Int) = _
    simp only [quotient, Rat.cast_nonneg, Rat.floor_cast, Rat.ceil_cast, Rat.cast_sub, Rat.cast_mul, Rat.cast_intCast]

end DomainColoring
