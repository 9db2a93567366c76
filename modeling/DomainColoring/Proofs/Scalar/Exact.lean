import Mathlib.Algebra.Order.Field.Basic
import Mathlib.Algebra.Order.Floor.Defs
import DomainColoring.Scalar

/-!
# Exact arithmetic

A statement about arithmetic that does not round is about an ordered field within the type of numbers: there the operations of
the type are those of the field (`Exact`). What else the type holds, such as infinities or numbers that are rounded, may behave
in any way.
-/

namespace DomainColoring

/-- An ordered field with whole parts. -/
class abbrev FloorField (K : Type) := Field K, LinearOrder K, IsStrictOrderedRing K, FloorRing K

variable {K α : Type} [FloorField K] [Add α] [Sub α] [Mul α] [Div α] [Neg α] [NatCast α] [Scalar α] [LT α]

/-- The numbers `number x` are computed with exactly. -/
structure Exact (number : K → α) : Prop where
  natCast (n : Nat) : (Nat.cast n : α) = number n
  add (x y : K) : number x + number y = number (x + y)
  sub (x y : K) : number x - number y = number (x - y)
  mul (x y : K) : number x * number y = number (x * y)
  div (x : K) {y : K} (ne : y ≠ 0) : number x / number y = number (x / y)
  neg (x : K) : -number x = number (-x)
  lt_iff (x y : K) : number x < number y ↔ x < y
  isFinite (x : K) : Scalar.isFinite (number x) = true
  floor? (x : K) : Scalar.floor? (number x) = some ⌊x⌋
  /-- The quotient is cut towards zero. -/
  remainder (x : K) {y : K} (ne : y ≠ 0) :
    Scalar.remainder (number x) (number y) = number (x - y * (if 0 ≤ x / y then ⌊x / y⌋ else ⌈x / y⌉ : Int))

namespace Exact

variable {number : K → α}

/-- Different numbers are told apart. -/
theorem injective (exact : Exact number) : Function.Injective number := by
  intro x y same
  apply le_antisymm
  · exact not_lt.1 fun less => lt_irrefl x ((exact.lt_iff x x).1 (same ▸ (exact.lt_iff y x).2 less))
  · exact not_lt.1 fun less => lt_irrefl x ((exact.lt_iff x x).1 (same ▸ (exact.lt_iff x y).2 less))

variable [DecidableLT α]

/-- The magnitude of a number is its absolute value. -/
theorem magnitude_eq (exact : Exact number) (x : K) : magnitude (number x) = number |x| := by
  rw [magnitude, exact.natCast, Nat.cast_zero]
  by_cases negative : x < 0
  · rw [if_pos ((exact.lt_iff x 0).2 negative), exact.neg, abs_of_neg negative]
  · rw [if_neg (mt (exact.lt_iff x 0).1 negative), abs_of_nonneg (not_lt.1 negative)]

/-- The whole part of a number is brought within bounds. -/
theorem floorWithin_eq (exact : Exact number) (least greatest : Int) (x : K) :
    floorWithin least greatest (number x) = max least (min ⌊x⌋ greatest) := by
  rw [floorWithin, exact.floor?]

end Exact

end DomainColoring
