import Mathlib.Algebra.Order.Floor.Defs
import Mathlib.Algebra.Order.Floor.Ring
import Mathlib.Data.EReal.Inv
import DomainColoring.Scalar

/-!
# Arithmetic with one rounding

Numbers of a fixed size stand for extended reals, or for no number at all. All that is known here of computing with them is that each
operation takes the exact result and rounds it, always in the same way (`RoundedOnce`): the rounding keeps the order and the signs and
leaves alone what needs no rounding. How far it goes, and where it gives way to infinities, is left open.
-/

namespace DomainColoring

variable {α : Type} [Add α] [Sub α] [Mul α] [Div α] [NatCast α] [Scalar α] [LT α] [LE α]

/-- What numbers stand for (`value?`), and how an exact result becomes one of them (`round`). The operations are described where
the second operand is finite and the result is determined; that is enough as long as infinities are not computed with each other. -/
structure RoundedOnce (value? : α → Option EReal) (round : EReal → EReal) : Prop where
  monotone : Monotone round
  odd (r : EReal) : round (-r) = -round r
  fixed {x : α} {p : EReal} (hx : value? x = some p) : round p = p
  /-- The difference of different numbers is not rounded to zero. -/
  difference_pos {x y : α} {p q : ℝ} (hx : value? x = some p) (hy : value? y = some q) (less : q < p) : 0 < round ((p - q : ℝ))
  /-- Whole numbers of 32 bits need no rounding. -/
  natCast {n : Nat} (word : n < 2 ^ 32) : value? (Nat.cast n) = some ((n : ℝ) : EReal)
  add {x y : α} {p : ℝ} {q : EReal} (hx : value? x = some p) (hy : value? y = some q) : value? (x + y) = some (round (p + q))
  sub {x y : α} {p q : ℝ} (hx : value? x = some p) (hy : value? y = some q) : value? (x - y) = some (round ((p - q : ℝ)))
  mul {x y : α} {p : EReal} {q : ℝ} (hx : value? x = some p) (hy : value? y = some q) (determined : q = 0 → ∃ r : ℝ, p = r) :
    value? (x * y) = some (round (p * q))
  div {x y : α} {p : EReal} {q : ℝ} (hx : value? x = some p) (hy : value? y = some q) (nonzero : q ≠ 0) :
    value? (x / y) = some (round (p / q))
  lt_iff {x y : α} {p q : EReal} (hx : value? x = some p) (hy : value? y = some q) : x < y ↔ p < q
  le_iff {x y : α} {p q : EReal} (hx : value? x = some p) (hy : value? y = some q) : x ≤ y ↔ p ≤ q
  isFinite_iff {x : α} : Scalar.isFinite x = true ↔ ∃ r : ℝ, value? x = some r
  floor? {x : α} {r : ℝ} (hx : value? x = some r) : Scalar.floor? x = some ⌊r⌋
  floor?_infinite {x : α} (hx : value? x = some ⊤ ∨ value? x = some ⊥) : Scalar.floor? x = none

namespace RoundedOnce

variable {value? : α → Option EReal} {round : EReal → EReal} (h : RoundedOnce value? round) {x y : α} {least greatest : Int}

include h

theorem zero : value? (Nat.cast 0) = some 0 := by
  simpa using h.natCast (n := 0) (by decide)

section Floor

variable [DecidableLT α]

/-- The whole part of a real number is brought within bounds. -/
theorem floorWithin_coe {r : ℝ} (hx : value? x = some r) : floorWithin least greatest x = max least (min ⌊r⌋ greatest) := by
  rw [floorWithin, h.floor? hx]

/-- Above all numbers the whole part is the greatest allowed. -/
theorem floorWithin_top (hx : value? x = some ⊤) : floorWithin least greatest x = greatest := by
  have positive : Nat.cast 0 < x := (h.lt_iff h.zero hx).2 EReal.zero_lt_top
  rw [floorWithin, h.floor?_infinite (.inl hx)]
  simp [positive]

/-- Below all numbers the whole part is the least allowed. -/
theorem floorWithin_bot (hx : value? x = some ⊥) : floorWithin least greatest x = least := by
  have negative : x < Nat.cast 0 := (h.lt_iff hx h.zero).2 EReal.bot_lt_zero
  have notPositive : ¬Nat.cast 0 < x := mt (h.lt_iff h.zero hx).1 not_lt_bot
  rw [floorWithin, h.floor?_infinite (.inr hx)]
  simp [negative, notPositive]

/-- Whole parts within bounds keep the order, beyond the bounds and at infinity too. -/
theorem floorWithin_le (order : least ≤ greatest) {p q : EReal} (hx : value? x = some p) (hy : value? y = some q) (le : p ≤ q) :
    floorWithin least greatest x ≤ floorWithin least greatest y := by
  induction p with
  | bot =>
    rw [h.floorWithin_bot hx]
    induction q with
    | bot => rw [h.floorWithin_bot hy]
    | coe s =>
      rw [h.floorWithin_coe hy]
      exact le_max_left _ _
    | top => rwa [h.floorWithin_top hy]
  | coe r =>
    rw [h.floorWithin_coe hx]
    induction q with
    | bot => exact absurd le (by simp)
    | coe s =>
      rw [h.floorWithin_coe hy]
      have floors : ⌊r⌋ ≤ ⌊s⌋ := Int.floor_mono (EReal.coe_le_coe_iff.1 le)
      exact max_le_max le_rfl (min_le_min floors le_rfl)
    | top =>
      rw [h.floorWithin_top hy]
      exact max_le order (min_le_right _ _)
  | top =>
    obtain rfl := top_le_iff.1 le
    rw [h.floorWithin_top hx, h.floorWithin_top hy]

end Floor

end RoundedOnce

end DomainColoring
