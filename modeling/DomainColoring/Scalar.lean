/-!
# Numbers

The library computes with a type `α` of real numbers that it does not fix: the program runs on doubles, and a statement may be
about the rationals or the reals. Besides arithmetic and order it needs the operations below. They are kept apart by what they
stand on: `Scalar` is about the type itself, `Elementary` about the functions of analysis.
-/

namespace DomainColoring

/-- What is asked of numbers beyond arithmetic and order. -/
class Scalar (α : Type) where
  /-- Neither infinite nor undefined. -/
  isFinite : α → Bool
  /-- The greatest integer that is not above a finite number, and nothing for the others. -/
  floor? : α → Option Int
  /-- The remainder `x - y * n` for the quotient `x / y` cut to an integer `n` towards zero. It is exact and has the sign
  of `x`. -/
  remainder : α → α → α

/-- The functions of analysis that complex arithmetic is made of. -/
class Elementary (α : Type) where
  pi : α
  sqrt : α → α
  exp : α → α
  log : α → α
  sin : α → α
  cos : α → α
  /-- Two to the given power. -/
  exp2 : α → α
  /-- The angle of the point with ordinate `y` (first argument) and abscissa `x`, from `-π` to `π`. -/
  atan2 : α → α → α

variable {α : Type}

/-- The number without its sign. -/
def magnitude [Neg α] [NatCast α] [LT α] [DecidableLT α] (x : α) : α :=
  if x < Nat.cast 0 then -x else x

/-- The greatest integer not above `x`, brought into the range from `least` to `greatest`: what lies beyond a bound becomes that
bound, and what is no number becomes zero. -/
def floorWithin [Scalar α] [NatCast α] [LT α] [DecidableLT α] (least greatest : Int) (x : α) : Int :=
  match Scalar.floor? x with
  | some n => max least (min n greatest)
  | none =>
    if Nat.cast 0 < x then greatest
    else if x < Nat.cast 0 then least
    else 0

end DomainColoring
