import DomainColoring.Scalar
import DomainColoring.Decimal

/-!
# Complex numbers

Complex numbers by their parts: arithmetic, the elementary functions of them, and how they are written.
-/

namespace DomainColoring

/-!
## Arithmetic

A complex number in Cartesian form, with the field operations as they are computed from the parts. Inversion and division are
partial: nothing is returned for a zero divisor, so that a pole is told apart from an overflow.
-/

/-- The number `re + im * i`. -/
structure ComplexNumber (α : Type) where
  re : α
  im : α
  deriving DecidableEq, Repr

namespace ComplexNumber

variable {α : Type}

/-- A number on the real axis. -/
def ofReal [NatCast α] (x : α) : ComplexNumber α :=
  ⟨x, Nat.cast 0⟩

/-- The imaginary unit. -/
def i [NatCast α] : ComplexNumber α :=
  ⟨Nat.cast 0, Nat.cast 1⟩

instance [Add α] : Add (ComplexNumber α) :=
  ⟨fun a b => ⟨a.re + b.re, a.im + b.im⟩⟩

instance [Sub α] : Sub (ComplexNumber α) :=
  ⟨fun a b => ⟨a.re - b.re, a.im - b.im⟩⟩

instance [Neg α] : Neg (ComplexNumber α) :=
  ⟨fun a => ⟨-a.re, -a.im⟩⟩

instance [Add α] [Sub α] [Mul α] : Mul (ComplexNumber α) :=
  ⟨fun a b => ⟨a.re * b.re - a.im * b.im, a.im * b.re + a.re * b.im⟩⟩

/-- The product with a real number. -/
def scale [Mul α] (a : ComplexNumber α) (k : α) : ComplexNumber α :=
  ⟨a.re * k, a.im * k⟩

/-- The reflection in the real axis. -/
def conj [Neg α] (a : ComplexNumber α) : ComplexNumber α :=
  ⟨a.re, -a.im⟩

/-- The square of the modulus. -/
def normSq [Add α] [Mul α] (a : ComplexNumber α) : α :=
  a.re * a.re + a.im * a.im

/-- Whether both parts are zero, of either sign. -/
def isZero [BEq α] [NatCast α] (a : ComplexNumber α) : Bool :=
  a.re == Nat.cast 0 && a.im == Nat.cast 0

/-- Whether both parts are finite. -/
def isFinite [Scalar α] (a : ComplexNumber α) : Bool :=
  Scalar.isFinite a.re && Scalar.isFinite a.im

/-- The inverse of a number that is not zero: its conjugate over the square of its modulus. -/
def inverse? [Add α] [Mul α] [Div α] [Neg α] [BEq α] [NatCast α] (a : ComplexNumber α) : Option (ComplexNumber α) :=
  if a.isZero then none
  else
    let d := a.normSq
    some ⟨a.re / d, -(a.im / d)⟩

/-- The quotient, as a product with the inverse. -/
def divide? [Add α] [Sub α] [Mul α] [Div α] [Neg α] [BEq α] [NatCast α] (a b : ComplexNumber α) :
    Option (ComplexNumber α) :=
  b.inverse?.map (a * ·)

end ComplexNumber

/-!
## Elementary functions

Each is put together from real functions of the parts. The logarithm of zero is not refused: its real part is the logarithm of a
zero modulus, and what comes of that is for the caller to judge.
-/

namespace ComplexNumber

variable {α : Type} [Add α] [Sub α] [Mul α] [Div α] [Neg α] [NatCast α] [Elementary α]

/-- The modulus. -/
def norm (a : ComplexNumber α) : α :=
  Elementary.sqrt a.normSq

/-- The argument, from `-π` to `π`. -/
def arg (a : ComplexNumber α) : α :=
  Elementary.atan2 a.im a.re

/-- The exponential: modulus `e ^ re`, argument `im`. -/
def exp (a : ComplexNumber α) : ComplexNumber α :=
  let r := Elementary.exp a.re
  ⟨r * Elementary.cos a.im, r * Elementary.sin a.im⟩

/-- The principal logarithm: the logarithm of the modulus, and the argument. -/
def log (a : ComplexNumber α) : ComplexNumber α :=
  ⟨Elementary.log a.norm, a.arg⟩

/-- The principal power. -/
def pow (a b : ComplexNumber α) : ComplexNumber α :=
  exp (log a * b)

/-- The exponentials of `i * a` and of `-(i * a)`. -/
def turns (a : ComplexNumber α) : ComplexNumber α × ComplexNumber α :=
  let turned := i * a
  (exp turned, exp (-turned))

/-- One half. -/
def half : α :=
  Nat.cast 1 / Nat.cast 2

/-- The sine: half the difference of the two turns, over the imaginary unit. -/
def sin (a : ComplexNumber α) : ComplexNumber α :=
  let (forth, back) := turns a
  (forth - back) * ⟨Nat.cast 0, -half⟩

/-- The cosine: half the sum of the two turns. -/
def cos (a : ComplexNumber α) : ComplexNumber α :=
  let (forth, back) := turns a
  (forth + back).scale half

end ComplexNumber

/-!
## In writing

Both parts with three decimal places and the sign of the imaginary part between them.
-/

namespace ComplexNumber

/-- The form with a minus is taken for a negative imaginary part only; a negative zero keeps its sign behind the plus. -/
def text (a : ComplexNumber Float) : String :=
  if isSignNegative a.im && a.im != Nat.cast 0 then
    Decimal.fixedText 3 a.re ++ " - " ++ Decimal.fixedText 3 (-a.im) ++ "i"
  else Decimal.fixedText 3 a.re ++ " + " ++ Decimal.fixedText 3 a.im ++ "i"

end ComplexNumber

end DomainColoring
