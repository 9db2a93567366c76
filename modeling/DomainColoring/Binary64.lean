import DomainColoring.Scalar

/-!
# Doubles taken apart

A finite double is a signed whole number times a power of two. Reading it off the bits gives its exact value, on which rounding
to decimals, whole parts and remainders are computed without any error.
-/

namespace DomainColoring

/-- A double by what its bits say. -/
inductive Binary64 where
  /-- The number `±significand * 2 ^ exponent`. -/
  | finite (negative : Bool) (significand : Nat) (exponent : Int)
  | infinite (negative : Bool)
  | undefined
  deriving DecidableEq, Repr

namespace Binary64

/-- The weight of the leading one before the 52 bits of the fraction. -/
def leadingBit : Nat := 4503599627370496

/-- The weight of the sign bit. -/
def signBit : Nat := 9223372036854775808

/-- Eleven bits of exponent and 52 of fraction; the least exponent marks the numbers without a leading one. -/
def ofFloat (x : Float) : Binary64 :=
  let bits := x.toBits
  let negative := decide (0x8000000000000000 ≤ bits)
  let biased := (bits >>> 52 &&& 0x7ff).toNat
  let fraction := (bits &&& 0xfffffffffffff).toNat
  if biased = 2047 then
    if fraction = 0 then .infinite negative else .undefined
  else if biased = 0 then .finite negative fraction (-1074)
  else .finite negative (leadingBit + fraction) ((biased : Int) - 1075)

/-- The double of that value, for a significand of at most 53 bits and a value within the range of doubles. -/
def toFloat : Binary64 → Float
  | .undefined => Float.ofBits 0x7ff8000000000000
  | .infinite negative => Float.ofBits (if negative then 0xfff0000000000000 else 0x7ff0000000000000)
  | .finite negative significand exponent =>
    let shift := min (52 - significand.log2) (exponent + 1074).toNat
    let leading := significand <<< shift
    let biased := if leading < leadingBit then 0 else (exponent - shift + 1075).toNat
    let bits := biased * leadingBit + leading % leadingBit
    Float.ofBits (UInt64.ofNat (if negative then signBit + bits else bits))

/-- The sign bit; what is no number counts as positive. -/
def isNegative : Binary64 → Bool
  | .finite negative _ _ => negative
  | .infinite negative => negative
  | .undefined => false

/-- The exact size `significand * 2 ^ exponent`. -/
def size (significand : Nat) (exponent : Int) : Rat :=
  (significand : Rat) * (2 : Rat) ^ exponent

/-- The exact value of a finite double. -/
def value? : Binary64 → Option Rat
  | .finite negative significand exponent =>
    some (if negative then -size significand exponent else size significand exponent)
  | _ => none

/-- The greatest natural number not above `significand * 2 ^ exponent`. -/
def wholePart (significand : Nat) (exponent : Int) : Nat :=
  if 0 ≤ exponent then significand <<< exponent.toNat else significand >>> (-exponent).toNat

/-- The least natural number not below `significand * 2 ^ exponent`. -/
def roundedUp (significand : Nat) (exponent : Int) : Nat :=
  if 0 ≤ exponent then significand <<< exponent.toNat
  else if significand = 0 then 0
  else (significand - 1) >>> (-exponent).toNat + 1

/-- The greatest integer not above a finite double. -/
def floor? : Binary64 → Option Int
  | .finite negative significand exponent =>
    some (if negative then -(roundedUp significand exponent : Int) else (wholePart significand exponent : Int))
  | _ => none

/-- The remainder of the quotient cut towards zero. Over the smaller of the two exponents both significands are whole, and so
is their remainder; a number that is smaller than the divisor is its own remainder. -/
def remainder : Binary64 → Binary64 → Binary64
  | .finite negative m p, .finite _ n q =>
    if n = 0 then .undefined
    else if q ≤ p then .finite negative ((m <<< (p - q).toNat) % n) q
    else if m >>> (q - p).toNat < n then .finite negative m p
    else .finite negative (m % (n <<< (q - p).toNat)) p
  | .finite negative m p, .infinite _ => .finite negative m p
  | _, _ => .undefined

end Binary64

/-- The sign bit of a double; what is no number counts as positive. -/
def isSignNegative (x : Float) : Bool :=
  (Binary64.ofFloat x).isNegative

instance natCastFloat : NatCast Float := ⟨Float.ofNat⟩

instance scalarFloat : Scalar Float where
  isFinite := Float.isFinite
  floor? x := (Binary64.ofFloat x).floor?
  remainder x y := ((Binary64.ofFloat x).remainder (Binary64.ofFloat y)).toFloat

instance elementaryFloat : Elementary Float where
  pi := Float.ofBits 0x400921fb54442d18
  sqrt := Float.sqrt
  exp := Float.exp
  log := Float.log
  sin := Float.sin
  cos := Float.cos
  exp2 := Float.exp2
  atan2 := Float.atan2

end DomainColoring
