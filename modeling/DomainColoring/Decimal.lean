import DomainColoring.Binary64

/-!
# Decimal numbers

Doubles in decimal writing: how they are read, and how they are written with the fewest digits that tell them apart or with a fixed
count of places. All of it is exact arithmetic with rational numbers, rounded once.
-/

namespace DomainColoring

namespace Decimal

/-!
## Rows of digits

Whole numbers in decimal writing.
-/

/-- The number that a row of digits stands for. -/
def digitsValue (digits : List Char) : Nat :=
  digits.foldl (fun n d => 10 * n + (d.toNat - '0'.toNat)) 0

/-- The number that a text is, if it has at least one digit and nothing else. -/
def digits? (text : List Char) : Option Nat :=
  if text.isEmpty || !text.all Char.isDigit then none else some (digitsValue text)

/-- The first number of more than 32 bits: sizes and counts stay below it. -/
def naturalLimit : Nat := 4294967296

/-- The number of at most 32 bits that a text is: digits behind an optional plus sign. -/
def natural? (text : List Char) : Option Nat :=
  let digits := match text with
    | '+' :: rest => rest
    | rest => rest
  (digits? digits).filter (· < naturalLimit)

/-!
## Reading

A number as written: an optional sign, then digits with an optional point among or beside them and an optional exponent, or the
words for infinity and for no number in letters of any case. The value is the double nearest to what is written, however many
digits there are.
-/

/-- A number in writing. -/
inductive Numeral where
  /-- The number `±significand * 10 ^ exponent`. -/
  | decimal (negative : Bool) (significand : Nat) (exponent : Int)
  | infinity (negative : Bool)
  | undefined
  deriving DecidableEq, Repr

/-- A leading sign and the rest; without a sign the number is positive. -/
def splitSign : List Char → Bool × List Char
  | '-' :: rest => (true, rest)
  | '+' :: rest => (false, rest)
  | text => (false, text)

/-- The exponent at the end of a number: nothing, or the letter `e` and a whole number. -/
def exponent? : List Char → Option Int
  | [] => some 0
  | letter :: rest =>
    if letter = 'e' ∨ letter = 'E' then
      let (negative, digits) := splitSign rest
      (digits? digits).map fun n => if negative then -(n : Int) else n
    else none

/-- Digits, a point and an exponent; there is a digit before or after the point. -/
def unsigned? (negative : Bool) (text : List Char) : Option Numeral :=
  let whole := text.takeWhile Char.isDigit
  let afterWhole := text.dropWhile Char.isDigit
  let (fraction, afterFraction) :=
    match afterWhole with
    | '.' :: rest => (rest.takeWhile Char.isDigit, rest.dropWhile Char.isDigit)
    | rest => ([], rest)
  if whole.isEmpty && fraction.isEmpty then none
  else (exponent? afterFraction).map fun exponent =>
    .decimal negative (digitsValue (whole ++ fraction)) (exponent - fraction.length)

/-- The number that a text is, if it is one. -/
def Numeral.ofText? (text : List Char) : Option Numeral :=
  let (negative, rest) := splitSign text
  let word := String.ofList (rest.map Char.toLower)
  if word = "inf" ∨ word = "infinity" then some (.infinity negative)
  else if word = "nan" then some .undefined
  else unsigned? negative rest

/-- The double nearest to `significand * 10 ^ exponent`. -/
def nearest (significand : Nat) (exponent : Int) : Float :=
  Float.ofScientific significand (decide (exponent < 0)) exponent.natAbs

/-- The double nearest to a number. -/
def Numeral.toFloat : Numeral → Float
  | .undefined => Binary64.undefined.toFloat
  | .infinity negative => (Binary64.infinite negative).toFloat
  | .decimal negative significand exponent =>
    if negative then -nearest significand exponent else nearest significand exponent

/-- The double that a text stands for, if it is a number. -/
def read? (text : List Char) : Option Float :=
  (Numeral.ofText? text).map Numeral.toFloat

/-!
## Rounding to whole numbers and decimal places

Exact rational arithmetic behind every number that is written with a fixed number of digits.
-/

/-- The nearest integer; of two equally near ones, the even one. -/
def roundHalfEven (x : Rat) : Int :=
  let below := x.floor
  let rest := x - below
  if rest < 1 / 2 then below
  else if 1 / 2 < rest then below + 1
  else below + below % 2

/-- The nearest integer; of two equally near ones, the greater. -/
def roundHalfUp (x : Rat) : Int :=
  (x + 1 / 2).floor

/-- How many decimal digits a number has. -/
def digitCount (n : Nat) : Nat :=
  (Nat.toDigits 10 n).length

/-- The exponent `k` with `10 ^ (k - 1) ≤ x < 10 ^ k`, for a positive `x`. The digit counts of numerator and denominator leave
only two candidates. -/
def order (x : Rat) : Int :=
  let guess : Int := (digitCount x.num.natAbs : Int) - digitCount x.den
  if x < (10 : Rat) ^ guess then guess else guess + 1

/-- The digits of a number, with zeros in front to make at least `width` of them. -/
def padded (width n : Nat) : String :=
  let digits := Nat.toDigits 10 n
  String.ofList (List.replicate (width - digits.length) '0' ++ digits)

/-- The number `n` with its last `places` digits behind a point; without places there is no point. -/
def withPoint (places n : Nat) : String :=
  let unit := Nat.pow 10 places
  if places = 0 then padded 1 n
  else padded 1 (n / unit) ++ "." ++ padded places (n % unit)

/-- A nonnegative number with a fixed count of decimal places, rounded to the nearest, ties to even. -/
def fixed (places : Nat) (x : Rat) : String :=
  withPoint places (roundHalfEven (x * (10 : Rat) ^ places)).toNat

end Decimal

/-!
## The shortest decimal of a double

Among all decimals that read back as a double, the one of fewest digits, of those the nearest, and of two equally near ones the
greater in size. The reals that read back as a double form an interval around it; on the grid of decimals with `n` digits, if any
point lies in the interval then so does one of the two neighbours of the double, so the first grid with a hit decides.
-/

namespace Binary64

/-- The reals that round to one double: those between two bounds, themselves included or not. -/
structure Spread where
  lower : Rat
  upper : Rat
  closed : Bool

/-- Whether a real rounds to the double. -/
def Spread.contains (s : Spread) (x : Rat) : Bool :=
  if s.closed then s.lower ≤ x && x ≤ s.upper else s.lower < x && x < s.upper

/-- Half a unit of the last place to each side; below a power of two the numbers lie twice as dense. A tie goes to the even
significand. -/
def spread (significand : Nat) (exponent : Int) : Spread :=
  let quarter := (2 : Rat) ^ (exponent - 2)
  let below := if significand = leadingBit ∧ -1074 < exponent then 1 else 2
  { lower := ((4 * significand - below : Nat) : Rat) * quarter
    upper := ((4 * significand + 2 : Nat) : Rat) * quarter
    closed := significand % 2 = 0 }

end Binary64

namespace Decimal

/-- On the grid of multiples of `unit`, the neighbour of `x` that is accepted. If both are it is the nearer one, or the greater in
the middle between them. -/
def acceptedNeighbour? (accepts : Rat → Bool) (x unit : Rat) : Option Nat :=
  let below := (x / unit).floor.toNat
  let nearest := (roundHalfUp (x / unit)).toNat
  match accepts (below * unit), accepts ((below + 1 : Nat) * unit) with
  | true, true => some nearest
  | true, false => some below
  | false, true => some (below + 1)
  | false, false => none

/-- The accepted decimal of fewest digits next to a positive `x`, as a whole number and the exponent of its last place. The first
grid has no digits below the next power of ten, which alone may be a hit on it; seventeen digits are always enough for a
double. -/
def shortest (accepts : Rat → Bool) (x : Rat) : Nat × Int :=
  let top := order x
  let hit := (List.range 18).findSome? fun (n : Nat) =>
    let place := top - (n : Int)
    (acceptedNeighbour? accepts x ((10 : Rat) ^ place)).map (·, place)
  hit.getD ((roundHalfUp (x / (10 : Rat) ^ (top - 17))).toNat, top - 17)

/-- The number `n * 10 ^ place` written out, without an exponent. -/
def positional (n : Nat) (place : Int) : String :=
  if 0 ≤ place then padded 1 (n * Nat.pow 10 place.toNat) else withPoint (-place).toNat n

/-- The shortest digits of `significand * 2 ^ exponent`, written out. -/
def shortestSize (significand : Nat) (exponent : Int) : String :=
  if significand = 0 then "0"
  else
    let (n, place) := shortest (Binary64.spread significand exponent).contains (Binary64.size significand exponent)
    positional n place

/-- A sign where there is one, then the given text of the size. -/
def textWith (sizeText : Nat → Int → String) : Binary64 → String
  | .undefined => "NaN"
  | .infinite negative => (if negative then "-" else "") ++ "inf"
  | .finite negative significand exponent => (if negative then "-" else "") ++ sizeText significand exponent

/-- The fewest digits that read back as the same double, never with an exponent. -/
def shortestText (x : Float) : String :=
  textWith shortestSize (Binary64.ofFloat x)

/-- A fixed count of decimal places, rounded from the exact value. -/
def fixedText (places : Nat) (x : Float) : String :=
  textWith (fun significand exponent => fixed places (Binary64.size significand exponent)) (Binary64.ofFloat x)

end Decimal

end DomainColoring
