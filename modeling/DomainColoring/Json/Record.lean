import DomainColoring.Json.Reading
import DomainColoring.Binary64
import DomainColoring.Decimal
import DomainColoring.Color
import DomainColoring.Viewport

/-!
# Records in JSON

What is made of JSON values: numbers, records with named fields, and the values of the library that are kept as records.
-/

namespace DomainColoring

/-!
## Numbers as doubles

A number that is whole and fits into 64 bits is rounded to the nearest double. Any other is reckoned from as many digits as fit into
64 bits, which are rounded, and one multiplication or division by a power of ten, which rounds again: a second rounding that can
leave the result one place off. A number beyond the range of doubles is refused.
-/

namespace JsonNumber

/-- The digits of a number as far as they fit into 64 bits, and the power of ten that is left. -/
structure Kept where
  significand : Nat
  exponent : Int

/-- Whether another digit fits. -/
def fits (significand : Nat) (digit : Char) : Bool :=
  10 * significand + (digit.toNat - '0'.toNat) < 18446744073709551616

/-- Keeps the digits before the point; from the first that does not fit on, each counts as a power of ten. -/
def keepWhole (significand : Nat) : List Char → Kept
  | [] => ⟨significand, 0⟩
  | digit :: rest =>
    if fits significand digit then keepWhole (10 * significand + (digit.toNat - '0'.toNat)) rest
    else ⟨significand, (rest.length : Int) + 1⟩

/-- Keeps the digits behind the point up to the first that does not fit. -/
def keepFraction (kept : Kept) : List Char → Kept
  | [] => kept
  | digit :: rest =>
    if fits kept.significand digit then
      keepFraction ⟨10 * kept.significand + (digit.toNat - '0'.toNat), kept.exponent - 1⟩ rest
    else kept

/-- Ten to a power, correctly rounded. -/
def powerOfTen (exponent : Nat) : Float :=
  Float.ofScientific 1 false exponent

/-- The number divided by ten to a power, in steps of `10 ^ 308`. -/
def divideByPower (x : Float) (exponent : Nat) : Float :=
  if exponent ≤ 308 then x / powerOfTen exponent
  else if x == 0 then x
  else divideByPower (x / powerOfTen 308) (exponent - 308)
termination_by exponent

/-- The size of a number from the digits kept, unless it is out of range. -/
def Kept.toFloat? (k : Kept) : Option Float :=
  let x := Float.ofNat k.significand
  if k.exponent < 0 then some (divideByPower x k.exponent.natAbs)
  else if 308 < k.exponent then if x == 0 then some x else none
  else
    let y := x * powerOfTen k.exponent.natAbs
    if y.isFinite then some y else none

/-- The greatest exponent that is looked at. -/
def exponentLimit : Int := 2147483647

/-- The size of a number with a given exponent. Beyond the limit an exponent makes the number zero or puts it out of range. -/
def sizeWith? (kept : Kept) (exponent : Int) : Option Float :=
  if exponentLimit < exponent then if kept.significand = 0 then some 0 else none
  else if exponent < -exponentLimit then some 0
  else Kept.toFloat? ⟨kept.significand, kept.exponent + exponent⟩

/-- Whether the number is written with digits only, behind a minus perhaps. -/
def isWhole (n : JsonNumber) : Bool :=
  n.fraction.isNone && n.exponent.isNone

/-- The double that a number stands for. -/
def toFloat? (n : JsonNumber) : Option Float :=
  let whole := keepWhole 0 n.whole
  let kept := keepFraction whole (n.fraction.getD [])
  let size := sizeWith? kept (n.exponent.getD 0)
  size.map fun x => if n.negative then -x else x

/-- The whole number of at most 32 bits that is meant. -/
def toNatural? (n : JsonNumber) : Option Nat :=
  if n.isWhole && !n.negative then (some (Decimal.digitsValue n.whole)).filter (· < Decimal.naturalLimit) else none

end JsonNumber

/-!
## Fields

A record is written as an object with its fields in any order and others between them, or as an array of its fields in their own
order, of which the last may be missing. A field that comes twice is refused.
-/

namespace Json

/-- The value of a key in an object, if it is there, provided that it is not there twice. -/
def member? (members : List (JsonString × Json)) (name : String) : Option (Option Json) :=
  match members.filter (·.1 == some name) with
  | [] => some none
  | [(_, value)] => some (some value)
  | _ => none

/-- The values of the fields with the given names, where they are there. -/
def fields? (names : List String) : Json → Option (List (Option Json))
  | object members => if members.all (·.1.isSome) then names.mapM (member? members) else none
  | array items =>
    if items.length ≤ names.length then
      some (items.map some ++ List.replicate (names.length - items.length) none)
    else none
  | _ => none

/-- The number that a value is. -/
def float? : Json → Option Float
  | number n => n.toFloat?
  | _ => none

/-- The whole number of at most 32 bits that a value is. -/
def natural? : Json → Option Nat
  | number n => n.toNatural?
  | _ => none

/-- The text that a value is. -/
def text? : Json → Option String
  | string s => s
  | _ => none

/-- A field that has to be there. -/
def required {β : Type} (read : Json → Option β) (field : Option Json) : Option β :=
  field.bind read

/-- A field that takes a standard value where it is missing. -/
def optional {β : Type} (standard : β) (read : Json → Option β) : Option Json → Option β
  | some value => read value
  | none => some standard

end Json

/-!
## Values of the library

Complex numbers, viewports and shadings as records. A viewport that is read is four numbers, not yet a checked one.
-/

/-- The complex number that a JSON value is. -/
def ComplexNumber.ofJson? (j : Json) : Option (ComplexNumber Float) := do
  let [re, im] ← j.fields? ["re", "im"] | none
  return ⟨← Json.required Json.float? re, ← Json.required Json.float? im⟩

/-- The four bounds that a JSON value is. -/
def Viewport.ofJson? (j : Json) : Option (Viewport Float) := do
  let [reUpper, reLower, imUpper, imLower] ← j.fields? ["re_upper", "re_lower", "im_upper", "im_lower"] | none
  return ⟨← Json.required Json.float? reUpper, ← Json.required Json.float? reLower,
    ← Json.required Json.float? imUpper, ← Json.required Json.float? imLower⟩

/-- The shading that a JSON value is. -/
def Shading.ofJson? (j : Json) : Option (Shading Float) := do
  let [lightnessMax] ← j.fields? ["lightness_max"] | none
  return ⟨← Json.optional Shading.standard.lightnessMax Json.float? lightnessMax⟩

end DomainColoring
