import DomainColoring.ComplexNumber

/-!
# Domain coloring

The color of a complex value: the hue is its argument, the lightness grows with its modulus up to a bound. A value that is not
finite is white.
-/

namespace DomainColoring

/-- A color of eight bits a channel. -/
structure Rgb where
  r : UInt8
  g : UInt8
  b : UInt8
  deriving DecidableEq, Repr

/-- The color of what has no value. -/
def Rgb.undefined : Rgb := ⟨255, 255, 255⟩

/-- The four bytes of an opaque pixel. -/
def Rgb.bytes (c : Rgb) : List UInt8 := [c.r, c.g, c.b, 255]

/-- Red, green and blue as numbers from zero to one. -/
structure Light (α : Type) where
  red : α
  green : α
  blue : α
  deriving DecidableEq, Repr

/-- How values are colored: the lightness of a value of infinite modulus. -/
structure Shading (α : Type) where
  lightnessMax : α
  deriving DecidableEq, Repr

variable {α : Type} [Add α] [Sub α] [Mul α] [Div α] [Neg α] [NatCast α] [Scalar α] [LT α] [DecidableLT α]

/-- The part of one lap in which an angle lies: its remainder, moved up by a lap if it is negative. -/
def withinLap (lap angle : α) : α :=
  let r := Scalar.remainder angle lap
  if r < Nat.cast 0 then r + lap else r

namespace Light

variable [Elementary α]

/-- A full turn. -/
def turn : α :=
  Nat.cast 2 * Elementary.pi

/-- How far a color is from grey: least at both ends of lightness. -/
def chroma (saturation lightness : α) : α :=
  (Nat.cast 1 - magnitude (Nat.cast 2 * lightness - Nat.cast 1)) * saturation

/-- The place of a hue among the six sides of the color hexagon. -/
def hexagon (hue : α) : α :=
  withinLap turn hue / (Elementary.pi / Nat.cast 3)

/-- The chroma shared out to the channels at a place of the hexagon. On each side one channel is full, one is empty, and the third
goes up or down. -/
def share (place chroma : α) : Light α :=
  let third := chroma * (Nat.cast 1 - magnitude (Scalar.remainder place (Nat.cast 2) - Nat.cast 1))
  let empty := Nat.cast 0
  match (floorWithin 0 4294967295 place).toNat % 6 with
  | 0 => ⟨chroma, third, empty⟩
  | 1 => ⟨third, chroma, empty⟩
  | 2 => ⟨empty, chroma, third⟩
  | 3 => ⟨empty, third, chroma⟩
  | 4 => ⟨third, empty, chroma⟩
  | _ => ⟨chroma, empty, third⟩

/-- The color of a hue in radians, a saturation and a lightness. -/
def ofHsl (hue saturation lightness : α) : Light α :=
  let c := chroma saturation lightness
  let shared := share (hexagon hue) c
  let grey := lightness - c / Nat.cast 2
  ⟨shared.red + grey, shared.green + grey, shared.blue + grey⟩

end Light

/-- A number from zero to one as a byte; the fraction is dropped. -/
def channel (v : α) : UInt8 :=
  (floorWithin 0 255 (v * Nat.cast 255)).toNat.toUInt8

/-- The color as bytes. -/
def Light.toRgb (light : Light α) : Rgb :=
  ⟨channel light.red, channel light.green, channel light.blue⟩

namespace Shading

/-- The bound on lightness that is used unless another is chosen. -/
def standard [OfScientific α] : Shading α :=
  ⟨OfScientific.ofScientific 68 true 2⟩

/-- A bound brought into the range from zero to one; one that is not finite gives way to the standard one. -/
def clamped [OfScientific α] (lightnessMax : α) : Shading α :=
  if Scalar.isFinite lightnessMax then
    ⟨if lightnessMax < Nat.cast 0 then Nat.cast 0
      else if Nat.cast 1 < lightnessMax then Nat.cast 1
      else lightnessMax⟩
  else standard

variable [Elementary α]

/-- The lightness of a modulus: nothing at zero, half of the bound at one. -/
def lightness (s : Shading α) (modulus : α) : α :=
  (Nat.cast 1 - Elementary.exp2 (-modulus)) * s.lightnessMax

/-- The color of a finite value before it is cut to bytes. -/
def light (s : Shading α) (w : ComplexNumber α) : Light α :=
  .ofHsl (Scalar.remainder (Elementary.pi + w.arg) Light.turn) (Nat.cast 1) (s.lightness w.norm)

/-- The color of a value. -/
def color (s : Shading α) (w : ComplexNumber α) : Rgb :=
  if w.isFinite then (s.light w).toRgb else .undefined

end Shading

end DomainColoring
