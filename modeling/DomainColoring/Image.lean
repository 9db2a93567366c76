import DomainColoring.Color

/-!
# Images

Images by their bytes, and the sizes that they may have.
-/

namespace DomainColoring

/-!
## Image sizes

Width and height in pixels, and the bounds within which an image is made.
-/

/-- Width and height in pixels. -/
structure Size where
  width : Nat
  height : Nat
  deriving DecidableEq, Repr

namespace Size

/-- The longest side of an image. -/
def maxSide : Nat := 16384

/-- The largest area of an image: that of a square of half the longest side. -/
def maxArea : Nat := 67108864

/-- Neither empty nor too large. -/
def Accepted (s : Size) : Prop :=
  0 < s.width ∧ 0 < s.height ∧ s.width ≤ maxSide ∧ s.height ≤ maxSide ∧ s.width * s.height ≤ maxArea

instance (s : Size) : Decidable s.Accepted :=
  inferInstanceAs (Decidable (_ ∧ _))

/-- The size as a person writes it. -/
def text (s : Size) : String :=
  toString s.width ++ "x" ++ toString s.height

/-- A size that is not accepted. -/
structure Refusal where
  size : Size
  deriving DecidableEq, Repr

/-- The refusal in words. -/
def Refusal.message (r : Refusal) : String :=
  "invalid image dimensions: " ++ toString r.size.width ++ "×" ++ toString r.size.height

end Size

/-!
## Rectangles of bytes

A rectangle of opaque or other pixels in rows from the top, four bytes to a pixel: red, green, blue and opacity.
-/

/-- An image by its bytes. One that the library makes has four of them for each pixel of its size. -/
structure Image where
  size : Size
  bytes : Array UInt8
  deriving DecidableEq, Repr

/-- Writes a row of bytes over others, from a position on; what reaches beyond the end is dropped. -/
def overwrite (bytes : Array UInt8) (position : Nat) : List UInt8 → Array UInt8
  | [] => bytes
  | b :: rest => overwrite (bytes.setIfInBounds position b) (position + 1) rest

namespace Image

/-- An opaque black image. -/
def black (size : Size) : Image :=
  ⟨size, Array.ofFn (n := size.width * size.height * 4) fun i => if i.val % 4 = 3 then 255 else 0⟩

/-- The length of a row in bytes. -/
def stride (image : Image) : Nat :=
  image.size.width * 4

/-- Whether a pixel is on the image. -/
def Holds (image : Image) (column row : Nat) : Prop :=
  column < image.size.width ∧ row < image.size.height

instance (image : Image) (column row : Nat) : Decidable (image.Holds column row) :=
  inferInstanceAs (Decidable (_ ∧ _))

/-- The place of the first byte of a pixel. -/
def position (image : Image) (column row : Nat) : Nat :=
  row * image.stride + column * 4

/-- The color of a pixel on the image. -/
def pixel? (image : Image) (column row : Nat) : Option Rgb :=
  if image.Holds column row then
    let start := image.position column row
    match image.bytes[start]?, image.bytes[start + 1]?, image.bytes[start + 2]? with
    | some r, some g, some b => some ⟨r, g, b⟩
    | _, _, _ => none
  else none

/-- Gives a pixel on the image an opaque color; beyond the image nothing happens. -/
def put (image : Image) (column row : Nat) (color : Rgb) : Image :=
  if image.Holds column row then
    { image with bytes := overwrite image.bytes (image.position column row) color.bytes }
  else image

/-- Whether the bytes of a row are all there. -/
def HasRow (image : Image) (row : Nat) : Prop :=
  row * image.stride + image.stride ≤ image.bytes.size

instance (image : Image) (row : Nat) : Decidable (image.HasRow row) :=
  inferInstanceAs (Decidable (_ ≤ _))

/-- The bytes of a row. -/
def row (image : Image) (row : Nat) : List UInt8 :=
  (image.bytes.extract (row * image.stride) (row * image.stride + image.stride)).toList

/-- All rows of the image, from the top. -/
def rows (image : Image) : List (List UInt8) :=
  (List.range image.size.height).map image.row

/-- Writes bytes into a row, from an offset on, if they fit between there and its end. -/
def writeRow (image : Image) (row offset : Nat) (bytes : List UInt8) : Image :=
  if image.HasRow row ∧ offset + bytes.length ≤ image.stride then
    { image with bytes := overwrite image.bytes (row * image.stride + offset) bytes }
  else image

/-- The colors of a row of pixels. -/
def colorsOf : List UInt8 → List Rgb
  | r :: g :: b :: _ :: rest => ⟨r, g, b⟩ :: colorsOf rest
  | _ => []

/-- The colors of all pixels, row by row. -/
def colors (image : Image) : List Rgb :=
  colorsOf image.bytes.toList

end Image

end DomainColoring
