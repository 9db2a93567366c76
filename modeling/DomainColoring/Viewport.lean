import DomainColoring.Scalar
import DomainColoring.ComplexNumber
import DomainColoring.Decimal
import DomainColoring.Image

/-!
# Viewports

The part of the plane that an image shows. Each of its two directions is an axis, laid over columns or rows.
-/

namespace DomainColoring

/-!
## Axes

One direction of an image laid over a piece of a line. Position `0` is at the start, position `n` at the stop of an axis that is
`n` cells long; a cell includes the end that is nearer to the start.
-/

/-- The coordinates at the two ends; the start may be the greater. -/
structure Axis (α : Type) where
  start : α
  stop : α
  deriving DecidableEq, Repr

namespace Axis

variable {α : Type} [Add α] [Sub α] [Mul α] [Div α] [NatCast α] [Scalar α] [LT α] [DecidableLT α]

/-- The coordinate at a position, on an axis of `cells` cells. -/
def coordinate (a : Axis α) (cells : Nat) (position : α) : α :=
  a.start + (a.stop - a.start) * position / Nat.cast cells

/-- The cell that holds a coordinate, on an axis of `cells` cells; it may lie outside of it. The number is kept within 64 bits. -/
def cell (a : Axis α) (cells : Nat) (coordinate : α) : Int :=
  floorWithin (-9223372036854775808) 9223372036854775807 ((coordinate - a.start) * Nat.cast cells / (a.stop - a.start))

end Axis

/-!
## Rectangles of the plane

A rectangle of the plane with sides along the axes, laid over an image. The first column is at the lower real bound and the first
row at the upper imaginary bound, so rows are counted downwards.
-/

/-- One of the four bounds of a rectangle. -/
inductive Side where
  | reUpper
  | reLower
  | imUpper
  | imLower
  deriving DecidableEq, Repr

/-- The name of a bound in messages and files. -/
def Side.name : Side → String
  | reUpper => "re_upper"
  | reLower => "re_lower"
  | imUpper => "im_upper"
  | imLower => "im_lower"

/-- Why four bounds are no viewport. -/
inductive ViewportFault (α : Type) where
  | notFinite (side : Side) (value : α)
  | realOrder (upper lower : α)
  | imaginaryOrder (upper lower : α)
  /-- A difference of bounds that is no finite number. -/
  | tooFarApart
  deriving DecidableEq, Repr

/-- The fault in words. -/
def ViewportFault.message : ViewportFault Float → String
  | notFinite side value => "invalid viewport: " ++ side.name ++ " must be finite, got " ++ Decimal.shortestText value
  | realOrder upper lower =>
    "invalid viewport: real upper bound " ++ Decimal.shortestText upper ++ " must exceed lower bound " ++
      Decimal.shortestText lower
  | imaginaryOrder upper lower =>
    "invalid viewport: imaginary upper bound " ++ Decimal.shortestText upper ++ " must exceed lower bound " ++
      Decimal.shortestText lower
  | tooFarApart => "invalid viewport: bounds are too far apart to represent"

/-- A rectangle of the plane by its bounds. -/
structure Viewport (α : Type) where
  reUpper : α
  reLower : α
  imUpper : α
  imLower : α
  deriving DecidableEq, Repr

/-- The place of a point on an image: column and row, which may lie outside. -/
structure Marker where
  column : Int
  row : Int
  deriving DecidableEq, Repr

namespace Viewport

variable {α : Type} [Add α] [Sub α] [Mul α] [Div α] [Neg α] [NatCast α] [Scalar α] [LT α] [DecidableLT α] [LE α] [DecidableLE α]

/-- One bound. -/
def bound (v : Viewport α) : Side → α
  | .reUpper => v.reUpper
  | .reLower => v.reLower
  | .imUpper => v.imUpper
  | .imLower => v.imLower

/-- The length along the real axis. -/
def reSpan (v : Viewport α) : α :=
  v.reUpper - v.reLower

/-- The length along the imaginary axis. -/
def imSpan (v : Viewport α) : α :=
  v.imUpper - v.imLower

/-- The first of the given bounds that is not finite. -/
def notFinite? (v : Viewport α) (sides : List Side) : Option (ViewportFault α) :=
  (sides.find? fun side => !Scalar.isFinite (v.bound side)).map fun side => .notFinite side (v.bound side)

/-- The fault of four bounds, if there is one: bounds that are not finite come first, then the order of the bounds on either axis,
then the lengths. -/
def fault? (v : Viewport α) : Option (ViewportFault α) :=
  match v.notFinite? [.reUpper, .reLower, .imUpper, .imLower] with
  | some fault => some fault
  | none =>
    if v.reUpper ≤ v.reLower then some (.realOrder v.reUpper v.reLower)
    else if v.imUpper ≤ v.imLower then some (.imaginaryOrder v.imUpper v.imLower)
    else if !Scalar.isFinite v.reSpan || !Scalar.isFinite v.imSpan then some .tooFarApart
    else none

/-- The viewport itself, if it is one. -/
def checked (v : Viewport α) : Except (ViewportFault α) (Viewport α) :=
  match v.fault? with
  | some fault => .error fault
  | none => .ok v

/-- The square around the origin that reaches `extent` to each side. -/
def centered (extent : α) : Viewport α :=
  ⟨extent, -extent, extent, -extent⟩

/-- The viewport that is shown before another is chosen. -/
def standard : Viewport α :=
  centered (Nat.cast 15)

/-- Width over height. -/
def aspectRatio (v : Viewport α) : α :=
  v.reSpan / v.imSpan

/-- The width of an image of the given height that keeps the shape of the viewport, within the bounds of a side. A product that is
not finite makes the widest image. -/
def exportWidth (v : Viewport α) (height : Nat) : Nat :=
  match Scalar.floor? (Nat.cast height * v.aspectRatio) with
  | some width => (max 1 (min width Size.maxSide)).toNat
  | none => Size.maxSide

/-- The axis along which columns are counted. -/
def columns (v : Viewport α) : Axis α :=
  ⟨v.reLower, v.reUpper⟩

/-- The axis along which rows are counted. -/
def rows (v : Viewport α) : Axis α :=
  ⟨v.imUpper, v.imLower⟩

/-- The point at a position of an image, which need not be a whole column or row. -/
def pointAt (v : Viewport α) (size : Size) (column row : α) : ComplexNumber α :=
  ⟨v.columns.coordinate size.width column, v.rows.coordinate size.height row⟩

/-- The pixel that holds a finite point. -/
def markerOf? (v : Viewport α) (size : Size) (z : ComplexNumber α) : Option Marker :=
  if z.isFinite then some ⟨v.columns.cell size.width z.re, v.rows.cell size.height z.im⟩ else none

end Viewport

end DomainColoring
