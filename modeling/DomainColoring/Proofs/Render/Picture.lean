import DomainColoring.Proofs.Image.Writing
import DomainColoring.Render

/-!
# The picture of a drawing

What a row looks like does not depend on the stack that it is painted with, so each row of a drawing has one painting
(`paintRow_colors`, `paintRow_undefinedPixels`). Put together in any order, the paintings of all rows are one and the same
picture (`Drawing.imageOf_perm`).
-/

namespace DomainColoring

variable {α : Type} [Add α] [Sub α] [Mul α] [Div α] [Neg α] [BEq α] [NatCast α] [Elementary α] [Scalar α] [LT α]
  [DecidableLT α]

/-- The first evaluation clears the stack, so what was found on it is of no account. -/
theorem Plot.paintColumns_cons (p : Plot α) (s : Shading α) (size : Size) (row column : Nat) (columns : List Nat)
    (stack : Stack α) :
    p.paintColumns s size row (column :: columns) stack = p.paintColumns s size row (column :: columns) [] := rfl

/-- The colors of a row do not depend on the stack that it starts from. -/
theorem Plot.paintRow_colors (p : Plot α) (s : Shading α) (size : Size) (row : Nat) (stack : Stack α) :
    (p.paintRow s size row stack).colors = (p.paintRow s size row []).colors := by
  unfold Plot.paintRow
  cases List.range size.width with
  | nil => rfl
  | cons column columns => rw [Plot.paintColumns_cons]

/-- Nor does its count of pixels without a value. -/
theorem Plot.paintRow_undefinedPixels (p : Plot α) (s : Shading α) (size : Size) (row : Nat) (stack : Stack α) :
    (p.paintRow s size row stack).undefinedPixels = (p.paintRow s size row []).undefinedPixels := by
  unfold Plot.paintRow
  cases List.range size.width with
  | nil => rfl
  | cons column columns => rw [Plot.paintColumns_cons]

namespace Drawing

/-- The colors of a row of a drawing. -/
def rowColors (d : Drawing α) (row : Nat) : List Rgb :=
  (d.plot.paintRow d.shading d.size row []).colors

/-- How many pixels of a row stand for no value. -/
def rowUndefined (d : Drawing α) (row : Nat) : Nat :=
  (d.plot.paintRow d.shading d.size row []).undefinedPixels

/-- The image with the given rows painted. -/
def imageOf (d : Drawing α) (rows : List Nat) : Image :=
  rows.foldr (fun row image => image.writeRow row 0 ((d.rowColors row).flatMap Rgb.bytes)) (.black d.size)

/-- How many pixels of the given rows stand for no value. -/
def undefinedOf (d : Drawing α) (rows : List Nat) : Nat :=
  rows.foldr (fun row count => d.rowUndefined row + count) 0

/-- The picture with all rows painted. -/
def picture (d : Drawing α) : Picture :=
  ⟨d.imageOf (List.range d.size.height), d.undefinedOf (List.range d.size.height)⟩

/-- The order in which rows are painted is not to be seen. -/
theorem imageOf_perm (d : Drawing α) {rows rows' : List Nat} (h : rows.Perm rows') : d.imageOf rows = d.imageOf rows' :=
  Image.foldr_writeRow_perm h _ _

/-- The count of pixels without a value does not depend on the order of rows. -/
theorem undefinedOf_perm (d : Drawing α) {rows rows' : List Nat} (h : rows.Perm rows') :
    d.undefinedOf rows = d.undefinedOf rows' := by
  apply h.foldr_eq'
  intro row _ other _ count
  exact Nat.add_left_comm _ _ _

end Drawing

end DomainColoring
