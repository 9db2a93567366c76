import DomainColoring.Plot
import DomainColoring.Proofs.Scalar.Reals

/-!
# Cells of an image

As long as nothing is rounded, the coordinate at a position of an axis and the position of a coordinate are inverse to each other
(`Axis.positionOf_coordinateAt`, `Axis.coordinateAt_positionOf`). A viewport is thus cut into cells, each the image of the square of a
pixel, and the marker of a point is the number of its cell (`Viewport.marker_numbers_cell`). A cell has the edges of its square: the
left one, and the upper one since rows are counted downwards.
-/

namespace DomainColoring

variable {K α : Type} [FloorField K] [Add α] [Sub α] [Mul α] [Div α] [Neg α] [NatCast α] [Scalar α] [LT α]

/-! ## One axis -/

namespace Axis

/-- The axis in other numbers. -/
def map (a : Axis K) (number : K → α) : Axis α :=
  ⟨number a.start, number a.stop⟩

/-- The coordinate at a position, not rounded. -/
def coordinateAt (a : Axis K) (cells : Nat) (position : K) : K :=
  a.start + (a.stop - a.start) * position / cells

/-- The position of a coordinate, not rounded. -/
def positionOf (a : Axis K) (cells : Nat) (coordinate : K) : K :=
  (coordinate - a.start) * cells / (a.stop - a.start)

/-- The numbers of cells that fit in 64 bits. -/
def Numbered (cell : Int) : Prop :=
  -9223372036854775808 ≤ cell ∧ cell ≤ 9223372036854775807

instance (cell : Int) : Decidable (Numbered cell) :=
  inferInstanceAs (Decidable (_ ∧ _))

section Exact

variable {number : K → α} {cells : Nat} (exact : Exact number) (a : Axis K)

include exact

/-- The coordinate that is computed at a position is the exact one. -/
theorem coordinate_map (pos : 0 < cells) (position : K) :
    (a.map number).coordinate cells (number position) = number (a.coordinateAt cells position) := by
  have nonzero : (cells : K) ≠ 0 := by exact_mod_cast pos.ne'
  rw [coordinate, map, exact.natCast, exact.sub, exact.mul, exact.div _ nonzero, exact.add, coordinateAt]

variable [DecidableLT α]

/-- The cell that is computed is that of the position, kept within 64 bits. -/
theorem cell_map (apart : a.start ≠ a.stop) (y : K) : (a.map number).cell cells (number y) =
    max (-9223372036854775808) (min ⌊a.positionOf cells y⌋ 9223372036854775807) := by
  have nonzero : a.stop - a.start ≠ 0 := sub_ne_zero.2 apart.symm
  rw [cell, map, exact.natCast, exact.sub, exact.mul, exact.sub, exact.div _ nonzero, exact.floorWithin_eq, positionOf]

/-- A cell that can be numbered has its own number. -/
theorem cell_of_numbered (apart : a.start ≠ a.stop) {y : K} (numbered : Numbered ⌊a.positionOf cells y⌋) :
    (a.map number).cell cells (number y) = ⌊a.positionOf cells y⌋ := by
  obtain ⟨least, greatest⟩ := numbered
  rw [cell_map exact a apart]
  omega

/-- The bounds on numbers leave it as it is which cells are among the first ones. -/
theorem cell_between (apart : a.start ≠ a.stop) (few : cells < 2 ^ 63) (y : K) :
    (0 ≤ (a.map number).cell cells (number y) ∧ (a.map number).cell cells (number y) < cells) ↔
      0 ≤ ⌊a.positionOf cells y⌋ ∧ ⌊a.positionOf cells y⌋ < cells := by
  rw [cell_map exact a apart]
  omega

end Exact

variable {cells : Nat} {a : Axis K}

/-- A position is found again from its coordinate. -/
theorem positionOf_coordinateAt (apart : a.start ≠ a.stop) (pos : 0 < cells) (position : K) :
    a.positionOf cells (a.coordinateAt cells position) = position := by
  have count : (cells : K) ≠ 0 := by exact_mod_cast pos.ne'
  have span : a.stop - a.start ≠ 0 := sub_ne_zero.2 apart.symm
  rw [positionOf, coordinateAt, add_sub_cancel_left, div_mul_cancel₀ _ count, mul_div_cancel_left₀ _ span]

/-- A coordinate is found again from its position. -/
theorem coordinateAt_positionOf (apart : a.start ≠ a.stop) (pos : 0 < cells) (coordinate : K) :
    a.coordinateAt cells (a.positionOf cells coordinate) = coordinate := by
  have count : (cells : K) ≠ 0 := by exact_mod_cast pos.ne'
  have span : a.stop - a.start ≠ 0 := sub_ne_zero.2 apart.symm
  rw [coordinateAt, positionOf, mul_div_cancel₀ _ span, mul_div_cancel_right₀ _ count, add_sub_cancel]

theorem floor_between {x : K} : (0 ≤ ⌊x⌋ ∧ ⌊x⌋ < cells) ↔ 0 ≤ x ∧ x < cells := by
  rw [Int.floor_nonneg, Int.floor_lt, Int.cast_natCast]

/-- On an axis that goes up, the cells cover what is not below the start and below the stop. -/
theorem floor_positionOf_ascending (up : a.start < a.stop) (pos : 0 < cells) (y : K) :
    (0 ≤ ⌊a.positionOf cells y⌋ ∧ ⌊a.positionOf cells y⌋ < cells) ↔ a.start ≤ y ∧ y < a.stop := by
  have count : (0 : K) < cells := by exact_mod_cast pos
  have span : 0 < a.stop - a.start := sub_pos.2 up
  rw [floor_between, positionOf, le_div_iff₀ span, zero_mul, mul_nonneg_iff_of_pos_right count, div_lt_iff₀ span, mul_comm,
    mul_lt_mul_iff_right₀ count, sub_nonneg, sub_lt_sub_iff_right]

/-- On an axis that goes down, they cover what is not above the start and above the stop. -/
theorem floor_positionOf_descending (down : a.stop < a.start) (pos : 0 < cells) (y : K) :
    (0 ≤ ⌊a.positionOf cells y⌋ ∧ ⌊a.positionOf cells y⌋ < cells) ↔ a.stop < y ∧ y ≤ a.start := by
  have count : (0 : K) < cells := by exact_mod_cast pos
  have span : a.stop - a.start < 0 := sub_neg.2 down
  have first : (y - a.start) * cells ≤ 0 ↔ y ≤ a.start := by
    rw [← zero_mul (cells : K), mul_le_mul_iff_left₀ count, sub_nonpos]
  rw [floor_between, positionOf, le_div_iff_of_neg span, zero_mul, first, div_lt_iff_of_neg span, mul_comm (cells : K),
    mul_lt_mul_iff_left₀ count, sub_lt_sub_iff_right]
  exact and_comm

end Axis

/-! ## Columns and rows -/

/-- The markers that fit in twice 64 bits. -/
def Marker.Numbered (m : Marker) : Prop :=
  Axis.Numbered m.column ∧ Axis.Numbered m.row

namespace Viewport

/-- The viewport in other numbers. -/
def map (v : Viewport K) (number : K → α) : Viewport α :=
  ⟨number v.reUpper, number v.reLower, number v.imUpper, number v.imLower⟩

/-- The point lies in the cell of a marker: it is the image of a position in the square of that pixel. -/
def InCell (v : Viewport α) (number : K → α) (size : Size) (m : Marker) (z : ComplexNumber α) : Prop :=
  ∃ column row : K, (m.column ≤ column ∧ column < m.column + 1) ∧ (m.row ≤ row ∧ row < m.row + 1) ∧
    z = v.pointAt size (number column) (number row)

/-- The marker of the cell of a point, not bounded. -/
def cellOf (v : Viewport K) (size : Size) (x y : K) : Marker :=
  ⟨⌊v.columns.positionOf size.width x⌋, ⌊v.rows.positionOf size.height y⌋⟩

variable {number : K → α} {v : Viewport K} {size : Size}

/-- A point lies in the cell in which its position does. -/
theorem cellOf_coordinateAt (real : v.reLower < v.reUpper) (imaginary : v.imLower < v.imUpper) (wide : 0 < size.width)
    (high : 0 < size.height) (column row : K) :
    v.cellOf size (v.columns.coordinateAt size.width column) (v.rows.coordinateAt size.height row) = ⟨⌊column⌋, ⌊row⌋⟩ := by
  rw [cellOf, Axis.positionOf_coordinateAt real.ne wide, Axis.positionOf_coordinateAt imaginary.ne' high]

section Exact

variable (exact : Exact number)

include exact

/-- The point that is computed at a position is the exact one. -/
theorem pointAt_map (wide : 0 < size.width) (high : 0 < size.height) (column row : K) :
    (v.map number).pointAt size (number column) (number row) =
      ⟨number (v.columns.coordinateAt size.width column), number (v.rows.coordinateAt size.height row)⟩ :=
  congrArg₂ ComplexNumber.mk (v.columns.coordinate_map exact wide column) (v.rows.coordinate_map exact high row)

/-- The marker of a point has the cells of its two parts. -/
theorem markerOf?_map [DecidableLT α] (x y : K) : (v.map number).markerOf? size ⟨number x, number y⟩ =
    some ⟨(v.columns.map number).cell size.width (number x), (v.rows.map number).cell size.height (number y)⟩ := by
  rw [markerOf?, ComplexNumber.isFinite, exact.isFinite, exact.isFinite]
  rfl

variable (real : v.reLower < v.reUpper) (imaginary : v.imLower < v.imUpper)

include real imaginary

/-- A marker that fits in 64 bits is the exact one. -/
theorem markerOf?_of_numbered [DecidableLT α] {x y : K} (numbered : (v.cellOf size x y).Numbered) :
    (v.map number).markerOf? size ⟨number x, number y⟩ = some (v.cellOf size x y) := by
  rw [markerOf?_map exact, v.columns.cell_of_numbered exact real.ne numbered.1,
    v.rows.cell_of_numbered exact imaginary.ne' numbered.2, cellOf]

variable (wide : 0 < size.width) (high : 0 < size.height)

include wide high

/-- Each point lies in one cell. -/
theorem inCell_iff {x y : K} {m : Marker} :
    (v.map number).InCell number size m ⟨number x, number y⟩ ↔ m = v.cellOf size x y := by
  constructor
  · rintro ⟨column, row, inColumn, inRow, point⟩
    rw [pointAt_map exact wide high, ComplexNumber.mk.injEq] at point
    rw [exact.injective point.1, exact.injective point.2, cellOf_coordinateAt real imaginary wide high,
      Int.floor_eq_iff.2 inColumn, Int.floor_eq_iff.2 inRow]
  · rintro rfl
    refine ⟨v.columns.positionOf size.width x, v.rows.positionOf size.height y, ?_, ?_, ?_⟩
    · exact ⟨Int.floor_le _, Int.lt_floor_add_one _⟩
    · exact ⟨Int.floor_le _, Int.lt_floor_add_one _⟩
    · rw [pointAt_map exact wide high, Axis.coordinateAt_positionOf real.ne wide, Axis.coordinateAt_positionOf imaginary.ne' high]

/-- The points of a cell are computed with exactly. -/
theorem InCell.exists_eq {m : Marker} {z : ComplexNumber α} (h : (v.map number).InCell number size m z) :
    ∃ x y, z = ⟨number x, number y⟩ ∧ v.cellOf size x y = m := by
  obtain ⟨column, row, -, -, point⟩ := id h
  rw [pointAt_map exact wide high] at point
  rw [point] at h
  exact ⟨_, _, point, ((inCell_iff exact real imaginary wide high).1 h).symm⟩

/-- A point in the cell of a marker has this marker. -/
theorem marker_of_inCell [DecidableLT α] {m : Marker} {z : ComplexNumber α}
    (h : (v.map number).InCell number size m z) (numbered : m.Numbered) : (v.map number).markerOf? size z = some m := by
  obtain ⟨x, y, rfl, rfl⟩ := h.exists_eq exact real imaginary wide high
  exact markerOf?_of_numbered exact real imaginary numbered

/-- The markers on an image are those of the points of the viewport, with its left and its upper edge and without the others. -/
theorem marker_on_image [DecidableLT α] (width : size.width < 2 ^ 63) (height : size.height < 2 ^ 63) (x y : K) :
    (∃ m, (v.map number).markerOf? size ⟨number x, number y⟩ = some m ∧
        (0 ≤ m.column ∧ m.column < size.width) ∧ (0 ≤ m.row ∧ m.row < size.height)) ↔
      (v.reLower ≤ x ∧ x < v.reUpper) ∧ (v.imLower < y ∧ y ≤ v.imUpper) := by
  have columns := (v.columns.cell_between exact real.ne width x).trans (Axis.floor_positionOf_ascending real wide x)
  have rows := (v.rows.cell_between exact imaginary.ne' height y).trans (Axis.floor_positionOf_descending imaginary high y)
  rw [markerOf?_map exact]
  constructor
  · rintro ⟨m, ⟨⟩, column, row⟩
    exact ⟨columns.1 column, rows.1 row⟩
  · rintro ⟨column, row⟩
    exact ⟨_, rfl, columns.2 column, rows.2 row⟩

end Exact

/-- As long as nothing is rounded, the marker of a point is the number of its cell:
1. each point lies in exactly one cell;
2. the marker of the point at a position is the position with both numbers cut to integers downwards;
3. the marker of a point is on the image exactly if the point is in the viewport, where its left and its upper edge count as inside
   and the others do not;
4. points have the same marker exactly if they lie in the same cell;
5. the readout at a pixel has that pixel for its input marker.
Markers are kept within 64 bits, and 2, 4 and 5 are about those that need not be. -/
theorem marker_numbers_cell [DecidableLT α] [BEq α] [Elementary α] (exact : Exact number)
    (real : v.reLower < v.reUpper) (imaginary : v.imLower < v.imUpper) (wide : 0 < size.width) (high : 0 < size.height)
    (width : size.width < 2 ^ 63) (height : size.height < 2 ^ 63) :
    (∀ x y, ∃! m, (v.map number).InCell number size m ⟨number x, number y⟩) ∧
      (∀ column row, Axis.Numbered ⌊column⌋ → Axis.Numbered ⌊row⌋ →
        (v.map number).markerOf? size ((v.map number).pointAt size (number column) (number row)) = some ⟨⌊column⌋, ⌊row⌋⟩) ∧
      (∀ x y, (∃ m, (v.map number).markerOf? size ⟨number x, number y⟩ = some m ∧
          (0 ≤ m.column ∧ m.column < size.width) ∧ (0 ≤ m.row ∧ m.row < size.height)) ↔
        (v.reLower ≤ x ∧ x < v.reUpper) ∧ (v.imLower < y ∧ y ≤ v.imUpper)) ∧
      (∀ m m' z z', (v.map number).InCell number size m z → m.Numbered → (v.map number).InCell number size m' z' → m'.Numbered →
        ((v.map number).markerOf? size z = (v.map number).markerOf? size z' ↔
          ∃ shared, (v.map number).InCell number size shared z ∧ (v.map number).InCell number size shared z')) ∧
      ∀ (p : Plot α) (pixel : Marker), p.viewport = v.map number → pixel.Numbered →
        ∃ r, p.readoutAt size (number pixel.column) (number pixel.row) = .ok r ∧ r.inputMarker = some pixel := by
  have cells {x y : K} {m : Marker} : (v.map number).InCell number size m ⟨number x, number y⟩ ↔ m = v.cellOf size x y :=
    inCell_iff exact real imaginary wide high
  have atPosition (column row : K) (numbered : Axis.Numbered ⌊column⌋) (numbered' : Axis.Numbered ⌊row⌋) :
      (v.map number).markerOf? size ((v.map number).pointAt size (number column) (number row)) = some ⟨⌊column⌋, ⌊row⌋⟩ := by
    have cell := cellOf_coordinateAt real imaginary wide high column row
    rw [pointAt_map exact wide high, markerOf?_of_numbered exact real imaginary (cell ▸ ⟨numbered, numbered'⟩), cell]
  refine ⟨fun x y => ?_, atPosition, marker_on_image exact real imaginary wide high width height, ?_, ?_⟩
  · exact ⟨v.cellOf size x y, cells.2 rfl, fun m inside => cells.1 inside⟩
  · intro m m' z z' inside numbered inside' numbered'
    rw [marker_of_inCell exact real imaginary wide high inside numbered,
      marker_of_inCell exact real imaginary wide high inside' numbered', Option.some.injEq]
    constructor
    · rintro rfl
      exact ⟨m, inside, inside'⟩
    · rintro ⟨shared, first, second⟩
      obtain ⟨x, y, rfl, rfl⟩ := inside.exists_eq exact real imaginary wide high
      obtain ⟨x', y', rfl, rfl⟩ := inside'.exists_eq exact real imaginary wide high
      rw [← cells.1 first, cells.1 second]
  · intro p pixel viewport numbered
    have marker := atPosition pixel.column pixel.row
    rw [Int.floor_intCast, Int.floor_intCast] at marker
    refine ⟨_, if_neg (by omega), ?_⟩
    change p.viewport.markerOf? size (p.viewport.pointAt size _ _) = _
    rw [viewport]
    exact marker numbered.1 numbered.2

/-- A position within a pixel of the last row, and the two left corners of a viewport. -/
theorem last_row_marked :
    let v : Viewport ℚ := ⟨3, -1, 2, 0⟩
    let size : Size := ⟨400, 200⟩
    let shown : Viewport ℝ := v.map Rat.cast
    Exact (Rat.cast : ℚ → ℝ) ∧ v.reLower < v.reUpper ∧ v.imLower < v.imUpper ∧ 0 < size.width ∧ 0 < size.height ∧
      size.width < 2 ^ 63 ∧ size.height < 2 ^ 63 ∧
      shown.markerOf? size (shown.pointAt size ((35 / 2 : ℚ) : ℝ) ((797 / 4 : ℚ) : ℝ)) = some ⟨17, 199⟩ ∧
      (∃ m, shown.markerOf? size ⟨((-1 : ℚ) : ℝ), ((2 : ℚ) : ℝ)⟩ = some m ∧ (0 ≤ m.column ∧ m.column < size.width) ∧
        (0 ≤ m.row ∧ m.row < size.height)) ∧
      ¬∃ m, shown.markerOf? size ⟨((-1 : ℚ) : ℝ), ((0 : ℚ) : ℝ)⟩ = some m ∧ (0 ≤ m.column ∧ m.column < size.width) ∧
        (0 ≤ m.row ∧ m.row < size.height) := by
  intro v size shown
  have real : v.reLower < v.reUpper := by decide +kernel
  have imaginary : v.imLower < v.imUpper := by decide +kernel
  have wide : 0 < size.width := by decide
  have high : 0 < size.height := by decide
  obtain ⟨-, positions, image, -⟩ := marker_numbers_cell exact_rat real imaginary wide high (by decide) (by decide)
  refine ⟨exact_rat, real, imaginary, wide, high, by decide, by decide, ?_, ?_, ?_⟩
  · have column : ⌊(35 / 2 : ℚ)⌋ = 17 := by decide +kernel
    have row : ⌊(797 / 4 : ℚ)⌋ = 199 := by decide +kernel
    have marker := positions (35 / 2) (797 / 4)
    rw [column, row] at marker
    exact marker (by decide) (by decide)
  · exact (image (-1) 2).2 (by decide +kernel)
  · intro on
    exact absurd ((image (-1) 0).1 on) (by decide +kernel)

end Viewport

end DomainColoring
