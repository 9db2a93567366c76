import DomainColoring.Proofs.Plot.Accepted
import DomainColoring.Proofs.Scalar.Doubles

/-!
# The order of pixels and points

Whatever rounding is used, as long as it is one and keeps the order, it does not reorder anything on an image: greater columns have real
parts that are not less, greater rows have imaginary parts that are not greater, and the same holds of the cells that points are found in
(`Viewport.order_kept`). Different columns may fall together, and coordinates may be infinite, but none of them is no number.
-/

namespace DomainColoring

section OneRounding

variable {α : Type} [Add α] [Sub α] [Mul α] [Div α] [NatCast α] [Scalar α] [LT α] [LE α] {value? : α → Option EReal}
  {round : EReal → EReal} (h : RoundedOnce value? round)

/-! ## One axis -/

namespace Axis

/-- What becomes of a share of the length, counted in cells, when it is divided among the cells and added to the start. -/
noncomputable def placed (round : EReal → EReal) (start : ℝ) (cells : Nat) (share : EReal) : EReal :=
  round (start + round (round share / (cells : ℝ)))

/-- The distance of a coordinate from the start times the number of cells. -/
noncomputable def stretched (round : EReal → EReal) (start : ℝ) (cells : Nat) (coordinate : ℝ) : EReal :=
  round (round ((coordinate - start : ℝ)) * (cells : ℝ))

variable {a : Axis α} {start length : ℝ} {cells : Nat} (hstart : value? a.start = some start)
  (hlength : value? (a.stop - a.start) = some length) (pos : 0 < cells) (word : cells < 2 ^ 32) {x y : α} {p q : ℝ}
  (hx : value? x = some p) (hy : value? y = some q)

include h

/-- Coordinates keep the order of what is added to the start. -/
theorem monotone_placed : Monotone (placed round start cells) := by
  intro share share' le
  have count : (0 : EReal) ≤ (cells : ℝ) := EReal.coe_nonneg.2 cells.cast_nonneg
  have part : round (round share / (cells : ℝ)) ≤ round (round share' / (cells : ℝ)) :=
    h.monotone (EReal.div_le_div_right_of_nonneg count (h.monotone le))
  exact h.monotone (add_le_add_right part _)

/-- Distances from the start keep the order of coordinates. -/
theorem monotone_stretched : Monotone (stretched round start cells) := by
  intro coordinate coordinate' le
  have count : (0 : EReal) ≤ (cells : ℝ) := EReal.coe_nonneg.2 cells.cast_nonneg
  have distance : round ((coordinate - start : ℝ)) ≤ round ((coordinate' - start : ℝ)) :=
    h.monotone (EReal.coe_le_coe_iff.2 (sub_le_sub_right le _))
  exact h.monotone (mul_le_mul_of_nonneg_right distance count)

include hstart hlength pos word hx

/-- A coordinate is placed by the rounded length up to its position. -/
theorem value?_coordinate :
    value? (a.coordinate cells x) = some (placed round start cells ((length * p : ℝ))) := by
  have nonzero : (cells : ℝ) ≠ 0 := by exact_mod_cast pos.ne'
  have product := h.mul hlength hx fun _ => ⟨length, rfl⟩
  have quotient := h.div product (h.natCast word) nonzero
  rw [← EReal.coe_mul] at quotient
  exact h.add hstart quotient

/-- A position is the rounded quotient of the stretched distance and the length. -/
theorem value?_position (nonzero : length ≠ 0) :
    value? ((x - a.start) * Nat.cast cells / (a.stop - a.start)) = some (round (stretched round start cells p / length)) := by
  have count : (cells : ℝ) ≠ 0 := by exact_mod_cast pos.ne'
  have product := h.mul (h.sub hx hstart) (h.natCast word) fun zero => absurd zero count
  exact h.div product hlength nonzero

include hy

/-- Coordinates grow with the position on an axis that goes up. -/
theorem coordinate_le_of_ascending (up : 0 < length) (le : p ≤ q) : a.coordinate cells x ≤ a.coordinate cells y := by
  have share : length * p ≤ length * q := mul_le_mul_of_nonneg_left le up.le
  rw [h.le_iff (value?_coordinate h hstart hlength pos word hx) (value?_coordinate h hstart hlength pos word hy)]
  exact monotone_placed h (EReal.coe_le_coe_iff.2 share)

/-- They shrink on an axis that goes down. -/
theorem coordinate_le_of_descending (down : length < 0) (le : p ≤ q) : a.coordinate cells y ≤ a.coordinate cells x := by
  have share : length * q ≤ length * p := mul_le_mul_of_nonpos_left le down.le
  rw [h.le_iff (value?_coordinate h hstart hlength pos word hy) (value?_coordinate h hstart hlength pos word hx)]
  exact monotone_placed h (EReal.coe_le_coe_iff.2 share)

variable [DecidableLT α]

/-- On an axis that goes up cells are in the order of coordinates. -/
theorem cell_le_of_ascending (up : 0 < length) (le : p ≤ q) : a.cell cells x ≤ a.cell cells y := by
  have divisor : (0 : EReal) ≤ length := EReal.coe_nonneg.2 up.le
  refine h.floorWithin_le (by decide) (value?_position h hstart hlength pos word hx up.ne')
    (value?_position h hstart hlength pos word hy up.ne') ?_
  exact h.monotone (EReal.div_le_div_right_of_nonneg divisor (monotone_stretched h le))

/-- On an axis that goes down cells are in the opposite order. -/
theorem cell_le_of_descending (down : length < 0) (le : p ≤ q) : a.cell cells y ≤ a.cell cells x := by
  have divisor : (length : EReal) ≤ 0 := EReal.coe_nonpos.2 down.le
  refine h.floorWithin_le (by decide) (value?_position h hstart hlength pos word hy down.ne)
    (value?_position h hstart hlength pos word hx down.ne) ?_
  exact h.monotone (EReal.div_le_div_right_of_nonpos divisor (monotone_stretched h le))

end Axis

/-! ## Columns and rows -/

namespace Viewport

variable [DecidableLE α] {v : Viewport α}

include h

/-- The lengths of a viewport without a fault stand for positive finite numbers. -/
theorem exists_spans (sound : v.fault? = none) :
    ∃ width height : ℝ, value? v.reSpan = some width ∧ value? v.imSpan = some height ∧ 0 < width ∧ 0 < height := by
  obtain ⟨finite, real, imaginary, reSpan, imSpan⟩ := checks_of_fault? sound
  obtain ⟨right, reUpper⟩ := h.isFinite_iff.1 (finite .reUpper)
  obtain ⟨left, reLower⟩ := h.isFinite_iff.1 (finite .reLower)
  obtain ⟨top, imUpper⟩ := h.isFinite_iff.1 (finite .imUpper)
  obtain ⟨bottom, imLower⟩ := h.isFinite_iff.1 (finite .imLower)
  obtain ⟨width, wide⟩ := h.isFinite_iff.1 reSpan
  obtain ⟨height, high⟩ := h.isFinite_iff.1 imSpan
  have positive {x y : α} {p q length : ℝ} (hx : value? x = some p) (hy : value? y = some q) (less : ¬x ≤ y)
      (span : value? (x - y) = some length) : 0 < length := by
    have difference := h.difference_pos hx hy (EReal.coe_lt_coe_iff.1 (not_le.1 (mt (h.le_iff hx hy).2 less)))
    rw [Option.some.inj ((h.sub hx hy).symm.trans span)] at difference
    exact EReal.coe_pos.1 difference
  exact ⟨width, height, wide, high, positive reUpper reLower real wide, positive imUpper imLower imaginary high⟩

/-- The ends and the lengths of both axes of a viewport without a fault stand for finite numbers; columns go up and rows go down. -/
theorem exists_lengths (sound : v.fault? = none) :
    (∃ start length : ℝ, value? v.columns.start = some start ∧ value? (v.columns.stop - v.columns.start) = some length ∧ 0 < length) ∧
      ∃ start length : ℝ, value? v.rows.start = some start ∧ value? (v.rows.stop - v.rows.start) = some length ∧ length < 0 := by
  obtain ⟨finite, -⟩ := checks_of_fault? sound
  obtain ⟨left, reLower⟩ := h.isFinite_iff.1 (finite .reLower)
  obtain ⟨top, imUpper⟩ := h.isFinite_iff.1 (finite .imUpper)
  obtain ⟨bottom, imLower⟩ := h.isFinite_iff.1 (finite .imLower)
  obtain ⟨width, height, wide, high, up, positive⟩ := exists_spans h sound
  refine ⟨⟨left, width, reLower, wide, up⟩, top, -height, imUpper, ?_, neg_lt_zero.2 positive⟩
  -- The rows are counted from the upper bound, so their length is the other difference.
  have rounded := Option.some.inj ((h.sub imUpper imLower).symm.trans high)
  have turned := h.sub imLower imUpper
  rwa [← neg_sub, EReal.coe_neg, h.odd, rounded, ← EReal.coe_neg] at turned

/-- A viewport without a fault, an image of at least one pixel, and numbers that are computed with under one rounding, which keeps the
order and the signs and loses no difference of different numbers. Then, for finite positions and finite points:
1. no coordinate is no number;
2. of two columns the greater has no lesser real part, and of two rows the greater has no greater imaginary part;
3. of two real parts the greater is in no lesser column, and of two imaginary parts the greater is in no greater row, also where the
   numbers of columns and rows are at the bounds of 64 bits. -/
theorem order_kept [DecidableLT α] (sound : v.fault? = none) {size : Size} (wide : 0 < size.width) (high : 0 < size.height)
    (width : size.width < 2 ^ 32) (height : size.height < 2 ^ 32) :
    (∀ x, Scalar.isFinite x = true →
      (value? (v.columns.coordinate size.width x)).isSome ∧ (value? (v.rows.coordinate size.height x)).isSome) ∧
    ∀ x y, Scalar.isFinite x = true → Scalar.isFinite y = true → x ≤ y →
      (v.columns.coordinate size.width x ≤ v.columns.coordinate size.width y ∧
        v.rows.coordinate size.height y ≤ v.rows.coordinate size.height x) ∧
      v.columns.cell size.width x ≤ v.columns.cell size.width y ∧ v.rows.cell size.height y ≤ v.rows.cell size.height x := by
  obtain ⟨⟨left, length, hleft, hlength, up⟩, ⟨top, length', htop, hlength', down⟩⟩ := exists_lengths h sound
  constructor
  · intro x finite
    obtain ⟨p, hx⟩ := h.isFinite_iff.1 finite
    rw [Axis.value?_coordinate h hleft hlength wide width hx, Axis.value?_coordinate h htop hlength' high height hx]
    exact ⟨rfl, rfl⟩
  · intro x y finite finite' le
    obtain ⟨p, hx⟩ := h.isFinite_iff.1 finite
    obtain ⟨q, hy⟩ := h.isFinite_iff.1 finite'
    have le := EReal.coe_le_coe_iff.1 ((h.le_iff hx hy).1 le)
    refine ⟨⟨?_, ?_⟩, ?_, ?_⟩
    · exact Axis.coordinate_le_of_ascending h hleft hlength wide width hx hy up le
    · exact Axis.coordinate_le_of_descending h htop hlength' high height hx hy down le
    · exact Axis.cell_le_of_ascending h hleft hlength wide width hx hy up le
    · exact Axis.cell_le_of_descending h htop hlength' high height hx hy down le

end Viewport

end OneRounding

namespace Viewport

/-- Doubles on a viewport from `0` to `2 ^ 1023`: the second of two columns has an infinite real part, and two points far below and far
above are found in the last and the first row that have numbers. -/
theorem far_points_in_order :
    let v : Viewport Float := ⟨Float.ofBits 0x7fe0000000000000, 0, 1, 0⟩
    let size : Size := ⟨4, 1⟩
    let far : Float := Float.ofBits 0x7fe0000000000000
    RoundedOnce (fun x : Float => Binary64.reading? x.toModel.unpack) Binary64.rounding ∧ v.fault? = none ∧
      (0 < size.width ∧ 0 < size.height ∧ size.width < 2 ^ 32 ∧ size.height < 2 ^ 32) ∧
      (v.columns.coordinate size.width 1 ≤ v.columns.coordinate size.width 2 ∧
        (v.columns.coordinate size.width 1).isFinite = true ∧ (v.columns.coordinate size.width 2).isFinite = false) ∧
      v.rows.cell size.height far ≤ v.rows.cell size.height (-far) ∧
        v.rows.cell size.height far = -9223372036854775808 ∧ v.rows.cell size.height (-far) = 9223372036854775807 := by
  intro v size far
  have sound : v.fault? = none := by decide +kernel
  have wide : 0 < size.width := by decide
  obtain ⟨-, order⟩ := order_kept roundedOnce_float sound wide (by decide) (by decide) (by decide)
  obtain ⟨⟨columns, -⟩, -⟩ := order 1 2 (by decide +kernel) (by decide +kernel) (by decide +kernel)
  obtain ⟨-, -, rows⟩ := order (-far) far (by decide +kernel) (by decide +kernel) (by decide +kernel)
  exact ⟨roundedOnce_float, sound, by decide, ⟨columns, by decide +kernel, by decide +kernel⟩, rows, by decide +kernel,
    by decide +kernel⟩

end Viewport

end DomainColoring
