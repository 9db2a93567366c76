import DomainColoring.Proofs.Plot.Accepted
import DomainColoring.Proofs.Scalar.Arithmetic

/-!
# Points of an image

The point of a pixel lies in the viewport, however the bounds are chosen and however the coordinates are rounded, unless the length of a
side times the number of the column or row is beyond the doubles (`Viewport.pointAt_inside`). Then the coordinate is not finite: the
product is computed before it is divided by the number of columns or rows.
-/

namespace DomainColoring

open Float.Model Float.Model.UnpackedFloat

namespace Binary64

/-! ## A part of a length -/

/-- Between whole numbers of at most 67 bits that are far enough apart there is one with at most 53 bits before its last zeros. -/
theorem exists_few_between {low high : Nat} (fits : high ≤ 2 * leadingBit * 2 ^ 14)
    (room : low + 2 ^ 14 ≤ high ∨ low ≤ high ∧ high ≤ 2 * leadingBit) :
    ∃ n j : Nat, n ≤ 2 * leadingBit ∧ low ≤ n * 2 ^ j ∧ n * 2 ^ j ≤ high := by
  have leading : leadingBit = 4503599627370496 := rfl
  rcases room with far | ⟨order, few⟩
  · exact ⟨high / 2 ^ 14, 14, by omega, by omega, by omega⟩
  · exact ⟨high, 0, few, by omega, by omega⟩

section Share

variable {d s p q : Rat} {cells position : Nat}

/-- A length that is rounded up has 53 bits, and one unit of its last place less it is not too great. -/
theorem size_pred_le (whole : ∃ k : Int, d = k * 2 ^ (-1074 : Int)) {n : Nat} {e : Int} (h : NearestSize d n e) (up : d < size n e) :
    leadingBit ≤ n ∧ size (n - 1) e ≤ d := by
  have leading : leadingBit = 4503599627370496 := rfl
  have full : leadingBit ≤ n := by
    rcases h.full with rfl | full
    · -- Whole numbers of least doubles are not rounded among the least ones.
      obtain ⟨k, rfl⟩ := whole
      have power : (0 : Rat) < 2 ^ (-1074 : Int) := by positivity
      have nonneg : 0 ≤ k := by exact_mod_cast nonneg_of_mul_nonneg_left h.nonneg power
      obtain ⟨m, rfl⟩ := Int.eq_ofNat_of_zero_le nonneg
      rw [Int.cast_natCast, ← size] at up h
      have more := size_lt_size.1 up
      have less := h.le_of_le le_rfl
      omega
    · exact h.le_of_ge full
  refine ⟨full, ?_⟩
  by_contra above
  have fewer := h.le_of_le (not_le.1 above).le
  omega

/-- A length times a number below that of the cells is at most a number of 53 bits that is not too great for all cells. -/
theorem exists_room (whole : ∃ k : Int, d = k * 2 ^ (-1074 : Int)) {n : Nat} {e : Int} (h : NearestSize d n e)
    (inside : position < cells) (few : cells ≤ 2 ^ 14) :
    ∃ k t j : Nat, k ≤ 2 * leadingBit ∧ size k e ≤ d ∧ t ≤ 2 * leadingBit ∧ n * position ≤ t * 2 ^ j ∧ t * 2 ^ j ≤ k * cells := by
  have leading : leadingBit = 4503599627370496 := rfl
  have fits := h.fits
  obtain ⟨others, rfl⟩ : ∃ others, cells = others + 1 := ⟨cells - 1, by omega⟩
  have part : n * position ≤ n * others := Nat.mul_le_mul_left n (by omega)
  rcases le_or_gt (size n e) d with down | up
  · have most : n * (others + 1) ≤ 2 * leadingBit * 2 ^ 14 := Nat.mul_le_mul fits few
    have room : n * position + 2 ^ 14 ≤ n * (others + 1) ∨
        n * position ≤ n * (others + 1) ∧ n * (others + 1) ≤ 2 * leadingBit := by
      rw [Nat.mul_succ]
      rcases le_or_gt (2 ^ 14) n with many | tiny
      · exact .inl (by omega)
      · have small : n * (others + 1) ≤ 2 ^ 14 * 2 ^ 14 := Nat.mul_le_mul tiny.le few
        rw [Nat.mul_succ] at small
        exact .inr (by omega)
    obtain ⟨t, j, bits, above, below⟩ := exists_few_between most room
    exact ⟨n, t, j, fits, down, bits, above, below⟩
  · obtain ⟨full, lower⟩ := size_pred_le whole h up
    obtain ⟨k, rfl⟩ : ∃ k, n = k + 1 := ⟨n - 1, by omega⟩
    have most : k * (others + 1) ≤ 2 * leadingBit * 2 ^ 14 := Nat.mul_le_mul (by omega) few
    have room : (k + 1) * position + 2 ^ 14 ≤ k * (others + 1) := by
      rw [Nat.add_mul k 1 others, Nat.one_mul] at part
      rw [Nat.mul_succ]
      omega
    obtain ⟨t, j, bits, above, below⟩ := exists_few_between most (.inl room)
    exact ⟨k, t, j, by omega, lower, bits, above, below⟩

/-- A part of a length, rounded after each operation, is not above the length before it was rounded. -/
theorem share_le (whole : ∃ k : Int, d = k * 2 ^ (-1074 : Int)) (pos : 0 < d) (hs : Nearest d s) (hp : Nearest (s * position) p)
    (hq : Nearest (p / cells) q) (inside : position < cells) (few : cells ≤ 2 ^ 14) : 0 ≤ q ∧ q ≤ d := by
  have nonneg : 0 ≤ s := hs.le_of_ge .zero pos.le
  obtain ⟨n, e, nearest, same⟩ := hs.abs
  rw [abs_of_pos pos] at nearest
  rw [abs_of_nonneg nonneg] at same
  subst same
  have divisor : (0 : Rat) < cells := by exact_mod_cast (Nat.zero_le position).trans_lt inside
  constructor
  · have product : 0 ≤ p := hp.le_of_ge .zero (mul_nonneg nonneg position.cast_nonneg)
    exact hq.le_of_ge .zero (div_nonneg product divisor.le)
  · obtain ⟨k, t, j, bits, below, bits', lower, upper⟩ := exists_room whole nearest inside few
    have product : p ≤ size k e * cells := by
      calc p ≤ size t (e + j) := by
            refine hp.le_of_le (short_size bits' (by have := nearest.least; omega)) ?_
            rw [size_mul_natCast, size_add]
            exact size_le_size.2 lower
        _ = size (t * 2 ^ j) e := size_add t e j
        _ ≤ size (k * cells) e := size_le_size.2 upper
        _ = size k e * cells := (size_mul_natCast k e cells).symm
    exact (hq.le_of_le (short_size bits nearest.least) ((div_le_iff₀ divisor).2 product)).trans below

/-- What is added to the start of an axis does not lead beyond its stop. -/
theorem between_ends {a b : Rat} (ha : Short a) (hb : Short b) (apart : a ≠ b) (hs : Nearest (b - a) s) (hp : Nearest (s * position) p)
    (hq : Nearest (p / cells) q) (inside : position < cells) (few : cells ≤ 2 ^ 14) : min a b ≤ a + q ∧ a + q ≤ max a b := by
  obtain ⟨i, wholeA⟩ := ha.exists_whole
  obtain ⟨k, wholeB⟩ := hb.exists_whole
  rcases apart.lt_or_gt with up | down
  · have whole : b - a = (k - i : Int) * 2 ^ (-1074 : Int) := by
      rw [wholeA, wholeB, Int.cast_sub, sub_mul]
    obtain ⟨low, high⟩ := share_le ⟨_, whole⟩ (sub_pos.2 up) hs hp hq inside few
    rw [min_eq_left up.le, max_eq_right up.le]
    exact ⟨by linarith, by linarith⟩
  · have whole : a - b = (i - k : Int) * 2 ^ (-1074 : Int) := by
      rw [wholeA, wholeB, Int.cast_sub, sub_mul]
    have hs := hs.neg
    have hp := hp.neg
    have hq := hq.neg
    rw [neg_sub] at hs
    rw [← neg_mul] at hp
    rw [← neg_div] at hq
    obtain ⟨low, high⟩ := share_le ⟨_, whole⟩ (sub_pos.2 down) hs hp hq inside few
    rw [min_eq_right down.le, max_eq_left down.le]
    exact ⟨by linarith, by linarith⟩

end Share

end Binary64

/-! ## Coordinates -/

namespace Axis

open Binary64

variable {a : Axis Float} {start stop : Rat} {cells position : Nat}

/-- The length of an axis times a position is within the range of doubles. -/
def Reaches (a : Axis Float) (position : Nat) : Prop :=
  ∃ span, (ofFloat (a.stop - a.start)).value? = some span ∧ |span| * position < border

/-- A position is reached if the length that is multiplied with it does not come to the border. -/
theorem reaches_iff {span : Rat} (value : HasValue (a.stop - a.start).toModel.unpack span) :
    a.Reaches position ↔ |span * position| < border := by
  have same : |span * position| = |span| * position := by rw [abs_mul, Nat.abs_cast]
  rw [same]
  constructor
  · rintro ⟨other, known, within⟩
    rw [value?_eq_some_iff.2 value] at known
    obtain rfl := Option.some.inj known
    exact within
  · intro within
    exact ⟨span, value?_eq_some_iff.2 value, within⟩

/-- A coordinate of an axis that reaches as far lies between the ends. -/
theorem coordinate_between (hstart : HasValue a.start.toModel.unpack start) (hstop : HasValue a.stop.toModel.unpack stop)
    (apart : start ≠ stop) (finite : (a.stop - a.start).isFinite = true) (inside : position < cells) (few : cells ≤ 2 ^ 14)
    (reaches : a.Reaches position) :
    ∃ r, HasValue (a.coordinate cells (Nat.cast position)).toModel.unpack r ∧ min start stop ≤ r ∧ r ≤ max start stop := by
  have divisor : (0 : Rat) < cells := by exact_mod_cast (Nat.zero_le position).trans_lt inside
  have one : (1 : Rat) ≤ cells := by exact_mod_cast (Nat.zero_le position).trans_lt inside
  have leading : leadingBit = 4503599627370496 := rfl
  have difference := rounded_sub hstop hstart
  obtain ⟨s, span, valueS⟩ := difference.exists_value (difference.isFinite_iff.1 finite)
  have factor := rounded_mul valueS (hasValue_natCast (n := position) (by omega))
  obtain ⟨p, product, valueP⟩ := factor.exists_value ((reaches_iff valueS).1 reaches)
  have small : |p / cells| < border := by
    rw [abs_div, Nat.abs_cast]
    exact (div_le_self (abs_nonneg p) one).trans_lt valueP.abs_lt_border
  obtain ⟨q, quotient, valueQ⟩ := (rounded_div valueP (hasValue_natCast (by omega)) divisor.ne').exists_value small
  obtain ⟨low, high⟩ := between_ends hstart.short hstop.short apart span product quotient inside few
  have within : |start + q| < border := by
    obtain ⟨first, second⟩ := abs_lt.1 hstart.abs_lt_border
    obtain ⟨third, fourth⟩ := abs_lt.1 hstop.abs_lt_border
    exact abs_lt.2 ⟨(lt_min first third).trans_le low, high.trans_lt (max_lt second fourth)⟩
  obtain ⟨r, sum, valueR⟩ := (rounded_add hstart valueQ).exists_value within
  have first := hstart.short
  have last := hstop.short
  refine ⟨r, valueR, sum.le_of_ge ?_ low, sum.le_of_le ?_ high⟩
  · rcases min_choice start stop with same | same
    · rwa [same]
    · rwa [same]
  · rcases max_choice start stop with same | same
    · rwa [same]
    · rwa [same]

/-- A coordinate of an axis that does not reach as far is not finite. -/
theorem coordinate_infinite (hstart : HasValue a.start.toModel.unpack start) (hstop : HasValue a.stop.toModel.unpack stop)
    (finite : (a.stop - a.start).isFinite = true) (inside : position < cells) (few : cells ≤ 2 ^ 14)
    (reaches : ¬a.Reaches position) : (a.coordinate cells (Nat.cast position)).isFinite = false := by
  have leading : leadingBit = 4503599627370496 := rfl
  have difference := rounded_sub hstop hstart
  obtain ⟨s, -, valueS⟩ := difference.exists_value (difference.isFinite_iff.1 finite)
  have factor := rounded_mul valueS (hasValue_natCast (n := position) (by omega))
  have beyond := mt factor.isFinite_iff.1 (mt (reaches_iff valueS).2 reaches)
  cases factor with
  | finite nearest value => exact absurd value.isFinite beyond
  | infinite nearest limit infinite =>
    obtain ⟨sign, quotient⟩ := infinity_div infinite (hasValue_natCast (n := cells) (by omega))
    exact isFinite_of_infinity (add_infinity hstart quotient)

/-- The coordinate at a whole position lies between the ends, or is not finite if the axis does not reach so far. -/
theorem coordinate_cases (hstart : HasValue a.start.toModel.unpack start) (hstop : HasValue a.stop.toModel.unpack stop)
    (apart : start ≠ stop) (finite : (a.stop - a.start).isFinite = true) (inside : position < cells) (few : cells ≤ 2 ^ 14)
    {low high : Float} (hlow : HasValue low.toModel.unpack (min start stop)) (hhigh : HasValue high.toModel.unpack (max start stop)) :
    (a.Reaches position ∧ (a.coordinate cells (Nat.cast position)).isFinite = true ∧
      low ≤ a.coordinate cells (Nat.cast position) ∧ a.coordinate cells (Nat.cast position) ≤ high) ∨
    (¬a.Reaches position ∧ (a.coordinate cells (Nat.cast position)).isFinite = false) := by
  by_cases reaches : a.Reaches position
  · left
    obtain ⟨r, value, above, below⟩ := coordinate_between hstart hstop apart finite inside few reaches
    exact ⟨reaches, value.isFinite, (float_le_iff_le hlow value).2 above, (float_le_iff_le value hhigh).2 below⟩
  · right
    exact ⟨reaches, coordinate_infinite hstart hstop finite inside few reaches⟩

end Axis

namespace Viewport

open Binary64

/-- The point of a pixel lies in the viewport, but for coordinates on an axis that does not reach so far: those are not finite. -/
theorem pointAt_inside {v : Viewport Float} (sound : v.fault? = none) {size : Size} (accepted : size.Accepted) {column row : Nat}
    (inColumns : column < size.width) (inRows : row < size.height) :
    let z := v.pointAt size (Nat.cast column) (Nat.cast row)
    ((v.columns.Reaches column ∧ z.re.isFinite = true ∧ v.reLower ≤ z.re ∧ z.re ≤ v.reUpper) ∨
      (¬v.columns.Reaches column ∧ z.re.isFinite = false)) ∧
    ((v.rows.Reaches row ∧ z.im.isFinite = true ∧ v.imLower ≤ z.im ∧ z.im ≤ v.imUpper) ∨
      (¬v.rows.Reaches row ∧ z.im.isFinite = false)) := by
  obtain ⟨finite, real, imaginary, reSpan, imSpan⟩ := proper_of_fault? sound
  obtain ⟨-, -, wide, high, -⟩ := accepted
  obtain ⟨right, reUpper⟩ := exists_value_of_isFinite (finite .reUpper)
  obtain ⟨left, reLower⟩ := exists_value_of_isFinite (finite .reLower)
  obtain ⟨top, imUpper⟩ := exists_value_of_isFinite (finite .imUpper)
  obtain ⟨bottom, imLower⟩ := exists_value_of_isFinite (finite .imLower)
  have wider : left < right := (float_lt_iff_lt reLower reUpper).1 real
  have higher : bottom < top := (float_lt_iff_lt imLower imUpper).1 imaginary
  constructor
  · refine v.columns.coordinate_cases reLower reUpper wider.ne reSpan inColumns wide ?_ ?_
    · rwa [min_eq_left wider.le]
    · rwa [max_eq_right wider.le]
  · -- The rows are counted from the upper bound, so their length is the other difference.
    have span : (v.imLower - v.imUpper).isFinite = true := by
      have difference := (rounded_sub imUpper imLower).isFinite_iff.1 imSpan
      rw [← abs_neg, neg_sub] at difference
      exact (rounded_sub imLower imUpper).isFinite_iff.2 difference
    refine v.rows.coordinate_cases imUpper imLower higher.ne' span inRows high ?_ ?_
    · rwa [min_eq_right higher.le]
    · rwa [max_eq_left higher.le]

/-- The last pixel of eight, on the viewport that is shown first. -/
theorem last_pixel_inside :
    let v : Viewport Float := standard
    let size : Size := ⟨4, 2⟩
    let z := v.pointAt size (Nat.cast 3) (Nat.cast 1)
    v.fault? = none ∧ size.Accepted ∧ 3 < size.width ∧ 1 < size.height ∧ v.columns.Reaches 3 ∧ v.rows.Reaches 1 ∧
      (z.re.isFinite = true ∧ v.reLower ≤ z.re ∧ z.re ≤ v.reUpper) ∧
      (z.im.isFinite = true ∧ v.imLower ≤ z.im ∧ z.im ≤ v.imUpper) := by
  intro v size z
  have sound : v.fault? = none := by decide +kernel
  have accepted : size.Accepted := by decide
  have columns : v.columns.Reaches 3 := ⟨30, by decide +kernel, by decide +kernel⟩
  have rows : v.rows.Reaches 1 := ⟨-30, by decide +kernel, by decide +kernel⟩
  have inColumns : 3 < size.width := by decide
  have inRows : 1 < size.height := by decide
  obtain ⟨real, imaginary⟩ := pointAt_inside sound accepted inColumns inRows
  refine ⟨sound, accepted, inColumns, inRows, columns, rows, ?_, ?_⟩
  · rcases real with ⟨-, inside⟩ | ⟨short, -⟩
    · exact inside
    · exact absurd columns short
  · rcases imaginary with ⟨-, inside⟩ | ⟨short, -⟩
    · exact inside
    · exact absurd rows short

/-- The middle column of a viewport from `0` to `2 ^ 1023` has no finite coordinate. -/
theorem pointAt_finite_false :
    let v : Viewport Float := ⟨Float.ofBits 0x7fe0000000000000, 0, 1, 0⟩
    let size : Size := ⟨4, 1⟩
    v.fault? = none ∧ size.Accepted ∧ 2 < size.width ∧ 0 < size.height ∧
      (v.pointAt size (Nat.cast 2) (Nat.cast 0)).re.isFinite = false := by
  decide +kernel

end Viewport

end DomainColoring
