import DomainColoring.Proofs.Export.Failed
import DomainColoring.Proofs.Viewport.Order

/-!
# How large an exported image is

The width of an exported image follows from its height and the shape of the viewport. The ratio of the lengths may be rounded to
infinity or to zero; its product with a height is a number all the same, and not a negative one, so a greater height has no lesser width
(`Viewport.exportWidth_le`). Between the bounds of a side all widths are fit for heights up to a quarter of the longest side, and an export
is refused for its size only where the height alone is out of bounds or the area is too large (`Plot.export_refused_exactly`).
-/

namespace DomainColoring

/-! ## Widths -/

namespace Viewport

/-- Exports have at least one column and at most as many as an image may have. -/
theorem exportWidth_bounds {α : Type} [Sub α] [Mul α] [Div α] [NatCast α] [Scalar α] (v : Viewport α) (height : Nat) :
    1 ≤ v.exportWidth height ∧ v.exportWidth height ≤ Size.maxSide := by
  have side : (1 : Int) ≤ Size.maxSide := by decide
  unfold exportWidth
  split
  · omega
  · omega

variable {α : Type} [Add α] [Sub α] [Mul α] [Div α] [NatCast α] [Scalar α] [LT α] [LE α] {value? : α → Option EReal}
  {round : EReal → EReal} (h : RoundedOnce value? round) {v : Viewport α} {height height' : Nat}

include h

/-- As long as the product is not negative, infinity is brought within the bounds as any other number is. -/
theorem exportWidth_eq [DecidableLT α] {p : EReal} (value : value? (Nat.cast height * v.aspectRatio) = some p) (nonneg : 0 ≤ p) :
    v.exportWidth height = (floorWithin 1 Size.maxSide (Nat.cast height * v.aspectRatio)).toNat := by
  induction p with
  | bot => exact absurd nonneg (by simp)
  | coe r => rw [exportWidth, h.floorWithin_coe value, h.floor? value]
  | top =>
    rw [exportWidth, h.floorWithin_top value, h.floor?_infinite (.inl value)]
    rfl

variable [DecidableLE α]

/-- The ratio of the lengths is not negative; it may be zero or infinite. -/
theorem value?_aspectRatio (sound : v.fault? = none) : ∃ ratio, value? v.aspectRatio = some ratio ∧ 0 ≤ ratio := by
  obtain ⟨width, height, wide, high, positive, positive'⟩ := exists_spans h sound
  have quotient : (0 : EReal) ≤ width / height := EReal.div_nonneg (EReal.coe_nonneg.2 positive.le) (EReal.coe_nonneg.2 positive'.le)
  refine ⟨round (width / height), h.div wide high positive'.ne', ?_⟩
  calc (0 : EReal) = round 0 := (h.fixed h.zero).symm
    _ ≤ round (width / height) := h.monotone quotient

/-- A number of pixels times the ratio is never no number, and it grows with the number. -/
theorem value?_mul_aspectRatio (commutes : ∀ x y : α, x * y = y * x) (sound : v.fault? = none) :
    ∃ ratio, 0 ≤ ratio ∧ ∀ height, 0 < height → height < 2 ^ 32 →
      value? (Nat.cast height * v.aspectRatio) = some (round (ratio * (height : ℝ))) := by
  obtain ⟨ratio, value, nonneg⟩ := value?_aspectRatio h sound
  refine ⟨ratio, nonneg, ?_⟩
  intro height positive word
  have nonzero : (height : ℝ) ≠ 0 := by exact_mod_cast positive.ne'
  rw [commutes]
  exact h.mul value (h.natCast word) fun zero => absurd zero nonzero

variable [DecidableLT α]

/-- A greater height has no lesser width. -/
theorem exportWidth_le (commutes : ∀ x y : α, x * y = y * x) (sound : v.fault? = none) (positive : 0 < height)
    (le : height ≤ height') (word : height' < 2 ^ 32) : v.exportWidth height ≤ v.exportWidth height' := by
  obtain ⟨ratio, nonneg, value⟩ := value?_mul_aspectRatio h commutes sound
  have first := value height positive (le.trans_lt word)
  have second := value height' (positive.trans_le le) word
  have count : (0 : EReal) ≤ (height : ℝ) := EReal.coe_nonneg.2 height.cast_nonneg
  have products : ratio * (height : ℝ) ≤ ratio * (height' : ℝ) :=
    mul_le_mul_of_nonneg_left (EReal.coe_le_coe_iff.2 (by exact_mod_cast le)) nonneg
  have start : 0 ≤ round (ratio * (height : ℝ)) := by
    calc (0 : EReal) = round 0 := (h.fixed h.zero).symm
      _ ≤ round (ratio * (height : ℝ)) := h.monotone (mul_nonneg nonneg count)
  rw [exportWidth_eq h first start, exportWidth_eq h second (start.trans (h.monotone products))]
  exact Int.toNat_le_toNat (h.floorWithin_le (by decide) first second (h.monotone products))

end Viewport

/-! ## Refusals -/

namespace Plot

/-- An export is refused for its size exactly if the size is not accepted, whatever becomes of the file. -/
theorem refused_iff {p : Plot Float} {height : Nat} {s : Shading Float} {path : String} {d : Disk} :
    (∃ refusal, ((p.saveReply height s path).settle d).1 = .error (.render (.size refusal))) ↔ ¬(p.exportSize height).Accepted := by
  constructor
  · rintro ⟨refusal, refused⟩
    rcases failed_export_cases (Prod.ext refused rfl) with ⟨tooLarge, -⟩ | ⟨fault, other, -⟩ | ⟨-, -, other, -⟩
    · exact tooLarge
    · cases other
    · cases other
  · intro refused
    refine ⟨⟨p.exportSize height⟩, ?_⟩
    rw [saveReply, exported_of_refused refused]
    rfl

/-- Sizes of exports are accepted as long as the height and the area are. -/
theorem exportSize_accepted_iff {p : Plot Float} {height : Nat} :
    (p.exportSize height).Accepted ↔
      ¬(height = 0 ∨ Size.maxSide < height ∨ Size.maxArea < p.viewport.exportWidth height * height) := by
  have width := p.viewport.exportWidth_bounds height
  unfold exportSize Size.Accepted
  dsimp only
  omega

/-- The size of an export of a plot with a viewport without a fault, on doubles:
1. the width is at least one and at most the longest side;
2. heights up to a quarter of the longest side are fit for any viewport, and no export is refused there for its size;
3. an export is refused for its size exactly if there is no height, the height is more than the longest side, or the area is too large;
4. a greater height has no lesser width. -/
theorem export_refused_exactly {p : Plot Float} (sound : p.viewport.fault? = none) :
    (∀ height, 1 ≤ p.viewport.exportWidth height ∧ p.viewport.exportWidth height ≤ Size.maxSide) ∧
    (∀ height, 1 ≤ height → height ≤ 4096 → (p.exportSize height).Accepted ∧
      ∀ s path d refusal, ((p.saveReply height s path).settle d).1 ≠ .error (.render (.size refusal))) ∧
    (∀ height s path d, (∃ refusal, ((p.saveReply height s path).settle d).1 = .error (.render (.size refusal))) ↔
      height = 0 ∨ Size.maxSide < height ∨ Size.maxArea < p.viewport.exportWidth height * height) ∧
    ∀ height height', 1 ≤ height → height ≤ height' → height' < 2 ^ 32 →
      p.viewport.exportWidth height ≤ p.viewport.exportWidth height' := by
  have bounds := p.viewport.exportWidth_bounds
  refine ⟨bounds, ?_, ?_, ?_⟩
  · intro height positive low
    have area : p.viewport.exportWidth height * height ≤ Size.maxSide * 4096 := Nat.mul_le_mul (bounds height).2 low
    have side : ¬Size.maxSide < height := Nat.not_lt.2 (low.trans (by decide))
    have accepted : (p.exportSize height).Accepted := by
      rw [exportSize_accepted_iff, not_or, not_or]
      exact ⟨Nat.ne_of_gt positive, side, Nat.not_lt.2 (area.trans (by decide))⟩
    exact ⟨accepted, fun s path d refusal refused => refused_iff.1 ⟨refusal, refused⟩ accepted⟩
  · intro height s path d
    rw [refused_iff, exportSize_accepted_iff, not_not]
  · intro height height' positive le word
    exact Viewport.exportWidth_le roundedOnce_float Binary64.float_mul_comm sound positive le word

/-- A viewport so wide and so low that the ratio of its lengths is infinite: its images are as wide as images can be. -/
theorem endless_ratio_widest :
    let p : Plot Float := { Plot.standard with viewport := ⟨Float.ofBits 0x7fe0000000000000, 0, Float.ofBits 1, 0⟩ }
    p.viewport.fault? = none ∧ p.viewport.aspectRatio.isFinite = false ∧
      (p.exportSize 4096).Accepted ∧ ¬(p.exportSize 4097).Accepted ∧
      p.viewport.exportWidth 1 = Size.maxSide ∧ p.viewport.exportWidth 4294967295 = Size.maxSide := by
  intro p
  have sound : p.viewport.fault? = none := by decide +kernel
  obtain ⟨bounds, accepted, refused, mono⟩ := export_refused_exactly sound
  have first : p.viewport.exportWidth 1 = Size.maxSide := by decide +kernel
  have last := mono 1 4294967295 (by decide) (by decide) (by decide)
  have high : p.viewport.exportWidth 4097 = Size.maxSide := by decide +kernel
  refine ⟨sound, by decide +kernel, (accepted 4096 (by decide) (by decide)).1, ?_, first, ?_⟩
  · exact refused_iff.1 ((refused 4097 ⟨0.5⟩ "plot.png" ⟨[], []⟩).2 (.inr (.inr (by rw [high]; decide))))
  · exact Nat.le_antisymm (bounds 4294967295).2 (first ▸ last)

end Plot

end DomainColoring
