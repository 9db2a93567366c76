import DomainColoring.Proofs.Color.Brightness
import DomainColoring.Proofs.Render.Pixels

/-!
# White stands for no value

As long as the bound on lightness is below one and nothing is rounded, no finite value is white: whatever its hue, one channel
has no part of the chroma, and what is left to it does not reach the full lightness. So the white pixels of a picture are those
without a finite value, and the count of a picture is that of its white pixels (`Drawing.white_means_undefined`).
-/

namespace DomainColoring

/-! ## One channel is without chroma -/

section Channels

namespace Light

variable {α : Type} [Sub α] [Mul α] [Neg α] [NatCast α] [Scalar α] [LT α] [DecidableLT α]

/-- On each side of the hexagon one channel is empty. -/
theorem zero_mem_channels_share (place chroma : α) : (Nat.cast 0 : α) ∈ (share place chroma).channels := by
  unfold share channels
  split <;> simp

/-- A share of the chroma, with what all channels have in common, is a channel of the color. -/
theorem mem_channels_ofHsl [Add α] [Div α] [Elementary α] {hue saturation lightness v : α}
    (h : v ∈ (share (hexagon hue) (chroma saturation lightness)).channels) :
    v + (lightness - chroma saturation lightness / Nat.cast 2) ∈ (ofHsl hue saturation lightness).channels := by
  simp only [channels, List.mem_cons, List.not_mem_nil, or_false] at h ⊢
  rcases h with rfl | rfl | rfl
  · exact .inl rfl
  · exact .inr (.inl rfl)
  · exact .inr (.inr rfl)

omit [Sub α] [Neg α] in
/-- A light is white as bytes only if all its channels are. -/
theorem channel_of_toRgb_undefined {light : Light α} (white : light.toRgb = .undefined) {v : α} (h : v ∈ light.channels) :
    channel v = 255 := by
  simp only [toRgb, Rgb.undefined, Rgb.mk.injEq] at white
  simp only [channels, List.mem_cons, List.not_mem_nil, or_false] at h
  rcases h with rfl | rfl | rfl
  · exact white.1
  · exact white.2.1
  · exact white.2.2

end Light

end Channels

/-! ## What is left to that channel is below one -/

section Exactly

variable {K α : Type} [FloorField K] [Add α] [Sub α] [Mul α] [Div α] [Neg α] [NatCast α] [Scalar α] [LT α] [DecidableLT α]
  {number : K → α}

namespace Exact

/-- A byte is full only for a channel that is. -/
theorem channel_ne (exact : Exact number) {v : K} (h : v < 1) : channel (number v) ≠ 255 := by
  have below : ⌊v * 255⌋ < 255 := by
    rw [Int.floor_lt]
    push_cast
    linarith
  have byte := exact.toNat_channel v
  intro full
  rw [full] at byte
  simp only [UInt8.reduceToNat] at byte
  omega

end Exact

/-- What an empty channel is left with is nothing up to half of the full lightness, and grows to the full lightness from there. -/
theorem grey_lt_one {lightness : K} (h : lightness < 1) : lightness - Light.chromaOf 1 lightness / 2 < 1 := by
  rw [Light.chromaOf_eq]
  rcases abs_cases (2 * lightness - 1) with ⟨eq, -⟩ | ⟨eq, -⟩
  · rw [eq]
    linarith
  · rw [eq]
    linarith

namespace Exact

variable [Elementary α]

/-- No finite value is white, whatever its angle. -/
theorem color_ne_undefined (exact : Exact number) {s : Shading α} {bound : K} (bounded : s.lightnessMax = number bound)
    (nonneg : 0 ≤ bound) (below : bound < 1) {w : ComplexNumber α} (finite : w.isFinite = true)
    (raised : ∃ power : K, 0 ≤ power ∧ power ≤ 1 ∧ Elementary.exp2 (-w.norm) = number power) :
    s.color w ≠ .undefined := by
  obtain ⟨power, power_nonneg, -, raised⟩ := raised
  have lightness := exact.lightness_eq bounded raised
  have dim : (1 - power) * bound < 1 := (mul_le_of_le_one_left nonneg (sub_le_self 1 power_nonneg)).trans_lt below
  intro white
  rw [Shading.color, if_pos finite, Shading.light, lightness, exact.natCast, Nat.cast_one] at white
  have empty := Light.channel_of_toRgb_undefined white (Light.mem_channels_ofHsl (Light.zero_mem_channels_share _ _))
  rw [exact.chroma_eq, exact.natCast, exact.natCast, exact.div _ (by simp), exact.sub, exact.add, Nat.cast_zero, zero_add,
    Nat.cast_ofNat] at empty
  exact exact.channel_ne (grey_lt_one dim) empty

end Exact

end Exactly

/-! ## The white pixels of a picture -/

/-- How many pixels are white. -/
def Picture.whitePixels (p : Picture) : Nat :=
  ((Finset.range p.image.size.width ×ˢ Finset.range p.image.size.height).filter fun pixel =>
    p.image.pixel? pixel.1 pixel.2 = some .undefined).card

section Pictures

variable {α : Type} [Add α] [Sub α] [Mul α] [Div α] [Neg α] [BEq α] [NatCast α] [Elementary α] [Scalar α] [LT α]
  [DecidableLT α]

/-- Where no finite value is white the white pixels are those without a finite value. -/
theorem Drawing.whitePixels_picture (d : Drawing α) (never : ∀ w, w.isFinite = true → d.shading.color w ≠ .undefined) :
    d.picture.whitePixels = d.picture.undefinedPixels := by
  have size : d.picture.image.size = d.size := d.size_imageOf _
  rw [d.pixelByPixel_picture.undefinedPixels, Picture.whitePixels, size]
  congr 1
  refine Finset.filter_congr ?_
  rintro ⟨column, row⟩ inside
  obtain ⟨hc, hr⟩ := Finset.mem_product.1 inside
  rw [d.pixel?_picture (Finset.mem_range.1 hc) (Finset.mem_range.1 hr), Option.some.injEq]
  refine ⟨?_, pixelColor_of_not_defined⟩
  rintro white ⟨w, value, finite⟩
  rw [pixelColor_of_value value finite] at white
  exact never w finite white

/-- A render that has a picture in the end has that of its drawing. -/
theorem Run.Sound.eq_picture {d : Drawing α} {noted : Nat} {r : Run α} {h : Handle} (s : Run.Sound d noted r h)
    (drained : r.isDrained = true) {picture : Picture} (done : r.outcome h = .ok picture) : picture = d.picture := by
  by_cases uncancelled : h.generation = noted
  · rw [s.outcome_of_uncancelled drained uncancelled, Except.ok.injEq] at done
    exact done.symm
  · rw [s.outcome_of_cancelled uncancelled] at done
    cases done

/-- As long as nothing is rounded, the bound on lightness is below one, and two to the power of no negated modulus is outside the
range from zero to one: no finite value is white. So a picture counts just its white pixels as those without a finite value, be it
rendered without interruption or with rows that take their steps in any order, each with whatever stack its lane was left with, and
with cancellations at any moment that do not keep it from its end. Nothing is asked of the angle of a value. -/
theorem Drawing.white_means_undefined {K : Type} [FloorField K] {number : K → α} (exact : Exact number) (d : Drawing α)
    {bound : K} (bounded : d.shading.lightnessMax = number bound) (nonneg : 0 ≤ bound) (below : bound < 1)
    (powers : ∀ w : ComplexNumber α, w.isFinite = true →
      ∃ power : K, 0 ≤ power ∧ power ≤ 1 ∧ Elementary.exp2 (-w.norm) = number power) :
    (∀ w, w.isFinite = true → d.shading.color w ≠ .undefined) ∧
      (∀ picture, d.render = .ok picture → picture.whitePixels = picture.undefinedPixels) ∧
      ∀ (h : Handle) (early : Nat) begun h', d.begin h.generation (Handle.cancel^[early] h) = .ok (begun, h') →
        ∀ (lanes : List (Stack α)) (ms : List RenderMove) r h'' picture,
          ms.foldl Run.move ({ begun with lanes }, h') = (r, h'') → r.isDrained = true → r.outcome h'' = .ok picture →
            picture.whitePixels = picture.undefinedPixels := by
  have never (w : ComplexNumber α) (finite : w.isFinite = true) : d.shading.color w ≠ .undefined :=
    exact.color_ne_undefined bounded nonneg below finite (powers w finite)
  have counted := d.whitePixels_picture never
  refine ⟨never, ?_, ?_⟩
  · intro picture rendered
    by_cases accepted : d.size.Accepted
    · rw [render_of_accepted accepted, Except.ok.injEq] at rendered
      rwa [← rendered]
    · rw [render_of_refused accepted] at rendered
      cases rendered
  · intro h early begun h' begins lanes ms r h'' picture reached drained done
    by_cases accepted : d.size.Accepted
    · rw [begin_of_accepted accepted] at begins
      cases begins
      have noted_le : h.generation ≤ (Handle.cancel^[early] h).generation := by
        rw [Handle.generation_cancel_iterate]
        exact Nat.le_add_right _ _
      have sound := ((Run.Sound.initial (d := d) noted_le).withLanes lanes).moves ms
      rw [reached] at sound
      rwa [sound.eq_picture drained done]
    · rw [begin_of_refused accepted] at begins
      cases begins

end Pictures

/-- The inverse on two pixels, of which the right one is at the pole, rendered at once or by a lane with something on its stack. -/
theorem Drawing.pole_alone_white :
    let d : Drawing ℝ := ⟨⟨⟨"z inv", [.z, .operator (.unary .inverse)], 1⟩, ⟨1, -1, 0, -1⟩⟩, ⟨2, 1⟩, ⟨1 / 2⟩⟩
    let ms : List RenderMove := [.row (.start 0 0), .row (.finish 0 0)]
    Exact (id : ℝ → ℝ) ∧ d.shading.lightnessMax = id (1 / 2 : ℝ) ∧
      (∀ w : ComplexNumber ℝ, w.isFinite = true →
        ∃ power : ℝ, 0 ≤ power ∧ power ≤ 1 ∧ Elementary.exp2 (-w.norm) = id power) ∧
      ∃ picture, d.render = .ok picture ∧ picture.undefinedPixels = 1 ∧ picture.whitePixels = 1 ∧
        ∃ begun h r h', d.begin 0 .initial = .ok (begun, h) ∧
          ms.foldl Run.move ({ begun with lanes := [[⟨1, 1⟩]] }, h) = (r, h') ∧ r.isDrained = true ∧
          r.outcome h' = .ok picture ∧ picture.whitePixels = picture.undefinedPixels := by
  intro d ms
  have powers (w : ComplexNumber ℝ) (_ : w.isFinite = true) :
      ∃ power : ℝ, 0 ≤ power ∧ power ≤ 1 ∧ Elementary.exp2 (-w.norm) = id power := by
    refine ⟨2 ^ (-w.norm), Real.rpow_nonneg (by norm_num) _, ?_, rfl⟩
    exact Real.rpow_le_one_of_one_le_of_nonpos (by norm_num) (neg_nonpos.2 (Real.sqrt_nonneg _))
  have value (z : ComplexNumber ℝ) :
      d.plot.expression.eval z = z.inverse?.elim (.error .divisionByZero) .ok := by
    cases inverse : z.inverse? <;>
      simp [d, Expression.eval, Expression.evalWith, Token.run, Token.step, Stack.cleared, Stack.result,
        UnaryOperator.applyTo?, inverse, bind, Except.bind, pure, Except.pure]
  have pole (column row : Nat) : d.Defined column row ↔ ¬(column = 1 ∧ row = 0) := by
    have point : d.plot.viewport.pointAt d.size (column : ℝ) (row : ℝ) = ⟨column - 1, -row⟩ := by
      simp only [d, Viewport.pointAt, Viewport.columns, Viewport.rows, Axis.coordinate, ComplexNumber.mk.injEq]
      constructor <;> push_cast <;> ring
    have isZero : (⟨column - 1, -row⟩ : ComplexNumber ℝ).isZero = true ↔ column = 1 ∧ row = 0 := by
      simp [ComplexNumber.isZero, sub_eq_zero]
    rw [Drawing.Defined, Drawing.valueAt, point, value, ← isZero, ComplexNumber.inverse?]
    split
    · simp_all
    · exact iff_of_true ⟨_, rfl, rfl⟩ ‹_›
  have undefined : d.picture.undefinedPixels = 1 := by
    rw [d.pixelByPixel_picture.undefinedPixels, Finset.card_eq_one]
    refine ⟨(1, 0), Finset.ext fun ⟨column, row⟩ => ?_⟩
    rw [Finset.mem_filter, pole, not_not, Finset.mem_singleton, Prod.mk.injEq, and_iff_right_iff_imp]
    rintro ⟨rfl, rfl⟩
    decide
  have accepted : d.size.Accepted := by decide
  obtain ⟨-, counted, steps⟩ :=
    d.white_means_undefined exact_real rfl (by norm_num) (by norm_num : (1 / 2 : ℝ) < 1) powers
  have rendered := Drawing.render_of_accepted accepted
  have begins := begin_of_accepted accepted 0 .initial
  have start : Run.Sound d 0 (.initial d 0) (Handle.initial.resetProgress 1) := .initial (Nat.le_refl 0)
  have sound := (start.withLanes [[⟨1, 1⟩]]).moves ms
  have drained : (ms.foldl Run.move ({ Run.initial d 0 with lanes := [[⟨1, 1⟩]] }, Handle.initial.resetProgress 1)).1.isDrained :=
    rfl
  have outcome := sound.outcome_of_uncancelled drained rfl
  exact ⟨exact_real, rfl, powers, d.picture, rendered, undefined, (counted _ rendered).trans undefined, _, _, _, _, begins, rfl,
    drained, outcome, steps .initial 0 _ _ begins _ ms _ _ _ rfl drained outcome⟩

end DomainColoring
