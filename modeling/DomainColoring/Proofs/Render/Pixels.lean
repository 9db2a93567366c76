import Mathlib.Algebra.BigOperators.Group.Finset.Piecewise
import Mathlib.Algebra.BigOperators.Group.Finset.Sigma
import DomainColoring.Proofs.Image.Grid
import DomainColoring.Proofs.Render.Schedule

/-!
# Pictures pixel by pixel

What a render gives has a description that knows of no rows and no stacks: each pixel has the color of the value of the function
at its point, or is white where there is no finite value, and the pixels of the second kind are counted
(`Drawing.rendered_pixel_by_pixel`).
-/

namespace DomainColoring

variable {α : Type} [Add α] [Sub α] [Mul α] [Div α] [Neg α] [BEq α] [NatCast α] [Elementary α] [Scalar α] [LT α]
  [DecidableLT α]

/-! ## The bytes of pixels -/

/-- There are four bytes for each color. -/
theorem Rgb.length_flatMap_bytes (colors : List Rgb) : (colors.flatMap Rgb.bytes).length = colors.length * 4 := by
  induction colors with
  | nil => rfl
  | cons color colors ih =>
    rw [List.flatMap_cons, List.length_append, ih, List.length_cons, Nat.succ_mul, Nat.add_comm]
    rfl

/-- Of colors one after the other each has its own four bytes. -/
theorem Rgb.getElem?_flatMap_bytes (colors : List Rgb) (column : Nat) {i : Nat} (hi : i < 4) :
    (colors.flatMap Rgb.bytes)[column * 4 + i]? = colors[column]?.bind (·.bytes[i]?) := by
  induction colors generalizing column with
  | nil => rfl
  | cons color colors ih =>
    have length : color.bytes.length = 4 := rfl
    cases column with
    | zero =>
      rw [Nat.zero_mul, Nat.zero_add, List.flatMap_cons, List.getElem?_append_left (by omega)]
      rfl
    | succ column =>
      rw [List.flatMap_cons, List.getElem?_append_right (by omega), List.getElem?_cons_succ, ← ih column]
      congr 1
      omega

namespace Drawing

/-- The value of the function at the point of a pixel. -/
def valueAt (d : Drawing α) (column row : Nat) : Except ExpressionError (ComplexNumber α) :=
  d.plot.expression.eval (d.plot.viewport.pointAt d.size (Nat.cast column) (Nat.cast row))

/-- The function has a finite value at the point of a pixel. -/
def Defined (d : Drawing α) (column row : Nat) : Prop :=
  ∃ w, d.valueAt column row = .ok w ∧ w.isFinite = true

/-- The color of a pixel. -/
def pixelColor (d : Drawing α) (column row : Nat) : Rgb :=
  (d.shading.resultColor? (d.valueAt column row)).getD .undefined

/-- A pixel is defined where its result has a color of its own. -/
theorem defined_iff {d : Drawing α} {column row : Nat} :
    d.Defined column row ↔ (d.shading.resultColor? (d.valueAt column row)).isSome = true := by
  unfold Defined Shading.resultColor?
  cases d.valueAt column row with
  | error error => simp
  | ok w => by_cases h : w.isFinite <;> simp [h]

instance (d : Drawing α) (column row : Nat) : Decidable (d.Defined column row) :=
  decidable_of_iff _ defined_iff.symm

/-- A finite value has the color that its shading gives it. -/
theorem pixelColor_of_value {d : Drawing α} {column row : Nat} {w : ComplexNumber α} (h : d.valueAt column row = .ok w)
    (finite : w.isFinite = true) : d.pixelColor column row = d.shading.color w := by
  simp [pixelColor, Shading.resultColor?, h, finite]

/-- A pixel is white without a finite value, and with one whose color is white. -/
theorem pixelColor_eq_undefined_iff {d : Drawing α} {column row : Nat} :
    d.pixelColor column row = .undefined ↔
      ¬d.Defined column row ∨ ∃ w, d.valueAt column row = .ok w ∧ d.shading.color w = .undefined := by
  unfold Defined pixelColor Shading.resultColor?
  cases d.valueAt column row with
  | error error => simp
  | ok w => by_cases finite : w.isFinite = true <;> simp [finite]

theorem pixelColor_of_not_defined {d : Drawing α} {column row : Nat} (h : ¬d.Defined column row) :
    d.pixelColor column row = .undefined :=
  pixelColor_eq_undefined_iff.2 (.inl h)

/-! ## Rows -/

/-- Painting some columns of a row gives the colors of their pixels, and counts those without a finite value. -/
theorem paintColumns_eq (d : Drawing α) (row : Nat) (columns : List Nat) (stack : Stack α) :
    (d.plot.paintColumns d.shading d.size row columns stack).colors = columns.map (d.pixelColor · row) ∧
      (d.plot.paintColumns d.shading d.size row columns stack).undefinedPixels =
        columns.countP fun column => ¬d.Defined column row := by
  induction columns generalizing stack with
  | nil => exact ⟨rfl, rfl⟩
  | cons column columns ih =>
    -- An evaluation clears the stack that it is given, so its result is that on an empty one.
    have value : (d.plot.expression.evalWith (d.plot.viewport.pointAt d.size (Nat.cast column) (Nat.cast row)) stack).1 =
        d.valueAt column row := rfl
    obtain ⟨colors, undefinedPixels⟩ := ih
      (d.plot.expression.evalWith (d.plot.viewport.pointAt d.size (Nat.cast column) (Nat.cast row)) stack).2
    rw [Plot.paintColumns]
    simp only [value, List.map_cons, List.countP_cons, defined_iff, pixelColor] at colors undefinedPixels ⊢
    cases d.shading.resultColor? (d.valueAt column row) with
    | some color => exact ⟨congrArg _ colors, undefinedPixels⟩
    | none => exact ⟨congrArg _ colors, congrArg (· + 1) undefinedPixels⟩

theorem rowColors_eq (d : Drawing α) (row : Nat) :
    d.rowColors row = (List.range d.size.width).map (d.pixelColor · row) :=
  (d.paintColumns_eq row _ []).1

theorem rowUndefined_eq (d : Drawing α) (row : Nat) :
    d.rowUndefined row = (List.range d.size.width).countP fun column => ¬d.Defined column row :=
  (d.paintColumns_eq row _ []).2

theorem length_rowBytes (d : Drawing α) (row : Nat) : ((d.rowColors row).flatMap Rgb.bytes).length = d.size.width * 4 := by
  rw [Rgb.length_flatMap_bytes, rowColors_eq, List.length_map, List.length_range]

/-- The bytes of a row are those of its pixels one after the other. -/
theorem getElem?_rowBytes (d : Drawing α) (row : Nat) {column i : Nat} (hc : column < d.size.width) (hi : i < 4) :
    ((d.rowColors row).flatMap Rgb.bytes)[column * 4 + i]? = (d.pixelColor column row).bytes[i]? := by
  rw [Rgb.getElem?_flatMap_bytes _ _ hi, rowColors_eq, List.getElem?_map, List.getElem?_range hc]
  rfl

/-! ## Images -/

/-- The image has the size of its drawing. -/
@[simp] theorem size_imageOf (d : Drawing α) (rows : List Nat) : (d.imageOf rows).size = d.size := by
  induction rows with
  | nil => rfl
  | cons row rows ih => rwa [imageOf, List.foldr_cons, Image.size_writeRow]

/-- The image has four bytes for each pixel. -/
@[simp] theorem size_bytes_imageOf (d : Drawing α) (rows : List Nat) :
    (d.imageOf rows).bytes.size = d.size.width * d.size.height * 4 := by
  induction rows with
  | nil => exact Array.size_ofFn
  | cons row rows ih => rwa [imageOf, List.foldr_cons, Image.size_bytes_writeRow]

/-- A row of the drawing fits into the image. -/
theorem fits_rowBytes (d : Drawing α) (rows : List Nat) {row : Nat} (hr : row < d.size.height) :
    (d.imageOf rows).Fits row 0 ((d.rowColors row).flatMap Rgb.bytes) := by
  have area : (row + 1) * d.size.width ≤ d.size.height * d.size.width := Nat.mul_le_mul_right _ hr
  rw [Nat.succ_mul, Nat.mul_comm d.size.height] at area
  simp only [Image.Fits, Image.HasRow, Image.stride, size_imageOf, size_bytes_imageOf, length_rowBytes, ← Nat.mul_assoc]
  omega

/-- A painted row has its bytes, whatever else is painted. -/
theorem getElem?_imageOf (d : Drawing α) {rows : List Nat} {row i : Nat} (hm : row ∈ rows) (hr : row < d.size.height)
    (hi : i < d.size.width * 4) :
    (d.imageOf rows).bytes[row * (d.size.width * 4) + i]? = ((d.rowColors row).flatMap Rgb.bytes)[i]? := by
  induction rows with
  | nil => cases hm
  | cons other rows ih =>
    have stride : (d.imageOf rows).stride = d.size.width * 4 := by rw [Image.stride, size_imageOf]
    rw [imageOf, List.foldr_cons, ← imageOf, ← stride]
    by_cases h : row = other
    · subst h
      exact Image.getElem?_writeRow_self (d.fits_rowBytes rows hr) (by rwa [length_rowBytes])
    · rw [Image.getElem?_writeRow_of_ne _ h _ (by rwa [stride]), stride]
      exact ih (List.mem_of_ne_of_mem h hm)

/-- The bytes of a pixel are those of its color. -/
theorem getElem?_picture (d : Drawing α) {column row i : Nat} (hc : column < d.size.width) (hr : row < d.size.height)
    (hi : i < 4) : d.picture.image.bytes[d.picture.image.position column row + i]? = (d.pixelColor column row).bytes[i]? := by
  rw [picture, Image.position, Image.stride, size_imageOf, Nat.add_assoc,
    d.getElem?_imageOf (List.mem_range.2 hr) hr (by omega), d.getElem?_rowBytes row hc hi]

/-- Every pixel of the picture has the bytes of its color. -/
theorem pixelBytes_picture (d : Drawing α) {column row : Nat} (hc : column < d.size.width) (hr : row < d.size.height) :
    d.picture.image.pixelBytes column row = (d.pixelColor column row).bytes :=
  Image.pixelBytes_eq rfl fun _ hi => d.getElem?_picture hc hr hi

/-- Every pixel of the picture has its color. -/
theorem pixel?_picture (d : Drawing α) {column row : Nat} (hc : column < d.size.width) (hr : row < d.size.height) :
    d.picture.image.pixel? column row = some (d.pixelColor column row) := by
  have holds : d.picture.image.Holds column row := by
    rw [Image.Holds, picture, size_imageOf]
    exact ⟨hc, hr⟩
  have red := d.getElem?_picture hc hr (i := 0) (by decide)
  have green := d.getElem?_picture hc hr (i := 1) (by decide)
  have blue := d.getElem?_picture hc hr (i := 2) (by decide)
  rw [Nat.add_zero] at red
  rw [Image.pixel?, if_pos holds]
  dsimp only
  rw [red, green, blue]
  rfl

/-! ## The number of pixels without a finite value -/

/-- Counted row by row, the pixels without a value are all those of the image. -/
theorem undefinedOf_range (d : Drawing α) (height : Nat) :
    d.undefinedOf (List.range height) =
      ((Finset.range d.size.width ×ˢ Finset.range height).filter fun pixel => ¬d.Defined pixel.1 pixel.2).card := by
  induction height with
  | zero => simp [undefinedOf]
  | succ height ih =>
    -- The rows are counted from the last, while the range of them grows at its end.
    have order : (List.range (height + 1)).Perm (height :: List.range height) := by
      rw [List.range_succ]
      exact List.perm_append_singleton _ _
    have top : d.rowUndefined height = ∑ column ∈ Finset.range d.size.width, if ¬d.Defined column height then 1 else 0 := by
      rw [rowUndefined_eq, ← Finset.card_filter, List.countP_eq_length_filter]
      rfl
    rw [d.undefinedOf_perm order, undefinedOf, List.foldr_cons, ← undefinedOf, ih, Finset.card_filter, Finset.card_filter,
      Finset.sum_product_right, Finset.sum_product_right, Finset.sum_range_succ, Nat.add_comm, top]

/-! ## Whole pictures -/

/-- The picture is what the values of the function at the points of the pixels say. -/
structure PixelByPixel (d : Drawing α) (picture : Picture) : Prop where
  size : picture.image.size = d.size
  bytes : picture.image.bytes.size = d.size.width * d.size.height * 4
  /-- A pixel with a finite value has its color, and is opaque. -/
  value : ∀ column row w, column < d.size.width → row < d.size.height →
    d.plot.expression.eval (d.plot.viewport.pointAt d.size (Nat.cast column) (Nat.cast row)) = .ok w → w.isFinite = true →
      picture.image.pixelBytes column row = [(d.shading.color w).r, (d.shading.color w).g, (d.shading.color w).b, 255]
  /-- Any other pixel is white, and opaque. -/
  noValue : ∀ column row, column < d.size.width → row < d.size.height → ¬d.Defined column row →
    picture.image.pixelBytes column row = [255, 255, 255, 255]
  /-- The pixels of the second kind are counted. -/
  undefinedPixels : picture.undefinedPixels =
    ((Finset.range d.size.width ×ˢ Finset.range d.size.height).filter fun pixel => ¬d.Defined pixel.1 pixel.2).card

/-- The picture of a drawing is painted pixel by pixel. -/
theorem pixelByPixel_picture (d : Drawing α) : d.PixelByPixel d.picture where
  size := d.size_imageOf _
  bytes := d.size_bytes_imageOf _
  value := by
    intro column row w hc hr value finite
    rw [d.pixelBytes_picture hc hr, pixelColor_of_value value finite]
    rfl
  noValue := by
    intro column row hc hr h
    rw [d.pixelBytes_picture hc hr, pixelColor_of_not_defined h]
    rfl
  undefinedPixels := d.undefinedOf_range _

/-- A drawing of an accepted size has a picture, in which each pixel is what the value of the function at its point says. Its rows
may be painted in any order, several at a time, each with whatever stack its lane was left with: the steps come to an end, only
when no row is left, and the picture is the same. A drawing of any other size is refused before anything happens. -/
theorem rendered_pixel_by_pixel (d : Drawing α) :
    (d.size.Accepted → ∃ picture begun h, d.render = .ok picture ∧ d.PixelByPixel picture ∧
      d.begin Handle.initial.generation .initial = .ok (begun, h) ∧ begun.waiting = List.range d.size.height ∧
      ∀ (lanes : List (Stack α)) (steps : List RowStep) (r : Run α) (h' : Handle),
        steps.foldl Run.step ({ begun with lanes }, h) = (r, h') →
        (∀ step state, r.step? h' step = some state → state.1.remaining < r.remaining) ∧
        (r.isDrained = false → ∃ step state, r.step? h' step = some state) ∧
        (r.isDrained = true → r.outcome h' = .ok picture)) ∧
    (¬d.size.Accepted → ∀ meanwhile h, d.renderWith meanwhile h = (.error (.size ⟨d.size⟩), h)) := by
  refine ⟨fun accepted => ⟨d.picture, .initial d 0, Handle.initial.resetProgress d.size.height, render_of_accepted accepted,
    d.pixelByPixel_picture, begin_of_accepted accepted _ _, rfl, ?_⟩, ?_⟩
  · intro lanes steps r h' reached
    have sound : Run.Sound d 0 (.initial d 0) (Handle.initial.resetProgress d.size.height) := .initial (Nat.le_refl 0)
    refine ⟨fun step state => Run.remaining_lt, Run.exists_step?_of_not_isDrained h', fun drained => ?_⟩
    have outcome := (sound.withLanes lanes).outcome_of_rowSteps rfl steps
    rw [reached] at outcome
    exact outcome drained
  · intro refused meanwhile h
    rw [renderWith, begin_of_refused refused]

/-- One column of two pixels, the lower one first, in a lane with something on its stack. -/
theorem rendered_two_pixels :
    let d : Drawing Float := ⟨.standard, ⟨1, 2⟩, ⟨0.5⟩⟩
    let steps : List RowStep := [.start 1 0, .finish 1 0, .start 0 0, .finish 0 0]
    d.size.Accepted ∧ ∃ picture begun h, d.render = .ok picture ∧ picture.image.bytes.size = 8 ∧
      d.begin 0 .initial = .ok (begun, h) ∧
      ∃ r h', steps.foldl Run.step ({ begun with lanes := [[⟨0.5, 0.5⟩]] }, h) = (r, h') ∧ r.isDrained = true ∧
        r.outcome h' = .ok picture := by
  intro d steps
  have accepted : d.size.Accepted := by decide
  obtain ⟨picture, begun, h, rendered, pixels, hb, -, anyOrder⟩ := d.rendered_pixel_by_pixel.1 accepted
  refine ⟨accepted, picture, begun, h, rendered, pixels.bytes, hb, _, _, rfl, ?_⟩
  obtain ⟨-, -, outcome⟩ := anyOrder [[⟨0.5, 0.5⟩]] steps _ _ rfl
  have drained : (steps.foldl Run.step ({ begun with lanes := [[⟨0.5, 0.5⟩]] }, h)).1.isDrained = true := by
    cases hb
    rfl
  exact ⟨drained, outcome drained⟩

end Drawing

end DomainColoring
