import Mathlib.Tactic.SplitIfs
import DomainColoring.Preferences
import DomainColoring.Proofs.Scalar.Order

/-!
# What is accepted of a plot

A submission is accepted only with a viewport whose bounds and lengths are finite and whose upper bounds are above the lower ones
(`Plot.proper_of_fields`). The shading that is preferred is brought into range whatever number it is (`Shading.inRange_clamped`).
-/

namespace DomainColoring

/-- Four finite bounds, the upper above the lower, with finite lengths between them. -/
structure Viewport.Proper (v : Viewport Float) : Prop where
  finite : ∀ side, (v.bound side).isFinite = true
  real : v.reLower < v.reUpper
  imaginary : v.imLower < v.imUpper
  spans : v.reSpan.isFinite = true ∧ v.imSpan.isFinite = true

namespace Viewport

section Checks

variable {α : Type} [Sub α] [Scalar α] [LE α] [DecidableLE α] {v : Viewport α}

omit [Sub α] [LE α] [DecidableLE α] in
/-- Where no bound is found that is not finite all are. -/
theorem finite_of_notFinite? (h : v.notFinite? [.reUpper, .reLower, .imUpper, .imLower] = none) (side : Side) :
    Scalar.isFinite (v.bound side) = true := by
  rw [notFinite?, Option.map_eq_none_iff, List.find?_eq_none] at h
  have found := h side (by cases side <;> decide)
  rw [Bool.not_eq_true, Bool.not_eq_false'] at found
  exact found

/-- What is known of a viewport without a fault, in any numbers. -/
theorem checks_of_fault? (h : v.fault? = none) :
    (∀ side, Scalar.isFinite (v.bound side) = true) ∧ ¬v.reUpper ≤ v.reLower ∧ ¬v.imUpper ≤ v.imLower ∧
      Scalar.isFinite v.reSpan = true ∧ Scalar.isFinite v.imSpan = true := by
  unfold fault? at h
  split at h
  · cases h
  · rename_i finite
    split_ifs at h with real imaginary spans
    rw [Bool.or_eq_true, not_or, Bool.not_eq_true', Bool.not_eq_true', Bool.not_eq_false, Bool.not_eq_false] at spans
    exact ⟨finite_of_notFinite? finite, real, imaginary, spans⟩

end Checks

/-- A viewport without a fault is a proper one. -/
theorem proper_of_fault? {v : Viewport Float} (h : v.fault? = none) : v.Proper := by
  obtain ⟨finite, real, imaginary, spans⟩ := checks_of_fault? h
  exact ⟨finite, float_lt_of_not_le (finite .reUpper) (finite .reLower) real,
    float_lt_of_not_le (finite .imUpper) (finite .imLower) imaginary, spans⟩

/-- A viewport passes its check unchanged if it has no fault. -/
theorem checked_eq_ok {v w : Viewport Float} : v.checked = .ok w ↔ v.fault? = none ∧ v = w := by
  unfold checked
  cases v.fault? with
  | some fault => simp
  | none => simp

theorem proper_standard : (standard : Viewport Float).Proper :=
  proper_of_fault? (by decide +kernel)

end Viewport

namespace PlotFields

variable {fields : PlotFields}

/-- The viewport is checked once all four bounds can be read. -/
theorem readViewport?_eq_some {result : Except FieldFault (Viewport Float)} :
    fields.readViewport? = some result ↔
      ∃ v : Viewport Float, (∀ side, fields.readBound side = .ok (v.bound side)) ∧ v.checked.mapError .viewport = result := by
  constructor
  · intro h
    unfold readViewport? at h
    split at h
    · rename_i reUpper reLower imUpper imLower first second third fourth
      refine ⟨⟨reUpper, reLower, imUpper, imLower⟩, fun side => ?_, Option.some.inj h⟩
      cases side
      · exact first
      · exact second
      · exact third
      · exact fourth
    · cases h
  · rintro ⟨v, bounds, rfl⟩
    rw [readViewport?, bounds .reUpper, bounds .reLower, bounds .imUpper, bounds .imLower]
    rfl

/-- A viewport is read if its four bounds are, and if it has no fault. -/
theorem readViewport?_eq_ok {viewport : Viewport Float} :
    fields.readViewport? = some (.ok viewport) ↔
      (∀ side, fields.readBound side = .ok (viewport.bound side)) ∧ viewport.fault? = none := by
  rw [readViewport?_eq_some]
  constructor
  · rintro ⟨v, bounds, accepted⟩
    cases checked : v.checked with
    | error fault =>
      rw [checked] at accepted
      cases accepted
    | ok w =>
      obtain ⟨faultless, rfl⟩ := Viewport.checked_eq_ok.1 checked
      rw [checked] at accepted
      cases accepted
      exact ⟨bounds, faultless⟩
  · rintro ⟨bounds, faultless⟩
    have checked : viewport.checked = .ok viewport := Viewport.checked_eq_ok.2 ⟨faultless, rfl⟩
    exact ⟨viewport, bounds, congrArg (Except.mapError _) checked⟩

end PlotFields

namespace Plot

/-- A submission is accepted if its expression and its four bounds can be read and the bounds have no fault. -/
theorem ofFields_eq_ok {fields : PlotFields} {plot : Plot Float} :
    ofFields fields = .ok plot ↔ Expression.parse fields.expression = .ok plot.expression ∧
      (∀ side, fields.readBound side = .ok (plot.viewport.bound side)) ∧ plot.viewport.fault? = none := by
  rw [← PlotFields.readViewport?_eq_ok]
  unfold ofFields PlotFields.readExpression
  cases Expression.parse fields.expression with
  | error error => simp [Except.mapError]
  | ok expression =>
    rcases fields.readViewport? with _ | fault | viewport
    · simp [Except.mapError]
    · simp [Except.mapError]
    · obtain ⟨expression', viewport'⟩ := plot
      simp [Except.mapError]

/-- Fields that give a plot are accepted. -/
theorem ofFields_of_toOption {fields : PlotFields} {plot : Plot Float} (h : (ofFields fields).toOption = some plot) :
    ofFields fields = .ok plot := by
  cases read : ofFields fields with
  | error rejection =>
    rw [read] at h
    cases h
  | ok plot' =>
    rw [read] at h
    exact congrArg Except.ok (Option.some.inj h)

theorem proper_of_fields {fields : PlotFields} {plot : Plot Float} (h : ofFields fields = .ok plot) : plot.viewport.Proper :=
  Viewport.proper_of_fault? (ofFields_eq_ok.1 h).2.2

end Plot

/-- The lightness of a shading lies between those of black and white. -/
def Shading.InRange (s : Shading Float) : Prop :=
  (0 : Float) ≤ s.lightnessMax ∧ s.lightnessMax ≤ 1

instance (s : Shading Float) : Decidable s.InRange :=
  inferInstanceAs (Decidable (_ ∧ _))

/-- A bound on lightness that was brought into the range is in it. -/
theorem Shading.inRange_clamped (lightnessMax : Float) : (Shading.clamped lightnessMax).InRange := by
  unfold Shading.clamped
  split_ifs with finite low high
  · decide +kernel
  · decide +kernel
  · exact ⟨float_le_of_not_lt finite (by decide +kernel) low, float_le_of_not_lt (by decide +kernel) finite high⟩
  · decide +kernel

end DomainColoring
