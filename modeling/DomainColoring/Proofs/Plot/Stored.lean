import DomainColoring.Proofs.Export.Reproduced
import DomainColoring.Proofs.Plot.Reported

/-!
# Plots from preferences

Preferred bounds are submitted as texts. A finite one is read from its text again, and the text of one that is not finite is refused like
any other text that is no number (`Field.readNumber_of_not_finite`). So what is submitted with preferred bounds is what would be
submitted with the numbers themselves (`Preferences.chosenBound`), and the plot to begin with is that of the preferences or, if there is
anything wrong with them, the standard plot (`Preferences.initialPlot_eq`).
-/

namespace DomainColoring

/-- All fields are listed. -/
theorem Field.mem_all (field : Field) : field ∈ all := by
  cases field with
  | bound side => cases side <;> decide
  | _ => decide

/-- No two fields have one name. -/
theorem Field.name_injective : Function.Injective name := by
  intro field field' same
  exact List.inj_on_of_nodup_map (by decide) field.mem_all field'.mem_all same

/-- The text of a number that is not finite is no finite number. -/
theorem Field.readNumber_of_not_finite (field : Field) {x : Float} (infinite : x.isFinite = false) :
    field.readNumber (Decimal.shortestText x) = .error (.notDecimal field (Decimal.shortestText x)) := by
  have texts : Decimal.shortestText x ∈ ["NaN", "-inf", "inf"] := by
    rw [Decimal.shortestText]
    cases parts : Binary64.ofFloat x with
    | undefined => decide
    | infinite negative => cases negative <;> decide
    | finite negative m e =>
      have finite := Binary64.isFinite_of_value? (x := x) (congrArg Binary64.value? parts)
      rw [infinite] at finite
      cases finite
  have refused : ∀ text ∈ ["NaN", "-inf", "inf"],
      (Decimal.read? (Text.trim text.toList)).all (fun x => !x.isFinite) = true := by decide +kernel
  have none := refused _ texts
  rw [readNumber]
  cases read : Decimal.read? (Text.trim (Decimal.shortestText x).toList) with
  | none => rfl
  | some y =>
    rw [read, Option.all_some, Bool.not_eq_true'] at none
    exact if_neg (Bool.not_eq_true _ ▸ none)

/-- A viewport is known by its four bounds. -/
theorem Viewport.eq_of_bounds {v w : Viewport Float} (same : ∀ side, v.bound side = w.bound side) : v = w := by
  obtain ⟨reUpper, reLower, imUpper, imLower⟩ := v
  obtain rfl : reUpper = w.reUpper := same .reUpper
  obtain rfl : reLower = w.reLower := same .reLower
  obtain rfl : imUpper = w.imUpper := same .imUpper
  obtain rfl : imLower = w.imLower := same .imLower
  rfl

namespace Preferences

variable (p : Preferences)

/-- The bound that is chosen on one side: the number that is given as a text, or the preferred one itself. Neither may be anything
but finite. -/
def chosenBound (bound? : Side → Option String) (side : Side) : Except FieldFault Float :=
  match bound? side with
  | some text => (Field.bound side).readNumber text
  | none =>
    let x := p.bounds.bound side
    if x.isFinite then .ok x else .error (.notDecimal (.bound side) (Decimal.shortestText x))

/-- The text of a bound is the given one, or else the shortest of the preferred number. -/
theorem bound_fieldsWith (expression : String) (bound? : Side → Option String) (side : Side) :
    (p.fieldsWith expression bound?).bound side = (bound? side).getD (Decimal.shortestText (p.bounds.bound side)) := by
  cases side <;> rfl

/-- Preferred bounds are read as what they are, through their texts. -/
theorem readBound_fieldsWith (expression : String) (bound? : Side → Option String) (side : Side) :
    (p.fieldsWith expression bound?).readBound side = p.chosenBound bound? side := by
  rw [PlotFields.readBound, bound_fieldsWith, chosenBound]
  cases bound? side with
  | some text => rfl
  | none =>
    dsimp only [Option.getD_none]
    cases finite : (p.bounds.bound side).isFinite with
    | true => rw [Field.readNumber_shortestText _ finite, if_pos rfl]
    | false => rw [Field.readNumber_of_not_finite _ finite, if_neg Bool.false_ne_true]

/-- Where no bound is given the preferred one is chosen, if it is finite. -/
theorem chosenBound_preferred {side : Side} {x : Float} :
    p.chosenBound (fun _ => none) side = .ok x ↔ (p.bounds.bound side).isFinite = true ∧ p.bounds.bound side = x := by
  rw [chosenBound]
  dsimp only
  cases (p.bounds.bound side).isFinite <;> simp

/-- What is submitted with preferred bounds is accepted as if it had been submitted with the numbers themselves. -/
theorem ofFields_fieldsWith_eq_ok {expression : String} {bound? : Side → Option String} {plot : Plot Float} :
    Plot.ofFields (p.fieldsWith expression bound?) = .ok plot ↔ Expression.parse expression = .ok plot.expression ∧
      (∀ side, p.chosenBound bound? side = .ok (plot.viewport.bound side)) ∧ plot.viewport.fault? = none := by
  rw [Plot.ofFields_eq_ok]
  simp only [readBound_fieldsWith]
  rfl

/-- The plot to begin with is that of the preferences as a whole, or the standard plot as a whole. -/
theorem initialPlot_eq :
    p.initialPlot = match Expression.parse p.defaultExpression, p.bounds.checked with
      | .ok expression, .ok _ => ⟨expression, p.bounds⟩
      | _, _ => .standard := by
  have accepted (plot : Plot Float) : Plot.ofFields (p.fieldsWith p.defaultExpression fun _ => none) = .ok plot ↔
      Expression.parse p.defaultExpression = .ok plot.expression ∧ p.bounds.checked = .ok plot.viewport := by
    rw [ofFields_fieldsWith_eq_ok, Viewport.checked_eq_ok]
    refine and_congr_right fun _ => ?_
    simp only [chosenBound_preferred]
    constructor
    · rintro ⟨bounds, faultless⟩
      have same : p.bounds = plot.viewport := Viewport.eq_of_bounds fun side => (bounds side).2
      exact ⟨same ▸ faultless, same⟩
    · rintro ⟨faultless, same⟩
      rw [← same]
      exact ⟨fun side => ⟨(Viewport.checks_of_fault? faultless).1 side, rfl⟩, faultless⟩
  rw [initialPlot]
  cases submitted : Plot.ofFields (p.fieldsWith p.defaultExpression fun _ => none) with
  | ok plot =>
    obtain ⟨parsed, checked⟩ := (accepted plot).1 submitted
    obtain ⟨-, same⟩ := Viewport.checked_eq_ok.1 checked
    rw [parsed, checked, same]
  | error rejection =>
    cases parsed : (Expression.parse p.defaultExpression : Except ExpressionError (Expression Float)) with
    | error error => rfl
    | ok expression =>
      cases checked : p.bounds.checked with
      | error fault => rfl
      | ok viewport =>
        have both := (accepted ⟨expression, viewport⟩).2 ⟨parsed, checked⟩
        rw [submitted] at both
        cases both

/-- Which field of a submission with preferred bounds is reported, and with what. -/
theorem fault?_fieldsWith {expression : String} {bound? : Side → Option String} {side : Side} {fault : FieldFault} :
    (∃ rejection, Plot.ofFields (p.fieldsWith expression bound?) = .error rejection ∧ rejection.fault? side.name = some fault) ↔
      p.chosenBound bound? side = .error fault := by
  rw [← p.readBound_fieldsWith expression]
  constructor
  · rintro ⟨rejection, rejected, found⟩
    have reports := Plot.reports_of_error rejected
    obtain ⟨⟨field, fault'⟩, listed, name, rfl⟩ := (reports.found _ _).1 found
    have faulty := (reports.exact _).1 listed
    obtain rfl : field = .bound side := Field.name_injective name
    cases faulty with
    | bound _ _ unreadable => exact unreadable
  · intro unreadable
    cases submitted : Plot.ofFields (p.fieldsWith expression bound?) with
    | ok plot =>
      have read := (Plot.ofFields_eq_ok.1 submitted).2.1 side
      rw [unreadable] at read
      cases read
    | error rejection =>
      have reports := Plot.reports_of_error submitted
      refine ⟨rejection, rfl, (reports.found _ _).2 ⟨⟨.bound side, fault⟩, ?_, rfl, rfl⟩⟩
      exact (reports.exact _).2 (.bound side fault unreadable)

/-- What is preferred is taken as a whole or not at all.
1. The plot to begin with is that of the preferred expression and the preferred bounds, if the expression can be read and the bounds
   are those of a viewport, and otherwise the standard plot.
2. Whichever bounds are given as texts, a plot comes out exactly if the expression can be read, the bounds that are chosen are numbers
   and they are those of a viewport, and it holds just these.
3. A bound is reported exactly if the one that is chosen is no finite number. A preferred bound that is not finite is among these. -/
theorem stored_plot_whole :
    (p.initialPlot = match Expression.parse p.defaultExpression, p.bounds.checked with
      | .ok expression, .ok _ => ⟨expression, p.bounds⟩
      | _, _ => .standard) ∧
    ∀ expression bound?,
      (∀ plot, Plot.ofFields (p.fieldsWith expression bound?) = .ok plot ↔
        Expression.parse expression = .ok plot.expression ∧
          (∀ side, p.chosenBound bound? side = .ok (plot.viewport.bound side)) ∧
          plot.viewport.checked = .ok plot.viewport) ∧
      ∀ side fault, (∃ rejection, Plot.ofFields (p.fieldsWith expression bound?) = .error rejection ∧
          rejection.fault? side.name = some fault) ↔ p.chosenBound bound? side = .error fault := by
  refine ⟨p.initialPlot_eq, fun expression bound? => ⟨fun plot => ?_, fun side fault => p.fault?_fieldsWith⟩⟩
  rw [ofFields_fieldsWith_eq_ok, Viewport.checked_eq_ok, and_iff_left rfl]

/-- With one infinite bound nothing else of the preferences is shown. -/
example : initialPlot { standard with defaultExpression := "z 2 ^", bounds := ⟨1 / 0, -2, 1, -1⟩ } = .standard := by
  decide +kernel

end Preferences

end DomainColoring
