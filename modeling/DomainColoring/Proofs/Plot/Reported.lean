import Mathlib.Data.List.Nodup
import DomainColoring.Proofs.Plot.Accepted

/-!
# What is reported of a submission

A submission that is not accepted is answered with all that is wrong with it: each field whose own check fails, in the order of the
fields, with what that check says (`Plot.reported_exactly`). The viewport is a field of its own, which is checked once the four
bounds can be read.
-/

namespace DomainColoring

/-- A field of a submission fails its own check. -/
inductive PlotFields.Faulty (f : PlotFields) : Field → FieldFault → Prop where
  | expression (error : ExpressionError) 
      (unreadable : Expression.parse f.expression = (.error error : Except ExpressionError (Expression Float))) :
      Faulty f .expression (.expression error)
  | bound (side : Side) (fault : FieldFault) (unreadable : f.readBound side = .error fault) : Faulty f (.bound side) fault
  | viewport (v : Viewport Float) (fault : ViewportFault Float) (bounds : ∀ side, f.readBound side = .ok (v.bound side))
      (refused : v.checked = .error fault) : Faulty f .viewport (.viewport fault)

/-! ## Fields in order -/

namespace Field

variable {β : Type}

/-- A field fails with what is wrong with it alone. -/
theorem mem_failures {field : Field} {result : Except FieldFault β} {failure : Failure} :
    failure ∈ field.failures result ↔ failure.field = field ∧ result = .error failure.fault := by
  obtain ⟨other, fault⟩ := failure
  cases result <;> simp [failures, eq_comm]

/-- A field fails once at most. -/
theorem sublist_failures (field : Field) (result : Except FieldFault β) :
    ((field.failures result).map (·.field)).Sublist [field] := by
  cases result with
  | ok value => exact List.nil_sublist _
  | error fault => exact List.Sublist.refl _

end Field

namespace PlotFields

variable (f : PlotFields)

/-- Failures are in the order of the fields, each field once at most. -/
theorem sublist_failures : (f.failures.map (·.field)).Sublist Field.all := by
  have bounds (side : Side) := (Field.bound side).sublist_failures (f.readBound side)
  have viewport : ((f.readViewport?.map Field.viewport.failures).getD [] |>.map (·.field)).Sublist [.viewport] := by
    cases f.readViewport? with
    | none => exact List.nil_sublist _
    | some result => exact Field.viewport.sublist_failures result
  simp only [failures, List.flatMap_cons, List.flatMap_nil, List.append_nil, List.map_append, List.append_assoc]
  exact (Field.expression.sublist_failures _).append ((bounds .reUpper).append ((bounds .reLower).append
    ((bounds .imUpper).append ((bounds .imLower).append viewport))))

variable {f}

/-- An expression fails with what is wrong in its source. -/
theorem readExpression_eq_error {fault : FieldFault} :
    f.readExpression = .error fault ↔ ∃ error, Expression.parse f.expression = .error error ∧ .expression error = fault := by
  unfold readExpression
  cases Expression.parse f.expression <;> simp [Except.mapError]

/-- A viewport fails as a whole only if each bound is read. -/
theorem readViewport?_eq_error {fault : FieldFault} :
    f.readViewport? = some (.error fault) ↔ ∃ (v : Viewport Float) (error : ViewportFault Float),
      (∀ side, f.readBound side = .ok (v.bound side)) ∧ v.checked = .error error ∧ .viewport error = fault := by
  rw [readViewport?_eq_some]
  refine exists_congr fun v => ?_
  cases v.checked <;> simp [Except.mapError]

/-- What is wrong with a submission is what is wrong with its fields. -/
theorem mem_failures {failure : Failure} : failure ∈ f.failures ↔ f.Faulty failure.field failure.fault := by
  obtain ⟨field, fault⟩ := failure
  have listed : (⟨field, fault⟩ : Failure) ∈ f.failures ↔ (field = .expression ∧ f.readExpression = .error fault) ∨
      (∃ side, field = .bound side ∧ f.readBound side = .error fault) ∨
      field = .viewport ∧ f.readViewport? = some (.error fault) := by
    have everySide (side : Side) : side ∈ [Side.reUpper, .reLower, .imUpper, .imLower] := by cases side <;> decide
    rw [failures, List.mem_append, List.mem_append, or_assoc, Field.mem_failures, List.mem_flatMap]
    refine or_congr Iff.rfl (or_congr ?_ ?_)
    · simp only [everySide, true_and, Field.mem_failures]
    · cases f.readViewport? with
      | none => simp
      | some result => simp [Field.mem_failures]
  rw [listed, readExpression_eq_error, readViewport?_eq_error]
  constructor
  · rintro (⟨rfl, error, unreadable, rfl⟩ | ⟨side, rfl, unreadable⟩ | ⟨rfl, v, error, bounds, refused, rfl⟩)
    · exact .expression error unreadable
    · exact .bound side fault unreadable
    · exact .viewport v error bounds refused
  · rintro (⟨error, unreadable⟩ | ⟨side, _, unreadable⟩ | ⟨v, error, bounds, refused⟩)
    · exact .inl ⟨rfl, error, unreadable, rfl⟩
    · exact .inr (.inl ⟨side, rfl, unreadable⟩)
    · exact .inr (.inr ⟨rfl, v, error, bounds, refused, rfl⟩)

/-- A submission without a faulty field is accepted. -/
theorem exists_ofFields_eq_ok (faultless : f.failures = []) : ∃ plot, Plot.ofFields f = .ok plot := by
  have unlisted (field : Field) (fault : FieldFault) : ¬f.Faulty field fault := by
    intro faulty
    have listed : (⟨field, fault⟩ : Failure) ∈ f.failures := mem_failures.2 faulty
    rw [faultless] at listed
    cases listed
  have read (side : Side) : ∃ x, f.readBound side = .ok x := by
    cases unreadable : f.readBound side with
    | ok x => exact ⟨x, rfl⟩
    | error fault => exact absurd (.bound side fault unreadable) (unlisted _ _)
  obtain ⟨reUpper, first⟩ := read .reUpper
  obtain ⟨reLower, second⟩ := read .reLower
  obtain ⟨imUpper, third⟩ := read .imUpper
  obtain ⟨imLower, fourth⟩ := read .imLower
  have bounds (side : Side) : f.readBound side = .ok ((⟨reUpper, reLower, imUpper, imLower⟩ : Viewport Float).bound side) := by
    cases side
    · exact first
    · exact second
    · exact third
    · exact fourth
  cases parsed : (Expression.parse f.expression : Except ExpressionError (Expression Float)) with
  | error error => exact absurd (.expression error parsed) (unlisted _ _)
  | ok expression =>
    cases refused : (⟨reUpper, reLower, imUpper, imLower⟩ : Viewport Float).checked with
    | error fault => exact absurd (.viewport _ fault bounds refused) (unlisted _ _)
    | ok viewport =>
      obtain ⟨accepted, rfl⟩ := Viewport.checked_eq_ok.1 refused
      exact ⟨⟨expression, _⟩, Plot.ofFields_eq_ok.2 ⟨parsed, bounds, accepted⟩⟩

end PlotFields

/-! ## Rejections -/

/-- A rejection reports what is wrong with a submission. -/
structure Rejection.Reports (r : Rejection) (f : PlotFields) : Prop where
  nonempty : r.failures ≠ []
  /-- Each failure is that of a field whose own check fails, with what that check says, and none is left out. -/
  exact : ∀ failure, failure ∈ r.failures ↔ f.Faulty failure.field failure.fault
  ordered : (r.failures.map (·.field.name)).Sublist ["expression", "re_upper", "re_lower", "im_upper", "im_lower", "viewport"]
  distinct : (r.failures.map (·.field.name)).Nodup
  /-- A failure is found by the name of its field, and nothing by any other name. -/
  found : ∀ name fault, r.fault? name = some fault ↔ ∃ failure ∈ r.failures, failure.field.name = name ∧ failure.fault = fault

/-- Where names are distinct a failure is found by the name of its field. -/
theorem Rejection.fault?_eq_some {r : Rejection} (distinct : (r.failures.map (·.field.name)).Nodup) {name : String}
    {fault : FieldFault} :
    r.fault? name = some fault ↔ ∃ failure ∈ r.failures, failure.field.name = name ∧ failure.fault = fault := by
  unfold fault?
  rw [Option.map_eq_some_iff]
  constructor
  · rintro ⟨failure, first, same⟩
    exact ⟨failure, List.mem_of_find?_eq_some first, by simpa using List.find?_some first, same⟩
  · rintro ⟨failure, listed, rfl, rfl⟩
    refine ⟨failure, ?_, rfl⟩
    cases first : r.failures.find? (·.field.name == failure.field.name) with
    | none => exact absurd (beq_self_eq_true _) (List.find?_eq_none.1 first failure listed)
    | some other =>
      have same : other.field.name = failure.field.name := by simpa using List.find?_some first
      rw [List.inj_on_of_nodup_map distinct (List.mem_of_find?_eq_some first) listed same]

namespace Plot

/-- A rejection reports what is wrong, and all of it. -/
theorem reports_of_error {f : PlotFields} {r : Rejection} (rejected : ofFields f = .error r) : r.Reports f := by
  have failures : r.failures = f.failures := by
    unfold ofFields at rejected
    split at rejected <;> cases rejected
    rfl
  have ordered : (f.failures.map (·.field.name)).Sublist (Field.all.map Field.name) := by
    simpa [Function.comp_def] using f.sublist_failures.map Field.name
  have distinct : (r.failures.map (·.field.name)).Nodup := by
    rw [failures]
    exact ordered.nodup (by decide)
  refine ⟨?_, ?_, ?_, distinct, fun _ _ => Rejection.fault?_eq_some distinct⟩
  · intro faultless
    obtain ⟨plot, accepted⟩ := PlotFields.exists_ofFields_eq_ok (failures.symm.trans faultless)
    rw [accepted] at rejected
    cases rejected
  · intro failure
    rw [failures, PlotFields.mem_failures]
  · rw [failures]
    exact ordered

/-- Whatever the five texts are: a plot comes out if and only if the expression and all four bounds can be read and the bounds are
those of a viewport, and it holds just these. Otherwise the rejection reports each field whose own check fails, and no other. -/
theorem reported_exactly (f : PlotFields) :
    (∀ plot, ofFields f = .ok plot ↔ Expression.parse f.expression = .ok plot.expression ∧
      (∀ side, f.readBound side = .ok (plot.viewport.bound side)) ∧ plot.viewport.checked = .ok plot.viewport) ∧
      ∀ r, ofFields f = .error r → r.Reports f := by
  refine ⟨fun plot => ?_, fun r => reports_of_error⟩
  rw [ofFields_eq_ok, Viewport.checked_eq_ok, and_iff_left rfl]

/-- A submission with an expression that lacks an operand and a bound that is no number. -/
theorem two_faults_reported :
    ∃ r, ofFields ⟨"z +", "1", "x", "2", "-2"⟩ = .error r ∧ r.Reports ⟨"z +", "1", "x", "2", "-2"⟩ ∧
      r.failures.map (·.field) = [.expression, .bound .reLower] := by
  have rejected : ofFields ⟨"z +", "1", "x", "2", "-2"⟩ = .error ⟨PlotFields.failures ⟨"z +", "1", "x", "2", "-2"⟩⟩ := rfl
  exact ⟨_, rejected, (reported_exactly _).2 _ rejected, by decide +kernel⟩

end Plot

end DomainColoring
