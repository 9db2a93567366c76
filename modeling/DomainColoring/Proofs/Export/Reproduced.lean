import DomainColoring.Export.Document
import DomainColoring.Proofs.Decimal.ReadBack
import DomainColoring.Proofs.Plot.Accepted
import DomainColoring.Proofs.Postfix.Characters
import DomainColoring.Proofs.Text.Plain

/-!
# Plots from documents

The texts of a document are a submission of the plot that it shows: under their keywords they hold the text of the expression, which
reads as the expression again, and the bounds, each as a number that reads as the bound (`Plot.reproduced_by_entries`).
-/

namespace DomainColoring

/-- The submission that texts hold under their keywords. -/
def PlotFields.ofEntries? (entries : List (String × String)) : Option PlotFields := do
  let expression ← entries.lookup "DomainPlot.Expression"
  let reUpper ← entries.lookup "DomainPlot.ReUpper"
  let reLower ← entries.lookup "DomainPlot.ReLower"
  let imUpper ← entries.lookup "DomainPlot.ImUpper"
  let imLower ← entries.lookup "DomainPlot.ImLower"
  return ⟨expression, reUpper, reLower, imUpper, imLower⟩

namespace Metadata

/-- The submission that a document was made from, as it is written there. -/
def fields (m : Metadata) : PlotFields :=
  ⟨m.expression, Decimal.shortestText m.viewport.reUpper, Decimal.shortestText m.viewport.reLower,
    Decimal.shortestText m.viewport.imUpper, Decimal.shortestText m.viewport.imLower⟩

/-- The text of a bound is the shortest of its number. -/
theorem bound_fields (m : Metadata) (side : Side) : m.fields.bound side = Decimal.shortestText (m.viewport.bound side) := by
  cases side <;> rfl

/-- The fields are found again among the entries of a document. -/
theorem ofEntries?_entries (m : Metadata) : PlotFields.ofEntries? m.entries = some m.fields := by
  rfl

/-- The texts that stand before the entries have keywords of their own. -/
theorem ofEntries?_texts (m : Metadata) : PlotFields.ofEntries? m.texts = some m.fields := by
  rfl

end Metadata

/-- A bound is read from its own text. -/
theorem Field.readNumber_shortestText (field : Field) {x : Float} (finite : x.isFinite = true) :
    field.readNumber (Decimal.shortestText x) = .ok x := by
  have trimmed : Text.trim (Decimal.shortestText x).toList = (Decimal.shortestText x).toList :=
    Text.trim_of_visible (Decimal.plain_shortestText x).visible
  rw [readNumber, trimmed, Decimal.read?_shortestText finite]
  exact if_pos finite

/-- The texts of a document give back the plot that it was made from, whatever was submitted and whatever size it was drawn in. -/
theorem Plot.reproduced_by_entries {fields : PlotFields} {p : Plot Float} (submitted : Plot.ofFields fields = .ok p) (size : Size) :
    ∃ again, PlotFields.ofEntries? (Metadata.ofPlot p size).entries = some again ∧
      PlotFields.ofEntries? (Metadata.ofPlot p size).texts = some again ∧ Plot.ofFields again = .ok p := by
  obtain ⟨parsed, -, faultless⟩ := Plot.ofFields_eq_ok.1 submitted
  refine ⟨(Metadata.ofPlot p size).fields, Metadata.ofEntries?_entries _, Metadata.ofEntries?_texts _, ?_⟩
  rw [Plot.ofFields_eq_ok]
  refine ⟨Expression.parse_source parsed, fun side => ?_, faultless⟩
  have finite : (p.viewport.bound side).isFinite = true := (Plot.proper_of_fields submitted).finite side
  rw [PlotFields.readBound, Metadata.bound_fields]
  exact Field.readNumber_shortestText _ finite

/-- A submission with blanks around its expression and numbers in another writing than that of the document. -/
theorem reproduced_square :
    let p : Plot Float := ⟨⟨"z\u30002 ^", [.z, .literal ⟨2, 0⟩, .operator (.binary .power)], 2⟩, ⟨1.5, -1e-7, 0.1, -0⟩⟩
    let written : PlotFields := ⟨"z\u30002 ^", "1.5", "-0.0000001", "0.1", "-0"⟩
    Plot.ofFields ⟨" z\u30002 ^\t", "1.50", "-1e-7", " +.1", "-0"⟩ = .ok p ∧
      PlotFields.ofEntries? (Metadata.ofPlot p ⟨3, 2⟩).entries = some written ∧ Plot.ofFields written = .ok p := by
  intro p written
  have submitted : Plot.ofFields ⟨" z\u30002 ^\t", "1.50", "-1e-7", " +.1", "-0"⟩ = .ok p :=
    Plot.ofFields_of_toOption (by decide +kernel)
  have entries : PlotFields.ofEntries? (Metadata.ofPlot p ⟨3, 2⟩).entries = some written := by decide +kernel
  obtain ⟨again, held, -, read⟩ := Plot.reproduced_by_entries submitted ⟨3, 2⟩
  obtain rfl : written = again := Option.some.inj (entries.symm.trans held)
  exact ⟨submitted, entries, read⟩

end DomainColoring
