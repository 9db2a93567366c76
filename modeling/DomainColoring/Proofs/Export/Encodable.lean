import DomainColoring.Proofs.Export.Files
import DomainColoring.Proofs.Plot.Accepted
import DomainColoring.Proofs.Postfix.Characters
import DomainColoring.Proofs.Render.Pixels
import DomainColoring.Proofs.Text.Plain
import DomainColoring.Reply

/-!
# Which plots can be exported

A document has room for characters up to `U+00FF`. Numbers and keywords have no others, so it depends on the text of the expression
alone whether there is a document for a plot, and in that text only a blank can be in the way (`Plot.exported_unless_wide_blank`).
-/

namespace DomainColoring

/-! ## Texts -/

/-- A text is in Latin-1 if each of its characters has one byte there. -/
theorem isLatin1_eq_true {text : String} : isLatin1 text = true ↔ ∀ c ∈ text.toList, c.toNat < 256 := by
  simp [isLatin1]

@[simp] theorem isLatin1_append (a b : String) : isLatin1 (a ++ b) = (isLatin1 a && isLatin1 b) := by
  rw [isLatin1, String.toList_append, List.all_append]
  rfl

/-- Visible ASCII is in Latin-1. -/
theorem isLatin1_of_plain {text : String} (h : Text.Plain text.toList) : isLatin1 text = true := by
  rw [isLatin1_eq_true]
  intro c member
  have high := (h c member).2
  omega

@[simp] theorem isLatin1_shortestText (x : Float) : isLatin1 (Decimal.shortestText x) = true :=
  isLatin1_of_plain (Decimal.plain_shortestText x)

theorem isLatin1_toString (n : Nat) : isLatin1 (toString n) = true :=
  isLatin1_of_plain (Text.plain_toString n)

/-- A description is in Latin-1 exactly if the expression is. -/
theorem isLatin1_describe (expression : String) (v : Viewport Float) :
    isLatin1 (describe expression v) = isLatin1 expression := by
  have words : isLatin1 "f(z) = " = true ∧ isLatin1 " over Re [" = true ∧ isLatin1 ", " = true ∧ isLatin1 "], Im [" = true ∧
      isLatin1 "]" = true := by decide
  obtain ⟨first, second, third, fourth, fifth⟩ := words
  -- Its equation would take long to derive.
  delta describe
  simp only [isLatin1_append, isLatin1_shortestText, first, second, third, fourth, fifth, Bool.true_and, Bool.and_true]

/-- Sizes are written in Latin-1. -/
theorem Size.isLatin1_text (s : Size) : isLatin1 s.text = true := by
  have cross : isLatin1 "x" = true := by decide
  rw [text, isLatin1_append, isLatin1_append, isLatin1_toString, isLatin1_toString, cross]
  rfl

/-- The texts of a document can be written exactly if its expression can. -/
theorem Metadata.all_isLatin1_texts (m : Metadata) : (m.texts.all fun (_, text) => isLatin1 text) = isLatin1 m.expression := by
  have name : isLatin1 "DomainPlot" = true := by decide
  simp only [texts, entries, name, isLatin1_describe, isLatin1_shortestText, m.size.isLatin1_text, List.all_append, List.all_cons,
    List.all_nil, Bool.true_and, Bool.and_true, Bool.and_self]

/-! ## Documents -/

/-- What is kept of a picture of a plot. -/
def Drawing.document (d : Drawing Float) : Document :=
  ⟨d.picture.image, (Metadata.ofPlot d.plot d.size).texts⟩

/-- There is a document for the picture of an accepted size, if the text of its expression can be written. -/
theorem Drawing.documentOf_picture {d : Drawing Float} (accepted : d.size.Accepted) :
    Document.of d.picture.image (.ofPlot d.plot d.size) =
      if isLatin1 d.plot.expression.source then .ok d.document else .error .unencodableText := by
  obtain ⟨wide, high, -⟩ := accepted
  have size : d.picture.image.size = d.size := d.size_imageOf _
  have bytes : d.picture.image.bytes.size = d.picture.image.stride * d.picture.image.size.height := by
    rw [Image.stride, size, picture, size_bytes_imageOf, Nat.mul_right_comm]
  have texts : (Metadata.ofPlot d.plot d.size).expression = d.plot.expression.source := rfl
  unfold Document.of
  rw [if_neg (by rw [size]; omega), if_neg (by rw [size]; omega), Metadata.all_isLatin1_texts, texts]
  cases isLatin1 d.plot.expression.source with
  | false => rfl
  | true => exact if_pos bytes

namespace Plot

/-- The drawing of a plot for a file. -/
def exportDrawing (p : Plot Float) (height : Nat) (s : Shading Float) : Drawing Float :=
  ⟨p, p.exportSize height, s⟩

/-- An export of an accepted size has its picture, and a document if the expression can be encoded. -/
theorem exported_of_accepted {p : Plot Float} {height : Nat} (accepted : (p.exportSize height).Accepted) (s : Shading Float)
    (path : String) :
    p.exported height s path = .ok ⟨path, (p.exportDrawing height s).picture,
      if isLatin1 p.expression.source then .ok (p.exportDrawing height s).document else .error .unencodableText⟩ := by
  have drawn : Drawing.render ⟨p, p.exportSize height, s⟩ = .ok (p.exportDrawing height s).picture :=
    Drawing.render_of_accepted accepted
  have document := Drawing.documentOf_picture (d := p.exportDrawing height s) accepted
  unfold exported
  dsimp only
  rw [drawn]
  change Except.ok (⟨path, _, Document.of _ (.ofPlot (p.exportDrawing height s).plot (p.exportDrawing height s).size)⟩ : Export) = _
  rw [document]
  rfl

/-- An export whose size is too large is not drawn. -/
theorem exported_of_refused {p : Plot Float} {height : Nat} (refused : ¬(p.exportSize height).Accepted) (s : Shading Float)
    (path : String) : p.exported height s path = .error (.size ⟨p.exportSize height⟩) := by
  unfold exported
  dsimp only
  rw [Drawing.render_of_refused refused]
  rfl

/-- The line that reports an export. -/
def exportReport (p : Plot Float) (height : Nat) (path : String) : String :=
  "exported " ++ (p.exportSize height).text ++ " to " ++ path

/-- Settled on a disk, such an export leaves its document there or the file empty. -/
theorem settle_saveReply_of_accepted {p : Plot Float} {height : Nat} (accepted : (p.exportSize height).Accepted)
    (s : Shading Float) {path : String} {d d' : Disk} {location : Location} (created : d.create path = (.ok location, d')) :
    (p.saveReply height s path).settle d =
      if isLatin1 p.expression.source then
        (.ok [p.exportReport height path], d'.write location (.document (p.exportDrawing height s).document))
      else (.error (.saving (.document .unencodableText)), d') := by
  have size : (p.exportDrawing height s).picture.image.size = p.exportSize height := Drawing.size_imageOf _ _
  rw [saveReply, exported_of_accepted accepted]
  dsimp only [Reply.settle, Disk.save]
  cases isLatin1 p.expression.source with
  | false =>
    rw [if_neg Bool.false_ne_true, if_neg Bool.false_ne_true, Disk.saveDocument_error created]
  | true =>
    rw [if_pos rfl, if_pos rfl, Disk.saveDocument_ok created]
    dsimp only
    rw [Export.report, size, exportReport]

/-- Whether a plot that was submitted and accepted can be exported, at a height at which its size is accepted, to a path where a
file can be made: its texts can be written exactly if that of its expression can, and the only characters there that cannot are
blanks. If there is none of these the document is written to the file. If there is one the file has been made, and there is no
document for it. -/
theorem exported_unless_wide_blank {fields : PlotFields} {p : Plot Float} (submitted : Plot.ofFields fields = .ok p)
    {height : Nat} (accepted : (p.exportSize height).Accepted) (s : Shading Float) (path : String) :
    ((∀ entry ∈ (Metadata.ofPlot p (p.exportSize height)).texts, isLatin1 entry.2 = true) ↔
      isLatin1 p.expression.source = true) ∧
    (∀ c ∈ p.expression.source.toList, 256 ≤ c.toNat → Text.isBlank c = true) ∧
    ∀ (d d' : Disk) (location : Location), d.create path = (.ok location, d') →
      (isLatin1 p.expression.source = true → (p.saveReply height s path).settle d =
        (.ok [p.exportReport height path], d'.write location (.document (p.exportDrawing height s).document))) ∧
      (isLatin1 p.expression.source = false → (p.saveReply height s path).settle d =
        (.error (.saving (.document .unencodableText)), d')) := by
  refine ⟨?_, fun c member wide => ?_, fun d d' location created => ⟨fun narrow => ?_, fun wide => ?_⟩⟩
  · rw [← List.all_eq_true]
    exact iff_of_eq (congrArg (· = true) (Metadata.all_isLatin1_texts _))
  · exact Expression.isBlank_of_wide (ofFields_eq_ok.1 submitted).1 member wide
  · rw [settle_saveReply_of_accepted accepted s created, if_pos narrow]
  · rw [settle_saveReply_of_accepted accepted s created, wide, if_neg Bool.false_ne_true]

/-- A square of the variable, two pixels high, on an empty disk. -/
theorem exported_square :
    let fields : PlotFields := ⟨" z 2 ^", "2", "-2", "1", "-1"⟩
    let p : Plot Float := ⟨⟨"z 2 ^", [.z, .literal ⟨2, 0⟩, .operator (.binary .power)], 2⟩, ⟨2, -2, 1, -1⟩⟩
    Plot.ofFields fields = .ok p ∧ (p.exportSize 2).Accepted ∧ isLatin1 p.expression.source = true ∧
      ∃ d', (p.saveReply 2 ⟨0.5⟩ "images/z.png").settle ⟨[], []⟩ = (.ok ["exported 4x2 to images/z.png"], d') := by
  intro fields p
  have submitted : Plot.ofFields fields = .ok p := ofFields_of_toOption (by decide +kernel)
  have accepted : (p.exportSize 2).Accepted := by decide +kernel
  have narrow : isLatin1 p.expression.source = true := by decide
  have report : p.exportReport 2 "images/z.png" = "exported 4x2 to images/z.png" := by decide +kernel
  have created : Disk.create ⟨[], []⟩ "images/z.png" = (.ok ["images", "z.png"], (Disk.create ⟨[], []⟩ "images/z.png").2) :=
    Prod.ext (by decide +kernel) rfl
  have kept := ((exported_unless_wide_blank submitted accepted ⟨0.5⟩ "images/z.png").2.2 _ _ _ created).1 narrow
  rw [report] at kept
  exact ⟨submitted, accepted, narrow, _, kept⟩

/-- A plot is accepted with an ideographic space in its expression, its size is accepted and the file is made, and there is no
document for it. -/
theorem accepted_plot_exported_false :
    let fields : PlotFields := ⟨"z\u30001 +", "1", "-1", "1", "-1"⟩
    let p : Plot Float := ⟨⟨"z\u30001 +", [.z, .literal ⟨1, 0⟩, .operator (.binary .add)], 2⟩, ⟨1, -1, 1, -1⟩⟩
    Plot.ofFields fields = .ok p ∧ (p.exportSize 2).Accepted ∧
      (∃ entry ∈ (Metadata.ofPlot p (p.exportSize 2)).texts, isLatin1 entry.2 = false) ∧
      (Disk.create ⟨[], []⟩ "plot.png").1 = .ok ["plot.png"] ∧
      ((p.saveReply 2 ⟨0.5⟩ "plot.png").settle ⟨[], []⟩).1 = .error (.saving (.document .unencodableText)) := by
  intro fields p
  have submitted : Plot.ofFields fields = .ok p := ofFields_of_toOption (by decide +kernel)
  have accepted : (p.exportSize 2).Accepted := by decide +kernel
  have wide : isLatin1 p.expression.source = false := by decide
  have created : Disk.create ⟨[], []⟩ "plot.png" = (.ok ["plot.png"], (Disk.create ⟨[], []⟩ "plot.png").2) :=
    Prod.ext (by decide +kernel) rfl
  refine ⟨submitted, accepted, ⟨("DomainPlot.Expression", p.expression.source), ?_, wide⟩, congrArg Prod.fst created, ?_⟩
  · exact List.mem_append_right _ List.mem_cons_self
  · rw [settle_saveReply_of_accepted accepted ⟨0.5⟩ created, wide, if_neg Bool.false_ne_true]

end Plot

end DomainColoring
