import DomainColoring.Proofs.Session.Turns

/-!
# Readouts and pictures

The value under the cursor is computed anew from what was chosen last, while the picture was painted by the worker some time before.
They agree all the same: once the picture of the latest generation is shown, each of its pixels has the color of the value that is
read out there (`Session.readout_agrees`).
-/

namespace DomainColoring

/-- The function has a finite value at the point. -/
def Readout.Finite (r : Readout Float) : Prop :=
  ∃ v, r.output = .ok v ∧ v.value.isFinite = true

namespace Session

/-- The readout at a pixel. -/
def readoutOf (s : Session) (column row : Nat) : Readout Float :=
  s.plot.readout s.size (s.plot.viewport.pointAt s.size (Nat.cast column) (Nat.cast row))

/-- The readout at a pixel has the value that is painted there. -/
theorem output_readoutOf (s : Session) (column row : Nat) :
    (s.readoutOf column row).output = (s.drawing.valueAt column row).map .of :=
  rfl

/-- A value is read out where the drawing has it. -/
theorem output_readoutOf_eq_ok {s : Session} {column row : Nat} {v : PointSummary Float} :
    (s.readoutOf column row).output = .ok v ↔ s.drawing.valueAt column row = .ok v.value ∧ v = .of v.value := by
  rw [output_readoutOf]
  cases s.drawing.valueAt column row with
  | error error => simp [Except.map]
  | ok w =>
    simp only [Except.map, Except.ok.injEq]
    constructor
    · rintro rfl
      exact ⟨rfl, rfl⟩
    · rintro ⟨rfl, of⟩
      exact of.symm

/-- The readout at a pixel is finite exactly if the pixel is defined. -/
theorem finite_readoutOf {s : Session} {column row : Nat} : (s.readoutOf column row).Finite ↔ s.drawing.Defined column row := by
  constructor
  · rintro ⟨v, output, finite⟩
    exact ⟨v.value, (output_readoutOf_eq_ok.1 output).1, finite⟩
  · rintro ⟨w, value, finite⟩
    exact ⟨.of w, output_readoutOf_eq_ok.2 ⟨value, rfl⟩, finite⟩

instance (s : Session) (column row : Nat) : Decidable (s.readoutOf column row).Finite :=
  decidable_of_iff _ finite_readoutOf.symm

/-- A command that moves the cursor to a pixel is answered by the readout there. -/
theorem Traced.point_answered {s : Session} (h : s.Traced) (column row : Nat) :
    s.plot.readoutAt s.size (Nat.cast column) (Nat.cast row) = .ok (s.readoutOf column row) ∧
      ∀ seconds pace, (s.execute (.point (Nat.cast column) (Nat.cast row)) seconds pace).1 =
        .lines (s.readoutOf column row).lines := by
  refine ⟨h.readoutAt_eq _ _, fun seconds pace => ?_⟩
  rw [h.execute_eq, Session.perform, h.polled.moveCursor_eq]
  rfl

/-- The readouts of a session and the pixels of a picture say the same of every point. -/
structure AgreesWith (s : Session) (picture : Picture) : Prop where
  /-- What comes of the command that moves the cursor to a pixel. -/
  answered : ∀ column row, column < s.size.width → row < s.size.height →
    s.plot.readoutAt s.size (Nat.cast column) (Nat.cast row) = .ok (s.readoutOf column row) ∧
      ∀ seconds pace, (s.execute (.point (Nat.cast column) (Nat.cast row)) seconds pace).1 =
        .lines (s.readoutOf column row).lines
  /-- A finite value that is read out has the color of its pixel. -/
  value : ∀ column row v, column < s.size.width → row < s.size.height → (s.readoutOf column row).output = .ok v →
    v.value.isFinite = true → picture.image.pixel? column row = some (s.shading.color v.value)
  /-- A pixel is white without a finite value, or with one whose color is white, and not otherwise. -/
  white : ∀ column row, column < s.size.width → row < s.size.height →
    (picture.image.pixel? column row = some .undefined ↔
      ¬(s.readoutOf column row).Finite ∨
        ∃ v, (s.readoutOf column row).output = .ok v ∧ s.shading.color v.value = .undefined)
  /-- The picture counts the pixels without a finite value. -/
  undefinedPixels : picture.undefinedPixels =
    ((Finset.range s.size.width ×ˢ Finset.range s.size.height).filter
      fun pixel => ¬(s.readoutOf pixel.1 pixel.2).Finite).card

/-- Readouts agree with the picture of what was chosen last. -/
theorem Traced.agreesWith_picture {s : Session} (h : s.Traced) : s.AgreesWith s.drawing.picture where
  answered := fun column row _ _ => h.point_answered column row
  value := by
    intro column row v hc hr output finite
    rw [s.drawing.pixel?_picture hc hr, Drawing.pixelColor_of_value (output_readoutOf_eq_ok.1 output).1 finite]
    rfl
  white := by
    intro column row hc hr
    rw [s.drawing.pixel?_picture hc hr, Option.some.injEq, Drawing.pixelColor_eq_undefined_iff, finite_readoutOf]
    refine or_congr_right ⟨?_, ?_⟩
    · rintro ⟨w, value, white⟩
      exact ⟨.of w, output_readoutOf_eq_ok.2 ⟨value, rfl⟩, white⟩
    · rintro ⟨v, output, white⟩
      exact ⟨v.value, (output_readoutOf_eq_ok.1 output).1, white⟩
  undefinedPixels := by
    refine (s.drawing.undefinedOf_range _).trans (congrArg Finset.card (Finset.filter_congr fun pixel _ => ?_))
    exact not_congr finite_readoutOf.symm

/-- So they agree with the frame of the latest generation. -/
theorem Traced.agreesWith {s : Session} (h : s.Traced) {frame : Frame Float} (shown : s.renderer.current = some frame)
    (latest : frame.generation = s.renderer.latest) : s.AgreesWith frame.picture := by
  obtain ⟨-, -, rendered⟩ := h.shownBy shown latest
  rw [Drawing.render_of_accepted h.accepted, Except.ok.injEq] at rendered
  rw [← rendered]
  exact h.agreesWith_picture

/-- Whatever preferences a session starts with, and whatever commands and scripts it is given while the worker takes its steps at
any moment: once it shows the picture of the latest generation, the cursor reads out at every pixel what the picture shows
there. -/
theorem readout_agrees (p : Preferences) (directory : String) (first : Pace) (ms : List SessionMove) :
    let s := (start p directory first).moves ms
    (∀ frame, s.renderer.current = some frame → frame.generation = s.renderer.latest → s.AgreesWith frame.picture) ∧
      ∀ around turn disk script frame,
        let s' := (s.run around turn disk script).session
        s'.renderer.current = some frame → frame.generation = s'.renderer.latest → s'.AgreesWith frame.picture := by
  intro s
  have h : s.Traced := (Traced.start p directory first).moves ms
  exact ⟨fun frame => h.agreesWith, fun around turn disk script frame => (h.run around turn disk script).agreesWith⟩

/-- The inverse at zero and at one half, side by side. -/
theorem pole_shown_white :
    let fields : PlotFields := ⟨"z inv", "1", "0", "0", "-1"⟩
    let p : Preferences := { Preferences.standard with preview := ⟨2, 1⟩ }
    let s := (start p "" .onDemand).moves [.execute (.plot fields) 0 .onDemand, .execute .wait 0 .onDemand]
    ∃ frame, s.renderer.current = some frame ∧ frame.generation = s.renderer.latest ∧
      ¬(s.readoutOf 0 0).Finite ∧ frame.picture.image.pixel? 0 0 = some .undefined ∧ frame.picture.undefinedPixels = 1 := by
  intro fields p s
  have agrees : ∀ frame, s.renderer.current = some frame → frame.generation = s.renderer.latest → s.AgreesWith frame.picture :=
    (readout_agrees p "" .onDemand [.execute (.plot fields) 0 .onDemand, .execute .wait 0 .onDemand]).1
  have isShown : s.renderer.current.isSome = true := by decide +kernel
  have current : ∀ frame ∈ s.renderer.current, frame.generation = s.renderer.latest := by decide +kernel
  have size : s.size = ⟨2, 1⟩ := by decide +kernel
  have pole : ¬(s.readoutOf 0 0).Finite := by decide +kernel
  have undefinedPixels : ∀ frame ∈ s.renderer.current, frame.picture.undefinedPixels = 1 := by decide +kernel
  -- What remains holds of any such session, and this one is better not unfolded.
  clear_value s
  obtain ⟨frame, shown⟩ := Option.isSome_iff_exists.1 isShown
  have latest := current frame shown
  have white := (agrees frame shown latest).white 0 0 (by rw [size]; decide) (by rw [size]; decide)
  exact ⟨frame, shown, latest, pole, white.2 (.inl pole), undefinedPixels frame shown⟩

end Session

end DomainColoring
