import DomainColoring.Proofs.Session.Committed

/-!
# What a session stands at

Apart from how far its pictures are, a session is what was chosen in it and how often a picture was asked for. The worker has no
part in that: at whatever moments it takes its steps, a command is answered in one of a few ways, each of which says what the
session stands at afterwards (`Session.Performed`). Whatever is said of replies and of what commands leave follows from these.
-/

namespace DomainColoring

/-- Whether a command asks for another picture in a session of the given size: it chooses a plot, or another size. -/
def Command.redraws (size : Size) : Command → Bool
  | plot fields => (Plot.ofFields fields).isOk
  | .size other => other.Accepted && other ≠ size
  | _ => false

/-- Nothing more is read after this reply. -/
def Reply.isQuit : Reply → Bool
  | quit => true
  | _ => false

/-- A session apart from how far its pictures are. -/
structure Standing where
  plot : Plot Float
  size : Size
  cursor : Option (Float × Float)
  shading : Shading Float
  exportHeight : Nat
  imagesDirectory : String
  /-- The generation of the latest request. -/
  latest : Nat

/-- What a command makes of it. -/
def Standing.after (s : Standing) : Command → Standing
  | .plot fields =>
    match Plot.ofFields fields with
    | .ok plot => { s with plot, latest := s.latest + 1 }
    | .error _ => s
  | .size size => if size.Accepted ∧ size ≠ s.size then { s with size, latest := s.latest + 1 } else s
  | .point column row => { s with cursor := some (column, row) }
  | _ => s

/-- Commands that ask for another picture advance the latest generation by one, and no others do. -/
theorem Standing.latest_after (s : Standing) (command : Command) :
    (s.after command).latest = s.latest + if command.redraws s.size then 1 else 0 := by
  cases command with
  | plot fields =>
    rw [after, Command.redraws]
    cases Plot.ofFields fields <;> rfl
  | size size =>
    rw [after, Command.redraws]
    by_cases another : size.Accepted ∧ size ≠ s.size <;> simp [another]
  | _ => rfl

/-- A request advances the latest generation by one, whatever the worker does meanwhile. -/
theorem Renderer.latest_request {α : Type} [Add α] [Sub α] [Mul α] [Div α] [Neg α] [BEq α] [NatCast α] [Elementary α] [Scalar α]
    [LT α] [DecidableLT α] (r : Renderer α) (drawing : Drawing α) (meanwhile : Renderer α → List WorkerStep) :
    (r.request drawing meanwhile).latest = r.latest + 1 :=
  r.cancel.latest_work _

namespace Session

/-- What a session stands at. -/
def standing (s : Session) : Standing where
  plot := s.plot
  size := s.size
  cursor := s.cursor
  shading := s.shading
  exportHeight := s.exportHeight
  imagesDirectory := s.imagesDirectory
  latest := s.renderer.latest

/-- Asking for a picture changes nothing but the latest generation. -/
theorem standing_redraw (s : Session) (pace : Pace) :
    (s.redraw pace).standing = { s.standing with latest := s.renderer.latest + 1 } := by
  simp only [standing, redraw, Renderer.latest_request]

/-- What a session begins with. -/
theorem standing_start (p : Preferences) (directory : String) (first : Pace) :
    (start p directory first).standing =
      { plot := p.initialPlot
        size := p.previewSize
        cursor := none
        shading := p.shading
        exportHeight := p.exportHeightAtLeastOne
        imagesDirectory := p.imagesPath directory
        latest := 1 } :=
  standing_redraw _ first

@[simp] theorem standing_polled (s : Session) : s.polled.standing = s.standing := by
  simp only [standing, polled, Renderer.poll, Renderer.deliverAll_asks_nothing]

@[simp] theorem standing_work (s : Session) (steps : List WorkerStep) :
    ({ s with renderer := s.renderer.work steps } : Session).standing = s.standing := by
  simp only [standing, Renderer.latest_work]

/-! ## What each command answers and leaves -/

/-- An accepted submission is answered by its generation, and its plot is chosen. -/
theorem submit_of_ok (s : Session) {fields : PlotFields} {plot : Plot Float} (accepted : Plot.ofFields fields = .ok plot)
    (pace : Pace) : (s.submit fields pace).1 = .lines ["rendering generation " ++ toString (s.renderer.latest + 1)] ∧
      (s.submit fields pace).2.standing = { s.standing with plot, latest := s.renderer.latest + 1 } := by
  unfold submit
  rw [accepted]
  exact ⟨by simp only [drawingReply, redraw, Renderer.latest_request]; rfl, standing_redraw _ pace⟩

/-- A rejected submission is answered by its rejection and changes nothing. -/
theorem submit_of_error (s : Session) {fields : PlotFields} {rejection : Rejection}
    (rejected : Plot.ofFields fields = .error rejection) (pace : Pace) :
    s.submit fields pace = (.failed (.rejected rejection), s) := by
  unfold submit
  rw [rejected]

/-- Another accepted size is answered by its generation, and chosen. -/
theorem resize_of_ne (s : Session) {size : Size} (accepted : size.Accepted) (ne : size ≠ s.size) (pace : Pace) :
    (s.resize size pace).1 = .lines ["rendering generation " ++ toString (s.renderer.latest + 1)] ∧
      (s.resize size pace).2.standing = { s.standing with size, latest := s.renderer.latest + 1 } := by
  unfold resize
  rw [if_pos accepted, if_neg ne]
  exact ⟨by simp only [drawingReply, redraw, Renderer.latest_request], standing_redraw _ pace⟩

/-- A size that is not accepted is refused and changes nothing. -/
theorem resize_of_refused (s : Session) {size : Size} (refused : ¬size.Accepted) (pace : Pace) :
    s.resize size pace = (.failed (.size ⟨size⟩), s) :=
  if_neg refused

theorem standing_wait (s : Session) (pace : Pace) : (s.wait pace).2.standing = s.standing := by
  rw [wait_snd]
  simp only [standing, Renderer.latest_waitDuring]

namespace Traced

variable {s : Session}

/-- A readout is never refused, as there is no session without pixels. -/
theorem readoutAt_eq (h : s.Traced) (column row : Float) :
    s.plot.readoutAt s.size column row = .ok (s.plot.readout s.size (s.plot.viewport.pointAt s.size column row)) := by
  have pixels : ¬(s.size.width = 0 ∨ s.size.height = 0) := by
    obtain ⟨width, height, -⟩ := h.accepted
    omega
  exact if_neg pixels

/-- The cursor is answered by the readout at its place. -/
theorem moveCursor_eq (h : s.Traced) (column row : Float) :
    s.moveCursor column row =
      (.lines (s.plot.readout s.size (s.plot.viewport.pointAt s.size column row)).lines,
        { s with cursor := some (column, row) }.notify (.cursorMoved column row)) := by
  rw [Session.moveCursor, h.readoutAt_eq]

end Traced

/-- How a command can be answered, and what a session stands at then. -/
inductive Performed (s : Session) : Command → Reply → Standing → Prop where
  | chosen {fields : PlotFields} {plot : Plot Float} (accepted : Plot.ofFields fields = .ok plot) :
      Performed s (.plot fields) (.lines ["rendering generation " ++ toString (s.renderer.latest + 1)])
        { s.standing with plot, latest := s.renderer.latest + 1 }
  | rejected {fields : PlotFields} {rejection : Rejection} (rejected : Plot.ofFields fields = .error rejection) :
      Performed s (.plot fields) (.failed (.rejected rejection)) s.standing
  | resized {size : Size} (accepted : size.Accepted) (another : size ≠ s.size) :
      Performed s (.size size) (.lines ["rendering generation " ++ toString (s.renderer.latest + 1)])
        { s.standing with size, latest := s.renderer.latest + 1 }
  | unchanged : Performed s (.size s.size) (.lines ["size unchanged"]) s.standing
  | refused {size : Size} (refused : ¬size.Accepted) : Performed s (.size size) (.failed (.size ⟨size⟩)) s.standing
  | moved (column row : Float) :
      Performed s (.point column row) (.lines (s.plot.readout s.size (s.plot.viewport.pointAt s.size column row)).lines)
        { s.standing with cursor := some (column, row) }
  | waited (frame : Frame Float) : Performed s .wait (.lines [frameLine frame]) s.standing
  | timedOut : Performed s .wait (.lines ["no image"]) s.standing
  | exported {path : Option String} {seconds : Nat} {picture : Export}
      (drawn : s.plot.exported s.exportHeight s.shading (path.getD (s.timedPath seconds)) = .ok picture) :
      Performed s (.save path) (.save picture) s.standing
  | undrawn {path : Option String} {seconds : Nat} {error : RenderError}
      (refused : s.plot.exported s.exportHeight s.shading (path.getD (s.timedPath seconds)) = .error error) :
      Performed s (.save path) (.failed (.render error)) s.standing
  | told : Performed s .status (.lines s.statusLines) s.standing
  | quit : Performed s .quit .quit s.standing

/-- A command is answered in one of these ways, whatever the worker does. -/
theorem Traced.performed {s : Session} (h : s.Traced) (command : Command) (seconds : Nat) (pace : Pace) :
    s.Performed command (s.perform command seconds pace).1 (s.perform command seconds pace).2.standing := by
  cases command with
  | plot fields =>
    rw [Session.perform]
    cases outcome : Plot.ofFields fields with
    | error rejection =>
      rw [s.submit_of_error outcome]
      exact .rejected outcome
    | ok plot =>
      obtain ⟨reply, standing⟩ := s.submit_of_ok outcome pace
      rw [reply, standing]
      exact .chosen outcome
  | size size =>
    rw [Session.perform]
    by_cases accepted : size.Accepted
    · by_cases same : size = s.size
      · rw [same, h.resize_same]
        exact .unchanged
      · obtain ⟨reply, standing⟩ := s.resize_of_ne accepted same pace
        rw [reply, standing]
        exact .resized accepted same
    · rw [s.resize_of_refused accepted]
      exact .refused accepted
  | point column row =>
    rw [Session.perform, h.moveCursor_eq]
    exact .moved column row
  | wait =>
    rw [Session.perform, standing_wait, h.wait_fst]
    split
    · exact .waited _
    · exact .timedOut
  | save path =>
    rw [Session.perform, Plot.saveReply]
    cases drawn : s.plot.exported s.exportHeight s.shading (path.getD (s.timedPath seconds)) with
    | error error => exact .undrawn drawn
    | ok picture => exact .exported drawn
  | status => exact .told
  | quit => exact .quit

namespace Performed

variable {s : Session} {command : Command} {reply : Reply} {after : Standing}

/-- What a command leaves does not depend on the worker. -/
theorem standing_eq (performed : s.Performed command reply after) : after = s.standing.after command := by
  cases performed with
  | chosen accepted => rw [Standing.after, accepted]; rfl
  | rejected rejected => rw [Standing.after, rejected]
  | resized accepted another => exact (if_pos ⟨accepted, another⟩).symm
  | unchanged => exact (if_neg fun another => another.2 rfl).symm
  | refused refused => exact (if_neg fun another => refused another.1).symm
  | _ => rfl

/-- Only the command to quit is answered so. -/
theorem isQuit_iff (performed : s.Performed command reply after) : reply.isQuit = true ↔ command = .quit := by
  cases performed <;> simp [Reply.isQuit]

/-- A command whose reply is an error, on whatever disk, leaves all as it is. -/
theorem eq_of_failed (performed : s.Performed command reply after) {d : Disk} {error : ReplyError}
    (failed : (reply.settle d).1 = .error error) : after = s.standing := by
  -- Where something changes, the reply has lines, and these are no error on any disk.
  cases performed with
  | chosen => cases failed
  | resized => cases failed
  | moved => cases failed
  | _ => rfl

/-- A command that asks for another picture is told its generation. -/
theorem reply_of_redraws (performed : s.Performed command reply after) (redraws : command.redraws s.size = true) :
    reply = .lines ["rendering generation " ++ toString (s.renderer.latest + 1)] := by
  cases performed with
  | chosen => rfl
  | resized => rfl
  | rejected rejected =>
    rw [Command.redraws, rejected] at redraws
    cases redraws
  | _ => simp_all [Command.redraws]

end Performed

end Session

end DomainColoring
