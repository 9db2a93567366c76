import DomainColoring.Proofs.Render.Pixels
import DomainColoring.Proofs.Renderer.Outcomes
import DomainColoring.Session.Basic

/-!
# What a session shows

A session asks for a picture whenever it chooses another plot or size, and never otherwise, so its latest request is always for
what was chosen last (`Session.Traced`). What is shown under the generation of that request is therefore the plot that was chosen
last, at the size that was chosen last, and a wait ends with it unless it takes too long (`Session.committed_moves`).
-/

namespace DomainColoring

open History

/-- The size of the preview is an accepted one, whatever was preferred. -/
theorem Preferences.previewSize_accepted (p : Preferences) : p.previewSize.Accepted := by
  unfold previewSize
  split
  · assumption
  · decide

/-- What can happen to a session. A command is carried out as a whole, or taken apart into the poll that it begins with and what
it asks for, so that the worker can take steps between the two. -/
inductive SessionMove where
  /-- Polls and waits of the renderer, and steps of its worker, in any order. -/
  | quiet (ms : List (Move Float))
  | perform (command : Command) (seconds : Nat) (pace : Pace)
  | execute (command : Command) (seconds : Nat) (pace : Pace)

namespace Session

/-- The session after a move. Polls and waits that are not over in the end do not count. -/
def move (s : Session) : SessionMove → Session
  | .quiet ms =>
    match (⟨s.renderer, .free, []⟩ : System Float).moves (ms.filter Move.isQuiet) with
    | ⟨renderer, .free, _⟩ => { s with renderer }
    | _ => s
  | .perform command seconds pace => (s.perform command seconds pace).2
  | .execute command seconds pace => (s.execute command seconds pace).2

/-- The session after a row of moves. -/
def moves (s : Session) (ms : List SessionMove) : Session :=
  ms.foldl move s

/-- The session after the poll that a command begins with. -/
def polled (s : Session) : Session :=
  { s with renderer := s.renderer.poll.2 }

/-! ## The latest request is for what was chosen last -/

/-- The renderer has been asked for drawings of accepted sizes only, and last for the drawing of what was chosen last. -/
def Traced (s : Session) : Prop :=
  ∃ history, s.renderer.Orderly history ∧ Issued history s.renderer.latest s.drawing

namespace Traced

variable {s s' : Session}

theorem accepted (h : s.Traced) : s.size.Accepted := by
  obtain ⟨history, orderly, issued⟩ := h
  exact orderly.accepted s.drawing issued.requested_mem

/-- Nothing changes as long as nothing is requested and nothing chosen. -/
theorem of_quiet (h : s.Traced) (drawing : s'.drawing = s.drawing) (latest : s'.renderer.latest = s.renderer.latest)
    (orderly : ∀ history, s.renderer.Orderly history → ∃ more, s'.renderer.Orderly (history ++ more)) : s'.Traced := by
  obtain ⟨history, h, issued⟩ := h
  obtain ⟨more, h'⟩ := orderly history h
  rw [← drawing, ← latest] at issued
  exact ⟨_, h', issued.append more⟩

/-- Asking for what was chosen last makes it the latest request. -/
theorem redraw {history : List (Occurrence Float)} (orderly : s.renderer.Orderly history) (accepted : s.size.Accepted)
    (pace : Pace) : (s.redraw pace).Traced := by
  have sent : s.drawing.size.Accepted := accepted
  exact orderly.request sent pace.insideRequest

/-- A session begins with a request for what it shows. -/
theorem start (p : Preferences) (directory : String) (pace : Pace) : (start p directory pace).Traced :=
  redraw .initial p.previewSize_accepted pace

/-- After a submission the latest request is for what was chosen last. -/
theorem submit (h : s.Traced) (fields : PlotFields) (pace : Pace) : (s.submit fields pace).2.Traced := by
  unfold Session.submit
  cases Plot.ofFields fields with
  | error rejection => exact h
  | ok plot =>
    have accepted := h.accepted
    obtain ⟨history, orderly, -⟩ := h
    exact redraw (s := { s with plot }.notify .inputChanged) (orderly.notify _) accepted pace

/-- After a change of size it is, too. -/
theorem resize (h : s.Traced) (size : Size) (pace : Pace) : (s.resize size pace).2.Traced := by
  unfold Session.resize
  by_cases accepted : size.Accepted
  · rw [if_pos accepted]
    by_cases same : size = s.size
    · rw [if_pos same]
      exact h
    · rw [if_neg same]
      obtain ⟨history, orderly, -⟩ := h
      exact redraw (s := { s with size }) orderly accepted pace
  · rw [if_neg accepted]
    exact h

/-- The cursor has no part in it. -/
theorem moveCursor (h : s.Traced) (column row : Float) : (s.moveCursor column row).2.Traced := by
  unfold Session.moveCursor
  cases s.plot.readoutAt s.size column row with
  | error refusal => exact h
  | ok readout =>
    obtain ⟨history, orderly, issued⟩ := h
    exact ⟨history, orderly.notify _, issued⟩

end Traced

/-- A wait changes nothing but the renderer. -/
theorem wait_snd (s : Session) (pace : Pace) :
    (s.wait pace).2 =
      { s with renderer := (s.renderer.waitDuring s.renderer.latest (pace.whileWaiting s.renderer)).2 } := by
  unfold wait
  rcases s.renderer.waitDuring s.renderer.latest (pace.whileWaiting s.renderer) with ⟨_ | _ | _, r⟩ <;> rfl

namespace Traced

variable {s : Session}

theorem wait (h : s.Traced) (pace : Pace) : (s.wait pace).2.Traced := by
  rw [wait_snd]
  exact h.of_quiet rfl (s.renderer.latest_waitDuring _ _) fun _ orderly => (orderly.wait _ _).2

theorem polled (h : s.Traced) : s.polled.Traced :=
  h.of_quiet rfl (s.renderer.deliverAll_asks_nothing none _).1 fun _ orderly => orderly.poll.2

/-- After every command the latest request is for what was chosen last. -/
theorem perform (h : s.Traced) (command : Command) (seconds : Nat) (pace : Pace) :
    (s.perform command seconds pace).2.Traced := by
  cases command with
  | plot fields => exact h.submit fields pace
  | size size => exact h.resize size pace
  | point column row => exact h.moveCursor column row
  | wait => exact h.wait pace
  | save path => exact h
  | status => exact h
  | quit => exact h

/-- The poll that a command begins with does not fail. -/
theorem execute_eq (h : s.Traced) (command : Command) (seconds : Nat) (pace : Pace) :
    s.execute command seconds pace = s.polled.perform command seconds pace := by
  obtain ⟨history, orderly, -⟩ := h
  obtain ⟨⟨installed, ok⟩, -⟩ := orderly.poll
  unfold Session.execute Session.polled
  rcases polled : s.renderer.poll with ⟨_ | _, r⟩
  · rw [polled] at ok
    cases ok
  · rfl

theorem quiet (h : s.Traced) (ms : List (Move Float)) : (s.move (.quiet ms)).Traced := by
  have latest := System.latest_moves_quiet ⟨s.renderer, .free, []⟩ ms
  simp only [Session.move]
  rcases ends : (⟨s.renderer, .free, []⟩ : System Float).moves (ms.filter Move.isQuiet) with ⟨r, _ | _ | _ | _, more⟩
  · rw [ends] at latest
    exact h.of_quiet rfl latest fun _ orderly => ⟨more, orderly.quiet ends⟩
  all_goals exact h

theorem move (h : s.Traced) (m : SessionMove) : (s.move m).Traced := by
  cases m with
  | quiet ms => exact h.quiet ms
  | perform command seconds pace => exact h.perform command seconds pace
  | execute command seconds pace =>
    have performed := h.polled.perform command seconds pace
    rwa [← h.execute_eq] at performed

theorem moves (h : s.Traced) (ms : List SessionMove) : (s.moves ms).Traced := by
  induction ms generalizing s with
  | nil => exact h
  | cons m ms ih => exact ih (h.move m)

theorem work (h : s.Traced) (steps : List WorkerStep) : ({ s with renderer := s.renderer.work steps } : Session).Traced :=
  h.of_quiet rfl (s.renderer.latest_work steps) fun history orderly => ⟨[], by simpa using orderly.work steps⟩

/-- Every line keeps it, whether a command is read from it or not. -/
theorem line (h : s.Traced) (text : String) (seconds : Nat) (pace : Pace) : (s.line text seconds pace).2.Traced := by
  unfold Session.line
  dsimp only
  split
  · exact h
  · split
    · exact h
    · exact h.move (.execute _ seconds pace)

/-- What becomes of the reply on a disk makes no difference to that. -/
theorem settledLine (h : s.Traced) (d : Disk) (text : String) (seconds : Nat) (pace : Pace) :
    (s.settledLine d text seconds pace).2.2.1.Traced := by
  have told := (h.work (pace.before s.renderer)).line text seconds pace
  unfold Session.settledLine
  dsimp only
  split <;> exact told

/-- In the end of a script the latest request is for what was chosen last, whatever its lines say. -/
theorem run (h : s.Traced) (around : Surroundings) (turn : Nat) (d : Disk) (lines : List (Option String)) :
    (s.run around turn d lines).session.Traced := by
  induction lines generalizing s turn d with
  | nil => exact h
  | cons text lines ih =>
    cases text with
    | none => exact h
    | some text =>
      have settled := h.settledLine d text (around.seconds turn) (around.pace turn)
      rw [Session.run]
      rcases told : s.settledLine d text (around.seconds turn) (around.pace turn) with ⟨reply, shown, s', d'⟩
      rw [told] at settled
      cases reply with
      | quit => exact settled
      | _ => exact ih settled (turn + 1) d'

end Traced

/-! ## What is shown -/

/-- A frame shows what was chosen last, at the size that was chosen last. -/
def ShownBy (s : Session) (frame : Frame Float) : Prop :=
  frame.plot = s.plot ∧ frame.picture.image.size = s.size ∧ s.drawing.render = .ok frame.picture

/-- A wait takes too long. -/
def TimesOut (s : Session) (pace : Pace) : Prop :=
  s.renderer.TimesOut s.renderer.latest (pace.whileWaiting s.renderer)

/-- A wait has told of the frame that is shown now, and it shows what was chosen last. -/
def Told (s : Session) (reply : Reply) : Prop :=
  ∃ frame, reply = .lines [frameLine frame] ∧ s.renderer.current = some frame ∧ frame.generation = s.renderer.latest ∧
    s.ShownBy frame

/-- What is on its way and what is shown is what was chosen last. -/
structure Committed (s : Session) : Prop where
  /-- The job of the latest generation is for the plot, the size and the shading that were chosen last. -/
  serves : s.renderer.Serves s.drawing
  shown : ∀ frame, s.renderer.current = some frame → frame.generation = s.renderer.latest → s.ShownBy frame
  waited : ∀ pace, ¬s.TimesOut pace → (s.wait pace).2.Told (s.wait pace).1
  timedOut : ∀ pace, s.TimesOut pace → (s.wait pace).1 = .lines ["no image"]

namespace Traced

variable {s : Session}

/-- The renderer works for what was chosen last, or shows it. -/
theorem serves (h : s.Traced) : s.renderer.Serves s.drawing := by
  obtain ⟨history, orderly, issued⟩ := h
  exact orderly.serves issued

/-- A frame of the latest generation shows what was chosen last. -/
theorem shownBy (h : s.Traced) {frame : Frame Float} (shown : s.renderer.current = some frame)
    (latest : frame.generation = s.renderer.latest) : s.ShownBy frame := by
  obtain ⟨plot, rendered⟩ := h.serves.shown frame shown latest
  refine ⟨plot, ?_, rendered⟩
  have whole := rendered
  rw [Drawing.render_of_accepted h.accepted, Except.ok.injEq] at whole
  rw [← whole]
  exact s.drawing.size_imageOf _

/-- A wait tells of the frame that is shown in the end, if it is of the latest generation. -/
theorem wait_fst (h : s.Traced) (pace : Pace) :
    (s.wait pace).1 = match (s.wait pace).2.renderer.frame? (s.wait pace).2.renderer.latest with
      | some frame => .lines [frameLine frame]
      | none => .lines ["no image"] := by
  obtain ⟨history, orderly, -⟩ := h
  have returned := (orderly.wait s.renderer.latest (pace.whileWaiting s.renderer)).1
  have latest := s.renderer.latest_waitDuring s.renderer.latest (pace.whileWaiting s.renderer)
  unfold Session.wait
  rcases waited : s.renderer.waitDuring s.renderer.latest (pace.whileWaiting s.renderer) with ⟨error | frame, r⟩
  · rw [waited] at returned
    cases returned
  · rw [waited, Except.ok.injEq] at returned
    rw [waited] at latest
    have found : r.frame? r.latest = frame := (congrArg r.frame? latest).trans returned.symm
    cases frame <;> simp only [found]

/-- A wait takes too long exactly if the latest generation is still awaited when it ends. -/
theorem timesOut_iff (h : s.Traced) (pace : Pace) :
    s.TimesOut pace ↔ (s.wait pace).2.renderer.Awaits (s.wait pace).2.renderer.latest := by
  obtain ⟨history, orderly, -⟩ := h
  have returned := (orderly.wait s.renderer.latest (pace.whileWaiting s.renderer)).1
  rw [TimesOut, Renderer.timesOut_iff _ _ _ returned, wait_snd]
  simp only [Renderer.latest_waitDuring]

/-- A wait that is over in time tells of the frame that is shown. -/
theorem told (h : s.Traced) {pace : Pace} (inTime : ¬s.TimesOut pace) : (s.wait pace).2.Told (s.wait pace).1 := by
  have reply := h.wait_fst pace
  have after := h.wait pace
  obtain ⟨history, orderly, -⟩ := id after
  obtain ⟨frame, shown, latest⟩ := orderly.shown_of_not_awaits (mt (h.timesOut_iff pace).2 inTime)
  have found : (s.wait pace).2.renderer.frame? (s.wait pace).2.renderer.latest = some frame := by
    simp [Renderer.frame?, shown, latest]
  rw [found] at reply
  exact ⟨frame, reply, shown, latest, after.shownBy shown latest⟩

/-- A wait that takes too long tells of no image. -/
theorem timedOut (h : s.Traced) {pace : Pace} (late : s.TimesOut pace) : (s.wait pace).1 = .lines ["no image"] := by
  obtain ⟨-, awaited⟩ := (h.timesOut_iff pace).1 late
  have missing : (s.wait pace).2.renderer.frame? (s.wait pace).2.renderer.latest = none := by
    rw [Renderer.frame?, Option.filter_eq_none_iff]
    intro frame shown latest
    exact Nat.ne_of_lt (awaited frame shown) (of_decide_eq_true latest)
  rw [h.wait_fst, missing]

/-- A size that is not another one is not asked for again. -/
theorem resize_same (h : s.Traced) (pace : Pace) : s.resize s.size pace = (.lines ["size unchanged"], s) := by
  rw [Session.resize, if_pos h.accepted, if_pos rfl]

/-- So what is on its way and what is shown is what was chosen last. -/
theorem committed (h : s.Traced) : s.Committed where
  serves := h.serves
  shown := fun _ => h.shownBy
  waited := fun _ => h.told
  timedOut := fun _ => h.timedOut

end Traced

/-- Whatever preferences a session starts with, and whatever commands it is given while the worker takes its steps at any moment:
what is on its way or shown under the latest generation is what was chosen last, and a wait ends with it unless it takes too long.
So it is after every command and after every script. A command begins with a poll that never fails, and nothing more comes of one
for the same size as before: no job is issued. -/
theorem committed_moves (p : Preferences) (directory : String) (first : Pace) (ms : List SessionMove) :
    let s := (start p directory first).moves ms
    s.Committed ∧
      (∀ command seconds pace, s.execute command seconds pace = s.polled.perform command seconds pace ∧
        (s.execute command seconds pace).2.Committed) ∧
      (∀ seconds pace, s.execute (.size s.size) seconds pace = (.lines ["size unchanged"], s.polled) ∧
        s.polled.drawing = s.drawing ∧ s.polled.renderer.latest = s.renderer.latest ∧
        s.polled.renderer.requests = s.renderer.requests) ∧
      ∀ around turn disk lines, (s.run around turn disk lines).session.Committed := by
  intro s
  have h : s.Traced := (Traced.start p directory first).moves ms
  obtain ⟨latest, requests⟩ := s.renderer.deliverAll_asks_nothing none s.renderer.responses
  refine ⟨h.committed, fun command seconds pace => ⟨h.execute_eq command seconds pace, ?_⟩, fun seconds pace => ?_,
    fun around turn disk lines => (h.run around turn disk lines).committed⟩
  · exact (h.move (.execute command seconds pace)).committed
  · exact ⟨(h.execute_eq _ seconds pace).trans (h.polled.resize_same pace), rfl, latest, requests⟩

/-- A preview of two rows, whose worker takes the request up while the session polls, and is waited for. -/
theorem first_picture_shown :
    let p : Preferences := { Preferences.standard with preview := ⟨1, 2⟩ }
    let s := (start p "" .onDemand).moves [.quiet [.poll, .work .receive, .finish]]
    ¬s.TimesOut .onDemand ∧ (s.wait .onDemand).2.renderer.latest = 1 ∧ (s.wait .onDemand).2.Told (s.wait .onDemand).1 := by
  intro p s
  have inTime : ¬s.TimesOut .onDemand := by
    rw [((Traced.start p "" .onDemand).moves _).timesOut_iff]
    decide +kernel
  have first : (s.wait .onDemand).2.renderer.latest = 1 := by decide +kernel
  have committed : s.Committed := (committed_moves p "" .onDemand [.quiet [.poll, .work .receive, .finish]]).1
  -- What remains holds of any such session, and this one is better not unfolded.
  clear_value s
  exact ⟨inTime, first, committed.waited .onDemand inTime⟩

end Session

end DomainColoring
