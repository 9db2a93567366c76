import DomainColoring.Proofs.Session.Turns

/-!
# Sessions and the time that renders take

When the worker takes its steps has a part in how long a render takes, in how many rows are done at a moment, and in which picture
is shown before one is waited for. It has none in anything else that a script writes, keeps in files or leaves behind, as long as
no wait takes too long (`Session.same_but_for_time`).
-/

namespace DomainColoring

namespace Session

/-! ## Lines and replies that differ in time only -/

/-- The line of a status that tells how far the picture is. -/
def sizeLine (size : Size) (generation done total : Nat) : String :=
  "size: " ++ size.text ++ ", generation " ++ toString generation ++ ", rows " ++ toString done ++ "/" ++ toString total

/-- The line of a status that tells which picture is shown. -/
def imageLine : Option (Frame Float) → String
  | some frame => "image: generation " ++ toString frame.generation
  | none => "image: none"

/-- The line of a status that tells where the cursor is. -/
def cursorLine : Option (Float × Float) → String
  | some (column, row) => "cursor: (" ++ Decimal.shortestText column ++ ", " ++ Decimal.shortestText row ++ ")"
  | none => "cursor: none"

/-- A status has four lines, of which two depend on time. -/
theorem statusLines_eq (s : Session) :
    s.statusLines = ["plot: " ++ describe s.plot.expression.source s.plot.viewport,
      sizeLine s.size s.renderer.latest s.renderer.handle.done s.renderer.handle.total, cursorLine s.cursor,
      imageLine s.renderer.current] := by
  unfold statusLines
  cases s.cursor <;> cases s.renderer.current <;> rfl

/-- Two lines that are the same, apart from the milliseconds that a render took, the count of rows that are done, and the picture
that a status finds. -/
inductive SameButForTime : String → String → Prop where
  | same (line : String) : SameButForTime line line
  | ready (frame : Frame Float) (elapsed : Nat) : SameButForTime (frameLine frame) (frameLine { frame with elapsed })
  | rows (size : Size) (generation done total done' total' : Nat) :
      SameButForTime (sizeLine size generation done total) (sizeLine size generation done' total')
  | image (shown shown' : Option (Frame Float)) : SameButForTime (imageLine shown) (imageLine shown')

/-- Two replies with lines of that kind, or the same reply. -/
inductive RepliesAlike : Reply → Reply → Prop where
  | same (reply : Reply) : RepliesAlike reply reply
  | lines {ls ls' : List String} (each : List.Forall₂ SameButForTime ls ls') : RepliesAlike (.lines ls) (.lines ls')

variable {s s' : Session}

/-- Two sessions that stand at the same differ in their renderers at most. -/
theorem eq_of_standing (same : s'.standing = s.standing) :
    ∃ renderer : Renderer Float, s' = { s with renderer } ∧ renderer.latest = s.renderer.latest := by
  obtain ⟨plot, size, cursor, shading, exportHeight, imagesDirectory, renderer⟩ := s
  obtain ⟨plot', size', cursor', shading', exportHeight', imagesDirectory', renderer'⟩ := s'
  simp only [standing, Standing.mk.injEq] at same
  obtain ⟨rfl, rfl, rfl, rfl, rfl, rfl, latest⟩ := same
  exact ⟨renderer', rfl, latest⟩

/-- Two sessions that stand at the same have the same status but for time. -/
theorem statusLines_alike (same : s'.standing = s.standing) : List.Forall₂ SameButForTime s.statusLines s'.statusLines := by
  obtain ⟨renderer, rfl, latest⟩ := eq_of_standing same
  rw [statusLines_eq, statusLines_eq]
  dsimp only
  rw [latest]
  exact .cons (.same _) (.cons (.rows _ _ _ _ _ _) (.cons (.same _) (.cons (.image _ _) .nil)))

namespace Traced

/-- Two waits that do not take too long end with the same picture. -/
theorem wait_alike (h : s.Traced) (h' : s'.Traced) (same : s'.standing = s.standing) {pace pace' : Pace}
    (inTime : ¬s.TimesOut pace) (inTime' : ¬s'.TimesOut pace') : RepliesAlike (s.wait pace).1 (s'.wait pace').1 := by
  obtain ⟨frame, told, -, latest, plot, -, rendered⟩ := h.told inTime
  obtain ⟨frame', told', -, latest', plot', -, rendered'⟩ := h'.told inTime'
  have after : (s'.wait pace').2.standing = (s.wait pace).2.standing := by
    rw [standing_wait, standing_wait, same]
  -- Both frames show what was chosen last under the same generation, so there is only the time left to differ in.
  obtain ⟨renderer, others, number⟩ := eq_of_standing after
  rw [others] at latest' plot' rendered'
  have picture : frame'.picture = frame.picture := Except.ok.inj (rendered'.symm.trans rendered)
  have only : frame' = { frame with elapsed := frame'.elapsed } :=
    calc frame' = ⟨frame'.generation, frame'.plot, frame'.picture, frame'.elapsed⟩ := rfl
      _ = ⟨frame.generation, frame.plot, frame.picture, frame'.elapsed⟩ := by
        rw [latest', number, ← latest, plot', picture, plot]
  rw [told, told', only]
  exact .lines (.cons (.ready frame _) .nil)

/-- Two sessions that stand at the same answer a command alike. -/
theorem perform_alike (h : s.Traced) (h' : s'.Traced) (same : s'.standing = s.standing) {command : Command}
    {pace pace' : Pace} (named : command ≠ .save none) (inTime : command = .wait → ¬s.TimesOut pace)
    (inTime' : command = .wait → ¬s'.TimesOut pace') (seconds seconds' : Nat) :
    RepliesAlike (s.perform command seconds pace).1 (s'.perform command seconds' pace').1 := by
  have latest : s'.renderer.latest = s.renderer.latest := congrArg Standing.latest same
  cases command with
  | plot fields =>
    rw [Session.perform, Session.perform]
    cases outcome : Plot.ofFields fields with
    | error rejection =>
      rw [s.submit_of_error outcome, s'.submit_of_error outcome]
      exact .same _
    | ok plot =>
      rw [(s.submit_of_ok outcome pace).1, (s'.submit_of_ok outcome pace').1, latest]
      exact .same _
  | size size =>
    have sizes : s'.size = s.size := congrArg Standing.size same
    rw [Session.perform, Session.perform]
    by_cases accepted : size.Accepted
    · by_cases unchanged : size = s.size
      · have unchanged' := h'.resize_same pace'
        rw [sizes] at unchanged'
        rw [unchanged, h.resize_same, unchanged']
        exact .same _
      · rw [(s.resize_of_ne accepted unchanged pace).1, (s'.resize_of_ne accepted (sizes ▸ unchanged) pace').1, latest]
        exact .same _
    · rw [s.resize_of_refused accepted, s'.resize_of_refused accepted]
      exact .same _
  | point column row =>
    obtain ⟨renderer, rfl, -⟩ := eq_of_standing same
    rw [Session.perform, Session.perform, h.moveCursor_eq, h'.moveCursor_eq]
    exact .same _
  | wait => exact h.wait_alike h' same (inTime rfl) (inTime' rfl)
  | save path =>
    obtain ⟨renderer, rfl, -⟩ := eq_of_standing same
    cases path with
    | none => exact absurd rfl named
    | some path => exact .same _
  | status => exact .lines (statusLines_alike same)
  | quit => exact .same _

end Traced

end Session

/-! ## Turns -/

/-- A line asks to keep a picture without saying where. -/
def savesUnnamed (text : String) : Bool :=
  match Command.ofLine? text with
  | some (.ok (.save none)) => true
  | _ => false

namespace Turn

/-- The line asks to wait. -/
def waits (t : Turn) : Bool :=
  match t.command? with
  | some (.ok .wait) => true
  | _ => false

/-- The line asks to wait, and the wait takes too long. -/
def TimesOut (t : Turn) : Prop :=
  t.waits = true ∧ t.ready.polled.TimesOut t.pace

/-- The picture that the line asks to keep. -/
def saved? (t : Turn) : Option Export :=
  match t.reply with
  | .save picture => some picture
  | _ => none

end Turn

namespace Session

variable {t t' : Turn}

/-- Two turns with the same line, in sessions that stand at the same, are answered alike. -/
theorem Traced.reply_alike (h : t.session.Traced) (h' : t'.session.Traced) (same : t'.session.standing = t.session.standing)
    (line : t'.text = t.text) (named : savesUnnamed t.text = false) (inTime : ¬t.TimesOut) (inTime' : ¬t'.TimesOut) :
    RepliesAlike t.reply t'.reply := by
  have ready : t'.ready.polled.standing = t.ready.polled.standing := by
    simp only [standing_polled, standing_ready, same]
  have asked : t'.command? = t.command? := congrArg Command.ofLine? line
  unfold Turn.TimesOut Turn.waits at inTime inTime'
  rw [savesUnnamed, ← Turn.command?] at named
  rw [asked] at inTime'
  unfold Turn.reply
  rcases asks : t.command? with _ | error | command
  · rw [line_eq, line_eq, ← Turn.command?, ← Turn.command?, asked, asks]
    exact .same _
  · rw [line_eq, line_eq, ← Turn.command?, ← Turn.command?, asked, asks]
    exact .same _
  · rw [asks] at asked named inTime inTime'
    rw [h.ready.line_of_command asks, h'.ready.line_of_command asked]
    refine h.ready.polled.perform_alike h'.ready.polled ready ?_ ?_ ?_ t.seconds t'.seconds
    · rintro rfl
      cases named
    · rintro rfl late
      exact inTime ⟨rfl, late⟩
    · rintro rfl late
      exact inTime' ⟨rfl, late⟩

/-- Replies that are alike have the same effect on a disk, and what is written is alike. -/
theorem RepliesAlike.turn (alike : RepliesAlike t.reply t'.reply) (disk : t'.disk = t.disk) :
    List.Forall₂ SameButForTime t.lines t'.lines ∧ t'.diskAfter = t.diskAfter ∧ t'.saved? = t.saved? ∧
      t'.reply.isQuit = t.reply.isQuit := by
  unfold Turn.lines Turn.outcome Turn.diskAfter Turn.saved?
  rw [disk]
  generalize t.reply = reply at alike
  generalize t'.reply = reply' at alike
  cases alike with
  | same => exact ⟨List.forall₂_same.2 fun line _ => .same line, rfl, rfl, rfl⟩
  | lines each => exact ⟨each, rfl, rfl, rfl⟩

/-! ## Scripts -/

variable {s s' : Session}

/-- What two ends of a script have in common. -/
structure EndsAlike (ending ending' : Ending) : Prop where
  lines : List.Forall₂ SameButForTime ending.lines ending'.lines
  error : ending'.error = ending.error
  disk : ending'.disk = ending.disk
  standing : ending'.session.standing = ending.session.standing

/-- Two runs of a script from sessions that stand at the same end alike. -/
theorem Traced.run_alike (h : s.Traced) (h' : s'.Traced) (same : s'.standing = s.standing) {around around' : Surroundings}
    {turn turn' : Nat} {d : Disk} {script : List (Option String)}
    (named : ∀ text, some text ∈ script → savesUnnamed text = false)
    (inTime : ∀ t ∈ s.turns around turn d script, ¬t.TimesOut)
    (inTime' : ∀ t ∈ s'.turns around' turn' d script, ¬t.TimesOut) :
    EndsAlike (s.run around turn d script) (s'.run around' turn' d script) ∧
      (s'.turns around' turn' d script).filterMap Turn.saved? = (s.turns around turn d script).filterMap Turn.saved? := by
  -- On the script. The two runs keep the disk and what they stand at in common, and either both go on or none.
  induction script generalizing s s' turn turn' d with
  | nil => exact ⟨⟨.nil, rfl, rfl, same⟩, rfl⟩
  | cons text rest ih =>
    cases text with
    | none => exact ⟨⟨.nil, rfl, rfl, same⟩, rfl⟩
    | some text =>
      obtain ⟨t, rfl, rfl, rfl, read⟩ := s.exists_first_turn around turn d text rest
      obtain ⟨t', rfl, disk, line, read'⟩ := s'.exists_first_turn around' turn' t.disk t.text rest
      obtain ⟨leaves, quits⟩ := h.leaves_alike h' same line
      have alike (now : ¬t.TimesOut) (now' : ¬t'.TimesOut) : RepliesAlike t.reply t'.reply :=
        h.reply_alike h' same line (named t.text List.mem_cons_self) now now'
      rcases read with ⟨last, turns, run⟩ | ⟨onward, turns, run⟩ <;> rcases read' with ⟨last', turns', run'⟩ | ⟨onward', turns', run'⟩
      · rw [turns, List.forall_mem_singleton] at inTime
        rw [turns', List.forall_mem_singleton] at inTime'
        obtain ⟨lines, kept, saved, -⟩ := (alike inTime inTime').turn disk
        rw [turns, turns', run, run']
        exact ⟨⟨lines, rfl, kept, leaves⟩, by rw [List.filterMap_cons, List.filterMap_cons, saved]⟩
      · rw [quits, last] at onward'
        cases onward'
      · rw [quits, onward] at last'
        cases last'
      · rw [turns, List.forall_mem_cons] at inTime
        rw [turns', List.forall_mem_cons] at inTime'
        obtain ⟨lines, kept, saved, -⟩ := (alike inTime.1 inTime'.1).turn disk
        rw [kept] at run' turns' inTime'
        obtain ⟨ends, exports⟩ := ih h.after h'.after leaves (fun text member => named text (List.mem_cons_of_mem _ member))
          inTime.2 inTime'.2
        rw [turns, turns', run, run']
        exact ⟨⟨List.rel_append lines ends.lines, ends.error, ends.disk, ends.standing⟩,
          by rw [List.filterMap_cons, List.filterMap_cons, saved, exports]⟩

/-- Two sessions begin with the same preferences and carry out the same script, in which every picture that is kept has a path of
its own. The worker takes its steps at other moments, and the clock shows other times. As long as no wait takes too long they write
the same lines, apart from the milliseconds of a render and what a status says of the picture; they keep the same pictures in files
and leave the same disk; and they end at the same. -/
theorem same_but_for_time (p : Preferences) (directory : String) (first first' : Pace) (around around' : Surroundings)
    (disk : Disk) (script : List (Option String))
    (named : ∀ text, some text ∈ script → savesUnnamed text = false)
    (inTime : ∀ t ∈ (start p directory first).turns around 0 disk script, ¬t.TimesOut)
    (inTime' : ∀ t ∈ (start p directory first').turns around' 0 disk script, ¬t.TimesOut) :
    EndsAlike ((start p directory first).run around 0 disk script) ((start p directory first').run around' 0 disk script) ∧
      ((start p directory first').turns around' 0 disk script).filterMap Turn.saved? =
        ((start p directory first).turns around 0 disk script).filterMap Turn.saved? := by
  have same : (start p directory first').standing = (start p directory first).standing :=
    (standing_start p directory first').trans (standing_start p directory first).symm
  exact (Traced.start p directory first).run_alike (.start p directory first') same named inTime inTime'

/-- A wait of a script takes too long exactly if the picture is still awaited when it ends. -/
theorem Traced.not_timesOut (h : t.session.Traced)
    (ended : t.waits = true →
      ¬(t.ready.polled.wait t.pace).2.renderer.Awaits (t.ready.polled.wait t.pace).2.renderer.latest) : ¬t.TimesOut :=
  fun late => ended late.1 ((h.ready.polled.timesOut_iff t.pace).1 late.2)

/-- A worker that has done all before each line, and one that works only when it is waited for. -/
theorem waited_before_or_during :
    let p : Preferences := { Preferences.standard with preview := ⟨1, 2⟩ }
    let around : Surroundings := ⟨fun _ => .onDemand, fun _ => 0⟩
    let around' : Surroundings := ⟨fun _ => { Pace.onDemand with before := Renderer.remainingSteps }, fun _ => 7⟩
    let script := ["status", "wait", "size 2 1", "wait", "status"].map some
    let s := start p "" .onDemand
    (∀ text, some text ∈ script → savesUnnamed text = false) ∧ (∀ t ∈ s.turns around 0 ⟨[], []⟩ script, ¬t.TimesOut) ∧
      (∀ t ∈ s.turns around' 0 ⟨[], []⟩ script, ¬t.TimesOut) ∧
      EndsAlike (s.run around 0 ⟨[], []⟩ script) (s.run around' 0 ⟨[], []⟩ script) ∧
      (s.run around 0 ⟨[], []⟩ script).lines ≠ (s.run around' 0 ⟨[], []⟩ script).lines := by
  intro p around around' script s
  have h : s.Traced := .start p "" .onDemand
  have named : ∀ text, some text ∈ script → savesUnnamed text = false := by
    have each : ∀ line ∈ script, ∀ text ∈ line, savesUnnamed text = false := by decide +kernel
    exact fun text member => each _ member text rfl
  have inTime : ∀ t ∈ s.turns around 0 ⟨[], []⟩ script, ¬t.TimesOut := by
    intro t member
    refine (h.turns around 0 ⟨[], []⟩ script t member).not_timesOut ?_
    revert t
    decide +kernel
  have inTime' : ∀ t ∈ s.turns around' 0 ⟨[], []⟩ script, ¬t.TimesOut := by
    intro t member
    refine (h.turns around' 0 ⟨[], []⟩ script t member).not_timesOut ?_
    revert t
    decide +kernel
  refine ⟨named, inTime, inTime', ?_, by decide +kernel⟩
  exact (same_but_for_time p "" .onDemand .onDemand around around' ⟨[], []⟩ script named inTime inTime').1

end Session

end DomainColoring
