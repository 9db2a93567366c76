import DomainColoring.Proofs.Renderer.Announced
import DomainColoring.Proofs.Session.Turns

/-!
# What listeners of a session hear

Listeners of a session are told of each plot that is chosen, of each point that is asked for and of each frame that is
installed, in the order in which it happens, and of nothing else (`Session.listeners_hear_what_happens`). What happens between two
moments is read off the commands and off the frames that are shown before and after each; stretches of time are put together end to
end (`Session.Passes.trans`).
-/

namespace DomainColoring

open Notifier

/-- Something that listeners of a session are told of. -/
inductive Happening where
  /-- A plot is chosen, and its picture is asked for under a generation. -/
  | chosen (generation : Nat)
  | pointed (column row : Float)
  /-- A frame is installed. -/
  | shown (generation : Nat)

namespace Happening

/-- The event that listeners are told. -/
def event : Happening → PlotEvent Float
  | chosen _ => .inputChanged
  | pointed column row => .cursorMoved column row
  | shown generation => .imageReady generation

/-- The generation of the frame that is installed, if one is. -/
def shown? : Happening → Option Nat
  | shown generation => some generation
  | _ => none

/-- What comes after a frame is installed is of a later generation. -/
def Before : Happening → Happening → Prop
  | shown generation, shown later => generation < later
  | shown generation, chosen later => generation < later
  | _, _ => True

end Happening

/-! ## What happens -/

namespace Session

/-- The frame that is installed between two moments, if one is. -/
def installed (s s' : Session) : List Happening :=
  (newlyShown s.renderer.current s'.renderer.current).map .shown

/-- What happens as a command is carried out. -/
def happened (s : Session) (pace : Pace) : Command → List Happening
  | .plot fields => if (Plot.ofFields fields).isOk then [.chosen (s.submit fields pace).2.renderer.latest] else []
  | .point column row => [.pointed column row]
  | .wait => s.installed (s.wait pace).2
  | _ => []

/-- What happens in a move of a session. A command as a whole begins with a poll. -/
def happenedIn (s : Session) : SessionMove → List Happening
  | .quiet ms => s.installed (s.move (.quiet ms))
  | .perform command _ pace => s.happened pace command
  | .execute command _ pace => s.installed s.polled ++ s.polled.happened pace command

/-- What happens in a row of moves. -/
def happenings (s : Session) : List SessionMove → List Happening
  | [] => []
  | m :: ms => s.happenedIn m ++ (s.move m).happenings ms

end Session

/-- What happens as a line is carried out: nothing if it is no command. -/
def Turn.happened (t : Turn) : List Happening :=
  match t.command? with
  | some (.ok command) => t.ready.happenedIn (.execute command t.seconds t.pace)
  | _ => []

/-! ## What the listeners do meanwhile -/

namespace Session

/-- What is done to the listeners alone in a move of a session. Moves that do not count do nothing. -/
def changesIn (s : Session) : SessionMove → List (Notifier (PlotEvent Float) → Notifier (PlotEvent Float))
  | .quiet ms =>
    match (⟨s.renderer, .free, []⟩ : System Float).moves (ms.filter Move.isQuiet) with
    | ⟨_, .free, _⟩ => ms.filterMap Move.change?
    | _ => []
  | _ => []

/-- What is done to the listeners alone in a row of moves. -/
def changes (s : Session) : List SessionMove → List (Notifier (PlotEvent Float) → Notifier (PlotEvent Float))
  | [] => []
  | m :: ms => s.changesIn m ++ (s.move m).changes ms

/-! ## From one moment to another -/

/-- Between two moments of a session just this happens: the listeners hear of it, and it is of generations between those of the
two moments. Meanwhile the listeners do certain operations themselves. -/
structure Passes (s s' : Session) (happenings : List Happening) (tended : List (Operation (PlotEvent Float))) : Prop where
  hears : s.renderer.notifier.Hears s'.renderer.notifier (happenings.map Happening.event) tended
  ordered : happenings.Pairwise Happening.Before
  latest : s.renderer.latest ≤ s'.renderer.latest
  current : ∀ frame ∈ s.renderer.current, ∃ frame' ∈ s'.renderer.current, frame.generation ≤ frame'.generation
  chosen : ∀ generation, .chosen generation ∈ happenings → s.renderer.latest < generation
  shown : ∀ generation, .shown generation ∈ happenings →
    (∀ frame ∈ s.renderer.current, frame.generation < generation) ∧ generation ≤ s'.renderer.latest ∧
      ∃ frame ∈ s'.renderer.current, generation ≤ frame.generation

namespace Passes

variable {s s' s'' : Session} {happenings more : List Happening} {tended tended' : List (Operation (PlotEvent Float))}

theorem trans (h : s.Passes s' happenings tended) (h' : s'.Passes s'' more tended') :
    s.Passes s'' (happenings ++ more) (tended ++ tended') where
  hears := by
    rw [List.map_append]
    exact h.hears.trans h'.hears
  ordered := by
    refine List.pairwise_append.2 ⟨h.ordered, h'.ordered, ?_⟩
    intro a earlier b later
    -- a frame that was installed is not later than the one that is shown at the moment in between, nor than what was asked for
    cases a with
    | shown generation =>
      obtain ⟨-, asked, frame, current, le⟩ := h.shown generation earlier
      cases b with
      | shown other => exact Nat.lt_of_le_of_lt le ((h'.shown other later).1 frame current)
      | chosen other => exact Nat.lt_of_le_of_lt asked (h'.chosen other later)
      | pointed column row => trivial
    | chosen generation => trivial
    | pointed column row => trivial
  latest := Nat.le_trans h.latest h'.latest
  current := by
    intro frame shown
    obtain ⟨frame', shown', le⟩ := h.current frame shown
    obtain ⟨frame'', shown'', le'⟩ := h'.current frame' shown'
    exact ⟨frame'', shown'', Nat.le_trans le le'⟩
  chosen := by
    intro generation mem
    rcases List.mem_append.1 mem with mem | mem
    · exact h.chosen generation mem
    · exact Nat.lt_of_le_of_lt h.latest (h'.chosen generation mem)
  shown := by
    intro generation mem
    rcases List.mem_append.1 mem with mem | mem
    · obtain ⟨older, asked, frame, shown, le⟩ := h.shown generation mem
      obtain ⟨frame', shown', le'⟩ := h'.current frame shown
      exact ⟨older, Nat.le_trans asked h'.latest, frame', shown', Nat.le_trans le le'⟩
    · obtain ⟨older, rest⟩ := h'.shown generation mem
      refine ⟨fun frame shown => ?_, rest⟩
      obtain ⟨frame', shown', le⟩ := h.current frame shown
      exact Nat.lt_of_le_of_lt le (older frame' shown')

/-- Nothing is installed. -/
theorem of_current_eq (current : s'.renderer.current = s.renderer.current) (latest : s.renderer.latest ≤ s'.renderer.latest)
    (hears : s.renderer.notifier.Hears s'.renderer.notifier (happenings.map Happening.event) tended)
    (ordered : happenings.Pairwise Happening.Before)
    (chosen : ∀ generation, .chosen generation ∈ happenings → s.renderer.latest < generation)
    (unshown : ∀ generation, .shown generation ∉ happenings) : s.Passes s' happenings tended where
  hears := hears
  ordered := ordered
  latest := latest
  current frame shown := ⟨frame, by rwa [current], Nat.le_refl _⟩
  chosen := chosen
  shown generation mem := absurd mem (unshown generation)

/-- Nothing happens. -/
theorem of_silent (current : s'.renderer.current = s.renderer.current) (latest : s.renderer.latest ≤ s'.renderer.latest)
    (hears : s.renderer.notifier.Hears s'.renderer.notifier [] tended) : s.Passes s' [] tended :=
  of_current_eq current latest hears .nil (by simp) (by simp)

theorem refl (s : Session) : s.Passes s [] [] :=
  of_silent rfl (Nat.le_refl _) (.refl _)

/-- Nothing is asked for. -/
theorem of_announces (h : s.renderer.Announces s'.renderer tended) : s.Passes s' (s.installed s') tended := by
  have latest := Nat.le_of_eq h.latest.symm
  rcases h.installed with ⟨current, hears⟩ | ⟨frame, shown, generation, older, hears⟩
  · rw [installed, current, newlyShown_self]
    exact of_silent current latest hears
  · rw [installed, shown, newlyShown_of_older (generation ▸ older), generation]
    refine ⟨hears, List.pairwise_singleton _ _, latest, ?_, by simp, ?_⟩
    · intro old before
      exact ⟨frame, shown, Nat.le_of_lt (generation ▸ older old before)⟩
    · intro other mem
      obtain rfl : other = s.renderer.latest := by simpa using mem
      exact ⟨older, latest, frame, shown, Nat.le_of_eq generation.symm⟩

/-- Asking for a picture tells nobody anything. -/
theorem redraw (s : Session) (pace : Pace) : s.Passes (s.redraw pace) [] [] := by
  obtain ⟨current, notifier⟩ := s.renderer.cancel.work_leaves (pace.insideRequest s.renderer.cancel)
  refine of_silent current ?_ ?_
  · simp only [Session.redraw, Renderer.latest_request]
    exact Nat.le_succ _
  · change s.renderer.notifier.Hears (s.renderer.cancel.work _).notifier [] []
    rw [notifier]
    exact .refl _

end Passes

/-- A plot is chosen if the submission is accepted, and nothing else happens. -/
theorem passes_submit (s : Session) (fields : PlotFields) (pace : Pace) :
    s.Passes (s.submit fields pace).2 (s.happened pace (.plot fields)) [] := by
  rw [happened]
  cases outcome : Plot.ofFields fields with
  | error rejection =>
    rw [s.submit_of_error outcome]
    exact .refl s
  | ok plot =>
    have generation : (s.submit fields pace).2.renderer.latest = s.renderer.latest + 1 :=
      congrArg Standing.latest (s.submit_of_ok outcome pace).2
    have told : s.Passes ({ s with plot }.notify .inputChanged) [.chosen (s.renderer.latest + 1)] [] := by
      refine .of_current_eq rfl (Nat.le_refl _) (.event _ _) (List.pairwise_singleton _ _) ?_ (by simp)
      intro generation mem
      obtain rfl : generation = s.renderer.latest + 1 := by simpa using mem
      exact Nat.lt_succ_self _
    have asked := told.trans (.redraw _ pace)
    rw [generation, submit, outcome]
    exact asked

/-- Listeners hear nothing of another size. -/
theorem passes_resize (s : Session) (size : Size) (pace : Pace) : s.Passes (s.resize size pace).2 [] [] := by
  unfold resize
  by_cases accepted : size.Accepted
  · rw [if_pos accepted]
    by_cases same : size = s.size
    · rw [if_pos same]
      exact .refl s
    · rw [if_neg same]
      have chosen : s.Passes { s with size } [] [] := .of_silent rfl (Nat.le_refl _) (.refl _)
      exact chosen.trans (.redraw _ pace)
  · rw [if_neg accepted]
    exact .refl s

/-- In a wait the frame is installed that it brings. -/
theorem passes_wait (s : Session) (pace : Pace) : s.Passes (s.wait pace).2 (s.happened pace .wait) [] := by
  refine .of_announces ?_
  rw [wait_snd]
  exact s.renderer.announces_waitDuring _ _

/-! ## Commands, moves and scripts -/

namespace Traced

variable {s : Session}

/-- In a command happens what is said of it. -/
theorem passes_perform (h : s.Traced) (command : Command) (seconds : Nat) (pace : Pace) :
    s.Passes (s.perform command seconds pace).2 (s.happened pace command) [] := by
  cases command with
  | plot fields => exact s.passes_submit fields pace
  | size size => exact s.passes_resize size pace
  | point column row =>
    rw [Session.perform, h.moveCursor_eq]
    exact .of_current_eq rfl (Nat.le_refl _) (.event _ _) (List.pairwise_singleton _ _) (by simp [happened]) (by simp [happened])
  | wait => exact s.passes_wait pace
  | save path => exact .refl s
  | status => exact .refl s
  | quit => exact .refl s

/-- In a poll the frame is installed that it brings. -/
theorem passes_polled (h : s.Traced) : s.Passes s.polled (s.installed s.polled) [] := by
  obtain ⟨history, orderly, -⟩ := h
  exact .of_announces orderly.announces_poll

/-- In a command as a whole there is a poll first. -/
theorem passes_execute (h : s.Traced) (command : Command) (seconds : Nat) (pace : Pace) :
    s.Passes (s.execute command seconds pace).2 (s.happenedIn (.execute command seconds pace)) [] := by
  rw [h.execute_eq]
  exact h.passes_polled.trans (h.polled.passes_perform command seconds pace)

/-- A row of quiet moves, with the operations that the listeners do themselves. -/
theorem passes_quiet (h : s.Traced) {ms : List (Move Float)} {tended : List (Operation (PlotEvent Float))}
    (tends : ∀ o ∈ tended, o.tends = true) (changes : s.changesIn (.quiet ms) = tended.map fun o n => n.after o) :
    s.Passes (s.move (.quiet ms)) (s.happenedIn (.quiet ms)) tended := by
  refine .of_announces ?_
  obtain ⟨history, orderly, -⟩ := h
  simp only [changesIn] at changes
  simp only [Session.move]
  rcases ends : (⟨s.renderer, .free, []⟩ : System Float).moves (ms.filter Move.isQuiet) with ⟨r, _ | _ | _ | _, more⟩ <;>
    rw [ends] at changes
  · exact orderly.announces_quiet tends changes ends
  all_goals
    obtain rfl : tended = [] := List.map_eq_nil_iff.1 changes.symm
    exact .refl _

/-- In a move happens what is said of it, and listeners do what is done to them. -/
theorem passes_move (h : s.Traced) {m : SessionMove} {tended : List (Operation (PlotEvent Float))}
    (tends : ∀ o ∈ tended, o.tends = true) (changes : s.changesIn m = tended.map fun o n => n.after o) :
    s.Passes (s.move m) (s.happenedIn m) tended := by
  cases m with
  | quiet ms => exact h.passes_quiet tends changes
  | perform command seconds pace =>
    obtain rfl : tended = [] := List.map_eq_nil_iff.1 changes.symm
    exact h.passes_perform command seconds pace
  | execute command seconds pace =>
    obtain rfl : tended = [] := List.map_eq_nil_iff.1 changes.symm
    exact h.passes_execute command seconds pace

/-- In a row of moves happens what is said of each, in that order. -/
theorem passes_moves (h : s.Traced) {ms : List SessionMove} {tended : List (Operation (PlotEvent Float))}
    (tends : ∀ o ∈ tended, o.tends = true) (changes : s.changes ms = tended.map fun o n => n.after o) :
    s.Passes (s.moves ms) (s.happenings ms) tended := by
  induction ms generalizing s tended with
  | nil =>
    obtain rfl : tended = [] := List.map_eq_nil_iff.1 changes.symm
    exact .refl s
  | cons m ms ih =>
    obtain ⟨now, later, rfl, changesNow, changesLater⟩ := List.map_eq_append_iff.1 changes.symm
    have first := h.passes_move (fun o mem => tends o (List.mem_append_left _ mem)) changesNow.symm
    exact first.trans (ih (h.move m) (fun o mem => tends o (List.mem_append_right _ mem)) changesLater.symm)

/-- In a line happens what is said of it. -/
theorem passes_turn {t : Turn} (h : t.session.Traced) : t.session.Passes t.after t.happened [] := by
  have worked : t.session.Passes t.ready [] [] := by
    obtain ⟨current, notifier⟩ := t.session.renderer.work_leaves (t.pace.before t.session.renderer)
    refine .of_silent current (Nat.le_of_eq (t.session.renderer.latest_work _).symm) ?_
    rw [Turn.ready, notifier]
    exact .refl _
  unfold Turn.after Turn.happened Turn.command?
  rw [line_eq]
  rcases Command.ofLine? t.text with _ | error | command
  · exact worked
  · exact worked
  · exact worked.trans (h.ready.passes_execute command t.seconds t.pace)

/-- In a script happens what is said of its lines, in that order. -/
theorem passes_run (h : s.Traced) (around : Surroundings) (turn : Nat) (d : Disk) (script : List (Option String)) :
    s.Passes (s.run around turn d script).session ((s.turns around turn d script).flatMap Turn.happened) [] := by
  induction script generalizing turn s d with
  | nil => exact .refl s
  | cons text rest ih =>
    cases text with
    | none => exact .refl s
    | some text =>
      obtain ⟨t, rfl, -, -, ⟨-, turns, run⟩ | ⟨-, turns, run⟩⟩ := s.exists_first_turn around turn d text rest
      · rw [turns, run, List.flatMap_singleton]
        exact h.passes_turn
      · rw [turns, run, List.flatMap_cons]
        exact h.passes_turn.trans (ih h.after _ _)

/-- Nothing comes of a command that is answered by an error. -/
theorem happened_of_failed (h : s.Traced) {command : Command} {seconds : Nat} {pace : Pace} {d : Disk} {error : ReplyError}
    (failed : ((s.perform command seconds pace).1.settle d).1 = .error error) : s.happened pace command = [] := by
  cases command with
  | plot fields =>
    cases outcome : Plot.ofFields fields with
    | error rejection => rw [happened, outcome]; rfl
    | ok plot =>
      rw [Session.perform, (s.submit_of_ok outcome pace).1] at failed
      cases failed
  | point column row =>
    rw [Session.perform, h.moveCursor_eq] at failed
    cases failed
  | wait =>
    rw [Session.perform, h.wait_fst] at failed
    split at failed <;> cases failed
  | _ => rfl

end Traced

/-- What listeners hear between two moments mirrors what happens. -/
structure Mirrors (s s' : Session) (happenings : List Happening) (tended : List (Operation (PlotEvent Float))) : Prop where
  /-- Whoever listens at the first moment is told of each happening in its order, and of nothing else. -/
  heard : ∃ a : Account (PlotEvent Float),
    a.Records s.renderer.notifier (happenings.map Happening.event) tended ∧ a.notifier = s'.renderer.notifier
  ascending : (happenings.filterMap Happening.shown?).Pairwise (· < ·)
  /-- No frame is installed before the plot was chosen that it was asked for. -/
  chosenFirst : ∀ before after generation, happenings = before ++ .shown generation :: after → .chosen generation ∉ after

/-- Whoever listens from one moment to another hears what happens in between. -/
theorem Passes.mirrors {s s' : Session} {happenings : List Happening} {tended : List (Operation (PlotEvent Float))}
    (h : s.Passes s' happenings tended) : s.Mirrors s' happenings tended where
  heard := h.hears.recorded
  ascending := by
    rw [List.pairwise_filterMap]
    refine h.ordered.imp ?_
    intro a b before generation shown later shown'
    cases a with
    | shown => cases b with
      | shown =>
        cases shown
        cases shown'
        exact before
      | _ => cases shown'
    | _ => cases shown
  chosenFirst := by
    rintro before after generation rfl mem
    have ordered := (List.pairwise_append.1 h.ordered).2.1
    exact Nat.lt_irrefl generation ((List.pairwise_cons.1 ordered).1 _ mem)

/-- Whatever has been done in a session, and whoever listens then: from then on the events that a listener is told are, in the order
in which it happens, one for each plot that is chosen, one for each point that is asked for and one for each frame that is
installed, whatever the worker does and whenever listeners come, take what waits or go. The frames are installed in the order of
their generations, and none before its plot was chosen. So it is with commands one by one and with whole scripts. A command that is
answered by an error has nothing come of it. -/
theorem listeners_hear_what_happens (p : Preferences) (directory : String) (first : Pace) (earlier : List SessionMove) :
    let s := (start p directory first).moves earlier
    (∀ later tended, (∀ o ∈ tended, o.tends = true) → (s.changes later = tended.map fun o n => n.after o) →
      s.Mirrors (s.moves later) (s.happenings later) tended) ∧
      (∀ around turn disk script, s.Mirrors (s.run around turn disk script).session
        ((s.turns around turn disk script).flatMap Turn.happened) []) ∧
      ∀ command seconds pace disk error, ((s.perform command seconds pace).1.settle disk).1 = .error error →
        s.happened pace command = [] := by
  intro s
  have h : s.Traced := (Traced.start p directory first).moves earlier
  refine ⟨fun later tended tends changes => ?_, fun around turn disk script => ?_, fun command seconds pace disk error failed => ?_⟩
  · exact (h.passes_moves tends changes).mirrors
  · exact (h.passes_run around turn disk script).mirrors
  · exact h.happened_of_failed failed

/-- A receiver that comes while the first picture is being made hears of that, of a plot that is chosen, of a point and of the second
picture, and nothing of a plot that is refused. It takes what waits before the second picture is there. -/
theorem two_pictures_heard :
    let p : Preferences := { Preferences.standard with preview := ⟨1, 2⟩ }
    let s := (start p "" .onDemand).moves [.quiet [.listeners fun n => n.after .subscribeChannel]]
    let refused : Command := .plot ⟨"z +", "1", "-1", "1", "-1"⟩
    let later : List SessionMove := [.execute .wait 0 .onDemand, .execute (.plot ⟨"z", "1", "-1", "1", "-1"⟩) 0 .onDemand,
      .execute refused 0 .onDemand, .execute (.point 0 0) 0 .onDemand, .quiet [.listeners fun n => n.after (.drain 0)],
      .execute .wait 0 .onDemand]
    s.Mirrors (s.moves later) (s.happenings later) [.drain 0] ∧ (s.happenings later).filterMap Happening.shown? = [1, 2] ∧
      s.happened .onDemand refused = [] := by
  intro p s refused later
  obtain ⟨mirrors, -, silent⟩ :=
    listeners_hear_what_happens p "" .onDemand [.quiet [.listeners fun n => n.after .subscribeChannel]]
  exact ⟨mirrors later [.drain 0] (by decide) rfl, by decide +kernel, silent refused 0 .onDemand ⟨[], []⟩ _ rfl⟩

end Session

end DomainColoring
