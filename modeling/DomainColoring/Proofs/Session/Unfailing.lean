import DomainColoring.Proofs.Export.Encodable
import DomainColoring.Proofs.Session.Turns

/-!
# Sessions whose renders never fail

Preferences may hold any text and any numbers. What a session begins with is brought into order where it has to be, and every
command keeps it so (`Standing.Accepted`). No render that a session asks for is refused therefore, and no poll and no wait returns
an error (`Session.renders_never_fail`).
-/

namespace DomainColoring

/-! ## What was chosen last is in order -/

namespace Standing

/-- Size, plot, shading and height of exports are ones that can be drawn. -/
structure Accepted (s : Standing) : Prop where
  size : s.size.Accepted
  /-- The standard plot, or one that was submitted and accepted. -/
  plot : s.plot = .standard ∨ ∃ fields, Plot.ofFields fields = .ok s.plot
  viewport : s.plot.viewport.Proper
  shading : s.shading.InRange
  exportHeight : 1 ≤ s.exportHeight

/-- Whatever can be drawn can be drawn after a command. -/
theorem Accepted.after {s : Standing} (h : s.Accepted) (command : Command) : (s.after command).Accepted := by
  cases command with
  | plot fields =>
    rw [Standing.after]
    cases outcome : Plot.ofFields fields with
    | error rejection => exact h
    | ok plot => exact ⟨h.size, .inr ⟨fields, outcome⟩, Plot.proper_of_fields outcome, h.shading, h.exportHeight⟩
  | size size =>
    rw [Standing.after]
    split
    · rename_i another
      exact ⟨another.1, h.plot, h.viewport, h.shading, h.exportHeight⟩
    · exact h
  | point column row => exact ⟨h.size, h.plot, h.viewport, h.shading, h.exportHeight⟩
  | _ => exact h

/-- It can be drawn after a line. -/
theorem Accepted.afterLine {s : Standing} (h : s.Accepted) (text : String) : (s.afterLine text).Accepted := by
  unfold Standing.afterLine
  split
  · exact h.after _
  · exact h

end Standing

/-- The first plot is the standard one or was accepted, so its viewport is a proper one. -/
theorem Preferences.initialPlot_accepted (p : Preferences) :
    (p.initialPlot = .standard ∨ ∃ fields, Plot.ofFields fields = .ok p.initialPlot) ∧ p.initialPlot.viewport.Proper := by
  unfold initialPlot
  split
  · rename_i plot read
    exact ⟨.inr ⟨_, read⟩, Plot.proper_of_fields read⟩
  · exact ⟨.inl rfl, Viewport.proper_standard⟩

namespace Session

/-- What a session begins with can be drawn. -/
theorem accepted_start (p : Preferences) (directory : String) (first : Pace) :
    (start p directory first).standing.Accepted := by
  rw [standing_start]
  exact ⟨p.previewSize_accepted, p.initialPlot_accepted.1, p.initialPlot_accepted.2, Shading.inRange_clamped _,
    Nat.le_max_right _ _⟩

namespace Traced

variable {s : Session}

/-- It can be drawn after a move. -/
theorem accepted_move (h : s.Traced) (a : s.standing.Accepted) (m : SessionMove) : (s.move m).standing.Accepted := by
  cases m with
  | quiet ms =>
    -- Polls and waits leave all but the renderer, which has been asked for nothing new.
    have latest := System.latest_moves_quiet ⟨s.renderer, .free, []⟩ ms
    have unchanged : (s.move (.quiet ms)).standing = s.standing := by
      rw [Session.move]
      split
      · rename_i r more ends
        rw [ends] at latest
        exact congrArg (fun latest => { s.standing with latest }) latest
      · rfl
    rwa [unchanged]
  | perform command seconds pace =>
    rw [Session.move, (h.performed command seconds pace).standing_eq]
    exact a.after command
  | execute command seconds pace =>
    rw [Session.move, h.execute_eq, (h.polled.performed command seconds pace).standing_eq, standing_polled]
    exact a.after command

/-- It can be drawn after any moves. -/
theorem accepted_moves (h : s.Traced) (a : s.standing.Accepted) (ms : List SessionMove) : (s.moves ms).standing.Accepted := by
  induction ms generalizing s with
  | nil => exact a
  | cons m ms ih => exact ih (h.move m) (h.accepted_move a m)

/-- It can be drawn before and after each line of a script. -/
theorem accepted_turns (h : s.Traced) (a : s.standing.Accepted) (around : Surroundings) (turn : Nat) (d : Disk)
    (script : List (Option String)) :
    (∀ t ∈ s.turns around turn d script, t.session.standing.Accepted) ∧ (s.run around turn d script).session.standing.Accepted := by
  induction script generalizing s turn d with
  | nil => exact ⟨List.forall_mem_nil _, a⟩
  | cons text rest ih =>
    cases text with
    | none => exact ⟨List.forall_mem_nil _, a⟩
    | some text =>
      obtain ⟨t, rfl, -, -, read⟩ := s.exists_first_turn around turn d text rest
      have leaves : t.after.standing.Accepted := by
        rw [h.standing_after]
        exact a.afterLine t.text
      rcases read with ⟨-, turns, run⟩ | ⟨-, turns, run⟩
      · rw [turns, run, List.forall_mem_singleton]
        exact ⟨a, leaves⟩
      · rw [turns, run, List.forall_mem_cons]
        obtain ⟨rest, ending⟩ := ih h.after leaves (turn + 1) t.diskAfter
        exact ⟨⟨a, rest⟩, ending⟩

end Traced

/-! ## No render fails -/

/-- What was chosen last can be drawn, and no render of it fails. -/
structure Unfailing (s : Session) : Prop where
  standing : s.standing.Accepted
  renderer : s.renderer.Unfailing

/-- Where what was chosen last can be drawn, no render of it fails. -/
theorem Traced.unfailing {s : Session} (h : s.Traced) (a : s.standing.Accepted) : s.Unfailing := by
  obtain ⟨history, orderly, -⟩ := h
  exact ⟨a, orderly.unfailing⟩

/-- Only an export can end with the error of a render: no other command draws at a size of its own. -/
theorem Performed.save_of_failed {s : Session} {command : Command} {reply : Reply} {after : Standing}
    (performed : s.Performed command reply after) {error : RenderError} (failed : reply = .failed (.render error)) :
    ∃ path, command = .save path := by
  cases performed with
  | @undrawn path => exact ⟨path, rfl⟩
  | _ => cases failed

/-- Whatever preferences a session starts with, and whatever commands it is given while the worker takes its steps at any moment:
the size, the plot, the shading and the height of exports can be drawn, so no job ends but with a picture or cancelled, no response
on its way is an error, and no poll and no wait returns one. So it is after every command, before and after every line of every
script, and no command but an export is answered by the error of a render. -/
theorem renders_never_fail (p : Preferences) (directory : String) (first : Pace) (ms : List SessionMove) :
    let s := (start p directory first).moves ms
    s.Unfailing ∧
      (∀ command seconds pace, (s.execute command seconds pace).2.Unfailing ∧
        ∀ error, (s.execute command seconds pace).1 = .failed (.render error) → ∃ path, command = .save path) ∧
      ∀ around turn disk script, (s.run around turn disk script).session.Unfailing ∧
        ∀ t ∈ s.turns around turn disk script, t.ready.Unfailing ∧ t.after.Unfailing := by
  intro s
  have h : s.Traced := (Traced.start p directory first).moves ms
  have a : s.standing.Accepted := (Traced.start p directory first).accepted_moves (accepted_start p directory first) ms
  refine ⟨h.unfailing a, fun command seconds pace => ⟨?_, fun error failed => ?_⟩, fun around turn disk script => ⟨?_, ?_⟩⟩
  · exact (h.move (.execute command seconds pace)).unfailing (h.accepted_move a (.execute command seconds pace))
  · rw [h.execute_eq] at failed
    exact (h.polled.performed command seconds pace).save_of_failed failed
  · exact (h.run around turn disk script).unfailing (h.accepted_turns a around turn disk script).2
  · intro t member
    have ht := h.turns around turn disk script t member
    have at_t := (h.accepted_turns a around turn disk script).1 t member
    refine ⟨ht.ready.unfailing ?_, ht.after.unfailing ?_⟩
    · rwa [standing_ready]
    · rw [ht.standing_after]
      exact at_t.afterLine t.text

/-- Where the preferences name no plot, no size and no bound in range, there is a picture all the same. An export can still be too
large. -/
theorem wrong_preferences_give_way :
    let p : Preferences := ⟨"z +", ⟨0 / 0, 0 / 0, 0 / 0, 0 / 0⟩, 1000000, 7, ⟨0, 0⟩, ""⟩
    let around : Surroundings := ⟨fun _ => .onDemand, fun _ => 0⟩
    let s := (start p "" .onDemand).moves []
    let keep : Command := .save (some "z.png")
    s.plot.expression.source = "z" ∧ s.size = ⟨640, 480⟩ ∧ (s.shading.lightnessMax == 1) = true ∧ s.Unfailing ∧
      (∃ error, (s.execute keep 0 .onDemand).1 = .failed (.render error) ∧ ∃ path, keep = .save path) ∧
      ∃ t ∈ s.turns around 0 ⟨[], []⟩ [some "status"], t.ready.Unfailing ∧ t.after.Unfailing := by
  intro p around s keep
  obtain ⟨unfailing, commands, scripts⟩ := renders_never_fail p "" .onDemand []
  have large : ¬(s.polled.plot.exportSize s.polled.exportHeight).Accepted := by decide +kernel
  have failed : (s.execute keep 0 .onDemand).1 = .failed (.render (.size ⟨s.plot.exportSize s.exportHeight⟩)) := by
    have h : s.Traced := (Traced.start p "" .onDemand).moves []
    rw [h.execute_eq, perform, Plot.saveReply, Plot.exported_of_refused large]
    rfl
  have texts : (s.turns around 0 ⟨[], []⟩ [some "status"]).map Turn.text = ["status"] := by decide +kernel
  obtain ⟨t, member, -⟩ := List.mem_map.1 (texts ▸ List.mem_singleton_self "status")
  refine ⟨by decide +kernel, by decide +kernel, by decide +kernel, unfailing, ⟨_, failed, ?_⟩, t, member, ?_⟩
  · exact (commands keep 0 .onDemand).2 _ failed
  · exact (scripts around 0 ⟨[], []⟩ [some "status"]).2 t member

end Session

end DomainColoring
