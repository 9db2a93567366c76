import DomainColoring.Proofs.Session.Turns
import DomainColoring.Proofs.Text.OneLine

/-!
# Refused lines

A line that is empty, a remark, no command or a command that is not carried out leaves a session as it was. A script therefore
ends with the same plot, size, cursor and latest generation as the lines of it that are carried out, one after the other, at
whatever moments the worker takes its steps (`Session.refused_without_effect`).
-/

namespace DomainColoring

namespace Turn

/-- The line is a command, and it is carried out. -/
def carriedOut (t : Turn) : Bool :=
  t.command?.isSome && t.outcome.isOk

/-- The line is a command that chooses a plot, or another size. -/
def redraws (t : Turn) : Bool :=
  match t.command? with
  | some (.ok command) => command.redraws t.session.size
  | _ => false

/-- A refused line is answered by one error. -/
theorem lines_of_refused {t : Turn} {error : ReplyError} (h : t.outcome = .error error) : t.lines = ["error: " ++ error.message] := by
  rw [lines, h]
  rfl

/-- A command that is not carried out is refused. -/
theorem refused_of_not_carriedOut {t : Turn} {asked : Except CommandError Command} (command : t.command? = some asked)
    (h : t.carriedOut = false) : t.Refused := by
  rw [carriedOut, command, Option.isSome_some, Bool.true_and] at h
  cases outcome : t.outcome with
  | error error => exact ⟨error, outcome⟩
  | ok lines =>
    rw [outcome] at h
    cases h

end Turn

/-- Whatever comes of a command, its error is reported on one line. -/
theorem Session.Performed.oneLine_of_failed {s : Session} {command : Command} {reply : Reply} {after : Standing}
    (performed : s.Performed command reply after) {d : Disk} {error : ReplyError}
    (failed : (reply.settle d).1 = .error error) : Text.OneLine error.message := by
  cases performed with
  | rejected =>
    cases failed
    unfold ReplyError.message
    simp only [Text.oneLine_append, Rejection.oneLine_message]
    decide
  | refused =>
    cases failed
    exact Size.Refusal.oneLine_message _
  | undrawn =>
    cases failed
    exact RenderError.oneLine_message _
  | @exported path seconds picture =>
    rcases saved : d.save picture with ⟨error' | _, d'⟩
    · simp only [Reply.settle, saved] at failed
      cases failed
      exact Disk.oneLine_of_save (congrArg Prod.fst saved)
    · simp only [Reply.settle, saved] at failed
      cases failed
  | _ => cases failed

namespace Session.Traced

variable {s s' : Session} {t : Turn}

/-- What is no command is answered by nothing. -/
theorem lines_of_no_command (command : t.command? = none) : t.lines = [] := by
  have reply : t.reply = .lines [] := by
    rw [Turn.reply, line_eq, ← Turn.command?, command]
  rw [Turn.lines, Turn.outcome, reply]
  rfl

/-- A line that is no command comes to the error of reading it. -/
theorem outcome_of_unparsed {error : CommandError} (unparsed : t.command? = some (.error error)) :
    t.outcome = .error (.command error) := by
  have reply : t.reply = .failed (.command error) := by
    rw [Turn.reply, line_eq, ← Turn.command?, unparsed]
  rw [Turn.outcome, reply]
  rfl

/-- A refused line is reported on one line. -/
theorem oneLine_of_refused (h : t.session.Traced) {error : ReplyError} (refused : t.outcome = .error error) :
    Text.OneLine error.message := by
  rcases asks : t.command? with _ | unparsed | command
  · rw [Turn.outcome, Turn.reply, line_eq, ← Turn.command?, asks] at refused
    cases refused
  · obtain rfl : ReplyError.command unparsed = error := by
      rw [outcome_of_unparsed asks] at refused
      cases refused
      rfl
    unfold Turn.command? Command.ofLine? at asks
    dsimp only at asks
    split at asks
    · cases asks
    · exact CommandError.oneLine_of_parse (Option.some.inj asks)
  · rw [Turn.outcome, Turn.reply, h.ready.line_of_command asks] at refused
    exact (h.ready.polled.performed command t.seconds t.pace).oneLine_of_failed refused

/-- A line that is not carried out leaves the session where it stood. -/
theorem standing_of_not_carriedOut (h : t.session.Traced) (skipped : t.carriedOut = false) :
    t.after.standing = t.session.standing := by
  cases command : t.command? with
  | none => rw [h.standing_after, Standing.afterLine, ← Turn.command?, command]
  | some asked => exact h.standing_of_refused (Turn.refused_of_not_carriedOut command skipped)

/-- A script goes on behind a line that is not carried out. -/
theorem not_isQuit_of_not_carriedOut (h : t.session.Traced) (skipped : t.carriedOut = false) : ¬t.reply.isQuit = true := by
  intro quits
  have outcome : t.outcome = .ok [] := by
    unfold Turn.outcome
    cases reply : t.reply with
    | quit => rfl
    | _ =>
      rw [reply] at quits
      cases quits
  rw [Turn.carriedOut, h.isQuit_reply.1 quits, outcome] at skipped
  cases skipped

/-- Two sessions that stand at the same go on alike, one with the script and the other with the lines of it that are carried
out. -/
theorem standing_run_carriedOut (h : s.Traced) (h' : s'.Traced) (same : s'.standing = s.standing)
    (around around' : Surroundings) (turn turn' : Nat) (d d' : Disk) (script : List (Option String)) :
    (s'.run around' turn' d' (((s.turns around turn d script).filter Turn.carriedOut).map (some ·.text))).session.standing =
      (s.run around turn d script).session.standing := by
  -- On the script itself. A line that is carried out is a turn of both, any other is a turn of the first alone.
  induction script generalizing s s' turn turn' d d' with
  | nil => exact same
  | cons text rest ih =>
    cases text with
    | none => exact same
    | some text =>
      obtain ⟨t, rfl, rfl, rfl, read⟩ := s.exists_first_turn around turn d text rest
      by_cases carried : t.carriedOut = true
      · rcases read with ⟨last, turns, run⟩ | ⟨onward, turns, run⟩
        · rw [turns, run, List.filter_cons_of_pos carried]
          obtain ⟨t', rfl, -, line, read'⟩ := s'.exists_first_turn around' turn' d' t.text []
          obtain ⟨leaves, quits⟩ := h.leaves_alike h' same line
          rcases read' with ⟨-, -, run'⟩ | ⟨onward', -, -⟩
          · exact (congrArg (·.session.standing) run').trans leaves
          · rw [quits, last] at onward'
            cases onward'
        · rw [turns, run, List.filter_cons_of_pos carried, List.map_cons]
          obtain ⟨t', rfl, -, line, read'⟩ := s'.exists_first_turn around' turn' d' t.text
            (((t.after.turns around (turn + 1) t.diskAfter rest).filter Turn.carriedOut).map (some ·.text))
          obtain ⟨leaves, quits⟩ := h.leaves_alike h' same line
          rcases read' with ⟨last', -, -⟩ | ⟨-, -, run'⟩
          · rw [quits, onward] at last'
            cases last'
          · rw [run']
            exact ih h.after h'.after leaves _ _ _ _
      · rw [Bool.not_eq_true] at carried
        have unchanged : s'.standing = t.after.standing := same.trans (h.standing_of_not_carriedOut carried).symm
        rcases read with ⟨last, -, -⟩ | ⟨-, turns, run⟩
        · exact absurd last (h.not_isQuit_of_not_carriedOut carried)
        · rw [turns, run, List.filter_cons_of_neg (Bool.not_eq_true _ ▸ carried)]
          exact ih h.after h' unchanged _ _ _ _

/-- A command that chooses a plot or another size advances the latest generation by one, and no other line does. -/
theorem latest_after (h : t.session.Traced) :
    t.after.renderer.latest = t.session.renderer.latest + if t.redraws then 1 else 0 := by
  have remain : t.after.renderer.latest = (t.session.standing.afterLine t.text).latest :=
    congrArg Standing.latest h.standing_after
  rw [remain, Standing.afterLine, Turn.redraws, Turn.command?]
  rcases Command.ofLine? t.text with _ | error | command
  · rfl
  · rfl
  · exact t.session.standing.latest_after command

/-- A line that asks for another picture is answered by its generation, the next one. -/
theorem reply_of_redraws (h : t.session.Traced) (redraws : t.redraws = true) :
    t.reply = .lines ["rendering generation " ++ toString (t.session.renderer.latest + 1)] := by
  rw [Turn.redraws, Turn.command?] at redraws
  rcases asks : Command.ofLine? t.text with _ | error | command
  · rw [asks] at redraws
    cases redraws
  · rw [asks] at redraws
    cases redraws
  · rw [asks] at redraws
    have latest : t.ready.polled.renderer.latest = t.session.renderer.latest :=
      congrArg Standing.latest ((standing_polled _).trans (standing_ready t))
    have replied := (h.ready.polled.performed command t.seconds t.pace).reply_of_redraws redraws
    rwa [latest, ← h.ready.line_of_command asks] at replied

/-- The commands of a script that choose a plot or another size are told one generation after the other. -/
theorem lines_of_redraws (h : s.Traced) (around : Surroundings) (turn : Nat) (d : Disk) (script : List (Option String))
    {k : Nat} {t : Turn} (kth : ((s.turns around turn d script).filter Turn.redraws)[k]? = some t) :
    t.lines = ["rendering generation " ++ toString (s.renderer.latest + (k + 1))] := by
  -- On the script. Before the turn in question, `k` and the latest generation change by one at the same lines.
  induction script generalizing s turn d k with
  | nil => cases kth
  | cons text rest ih =>
    cases text with
    | none => cases kth
    | some text =>
      obtain ⟨t₀, rfl, -, -, read⟩ := s.exists_first_turn around turn d text rest
      have latest := h.latest_after
      by_cases redraws : t₀.redraws = true
      · have reply := h.reply_of_redraws redraws
        rcases read with ⟨last, -, -⟩ | ⟨-, turns, -⟩
        · rw [reply] at last
          cases last
        · rw [turns, List.filter_cons_of_pos redraws] at kth
          cases k with
          | zero =>
            obtain rfl : t₀ = t := Option.some.inj kth
            rw [Turn.lines, Turn.outcome, reply]
            rfl
          | succ k =>
            rw [ih h.after _ _ kth, latest, if_pos redraws, Nat.add_assoc, Nat.add_comm 1]
      · rcases read with ⟨-, turns, -⟩ | ⟨-, turns, -⟩
        · rw [turns, List.filter_cons_of_neg redraws] at kth
          cases kth
        · rw [turns, List.filter_cons_of_neg redraws] at kth
          rw [ih h.after _ _ kth, latest, if_neg redraws, Nat.add_zero]

end Session.Traced

namespace Session

/-- Whatever preferences a session starts with, and whatever has happened to it before a script: the script is read up to the
first line that asks to quit, and nothing is written but by the lines that are read. Of these an empty line or a remark writes
nothing, and one that is refused writes its error on one line. Where the session ends is where it would end with only the lines
that are carried out, whatever worker, clock and disk it has then. The commands that choose a plot or another size are told the
generations behind the latest one, one after the other. -/
theorem refused_without_effect (p : Preferences) (directory : String) (first : Pace) (ms : List SessionMove)
    (around : Surroundings) (turn : Nat) (disk : Disk) (script : List (Option String)) :
    let s := (start p directory first).moves ms
    let turns := s.turns around turn disk script
    turns.map Turn.text = linesRead script ∧
      (s.run around turn disk script).lines = turns.flatMap Turn.lines ∧
      (∀ t ∈ turns, t.command? = none → t.lines = []) ∧
      (∀ t ∈ turns, ∀ error, t.command? = some (.error error) → t.outcome = .error (.command error)) ∧
      (∀ t ∈ turns, ∀ error, t.outcome = .error error →
        t.lines = ["error: " ++ error.message] ∧ Text.OneLine error.message) ∧
      (∀ around' turn' disk',
        (s.run around' turn' disk' ((turns.filter Turn.carriedOut).map (some ·.text))).session.standing =
          (s.run around turn disk script).session.standing) ∧
      ∀ k t, (turns.filter Turn.redraws)[k]? = some t →
        t.lines = ["rendering generation " ++ toString (s.renderer.latest + (k + 1))] := by
  intro s turns
  have h : s.Traced := (Traced.start p directory first).moves ms
  have each := h.turns around turn disk script
  refine ⟨h.texts_turns around turn disk script, lines_run around turn s disk script, ?_, ?_, ?_, ?_, ?_⟩
  · exact fun t _ => Traced.lines_of_no_command
  · exact fun t _ error => Traced.outcome_of_unparsed
  · exact fun t member error refused => ⟨Turn.lines_of_refused refused, (each t member).oneLine_of_refused refused⟩
  · exact fun around' turn' disk' => h.standing_run_carriedOut h rfl around around' turn turn' disk disk' script
  · exact fun k t kth => h.lines_of_redraws around turn disk script kth

/-- Of six lines one is a remark, two are refused and one is behind the end, so two are left. -/
theorem size_chosen_once :
    let p : Preferences := { Preferences.standard with preview := ⟨1, 2⟩ }
    let around : Surroundings := ⟨fun _ => .onDemand, fun _ => 0⟩
    let script := ["# sizes", "size 0 1", "size", "size 2 1", "quit", "size 3 1"].map some
    let s := (start p "" .onDemand).moves []
    let ending := s.run around 0 ⟨[], []⟩ script
    ending.lines =
        ["error: invalid image dimensions: 0×1", "error: usage: size <width> <height>", "rendering generation 2"] ∧
      ending.session.size = ⟨2, 1⟩ ∧
      ∀ around' turn' disk',
        (s.run around' turn' disk' [some "size 2 1", some "quit"]).session.standing = ending.session.standing := by
  intro p around script s ending
  have remain : ((s.turns around 0 ⟨[], []⟩ script).filter Turn.carriedOut).map (some ·.text) =
      [some "size 2 1", some "quit"] := by decide +kernel
  obtain ⟨-, -, -, -, -, alike, -⟩ := refused_without_effect p "" .onDemand [] around 0 ⟨[], []⟩ script
  refine ⟨by decide +kernel, by decide +kernel, fun around' turn' disk' => ?_⟩
  rw [← remain]
  exact alike around' turn' disk'

end Session

end DomainColoring
