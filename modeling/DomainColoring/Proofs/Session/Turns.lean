import DomainColoring.Proofs.Session.Standing

/-!
# Turns of a script

A script is carried out one line at a time. A turn is a line together with the session and the disk that it finds. What a script
writes is what its turns write (`Session.lines_run`), and its turns are the lines up to the first that asks to quit or cannot be
read (`Session.Traced.texts_turns`).
-/

namespace DomainColoring

/-! ## What a line asks for -/

/-- What a line asks for: nothing if it is empty or begins with a number sign, blanks around it aside. -/
def Command.ofLine? (text : String) : Option (Except CommandError Command) :=
  let text := Text.trim text.toList
  if text.isEmpty || text.head? == some '#' then none else some (parse (String.ofList text))

/-- A line is carried out by what it asks for. -/
theorem Session.line_eq (s : Session) (text : String) (seconds : Nat) (pace : Pace) :
    s.line text seconds pace =
      match Command.ofLine? text with
      | none => (.lines [], s)
      | some (.error error) => (.failed (.command error), s)
      | some (.ok command) => s.execute command seconds pace := by
  unfold line Command.ofLine?
  dsimp only
  by_cases skipped : (Text.trim text.toList).isEmpty || (Text.trim text.toList).head? == some '#'
  · rw [if_pos skipped, if_pos skipped]
  · rw [if_neg skipped, if_neg skipped]
    cases Command.parse (String.ofList (Text.trim text.toList)) <;> rfl

/-- The lines of a script that are read: none behind one that is no text, and none behind one that asks to quit. -/
def linesRead : List (Option String) → List String
  | [] => []
  | none :: _ => []
  | some text :: rest =>
    match Command.ofLine? text with
    | some (.ok .quit) => [text]
    | _ => text :: linesRead rest

/-! ## Turns -/

/-- A line with what it finds. -/
structure Turn where
  session : Session
  disk : Disk
  text : String
  seconds : Nat
  pace : Pace

namespace Turn

variable (t : Turn)

/-- The session after what the worker does before the line. -/
def ready : Session :=
  { t.session with renderer := t.session.renderer.work (t.pace.before t.session.renderer) }

/-- The reply to the line. -/
def reply : Reply :=
  (t.ready.line t.text t.seconds t.pace).1

/-- The session after the line. -/
def after : Session :=
  (t.ready.line t.text t.seconds t.pace).2

/-- What comes of the reply on the disk: lines, or an error. -/
def outcome : Except ReplyError (List String) :=
  (t.reply.settle t.disk).1

/-- The disk after the line. -/
def diskAfter : Disk :=
  (t.reply.settle t.disk).2

/-- The lines that are written. -/
def lines : List String :=
  match t.outcome with
  | .ok lines => lines
  | .error error => [error.line]

/-- What the line asks for. -/
def command? : Option (Except CommandError Command) :=
  Command.ofLine? t.text

/-- The line is no command, or its command is not carried out. -/
def Refused : Prop :=
  ∃ error, t.outcome = .error error

/-- A turn has the reply, the lines and the end of its line. -/
theorem settledLine_eq :
    t.session.settledLine t.disk t.text t.seconds t.pace = (t.reply, t.lines, t.after, t.diskAfter) := by
  unfold Session.settledLine lines outcome diskAfter reply after ready
  dsimp only
  generalize Session.line _ t.text t.seconds t.pace = replied
  obtain ⟨reply, s⟩ := replied
  dsimp only
  rcases reply.settle t.disk with ⟨error | lines, d⟩ <;> rfl

end Turn

namespace Session

/-- The turns of a script, from the given number on. -/
def turns (around : Surroundings) (turn : Nat) (s : Session) (d : Disk) : List (Option String) → List Turn
  | [] => []
  | none :: _ => []
  | some text :: rest =>
    let t : Turn := ⟨s, d, text, around.seconds turn, around.pace turn⟩
    t :: if t.reply.isQuit then [] else t.after.turns around (turn + 1) t.diskAfter rest

/-- A script begins with a turn of its own. If that asks to quit the script ends with it, and else it goes on with the session and
the disk that the turn leaves. -/
theorem exists_first_turn (around : Surroundings) (turn : Nat) (s : Session) (d : Disk) (text : String)
    (rest : List (Option String)) :
    ∃ t : Turn, t.session = s ∧ t.disk = d ∧ t.text = text ∧
      (t.reply.isQuit = true ∧ s.turns around turn d (some text :: rest) = [t] ∧
          s.run around turn d (some text :: rest) = ⟨t.lines, none, t.after, t.diskAfter⟩ ∨
        t.reply.isQuit = false ∧
          s.turns around turn d (some text :: rest) = t :: t.after.turns around (turn + 1) t.diskAfter rest ∧
          s.run around turn d (some text :: rest) =
            let ending := t.after.run around (turn + 1) t.diskAfter rest
            { ending with lines := t.lines ++ ending.lines }) := by
  have settled := (⟨s, d, text, around.seconds turn, around.pace turn⟩ : Turn).settledLine_eq
  refine ⟨⟨s, d, text, around.seconds turn, around.pace turn⟩, rfl, rfl, rfl, ?_⟩
  rw [turns, run]
  dsimp only at settled ⊢
  rw [settled]
  generalize (⟨s, d, text, around.seconds turn, around.pace turn⟩ : Turn) = t
  cases t.reply with
  | quit => exact .inl ⟨rfl, rfl, rfl⟩
  | _ => exact .inr ⟨rfl, rfl, rfl⟩

/-- What a script writes is what its turns write. -/
theorem lines_run (around : Surroundings) (turn : Nat) (s : Session) (d : Disk) (script : List (Option String)) :
    (s.run around turn d script).lines = (s.turns around turn d script).flatMap Turn.lines := by
  induction script generalizing turn s d with
  | nil => rfl
  | cons text rest ih =>
    cases text with
    | none => rfl
    | some text =>
      obtain ⟨t, -, -, -, ⟨-, turns, run⟩ | ⟨-, turns, run⟩⟩ := s.exists_first_turn around turn d text rest
      · rw [turns, run, List.flatMap_singleton]
      · rw [turns, run, List.flatMap_cons, ← ih]

namespace Traced

variable {s : Session}

/-- What the worker does before a line does not change what was asked for last. -/
theorem ready {t : Turn} (h : t.session.Traced) : t.ready.Traced :=
  h.work _

/-- After a turn the latest request is for what was chosen last. -/
theorem after {t : Turn} (h : t.session.Traced) : t.after.Traced :=
  h.ready.line _ _ _

/-- Every turn of a script finds a session whose latest request is for what was chosen last. -/
theorem turns (h : s.Traced) (around : Surroundings) (turn : Nat) (d : Disk) (script : List (Option String)) :
    ∀ t ∈ s.turns around turn d script, t.session.Traced := by
  induction script generalizing turn s d with
  | nil => exact List.forall_mem_nil _
  | cons text rest ih =>
    cases text with
    | none => exact List.forall_mem_nil _
    | some text =>
      obtain ⟨t, rfl, -, -, ⟨-, turns, -⟩ | ⟨-, turns, -⟩⟩ := s.exists_first_turn around turn d text rest
      · rw [turns, List.forall_mem_singleton]
        exact h
      · rw [turns, List.forall_mem_cons]
        exact ⟨h, ih h.after _ _⟩

/-- A line that is a command is carried out on the session after a poll. -/
theorem line_of_command (h : s.Traced) {text : String} {command : Command} (asks : Command.ofLine? text = some (.ok command))
    (seconds : Nat) (pace : Pace) : s.line text seconds pace = s.polled.perform command seconds pace := by
  rw [line_eq, asks]
  exact h.execute_eq command seconds pace

/-- Only the command to quit is answered by quitting. -/
theorem isQuit_reply {t : Turn} (h : t.session.Traced) : t.reply.isQuit = true ↔ t.command? = some (.ok .quit) := by
  unfold Turn.reply Turn.command?
  rcases asks : Command.ofLine? t.text with _ | error | command
  · simp [line_eq, asks, Reply.isQuit]
  · simp [line_eq, asks, Reply.isQuit]
  · rw [h.ready.line_of_command asks, (h.ready.polled.performed command t.seconds t.pace).isQuit_iff]
    simp

/-- The turns of a script are the lines that are read. -/
theorem texts_turns (h : s.Traced) (around : Surroundings) (turn : Nat) (d : Disk) (script : List (Option String)) :
    (s.turns around turn d script).map Turn.text = linesRead script := by
  induction script generalizing turn s d with
  | nil => rfl
  | cons text rest ih =>
    cases text with
    | none => rfl
    | some text =>
      obtain ⟨t, rfl, -, rfl, ⟨last, turns, -⟩ | ⟨onward, turns, -⟩⟩ := s.exists_first_turn around turn d text rest
      · have asks : Command.ofLine? t.text = some (.ok .quit) := h.isQuit_reply.1 last
        rw [turns, linesRead, asks]
        rfl
      · rw [turns, List.map_cons, ih h.after, linesRead]
        split
        · rename_i asks
          rw [h.isQuit_reply.2 asks] at onward
          cases onward
        · rfl

end Traced

end Session

/-! ## What a turn leaves -/

/-- What a line makes of it. -/
def Standing.afterLine (s : Standing) (text : String) : Standing :=
  match Command.ofLine? text with
  | some (.ok command) => s.after command
  | _ => s

namespace Session

/-- What the worker does before a line changes nothing that a session stands at. -/
theorem standing_ready (t : Turn) : t.ready.standing = t.session.standing :=
  standing_work _ _

namespace Traced

variable {t : Turn}

/-- What a line leaves does not depend on the worker, nor on the clock or the disk. -/
theorem standing_after (h : t.session.Traced) : t.after.standing = t.session.standing.afterLine t.text := by
  unfold Turn.after Standing.afterLine
  rcases asks : Command.ofLine? t.text with _ | error | command
  · rw [line_eq, asks, standing_ready]
  · rw [line_eq, asks, standing_ready]
  · rw [h.ready.line_of_command asks, (h.ready.polled.performed command t.seconds t.pace).standing_eq, standing_polled, standing_ready]

/-- The same line leaves the same where sessions stand at the same, and both go on after it or neither does. -/
theorem leaves_alike {t' : Turn} (h : t.session.Traced) (h' : t'.session.Traced)
    (same : t'.session.standing = t.session.standing) (line : t'.text = t.text) :
    t'.after.standing = t.after.standing ∧ t'.reply.isQuit = t.reply.isQuit := by
  refine ⟨?_, ?_⟩
  · rw [h'.standing_after, h.standing_after, line, same]
  · rw [Bool.eq_iff_iff, h'.isQuit_reply, h.isQuit_reply, Turn.command?, Turn.command?, line]

/-- A line that is refused leaves all as it is. -/
theorem standing_of_refused (h : t.session.Traced) (refused : t.Refused) : t.after.standing = t.session.standing := by
  obtain ⟨error, failed⟩ := refused
  rcases asks : Command.ofLine? t.text with _ | unparsed | command
  · rw [h.standing_after, Standing.afterLine, asks]
  · rw [h.standing_after, Standing.afterLine, asks]
  · rw [Turn.outcome, Turn.reply, h.ready.line_of_command asks] at failed
    have performed := h.ready.polled.performed command t.seconds t.pace
    rw [Turn.after, h.ready.line_of_command asks, performed.eq_of_failed failed, standing_polled, standing_ready]

end Traced

end Session

end DomainColoring
