import DomainColoring.Plot
import DomainColoring.Preferences
import DomainColoring.Renderer.Worker
import DomainColoring.Session.Command

/-!
# Sessions

What a session does with one command, and with the lines of a script one after the other.
-/

namespace DomainColoring

/-!
## Commands

A session holds the plot, the size and the cursor that were chosen last, and asks a renderer for the picture of them. A command
that is refused leaves everything as it was. What the worker of the renderer gets done meanwhile is laid down by a pace.
-/

/-- What the worker does around and during one command. -/
structure Pace where
  /-- Before the command. -/
  before : Renderer Float → List WorkerStep
  /-- Between the two halves of a request. -/
  insideRequest : Renderer Float → List WorkerStep
  /-- While the session waits. -/
  whileWaiting : Renderer Float → List WorkerStep

/-- The worker works only when it is waited for, and then up to the end. -/
def Pace.onDemand : Pace :=
  ⟨fun _ => [], fun _ => [], Renderer.remainingSteps⟩

/-- What was chosen last, and the renderer. -/
structure Session where
  plot : Plot Float
  size : Size
  cursor : Option (Float × Float)
  shading : Shading Float
  exportHeight : Nat
  imagesDirectory : String
  renderer : Renderer Float

namespace Session

/-- The drawing of what was chosen last. -/
def drawing (s : Session) : Drawing Float :=
  ⟨s.plot, s.size, s.shading⟩

/-- Asks for the picture of what was chosen last. -/
def redraw (s : Session) (pace : Pace) : Session :=
  { s with renderer := s.renderer.request s.drawing pace.insideRequest }

/-- A session that shows the preferred plot, for a program in the given directory. Its first picture is asked for. -/
def start (p : Preferences) (programDirectory : String) (pace : Pace) : Session :=
  let s : Session :=
    { plot := p.initialPlot
      size := p.previewSize
      cursor := none
      shading := p.shading
      exportHeight := p.exportHeightAtLeastOne
      imagesDirectory := p.imagesPath programDirectory
      renderer := .initial }
  s.redraw pace

/-- Tells the listeners of an event. -/
def notify (s : Session) (event : PlotEvent Float) : Session :=
  { s with renderer := s.renderer.notify event }

/-- The reply that tells of a picture being drawn. -/
def drawingReply (s : Session) : Reply :=
  .lines ["rendering generation " ++ toString s.renderer.latest]

/-- Chooses a plot. -/
def submit (s : Session) (fields : PlotFields) (pace : Pace) : Reply × Session :=
  match Plot.ofFields fields with
  | .error rejection => (.failed (.rejected rejection), s)
  | .ok plot =>
    let s := ({ s with plot }.notify .inputChanged).redraw pace
    (s.drawingReply, s)

/-- Chooses a size. The same size as before is not drawn again. -/
def resize (s : Session) (size : Size) (pace : Pace) : Reply × Session :=
  if size.Accepted then
    if size = s.size then (.lines ["size unchanged"], s)
    else
      let s := { s with size }.redraw pace
      (s.drawingReply, s)
  else (.failed (.size ⟨size⟩), s)

/-- Moves the cursor, and reads out the point under it. -/
def moveCursor (s : Session) (column row : Float) : Reply × Session :=
  match s.plot.readoutAt s.size column row with
  | .error refusal => (.failed (.size refusal), s)
  | .ok readout => (.lines readout.lines, { s with cursor := some (column, row) }.notify (.cursorMoved column row))

/-- The line that tells of a picture. -/
def frameLine (frame : Frame Float) : String :=
  "image ready: generation " ++ toString frame.generation ++ ", " ++ frame.picture.image.size.text ++ ", " ++
    toString frame.picture.undefinedPixels ++ " undefined pixels, " ++ toString frame.elapsed ++ " ms"

/-- Waits for the picture of what was chosen last. -/
def wait (s : Session) (pace : Pace) : Reply × Session :=
  match s.renderer.waitDuring s.renderer.latest (pace.whileWaiting s.renderer) with
  | (.error error, renderer) => (.failed (.render error), { s with renderer })
  | (.ok (some frame), renderer) => (.lines [frameLine frame], { s with renderer })
  | (.ok none, renderer) => (.lines ["no image"], { s with renderer })

/-- The path of a file that is made at the given second. -/
def timedPath (s : Session) (seconds : Nat) : String :=
  joinPath s.imagesDirectory (timedFileName seconds)

/-- What was chosen last and how far its picture is. -/
def statusLines (s : Session) : List String :=
  ["plot: " ++ describe s.plot.expression.source s.plot.viewport,
    "size: " ++ s.size.text ++ ", generation " ++ toString s.renderer.latest ++ ", rows " ++
      toString s.renderer.handle.done ++ "/" ++ toString s.renderer.handle.total,
    match s.cursor with
    | some (column, row) => "cursor: (" ++ Decimal.shortestText column ++ ", " ++ Decimal.shortestText row ++ ")"
    | none => "cursor: none",
    match s.renderer.current with
    | some frame => "image: generation " ++ toString frame.generation
    | none => "image: none"]

/-- Does what a command asks for at the given second. -/
def perform (s : Session) (command : Command) (seconds : Nat) (pace : Pace) : Reply × Session :=
  match command with
  | .plot fields => s.submit fields pace
  | .size size => s.resize size pace
  | .point column row => s.moveCursor column row
  | .wait => s.wait pace
  | .save path => (s.plot.saveReply s.exportHeight s.shading (path.getD (s.timedPath seconds)), s)
  | .status => (.lines s.statusLines, s)
  | .quit => (.quit, s)

/-- Carries out a command at the given second. Pictures that have come in since the last one are installed first. -/
def execute (s : Session) (command : Command) (seconds : Nat) (pace : Pace) : Reply × Session :=
  match s.renderer.poll with
  | (.error error, renderer) => (.failed (.render error), { s with renderer })
  | (.ok _, renderer) => { s with renderer }.perform command seconds pace

/-- Carries out a line. Nothing comes of an empty line or of one that begins with a number sign. -/
def line (s : Session) (text : String) (seconds : Nat) (pace : Pace) : Reply × Session :=
  let text := Text.trim text.toList
  if text.isEmpty || text.head? == some '#' then (.lines [], s)
  else match Command.parse (String.ofList text) with
    | .error error => (.failed (.command error), s)
    | .ok command => s.execute command seconds pace

end Session

/-!
## Scripts

The lines of a session one after the other. What goes wrong with a line is reported, and the session goes on; only text that cannot
be read ends it early.
-/

/-- The lines of an input, each ended by a line feed with a carriage return before it perhaps. A line whose bytes are no text is
nothing. -/
def scriptLines (bytes : List UInt8) : List (Option String) :=
  let lines := bytes.splitOnP (· == 10)
  let lines := if lines.getLast? == some [] then lines.dropLast else lines
  lines.map fun line =>
    let line := if line.getLast? == some 13 then line.dropLast else line
    String.fromUTF8? ⟨line.toArray⟩

/-- What surrounds a session: the paces of its worker, and the clock at each line. -/
structure Surroundings where
  pace : Nat → Pace
  seconds : Nat → Nat

/-- How a script ends. -/
structure Ending where
  lines : List String
  /-- Why the script was not read to its end. -/
  error : Option ReplyError
  session : Session
  disk : Disk

namespace Session

/-- The reply to a line, with its lines and its effect on a disk. -/
def settledLine (s : Session) (d : Disk) (text : String) (seconds : Nat) (pace : Pace) :
    Reply × List String × Session × Disk :=
  let s := { s with renderer := s.renderer.work (pace.before s.renderer) }
  let (reply, s) := s.line text seconds pace
  match reply.settle d with
  | (.ok lines, d) => (reply, lines, s, d)
  | (.error error, d) => (reply, [error.line], s, d)

/-- Carries out the lines of a script from the given turn on. -/
def run (around : Surroundings) (turn : Nat) (s : Session) (d : Disk) : List (Option String) → Ending
  | [] => ⟨[], none, s, d⟩
  | none :: _ => ⟨[], some (.file .invalidText), s, d⟩
  | some text :: rest =>
    match s.settledLine d text (around.seconds turn) (around.pace turn) with
    | (.quit, lines, s, d) => ⟨lines, none, s, d⟩
    | (_, lines, s, d) =>
      let ending := s.run around (turn + 1) d rest
      { ending with lines := lines ++ ending.lines }

end Session

end DomainColoring
