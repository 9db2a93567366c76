import DomainColoring.CommandLine.Arguments
import DomainColoring.Session.Basic

/-!
# The command line

The program evaluates an expression at a point, draws a plot into a file, reads out one pixel, or runs a session. Bounds that are
not given are the preferred ones.
-/

namespace DomainColoring

/-- What the program is asked to do. -/
inductive Invocation where
  | version
  | help
  | evaluate (expression : String) (z : ComplexNumber Float)
  | save (expression : String) (bound? : Side → Option String) (height : Option Nat) (output : Option String)
  | readout (expression : String) (bound? : Side → Option String) (size : Size) (column row : Float)
  | session

namespace Invocation

/-- The option for a bound. -/
def boundName : Side → String
  | .reUpper => "re-upper"
  | .reLower => "re-lower"
  | .imUpper => "im-upper"
  | .imLower => "im-lower"

/-- The options for the four bounds. -/
def boundForms : List OptionForm :=
  [Side.reUpper, .reLower, .imUpper, .imLower].map fun side => .text (boundName side)

/-- The bounds that were given. -/
def bounds (g : Given) (side : Side) : Option String :=
  g.value? (boundName side)

/-- What is asked for by the arguments behind a word, if they can be read. -/
def ofArguments (make : Given → Option Invocation) : Arguments → Option Invocation
  | .given g => make g
  | .help => some .help
  | .refused => none

/-- Evaluation at a point whose parts are zero unless they are given. -/
def ofEvaluate (g : Given) : Option Invocation := do
  let expression ← g.positional
  let re ← (g.value? "re").elim (some 0) argumentFloat?
  let im ← (g.value? "im").elim (some 0) argumentFloat?
  return .evaluate expression ⟨re, im⟩

/-- A picture in a file. -/
def ofExport (g : Given) : Option Invocation := do
  let expression ← g.positional
  return .save expression (bounds g) ((g.value? "height").bind argumentNatural?) (g.value? "output")

/-- A readout, for which size and position have to be given. -/
def ofReadout (g : Given) : Option Invocation := do
  let expression ← g.positional
  let width ← (g.value? "width").bind argumentNatural?
  let height ← (g.value? "height").bind argumentNatural?
  let column ← (g.value? "col").bind argumentFloat?
  let row ← (g.value? "row").bind argumentFloat?
  return .readout expression (bounds g) ⟨width, height⟩ column row

/-- No argument has been read yet. -/
def nothingGiven : Given := ⟨none, []⟩

/-- The words that the program can be asked for. -/
def verbs : List String := ["eval", "export", "readout", "session", "help"]

/-- What the program is asked to do by its arguments, if they can be read. -/
def parse : List String → Option Invocation
  | "eval" :: rest => ofArguments ofEvaluate (.read [.float "re", .float "im"] true nothingGiven rest)
  | "export" :: rest =>
    ofArguments ofExport (.read (boundForms ++ [.natural "height", .path "output" 'o']) true nothingGiven rest)
  | "readout" :: rest =>
    ofArguments ofReadout
      (.read (boundForms ++ [.natural "width", .natural "height", .float "col", .float "row"]) true nothingGiven rest)
  | "session" :: rest => ofArguments (fun _ => some .session) (.read [] false nothingGiven rest)
  | ["help"] => some .help
  | ["help", verb] => if verbs.contains verb then some .help else none
  | "--version" :: _ => some .version
  | "--help" :: _ => some .help
  | argument :: _ =>
    match argument.toList with
    | '-' :: 'V' :: _ => some .version
    | '-' :: 'h' :: _ => some .help
    | _ => none
  | [] => none

end Invocation

/-- The text that names the version. -/
def versionText : String := "domainplot 0.1.0"

/-- What the program says about itself. -/
def helpLines : List String :=
  ["Domain-coloring plots of complex functions written in postfix notation",
    "",
    "Usage: domainplot <COMMAND>",
    "",
    "Commands:",
    "  eval     Evaluate an expression at one point",
    "  export   Render an expression and write it as a PNG",
    "  readout  Print the input and output values under one pixel",
    "  session  Read plot, size, point, wait and export commands from stdin",
    "  help     Print this message"]

/-- What surrounds the program. -/
structure Environment where
  preferences : Preferences
  programDirectory : String
  seconds : Nat

/-- The line of a marker, where there is one. -/
def markerLine (label : String) : Option Marker → List String
  | some marker => [label ++ ": (" ++ toString marker.column ++ ", " ++ toString marker.row ++ ")"]
  | none => []

namespace Invocation

/-- The reply to an evaluation. -/
def evaluateReply (expression : String) (z : ComplexNumber Float) : Reply :=
  match Expression.parse expression >>= fun e => e.eval z with
  | .ok value => .lines [value.text]
  | .error error => .failed (.expression error)

/-- The reply to a request for a picture in a file. -/
def saveReply (env : Environment) (expression : String) (bound? : Side → Option String) (height : Option Nat)
    (output : Option String) : Reply :=
  match Plot.ofFields (env.preferences.fieldsWith expression bound?) with
  | .error rejection => .failed (.rejected rejection)
  | .ok plot =>
    let path := output.getD (joinPath (env.preferences.imagesPath env.programDirectory) (timedFileName env.seconds))
    plot.saveReply (max (height.getD env.preferences.exportHeight) 1) env.preferences.shading path

/-- The reply to a request for a readout. -/
def readoutReply (env : Environment) (expression : String) (bound? : Side → Option String) (size : Size)
    (column row : Float) : Reply :=
  match Plot.ofFields (env.preferences.fieldsWith expression bound?) with
  | .error rejection => .failed (.rejected rejection)
  | .ok plot =>
    match plot.readoutAt size column row with
    | .error refusal => .failed (.size refusal)
    | .ok found =>
      .lines (found.lines ++ markerLine "input marker  " found.inputMarker ++
        markerLine "output marker " found.outputMarker)

/-- The reply to what the program is asked, a session aside. -/
def reply (env : Environment) : Invocation → Reply
  | version => .lines [versionText]
  | help => .lines helpLines
  | evaluate expression z => evaluateReply expression z
  | save expression bound? height output => saveReply env expression bound? height output
  | readout expression bound? size column row => readoutReply env expression bound? size column row
  | session => .lines []

end Invocation

/-- How the program ends: its exit code, what it has written, and the disk. -/
structure Outcome where
  code : UInt8
  lines : List String
  errorLines : List String
  disk : Disk

namespace Outcome

/-- The end after an error or without one. -/
def of (lines : List String) (error : Option ReplyError) (d : Disk) : Outcome :=
  match error with
  | none => ⟨0, lines, [], d⟩
  | some error => ⟨1, lines, [error.line], d⟩

/-- What is said of arguments that cannot be read. -/
def refusalLines : List String :=
  ["error: the arguments cannot be read", "", "Usage: domainplot <COMMAND>"]

/-- The end with arguments that cannot be read. -/
def refused (d : Disk) : Outcome :=
  ⟨2, [], refusalLines, d⟩

end Outcome

/-- Runs the program on its arguments, with an input for a session and a disk for pictures. -/
def runProgram (env : Environment) (around : Surroundings) (arguments : List String) (input : List UInt8) (d : Disk) :
    Outcome :=
  match Invocation.parse arguments with
  | none => .refused d
  | some .session =>
    let s := Session.start env.preferences env.programDirectory (around.pace 0)
    let ending := s.run around 1 d (scriptLines input)
    .of ending.lines ending.error ending.disk
  | some invocation =>
    match (invocation.reply env).settle d with
    | (.ok lines, d) => .of lines none d
    | (.error error, d) => .of [] (some error) d

end DomainColoring
