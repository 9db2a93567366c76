import DomainColoring.CommandLine.Basic
import DomainColoring.Export.Encoding
import Std.Time.DateTime.Timestamp

/-!
# The program

Files, streams and the clock around the library: reads preferences and lines, keeps pictures, prints replies. While a session waits
for its next line, the worker of its renderer goes on step by step.
-/

namespace DomainColoring.Program

/-- A failure in the words of the system, with its code. -/
def coded (code : UInt32) (details : String) : FileError :=
  .other (details ++ " (os error " ++ toString code ++ ")")

/-- A failure of the system as the library knows it. -/
def fileErrorOf : IO.Error → FileError
  | .noFileOrDirectory _ _ _ => .notFound
  | .alreadyExists _ _ _ => .alreadyExists
  | .inappropriateType _ code details =>
    if code = 21 then .isADirectory else if code = 20 then .notADirectory else coded code details
  | .permissionDenied _ code details => coded code details
  | .invalidArgument _ code details => coded code details
  | .resourceExhausted _ code details => coded code details
  | .noSuchThing _ code details => coded code details
  | .resourceBusy code details => coded code details
  | .otherError code details => coded code details
  | other => .other (toString other)

/-- Writes a picture to its file. The file is emptied before it is known whether there is a document for it. -/
def keepPicture (picture : Export) : IO (Except ExportError Unit) := do
  try
    let directory := joinPath (if picture.path.startsWith "/" then "/" else "") ("/".intercalate (pathNames picture.path).dropLast)
    if !directory.isEmpty then IO.FS.createDirAll directory
    IO.FS.writeBinFile picture.path .empty
    match picture.document with
    | .error error => return .error (.document error)
    | .ok document =>
      IO.FS.writeBinFile picture.path document.encode
      return .ok ()
  catch error => return .error (.file (fileErrorOf error))

/-- The lines of a reply, or its error, with its picture kept. -/
def carryOut (reply : Reply) : IO (Except ReplyError (List String)) := do
  match reply with
  | .lines lines => return .ok lines
  | .quit => return .ok []
  | .failed error => return .error error
  | .save picture =>
    match ← keepPicture picture with
    | .ok () => return .ok [picture.report]
    | .error error => return .error (.saving error)

/-- The content of a file, or nothing where there is no file. -/
def fileContent? (path : String) : IO (Option (Option ByteArray)) := do
  try
    return some (some (← IO.FS.readBinFile path))
  catch error =>
    match error with
    | .noFileOrDirectory .. => return none
    | _ => return some none

/-- The directory for files of configuration, where the system names one. -/
def configurationDirectory? : IO (Option String) := do
  match ← IO.getEnv "XDG_CONFIG_HOME" with
  | some directory => if directory.startsWith "/" then return some (joinPath directory "domainplot")
  | none => pure ()
  return (← IO.getEnv "HOME").map fun home => joinPath home ".config/domainplot"

/-- The preferences in the first of two places that has a file for them. -/
def loadPreferences (programDirectory : String) : IO Preferences := do
  if let some directory ← configurationDirectory? then
    if let some content ← fileContent? (joinPath directory "preferences.json") then
      return .ofFile content
  match ← fileContent? (joinPath programDirectory "preferences.json") with
  | some content => return .ofFile content
  | none => return .standard

/-- The directory of the running program. -/
def programDirectory : IO String := do
  return match (← IO.appPath).parent with
    | some directory => toString directory
    | none => "."

/-- The seconds on the clock of the system. -/
def secondsNow : IO Nat := do
  return (← Std.Time.Timestamp.now).toSecondsSinceUnixEpoch.val.toNat

/-- Prints lines at once. -/
def printLines (lines : List String) : IO Unit := do
  let output ← IO.getStdout
  for line in lines do
    output.putStr (line ++ "\n")
  output.flush

/-- A worker's way through its steps: those to come, and when its render began, in milliseconds. -/
structure Progress where
  steps : List WorkerStep
  began : Nat

/-- Takes one step of the worker, with the time that a render has taken. -/
def advance (s : Session) (p : Progress) : IO (Session × Progress) := do
  match p.steps with
  | [] => return (s, p)
  | step :: steps =>
    let now ← IO.monoMsNow
    let p := { p with steps }
    let (step, p) := match step with
      | .begin => (WorkerStep.begin, { p with began := now })
      | .conclude _ => (.conclude (now - p.began), p)
      | other => (other, p)
    return ({ s with renderer := s.renderer.workerStep step }, p)

/-- Lets the worker go on until something holds or nothing is left to do. -/
partial def advanceUntil (stop : IO Bool) (s : Session) (p : Progress) : IO (Session × Progress) := do
  if p.steps.isEmpty || (← stop) then return (s, p)
  let (s, p) ← advance s p
  advanceUntil stop s p

/-- How long a session waits for a picture, in milliseconds. -/
def longestWait : Nat := 60000

/-- The worker does nothing on its own account while a command is carried out. -/
def idlePace : Pace :=
  ⟨fun _ => [], fun _ => [], fun _ => []⟩

/-- Whether a line asks to wait. -/
def asksToWait (line : String) : Bool :=
  match Command.parse line with
  | .ok .wait => true
  | _ => false

/-- Reads bytes up to the end of a line or of the input. -/
partial def readLine (input : IO.FS.Stream) (line : ByteArray) : IO ByteArray := do
  let next ← input.read 1
  let line := line ++ next
  if next.isEmpty || next.data.contains 10 then return line
  readLine input line

/-- Carries out the lines of the standard input. -/
partial def sessionLoop (s : Session) (began : Nat) : IO UInt32 := do
  let next ← IO.asTask (do readLine (← IO.getStdin) .empty) .dedicated
  let (s, p) ← advanceUntil (IO.hasFinished next) s ⟨s.renderer.remainingSteps, began⟩
  let line ← IO.ofExcept next.get
  match scriptLines line.toList with
  | [] => return 0
  | none :: _ =>
    IO.eprintln (ReplyError.file .invalidText).line
    return 1
  | some text :: _ =>
    let deadline := (← IO.monoMsNow) + longestWait
    let (s, p) ← if asksToWait text
      then advanceUntil (do return deadline ≤ (← IO.monoMsNow)) s p
      else pure (s, p)
    let (reply, s) := s.line text (← secondsNow) idlePace
    match ← carryOut reply with
    | .ok lines => printLines lines
    | .error error => printLines [error.line]
    match reply with
    | .quit => return 0
    | _ => sessionLoop s p.began

/-- Runs the program on its arguments; the result is its exit code. -/
def run (arguments : List String) : IO UInt32 := do
  match Invocation.parse arguments with
  | none =>
    IO.eprintln ("\n".intercalate Outcome.refusalLines)
    return 2
  | some invocation =>
    let directory ← programDirectory
    let preferences ← loadPreferences directory
    match invocation with
    | .session => sessionLoop (Session.start preferences directory idlePace) (← IO.monoMsNow)
    | invocation =>
      match ← carryOut (invocation.reply ⟨preferences, directory, ← secondsNow⟩) with
      | .ok lines =>
        printLines lines
        return 0
      | .error error =>
        IO.eprintln error.line
        return 1

end DomainColoring.Program

/-- Runs the program on its arguments. -/
def main (arguments : List String) : IO UInt32 :=
  DomainColoring.Program.run arguments
