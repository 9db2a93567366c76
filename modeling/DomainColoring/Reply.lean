import DomainColoring.Export.Basic
import DomainColoring.Plot

/-!
# Replies

What the program answers to a command. A picture that is to be kept is part of the answer; it is reported once its file is written.
-/

namespace DomainColoring

/-- Why a line is no command. -/
inductive CommandError where
  /-- Arguments that do not have the form of the command. -/
  | usage (form : String)
  | unknown (verb : String)
  deriving DecidableEq, Repr

/-- The error in words. -/
def CommandError.message : CommandError → String
  | usage form => "usage: " ++ form
  | unknown verb => "unknown command `" ++ verb ++ "`"

/-- Why a command is not carried out. -/
inductive ReplyError where
  | rejected (rejection : Rejection)
  | expression (error : ExpressionError)
  | size (refusal : Size.Refusal)
  | render (error : RenderError)
  | saving (error : ExportError)
  | file (error : FileError)
  | command (error : CommandError)

/-- The error in words. -/
def ReplyError.message : ReplyError → String
  | rejected rejection => "rejected: " ++ rejection.message
  | expression error => error.message
  | size refusal => refusal.message
  | render error => error.message
  | saving error => error.message
  | file error => error.message
  | command error => error.message

/-- The line that reports an error. -/
def ReplyError.line (e : ReplyError) : String :=
  "error: " ++ e.message

/-- What the program answers. -/
inductive Reply where
  | lines (lines : List String)
  /-- A picture to be kept. -/
  | save (picture : Export)
  | failed (error : ReplyError)
  /-- Nothing more is read. -/
  | quit

/-- The line that reports a picture that is kept. -/
def Export.report (e : Export) : String :=
  "exported " ++ e.picture.image.size.text ++ " to " ++ e.path

/-- The lines of a reply, or its error, for a disk that pictures are kept on. -/
def Reply.settle (d : Disk) : Reply → Except ReplyError (List String) × Disk
  | lines ls => (.ok ls, d)
  | save picture =>
    match d.save picture with
    | (.ok (), d) => (.ok [picture.report], d)
    | (.error error, d) => (.error (.saving error), d)
  | failed error => (.error error, d)
  | quit => (.ok [], d)

/-- The reply to a request for a picture in a file. -/
def Plot.saveReply (p : Plot Float) (height : Nat) (s : Shading Float) (path : String) : Reply :=
  match p.exported height s path with
  | .ok picture => .save picture
  | .error error => .failed (.render error)

/-- The name of a file that is made at the given second. -/
def timedFileName (seconds : Nat) : String :=
  "domainplot_" ++ toString seconds ++ ".png"

end DomainColoring
