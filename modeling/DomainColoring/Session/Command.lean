import DomainColoring.Decimal
import DomainColoring.Reply

/-!
# Commands of a session

A line is a verb and what stands behind it. Blanks around and between the parts do not matter.
-/

namespace DomainColoring

/-- A command of a session. -/
inductive Command where
  | plot (fields : PlotFields)
  | size (size : Size)
  | point (column row : Float)
  | wait
  | save (path : Option String)
  | status
  | quit

namespace Command

/-- The form of the command `plot`. -/
def plotForm : String := "plot <expr> ; <re_upper> <re_lower> <im_upper> <im_lower>"

/-- The form of the command `size`. -/
def sizeForm : String := "size <width> <height>"

/-- The form of the command `point`. -/
def pointForm : String := "point <col> <row>"

/-- The first blank divides a line; what is behind it is trimmed. -/
def splitVerb (line : List Char) : List Char × List Char :=
  (line.takeWhile (!Text.isBlank ·), Text.trim (line.dropWhile (!Text.isBlank ·)))

/-- Exactly two words that are numbers of a kind. -/
def twoNumbers? {β : Type} (read : List Char → Option β) (text : List Char) : Option (β × β) :=
  match Text.words text with
  | [a, b] => (read a).bind fun a => (read b).map (a, ·)
  | _ => none

/-- The submission that stands behind `plot`: an expression up to the first semicolon, then four bounds. -/
def plotFields? (text : List Char) : Option PlotFields :=
  match text.dropWhile (· ≠ ';') with
  | [] => none
  | _ :: bounds =>
    match Text.words bounds with
    | [reUpper, reLower, imUpper, imLower] =>
      some ⟨String.ofList (Text.trim (text.takeWhile (· ≠ ';'))), String.ofList reUpper, String.ofList reLower,
        String.ofList imUpper, String.ofList imLower⟩
    | _ => none

/-- The command of a verb with what stands behind it. -/
def ofVerb (verb : String) (rest : List Char) : Except CommandError Command :=
  match verb with
  | "plot" =>
    match plotFields? rest with
    | some fields => .ok (.plot fields)
    | none => .error (.usage plotForm)
  | "size" =>
    match twoNumbers? Decimal.natural? rest with
    | some (width, height) => .ok (.size ⟨width, height⟩)
    | none => .error (.usage sizeForm)
  | "point" =>
    match twoNumbers? Decimal.read? rest with
    | some (column, row) => .ok (.point column row)
    | none => .error (.usage pointForm)
  | "wait" => .ok .wait
  | "export" => .ok (.save (if rest.isEmpty then none else some (String.ofList rest)))
  | "status" => .ok .status
  | "quit" => .ok .quit
  | "exit" => .ok .quit
  | other => .error (.unknown other)

/-- The command that a line is. -/
def parse (line : String) : Except CommandError Command :=
  let (verb, rest) := splitVerb (Text.trim line.toList)
  ofVerb (String.ofList verb) rest

end Command

end DomainColoring
