import DomainColoring.Decimal

/-!
# Arguments of a command line

Options by name and one positional argument, in any order. The reader is strict: an option comes once, with a value behind it or
behind an equals sign; two hyphens alone end the options.
-/

namespace DomainColoring

/-- An option with a value. -/
structure OptionForm where
  name : String
  short : Option Char
  /-- Whether the next argument is its value also when it begins with a hyphen. -/
  takesHyphens : Bool
  /-- The texts that can be its value. -/
  accepts : String → Bool

/-- What was given: the positional argument, and the values of options by name. -/
structure Given where
  positional : Option String
  values : List (String × String)

/-- How the reading of arguments ends. -/
inductive Arguments where
  | given (g : Given)
  /-- Help is asked for. -/
  | help
  | refused

namespace Arguments

/-- Adds the value of an option that has not been given, if it can be one. -/
def accept? (g : Given) (form : OptionForm) (value : String) : Option Given :=
  if g.values.any (·.1 == form.name) || !form.accepts value then none
  else some { g with values := g.values ++ [(form.name, value)] }

/-- Adds a positional argument, of which there is one at most. -/
def acceptPositional? (g : Given) (isTaken : Bool) (value : String) : Option Given :=
  if isTaken && g.positional.isNone then some { g with positional := some value } else none

/-- The arguments behind two hyphens are all positional. -/
def readPositional (isTaken : Bool) (g : Given) : List String → Arguments
  | [] => .given g
  | value :: rest =>
    match acceptPositional? g isTaken value with
    | some g => readPositional isTaken g rest
    | none => .refused

/-- The parts of an argument around its first equals sign. -/
def splitEquals (argument : List Char) : List Char × Option (List Char) :=
  match argument.dropWhile (· ≠ '=') with
  | [] => (argument, none)
  | _ :: value => (argument.takeWhile (· ≠ '='), some value)

/-- What one argument is. -/
inductive Shape where
  | positional
  /-- Two hyphens. -/
  | endOfOptions
  | help
  /-- An option, with its value if it is part of the argument. -/
  | option (form : OptionForm) (value : Option String)
  | unknown

/-- The shape of an argument. Long names stand behind two hyphens, letters behind one. -/
def shape (forms : List OptionForm) (argument : String) : Shape :=
  match argument.toList with
  | ['-', '-'] => .endOfOptions
  | '-' :: '-' :: text =>
    let (name, value) := splitEquals text
    if name = "help".toList then if value.isSome then .unknown else .help
    else match forms.find? (·.name.toList == name) with
      | some form => .option form (value.map String.ofList)
      | none => .unknown
  | '-' :: letter :: text =>
    if letter = 'h' then .help
    else match forms.find? (·.short == some letter) with
      | some form =>
        .option form (if text.isEmpty then none else some (String.ofList (if text.head? = some '=' then text.drop 1 else text)))
      | none => .unknown
  | _ => .positional

/-- Whether an argument can stand behind an option as its value. -/
def canFollow (form : OptionForm) (argument : String) : Bool :=
  form.takesHyphens || argument == "-" || !argument.startsWith "-"

/-- Reads arguments for the given options, with a positional argument if one is taken. -/
def read (forms : List OptionForm) (isTaken : Bool) (g : Given) : List String → Arguments
  | [] => .given g
  | argument :: rest =>
    match shape forms argument with
    | .positional =>
      match acceptPositional? g isTaken argument with
      | some g => read forms isTaken g rest
      | none => .refused
    | .endOfOptions => readPositional isTaken g rest
    | .help => .help
    | .unknown => .refused
    | .option form (some value) =>
      match accept? g form value with
      | some g => read forms isTaken g rest
      | none => .refused
    | .option form none =>
      match rest with
      | value :: rest =>
        if canFollow form value then
          match accept? g form value with
          | some g => read forms isTaken g rest
          | none => .refused
        else .refused
      | [] => .refused

end Arguments

/-- The value of an option that was given. -/
def Given.value? (g : Given) (name : String) : Option String :=
  (g.values.find? (·.1 == name)).map (·.2)

/-- The number of at most 32 bits that an argument is, also with a sign where that makes no difference. -/
def argumentNatural? (text : String) : Option Nat :=
  let (negative, digits) := Decimal.splitSign text.toList
  (Decimal.digits? digits).filter fun n => n < Decimal.naturalLimit && (!negative || n == 0)

/-- The number that an argument is. -/
def argumentFloat? (text : String) : Option Float :=
  Decimal.read? text.toList

namespace OptionForm

/-- An option whose value is any text. -/
def text (name : String) : OptionForm :=
  ⟨name, none, true, fun _ => true⟩

/-- An option whose value is a number. -/
def float (name : String) : OptionForm :=
  ⟨name, none, true, fun value => (argumentFloat? value).isSome⟩

/-- An option whose value is a number of at most 32 bits. -/
def natural (name : String) : OptionForm :=
  ⟨name, none, false, fun value => (argumentNatural? value).isSome⟩

/-- An option whose value is a path. -/
def path (name : String) (short : Char) : OptionForm :=
  ⟨name, some short, false, fun value => !value.isEmpty⟩

end OptionForm

end DomainColoring
