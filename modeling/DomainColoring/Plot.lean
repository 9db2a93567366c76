import DomainColoring.Postfix.Expression
import DomainColoring.Viewport
import DomainColoring.Decimal
import DomainColoring.ComplexNumber

/-!
# Plots

What a picture shows, how it is chosen, and what can be read off it at a point.
-/

namespace DomainColoring

/-!
## Functions over viewports

What a picture shows: a function and the part of the plane it is drawn over.
-/

/-- A function over a viewport. -/
structure Plot (α : Type) where
  expression : Expression α
  viewport : Viewport α
  deriving DecidableEq, Repr

/-- The plot that is shown before another is chosen: the identity. -/
def Plot.standard {α : Type} [Neg α] [NatCast α] : Plot α :=
  ⟨.identity, .standard⟩

/-!
## Plots from text fields

A plot is submitted as five texts. All of them are checked, and whatever is wrong is reported together; a plot comes out only if
nothing is. The viewport as a whole is looked at once its four bounds are numbers.
-/

/-- A part of a submission that can be wrong. -/
inductive Field where
  | expression
  | bound (side : Side)
  | viewport
  deriving DecidableEq, Repr

namespace Field

/-- The name of a field in messages. -/
def name : Field → String
  | expression => "expression"
  | bound side => side.name
  | viewport => "viewport"

/-- All fields in the order in which they are reported. -/
def all : List Field :=
  [expression, bound .reUpper, bound .reLower, bound .imUpper, bound .imLower, viewport]

/-- The field of a name. -/
def ofName? (name : String) : Option Field :=
  all.find? (·.name == name)

end Field

/-- What is wrong with a field. -/
inductive FieldFault where
  | expression (error : ExpressionError)
  /-- The text of a field that should be a finite number. -/
  | notDecimal (field : Field) (text : String)
  | viewport (fault : ViewportFault Float)

/-- The fault in words. -/
def FieldFault.message : FieldFault → String
  | expression error => error.message
  | notDecimal field text => field.name ++ ": " ++ Text.quote text ++ " is not a decimal number"
  | viewport fault => fault.message

/-- A field together with what is wrong with it. -/
structure Failure where
  field : Field
  fault : FieldFault

/-- The failure in words. -/
def Failure.message (f : Failure) : String :=
  f.field.name ++ ": " ++ f.fault.message

/-- All that is wrong with a submission. -/
structure Rejection where
  failures : List Failure

namespace Rejection

/-- The rejection in words. -/
def message (r : Rejection) : String :=
  "invalid plot configuration (" ++ String.intercalate "; " (r.failures.map Failure.message) ++ ")"

/-- What is wrong with the field of that name, if anything is. -/
def fault? (r : Rejection) (name : String) : Option FieldFault :=
  (r.failures.find? (·.field.name == name)).map (·.fault)

end Rejection

/-- The texts of a submission. -/
structure PlotFields where
  expression : String
  reUpper : String
  reLower : String
  imUpper : String
  imLower : String
  deriving DecidableEq, Repr

/-- The text of one bound. -/
def PlotFields.bound (f : PlotFields) : Side → String
  | .reUpper => f.reUpper
  | .reLower => f.reLower
  | .imUpper => f.imUpper
  | .imLower => f.imLower

/-- The finite number that the text of a field is, blanks around it aside. -/
def Field.readNumber (field : Field) (text : String) : Except FieldFault Float :=
  match Decimal.read? (Text.trim text.toList) with
  | some x => if x.isFinite then .ok x else .error (.notDecimal field text)
  | none => .error (.notDecimal field text)

/-- What is wrong with a field, as a list of one failure or none. -/
def Field.failures {β : Type} (field : Field) : Except FieldFault β → List Failure
  | .ok _ => []
  | .error fault => [⟨field, fault⟩]

namespace PlotFields

/-- The expression of a submission. -/
def readExpression (f : PlotFields) : Except FieldFault (Expression Float) :=
  (Expression.parse f.expression).mapError .expression

/-- One bound of a submission. -/
def readBound (f : PlotFields) (side : Side) : Except FieldFault Float :=
  (Field.bound side).readNumber (f.bound side)

/-- The viewport of a submission, if its four bounds are numbers. -/
def readViewport? (f : PlotFields) : Option (Except FieldFault (Viewport Float)) :=
  match f.readBound .reUpper, f.readBound .reLower, f.readBound .imUpper, f.readBound .imLower with
  | .ok reUpper, .ok reLower, .ok imUpper, .ok imLower =>
    some ((Viewport.checked ⟨reUpper, reLower, imUpper, imLower⟩).mapError .viewport)
  | _, _, _, _ => none

/-- All that is wrong with a submission, in the order of the fields. -/
def failures (f : PlotFields) : List Failure :=
  Field.expression.failures f.readExpression ++
    [Side.reUpper, .reLower, .imUpper, .imLower].flatMap (fun side => (Field.bound side).failures (f.readBound side)) ++
    (f.readViewport?.map Field.viewport.failures).getD []

end PlotFields

/-- The plot that is submitted, or all that is wrong with it. -/
def Plot.ofFields (f : PlotFields) : Except Rejection (Plot Float) :=
  match f.readExpression, f.readViewport? with
  | .ok expression, some (.ok viewport) => .ok ⟨expression, viewport⟩
  | _, _ => .error ⟨f.failures⟩

/-!
## Readouts

Numbers for one point of a plot: the point, the value there, and the places of both on the image.
-/

/-- A complex number with its polar form. -/
structure PointSummary (α : Type) where
  value : ComplexNumber α
  modulus : α
  argument : α
  deriving DecidableEq, Repr

/-- A point of the plane and its value under a function. There is no marker for what is not finite or has no value. -/
structure Readout (α : Type) where
  input : PointSummary α
  output : Except ExpressionError (PointSummary α)
  inputMarker : Option Marker
  outputMarker : Option Marker

section Reading

variable {α : Type} [Add α] [Sub α] [Mul α] [Div α] [Neg α] [BEq α] [NatCast α] [Elementary α] [Scalar α] [LT α]
  [DecidableLT α]

/-- A number with its polar form. -/
def PointSummary.of (value : ComplexNumber α) : PointSummary α :=
  ⟨value, value.norm, value.arg⟩

namespace Plot

/-- The readout at a point. -/
def readout (p : Plot α) (size : Size) (z : ComplexNumber α) : Readout α :=
  let value := p.expression.eval z
  { input := .of z
    output := value.map .of
    inputMarker := p.viewport.markerOf? size z
    outputMarker := value.toOption.bind (p.viewport.markerOf? size) }

/-- The readout at a position of an image, refused for an image without pixels. -/
def readoutAt (p : Plot α) (size : Size) (column row : α) : Except Size.Refusal (Readout α) :=
  if size.width = 0 ∨ size.height = 0 then .error ⟨size⟩
  else .ok (p.readout size (p.viewport.pointAt size column row))

end Plot

end Reading

/-- The number in Cartesian and polar form, each part with three decimal places. -/
def PointSummary.text (s : PointSummary Float) : String :=
  "re = " ++ Decimal.fixedText 3 s.value.re ++ ", im = " ++ Decimal.fixedText 3 s.value.im ++
    ", |z| = " ++ Decimal.fixedText 3 s.modulus ++ ", arg = " ++ Decimal.fixedText 3 s.argument

/-- The two lines of a readout. -/
def Readout.lines (r : Readout Float) : List String :=
  ["z    : " ++ r.input.text,
    match r.output with
    | .ok value => "f(z) : " ++ value.text
    | .error error => "f(z) : undefined (" ++ error.message ++ ")"]

end DomainColoring
