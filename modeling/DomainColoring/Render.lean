import DomainColoring.Color
import DomainColoring.Plot
import DomainColoring.Image

/-!
# Renders

How a plot becomes a picture: row by row, in any order, and with a handle by which the render can be stopped and watched.
-/

namespace DomainColoring

/-!
## Handles

What a render shares with those who watch it or want it stopped: a generation, which every cancellation advances, and the count of
rows that are done.
-/

/-- The generation, and how many rows of how many are done. -/
structure Handle where
  generation : Nat
  done : Nat
  total : Nat
  deriving DecidableEq, Repr

namespace Handle

/-- A handle that nothing has happened to. -/
def initial : Handle := ⟨0, 0, 0⟩

/-- Advances the generation: what was started under an earlier one is not wanted any more. -/
def cancel (h : Handle) : Handle := { h with generation := h.generation + 1 }

/-- Starts to count the rows of a render. -/
def resetProgress (h : Handle) (total : Nat) : Handle := { h with done := 0, total := total }

/-- Counts one row. -/
def rowDone (h : Handle) : Handle := { h with done := h.done + 1 }

end Handle

/-!
## Painting rows

The pixels of one row of a plot. A stack is handed from pixel to pixel, so that none has to be made anew; whatever an evaluation
leaves on it does not matter to the next. A pixel without a finite value is painted white and counted, and painting goes on.
-/

section Painting

/-- A painted row: its colors, how many of them stand for no value, and the stack as it was left. -/
structure PaintedRow (α : Type) where
  colors : List Rgb
  undefinedPixels : Nat
  stack : Stack α

variable {α : Type} [Add α] [Sub α] [Mul α] [Div α] [Neg α] [BEq α] [NatCast α] [Elementary α] [Scalar α] [LT α]
  [DecidableLT α]

/-- The color of a result, if it is a finite value. -/
def Shading.resultColor? (s : Shading α) : Except ExpressionError (ComplexNumber α) → Option Rgb
  | .ok w => if w.isFinite then some (s.color w) else none
  | .error _ => none

/-- Paints the given columns of a row, from the stack that the row before left. -/
def Plot.paintColumns (p : Plot α) (s : Shading α) (size : Size) (row : Nat) : List Nat → Stack α → PaintedRow α
  | [], stack => ⟨[], 0, stack⟩
  | column :: columns, stack =>
    let z := p.viewport.pointAt size (Nat.cast column) (Nat.cast row)
    let (result, stack) := p.expression.evalWith z stack
    let rest := p.paintColumns s size row columns stack
    match s.resultColor? result with
    | some color => { rest with colors := color :: rest.colors }
    | none => { rest with colors := .undefined :: rest.colors, undefinedPixels := rest.undefinedPixels + 1 }

/-- Paints a row, from the stack that the row before left. -/
def Plot.paintRow (p : Plot α) (s : Shading α) (size : Size) (row : Nat) (stack : Stack α) : PaintedRow α :=
  p.paintColumns s size row (List.range size.width) stack

end Painting

/-!
## Runs of a render

A render works on rows in any order, several at a time, each with the stack of the lane it runs in. A row that is about to start
looks at the generation of the handle: if it is no longer the one under which the render began, the row is left out. When no row
is left the generation is looked at once more, and it alone decides whether there is a picture.
-/

/-- A finished picture: the image, and how many of its pixels stand for no value. -/
structure Picture where
  image : Image
  undefinedPixels : Nat
  deriving DecidableEq, Repr

/-- Why a render gives no picture. -/
inductive RenderError where
  | size (refusal : Size.Refusal)
  | cancelled
  deriving DecidableEq, Repr

/-- The error in words. -/
def RenderError.message : RenderError → String
  | size refusal => refusal.message
  | cancelled => "render cancelled"

/-- What is to be drawn: a plot, its size and its shading. -/
structure Drawing (α : Type) where
  plot : Plot α
  size : Size
  shading : Shading α
  deriving DecidableEq, Repr

/-- A render under way. -/
structure Run (α : Type) where
  drawing : Drawing α
  /-- The generation under which the render began. -/
  generation : Nat
  /-- The rows that are painted, the latest first. -/
  painted : List (Nat × List Rgb)
  /-- How many of the painted pixels stand for no value. -/
  undefinedPixels : Nat
  /-- The stack of each lane. -/
  lanes : List (Stack α)
  /-- The rows that have not started. -/
  waiting : List Nat
  /-- The rows that have started and are not finished, with their lanes. -/
  started : List (Nat × Nat)

/-- What can happen in a render. -/
inductive RowStep where
  /-- A row starts in a lane, or is left out. -/
  | start (row lane : Nat)
  /-- A row is painted. -/
  | finish (row lane : Nat)
  deriving DecidableEq, Repr

/-- Puts a stack in the place of a lane; lanes that are missing up to there are empty. -/
def setLane {α : Type} (lanes : List (Stack α)) (lane : Nat) (stack : Stack α) : List (Stack α) :=
  if lane < lanes.length then lanes.set lane stack
  else lanes ++ List.replicate (lane - lanes.length) [] ++ [stack]

namespace Run

variable {α : Type}

/-- A render at its beginning. -/
def initial (d : Drawing α) (generation : Nat) : Run α :=
  { drawing := d
    generation
    painted := []
    undefinedPixels := 0
    lanes := []
    waiting := List.range d.size.height
    started := [] }

/-- Whether no row is left. -/
def isDrained (r : Run α) : Bool :=
  r.waiting.isEmpty && r.started.isEmpty

/-- The image as far as it is painted; the rest is black. -/
def image (r : Run α) : Image :=
  r.painted.foldr (fun (row, colors) image => image.writeRow row 0 (colors.flatMap Rgb.bytes)) (.black r.drawing.size)

/-- The outcome of a render without rows left: a picture only if nobody has cancelled since it began. -/
def outcome (r : Run α) (h : Handle) : Except RenderError Picture :=
  if h.generation = r.generation then .ok ⟨r.image, r.undefinedPixels⟩ else .error .cancelled

variable [Add α] [Sub α] [Mul α] [Div α] [Neg α] [BEq α] [NatCast α] [Elementary α] [Scalar α] [LT α] [DecidableLT α]

/-- The step of one row, where it is possible: a row starts once, a free lane takes one row at a time, and what has started is
painted in its own lane. -/
def step? (r : Run α) (h : Handle) : RowStep → Option (Run α × Handle)
  | .start row lane =>
    if row ∈ r.waiting ∧ ∀ other ∈ r.started, other.2 ≠ lane then
      let r := { r with waiting := r.waiting.erase row }
      some (if h.generation = r.generation then { r with started := (row, lane) :: r.started } else r, h)
    else none
  | .finish row lane =>
    if (row, lane) ∈ r.started then
      let painted := r.drawing.plot.paintRow r.drawing.shading r.drawing.size row (r.lanes.getD lane [])
      some
        ({ r with
            painted := (row, painted.colors) :: r.painted
            undefinedPixels := r.undefinedPixels + painted.undefinedPixels
            lanes := setLane r.lanes lane painted.stack
            started := r.started.erase (row, lane) },
          h.rowDone)
    else none

/-- The state after a step; one that is not possible changes nothing. -/
def step (state : Run α × Handle) (s : RowStep) : Run α × Handle :=
  (state.1.step? state.2 s).getD state

/-- The rows of a render one after the other in one lane. -/
def inOrder (height : Nat) : List RowStep :=
  (List.range height).flatMap fun row => [.start row 0, .finish row 0]

end Run

/-- Begins a render. The generation is that of the handle at that moment; then the size is checked, and the count of rows starts
anew. -/
def Drawing.begin {α : Type} (d : Drawing α) (generation : Nat) (h : Handle) : Except RenderError (Run α × Handle) :=
  if d.size.Accepted then .ok (.initial d generation, h.resetProgress d.size.height) else .error (.size ⟨d.size⟩)

section Render

variable {α : Type} [Add α] [Sub α] [Mul α] [Div α] [Neg α] [BEq α] [NatCast α] [Elementary α] [Scalar α] [LT α]
  [DecidableLT α]

/-- A render whose rows are painted one after the other. Between its beginning and its first row something may happen to the
handle. -/
def Drawing.renderWith (d : Drawing α) (meanwhile : Handle → Handle) (h : Handle) : Except RenderError Picture × Handle :=
  match d.begin h.generation h with
  | .error error => (.error error, h)
  | .ok (r, h) =>
    let (r, h) := (Run.inOrder d.size.height).foldl Run.step (r, meanwhile h)
    (r.outcome h, h)

/-- The picture of a drawing that nobody interrupts. -/
def Drawing.render (d : Drawing α) : Except RenderError Picture :=
  (d.renderWith id .initial).1

end Render

end DomainColoring
