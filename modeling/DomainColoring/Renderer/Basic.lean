import DomainColoring.Notifier
import DomainColoring.Render

/-!
# The background renderer

An owner asks for drawings, a worker renders them. Requests and responses pass through two queues; the handle is shared. Each
request has a generation of its own, and a response is installed only if no later request or cancellation has been made. The two
parties take their steps in any order: here are those of the owner, in `Renderer.Worker` those of the worker.
-/

namespace DomainColoring

/-- A request on its way to the worker. -/
structure Job (α : Type) where
  generation : Nat
  drawing : Drawing α

/-- The end of a render on its way to the owner. -/
structure Response (α : Type) where
  generation : Nat
  plot : Plot α
  result : Except RenderError Picture
  /-- How long the render took, in milliseconds. -/
  elapsed : Nat

/-- The picture that is shown, and what it shows. -/
structure Frame (α : Type) where
  generation : Nat
  plot : Plot α
  picture : Picture
  /-- How long the render took, in milliseconds. -/
  elapsed : Nat

/-- What listeners of a renderer hear of. -/
inductive PlotEvent (α : Type) where
  /-- A picture was installed. -/
  | imageReady (generation : Nat)
  /-- Another plot was chosen. -/
  | inputChanged
  | cursorMoved (column row : α)
  deriving DecidableEq, Repr

/-- What the worker is about. -/
inductive Worker (α : Type) where
  /-- It waits for a request. -/
  | idle
  /-- It holds a job and looks for a newer one. -/
  | choosing (job : Job α)
  /-- It has chosen a job and is about to note the generation of the handle. -/
  | chosen (job : Job α)
  /-- It has noted the generation and is about to begin the render. -/
  | noted (job : Job α) (generation : Nat)
  | rendering (job : Job α) (run : Run α)
  /-- Its render has ended, and it is about to answer or to drop the result. -/
  | ended (job : Job α) (result : Except RenderError Picture) (elapsed : Nat)

/-- Owner and worker with all that lies between them. -/
structure Renderer (α : Type) where
  /-- The requests that the worker has not taken, the oldest first. -/
  requests : List (Job α)
  /-- The responses that the owner has not taken, the oldest first. -/
  responses : List (Response α)
  handle : Handle
  worker : Worker α
  /-- The generation of the latest request or cancellation. -/
  latest : Nat
  current : Option (Frame α)
  notifier : Notifier (PlotEvent α)

namespace Renderer

variable {α : Type}

/-- A renderer that nothing has been asked of. -/
def initial : Renderer α :=
  { requests := []
    responses := []
    handle := .initial
    worker := .idle
    latest := 0
    current := none
    notifier := .empty }

/-- Gives up what is being rendered: the handle and the latest generation advance. This is also the first half of a request. -/
def cancel (r : Renderer α) : Renderer α :=
  { r with handle := r.handle.cancel, latest := r.latest + 1 }

/-- Hands a drawing to the worker under the latest generation, the second half of a request. -/
def send (r : Renderer α) (d : Drawing α) : Renderer α :=
  { r with requests := r.requests ++ [⟨r.latest, d⟩] }

/-- Tells the listeners of an event. -/
def notify (r : Renderer α) (event : PlotEvent α) : Renderer α :=
  { r with notifier := (r.notifier.notify event).1 }

/-- Takes a response. One of an earlier generation is dropped; a failed render is the owner's to report; a picture is
installed. -/
def deliver (r : Renderer α) (response : Response α) : Except RenderError (Option Nat) × Renderer α :=
  if response.generation ≠ r.latest then (.ok none, r)
  else match response.result with
    | .error error => (.error error, r)
    | .ok picture =>
      let r := { r with current := some ⟨response.generation, response.plot, picture, response.elapsed⟩ }
      (.ok (some response.generation), r.notify (.imageReady response.generation))

/-- Takes the responses of a list one after the other up to the first error, and says which generation was installed last. What
follows an error stays in the queue. -/
def deliverAll (r : Renderer α) (installed : Option Nat) : List (Response α) → Except RenderError (Option Nat) × Renderer α
  | [] => (.ok installed, { r with responses := [] })
  | response :: rest =>
    match r.deliver response with
    | (.error error, r) => (.error error, { r with responses := rest })
    | (.ok none, r) => r.deliverAll installed rest
    | (.ok (some generation), r) => r.deliverAll (some generation) rest

/-- Takes all responses that have arrived. -/
def poll (r : Renderer α) : Except RenderError (Option Nat) × Renderer α :=
  r.deliverAll none r.responses

/-- The frame that is shown, if it is of that generation. -/
def frame? (r : Renderer α) (generation : Nat) : Option (Frame α) :=
  r.current.filter (·.generation = generation)

/-- Whether it makes sense to wait for a generation: it is the latest, and not installed yet. -/
def Awaits (r : Renderer α) (generation : Nat) : Prop :=
  generation = r.latest ∧ ∀ frame ∈ r.current, frame.generation < generation

instance (r : Renderer α) (generation : Nat) : Decidable (r.Awaits generation) :=
  inferInstanceAs (Decidable (_ ∧ _))

/-- The renderer in a few words. -/
def text (r : Renderer α) : String :=
  let current := match r.current with
    | some frame => "Some(" ++ toString frame.generation ++ ")"
    | none => "None"
  "PlotRenderer \x7b generation: " ++ toString r.latest ++ ", current: " ++ current ++
    ", listeners: " ++ toString r.notifier.size ++ " \x7d"

end Renderer

end DomainColoring
