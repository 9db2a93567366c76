import DomainColoring.Renderer.Basic

/-!
# The worker of a renderer

The worker takes a job, drops it for a newer one as long as there is one, notes the generation of the handle and renders. A render
that was cancelled is dropped; any other end of it goes back to the owner. The owner's steps can come between any two of the steps
below, also between the end of a render and the answer.
-/

namespace DomainColoring

/-- What the worker can do next. -/
inductive WorkerStep where
  /-- Takes the oldest request. -/
  | receive
  /-- Drops its job for the oldest request. -/
  | replace
  /-- Finds no request and stays with its job. -/
  | choose
  /-- Notes the generation of the handle. -/
  | note
  /-- Checks the size and begins the render, or ends it because the size is refused. -/
  | begin
  | row (step : RowStep)
  /-- Ends a render without rows left, which has taken so many milliseconds. -/
  | conclude (elapsed : Nat)
  /-- Answers with the result of the render, or drops it. -/
  | respond
  deriving DecidableEq, Repr

namespace Renderer

variable {α : Type} [Add α] [Sub α] [Mul α] [Div α] [Neg α] [BEq α] [NatCast α] [Elementary α] [Scalar α] [LT α]
  [DecidableLT α]

/-- The answer to a job: nothing is sent if its render was cancelled. -/
def respond (r : Renderer α) (job : Job α) (result : Except RenderError Picture) (elapsed : Nat) : Renderer α :=
  match result with
  | .error .cancelled => { r with worker := .idle }
  | _ => { r with worker := .idle, responses := r.responses ++ [⟨job.generation, job.drawing.plot, result, elapsed⟩] }

/-- A step of the worker, where it is possible. -/
def workerStep? (r : Renderer α) (s : WorkerStep) : Option (Renderer α) :=
  match s, r.worker with
  | .receive, .idle =>
    match r.requests with
    | job :: rest => some { r with requests := rest, worker := .choosing job }
    | [] => none
  | .replace, .choosing _ =>
    match r.requests with
    | job :: rest => some { r with requests := rest, worker := .choosing job }
    | [] => none
  | .choose, .choosing job => if r.requests.isEmpty then some { r with worker := .chosen job } else none
  | .note, .chosen job => some { r with worker := .noted job r.handle.generation }
  | .begin, .noted job generation =>
    match job.drawing.begin generation r.handle with
    | .error error => some { r with worker := .ended job (.error error) 0 }
    | .ok (run, handle) => some { r with worker := .rendering job run, handle }
  | .row step, .rendering job run =>
    (run.step? r.handle step).map fun (run, handle) => { r with worker := .rendering job run, handle }
  | .conclude elapsed, .rendering job run =>
    if run.isDrained then some { r with worker := .ended job (run.outcome r.handle) elapsed } else none
  | .respond, .ended job result elapsed => some (r.respond job result elapsed)
  | _, _ => none

/-- The renderer after a step of the worker; one that is not possible changes nothing. -/
def workerStep (r : Renderer α) (s : WorkerStep) : Renderer α :=
  (r.workerStep? s).getD r

/-- The renderer after a row of steps of the worker. -/
def work (r : Renderer α) (steps : List WorkerStep) : Renderer α :=
  steps.foldl workerStep r

/-- The steps of a worker from the beginning of a job to its end, with the rows in order and no time spent. -/
def stepsOf (job : Job α) : List WorkerStep :=
  [.note, .begin] ++ (Run.inOrder job.drawing.size.height).map .row ++ [.conclude 0, .respond]

/-- The steps of a worker that is idle and finds the given requests: it takes them all and renders the last. -/
def stepsFor (requests : List (Job α)) : List WorkerStep :=
  match requests.getLast? with
  | none => []
  | some job => .receive :: List.replicate (requests.length - 1) .replace ++ .choose :: stepsOf job

/-- The steps that bring the worker to the end of all that has been asked of it, if the owner does nothing meanwhile. -/
def remainingSteps (r : Renderer α) : List WorkerStep :=
  match r.worker with
  | .idle => stepsFor r.requests
  | .choosing job =>
    List.replicate r.requests.length .replace ++ .choose :: stepsOf ((r.requests.getLast?).getD job)
  | .chosen job => stepsOf job ++ stepsFor r.requests
  | .noted job _ => stepsOf job ++ stepsFor r.requests
  | .rendering _ run =>
    run.started.map (fun (row, lane) => .row (.finish row lane)) ++
      run.waiting.flatMap (fun row => [.row (.start row 0), .row (.finish row 0)]) ++
      .conclude 0 :: .respond :: stepsFor r.requests
  | .ended .. => .respond :: stepsFor r.requests

/-- Asks for a drawing. The worker goes on between the two halves of a request. The drawing has the latest generation
afterwards. -/
def request (r : Renderer α) (d : Drawing α) (meanwhile : Renderer α → List WorkerStep) : Renderer α :=
  let cancelled := r.cancel
  (cancelled.work (meanwhile cancelled)).send d

/-- Takes the responses of a list one after the other for as long as the generation is awaited. What is not taken stays in the
queue. -/
def receiveUntil (r : Renderer α) (generation : Nat) : List (Response α) → Except RenderError Unit × Renderer α
  | [] => (.ok (), { r with responses := [] })
  | response :: rest =>
    if r.Awaits generation then
      match r.deliver response with
      | (.error error, r) => (.error error, { r with responses := rest })
      | (.ok _, r) => r.receiveUntil generation rest
    else (.ok (), { r with responses := response :: rest })

/-- Waits for a generation while the worker takes the given steps. The wait ends when the generation is installed or is not the
latest, with the error of its render, or, as one that has taken too long, when there are no steps left. Of the frame that is shown
then, only one of the generation is returned. -/
def waitDuring (r : Renderer α) (generation : Nat) :
    List WorkerStep → Except RenderError (Option (Frame α)) × Renderer α
  | [] =>
    match r.receiveUntil generation r.responses with
    | (.error error, r) => (.error error, r)
    | (.ok (), r) => (.ok (r.frame? generation), r)
  | step :: steps =>
    match r.receiveUntil generation r.responses with
    | (.error error, r) => (.error error, r)
    | (.ok (), r) =>
      if r.Awaits generation then (r.workerStep step).waitDuring generation steps
      else (.ok (r.frame? generation), r)

end Renderer

end DomainColoring
