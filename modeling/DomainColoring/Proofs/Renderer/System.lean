import DomainColoring.Renderer.Worker

/-!
# Owner and worker step by step

The owner of a renderer calls it again and again, and the worker goes its own way meanwhile. Here a call is taken apart into the
steps that the worker's can come between: a request into its two halves, a poll or a wait into the responses that it takes. A
history puts down what the owner calls and gets to know. `Step` says once what a move can do; whatever every step keeps holds
after any moves (`after_induction`).
-/

namespace DomainColoring

/-- What the owner of a renderer is about. -/
inductive Owner (α : Type) where
  /-- It is between two calls. -/
  | free
  /-- It has given up what came before and is about to send the drawing. -/
  | requesting (drawing : Drawing α)
  /-- It takes what has arrived; the generation is the last that this poll has installed. -/
  | polling (installed : Option Nat)
  | waiting (generation : Nat)

/-- Something that the owner does or gets to know. -/
inductive Occurrence (α : Type) where
  /-- A request is called. -/
  | requested (drawing : Drawing α)
  /-- A request returns its generation. -/
  | numbered (generation : Nat)
  /-- A cancellation is called. -/
  | cancelled
  /-- A response is taken from the queue. -/
  | consumed (response : Response α)
  /-- A frame becomes the one that is shown. -/
  | installed (frame : Frame α)
  /-- A poll returns the generation that it installed last. -/
  | polled (installed : Option Nat)
  /-- A wait for a generation returns. -/
  | waited (generation : Nat) (frame : Option (Frame α))
  /-- A poll or a wait returns the error of a render. -/
  | failed (error : RenderError)

/-- Owner and worker, and what has occurred so far, the earliest first. -/
structure System (α : Type) where
  renderer : Renderer α
  owner : Owner α
  history : List (Occurrence α)

/-- What can happen next. -/
inductive Move (α : Type) where
  /-- The owner calls a request, which gives up what came before. -/
  | request (drawing : Drawing α)
  /-- The request hands its drawing over and returns. -/
  | send
  | cancel
  | poll
  | wait (generation : Nat)
  /-- A poll or a wait takes the oldest response. -/
  | take
  /-- A poll finds no response, or a wait finds its generation installed or superseded, and returns. -/
  | finish
  /-- A wait has taken too long, and returns. -/
  | timeOut
  | work (step : WorkerStep)
  /-- Listeners come, are told of an event or take what they have been told. -/
  | listeners (change : Notifier (PlotEvent α) → Notifier (PlotEvent α))

namespace System

variable {α : Type}

/-- A renderer that nothing has been asked of. -/
def initial : System α := ⟨.initial, .free, []⟩

/-- The owner takes a response from the queue. If it is the failure of the latest request the call ends with the error, and
otherwise it goes on. -/
def consume (s : System α) (response : Response α) (rest : List (Response α)) (onward : Option Nat → Owner α) :
    System α :=
  match { s.renderer with responses := rest }.deliver response with
  | (.error error, r) => ⟨r, .free, s.history ++ [.consumed response, .failed error]⟩
  | (.ok none, r) => ⟨r, onward none, s.history ++ [.consumed response]⟩
  | (.ok (some generation), r) =>
    ⟨r, onward (some generation), s.history ++ .consumed response :: r.current.toList.map .installed⟩

/-- The owner is in a call that takes responses, and goes on in the given way after one that does not end the call. -/
inductive Taking (s : System α) : (Option Nat → Owner α) → Prop where
  | polling (installed : Option Nat) (polling : s.owner = .polling installed) :
      Taking s fun generation => .polling (generation <|> installed)
  | waiting (generation : Nat) (waiting : s.owner = .waiting generation) (awaits : s.renderer.Awaits generation) :
      Taking s fun _ => .waiting generation

theorem Taking.ne_requesting {s : System α} {onward : Option Nat → Owner α} (h : s.Taking onward) (installed : Option Nat)
    (drawing : Drawing α) : onward installed ≠ .requesting drawing := by
  cases h <;> exact nofun

variable [Add α] [Sub α] [Mul α] [Div α] [Neg α] [BEq α] [NatCast α] [Elementary α] [Scalar α] [LT α] [DecidableLT α]

/-- The system after a move, where it is possible. -/
def move? (s : System α) (m : Move α) : Option (System α) :=
  match m, s.owner with
  | .request drawing, .free => some ⟨s.renderer.cancel, .requesting drawing, s.history ++ [.requested drawing]⟩
  | .send, .requesting drawing => some ⟨s.renderer.send drawing, .free, s.history ++ [.numbered s.renderer.latest]⟩
  | .cancel, .free => some ⟨s.renderer.cancel, .free, s.history ++ [.cancelled]⟩
  | .poll, .free => some { s with owner := .polling none }
  | .wait generation, .free => some { s with owner := .waiting generation }
  | .take, .polling installed =>
    match s.renderer.responses with
    | response :: rest => some (s.consume response rest fun generation => .polling (generation <|> installed))
    | [] => none
  | .take, .waiting generation =>
    match s.renderer.responses with
    | response :: rest =>
      if s.renderer.Awaits generation then some (s.consume response rest fun _ => .waiting generation) else none
    | [] => none
  | .finish, .polling installed =>
    if s.renderer.responses.isEmpty then some ⟨s.renderer, .free, s.history ++ [.polled installed]⟩ else none
  | .finish, .waiting generation =>
    if s.renderer.Awaits generation then none
    else some ⟨s.renderer, .free, s.history ++ [.waited generation (s.renderer.frame? generation)]⟩
  | .timeOut, .waiting generation =>
    some ⟨s.renderer, .free, s.history ++ [.waited generation (s.renderer.frame? generation)]⟩
  | .work step, _ => (s.renderer.workerStep? step).map fun r => { s with renderer := r }
  | .listeners change, _ => some { s with renderer := { s.renderer with notifier := change s.renderer.notifier } }
  | _, _ => none

/-- The system after a move; one that is not possible changes nothing. -/
def move (s : System α) (m : Move α) : System α :=
  (s.move? m).getD s

/-- The system after a row of moves. -/
def moves (s : System α) (ms : List (Move α)) : System α :=
  ms.foldl move s

/-- The system that a row of moves makes of one that nothing has been asked of. -/
def after (ms : List (Move α)) : System α :=
  initial.moves ms

end System

/-! ## What a move can do -/

variable {α : Type} [Add α] [Sub α] [Mul α] [Div α] [Neg α] [BEq α] [NatCast α] [Elementary α] [Scalar α] [LT α]
  [DecidableLT α]

/-- What a step of the worker can do. -/
inductive Renderer.WorkerMove (r : Renderer α) : Renderer α → Prop where
  | receive (job : Job α) (rest : List (Job α)) (idle : r.worker = .idle) (first : r.requests = job :: rest) :
      WorkerMove r { r with requests := rest, worker := .choosing job }
  | replace (old job : Job α) (rest : List (Job α)) (choosing : r.worker = .choosing old)
      (first : r.requests = job :: rest) : WorkerMove r { r with requests := rest, worker := .choosing job }
  | choose (job : Job α) (choosing : r.worker = .choosing job) (empty : r.requests = []) :
      WorkerMove r { r with worker := .chosen job }
  | note (job : Job α) (chosen : r.worker = .chosen job) :
      WorkerMove r { r with worker := .noted job r.handle.generation }
  | refuse (job : Job α) (generation : Nat) (noted : r.worker = .noted job generation)
      (refused : ¬job.drawing.size.Accepted) :
      WorkerMove r { r with worker := .ended job (.error (.size ⟨job.drawing.size⟩)) 0 }
  | begin (job : Job α) (generation : Nat) (noted : r.worker = .noted job generation)
      (accepted : job.drawing.size.Accepted) :
      WorkerMove r { r with
        worker := .rendering job (.initial job.drawing generation)
        handle := r.handle.resetProgress job.drawing.size.height }
  | row (job : Job α) (run : Run α) (step : RowStep) (run' : Run α) (handle : Handle)
      (rendering : r.worker = .rendering job run) (possible : run.step? r.handle step = some (run', handle)) :
      WorkerMove r { r with worker := .rendering job run', handle }
  | conclude (job : Job α) (run : Run α) (elapsed : Nat) (rendering : r.worker = .rendering job run)
      (drained : run.isDrained = true) :
      WorkerMove r { r with worker := .ended job (run.outcome r.handle) elapsed }
  | respond (job : Job α) (result : Except RenderError Picture) (elapsed : Nat)
      (ended : r.worker = .ended job result elapsed) : WorkerMove r (r.respond job result elapsed)

/-- A step of the worker does one of the things that such steps can do. -/
theorem Renderer.workerMove_of_workerStep? {r r' : Renderer α} {step : WorkerStep} (h : r.workerStep? step = some r') :
    r.WorkerMove r' := by
  unfold Renderer.workerStep? at h
  split at h
  · rename_i idle
    split at h
    · rename_i first
      cases h
      exact .receive _ _ idle first
    · cases h
  · rename_i choosing
    split at h
    · rename_i first
      cases h
      exact .replace _ _ _ choosing first
    · cases h
  · rename_i choosing
    split at h
    · rename_i empty
      cases h
      exact .choose _ choosing (List.isEmpty_iff.1 empty)
    · cases h
  · rename_i chosen
    cases h
    exact .note _ chosen
  · rename_i job generation noted
    unfold Drawing.begin at h
    by_cases accepted : job.drawing.size.Accepted
    · rw [if_pos accepted] at h
      cases h
      exact .begin _ _ noted accepted
    · rw [if_neg accepted] at h
      cases h
      exact .refuse _ _ noted accepted
  · rename_i rendering
    obtain ⟨state, possible, rfl⟩ := Option.map_eq_some_iff.1 h
    exact .row _ _ _ _ _ rendering possible
  · rename_i rendering
    split at h
    · rename_i drained
      cases h
      exact .conclude _ _ _ rendering drained
    · cases h
  · rename_i ended
    cases h
    exact .respond _ _ _ ended
  · cases h

namespace System

/-- What a move can do. -/
inductive Step (s : System α) : System α → Prop where
  | request (drawing : Drawing α) (free : s.owner = .free) :
      Step s ⟨s.renderer.cancel, .requesting drawing, s.history ++ [.requested drawing]⟩
  | send (drawing : Drawing α) (requesting : s.owner = .requesting drawing) :
      Step s ⟨s.renderer.send drawing, .free, s.history ++ [.numbered s.renderer.latest]⟩
  | cancel (free : s.owner = .free) : Step s ⟨s.renderer.cancel, .free, s.history ++ [.cancelled]⟩
  | poll (free : s.owner = .free) : Step s { s with owner := .polling none }
  | wait (generation : Nat) (free : s.owner = .free) : Step s { s with owner := .waiting generation }
  | drop (onward : Option Nat → Owner α) (response : Response α) (rest : List (Response α)) (taking : s.Taking onward)
      (first : s.renderer.responses = response :: rest) (stale : response.generation ≠ s.renderer.latest) :
      Step s ⟨{ s.renderer with responses := rest }, onward none, s.history ++ [.consumed response]⟩
  | fail (onward : Option Nat → Owner α) (response : Response α) (rest : List (Response α)) (error : RenderError)
      (taking : s.Taking onward) (first : s.renderer.responses = response :: rest)
      (latest : response.generation = s.renderer.latest) (failed : response.result = .error error) :
      Step s ⟨{ s.renderer with responses := rest }, .free, s.history ++ [.consumed response, .failed error]⟩
  | install (onward : Option Nat → Owner α) (response : Response α) (rest : List (Response α)) (frame : Frame α)
      (taking : s.Taking onward) (first : s.renderer.responses = response :: rest)
      (latest : response.generation = s.renderer.latest) (rendered : response.result = .ok frame.picture)
      (shows : frame.generation = response.generation ∧ frame.plot = response.plot) :
      Step s ⟨{ s.renderer with responses := rest, current := some frame }.notify (.imageReady response.generation),
        onward (some response.generation), s.history ++ [.consumed response, .installed frame]⟩
  | polled (installed : Option Nat) (polling : s.owner = .polling installed) (empty : s.renderer.responses = []) :
      Step s ⟨s.renderer, .free, s.history ++ [.polled installed]⟩
  | waited (generation : Nat) (waiting : s.owner = .waiting generation) :
      Step s ⟨s.renderer, .free, s.history ++ [.waited generation (s.renderer.frame? generation)]⟩
  | work (r : Renderer α) (possible : s.renderer.WorkerMove r) : Step s { s with renderer := r }
  | listeners (change : Notifier (PlotEvent α) → Notifier (PlotEvent α)) :
      Step s { s with renderer := { s.renderer with notifier := change s.renderer.notifier } }

/-- Taking a response is a step. -/
theorem step_consume {s : System α} {onward : Option Nat → Owner α} {response : Response α} {rest : List (Response α)}
    (taking : s.Taking onward) (first : s.renderer.responses = response :: rest) :
    s.Step (s.consume response rest onward) := by
  unfold consume Renderer.deliver
  by_cases stale : response.generation ≠ s.renderer.latest
  · simp only [if_pos stale]
    exact .drop onward response rest taking first stale
  · simp only [if_neg stale]
    cases result : response.result with
    | error error => exact .fail onward response rest error taking first (Decidable.of_not_not stale) result
    | ok picture => exact .install onward response rest _ taking first (Decidable.of_not_not stale) result ⟨rfl, rfl⟩

/-- Every move that is possible is a step. -/
theorem step_of_move? {s s' : System α} {m : Move α} (h : s.move? m = some s') : s.Step s' := by
  unfold move? at h
  split at h
  · rename_i free
    cases h
    exact .request _ free
  · rename_i requesting
    cases h
    exact .send _ requesting
  · rename_i free
    cases h
    exact .cancel free
  · rename_i free
    cases h
    exact .poll free
  · rename_i free
    cases h
    exact .wait _ free
  · rename_i polling
    split at h
    · rename_i first
      cases h
      exact step_consume (.polling _ polling) first
    · cases h
  · rename_i waiting
    split at h
    · rename_i first
      split at h
      · rename_i awaits
        cases h
        exact step_consume (.waiting _ waiting awaits) first
      · cases h
    · cases h
  · rename_i polling
    split at h
    · rename_i empty
      cases h
      exact .polled _ polling (List.isEmpty_iff.1 empty)
    · cases h
  · rename_i waiting
    split at h
    · cases h
    · cases h
      exact .waited _ waiting
  · rename_i waiting
    cases h
    exact .waited _ waiting
  · obtain ⟨r, possible, rfl⟩ := Option.map_eq_some_iff.1 h
    exact .work r (Renderer.workerMove_of_workerStep? possible)
  · cases h
    exact .listeners _
  · cases h

/-- What is kept by every step is kept by any moves. -/
theorem moves_induction {P : System α → Prop} (step : ∀ s s', P s → s.Step s' → P s') (ms : List (Move α)) {s : System α}
    (start : P s) : P (s.moves ms) := by
  induction ms generalizing s with
  | nil => exact start
  | cons m ms ih =>
    refine ih ?_
    unfold move
    cases hm : s.move? m with
    | none => exact start
    | some s' => exact step s s' start (step_of_move? hm)

/-- What holds of a renderer that nothing has been asked of, and is kept by every step, holds after any moves. -/
theorem after_induction {P : System α → Prop} (start : P initial) (step : ∀ s s', P s → s.Step s' → P s')
    (ms : List (Move α)) : P (after ms) :=
  moves_induction step ms start

end System

end DomainColoring
