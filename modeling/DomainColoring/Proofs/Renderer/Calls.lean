import DomainColoring.Proofs.Renderer.System

/-!
# Calls as moves

A call of the owner, with whatever the worker does meanwhile, is a row of moves that ends with what the call returns
(`System.reaches_call`). So what holds after any moves holds after any calls.
-/

namespace DomainColoring

variable {α : Type}

/-- The queue of responses has no part in the delivery of a response that has been taken from it. -/
theorem Renderer.deliver_responses (r : Renderer α) (rest : List (Response α)) (response : Response α) :
    { r with responses := rest }.deliver response =
      ((r.deliver response).1, { (r.deliver response).2 with responses := rest }) := by
  unfold deliver
  by_cases stale : response.generation ≠ r.latest
  · simp only [if_pos stale]
  · simp only [if_neg stale]
    cases response.result with
    | error error => rfl
    | ok picture => rfl

/-- What taking a response does, by what its delivery does to a renderer whose queue is left out of it. -/
theorem System.consume_eq (r : Renderer α) (history : List (Occurrence α)) (owner : Owner α) (response : Response α)
    (rest : List (Response α)) (onward : Option Nat → Owner α) :
    (⟨{ r with responses := response :: rest }, owner, history⟩ : System α).consume response rest onward =
      match r.deliver response with
      | (.error error, r) => ⟨{ r with responses := rest }, .free, history ++ [.consumed response, .failed error]⟩
      | (.ok none, r) => ⟨{ r with responses := rest }, onward none, history ++ [.consumed response]⟩
      | (.ok (some generation), r) =>
        ⟨{ r with responses := rest }, onward (some generation),
          history ++ .consumed response :: r.current.toList.map .installed⟩ := by
  have delivered := r.deliver_responses rest response
  simp only [consume]
  rw [delivered]
  rcases r.deliver response with ⟨_ | _ | generation, r'⟩ <;> rfl

/-- The end of a poll. -/
@[simp] def Occurrence.ofPoll : Except RenderError (Option Nat) → Occurrence α
  | .ok generation => .polled generation
  | .error error => .failed error

/-- The end of a wait for a generation. -/
@[simp] def Occurrence.ofWait (generation : Nat) : Except RenderError (Option (Frame α)) → Occurrence α
  | .ok frame => .waited generation frame
  | .error error => .failed error

/-- A call of the owner, with the steps that the worker takes meanwhile. -/
inductive Call (α : Type) where
  | request (drawing : Drawing α) (meanwhile : Renderer α → List WorkerStep)
  | cancel
  | poll
  | wait (generation : Nat) (meanwhile : List WorkerStep)

variable [Add α] [Sub α] [Mul α] [Div α] [Neg α] [BEq α] [NatCast α] [Elementary α] [Scalar α] [LT α] [DecidableLT α]

/-- A wait ends with an error, or because its steps are used up or its generation is not awaited any more. Otherwise the worker
takes a step and the wait goes on. -/
theorem Renderer.waitDuring_induction {generation : Nat}
    {P : Renderer α → List WorkerStep → Except RenderError (Option (Frame α)) × Renderer α → Prop}
    (fails : ∀ r steps error r', r.receiveUntil generation r.responses = (.error error, r') → P r steps (.error error, r'))
    (ends : ∀ r steps r', r.receiveUntil generation r.responses = (.ok (), r') → steps = [] ∨ ¬r'.Awaits generation →
      P r steps (.ok (r'.frame? generation), r'))
    (goesOn : ∀ r step steps r' ended, r.receiveUntil generation r.responses = (.ok (), r') → r'.Awaits generation →
      P (r'.workerStep step) steps ended → P r (step :: steps) ended)
    (r : Renderer α) (steps : List WorkerStep) : P r steps (r.waitDuring generation steps) := by
  induction steps generalizing r with
  | nil =>
    rw [waitDuring]
    rcases received : r.receiveUntil generation r.responses with ⟨error | _, r'⟩
    · exact fails r [] error r' received
    · exact ends r [] r' received (.inl rfl)
  | cons step steps ih =>
    rw [waitDuring]
    rcases received : r.receiveUntil generation r.responses with ⟨error | _, r'⟩
    · exact fails r (step :: steps) error r' received
    · by_cases awaits : r'.Awaits generation
      · simp only [if_pos awaits]
        exact goesOn r step steps r' _ received awaits (ih _)
      · simp only [if_neg awaits]
        exact ends r (step :: steps) r' received (.inr awaits)

/-- The end of a call, and the renderer afterwards. -/
def Renderer.call (r : Renderer α) : Call α → Occurrence α × Renderer α
  | .request drawing meanwhile =>
    let r := r.request drawing meanwhile
    (.numbered r.latest, r)
  | .cancel => (.cancelled, r.cancel)
  | .poll => (.ofPoll r.poll.1, r.poll.2)
  | .wait generation meanwhile =>
    let (result, r) := r.waitDuring generation meanwhile
    (.ofWait generation result, r)

namespace System

/-- Some moves make one system of another. -/
def Reaches (s s' : System α) : Prop :=
  ∃ ms, s.moves ms = s'

theorem Reaches.refl (s : System α) : s.Reaches s :=
  ⟨[], rfl⟩

theorem Reaches.trans {s s' s'' : System α} (h : s.Reaches s') (h' : s'.Reaches s'') : s.Reaches s'' := by
  obtain ⟨ms, rfl⟩ := h
  obtain ⟨ms', rfl⟩ := h'
  exact ⟨ms ++ ms', List.foldl_append⟩

theorem Reaches.move {s s' : System α} (m : Move α) (h : s.move? m = some s') : s.Reaches s' := by
  refine ⟨[m], ?_⟩
  change s.move m = s'
  rw [System.move, h]
  rfl

/-- The worker can take its steps whatever the owner is about. -/
theorem reaches_work (s : System α) (steps : List WorkerStep) :
    s.Reaches { s with renderer := s.renderer.work steps } := by
  induction steps generalizing s with
  | nil => exact .refl s
  | cons step steps ih =>
    have first : s.Reaches { s with renderer := s.renderer.workerStep step } := by
      unfold Renderer.workerStep
      cases h : s.renderer.workerStep? step with
      | none => exact .refl s
      | some r =>
        refine .move (.work step) ?_
        unfold move?
        split <;> simp_all
    exact first.trans (ih _)

/-! ## Taking responses -/

variable (r : Renderer α) (history : List (Occurrence α))

/-- A poll takes the responses one by one. -/
theorem reaches_deliverAll (installed : Option Nat) (responses : List (Response α)) :
    ∃ more, (⟨{ r with responses }, .polling installed, history⟩ : System α).Reaches
      ⟨(r.deliverAll installed responses).2, .free, history ++ more ++ [.ofPoll (r.deliverAll installed responses).1]⟩ := by
  induction responses generalizing r history installed with
  | nil => exact ⟨[], .move .finish (by simp [move?, Renderer.deliverAll, Occurrence.ofPoll])⟩
  | cons response rest ih =>
    have first : (⟨{ r with responses := response :: rest }, .polling installed, history⟩ : System α).Reaches
        (consume ⟨{ r with responses := response :: rest }, .polling installed, history⟩ response rest
          fun generation => .polling (generation <|> installed)) := .move .take rfl
    rw [consume_eq] at first
    rw [Renderer.deliverAll]
    rcases delivered : r.deliver response with ⟨_ | _ | generation, r'⟩
    · rw [delivered] at first
      exact ⟨[.consumed response], by simpa using first⟩
    · rw [delivered] at first
      obtain ⟨more, next⟩ := ih r' (history ++ [.consumed response]) installed
      exact ⟨.consumed response :: more, by simpa using first.trans next⟩
    · rw [delivered] at first
      obtain ⟨more, next⟩ := ih r' (history ++ .consumed response :: r'.current.toList.map .installed) (some generation)
      exact ⟨.consumed response :: r'.current.toList.map .installed ++ more, by simpa using first.trans next⟩

/-- A wait takes responses one by one for as long as it makes sense to wait. -/
theorem reaches_receiveUntil (generation : Nat) (responses : List (Response α)) :
    ∃ more, (⟨{ r with responses }, .waiting generation, history⟩ : System α).Reaches
      (match r.receiveUntil generation responses with
        | (.ok (), r) => ⟨r, .waiting generation, history ++ more⟩
        | (.error error, r) => ⟨r, .free, history ++ more ++ [.failed error]⟩) := by
  induction responses generalizing r history with
  | nil => exact ⟨[], by simpa [Renderer.receiveUntil] using Reaches.refl _⟩
  | cons response rest ih =>
    rw [Renderer.receiveUntil]
    by_cases awaits : r.Awaits generation
    · have first : (⟨{ r with responses := response :: rest }, .waiting generation, history⟩ : System α).Reaches
          (consume ⟨{ r with responses := response :: rest }, .waiting generation, history⟩ response rest
            fun _ => .waiting generation) := .move .take (if_pos awaits)
      rw [consume_eq] at first
      rw [if_pos awaits]
      rcases delivered : r.deliver response with ⟨_ | _ | generation', r'⟩
      · rw [delivered] at first
        exact ⟨[.consumed response], by simpa using first⟩
      · rw [delivered] at first
        obtain ⟨more, next⟩ := ih r' (history ++ [.consumed response])
        exact ⟨.consumed response :: more, by simpa using first.trans next⟩
      · rw [delivered] at first
        obtain ⟨more, next⟩ := ih r' (history ++ .consumed response :: r'.current.toList.map .installed)
        exact ⟨.consumed response :: r'.current.toList.map .installed ++ more, by simpa using first.trans next⟩
    · rw [if_neg awaits]
      exact ⟨[], by simpa using Reaches.refl _⟩

/-- A wait takes what has arrived and lets the worker take a step, again and again. -/
theorem reaches_waitDuring (generation : Nat) (steps : List WorkerStep) :
    ∃ more, (⟨r, .waiting generation, history⟩ : System α).Reaches
      ⟨(r.waitDuring generation steps).2, .free,
        history ++ more ++ [.ofWait generation (r.waitDuring generation steps).1]⟩ := by
  refine Renderer.waitDuring_induction (P := fun r _ ended => ∀ history, ∃ more,
    (⟨r, .waiting generation, history⟩ : System α).Reaches
      ⟨ended.2, .free, history ++ more ++ [.ofWait generation ended.1]⟩) ?_ ?_ ?_ r steps history
  · intro r _ error r' received history
    obtain ⟨more, taken⟩ := reaches_receiveUntil r history generation r.responses
    rw [received] at taken
    exact ⟨more, taken⟩
  · intro r _ r' received reason history
    obtain ⟨more, taken⟩ := reaches_receiveUntil r history generation r.responses
    rw [received] at taken
    refine ⟨more, taken.trans ?_⟩
    rcases reason with - | awaits
    · exact .move .timeOut rfl
    · exact .move .finish (if_neg awaits)
  · intro r step _ r' _ received _ next history
    obtain ⟨more, taken⟩ := reaches_receiveUntil r history generation r.responses
    rw [received] at taken
    have worked := reaches_work ⟨r', .waiting generation, history ++ more⟩ [step]
    obtain ⟨more', next⟩ := next (history ++ more)
    exact ⟨more ++ more', by simpa using (taken.trans worked).trans next⟩

/-! ## Calls -/

/-- A request, with the worker's steps between its halves. -/
theorem reaches_request (drawing : Drawing α) (meanwhile : Renderer α → List WorkerStep) :
    (⟨r, .free, history⟩ : System α).Reaches ⟨r.request drawing meanwhile, .free,
      history ++ [.requested drawing] ++ [.numbered (r.request drawing meanwhile).latest]⟩ := by
  have worked := reaches_work ⟨r.cancel, .requesting drawing, history ++ [.requested drawing]⟩ (meanwhile r.cancel)
  exact ((Reaches.move (.request drawing) rfl).trans worked).trans (.move .send rfl)

/-- A call is a row of moves, and what it returns is the last thing that occurs. -/
theorem reaches_call (call : Call α) :
    ∃ more, (⟨r, .free, history⟩ : System α).Reaches
      ⟨(r.call call).2, .free, history ++ more ++ [(r.call call).1]⟩ := by
  cases call with
  | request drawing meanwhile => exact ⟨[.requested drawing], reaches_request r history drawing meanwhile⟩
  | cancel => exact ⟨[], by simpa using Reaches.move .cancel rfl⟩
  | poll =>
    obtain ⟨more, taken⟩ := reaches_deliverAll r history none r.responses
    exact ⟨more, (Reaches.move .poll rfl).trans taken⟩
  | wait generation meanwhile =>
    obtain ⟨more, waited⟩ := reaches_waitDuring r history generation meanwhile
    exact ⟨more, (Reaches.move (.wait generation) rfl).trans waited⟩

end System

end DomainColoring
