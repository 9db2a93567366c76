import DomainColoring.Proofs.Renderer.Calls
import DomainColoring.Proofs.Renderer.Invariant

/-!
# Moves that ask for nothing

Polls and waits neither ask for anything nor give anything up, whatever the worker does meanwhile: the latest generation stays as
it is (`latest_waitDuring`, `System.latest_moves_quiet`). What they do depends on the renderer alone, and not on what has occurred
before (`System.moves_since`).
-/

namespace DomainColoring

variable {α : Type}

/-! ## What the calls of an owner leave alone -/

namespace Renderer

/-- A delivery asks for nothing. -/
theorem deliver_asks_nothing (r : Renderer α) (response : Response α) :
    (r.deliver response).2.latest = r.latest ∧ (r.deliver response).2.requests = r.requests := by
  unfold deliver
  by_cases stale : response.generation ≠ r.latest
  · rw [if_pos stale]
    exact ⟨rfl, rfl⟩
  · rw [if_neg stale]
    cases response.result <;> exact ⟨rfl, rfl⟩

/-- Taking responses neither asks for anything nor gives anything up. -/
theorem deliverAll_asks_nothing (r : Renderer α) (installed : Option Nat) (responses : List (Response α)) :
    (r.deliverAll installed responses).2.latest = r.latest ∧ (r.deliverAll installed responses).2.requests = r.requests := by
  induction responses generalizing r installed with
  | nil => exact ⟨rfl, rfl⟩
  | cons response rest ih =>
    have first := r.deliver_asks_nothing response
    rw [deliverAll]
    rcases delivered : r.deliver response with ⟨_ | _ | generation, r'⟩ <;> rw [delivered] at first
    · exact first
    · exact (ih r' installed).imp (·.trans first.1) (·.trans first.2)
    · exact (ih r' (some generation)).imp (·.trans first.1) (·.trans first.2)

/-- Taking responses leaves the latest generation alone. -/
theorem latest_receiveUntil (r : Renderer α) (generation : Nat) (responses : List (Response α)) :
    (r.receiveUntil generation responses).2.latest = r.latest := by
  induction responses generalizing r with
  | nil => rfl
  | cons response rest ih =>
    have latest := (r.deliver_asks_nothing response).1
    rw [receiveUntil]
    by_cases awaits : r.Awaits generation
    · rw [if_pos awaits]
      rcases delivered : r.deliver response with ⟨_ | _, r'⟩
      · rw [delivered] at latest
        exact latest
      · rw [delivered] at latest
        exact (ih r').trans latest
    · rw [if_neg awaits]

end Renderer

/-- Whether a move neither asks for anything nor gives anything up. -/
def Move.isQuiet : Move α → Bool
  | request _ => false
  | cancel => false
  | _ => true

namespace System

/-- A system in whose history something has occurred before. -/
def since (earlier : List (Occurrence α)) (s : System α) : System α :=
  { s with history := earlier ++ s.history }

/-- What is taken does not depend on what occurred long before. -/
theorem consume_since (s : System α) (earlier : List (Occurrence α)) (response : Response α) (rest : List (Response α))
    (onward : Option Nat → Owner α) :
    (s.since earlier).consume response rest onward = (s.consume response rest onward).since earlier := by
  simp only [consume, since]
  rcases delivered : { s.renderer with responses := rest }.deliver response with ⟨_ | _ | _, r⟩ <;> simp [delivered]

/-- Taking a response leaves the latest generation alone. -/
theorem latest_consume (s : System α) (response : Response α) (rest : List (Response α)) (onward : Option Nat → Owner α) :
    (s.consume response rest onward).renderer.latest = s.renderer.latest := by
  have latest := ({ s.renderer with responses := rest }.deliver_asks_nothing response).1
  simp only [consume]
  rcases delivered : { s.renderer with responses := rest }.deliver response with ⟨_ | _ | _, r⟩ <;>
    simpa [delivered] using latest

end System

variable [Add α] [Sub α] [Mul α] [Div α] [Neg α] [BEq α] [NatCast α] [Elementary α] [Scalar α] [LT α] [DecidableLT α]

/-! ## Waits -/

namespace Renderer

/-- A step of the worker leaves the latest generation alone. -/
@[simp] theorem latest_workerStep (r : Renderer α) (step : WorkerStep) : (r.workerStep step).latest = r.latest := by
  unfold workerStep
  cases h : r.workerStep? step with
  | none => rfl
  | some r' => exact (workerMove_of_workerStep? h).frame.1

/-- The worker leaves the latest generation alone. -/
@[simp] theorem latest_work (r : Renderer α) (steps : List WorkerStep) : (r.work steps).latest = r.latest := by
  induction steps generalizing r with
  | nil => rfl
  | cons step steps ih => exact (ih (r.workerStep step)).trans (r.latest_workerStep step)

/-- A wait leaves the latest generation alone. -/
theorem latest_waitDuring (r : Renderer α) (generation : Nat) (steps : List WorkerStep) :
    (r.waitDuring generation steps).2.latest = r.latest := by
  have receives {r r' : Renderer α} {result : Except RenderError Unit}
      (received : r.receiveUntil generation r.responses = (result, r')) : r'.latest = r.latest := by
    have latest := r.latest_receiveUntil generation r.responses
    rwa [received] at latest
  refine waitDuring_induction (P := fun r _ ended => ended.2.latest = r.latest) ?_ ?_ ?_ r steps
  · exact fun r _ error r' received => receives received
  · exact fun r _ r' received _ => receives received
  · intro r step _ r' ended received _ next
    exact next.trans ((r'.latest_workerStep step).trans (receives received))

/-- A wait that ends without an error returns the frame that is shown, if it is of the generation. -/
theorem waitDuring_frame (r : Renderer α) (generation : Nat) (steps : List WorkerStep) {frame : Option (Frame α)}
    (h : (r.waitDuring generation steps).1 = .ok frame) : frame = (r.waitDuring generation steps).2.frame? generation := by
  refine waitDuring_induction (P := fun _ _ ended => ended.1 = .ok frame → frame = ended.2.frame? generation) ?_ ?_ ?_ r steps h
  · rintro r _ error r' - ⟨⟩
  · rintro r _ r' - - ⟨⟩
    rfl
  · exact fun r step _ r' ended _ _ next => next

/-- A wait takes too long: it goes through all its steps, and the generation is still awaited then. -/
def TimesOut (r : Renderer α) (generation : Nat) : List WorkerStep → Prop
  | [] =>
    match r.receiveUntil generation r.responses with
    | (.error _, _) => False
    | (.ok (), r) => r.Awaits generation
  | step :: steps =>
    match r.receiveUntil generation r.responses with
    | (.error _, _) => False
    | (.ok (), r) => r.Awaits generation ∧ (r.workerStep step).TimesOut generation steps

/-- Of the waits that end without an error those take too long whose generation is awaited in the end. -/
theorem timesOut_iff (r : Renderer α) (generation : Nat) (steps : List WorkerStep) {frame : Option (Frame α)}
    (h : (r.waitDuring generation steps).1 = .ok frame) :
    r.TimesOut generation steps ↔ (r.waitDuring generation steps).2.Awaits generation := by
  refine waitDuring_induction
    (P := fun r steps ended => ended.1 = .ok frame → (r.TimesOut generation steps ↔ ended.2.Awaits generation)) ?_ ?_ ?_ r steps h
  · rintro r _ error r' - ⟨⟩
  · intro r steps r' received reason _
    cases steps with
    | nil => rw [TimesOut, received]
    | cons step steps =>
      have awaits : ¬r'.Awaits generation := reason.resolve_left (List.cons_ne_nil _ _)
      rw [TimesOut, received]
      exact iff_of_false (fun late => awaits late.1) awaits
  · intro r step steps r' ended received awaits next ok
    rw [TimesOut, received]
    exact (and_iff_right awaits).trans (next ok)

end Renderer

namespace System

/-! ## Moves without their past -/

/-- What has occurred before has no part in a move. -/
theorem move?_since (s : System α) (earlier : List (Occurrence α)) (m : Move α) :
    (s.since earlier).move? m = (s.move? m).map (since earlier) := by
  have consume := s.consume_since earlier
  obtain ⟨r, owner, history⟩ := s
  cases m with
  | take =>
    cases owner with
    | polling installed => cases h : r.responses <;> simp_all [move?, since]
    | waiting generation =>
      by_cases awaits : r.Awaits generation <;> cases h : r.responses <;> simp_all [move?, since]
    | _ => rfl
  | finish =>
    cases owner with
    | polling installed => by_cases empty : r.responses = [] <;> simp [move?, since, empty]
    | waiting generation => by_cases awaits : r.Awaits generation <;> simp [move?, since, awaits]
    | _ => rfl
  | work step => cases owner <;> cases h : r.workerStep? step <;> simp [move?, since, h]
  | _ => cases owner <;> simp [move?, since]

/-- Moves do not depend on what occurred long before. -/
theorem moves_since (s : System α) (earlier : List (Occurrence α)) (ms : List (Move α)) :
    (s.since earlier).moves ms = (s.moves ms).since earlier := by
  induction ms generalizing s with
  | nil => rfl
  | cons m ms ih =>
    have first : (s.since earlier).move m = (s.move m).since earlier := by
      unfold move
      rw [move?_since]
      cases s.move? m <;> rfl
    simp only [moves, List.foldl_cons, first]
    exact ih (s.move m)

/-! ## Moves that leave the latest generation alone -/

/-- A quiet move leaves the latest generation as it is. -/
theorem latest_move {s : System α} {m : Move α} (quiet : m.isQuiet = true) :
    (s.move m).renderer.latest = s.renderer.latest := by
  have consume := s.latest_consume
  obtain ⟨r, owner, history⟩ := s
  unfold move
  cases m with
  | request drawing => cases quiet
  | cancel => cases quiet
  | take =>
    cases owner with
    | polling installed => cases h : r.responses <;> simp [move?, h, consume]
    | waiting generation => by_cases awaits : r.Awaits generation <;> cases h : r.responses <;> simp [move?, h, awaits, consume]
    | _ => rfl
  | finish =>
    cases owner with
    | polling installed => by_cases empty : r.responses = [] <;> simp [move?, empty]
    | waiting generation => by_cases awaits : r.Awaits generation <;> simp [move?, awaits]
    | _ => rfl
  | work step =>
    have latest := r.latest_workerStep step
    unfold Renderer.workerStep at latest
    cases owner <;> cases h : r.workerStep? step <;> simp_all [move?]
  | _ => cases owner <;> simp [move?, Renderer.send]

/-- Quiet moves leave the latest generation alone. -/
theorem latest_moves_quiet (s : System α) (ms : List (Move α)) :
    (s.moves (ms.filter Move.isQuiet)).renderer.latest = s.renderer.latest := by
  induction ms generalizing s with
  | nil => rfl
  | cons m ms ih =>
    by_cases quiet : m.isQuiet = true
    · rw [List.filter_cons_of_pos quiet, moves, List.foldl_cons]
      exact (ih (s.move m)).trans (latest_move quiet)
    · rw [List.filter_cons_of_neg quiet]
      exact ih s

end System

end DomainColoring
