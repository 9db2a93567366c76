import DomainColoring.Proofs.Renderer.Polling

/-!
# What a wait returns and what it does

A wait takes responses only as long as its generation is the latest and is not shown (`Renderer.Receipt`). One for any other generation
returns at once and leaves the renderer as it is; one whose response has arrived drops what stands before it in the queue and ends with
it (`Renderer.WaitsExactly`). A worker that goes on while the owner waits makes no difference: such a wait is the wait of a renderer
whose worker has come as far before (`System.Waits.eq_wait`).
-/

namespace DomainColoring

variable {α : Type}

namespace Renderer

variable {r : Renderer α} {generation : Nat}

/-- The frame of a generation is the one that is shown, if it is of this generation. -/
theorem frame?_eq_some_iff {frame : Frame α} :
    r.frame? generation = some frame ↔ r.current = some frame ∧ frame.generation = generation := by
  rw [frame?, Option.filter_eq_some_iff, decide_eq_true_iff]

theorem frame?_of_awaits (awaits : r.Awaits generation) : r.frame? generation = none :=
  Option.filter_eq_none_iff.2 fun frame shown same => Nat.ne_of_lt (awaits.2 frame shown) (of_decide_eq_true same)

theorem not_awaits_of_shown {frame : Frame α} (shown : r.current = some frame) (same : frame.generation = generation) :
    ¬r.Awaits generation :=
  fun awaits => Nat.ne_of_lt (awaits.2 frame shown) same

/-! ## Taking responses -/

/-- What can become of a list of responses while a generation is waited for. -/
inductive Receipt (r : Renderer α) (generation : Nat) : List (Response α) → Except RenderError Unit × Renderer α → Prop
  /-- The generation is not awaited, and nothing is taken. -/
  | unwanted (responses : List (Response α)) (done : ¬r.Awaits generation) :
      Receipt r generation responses (.ok (), { r with responses })
  /-- All responses are of other generations and are dropped. -/
  | dropped (stale : List (Response α)) (awaits : r.Awaits generation)
      (old : ∀ response ∈ stale, response.generation ≠ generation) : Receipt r generation stale (.ok (), { r with responses := [] })
  | failed (stale : List (Response α)) (response : Response α) (rest : List (Response α)) (error : RenderError)
      (awaits : r.Awaits generation) (old : ∀ response ∈ stale, response.generation ≠ generation)
      (answers : response.generation = generation) (failed : response.result = .error error) :
      Receipt r generation (stale ++ response :: rest) (.error error, { r with responses := rest })
  | installed (stale : List (Response α)) (response : Response α) (rest : List (Response α)) (picture : Picture)
      (awaits : r.Awaits generation) (old : ∀ response ∈ stale, response.generation ≠ generation)
      (answers : response.generation = generation) (rendered : response.result = .ok picture) :
      Receipt r generation (stale ++ response :: rest)
        (.ok (), { r with
          responses := rest
          current := some ⟨generation, response.plot, picture, response.elapsed⟩ }.notify (.imageReady generation))

/-- Nothing is taken for a generation that is not awaited. -/
theorem receiveUntil_of_not_awaits (done : ¬r.Awaits generation) (responses : List (Response α)) :
    r.receiveUntil generation responses = (.ok (), { r with responses }) := by
  cases responses with
  | nil => rfl
  | cons response rest => rw [receiveUntil, if_neg done]

/-- A response of another generation stands before what is received. -/
theorem Receipt.cons {response : Response α} {rest : List (Response α)} {ended : Except RenderError Unit × Renderer α}
    (h : r.Receipt generation rest ended) (awaits : r.Awaits generation) (other : response.generation ≠ generation) :
    r.Receipt generation (response :: rest) ended := by
  have before {stale : List (Response α)} (old : ∀ response ∈ stale, response.generation ≠ generation) :
      ∀ old ∈ response :: stale, old.generation ≠ generation := List.forall_mem_cons.2 ⟨other, old⟩
  cases h with
  | unwanted _ done => exact absurd awaits done
  | dropped stale _ old => exact .dropped (response :: rest) awaits (before old)
  | failed stale answer rest error _ old answers failed =>
    exact .failed (response :: stale) answer rest error awaits (before old) answers failed
  | installed stale answer rest picture _ old answers rendered =>
    exact .installed (response :: stale) answer rest picture awaits (before old) answers rendered

/-- Whatever responses there are, one of these becomes of them. -/
theorem receipt (r : Renderer α) (generation : Nat) (responses : List (Response α)) :
    r.Receipt generation responses (r.receiveUntil generation responses) := by
  by_cases awaits : r.Awaits generation
  · induction responses with
    | nil => exact .dropped [] awaits nofun
    | cons response rest ih =>
      have delivery := r.delivery response
      rw [receiveUntil, if_pos awaits]
      generalize r.deliver response = delivered at delivery
      cases delivery with
      | drop stale => exact ih.cons awaits (awaits.1 ▸ stale)
      | fail error latest failed => exact .failed [] response rest error awaits nofun (latest.trans awaits.1.symm) failed
      | install picture latest rendered =>
        have answers : response.generation = generation := latest.trans awaits.1.symm
        -- Once the frame is shown nothing more is taken.
        have done : ¬({ r with current := some ⟨response.generation, response.plot, picture, response.elapsed⟩ }.notify
            (.imageReady response.generation)).Awaits generation := not_awaits_of_shown rfl answers
        dsimp only
        rw [receiveUntil_of_not_awaits done, answers]
        exact .installed [] response rest picture awaits nofun answers rendered
  · rw [receiveUntil_of_not_awaits awaits]
    exact .unwanted responses awaits

/-- Responses of other generations are dropped, whatever they say. -/
theorem receiveUntil_stale (awaits : r.Awaits generation) {stale : List (Response α)}
    (old : ∀ response ∈ stale, response.generation ≠ generation) (rest : List (Response α)) :
    r.receiveUntil generation (stale ++ rest) = r.receiveUntil generation rest := by
  induction stale with
  | nil => rfl
  | cons response stale ih =>
    obtain ⟨first, others⟩ := List.forall_mem_cons.1 old
    have dropped : r.deliver response = (.ok none, r) := if_pos (awaits.1 ▸ first)
    rw [List.cons_append, receiveUntil, if_pos awaits, dropped]
    exact ih others

/-- The end of a wait that the given response ends: the error of the render, or its frame, which is shown from then on. -/
def answeredBy (r : Renderer α) (response : Response α) : Except RenderError (Option (Frame α)) × Renderer α :=
  match response.result with
  | .error error => (.error error, r)
  | .ok picture =>
    let frame : Frame α := ⟨response.generation, response.plot, picture, response.elapsed⟩
    (.ok (some frame), { r with current := some frame }.notify (.imageReady response.generation))

variable [Add α] [Sub α] [Mul α] [Div α] [Neg α] [BEq α] [NatCast α] [Elementary α] [Scalar α] [LT α] [DecidableLT α]

/-! ## The wait of a renderer -/

/-- A wait ends with the error that it meets. -/
theorem waitDuring_of_failure {error : RenderError} {r' : Renderer α}
    (received : r.receiveUntil generation r.responses = (.error error, r')) (steps : List WorkerStep) :
    r.waitDuring generation steps = (.error error, r') := by
  cases steps <;> rw [waitDuring, received]

/-- A wait ends as soon as its generation is not awaited any more. -/
theorem waitDuring_of_received {r' : Renderer α} (received : r.receiveUntil generation r.responses = (.ok (), r'))
    (done : ¬r'.Awaits generation) (steps : List WorkerStep) : r.waitDuring generation steps = (.ok (r'.frame? generation), r') := by
  cases steps with
  | nil => rw [waitDuring, received]
  | cons step steps =>
    rw [waitDuring, received]
    exact if_neg done

/-- What is not awaited is not waited for. -/
theorem waitDuring_of_not_awaits (done : ¬r.Awaits generation) (steps : List WorkerStep) :
    r.waitDuring generation steps = (.ok (r.frame? generation), r) :=
  waitDuring_of_received (receiveUntil_of_not_awaits done r.responses) done steps

/-- A response that has arrived ends the wait for its generation, whatever the worker goes on to do. -/
theorem waitDuring_of_answer (awaits : r.Awaits generation) {stale rest : List (Response α)} {response : Response α}
    (queue : r.responses = stale ++ response :: rest) (old : ∀ response ∈ stale, response.generation ≠ generation)
    (answers : response.generation = generation) (steps : List WorkerStep) :
    r.waitDuring generation steps = { r with responses := rest }.answeredBy response := by
  have received : r.receiveUntil generation r.responses = r.receiveUntil generation (response :: rest) := by
    rw [queue, receiveUntil_stale awaits old]
  have delivery := r.delivery response
  rw [receiveUntil, if_pos awaits] at received
  rw [answeredBy]
  generalize r.deliver response = delivered at delivery received
  cases delivery with
  | drop stale => exact absurd (answers.trans awaits.1) stale
  | fail error latest failed => rw [waitDuring_of_failure received, failed]
  | install picture latest rendered =>
    have done : ¬({ r with current := some ⟨response.generation, response.plot, picture, response.elapsed⟩ }.notify
        (.imageReady response.generation)).Awaits generation := not_awaits_of_shown rfl answers
    dsimp only at received
    rw [receiveUntil_of_not_awaits done] at received
    rw [waitDuring_of_received received done, rendered]
    exact Prod.ext (congrArg Except.ok (frame?_eq_some_iff.2 ⟨rfl, answers⟩)) rfl

/-- Responses of other generations than the one waited for are dropped, and the wait takes too long without a worker. -/
theorem waitDuring_of_unanswered (awaits : r.Awaits generation)
    (unanswered : ∀ response ∈ r.responses, response.generation ≠ generation) :
    r.waitDuring generation [] = (.ok none, { r with responses := [] }) := by
  have received : r.receiveUntil generation r.responses = (.ok (), { r with responses := [] }) := by
    have dropped := receiveUntil_stale awaits unanswered []
    rwa [List.append_nil] at dropped
  rw [waitDuring, received]
  exact Prod.ext (congrArg Except.ok (frame?_of_awaits awaits)) rfl

/-- A wait that fails shows nothing. -/
theorem current_of_waitDuring_error {steps : List WorkerStep} {error : RenderError}
    (failed : (r.waitDuring generation steps).1 = .error error) : (r.waitDuring generation steps).2.current = r.current := by
  have receives {r r' : Renderer α} {result : Except RenderError Unit}
      (received : r.receiveUntil generation r.responses = (result, r')) :
      ∃ responses, r.Receipt generation responses (result, r') := ⟨_, received ▸ r.receipt generation r.responses⟩
  refine waitDuring_induction (P := fun r _ ended => ended.1 = .error error → ended.2.current = r.current) ?_ ?_ ?_ r steps failed
  · intro r _ error' r' received _
    obtain ⟨responses, receipt⟩ := receives received
    cases receipt with
    | failed => rfl
  · rintro r _ r' - - ⟨⟩
  · intro r step _ r' ended received awaits next failed
    have before : r'.current = r.current := by
      obtain ⟨responses, receipt⟩ := receives received
      cases receipt with
      | unwanted | dropped => rfl
      | installed stale response rest picture => exact absurd awaits (not_awaits_of_shown rfl rfl)
    exact (next failed).trans ((r'.work_leaves [step]).1.trans before)

/-- A failure without a worker is that of a response of the generation. -/
theorem response_of_waitDuring_error {error : RenderError} (failed : (r.waitDuring generation []).1 = .error error) :
    ∃ response ∈ r.responses, response.generation = generation ∧ response.result = .error error := by
  have receipt := r.receipt generation r.responses
  rw [waitDuring] at failed
  generalize r.receiveUntil generation r.responses = received at receipt failed
  generalize queue : r.responses = responses at receipt
  cases receipt with
  | failed stale response rest error' _ _ answers result =>
    cases failed
    exact ⟨response, List.mem_append_right _ List.mem_cons_self, answers, result⟩
  | _ => cases failed

/-- What a wait for a generation returns is what it has done. -/
structure WaitsExactly (r : Renderer α) (generation : Nat) : Prop where
  /-- If the generation is not the latest the wait returns at once and takes nothing. -/
  superseded : generation ≠ r.latest → ∀ steps, r.waitDuring generation steps = (.ok (r.frame? generation), r)
  /-- So it is with a frame that is shown already. -/
  shown : ∀ frame ∈ r.current, frame.generation = generation → ∀ steps, r.waitDuring generation steps = (.ok (some frame), r)
  /-- If the response of the latest generation has arrived the wait drops what stands before it and ends with it. -/
  answered : generation = r.latest → ∀ response ∈ r.responses, response.generation = generation →
    ∃ stale, r.responses = stale ++ [response] ∧ (∀ old ∈ stale, old.generation < generation) ∧
      ∀ steps, r.waitDuring generation steps = { r with responses := [] }.answeredBy response
  /-- If it has not, a wait without a worker drops all that has arrived and returns nothing. -/
  unanswered : r.Awaits generation → (∀ response ∈ r.responses, response.generation ≠ generation) →
    r.waitDuring generation [] = (.ok none, { r with responses := [] })
  /-- A frame that is returned is of the generation, and is shown. -/
  returned : ∀ steps frame, (r.waitDuring generation steps).1 = .ok (some frame) →
    frame.generation = generation ∧ (r.waitDuring generation steps).2.current = some frame
  /-- With an error the same is shown as before. -/
  failed : ∀ steps error, (r.waitDuring generation steps).1 = .error error → (r.waitDuring generation steps).2.current = r.current
  /-- An error is that of the generation. -/
  own : ∀ error, (r.waitDuring generation []).1 = .error error →
    ∃ response ∈ r.responses, response.generation = generation ∧ response.result = .error error

end Renderer

namespace System

variable [Add α] [Sub α] [Mul α] [Div α] [Neg α] [BEq α] [NatCast α] [Elementary α] [Scalar α] [LT α] [DecidableLT α]
  {s : System α}

/-- Every wait returns what it has done. -/
theorem Sound.waitsExactly (h : s.Sound) (t : s.Settlement) (generation : Nat) : s.renderer.WaitsExactly generation where
  superseded other := Renderer.waitDuring_of_not_awaits fun awaits => other awaits.1
  shown := by
    intro frame shown same steps
    rw [Renderer.waitDuring_of_not_awaits (Renderer.not_awaits_of_shown shown same),
      Renderer.frame?_eq_some_iff.2 ⟨shown, same⟩]
  answered := by
    intro latest response arrived answers
    have awaits : s.renderer.Awaits generation := ⟨latest, answers ▸ (t.ascending h).older arrived⟩
    obtain ⟨stale, fresh, queue, old, -⟩ := h.order.queue
    rw [← latest] at old
    rw [queue] at arrived
    rcases List.mem_append.1 arrived with member | member
    · exact absurd answers (Nat.ne_of_lt (old response member))
    · obtain rfl := Option.mem_toList.1 member
      exact ⟨stale, queue, old,
        Renderer.waitDuring_of_answer awaits queue (fun response member => Nat.ne_of_lt (old response member)) answers⟩
  unanswered := Renderer.waitDuring_of_unanswered
  returned steps frame result :=
    (Renderer.frame?_eq_some_iff.1 (s.renderer.waitDuring_frame generation steps result).symm).symm
  failed _ _ := Renderer.current_of_waitDuring_error
  own _ := Renderer.response_of_waitDuring_error

end System

/-! ## A wait while the worker goes on -/

namespace Renderer

variable [Add α] [Sub α] [Mul α] [Div α] [Neg α] [BEq α] [NatCast α] [Elementary α] [Scalar α] [LT α] [DecidableLT α]

/-- How far the wait of a renderer has come while its worker has taken some steps. The worker is where these steps alone have taken
it, and what is left of the queue makes of the renderer what the whole queue would. -/
structure Awaiting (r : Renderer α) (generation : Nat) (steps : List WorkerStep) (taken : List (Response α))
    (q : Renderer α) : Prop where
  worker : r.work steps = r.join { q with responses := taken ++ q.responses }
  owner : ∀ w more, (r.join w).receiveUntil generation (taken ++ more) = (q.join w).receiveUntil generation more

namespace Awaiting

variable {r q q' : Renderer α} {generation : Nat} {steps : List WorkerStep} {taken rest : List (Response α)}
  {response : Response α}

theorem call (r : Renderer α) (generation : Nat) : r.Awaiting generation [] [] r :=
  ⟨rfl, fun _ _ => rfl⟩

theorem work (h : r.Awaiting generation steps taken q) {step : WorkerStep} (possible : q.workerStep? step = some q') :
    r.Awaiting generation (steps ++ [step]) taken q' where
  worker := work_snoc h.worker possible
  owner := by
    intro w more
    rw [join_of_workerStep? possible]
    exact h.owner w more

theorem take (h : r.Awaiting generation steps taken q) (awaits : q.Awaits generation) (first : q.responses = response :: rest)
    {installed : Option Nat} (delivered : q.deliver response = (.ok installed, q')) :
    r.Awaiting generation steps (taken ++ [response]) { q' with responses := rest } where
  worker := (work_taken h.worker first delivered :)
  owner := by
    intro w more
    have awaits' : (q.join w).Awaits generation := awaits
    rw [List.append_assoc, List.singleton_append, h.owner, receiveUntil, if_pos awaits', deliver_join, delivered]
    rfl

/-- Whatever the worker has sent is received as what is left of it would be. -/
theorem received (h : r.Awaiting generation steps taken q) :
    (r.work steps).receiveUntil generation (r.work steps).responses =
      (q.join (r.work steps)).receiveUntil generation q.responses := by
  have all : (r.work steps).responses = taken ++ q.responses := by
    rw [h.worker]
    rfl
  have side : r.join (r.work steps) = r.work steps := by
    rw [h.worker]
    rfl
  rw [all, ← h.owner, side]

/-- The worker is where the wait has left it. -/
theorem join_work (h : r.Awaiting generation steps taken q) (rest : List (Response α)) :
    { q.join (r.work steps) with responses := rest } = { q with responses := rest } := by
  rw [h.worker]
  rfl

/-- When the generation is not awaited any more the wait has come to its end. -/
theorem finish (h : r.Awaiting generation steps taken q) (done : ¬q.Awaits generation) :
    (r.work steps).waitDuring generation [] = (.ok (q.frame? generation), q) := by
  have received := h.received
  have done' : ¬(q.join (r.work steps)).Awaits generation := done
  rw [receiveUntil_of_not_awaits done', h.join_work] at received
  exact waitDuring_of_received received done []

/-- The failed render of the generation ends the wait. -/
theorem fail (h : r.Awaiting generation steps taken q) (awaits : q.Awaits generation) (first : q.responses = response :: rest)
    {error : RenderError} (delivered : q.deliver response = (.error error, q')) :
    (r.work steps).waitDuring generation [] = (.error error, { q' with responses := rest }) := by
  have received := h.received
  have awaits' : (q.join (r.work steps)).Awaits generation := awaits
  rw [first, receiveUntil, if_pos awaits', deliver_join, delivered] at received
  rw [waitDuring_of_failure received, h.worker, ← join_of_deliver delivered]
  rfl

/-- Where nothing is left in the queue and the generation is still awaited, its response has not been sent. -/
theorem unanswered (h : r.Awaiting generation steps taken q) (awaits : q.Awaits generation) (empty : q.responses = []) :
    (r.work steps).Awaits generation ∧ ∀ response ∈ (r.work steps).responses, response.generation ≠ generation := by
  have receipt := (r.work steps).receipt generation (r.work steps).responses
  rw [h.received, empty, receiveUntil, h.join_work] at receipt
  have still : ({ q with responses := [] } : Renderer α).Awaits generation := awaits
  generalize { q with responses := [] } = ended at receipt still
  generalize (r.work steps).responses = sent at receipt ⊢
  cases receipt with
  | unwanted _ done => exact absurd still done
  | dropped stale before old => exact ⟨before, old⟩
  | installed => exact absurd still (not_awaits_of_shown rfl rfl)

end Awaiting

end Renderer

namespace System

variable [Add α] [Sub α] [Mul α] [Div α] [Neg α] [BEq α] [NatCast α] [Elementary α] [Scalar α] [LT α] [DecidableLT α]

/-- The owner is about a wait that it has called, and the worker has taken some steps since. -/
inductive Waiting (s : System α) (generation : Nat) : List WorkerStep → System α → Prop
  | call {p : System α} (possible : s.move? (.wait generation) = some p) : Waiting s generation [] p
  | work {steps : List WorkerStep} {p p' : System α} (goesOn : Waiting s generation steps p) (step : WorkerStep)
      (possible : p.move? (.work step) = some p') : Waiting s generation (steps ++ [step]) p'
  | take {steps : List WorkerStep} {p p' : System α} (goesOn : Waiting s generation steps p)
      (possible : p.move? .take = some p') (waiting : p'.owner = .waiting generation) : Waiting s generation steps p'

/-- A wait from the call to the move with which it returns, with the steps that the worker takes in between. -/
def Waits (s : System α) (generation : Nat) (steps : List WorkerStep) (m : Move α) (ended : System α) : Prop :=
  ∃ p, s.Waiting generation steps p ∧ p.move? m = some ended ∧ ended.owner = .free

variable {s p s' ended : System α} {generation : Nat} {steps : List WorkerStep} {m : Move α}

/-- What a wait takes is the first response in the queue, and it takes it only while it makes sense to wait. -/
theorem take_of_waiting (waiting : s.owner = .waiting generation) (possible : s.move? .take = some s') :
    s.renderer.Awaits generation ∧ ∃ response rest, s.renderer.responses = response :: rest ∧
      s' = s.consume response rest fun _ => .waiting generation := by
  unfold move? at possible
  rw [waiting] at possible
  cases queue : s.renderer.responses with
  | nil =>
    rw [queue] at possible
    cases possible
  | cons response rest =>
    rw [queue] at possible
    obtain ⟨awaits, same⟩ := Option.ite_none_right_eq_some.1 possible
    cases same
    exact ⟨awaits, response, rest, rfl, rfl⟩

/-- How far a wait has come. As long as its generation is not awaited nothing occurs. -/
theorem Waiting.awaiting (h : s.Waiting generation steps p) :
    ∃ taken, p.owner = .waiting generation ∧ s.renderer.Awaiting generation steps taken p.renderer ∧
      (¬s.renderer.Awaits generation → ¬p.renderer.Awaits generation ∧ p.history = s.history) := by
  induction h with
  | call possible =>
    unfold move? at possible
    cases owner : s.owner with
    | free =>
      rw [owner] at possible
      cases possible
      exact ⟨[], rfl, .call _ _, fun done => ⟨done, rfl⟩⟩
    | _ =>
      rw [owner] at possible
      cases possible
  | work goesOn step possible ih =>
    obtain ⟨taken, owner, awaiting, nothing⟩ := ih
    unfold move? at possible
    rw [owner] at possible
    obtain ⟨q, moved, rfl⟩ := Option.map_eq_some_iff.1 possible
    have frame := (Renderer.workerMove_of_workerStep? moved).frame
    refine ⟨taken, rfl, awaiting.work moved, ?_⟩
    unfold Renderer.Awaits
    rw [frame.1, frame.2.1]
    exact nothing
  | @take _ p p' goesOn possible waiting ih =>
    obtain ⟨taken, owner, awaiting, nothing⟩ := ih
    obtain ⟨awaits, response, rest, first, rfl⟩ := take_of_waiting owner possible
    -- Nothing is taken as long as the generation is not awaited, and here something is.
    have wanted (done : ¬s.renderer.Awaits generation) : False := (nothing done).1 awaits
    rw [consume_of_first first] at waiting ⊢
    rcases delivered : p.renderer.deliver response with ⟨_ | installed, q⟩
    · rw [delivered] at waiting
      cases waiting
    · have later := awaiting.take awaits first delivered
      cases installed <;> exact ⟨taken ++ [response], rfl, later, fun done => (wanted done).elim⟩

/-- A wait returns because it has taken too long or its generation is not awaited any more, or when it takes a response. -/
theorem return_of_waiting (waiting : s.owner = .waiting generation) (possible : s.move? m = some s') (free : s'.owner = .free) :
    ((m ≠ .timeOut → ¬s.renderer.Awaits generation) ∧
        s' = ⟨s.renderer, .free, s.history ++ [.waited generation (s.renderer.frame? generation)]⟩) ∨
      s.renderer.Awaits generation ∧ ∃ response rest, s.renderer.responses = response :: rest ∧
        s' = s.consume response rest fun _ => .waiting generation := by
  rcases own_move_of_return (.inr ⟨generation, waiting⟩) possible free with rfl | rfl | rfl
  · exact .inr (take_of_waiting waiting possible)
  · unfold move? at possible
    rw [waiting] at possible
    obtain ⟨done, same⟩ := Option.ite_none_left_eq_some.1 possible
    cases same
    exact .inl ⟨fun _ => done, rfl⟩
  · unfold move? at possible
    rw [waiting] at possible
    cases possible
    exact .inl ⟨fun other => absurd rfl other, rfl⟩

/-- Whatever the worker does between the call of a wait and its return, the wait does and returns what it would if the worker had
done that before, unless it takes too long. -/
theorem Waits.eq_wait (h : s.Waits generation steps m ended) (inTime : m ≠ .timeOut) :
    ended.renderer = ((s.renderer.work steps).waitDuring generation []).2 ∧
      ended.history.getLast? = some (.ofWait generation ((s.renderer.work steps).waitDuring generation []).1) := by
  obtain ⟨p, goesOn, possible, free⟩ := h
  obtain ⟨taken, owner, awaiting, -⟩ := goesOn.awaiting
  rcases return_of_waiting owner possible free with ⟨done, rfl⟩ | ⟨awaits, response, rest, first, rfl⟩
  · rw [awaiting.finish (done inTime)]
    exact ⟨rfl, by simp⟩
  · rw [consume_of_first first] at free ⊢
    rcases delivered : p.renderer.deliver response with ⟨error | _ | generation, q⟩
    · rw [awaiting.fail awaits first delivered]
      exact ⟨rfl, by simp⟩
    all_goals
      rw [delivered] at free
      cases free

/-- Nothing occurs in a wait for a generation that is not awaited, and the worker alone goes on. -/
theorem Waits.of_not_awaits (h : s.Waits generation steps m ended) (done : ¬s.renderer.Awaits generation) :
    ended.renderer = s.renderer.work steps ∧
      ended.history = s.history ++ [.waited generation (s.renderer.frame? generation)] := by
  obtain ⟨p, goesOn, possible, free⟩ := h
  obtain ⟨taken, owner, awaiting, nothing⟩ := goesOn.awaiting
  obtain ⟨done', history⟩ := nothing done
  have worked : ¬(s.renderer.work steps).Awaits generation := by
    unfold Renderer.Awaits
    rwa [Renderer.latest_work, (s.renderer.work_leaves steps).1]
  have same : p.renderer = s.renderer.work steps := by
    have ends := awaiting.finish done'
    rw [Renderer.waitDuring_of_not_awaits worked] at ends
    exact (congrArg Prod.snd ends).symm
  rcases return_of_waiting owner possible free with ⟨-, rfl⟩ | ⟨awaits, -⟩
  · refine ⟨same, ?_⟩
    rw [history, same, Renderer.frame?, (s.renderer.work_leaves steps).1, Renderer.frame?]
  · exact absurd awaits done'

/-- A frame that a wait returns, in time or not, is of its generation and is shown. -/
theorem Waits.returned (h : s.Waits generation steps m ended) {frame : Frame α}
    (last : ended.history.getLast? = some (.waited generation (some frame))) :
    frame.generation = generation ∧ ended.renderer.current = some frame := by
  obtain ⟨p, goesOn, possible, free⟩ := h
  obtain ⟨taken, owner, -⟩ := goesOn.awaiting
  rcases return_of_waiting owner possible free with ⟨-, rfl⟩ | ⟨-, response, rest, first, rfl⟩
  · rw [List.getLast?_concat, Option.some_inj, Occurrence.waited.injEq] at last
    exact (Renderer.frame?_eq_some_iff.1 last.2).symm
  · rw [consume_of_first first] at free last
    rcases delivered : p.renderer.deliver response with ⟨error | _ | generation, q⟩ <;> rw [delivered] at free last
    · simp at last
    all_goals cases free

/-- An owner that has to wait for the worker or for the time to run out awaits its generation, and the worker has not sent its
response. -/
theorem Waiting.unanswered (h : s.Waiting generation steps p) (take : p.move? .take = none) (finish : p.move? .finish = none) :
    s.renderer.Awaits generation ∧ ∀ response ∈ (s.renderer.work steps).responses, response.generation ≠ generation := by
  obtain ⟨taken, owner, awaiting, -⟩ := h.awaiting
  unfold move? at take finish
  rw [owner] at take finish
  have awaits : p.renderer.Awaits generation := by
    by_contra done
    cases (if_neg done).symm.trans finish
  have empty : p.renderer.responses = [] := by
    cases queue : p.renderer.responses with
    | nil => rfl
    | cons response rest =>
      rw [queue] at take
      cases (if_pos awaits).symm.trans take
  have unanswered := awaiting.unanswered awaits empty
  unfold Renderer.Awaits at unanswered ⊢
  rwa [Renderer.latest_work, (s.renderer.work_leaves steps).1] at unanswered

/-- What becomes of a wait for a generation that is called now, whatever the worker does until it returns. -/
structure WaitsExactly (s : System α) (generation : Nat) : Prop where
  /-- Without a worker, or with the worker's steps one by one. -/
  alone : s.renderer.WaitsExactly generation
  /-- A wait for a generation that is not awaited can return at once. -/
  atOnce : s.owner = .free → ¬s.renderer.Awaits generation → s.Waits generation [] .finish
    ⟨s.renderer, .free, s.history ++ [.waited generation (s.renderer.frame? generation)]⟩
  /-- However it returns, nothing is taken and nothing else occurs, and the worker alone goes on. -/
  idle : ¬s.renderer.Awaits generation → ∀ steps m ended, s.Waits generation steps m ended →
    ended.renderer = s.renderer.work steps ∧
      ended.history = s.history ++ [.waited generation (s.renderer.frame? generation)]
  /-- The owner has to wait for the worker, or for the time to run out, only as long as the response has not been sent. -/
  blocked : ∀ steps p, s.Waiting generation steps p → p.move? .take = none → p.move? .finish = none →
    s.renderer.Awaits generation ∧ ∀ response ∈ (s.renderer.work steps).responses, response.generation ≠ generation
  /-- A wait that does not take too long does and returns what it would if the worker had come as far before. -/
  inTime : ∀ steps m ended, s.Waits generation steps m ended → m ≠ .timeOut →
    let r := s.renderer.work steps
    (r.latest = s.renderer.latest ∧ r.current = s.renderer.current ∧ r.notifier = s.renderer.notifier) ∧
      r.WaitsExactly generation ∧ ended.renderer = (r.waitDuring generation []).2 ∧
      ended.history.getLast? = some (.ofWait generation (r.waitDuring generation []).1)
  /-- Also one that takes too long returns no frame but that of the generation. -/
  returned : ∀ steps m ended, s.Waits generation steps m ended →
    ∀ frame, ended.history.getLast? = some (.waited generation (some frame)) →
      frame.generation = generation ∧ ended.renderer.current = some frame

/-- A wait returns the frame of its generation or nothing. If the generation is not the latest, or is shown already, it returns at
once and takes no response. If its response has arrived, the wait drops what stands before it, and shows and returns the frame, or
returns the error of the render and shows nothing new. What is shown is never newer than the latest generation. -/
theorem waited_exactly (ms : List (Move α)) :
    (∀ frame ∈ (after ms).renderer.current, frame.generation ≤ (after ms).renderer.latest) ∧
      ∀ generation, (after ms).WaitsExactly generation := by
  generalize after_eq : after ms = s
  have reached : initial.Reaches s := ⟨ms, after_eq⟩
  refine ⟨fun frame shown => reached.frame_le shown, fun generation => ?_⟩
  refine {
    alone := reached.sound.waitsExactly reached.settlement generation
    atOnce := ?_
    idle := fun done steps m ended waits => waits.of_not_awaits done
    blocked := fun steps p waiting => waiting.unanswered
    inTime := ?_
    returned := fun steps m ended waits frame => waits.returned }
  · intro free done
    have called : s.move? (.wait generation) = some { s with owner := .waiting generation } := by
      unfold move?
      rw [free]
    exact ⟨_, .call called, if_neg done, rfl⟩
  · intro steps m ended waits inTime r
    have worked := reached.trans (reaches_work s steps)
    have leaves := s.renderer.work_leaves steps
    exact ⟨⟨s.renderer.latest_work steps, leaves.1, leaves.2⟩, worked.sound.waitsExactly worked.settlement generation,
      waits.eq_wait inTime⟩

/-- A request of a size that is refused, and one that is rendered, both answered. -/
def twoAnswers : List (Move Float) :=
  [.request ⟨.standard, ⟨0, 1⟩, ⟨0.5⟩⟩, .send, .work .receive, .work .choose, .work .note, .work .begin, .work .respond,
    .request ⟨.standard, ⟨1, 1⟩, ⟨0.5⟩⟩, .send, .work .receive, .work .choose, .work .note, .work .begin,
    .work (.row (.start 0 0)), .work (.row (.finish 0 0)), .work (.conclude 0), .work .respond]

/-- The error of the first is dropped by a wait for the second, and a wait for the first returns nothing. -/
theorem stale_answer_dropped :
    (∃ ended, (after twoAnswers).Waits 2 [] .finish ended ∧
      ∃ frame, ended.history.getLast? = some (.waited 2 (some frame)) ∧ ended.renderer.current = some frame) ∧
      (after twoAnswers).renderer.waitDuring 1 [] = (.ok none, (after twoAnswers).renderer) := by
  have exactly := (waited_exactly twoAnswers).2
  obtain ⟨ended, waits, frame, last⟩ : ∃ ended, (after twoAnswers).Waits 2 [] .finish ended ∧
      ∃ frame, ended.history.getLast? = some (.waited 2 (some frame)) :=
    ⟨_, ⟨_, .take (.take (.call rfl) rfl rfl) rfl rfl, rfl, rfl⟩, _, rfl⟩
  refine ⟨⟨ended, waits, frame, last, ?_⟩, ?_⟩
  · exact ((exactly 2).returned [] .finish ended waits frame last).2
  · exact (exactly 1).alone.superseded (by decide) []

end System

end DomainColoring
