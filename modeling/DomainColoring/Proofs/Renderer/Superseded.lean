import DomainColoring.Proofs.Renderer.Delivery

/-!
# Superseded renders

A render notes the generation of the handle when it begins. A request or a cancellation that comes after that, and before the render
has looked at the generation for the last time, stops it: it ends as cancelled, and its job is never answered
(`superseded_render_cancelled`). One that comes while the worker has taken the job and not yet noted the generation is not seen by the
render (`unfinished_render_cancelled_false`).
-/

namespace DomainColoring

open History

variable {α : Type}

/-- The job of a worker whose render has not looked at the generation for the last time, whether or not it has begun. -/
def Worker.unfinished? : Worker α → Option (Job α)
  | ended .. => none
  | worker => worker.job?

/-- A worker that can only drop its job: its render has been superseded, or has ended as cancelled. -/
def Worker.Doomed (h : Handle) : Worker α → Prop
  | noted job generation => generation < h.generation ∧ job.drawing.size.Accepted
  | rendering _ run => run.generation < h.generation
  | ended _ result _ => result = .error .cancelled
  | _ => False

/-- A worker that can only drop its job is not saved by a cancellation. -/
theorem Worker.Doomed.cancel {w : Worker α} {h : Handle} (doomed : w.Doomed h) : w.Doomed h.cancel := by
  cases w with
  | noted job generation => exact ⟨Nat.lt_succ_of_lt doomed.1, doomed.2⟩
  | rendering job run => exact Nat.lt_succ_of_lt doomed
  | ended job result elapsed => exact doomed
  | _ => exact doomed

/-- Whether a move is a call after which nothing that was asked for before is wanted any more. -/
def Move.supersedes : Move α → Bool
  | request _ => true
  | cancel => true
  | _ => false

/-- The job of a generation is not answered: a render of it that has ended was cancelled, and there is no response for it. -/
structure System.Unanswered (s : System α) (generation : Nat) : Prop where
  cancelled : ∀ job result elapsed, s.renderer.worker = .ended job result elapsed → job.generation = generation →
    result = .error .cancelled
  unsent : ∀ response ∈ s.renderer.responses, response.generation ≠ generation
  untaken : ∀ response, .consumed response ∈ s.history → response.generation ≠ generation

/-- The job of a generation is not answered, and never will be. -/
structure System.Forgone (s : System α) (generation : Nat) : Prop where
  /-- No later request has this generation. -/
  superseded : generation < s.renderer.latest
  requests : ∀ job ∈ s.renderer.requests, job.generation ≠ generation
  worker : ∀ job, s.renderer.worker.job? = some job → job.generation = generation →
    s.renderer.worker.Doomed s.renderer.handle
  responses : ∀ response ∈ s.renderer.responses, response.generation ≠ generation
  taken : ∀ response, .consumed response ∈ s.history → response.generation ≠ generation

/-- A job that will never be answered is not answered. -/
theorem System.Forgone.unanswered {s : System α} {generation : Nat} (f : s.Forgone generation) : s.Unanswered generation where
  cancelled := by
    intro job result elapsed ended hg
    have doomed := f.worker job (by rw [ended]; rfl) hg
    rw [ended] at doomed
    exact doomed
  unsent := f.responses
  untaken := f.taken

/-- What is forgone stays so if the worker stands still and no more is on its way. -/
theorem System.Forgone.of_subset {s s' : System α} {generation : Nat} (f : s.Forgone generation)
    (latest : s.renderer.latest ≤ s'.renderer.latest) (requests : s'.renderer.requests = s.renderer.requests)
    (worker : s'.renderer.worker = s.renderer.worker)
    (doomed : s.renderer.worker.Doomed s.renderer.handle → s.renderer.worker.Doomed s'.renderer.handle)
    (responses : s'.renderer.responses ⊆ s.renderer.responses)
    (taken : ∀ response, .consumed response ∈ s'.history →
      .consumed response ∈ s.history ∨ response ∈ s.renderer.responses) : s'.Forgone generation where
  superseded := Nat.lt_of_lt_of_le f.superseded latest
  requests := by
    rw [requests]
    exact f.requests
  worker := by
    intro job held hg
    rw [worker] at held ⊢
    exact doomed (f.worker job held hg)
  responses := fun response hm => f.responses response (responses hm)
  taken := by
    intro response hm
    rcases taken response hm with hm | hm
    · exact f.taken response hm
    · exact f.responses response hm

variable [Add α] [Sub α] [Mul α] [Div α] [Neg α] [BEq α] [NatCast α] [Elementary α] [Scalar α] [LT α] [DecidableLT α]

/-! ## What a step of the worker brings about -/

namespace Renderer.WorkerMove

variable {r r' : Renderer α}

/-- The worker adds no requests. -/
theorem requests_subset (h : r.WorkerMove r') : r'.requests ⊆ r.requests := by
  cases h with
  | receive job rest idle first =>
    rw [first]
    exact List.subset_cons_self _ _
  | replace old job rest choosing first =>
    rw [first]
    exact List.subset_cons_self _ _
  | respond job result elapsed ended =>
    unfold Renderer.respond
    split <;> exact List.Subset.refl _
  | _ => exact List.Subset.refl _

/-- A worker holds the job that it held, or one of those that waited. -/
theorem held (h : r.WorkerMove r') {job : Job α} (held : r'.worker.job? = some job) :
    r.worker.job? = some job ∨ job ∈ r.requests := by
  cases h with
  | receive job' rest idle first =>
    cases held
    rw [first]
    exact .inr List.mem_cons_self
  | replace old job' rest choosing first =>
    cases held
    rw [first]
    exact .inr List.mem_cons_self
  | choose job' choosing empty =>
    rw [choosing]
    exact .inl held
  | note job' chosen =>
    rw [chosen]
    exact .inl held
  | refuse job' generation noted refused =>
    rw [noted]
    exact .inl held
  | begin job' generation noted accepted =>
    rw [noted]
    exact .inl held
  | row job' run step run' handle rendering possible =>
    rw [rendering]
    exact .inl held
  | conclude job' run elapsed rendering drained =>
    rw [rendering]
    exact .inl held
  | respond job' result elapsed ended =>
    unfold Renderer.respond at held
    split at held <;> cases held

/-- A response was there before, or it answers a job whose render has ended otherwise than as cancelled. -/
theorem response (h : r.WorkerMove r') {response : Response α} (hm : response ∈ r'.responses) :
    response ∈ r.responses ∨ ∃ job result elapsed, r.worker = .ended job result elapsed ∧ result ≠ .error .cancelled ∧
      response.generation = job.generation := by
  cases h with
  | respond job result elapsed ended =>
    unfold Renderer.respond at hm
    split at hm
    · exact .inl hm
    · rename_i uncancelled
      rcases List.mem_append.1 hm with hm | hm
      · exact .inl hm
      · rw [List.mem_singleton.1 hm]
        exact .inr ⟨job, result, elapsed, ended, uncancelled, rfl⟩
  | _ => exact .inl hm

/-- A worker that can only drop its job does so, or still can do nothing else. -/
theorem doomed (h : r.WorkerMove r') (doomed : r.worker.Doomed r.handle) :
    r'.worker.job? = none ∨ r'.worker.Doomed r'.handle := by
  cases h with
  | receive job rest idle first =>
    rw [idle] at doomed
    cases doomed
  | replace old job rest choosing first =>
    rw [choosing] at doomed
    cases doomed
  | choose job choosing empty =>
    rw [choosing] at doomed
    cases doomed
  | note job chosen =>
    rw [chosen] at doomed
    cases doomed
  | refuse job generation noted refused =>
    rw [noted] at doomed
    exact absurd doomed.2 refused
  | begin job generation noted accepted =>
    rw [noted] at doomed
    exact .inr doomed.1
  | row job run step run' handle rendering possible =>
    rw [rendering] at doomed
    refine .inr ?_
    change run'.generation < handle.generation
    rw [Run.step?_noted possible, Run.step?_generation possible]
    exact doomed
  | conclude job run elapsed rendering drained =>
    rw [rendering] at doomed
    have moved : r.handle.generation ≠ run.generation := Nat.ne_of_gt doomed
    exact .inr (if_neg moved)
  | respond job result elapsed ended =>
    unfold Renderer.respond
    split <;> exact .inl rfl

end Renderer.WorkerMove

/-! ## Superseded while it is rendered -/

namespace System

/-- No step of the worker answers such a job. -/
theorem Forgone.work {s : System α} {generation : Nat} (f : s.Forgone generation) {r : Renderer α}
    (h : s.renderer.WorkerMove r) : ({ s with renderer := r } : System α).Forgone generation where
  superseded := by
    rw [h.frame.1]
    exact f.superseded
  requests := fun job hm => f.requests job (h.requests_subset hm)
  worker := by
    intro job held hg
    rcases h.held held with before | waiting
    · rcases h.doomed (f.worker job before hg) with dropped | doomed
      · rw [dropped] at held
        cases held
      · exact doomed
    · exact absurd hg (f.requests job waiting)
  responses := by
    intro response hm hg
    rcases h.response hm with hm | ⟨job, result, elapsed, ended, uncancelled, answers⟩
    · exact f.responses response hm hg
    · have doomed := f.worker job (by rw [ended]; rfl) (answers.symm.trans hg)
      rw [ended] at doomed
      exact uncancelled doomed
  taken := f.taken

/-- The owner takes responses from the queue only. -/
theorem Step.taken {s s' : System α} (hs : s.Step s') {response : Response α} (hm : .consumed response ∈ s'.history) :
    .consumed response ∈ s.history ∨ response ∈ s.renderer.responses := by
  have first_mem {first : Response α} {rest : List (Response α)} (queue : s.renderer.responses = first :: rest) :
      first ∈ s.renderer.responses := by
    rw [queue]
    exact List.mem_cons_self
  cases hs with
  | request drawing free => exact .inl (mem_of_mem_snoc rfl hm)
  | send drawing requesting => exact .inl (mem_of_mem_snoc rfl hm)
  | cancel free => exact .inl (mem_of_mem_snoc rfl hm)
  | poll free => exact .inl hm
  | wait generation free => exact .inl hm
  | drop onward first rest taking queue stale =>
    simp only [List.mem_append, List.mem_singleton, Occurrence.consumed.injEq] at hm
    rcases hm with hm | rfl
    · exact .inl hm
    · exact .inr (first_mem queue)
  | fail onward first rest error taking queue latest failed =>
    simp only [List.mem_append, List.mem_cons, Occurrence.consumed.injEq, reduceCtorEq, List.not_mem_nil, or_false] at hm
    rcases hm with hm | rfl
    · exact .inl hm
    · exact .inr (first_mem queue)
  | install onward first rest frame taking queue latest rendered shows =>
    simp only [List.mem_append, List.mem_cons, Occurrence.consumed.injEq, reduceCtorEq, List.not_mem_nil, or_false] at hm
    rcases hm with hm | rfl
    · exact .inl hm
    · exact .inr (first_mem queue)
  | polled installed polling empty => exact .inl (mem_of_mem_snoc rfl hm)
  | waited generation waiting => exact .inl (mem_of_mem_snoc rfl hm)
  | work r possible => exact .inl hm
  | listeners change => exact .inl hm

/-- No step at all answers such a job. -/
theorem Forgone.step {s s' : System α} {generation : Nat} (f : s.Forgone generation) (hs : s.Step s') :
    s'.Forgone generation := by
  have taken : ∀ response, .consumed response ∈ s'.history →
      .consumed response ∈ s.history ∨ response ∈ s.renderer.responses := fun _ => hs.taken
  have rest_subset {response : Response α} {rest : List (Response α)} (first : s.renderer.responses = response :: rest) :
      rest ⊆ s.renderer.responses := by
    rw [first]
    exact List.subset_cons_self _ _
  cases hs with
  | request drawing free => exact f.of_subset (Nat.le_succ _) rfl rfl .cancel (fun _ => id) taken
  | send drawing requesting =>
    refine ⟨f.superseded, ?_, f.worker, f.responses, ?_⟩
    · intro job hm
      rcases List.mem_append.1 hm with hm | hm
      · exact f.requests job hm
      · rw [List.mem_singleton.1 hm]
        exact Nat.ne_of_gt f.superseded
    · intro response hm
      exact f.taken response (mem_of_mem_snoc rfl hm)
  | cancel free => exact f.of_subset (Nat.le_succ _) rfl rfl .cancel (fun _ => id) taken
  | poll free => exact f.of_subset (Nat.le_refl _) rfl rfl id (fun _ => id) taken
  | wait generation' free => exact f.of_subset (Nat.le_refl _) rfl rfl id (fun _ => id) taken
  | drop onward response rest taking first stale =>
    exact f.of_subset (Nat.le_refl _) rfl rfl id (rest_subset first) taken
  | fail onward response rest error taking first latest failed =>
    exact f.of_subset (Nat.le_refl _) rfl rfl id (rest_subset first) taken
  | install onward response rest frame taking first latest rendered shows =>
    exact f.of_subset (Nat.le_refl _) rfl rfl id (rest_subset first) taken
  | polled installed polling empty => exact f.of_subset (Nat.le_refl _) rfl rfl id (fun _ => id) taken
  | waited generation' waiting => exact f.of_subset (Nat.le_refl _) rfl rfl id (fun _ => id) taken
  | work r possible => exact f.work possible
  | listeners change => exact f.of_subset (Nat.le_refl _) rfl rfl id (fun _ => id) taken

/-- A job whose worker can only drop it is forgone, since nothing else that is on its way or was taken has its generation. -/
theorem Sound.forgone {s : System α} (h : s.Sound) {job : Job α} (held : s.renderer.worker.job? = some job)
    (doomed : s.renderer.worker.Doomed s.renderer.handle) (superseded : job.generation < s.renderer.latest) :
    s.Forgone job.generation := by
  have sorted := h.order.sorted
  have before : ∀ generation ∈ (responses s.history).map (·.generation) ++ s.renderer.responses.map (·.generation),
      generation < job.generation := by
    rw [flow, Renderer.pipeline, ← List.append_assoc] at sorted
    intro generation hm
    exact (List.pairwise_append.1 sorted).2.2 generation hm job.generation (by simp [held])
  refine ⟨superseded, ?_, fun _ _ _ => doomed, ?_, ?_⟩
  · intro next waiting
    exact Nat.ne_of_gt (h.order.held_lt held waiting)
  · intro response hm
    exact Nat.ne_of_lt (before _ (List.mem_append_right _ (List.mem_map_of_mem hm)))
  · intro response hm
    exact Nat.ne_of_lt (before _ (List.mem_append_left _ (List.mem_map_of_mem (mem_responses.2 hm))))

/-- A worker that has noted a generation can only drop its job once that generation is not the latest any more. -/
theorem Sound.doomed {s : System α} (h : s.Sound) {job : Job α} (held : s.renderer.worker.job? = some job)
    (accepted : job.drawing.size.Accepted) {noted : Nat} (begun : s.renderer.worker.noted? = some noted) {handle : Handle}
    (later : s.renderer.handle.generation < handle.generation) : s.renderer.worker.Doomed handle := by
  have sound := h.contents.worker
  cases hw : s.renderer.worker with
  | noted job' generation =>
    rw [hw] at held sound
    cases held
    exact ⟨Nat.lt_of_le_of_lt sound.2 later, accepted⟩
  | rendering job' run =>
    rw [hw] at sound
    exact Nat.lt_of_le_of_lt sound.2.2.noted_le later
  | _ =>
    rw [hw] at begun
    cases begun

/-- A call that supersedes what came before leaves a worker that has noted a generation with nothing to do but to drop its job. -/
theorem Sound.forgone_of_call {s : System α} (h : s.Sound) {job : Job α} (held : s.renderer.worker.job? = some job)
    (accepted : job.drawing.size.Accepted) {noted : Nat} (begun : s.renderer.worker.noted? = some noted)
    (free : s.owner = .free) {call : Move α} (supersedes : call.supersedes = true) :
    (s.move call).Forgone job.generation := by
  have doomed : s.renderer.worker.Doomed s.renderer.handle.cancel := h.doomed held accepted begun (Nat.lt_succ_self _)
  have superseded : job.generation < s.renderer.latest + 1 := by
    rw [← h.numbering.handle]
    exact Nat.lt_succ_of_le (h.order.held_le h.numbering held)
  cases call with
  | request drawing =>
    have called : s.move? (.request drawing) = some ⟨s.renderer.cancel, .requesting drawing, s.history ++ [.requested drawing]⟩ := by
      simp only [move?, free]
    have sound := h.step (step_of_move? called)
    rw [move, called]
    exact sound.forgone held doomed superseded
  | cancel =>
    have called : s.move? .cancel = some ⟨s.renderer.cancel, .free, s.history ++ [.cancelled]⟩ := by
      simp only [move?, free]
    have sound := h.step (step_of_move? called)
    rw [move, called]
    exact sound.forgone held doomed superseded
  | _ => cases supersedes

/-- A render ends as cancelled if and only if something has superseded its job since it noted the generation. -/
theorem Sound.outcome_cancelled_iff {s : System α} (h : s.Sound) {job : Job α} {run : Run α}
    (rendering : s.renderer.worker = .rendering job run) :
    run.outcome s.renderer.handle = .error .cancelled ↔ run.generation < s.renderer.latest := by
  have sound := h.contents.worker
  rw [rendering] at sound
  obtain ⟨-, -, hr⟩ := sound
  have noted := hr.noted_le
  rw [← h.numbering.handle]
  constructor
  · intro cancelled
    refine Nat.lt_of_le_of_ne noted fun same => ?_
    rw [Run.outcome, if_pos same.symm] at cancelled
    cases cancelled
  · intro superseded
    exact if_neg (Nat.ne_of_gt superseded)

/-- If the owner asks for something else or cancels after the render of a job has noted the generation of the handle, and before
that render has looked at the generation for the last time, then the render of the job ends as cancelled and the job is never
answered, whatever happens afterwards. What has been called before that does not count: at its end a render is cancelled exactly if
the generation that it noted is not the latest any more. -/
theorem superseded_render_cancelled (ms : List (Move α)) (job : Job α)
    (held : (after ms).renderer.worker.job? = some job) (accepted : job.drawing.size.Accepted) :
    (∀ noted call more, (after ms).renderer.worker.noted? = some noted → (after ms).owner = .free → call.supersedes = true →
      (after (ms ++ call :: more)).Unanswered job.generation) ∧
    ∀ run, (after ms).renderer.worker = .rendering job run →
      (run.outcome (after ms).renderer.handle = .error .cancelled ↔ run.generation < (after ms).renderer.latest) := by
  have sound := sound_after ms
  refine ⟨?_, fun run => sound.outcome_cancelled_iff⟩
  intro noted call more begun free supersedes
  have forgone := sound.forgone_of_call held accepted begun free supersedes
  have moved : after (ms ++ call :: more) = ((after ms).move call).moves more := by
    simp only [after, moves, List.foldl_append, List.foldl_cons]
  rw [moved]
  exact (moves_induction (fun _ _ => Forgone.step) more forgone).unanswered

/-- The first of the two requests, which the second finds being rendered. -/
theorem first_request_unanswered :
    let first : Drawing Float := ⟨.standard, ⟨1, 1⟩, ⟨0.5⟩⟩
    (after (twoRequests.take 6)).renderer.worker.job? = some ⟨1, first⟩ ∧ first.size.Accepted ∧
      (after twoRequests).Unanswered 1 := by
  intro first
  have held : (after (twoRequests.take 6)).renderer.worker.job? = some ⟨1, first⟩ := rfl
  have accepted : first.size.Accepted := by decide
  exact ⟨held, accepted, (superseded_render_cancelled (twoRequests.take 6) ⟨1, first⟩ held accepted).1 1 _ (twoRequests.drop 7)
    rfl rfl rfl⟩

/-- It is not enough that the worker has taken the job: if the owner cancels before the worker has noted the generation, the render
notes the generation that the cancellation has left, goes to its end, and is answered. Nor is it enough that the generation is
noted if the size is refused, since the refusal is answered. -/
theorem unfinished_render_cancelled_false :
    (¬∀ (ms : List (Move Float)) (job : Job Float) (call : Move Float) (more : List (Move Float)),
      (after ms).renderer.worker.unfinished? = some job → (after ms).owner = .free → call.supersedes = true →
        (after (ms ++ call :: more)).Unanswered job.generation) ∧
      ¬∀ (ms : List (Move Float)) (job : Job Float) (call : Move Float) (more : List (Move Float)),
        (after ms).renderer.worker.unfinished? = some job → (after ms).renderer.worker.noted?.isSome = true →
          (after ms).owner = .free → call.supersedes = true → (after (ms ++ call :: more)).Unanswered job.generation := by
  constructor
  · intro h
    have unanswered := h [.request ⟨.standard, ⟨1, 1⟩, ⟨0.5⟩⟩, .send, .work .receive] ⟨1, .standard, ⟨1, 1⟩, ⟨0.5⟩⟩ .cancel
      [.work .choose, .work .note, .work .begin, .work (.row (.start 0 0)), .work (.row (.finish 0 0)), .work (.conclude 0),
        .work .respond] rfl rfl rfl
    exact unanswered.unsent _ List.mem_cons_self rfl
  · intro h
    have unanswered := h [.request ⟨.standard, ⟨0, 1⟩, ⟨0.5⟩⟩, .send, .work .receive, .work .choose, .work .note]
      ⟨1, .standard, ⟨0, 1⟩, ⟨0.5⟩⟩ .cancel [.work .begin, .work .respond] rfl rfl rfl rfl
    exact unanswered.unsent _ List.mem_cons_self rfl

end System

end DomainColoring
