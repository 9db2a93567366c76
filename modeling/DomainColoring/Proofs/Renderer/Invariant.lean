import DomainColoring.Proofs.Render.Schedule
import DomainColoring.Proofs.Renderer.History

/-!
# What holds of owner and worker throughout

Three things hold after any moves (`sound_after`), and every step keeps them together. The generations are numbers of requests and
cancellations (`Numbering`). Jobs and responses come one after the other in the order of their generations, and the latest is
among them (`Order`). Each carries what was asked for under its generation, and a render is cancelled only if something has
superseded it (`Contents`).
-/

namespace DomainColoring

open History

variable {α : Type}

/-- The job that a worker holds. -/
def Worker.job? : Worker α → Option (Job α)
  | idle => none
  | choosing job => some job
  | chosen job => some job
  | noted job _ => some job
  | rendering job _ => some job
  | ended job _ _ => some job

/-- The generation of the handle that a worker has noted for its render. -/
def Worker.noted? : Worker α → Option Nat
  | noted _ generation => some generation
  | rendering _ run => some run.generation
  | _ => none

/-- The generations of all that is on its way from the owner and back, in the order in which the owner will take it. -/
def Renderer.pipeline (r : Renderer α) : List Nat :=
  r.responses.map (·.generation) ++ (r.worker.job?.toList.map (·.generation) ++ r.requests.map (·.generation))

@[simp] theorem Renderer.pipeline_cancel (r : Renderer α) : r.cancel.pipeline = r.pipeline := rfl

theorem Renderer.pipeline_of_idle {r : Renderer α} (idle : r.worker = .idle) (requests : r.requests = [])
    (responses : r.responses = []) : r.pipeline = [] := by
  simp [pipeline, Worker.job?, idle, requests, responses]

/-- The generations of all that the owner has taken or may still take, in that order. -/
def System.flow (s : System α) : List Nat :=
  (responses s.history).map (·.generation) ++ s.renderer.pipeline

/-! ## Generations are numbers of requests and cancellations -/

namespace System

/-- The latest generation and that of the handle count the requests and cancellations. -/
structure Numbering (s : System α) : Prop where
  latest : s.renderer.latest = asks s.history
  handle : s.renderer.handle.generation = s.renderer.latest
  /-- Between the two halves of a request nothing else occurs. -/
  requesting : ∀ drawing, s.owner = .requesting drawing → ∃ earlier, s.history = earlier ++ [.requested drawing]
  issued : ∀ generation, .numbered generation ∈ s.history → ∃ drawing, Issued s.history generation drawing

/-- No request has returned a later generation than the latest. -/
theorem Numbering.numbered_le {s : System α} (n : s.Numbering) {generation : Nat}
    (h : .numbered generation ∈ s.history) : generation ≤ s.renderer.latest := by
  obtain ⟨drawing, hi⟩ := n.issued generation h
  rw [n.latest]
  exact hi.le_asks

/-! ## What the owner takes comes in the order of generations -/

/-- Generations come to the owner in ascending order, and the latest that a request has returned is not lost on the way. -/
structure Order (s : System α) : Prop where
  sorted : s.flow.Pairwise (· < ·)
  bounded : ∀ generation ∈ s.flow, generation ≤ s.renderer.latest
  /-- Between the two halves of a request the latest generation is not yet on its way. -/
  fresh : ∀ drawing, s.owner = .requesting drawing → ∀ generation ∈ s.flow, generation < s.renderer.latest
  kept : .numbered s.renderer.latest ∈ s.history → s.renderer.latest ∈ s.flow

/-- After a request or a cancellation all that is on its way is older than the latest generation. -/
theorem Order.supersede {s : System α} {owner : Owner α} {occurrence : Occurrence α} (o : s.Order) (n : s.Numbering)
    (response : occurrence.response? = none) (numbered : ∀ generation, occurrence ≠ .numbered generation) :
    (⟨s.renderer.cancel, owner, s.history ++ [occurrence]⟩ : System α).Order := by
  have hf : (⟨s.renderer.cancel, owner, s.history ++ [occurrence]⟩ : System α).flow = s.flow := by
    simp only [flow, responses_append, responses_cons, response, responses_nil, Renderer.pipeline_cancel]
    simp
  refine ⟨hf ▸ o.sorted, ?_, ?_, ?_⟩
  · rw [hf]
    exact fun generation hm => Nat.le_succ_of_le (o.bounded generation hm)
  · rw [hf]
    exact fun _ _ generation hm => Nat.lt_succ_of_le (o.bounded generation hm)
  · intro hm
    rcases List.mem_append.1 hm with hm | hm
    · exact absurd (n.numbered_le hm) (Nat.not_succ_le_self _)
    · exact absurd (List.mem_singleton.1 hm).symm (numbered _)

/-- The order holds on where what has been taken and is on its way stays the same. -/
theorem Order.of_flow_eq {s s' : System α} (o : s.Order) (flow : s'.flow = s.flow)
    (latest : s'.renderer.latest = s.renderer.latest)
    (numbered : .numbered s.renderer.latest ∈ s'.history → .numbered s.renderer.latest ∈ s.history)
    (fresh : ∀ drawing, s'.owner = .requesting drawing → s.owner = .requesting drawing) : s'.Order where
  sorted := flow ▸ o.sorted
  bounded := by rw [flow, latest]; exact o.bounded
  fresh := fun drawing h => by rw [flow, latest]; exact o.fresh drawing (fresh drawing h)
  kept := by rw [flow, latest]; exact fun h => o.kept (numbered h)

/-- What is on its way is sorted like all that the owner takes. -/
theorem Order.pipeline_sorted {s : System α} (o : s.Order) : s.renderer.pipeline.Pairwise (· < ·) :=
  (List.pairwise_append.1 o.sorted).2.1

/-- A job that a worker holds is older than those that wait. -/
theorem Order.held_lt {s : System α} (o : s.Order) {job next : Job α} (held : s.renderer.worker.job? = some job)
    (waiting : next ∈ s.renderer.requests) : job.generation < next.generation := by
  have hs := (List.pairwise_append.1 o.pipeline_sorted).2.1
  exact (List.pairwise_append.1 hs).2.2 _ (by simp [held]) _ (List.mem_map_of_mem waiting)

/-- The jobs that wait are sorted. -/
theorem Order.requests_sorted {s : System α} (o : s.Order) :
    (s.renderer.requests.map (·.generation)).Pairwise (· < ·) :=
  (List.pairwise_append.1 (List.pairwise_append.1 o.pipeline_sorted).2.1).2.1

/-- No job that waits is younger than the latest request. -/
theorem Order.waiting_le {s : System α} (o : s.Order) {job : Job α} (waiting : job ∈ s.renderer.requests) :
    job.generation ≤ s.renderer.latest :=
  o.bounded _ (List.mem_append_right _ (List.mem_append_right _ (List.mem_append_right _ (List.mem_map_of_mem waiting))))

/-- A job that a worker holds is not younger than the handle. -/
theorem Order.held_le {s : System α} (o : s.Order) (n : s.Numbering) {job : Job α}
    (held : s.renderer.worker.job? = some job) : job.generation ≤ s.renderer.handle.generation := by
  rw [n.handle]
  exact o.bounded _ (by simp [flow, Renderer.pipeline, held])

end System

section Steps

variable [Add α] [Sub α] [Mul α] [Div α] [Neg α] [BEq α] [NatCast α] [Elementary α] [Scalar α] [LT α] [DecidableLT α]

/-- The worker changes neither what has been asked for nor what is shown, and leaves the generation of the handle alone. -/
theorem Renderer.WorkerMove.frame {r r' : Renderer α} (h : r.WorkerMove r') :
    r'.latest = r.latest ∧ r'.current = r.current ∧ r'.handle.generation = r.handle.generation := by
  cases h with
  | row job run step run' handle rendering possible => exact ⟨rfl, rfl, Run.step?_generation possible⟩
  | respond job result elapsed ended =>
    unfold Renderer.respond
    split <;> exact ⟨rfl, rfl, rfl⟩
  | _ => exact ⟨rfl, rfl, rfl⟩

namespace System

/-- Each step keeps count of the requests. -/
theorem Numbering.step {s s' : System α} (n : s.Numbering) (h : s.Step s') : s'.Numbering := by
  have hl := n.latest
  have hh := n.handle
  have kept (more : List (Occurrence α)) (none : ∀ generation, .numbered generation ∉ more) :
      ∀ generation, .numbered generation ∈ s.history ++ more → ∃ drawing, Issued (s.history ++ more) generation drawing := by
    intro generation hm
    rcases List.mem_append.1 hm with hm | hm
    · exact (n.issued generation hm).imp fun drawing hi => hi.append more
    · exact absurd hm (none generation)
  cases h with
  | request drawing free =>
    refine ⟨by simp [Renderer.cancel, hl], by simp [Renderer.cancel, Handle.cancel, hh], ?_, kept _ (by simp)⟩
    rintro drawing' ⟨⟩
    exact ⟨s.history, rfl⟩
  | send drawing requesting =>
    obtain ⟨earlier, he⟩ := n.requesting drawing requesting
    refine ⟨by simp [Renderer.send, hl], hh, by rintro _ ⟨⟩, ?_⟩
    intro generation hm
    rcases List.mem_append.1 hm with hm | hm
    · exact (n.issued generation hm).imp fun drawing hi => hi.append _
    · simp only [List.mem_singleton, Occurrence.numbered.injEq] at hm
      refine ⟨drawing, earlier, [], by simp [he, hm], ?_⟩
      rw [hm, hl, he]
      simp
  | cancel free =>
    exact ⟨by simp [Renderer.cancel, hl], by simp [Renderer.cancel, Handle.cancel, hh], by rintro _ ⟨⟩, kept _ (by simp)⟩
  | poll free => exact ⟨hl, hh, by rintro _ ⟨⟩, n.issued⟩
  | wait generation free => exact ⟨hl, hh, by rintro _ ⟨⟩, n.issued⟩
  | drop onward response rest taking first stale =>
    exact ⟨by simp [hl], hh, fun drawing ho => absurd ho (taking.ne_requesting _ _), kept _ (by simp)⟩
  | fail onward response rest error taking first latest failed => exact ⟨by simp [hl], hh, by rintro _ ⟨⟩, kept _ (by simp)⟩
  | install onward response rest frame taking first latest rendered shows =>
    exact ⟨by simp [hl, Renderer.notify], hh, fun drawing ho => absurd ho (taking.ne_requesting _ _), kept _ (by simp)⟩
  | polled installed polling empty => exact ⟨by simp [hl], hh, by rintro _ ⟨⟩, kept _ (by simp)⟩
  | waited generation waiting => exact ⟨by simp [hl], hh, by rintro _ ⟨⟩, kept _ (by simp)⟩
  | work r possible =>
    obtain ⟨h1, -, h3⟩ := possible.frame
    exact ⟨h1.trans hl, h3.trans (hh.trans h1.symm), n.requesting, n.issued⟩
  | listeners change => exact ⟨hl, hh, n.requesting, n.issued⟩

end System

/-- A step of the worker leaves what is on its way as it is, or drops a job for the next or because its render was cancelled. -/
theorem Renderer.WorkerMove.pipeline {r r' : Renderer α} (h : r.WorkerMove r') :
    r'.pipeline = r.pipeline ∨
      ∃ before dropped later, r.pipeline = before ++ dropped :: later ∧ r'.pipeline = before ++ later ∧
        (later ≠ [] ∨
          ∃ job elapsed, r.worker = .ended job (.error .cancelled) elapsed ∧ job.generation = dropped) := by
  cases h with
  | receive job rest idle first => exact .inl (by simp [Renderer.pipeline, Worker.job?, idle, first])
  | replace old job rest choosing first =>
    refine .inr ⟨r.responses.map (·.generation), old.generation, job.generation :: rest.map (·.generation), ?_, ?_, ?_⟩
    · simp [Renderer.pipeline, Worker.job?, choosing, first]
    · simp [Renderer.pipeline, Worker.job?]
    · exact .inl (List.cons_ne_nil _ _)
  | choose job choosing empty => exact .inl (by simp [Renderer.pipeline, Worker.job?, choosing])
  | note job chosen => exact .inl (by simp [Renderer.pipeline, Worker.job?, chosen])
  | refuse job generation noted refused => exact .inl (by simp [Renderer.pipeline, Worker.job?, noted])
  | begin job generation noted accepted => exact .inl (by simp [Renderer.pipeline, Worker.job?, noted])
  | row job run step run' handle rendering possible => exact .inl (by simp [Renderer.pipeline, Worker.job?, rendering])
  | conclude job run elapsed rendering drained => exact .inl (by simp [Renderer.pipeline, Worker.job?, rendering])
  | respond job result elapsed ended =>
    unfold Renderer.respond
    split
    · refine .inr ⟨r.responses.map (·.generation), job.generation, r.requests.map (·.generation), ?_, ?_, ?_⟩
      · simp [Renderer.pipeline, Worker.job?, ended]
      · simp [Renderer.pipeline, Worker.job?]
      · exact .inr ⟨job, elapsed, ended, rfl⟩
    · exact .inl (by simp [Renderer.pipeline, Worker.job?, ended])

namespace System

/-- A step of the worker keeps the order, as it drops the latest generation neither for a later one nor as cancelled. -/
theorem Order.work {s : System α} {r : Renderer α} (o : s.Order) (n : s.Numbering) (h : s.renderer.WorkerMove r)
    (cancelled : ∀ job elapsed, s.renderer.worker = .ended job (.error .cancelled) elapsed →
      job.generation < s.renderer.handle.generation) : ({ s with renderer := r } : System α).Order := by
  obtain ⟨hl, -, -⟩ := h.frame
  rcases h.pipeline with same | ⟨before, dropped, later, hp, hp', reason⟩
  · exact o.of_flow_eq (congrArg (_ ++ ·) same) hl id fun _ => id
  · have hf : s.flow = ((responses s.history).map (·.generation) ++ before) ++ dropped :: later := by
      rw [flow, hp, List.append_assoc]
    have hf' : ({ s with renderer := r } : System α).flow =
        ((responses s.history).map (·.generation) ++ before) ++ later := by rw [flow, hp', List.append_assoc]
    have sub : ({ s with renderer := r } : System α).flow.Sublist s.flow := by
      rw [hf, hf']
      exact (List.sublist_cons_self _ _).append_left _
    have hlt : dropped < s.renderer.latest := by
      rcases reason with hne | ⟨job, elapsed, ended, rfl⟩
      · -- What comes after the dropped job is younger, and not younger than the latest.
        obtain ⟨next, hm⟩ := List.exists_mem_of_ne_nil _ hne
        have hs := o.sorted
        rw [hf] at hs
        have h1 := (List.pairwise_cons.1 (List.pairwise_append.1 hs).2.1).1 next hm
        have h2 := o.bounded next (by simp [hf, hm])
        omega
      · rw [← n.handle]
        exact cancelled job elapsed ended
    refine ⟨o.sorted.sublist sub, ?_, ?_, ?_⟩
    · rw [hl]
      exact fun generation hm => o.bounded generation (sub.subset hm)
    · rw [hl]
      exact fun drawing ho generation hm => o.fresh drawing ho generation (sub.subset hm)
    · rw [hl]
      intro hn
      have hm := o.kept hn
      rw [hf, List.mem_append, List.mem_cons] at hm
      rw [hf', List.mem_append]
      rcases hm with hm | hm | hm
      · exact .inl hm
      · omega
      · exact .inr hm

/-- Each step keeps the order of generations. -/
theorem Order.step {s s' : System α} (o : s.Order) (n : s.Numbering) (h : s.Step s')
    (cancelled : ∀ job elapsed, s.renderer.worker = .ended job (.error .cancelled) elapsed →
      job.generation < s.renderer.handle.generation) : s'.Order := by
  cases h with
  | request drawing free => exact o.supersede n rfl nofun
  | send drawing requesting =>
    -- What is sent comes behind all that is on its way, and is younger.
    have hf : (⟨s.renderer.send drawing, .free, s.history ++ [.numbered s.renderer.latest]⟩ : System α).flow =
        s.flow ++ [s.renderer.latest] := by simp [flow, Renderer.pipeline, Renderer.send]
    refine ⟨?_, ?_, nofun, ?_⟩
    · rw [hf, List.pairwise_append]
      refine ⟨o.sorted, List.pairwise_singleton _ _, ?_⟩
      simpa using o.fresh drawing requesting
    · rw [hf]
      intro generation hm
      rcases List.mem_append.1 hm with hm | hm
      · exact o.bounded generation hm
      · exact Nat.le_of_eq (List.mem_singleton.1 hm)
    · rw [hf]
      exact fun _ => List.mem_append_right _ List.mem_cons_self
  | cancel free => exact o.supersede n rfl nofun
  | poll free => exact o.of_flow_eq rfl rfl id nofun
  | wait generation free => exact o.of_flow_eq rfl rfl id nofun
  | drop onward response rest taking first stale =>
    exact o.of_flow_eq (by simp [flow, Renderer.pipeline, first]) rfl (by simp)
      fun drawing ho => absurd ho (taking.ne_requesting _ _)
  | fail onward response rest error taking first latest failed =>
    exact o.of_flow_eq (by simp [flow, Renderer.pipeline, first]) rfl (by simp) nofun
  | install onward response rest frame taking first latest rendered shows =>
    exact o.of_flow_eq (by simp [flow, Renderer.pipeline, first, Renderer.notify]) rfl (by simp)
      fun drawing ho => absurd ho (taking.ne_requesting _ _)
  | polled installed polling empty => exact o.of_flow_eq (by simp [flow]) rfl (by simp) nofun
  | waited generation waiting => exact o.of_flow_eq (by simp [flow]) rfl (by simp) nofun
  | work r possible => exact o.work n possible cancelled
  | listeners change => exact o.of_flow_eq rfl rfl id fun _ => id

end System

/-! ## What is on its way is what was asked for -/

/-- A response answers the request that returned its generation: it is about that plot, with the end of the uninterrupted render of
that drawing. -/
def Answers (history : List (Occurrence α)) (response : Response α) : Prop :=
  ∃ drawing, Issued history response.generation drawing ∧ response.plot = drawing.plot ∧
    response.result = drawing.render

/-- A response that answers a request does so whatever comes later. -/
theorem Answers.append {history : List (Occurrence α)} {response : Response α} (h : Answers history response)
    (more : List (Occurrence α)) : Answers (history ++ more) response := by
  obtain ⟨drawing, hi, h⟩ := h
  exact ⟨drawing, hi.append more, h⟩

/-- What holds of a worker that shares a handle. A worker notes the generation of the handle after it has taken its job, so what
it notes is not older than the job. -/
def Worker.Sound (h : Handle) : Worker α → Prop
  | noted job generation => job.generation ≤ generation ∧ generation ≤ h.generation
  | rendering job run =>
    job.generation ≤ run.generation ∧ job.drawing.size.Accepted ∧ Run.Sound job.drawing run.generation run h
  | ended job result _ =>
    result = job.drawing.render ∨ result = .error .cancelled ∧ job.generation < h.generation
  | _ => True

/-- What a worker has noted remains right after a cancellation. -/
theorem Worker.Sound.cancel {w : Worker α} {h : Handle} (s : w.Sound h) : w.Sound h.cancel := by
  cases w with
  | noted job generation => exact ⟨s.1, Nat.le_succ_of_le s.2⟩
  | rendering job run => exact ⟨s.1, s.2.1, s.2.2.cancel⟩
  | ended job result elapsed => exact s.imp_right fun h => ⟨h.1, Nat.lt_succ_of_lt h.2⟩
  | _ => trivial

/-- No uninterrupted render is cancelled. -/
theorem Drawing.render_ne_cancelled (d : Drawing α) : d.render ≠ .error .cancelled := by
  by_cases accepted : d.size.Accepted
  · rw [render_of_accepted accepted]
    exact nofun
  · rw [render_of_refused accepted]
    exact nofun

/-- A result that is not a cancellation is that of the uninterrupted render, and one that is belongs to a superseded job. -/
theorem Worker.Sound.lt_of_cancelled {h : Handle} {job : Job α} {elapsed : Nat}
    (s : (Worker.ended job (.error .cancelled) elapsed).Sound h) : job.generation < h.generation := by
  rcases s with s | s
  · exact absurd s.symm job.drawing.render_ne_cancelled
  · exact s.2

/-- A step of the worker keeps what holds of it, as long as its job is not younger than the handle. -/
theorem Renderer.WorkerMove.worker_sound {r r' : Renderer α} (h : r.WorkerMove r') (s : r.worker.Sound r.handle)
    (held : ∀ job, r.worker.job? = some job → job.generation ≤ r.handle.generation) :
    r'.worker.Sound r'.handle := by
  cases h with
  | note job chosen => exact ⟨held job (by rw [chosen]; rfl), Nat.le_refl _⟩
  | refuse job generation noted refused => exact .inl (Drawing.render_of_refused refused).symm
  | begin job generation noted accepted =>
    rw [noted] at s
    exact ⟨s.1, accepted, .initial s.2⟩
  | row job run step run' handle rendering possible =>
    rw [rendering] at s
    have hs := s.2.2.step? possible
    exact ⟨hs.generation ▸ s.1, s.2.1, hs.generation.symm ▸ hs⟩
  | conclude job run elapsed rendering drained =>
    rw [rendering] at s
    obtain ⟨hg, accepted, hs⟩ := s
    by_cases he : r.handle.generation = run.generation
    · exact .inl ((hs.outcome_of_uncancelled drained he).trans (Drawing.render_of_accepted accepted).symm)
    · have hlt : run.generation < r.handle.generation := Nat.lt_of_le_of_ne hs.noted_le (Ne.symm he)
      exact .inr ⟨hs.outcome_of_cancelled he, Nat.lt_of_le_of_lt hg hlt⟩
  | respond job result elapsed ended =>
    unfold Renderer.respond
    split <;> trivial
  | _ => trivial

namespace System

/-- Jobs and responses carry what was asked for under their generations. -/
structure Contents (s : System α) : Prop where
  requests : ∀ job ∈ s.renderer.requests, Issued s.history job.generation job.drawing
  held : ∀ job, s.renderer.worker.job? = some job → Issued s.history job.generation job.drawing
  worker : s.renderer.worker.Sound s.renderer.handle
  responses : ∀ response ∈ s.renderer.responses, Answers s.history response

/-- A render that ended as cancelled is of a superseded generation. -/
theorem Contents.lt_of_cancelled {s : System α} (c : s.Contents) {job : Job α} {elapsed : Nat}
    (ended : s.renderer.worker = .ended job (.error .cancelled) elapsed) :
    job.generation < s.renderer.handle.generation := by
  have hs := c.worker
  rw [ended] at hs
  exact hs.lt_of_cancelled

/-- What is on its way stays what was asked for when more occurs and less is on its way. -/
theorem Contents.of_subset {s s' : System α} (c : s.Contents) (more : List (Occurrence α))
    (history : s'.history = s.history ++ more) (requests : s'.renderer.requests = s.renderer.requests)
    (worker : s'.renderer.worker = s.renderer.worker) (sound : s.renderer.worker.Sound s'.renderer.handle)
    (responses : s'.renderer.responses ⊆ s.renderer.responses) : s'.Contents where
  requests := fun job hm => by rw [history]; exact (c.requests job (requests ▸ hm)).append more
  held := fun job hj => by rw [history]; exact (c.held job (worker ▸ hj)).append more
  worker := by rw [worker]; exact sound
  responses := fun response hm => by rw [history]; exact (c.responses response (responses hm)).append more

/-- Steps of the worker make of what was asked for the answers to it. -/
theorem Contents.work {s : System α} {r : Renderer α} (c : s.Contents) (n : s.Numbering) (o : s.Order)
    (h : s.renderer.WorkerMove r) : ({ s with renderer := r } : System α).Contents := by
  have hw : r.worker.Sound r.handle := h.worker_sound c.worker fun job => o.held_le n
  cases h with
  | receive job rest idle first =>
    refine ⟨fun job' hm => c.requests job' (by rw [first]; exact List.mem_cons_of_mem _ hm), ?_, hw, c.responses⟩
    rintro job' ⟨⟩
    exact c.requests job (by rw [first]; exact List.mem_cons_self)
  | replace old job rest choosing first =>
    refine ⟨fun job' hm => c.requests job' (by rw [first]; exact List.mem_cons_of_mem _ hm), ?_, hw, c.responses⟩
    rintro job' ⟨⟩
    exact c.requests job (by rw [first]; exact List.mem_cons_self)
  | choose job choosing empty => exact ⟨c.requests, fun job' hj => c.held job' (choosing ▸ hj), hw, c.responses⟩
  | note job chosen => exact ⟨c.requests, fun job' hj => c.held job' (chosen ▸ hj), hw, c.responses⟩
  | refuse job generation noted refused => exact ⟨c.requests, fun job' hj => c.held job' (noted ▸ hj), hw, c.responses⟩
  | begin job generation noted accepted => exact ⟨c.requests, fun job' hj => c.held job' (noted ▸ hj), hw, c.responses⟩
  | row job run step run' handle rendering possible =>
    exact ⟨c.requests, fun job' hj => c.held job' (rendering ▸ hj), hw, c.responses⟩
  | conclude job run elapsed rendering drained =>
    exact ⟨c.requests, fun job' hj => c.held job' (rendering ▸ hj), hw, c.responses⟩
  | respond job result elapsed ended =>
    have hs := c.worker
    rw [ended] at hs
    unfold Renderer.respond at hw ⊢
    split
    · exact ⟨c.requests, nofun, trivial, c.responses⟩
    · rename_i uncancelled
      refine ⟨c.requests, nofun, trivial, ?_⟩
      intro response hm
      rcases List.mem_append.1 hm with hm | hm
      · exact c.responses response hm
      · rw [List.mem_singleton.1 hm]
        -- A result that is sent is no cancellation, so it is that of the uninterrupted render.
        rcases hs with hs | hs
        · exact ⟨job.drawing, c.held job (by rw [ended]; rfl), rfl, hs⟩
        · exact absurd hs.1 uncancelled

/-- Each step keeps what was asked for under each generation. -/
theorem Contents.step {s s' : System α} (c : s.Contents) (n : s.Numbering) (o : s.Order) (h : s.Step s') :
    s'.Contents := by
  have rest_subset {response : Response α} {rest : List (Response α)} (first : s.renderer.responses = response :: rest) :
      rest ⊆ s.renderer.responses := by
    rw [first]
    exact List.subset_cons_self _ _
  cases h with
  | request drawing free => exact c.of_subset _ rfl rfl rfl c.worker.cancel fun _ => id
  | send drawing requesting =>
    have hc : (⟨s.renderer, .free, s.history ++ [.numbered s.renderer.latest]⟩ : System α).Contents :=
      c.of_subset _ rfl rfl rfl c.worker fun _ => id
    refine ⟨?_, hc.held, hc.worker, hc.responses⟩
    intro job hm
    rcases List.mem_append.1 hm with hm | hm
    · exact hc.requests job hm
    · obtain ⟨earlier, he⟩ := n.requesting drawing requesting
      rw [List.mem_singleton.1 hm]
      refine ⟨earlier, [], by simp [he], ?_⟩
      rw [n.latest, he]
      simp
  | cancel free => exact c.of_subset _ rfl rfl rfl c.worker.cancel fun _ => id
  | poll free => exact c.of_subset [] (by simp) rfl rfl c.worker fun _ => id
  | wait generation free => exact c.of_subset [] (by simp) rfl rfl c.worker fun _ => id
  | drop onward response rest taking first stale => exact c.of_subset _ rfl rfl rfl c.worker (rest_subset first)
  | fail onward response rest error taking first latest failed =>
    exact c.of_subset _ rfl rfl rfl c.worker (rest_subset first)
  | install onward response rest frame taking first latest rendered shows =>
    exact c.of_subset _ rfl rfl rfl c.worker (rest_subset first)
  | polled installed polling empty => exact c.of_subset _ rfl rfl rfl c.worker fun _ => id
  | waited generation waiting => exact c.of_subset _ rfl rfl rfl c.worker fun _ => id
  | work r possible => exact c.work n o possible
  | listeners change => exact c.of_subset [] (by simp) rfl rfl c.worker fun _ => id

/-! ## After any moves -/

/-- All of the above. -/
structure Sound (s : System α) : Prop where
  numbering : s.Numbering
  order : s.Order
  contents : s.Contents

/-- All of it holds before anything is asked. -/
theorem sound_initial : (initial : System α).Sound where
  numbering := ⟨rfl, rfl, nofun, nofun⟩
  order := ⟨List.Pairwise.nil, nofun, nofun, nofun⟩
  contents := ⟨nofun, nofun, trivial, nofun⟩

/-- All of it holds after a step if it held before. -/
theorem Sound.step {s s' : System α} (h : s.Sound) (hs : s.Step s') : s'.Sound where
  numbering := h.numbering.step hs
  order := h.order.step h.numbering hs fun _ _ => h.contents.lt_of_cancelled
  contents := h.contents.step h.numbering h.order hs

/-- All of it holds after any moves. -/
theorem sound_after (ms : List (Move α)) : (after ms).Sound :=
  after_induction sound_initial (fun _ _ => Sound.step) ms

end System

end Steps

end DomainColoring
