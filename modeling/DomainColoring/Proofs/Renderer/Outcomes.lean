import DomainColoring.Proofs.Renderer.Delivery
import DomainColoring.Proofs.Renderer.Quiet

/-!
# What comes of requests

The frame that is shown and the errors that are returned are the ends of uninterrupted renders of what was requested
(`System.Outcomes`). So an owner that requests drawings of accepted sizes only (`Renderer.Orderly`) never meets an error, and what
it requested last is on its way until it is shown (`Renderer.Orderly.serves`).
-/

namespace DomainColoring

open History

variable {α : Type} [Add α] [Sub α] [Mul α] [Div α] [Neg α] [BEq α] [NatCast α] [Elementary α] [Scalar α] [LT α] [DecidableLT α]

namespace System

/-! ## Frames and errors -/

/-- A frame is the picture of the drawing that was requested under its generation. -/
def Depicts (history : List (Occurrence α)) (frame : Frame α) : Prop :=
  ∃ drawing, Issued history frame.generation drawing ∧ frame.plot = drawing.plot ∧ drawing.render = .ok frame.picture

/-- An error is that of a drawing that was requested. -/
def Blames (history : List (Occurrence α)) (error : RenderError) : Prop :=
  ∃ drawing, .requested drawing ∈ history ∧ drawing.render = .error error

/-- A frame remains the picture of its drawing. -/
theorem Depicts.append {history : List (Occurrence α)} {frame : Frame α} (h : Depicts history frame)
    (more : List (Occurrence α)) : Depicts (history ++ more) frame := by
  obtain ⟨drawing, issued, h⟩ := h
  exact ⟨drawing, issued.append more, h⟩

/-- An error remains that of a drawing that was requested. -/
theorem Blames.append {history : List (Occurrence α)} {error : RenderError} (h : Blames history error)
    (more : List (Occurrence α)) : Blames (history ++ more) error := by
  obtain ⟨drawing, requested, h⟩ := h
  exact ⟨drawing, List.mem_append_left _ requested, h⟩

/-- What the owner gets to see and to know is what came of its requests. -/
structure Outcomes (s : System α) : Prop where
  shown : ∀ frame, s.renderer.current = some frame → Depicts s.history frame
  failed : ∀ error, .failed error ∈ s.history → Blames s.history error

/-- Further occurrences keep frames and errors what they are, if they bring none of another kind. -/
theorem Outcomes.append {s s' : System α} (c : s.Outcomes) (more : List (Occurrence α))
    (history : s'.history = s.history ++ more)
    (shown : ∀ frame, s'.renderer.current = some frame → s.renderer.current = some frame ∨ Depicts s.history frame)
    (failed : ∀ error, .failed error ∈ more → Blames s.history error) : s'.Outcomes where
  shown := by
    intro frame hc
    rw [history]
    rcases shown frame hc with hc | h
    · exact (c.shown frame hc).append more
    · exact h.append more
  failed := by
    intro error hm
    rw [history] at hm ⊢
    rcases List.mem_append.1 hm with hm | hm
    · exact (c.failed error hm).append more
    · exact (failed error hm).append more

/-- Nothing changes as long as no frame is installed and no error returned. -/
theorem Outcomes.of_quiet {s s' : System α} (c : s.Outcomes) (more : List (Occurrence α))
    (history : s'.history = s.history ++ more) (current : s'.renderer.current = s.renderer.current)
    (unfailed : ∀ error, .failed error ∉ more) : s'.Outcomes :=
  c.append more history (fun _ hc => .inl (current ▸ hc)) fun error hm => absurd hm (unfailed error)

/-- Each step brings only frames and errors of requested drawings. -/
theorem Outcomes.step {s s' : System α} (c : s.Outcomes) (h : s.Sound) (hs : s.Step s') : s'.Outcomes := by
  cases hs with
  | request drawing free => exact c.of_quiet _ rfl rfl (by simp)
  | send drawing requesting => exact c.of_quiet _ rfl rfl (by simp)
  | cancel free => exact c.of_quiet _ rfl rfl (by simp)
  | poll free => exact c.of_quiet [] (by simp) rfl (by simp)
  | wait generation free => exact c.of_quiet [] (by simp) rfl (by simp)
  | drop onward response rest taking first stale => exact c.of_quiet _ rfl rfl (by simp)
  | fail onward response rest error taking first latest failed =>
    obtain ⟨drawing, issued, -, result⟩ := h.contents.responses response (by rw [first]; exact List.mem_cons_self)
    refine c.append _ rfl (fun _ => .inl) ?_
    intro error' hm
    obtain rfl : error' = error := by simpa using hm
    exact ⟨drawing, issued.requested_mem, result.symm.trans failed⟩
  | install onward response rest frame taking first latest rendered shows =>
    obtain ⟨drawing, issued, plot, result⟩ := h.contents.responses response (by rw [first]; exact List.mem_cons_self)
    refine c.append _ rfl ?_ (by simp)
    rintro frame' ⟨⟩
    exact .inr ⟨drawing, shows.1 ▸ issued, shows.2.trans plot, result.symm.trans rendered⟩
  | polled installed polling empty => exact c.of_quiet _ rfl rfl (by simp)
  | waited generation waiting => exact c.of_quiet _ rfl rfl (by simp)
  | work r possible => exact c.of_quiet [] (by simp) possible.frame.2.1 (by simp)
  | listeners change => exact c.of_quiet [] (by simp) rfl (by simp)

/-- After any moves frames and errors are those of requested drawings. -/
theorem outcomes_after (ms : List (Move α)) : (after ms).Outcomes :=
  (after_induction (P := fun s : System α => s.Sound ∧ s.Outcomes) ⟨sound_initial, nofun, nofun⟩
    (fun _ _ h hs => ⟨h.1.step hs, h.2.step h.1 hs⟩) ms).2

namespace Reaches

variable {s : System α}

theorem sound (h : initial.Reaches s) : s.Sound := by
  obtain ⟨ms, rfl⟩ := h
  exact sound_after ms

theorem settlement (h : initial.Reaches s) : s.Settlement := by
  obtain ⟨ms, rfl⟩ := h
  exact settlement_after ms

theorem outcomes (h : initial.Reaches s) : s.Outcomes := by
  obtain ⟨ms, rfl⟩ := h
  exact outcomes_after ms

/-- What is shown is never newer than the latest generation. -/
theorem frame_le (h : initial.Reaches s) {frame : Frame α} (shown : s.renderer.current = some frame) :
    frame.generation ≤ s.renderer.latest := by
  obtain ⟨drawing, issued, -⟩ := h.outcomes.shown frame shown
  exact Nat.le_trans issued.le_asks (Nat.le_of_eq h.sound.numbering.latest.symm)

end Reaches

end System

/-! ## Owners that meet no error -/

/-- The owner is between two calls, and has requested drawings of accepted sizes only. -/
structure Renderer.Orderly (r : Renderer α) (history : List (Occurrence α)) : Prop where
  reached : System.initial.Reaches ⟨r, .free, history⟩
  accepted : ∀ drawing, .requested drawing ∈ history → drawing.size.Accepted

namespace Renderer.Orderly

variable {r r' : Renderer α} {history more : List (Occurrence α)} {drawing : Drawing α}

theorem initial : (.initial : Renderer α).Orderly [] where
  reached := .refl _
  accepted := nofun

/-- No error was returned. -/
theorem not_failed (h : r.Orderly history) (error : RenderError) : .failed error ∉ history := by
  intro failed
  obtain ⟨drawing, requested, refused⟩ := h.reached.outcomes.failed error failed
  rw [Drawing.render_of_accepted (h.accepted drawing requested)] at refused
  cases refused

/-- As long as the latest generation stays as it is nothing is requested. -/
theorem of_reaches (h : r.Orderly history) (reaches : (⟨r, .free, history⟩ : System α).Reaches ⟨r', .free, history ++ more⟩)
    (latest : r'.latest = r.latest) : r'.Orderly (history ++ more) where
  reached := h.reached.trans reaches
  accepted := by
    have before := h.reached.sound.numbering.latest
    have now := (h.reached.trans reaches).sound.numbering.latest
    simp only [asks_append] at before now
    -- The latest generation counts the requests, so none has been added.
    have quiet : asks more = 0 := by omega
    intro drawing requested
    rcases List.mem_append.1 requested with requested | requested
    · exact h.accepted drawing requested
    · exact absurd rfl (List.countP_eq_zero.1 quiet _ requested)

/-- After a request its drawing is that of the latest generation. -/
theorem request (h : r.Orderly history) (accepted : drawing.size.Accepted) (meanwhile : Renderer α → List WorkerStep) :
    ∃ history', (r.request drawing meanwhile).Orderly history' ∧
      Issued history' (r.request drawing meanwhile).latest drawing := by
  have reached := h.reached.trans (System.reaches_request r history drawing meanwhile)
  refine ⟨_, ⟨reached, ?_⟩, history, [], by simp, ?_⟩
  · intro drawing' requested
    simp only [List.append_assoc, List.mem_append, List.mem_singleton, Occurrence.requested.injEq, reduceCtorEq,
      or_false] at requested
    rcases requested with requested | rfl
    · exact h.accepted drawing' requested
    · exact accepted
  · simpa using reached.sound.numbering.latest

/-- A poll never fails. -/
theorem poll (h : r.Orderly history) :
    (∃ installed, r.poll.1 = .ok installed) ∧ ∃ more, r.poll.2.Orderly (history ++ more) := by
  obtain ⟨more, reaches⟩ := System.reaches_call r history .poll
  rw [List.append_assoc] at reaches
  have h' := h.of_reaches reaches (r.deliverAll_asks_nothing none r.responses).1
  refine ⟨?_, _, h'⟩
  cases result : r.poll.1 with
  | ok installed => exact ⟨installed, rfl⟩
  | error error => exact absurd (by simp [call, result]) (h'.not_failed error)

/-- A wait never fails. It returns the frame that is shown in the end, if it is of the generation. -/
theorem wait (h : r.Orderly history) (generation : Nat) (steps : List WorkerStep) :
    (r.waitDuring generation steps).1 = .ok ((r.waitDuring generation steps).2.frame? generation) ∧
      ∃ more, (r.waitDuring generation steps).2.Orderly (history ++ more) := by
  obtain ⟨more, reaches⟩ := System.reaches_call r history (.wait generation steps)
  rw [List.append_assoc] at reaches
  have h' := h.of_reaches reaches (r.latest_waitDuring generation steps)
  refine ⟨?_, _, h'⟩
  cases result : (r.waitDuring generation steps).1 with
  | ok frame => rw [r.waitDuring_frame generation steps result]
  | error error => exact absurd (by simp [call, result]) (h'.not_failed error)

/-- Polls, waits and the steps of the worker in any order, as long as the owner is between two calls in the end. -/
theorem quiet (h : r.Orderly history) {ms : List (Move α)}
    (ends : (⟨r, .free, []⟩ : System α).moves (ms.filter Move.isQuiet) = ⟨r', .free, more⟩) : r'.Orderly (history ++ more) := by
  have latest := System.latest_moves_quiet ⟨r, .free, []⟩ ms
  have since := System.moves_since ⟨r, .free, []⟩ history (ms.filter Move.isQuiet)
  rw [ends] at latest since
  simp only [System.since, List.append_nil] at since
  exact h.of_reaches ⟨_, since⟩ latest

/-- The worker may take steps at any moment. -/
theorem work (h : r.Orderly history) (steps : List WorkerStep) : (r.work steps).Orderly history where
  reached := h.reached.trans (System.reaches_work _ steps)
  accepted := h.accepted

/-- Listeners may be told of events at any moment. -/
theorem notify (h : r.Orderly history) (event : PlotEvent α) : (r.notify event).Orderly history where
  reached := h.reached.trans (.move (.listeners fun n => (n.notify event).1) rfl)
  accepted := h.accepted

/-- The frame that is shown is of the latest generation or an earlier one. -/
theorem frame_le (h : r.Orderly history) {frame : Frame α} (shown : r.current = some frame) : frame.generation ≤ r.latest :=
  h.reached.frame_le shown

/-- What is not awaited any more is shown. -/
theorem shown_of_not_awaits (h : r.Orderly history) (ended : ¬r.Awaits r.latest) :
    ∃ frame, r.current = some frame ∧ frame.generation = r.latest := by
  simp only [Awaits, true_and, not_forall, Nat.not_lt] at ended
  obtain ⟨frame, shown, le⟩ := ended
  exact ⟨frame, shown, Nat.le_antisymm (h.frame_le shown) le⟩

/-- What was requested last is on its way until it is shown. -/
theorem on_its_way_or_shown (h : r.Orderly history) (issued : Issued history r.latest drawing) :
    r.pipeline.count r.latest = 1 ∨ ∃ frame, r.current = some frame ∧ frame.generation = r.latest := by
  have order := h.reached.sound.order
  rcases List.mem_append.1 (order.kept issued.numbered_mem) with taken | onItsWay
  · obtain ⟨response, taken, generation⟩ := List.mem_map.1 taken
    refine (h.reached.settlement.settled response (mem_responses.1 taken) generation).symm.imp_left ?_
    rintro ⟨error, -, failed⟩
    exact absurd (failed.subset (by simp)) (h.not_failed error)
  · have once : r.pipeline.Nodup := order.pipeline_sorted.imp Nat.ne_of_lt
    exact .inl (once.count.trans (if_pos onItsWay))

end Renderer.Orderly

/-- Under its latest generation a renderer works on one drawing, or shows it. -/
structure Renderer.Serves (r : Renderer α) (drawing : Drawing α) : Prop where
  /-- The request that returned the latest generation was for the drawing. -/
  issued : ∃ history, System.initial.Reaches ⟨r, .free, history⟩ ∧ Issued history r.latest drawing
  requests : ∀ job ∈ r.requests, job.generation = r.latest → job.drawing = drawing
  held : ∀ job, r.worker.job? = some job → job.generation = r.latest → job.drawing = drawing
  responses : ∀ response ∈ r.responses, response.generation = r.latest →
    response.plot = drawing.plot ∧ response.result = drawing.render
  shown : ∀ frame, r.current = some frame → frame.generation = r.latest →
    frame.plot = drawing.plot ∧ drawing.render = .ok frame.picture
  /-- The drawing is on its way until it is shown. -/
  kept : r.pipeline.count r.latest = 1 ∨ ∃ frame, r.current = some frame ∧ frame.generation = r.latest

/-- After a request of an orderly owner the renderer works for that drawing. -/
theorem Renderer.Orderly.serves {r : Renderer α} {history : List (Occurrence α)} {drawing : Drawing α}
    (h : r.Orderly history) (issued : Issued history r.latest drawing) : r.Serves drawing where
  issued := ⟨history, h.reached, issued⟩
  requests := fun job hm latest => (h.reached.sound.contents.requests job hm).unique (latest ▸ issued)
  held := fun job hj latest => (h.reached.sound.contents.held job hj).unique (latest ▸ issued)
  responses := by
    intro response hm latest
    obtain ⟨drawing', issued', plot, result⟩ := h.reached.sound.contents.responses response hm
    obtain rfl := issued'.unique (latest ▸ issued)
    exact ⟨plot, result⟩
  shown := by
    intro frame hc latest
    obtain ⟨drawing', issued', plot, rendered⟩ := h.reached.outcomes.shown frame hc
    obtain rfl := issued'.unique (latest ▸ issued)
    exact ⟨plot, rendered⟩
  kept := h.on_its_way_or_shown issued

/-- No render fails: a job ends with a picture, or cancelled and unanswered. -/
structure Renderer.Unfailing (r : Renderer α) : Prop where
  jobs : ∀ job, job ∈ r.requests ∨ r.worker.job? = some job → job.drawing.size.Accepted
  ended : ∀ job result elapsed, r.worker = .ended job result elapsed →
    result = .error .cancelled ∨ ∃ picture, result = .ok picture
  responses : ∀ response ∈ r.responses, ∃ picture, response.result = .ok picture
  poll : ∃ installed, r.poll.1 = .ok installed
  wait : ∀ generation steps, ∃ frame, (r.waitDuring generation steps).1 = .ok frame

/-- The renderer of an orderly owner meets no error. -/
theorem Renderer.Orderly.unfailing {r : Renderer α} {history : List (Occurrence α)} (h : r.Orderly history) : r.Unfailing := by
  have contents := h.reached.sound.contents
  have rendered {generation : Nat} {drawing : Drawing α} (issued : Issued history generation drawing) :
      drawing.size.Accepted ∧ drawing.render = .ok drawing.picture := by
    have accepted := h.accepted drawing issued.requested_mem
    exact ⟨accepted, Drawing.render_of_accepted accepted⟩
  refine ⟨?_, ?_, ?_, h.poll.1, fun generation steps => ⟨_, (h.wait generation steps).1⟩⟩
  · rintro job (waiting | held)
    · exact (rendered (contents.requests job waiting)).1
    · exact (rendered (contents.held job held)).1
  · intro job result elapsed ended
    have sound := contents.worker
    rw [ended] at sound
    rcases sound with whole | ⟨cancelled, -⟩
    · exact .inr ⟨_, whole.trans (rendered (contents.held job (by rw [ended]; rfl))).2⟩
    · exact .inl cancelled
  · intro response member
    obtain ⟨drawing, issued, -, result⟩ := contents.responses response member
    exact ⟨_, result.trans (rendered issued).2⟩

end DomainColoring
