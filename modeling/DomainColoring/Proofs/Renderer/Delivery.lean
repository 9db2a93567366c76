import DomainColoring.Proofs.Renderer.Invariant

/-!
# What a renderer delivers

Only the latest request is ever shown (`only_latest_installed`), and as long as nothing supersedes it the latest request is not
lost (`newest_request_kept`). Both hold whatever the worker does between the steps of the owner.
-/

namespace DomainColoring

open History

variable {α : Type} [Add α] [Sub α] [Mul α] [Div α] [Neg α] [BEq α] [NatCast α] [Elementary α] [Scalar α] [LT α]
  [DecidableLT α]

/-- A frame is the picture of the drawing of the last request that has returned, and nothing has superseded that request. -/
def Newest (history : List (Occurrence α)) (frame : Frame α) : Prop :=
  ∃ earlier drawing later, history = earlier ++ .requested drawing :: .numbered frame.generation :: later ∧
    (∀ o ∈ later, o.supersedes = false) ∧ frame.plot = drawing.plot ∧ drawing.render = .ok frame.picture

/-- A frame remains the newest until another request or a cancellation. -/
theorem Newest.append {history : List (Occurrence α)} {frame : Frame α} (h : Newest history frame) {o : Occurrence α}
    (quiet : o.supersedes = false) : Newest (history ++ [o]) frame := by
  obtain ⟨earlier, drawing, later, rfl, hl, h⟩ := h
  refine ⟨earlier, drawing, later ++ [o], by simp, ?_, h⟩
  intro o' ho
  rcases List.mem_append.1 ho with ho | ho
  · exact hl o' ho
  · rw [List.mem_singleton.1 ho]
    exact quiet

/-- Every frame was the newest when it was installed. -/
def Justified (history : List (Occurrence α)) : Prop :=
  ∀ before frame after, history = before ++ .installed frame :: after → Newest before frame

/-- Every frame was the newest if those before were and the last one is. -/
theorem Justified.snoc {history : List (Occurrence α)} {o : Occurrence α} (h : Justified history)
    (ho : ∀ frame, o = .installed frame → Newest history frame) : Justified (history ++ [o]) := by
  intro before frame after he
  rcases split_snoc he with ⟨rfl, rfl⟩ | ⟨after', he⟩
  · exact ho frame rfl
  · exact h before frame after' he

namespace System

/-- What has become of the responses that the owner has taken. -/
structure Settlement (s : System α) : Prop where
  justified : Justified s.history
  /-- Each frame comes from a response of its own, in the same order. -/
  sublist : ((frames s.history).map (·.generation)).Sublist ((responses s.history).map (·.generation))
  current : s.renderer.current = (frames s.history).getLast?
  answers : ∀ response, .consumed response ∈ s.history → Answers s.history response
  /-- The response of the latest generation is shown, or its error was returned. -/
  settled : ∀ response, .consumed response ∈ s.history → response.generation = s.renderer.latest →
    (∃ frame, s.renderer.current = some frame ∧ frame.generation = s.renderer.latest) ∨
      ∃ error, response.result = .error error ∧ [.consumed response, .failed error] <:+: s.history

/-- What is settled stays so when more occurs. -/
theorem Settlement.settled_append {s : System α} (t : s.Settlement) {response : Response α} {more : List (Occurrence α)}
    (hm : .consumed response ∈ s.history) (hg : response.generation = s.renderer.latest) :
    (∃ frame, s.renderer.current = some frame ∧ frame.generation = s.renderer.latest) ∨
      ∃ error, response.result = .error error ∧ [.consumed response, .failed error] <:+: s.history ++ more := by
  refine (t.settled response hm hg).imp_right ?_
  rintro ⟨error, he, hi⟩
  exact ⟨error, he, hi.trans (List.prefix_append _ _).isInfix⟩

/-- What occurs without a response or a frame settles nothing new. -/
theorem Settlement.of_quiet {s s' : System α} (t : s.Settlement) (o : Occurrence α) (history : s'.history = s.history ++ [o])
    (response : o.response? = none) (frame : o.frame? = none) (current : s'.renderer.current = s.renderer.current)
    (latest : ∀ response, .consumed response ∈ s.history → response.generation = s'.renderer.latest →
      s'.renderer.latest = s.renderer.latest) : s'.Settlement where
  justified := by
    rw [history]
    refine t.justified.snoc ?_
    intro frame' ho
    rw [ho] at frame
    cases frame
  sublist := by
    have hf : frames s'.history = frames s.history := by
      rw [history, frames_append, frames_cons, frame]
      simp
    have hr : responses s'.history = responses s.history := by
      rw [history, responses_append, responses_cons, response]
      simp
    rw [hf, hr]
    exact t.sublist
  current := by
    rw [current, history, frames_append, frames_cons, frame, t.current]
    simp
  answers := by
    intro response' hm
    rw [history] at hm ⊢
    exact (t.answers response' (mem_of_mem_snoc response hm)).append _
  settled := by
    intro response' hm hg
    rw [history] at hm ⊢
    have hm' := mem_of_mem_snoc response hm
    rw [current]
    have hl := latest response' hm' hg
    rw [hl] at hg ⊢
    exact t.settled_append hm' hg

/-- What the owner shows and awaits is settled whatever else the renderer does. -/
theorem Settlement.of_renderer {s : System α} (t : s.Settlement) {r : Renderer α} {owner : Owner α}
    (current : r.current = s.renderer.current) (latest : r.latest = s.renderer.latest) :
    (⟨r, owner, s.history⟩ : System α).Settlement where
  justified := t.justified
  sublist := t.sublist
  current := current.trans t.current
  answers := t.answers
  settled := by
    rw [current, latest]
    exact t.settled

/-- No response has been taken of a generation that is still to come. -/
theorem Sound.generation_ne_of_consumed {s : System α} (h : s.Sound) {response : Response α}
    (hm : .consumed response ∈ s.history) : response.generation ≠ s.renderer.latest + 1 := by
  have hf : response.generation ∈ s.flow := by
    simp only [flow, List.mem_append, List.mem_map]
    exact .inl ⟨response, mem_responses.2 hm, rfl⟩
  have hle := h.order.bounded response.generation hf
  omega

/-- When the owner takes a response, all that it has taken answers requests. -/
theorem Settlement.answers_taken {s : System α} (t : s.Settlement) (h : s.Sound) {response : Response α}
    {rest : List (Response α)} (first : s.renderer.responses = response :: rest) (more : List (Occurrence α))
    (none : responses more = []) (response' : Response α) (hm : .consumed response' ∈ s.history ++ .consumed response :: more) :
    Answers (s.history ++ .consumed response :: more) response' := by
  rw [← mem_responses] at hm
  simp only [responses_append, responses_cons, none, Occurrence.response?, Option.toList_some, List.append_nil,
    List.mem_append, List.mem_singleton, mem_responses] at hm
  rcases hm with hm | rfl
  · exact (t.answers response' hm).append _
  · exact (h.contents.responses response' (by rw [first]; exact List.mem_cons_self)).append _

/-- A frame for a response of the latest generation is the newest: nothing has superseded the request that returned it. -/
theorem Sound.newest_of_first {s : System α} (h : s.Sound) {response : Response α} {rest : List (Response α)}
    (first : s.renderer.responses = response :: rest) (latest : response.generation = s.renderer.latest) {frame : Frame α}
    (rendered : response.result = .ok frame.picture)
    (shows : frame.generation = response.generation ∧ frame.plot = response.plot) : Newest s.history frame := by
  obtain ⟨hg, hp⟩ := shows
  obtain ⟨drawing, hi, hplot, hr⟩ := h.contents.responses response (by rw [first]; exact List.mem_cons_self)
  obtain ⟨earlier, later, he, hl⟩ := hi.newest (latest.trans h.numbering.latest)
  exact ⟨earlier, drawing, later, hg ▸ he, hl, hp.trans hplot, hr.symm.trans rendered⟩

/-- Each step settles what it takes. -/
theorem Settlement.step {s s' : System α} (t : s.Settlement) (h : s.Sound) (hs : s.Step s') : s'.Settlement := by
  have taken (response : Response α) : Justified (s.history ++ [.consumed response]) := t.justified.snoc (by rintro _ ⟨⟩)
  cases hs with
  | request drawing free =>
    exact t.of_quiet _ rfl rfl rfl rfl fun response hm hg => absurd hg (h.generation_ne_of_consumed hm)
  | send drawing requesting => exact t.of_quiet _ rfl rfl rfl rfl fun _ _ _ => rfl
  | cancel free =>
    exact t.of_quiet _ rfl rfl rfl rfl fun response hm hg => absurd hg (h.generation_ne_of_consumed hm)
  | poll free => exact t.of_renderer rfl rfl
  | wait generation free => exact t.of_renderer rfl rfl
  | drop onward response rest taking first stale =>
    refine ⟨taken response, ?_, ?_, t.answers_taken h first [] rfl, ?_⟩
    · simpa using t.sublist.trans (List.sublist_append_left _ _)
    · simpa using t.current
    · intro response' hm hg
      rcases List.mem_append.1 hm with hm | hm
      · exact t.settled_append hm hg
      · simp only [List.mem_singleton, Occurrence.consumed.injEq] at hm
        exact absurd hg (hm ▸ stale)
  | fail onward response rest error taking first latest failed =>
    have hj : Justified (s.history ++ [.consumed response, .failed error]) := by
      rw [List.append_cons]
      exact (taken response).snoc (by rintro _ ⟨⟩)
    refine ⟨hj, ?_, ?_, t.answers_taken h first _ rfl, ?_⟩
    · simpa using t.sublist.trans (List.sublist_append_left _ _)
    · simpa using t.current
    · intro response' hm hg
      rcases List.mem_append.1 hm with hm | hm
      · exact t.settled_append hm hg
      · simp only [List.mem_cons, Occurrence.consumed.injEq, reduceCtorEq, List.not_mem_nil, or_false] at hm
        exact .inr ⟨error, hm ▸ failed, hm ▸ (List.suffix_append _ _).isInfix⟩
  | install onward response rest frame taking first latest rendered shows =>
    have hj : Justified (s.history ++ [.consumed response, .installed frame]) := by
      rw [List.append_cons]
      refine (taken response).snoc ?_
      rintro frame' ⟨⟩
      exact (h.newest_of_first first latest rendered shows).append rfl
    refine ⟨hj, ?_, ?_, t.answers_taken h first _ rfl, ?_⟩
    · simpa [shows.1] using t.sublist.append_right [response.generation]
    · simp [Renderer.notify]
    · exact fun _ _ _ => .inl ⟨frame, rfl, shows.1.trans latest⟩
  | polled installed polling empty => exact t.of_quiet _ rfl rfl rfl rfl fun _ _ _ => rfl
  | waited generation waiting => exact t.of_quiet _ rfl rfl rfl rfl fun _ _ _ => rfl
  | work r possible => exact t.of_renderer possible.frame.2.1 possible.frame.1
  | listeners change => exact t.of_renderer rfl rfl

/-- What has become of the responses is known after any moves. -/
theorem settlement_after (ms : List (Move α)) : (after ms).Settlement := by
  have start : (initial : System α).Settlement := by
    refine ⟨?_, List.Sublist.refl _, rfl, nofun, nofun⟩
    intro before frame after he
    cases before <;> cases he
  exact (after_induction (P := fun s => s.Sound ∧ s.Settlement) ⟨sound_initial, start⟩
    (fun _ _ h hs => ⟨h.1.step hs, h.2.step h.1 hs⟩) ms).2

/-- A frame is installed only while the request for it is the last thing asked for: since that request was called there has been
neither another request nor a cancellation, the generation of the frame is the one that the request returned, its plot is the
plot of the request, and its picture is that of the uninterrupted render at the size and in the shading of the request. The
generations of the installed frames ascend, and the frame that is shown is always the last one installed. -/
theorem only_latest_installed (ms : List (Move α)) :
    (∀ before frame later', (after ms).history = before ++ .installed frame :: later' →
      ∃ earlier drawing later, before = earlier ++ .requested drawing :: .numbered frame.generation :: later ∧
        (∀ o ∈ later, o.supersedes = false) ∧ frame.plot = drawing.plot ∧ drawing.render = .ok frame.picture) ∧
      ((frames (after ms).history).map (·.generation)).Pairwise (· < ·) ∧
      (after ms).renderer.current = (frames (after ms).history).getLast? := by
  have t := settlement_after ms
  have sorted := (sound_after ms).order.sorted
  exact ⟨t.justified, (List.pairwise_append.1 sorted).1.sublist t.sublist, t.current⟩

/-- Two requests, of which the second comes while the first is being rendered, and a wait for the second. -/
def twoRequests : List (Move Float) :=
  [.request ⟨.standard, ⟨1, 1⟩, ⟨0.5⟩⟩, .send, .work .receive, .work .choose, .work .note, .work .begin,
    .request ⟨.standard, ⟨1, 2⟩, ⟨0.5⟩⟩, .work (.row (.start 0 0)), .send, .work (.conclude 0), .work .respond,
    .work .receive, .work .choose, .work .note, .work .begin, .wait 2, .work (.row (.start 1 0)),
    .work (.row (.start 0 1)), .work (.row (.finish 0 1)), .work (.row (.finish 1 0)), .work (.conclude 0),
    .work .respond, .take, .finish]

theorem second_request_installed :
    ∃ before frame later', (after twoRequests).history = before ++ .installed frame :: later' ∧
      frame.generation = 2 ∧
      ∃ earlier drawing later, before = earlier ++ .requested drawing :: .numbered frame.generation :: later ∧
        (∀ o ∈ later, o.supersedes = false) ∧ frame.plot = drawing.plot ∧ drawing.render = .ok frame.picture := by
  obtain ⟨before, frame, later', h, hg⟩ :
      ∃ before frame later', (after twoRequests).history = before ++ .installed frame :: later' ∧ frame.generation = 2 :=
    ⟨[_, _, _, _, _], _, [_], rfl, rfl⟩
  exact ⟨before, frame, later', h, hg, (only_latest_installed twoRequests).1 before frame later' h⟩

/-! ## The latest request is not lost -/

/-- What the latest request asked for is still on its way as long as its response has not been taken. -/
theorem latest_mem_pipeline {s : System α} (h : s.Sound) (created : .numbered s.renderer.latest ∈ s.history)
    (unanswered : ∀ response, .consumed response ∈ s.history → response.generation ≠ s.renderer.latest) :
    s.renderer.latest ∈ s.renderer.pipeline := by
  have hf := h.order.kept created
  rcases List.mem_append.1 hf with hm | hm
  · obtain ⟨response, hr, hg⟩ := List.mem_map.1 hm
    exact absurd hg (unanswered response (mem_responses.1 hr))
  · exact hm

/-- The worker drops its job only for one that waits. -/
theorem Renderer.requests_ne_nil_of_replace {r r' : Renderer α} (h : r.workerStep? .replace = some r') :
    r.requests ≠ [] := by
  intro empty
  cases hw : r.worker <;> simp [Renderer.workerStep?, hw, empty] at h

/-- A job that the worker holds while another waits is not the latest. -/
theorem lt_latest_of_waiting {s : System α} (h : s.Sound) {job : Job α} (held : s.renderer.worker.job? = some job)
    (waiting : s.renderer.requests ≠ []) : job.generation < s.renderer.latest := by
  obtain ⟨next, hm⟩ := List.exists_mem_of_ne_nil _ waiting
  exact Nat.lt_of_lt_of_le (h.order.held_lt held hm) (h.order.waiting_le hm)

/-- The latest generation is the greatest on its way, so a request that has it is the last that waits. -/
theorem getLast?_of_latest {s : System α} (h : s.Sound) {job : Job α} (hm : job ∈ s.renderer.requests)
    (latest : job.generation = s.renderer.latest) : s.renderer.requests.getLast? = some job := by
  obtain ⟨before, later, he⟩ := List.append_of_mem hm
  cases later with
  | nil => rw [he, List.getLast?_concat]
  | cons next later =>
    have hs := h.order.requests_sorted
    rw [he, List.map_append, List.map_cons, List.map_cons] at hs
    have hlt := (List.pairwise_cons.1 (List.pairwise_append.1 hs).2.1).1 next.generation List.mem_cons_self
    have hle : next.generation ≤ s.renderer.latest := h.order.waiting_le (by simp [he])
    omega

/-- A render of the latest request is not cancelled: what its worker has noted is the generation of the handle. -/
theorem noted_of_latest {s : System α} (h : s.Sound) {job : Job α} (held : s.renderer.worker.job? = some job)
    (latest : job.generation = s.renderer.latest) :
    (∀ generation, s.renderer.worker.noted? = some generation → generation = s.renderer.handle.generation) ∧
      (∀ job run, s.renderer.worker = .rendering job run → run.outcome s.renderer.handle ≠ .error .cancelled) ∧
      ∀ job result elapsed, s.renderer.worker = .ended job result elapsed → result ≠ .error .cancelled := by
  have hs := h.contents.worker
  have hh := h.numbering.handle
  cases hw : s.renderer.worker with
  | noted job' generation =>
    rw [hw] at hs held
    cases held
    obtain ⟨h1, h2⟩ := hs
    refine ⟨?_, by rintro _ _ ⟨⟩, by rintro _ _ _ ⟨⟩⟩
    rintro generation' ⟨⟩
    omega
  | rendering job' run =>
    rw [hw] at hs held
    cases held
    obtain ⟨h1, -, hr⟩ := hs
    have hg : run.generation = s.renderer.handle.generation := by
      have := hr.noted_le
      omega
    refine ⟨?_, ?_, by rintro _ _ _ ⟨⟩⟩
    · rintro generation' ⟨⟩
      exact hg
    · rintro job' run' ⟨⟩
      rw [Run.outcome, if_pos hg.symm]
      rintro ⟨⟩
  | ended job' result elapsed =>
    rw [hw] at hs held
    cases held
    refine ⟨by rintro _ ⟨⟩, by rintro _ _ ⟨⟩, ?_⟩
    rintro job' result' elapsed' ⟨⟩ rfl
    have := hs.lt_of_cancelled
    omega
  | _ => exact ⟨by rintro _ ⟨⟩, by rintro _ _ ⟨⟩, by rintro _ _ _ ⟨⟩⟩

/-- The latest request waits behind all others, or is held by a worker that will not cancel it, or has been answered. -/
theorem latest_placed {s : System α} (h : s.Sound) {drawing : Drawing α}
    (issued : Issued s.history s.renderer.latest drawing) (hm : s.renderer.latest ∈ s.renderer.pipeline) :
    s.renderer.requests.getLast? = some ⟨s.renderer.latest, drawing⟩ ∨
      (s.renderer.worker.job? = some ⟨s.renderer.latest, drawing⟩ ∧
        (∀ generation, s.renderer.worker.noted? = some generation → generation = s.renderer.handle.generation) ∧
        (∀ job run, s.renderer.worker = .rendering job run → run.outcome s.renderer.handle ≠ .error .cancelled) ∧
        ∀ job result elapsed, s.renderer.worker = .ended job result elapsed → result ≠ .error .cancelled) ∨
      ∃ response ∈ s.renderer.responses, response.generation = s.renderer.latest ∧ response.plot = drawing.plot ∧
        response.result = drawing.render := by
  rw [Renderer.pipeline, List.mem_append, List.mem_append] at hm
  rcases hm with hm | hm | hm
  · obtain ⟨response, hr, hg⟩ := List.mem_map.1 hm
    obtain ⟨drawing', hi, hp, hres⟩ := h.contents.responses response hr
    obtain rfl := (hg ▸ hi).unique issued
    exact .inr (.inr ⟨response, hr, hg, hp, hres⟩)
  · obtain ⟨job, held, hg⟩ := List.mem_map.1 hm
    rw [Option.mem_toList] at held
    obtain rfl := (hg ▸ h.contents.held job held).unique issued
    exact .inr (.inl ⟨hg ▸ held, noted_of_latest h held hg⟩)
  · obtain ⟨job, hj, hg⟩ := List.mem_map.1 hm
    obtain rfl := (hg ▸ h.contents.requests job hj).unique issued
    exact .inl (hg ▸ getLast?_of_latest h hj hg)

/-- With nothing left on its way the latest request is shown or has been reported as failed. -/
theorem latest_settled {s : System α} (h : s.Sound) (t : s.Settlement) {drawing : Drawing α}
    (issued : Issued s.history s.renderer.latest drawing) (created : .numbered s.renderer.latest ∈ s.history)
    (empty : s.renderer.pipeline = []) :
    (∃ frame, s.renderer.current = some frame ∧ frame.generation = s.renderer.latest) ∨
      ∃ response error, response.generation = s.renderer.latest ∧ drawing.render = .error error ∧
        [.consumed response, .failed error] <:+: s.history := by
  have hm := h.order.kept created
  rw [flow, empty, List.append_nil] at hm
  obtain ⟨response, hr, hg⟩ := List.mem_map.1 hm
  rw [mem_responses] at hr
  refine (t.settled response hr hg).imp_right ?_
  rintro ⟨error, he, hi⟩
  obtain ⟨drawing', hi', -, hres⟩ := t.answers response hr
  obtain rfl := (hg ▸ hi').unique issued
  exact ⟨response, error, hg, hres.symm.trans he, hi⟩

/-- As long as the response to the latest request has not been taken there is one place where the request is: it is the last one
that waits, or the worker holds it and will not cancel it, or its response is in the queue. The worker never drops it for another
job. When the worker is idle and both queues are empty, either its frame is shown or its error was returned. -/
theorem newest_request_kept (ms : List (Move α))
    (created : .numbered (after ms).renderer.latest ∈ (after ms).history) :
    let s := after ms
    let r := s.renderer
    ∃ drawing, Issued s.history r.latest drawing ∧
      ((∀ response, .consumed response ∈ s.history → response.generation ≠ r.latest) →
        r.pipeline.count r.latest = 1 ∧
          (r.requests.getLast? = some ⟨r.latest, drawing⟩ ∨
            (r.worker.job? = some ⟨r.latest, drawing⟩ ∧
              (∀ generation, r.worker.noted? = some generation → generation = r.handle.generation) ∧
              (∀ job run, r.worker = .rendering job run → run.outcome r.handle ≠ .error .cancelled) ∧
              ∀ job result elapsed, r.worker = .ended job result elapsed → result ≠ .error .cancelled) ∨
            ∃ response ∈ r.responses, response.generation = r.latest ∧ response.plot = drawing.plot ∧
              response.result = drawing.render)) ∧
      (∀ r', r.workerStep? .replace = some r' → ∀ old, r.worker.job? = some old → old.generation ≠ r.latest) ∧
      (r.worker = .idle → r.requests = [] → r.responses = [] →
        (∃ frame, r.current = some frame ∧ frame.generation = r.latest) ∨
          ∃ response error, response.generation = r.latest ∧ drawing.render = .error error ∧
            [.consumed response, .failed error] <:+: s.history) := by
  intro s r
  have h : s.Sound := sound_after ms
  obtain ⟨drawing, issued⟩ := h.numbering.issued _ created
  refine ⟨drawing, issued, ?_, ?_, ?_⟩
  · intro unanswered
    have hm := latest_mem_pipeline h created unanswered
    have hn : r.pipeline.Nodup := h.order.pipeline_sorted.imp Nat.ne_of_lt
    exact ⟨hn.count.trans (if_pos hm), latest_placed h issued hm⟩
  · intro r' hr' old held
    exact Nat.ne_of_lt (lt_latest_of_waiting h held (Renderer.requests_ne_nil_of_replace hr'))
  · intro idle requests responses
    exact latest_settled h (settlement_after ms) issued created (Renderer.pipeline_of_idle idle requests responses)

/-- While the first of the two requests is being rendered the second waits. -/
theorem second_request_waiting :
    let r := (after (twoRequests.take 9)).renderer
    r.pipeline.count r.latest = 1 ∧
      (r.requests.getLast? = some ⟨r.latest, ⟨.standard, ⟨1, 2⟩, ⟨0.5⟩⟩⟩ ∨
        (r.worker.job? = some ⟨r.latest, ⟨.standard, ⟨1, 2⟩, ⟨0.5⟩⟩⟩ ∧
          (∀ generation, r.worker.noted? = some generation → generation = r.handle.generation) ∧
          (∀ job run, r.worker = .rendering job run → run.outcome r.handle ≠ .error .cancelled) ∧
          ∀ job result elapsed, r.worker = .ended job result elapsed → result ≠ .error .cancelled) ∨
        ∃ response ∈ r.responses, response.generation = r.latest ∧ response.plot = Plot.standard ∧
          response.result = (⟨.standard, ⟨1, 2⟩, ⟨0.5⟩⟩ : Drawing Float).render) := by
  have created : .numbered (after (twoRequests.take 9)).renderer.latest ∈ (after (twoRequests.take 9)).history :=
    List.mem_of_getElem? (show _[3]? = some _ from rfl)
  obtain ⟨drawing, issued, waiting, -, -⟩ := newest_request_kept (twoRequests.take 9) created
  have second : Issued (after (twoRequests.take 9)).history 2 ⟨.standard, ⟨1, 2⟩, ⟨0.5⟩⟩ :=
    ⟨[_, _], [], rfl, rfl⟩
  obtain rfl := issued.unique second
  refine waiting ?_
  intro response taken
  exact nomatch taken

end System

end DomainColoring
