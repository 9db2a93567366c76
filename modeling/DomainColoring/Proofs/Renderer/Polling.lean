import DomainColoring.Proofs.Renderer.Announced

/-!
# What a poll returns and what it does

The worker sends its responses in the order of generations, so of those in the queue only the last can be of the latest generation
(`System.Order.queue`). A poll drops the others, and what it returns is the end of the last one (`Renderer.PollsExactly`). A worker
that goes on while the owner polls makes no difference: such a poll is the poll of a renderer whose worker has come as far before
(`System.Polls.eq_poll`).
-/

namespace DomainColoring

open History

variable {α : Type}

namespace Renderer

/-! ## The owner's side and the worker's -/

/-- The owner's side of one renderer with the worker's side of another. -/
def join (owner worker : Renderer α) : Renderer α :=
  { worker with latest := owner.latest, current := owner.current, notifier := owner.notifier }

/-- A delivery is about the owner's side alone. -/
theorem deliver_join (owner worker : Renderer α) (response : Response α) :
    (owner.join worker).deliver response = ((owner.deliver response).1, (owner.deliver response).2.join worker) := by
  have latest : (owner.join worker).latest = owner.latest := rfl
  unfold deliver
  by_cases stale : response.generation ≠ owner.latest
  · simp only [latest, if_pos stale]
  · simp only [latest, if_neg stale]
    cases response.result with
    | error error => rfl
    | ok picture => rfl

/-- What the delivery of a response can do. -/
inductive Delivery (r : Renderer α) (response : Response α) : Except RenderError (Option Nat) × Renderer α → Prop
  | drop (stale : response.generation ≠ r.latest) : Delivery r response (.ok none, r)
  | fail (error : RenderError) (latest : response.generation = r.latest) (failed : response.result = .error error) :
      Delivery r response (.error error, r)
  | install (picture : Picture) (latest : response.generation = r.latest) (rendered : response.result = .ok picture) :
      Delivery r response (.ok (some response.generation),
        { r with current := some ⟨response.generation, response.plot, picture, response.elapsed⟩ }.notify
          (.imageReady response.generation))

/-- Every delivery is one of those. -/
theorem delivery (r : Renderer α) (response : Response α) : r.Delivery response (r.deliver response) := by
  unfold deliver
  by_cases stale : response.generation ≠ r.latest
  · rw [if_pos stale]
    exact .drop stale
  · rw [if_neg stale]
    have latest := Decidable.of_not_not stale
    cases result : response.result with
    | error error => exact .fail error latest result
    | ok picture => exact .install picture latest result

/-- The delivery of a response leaves the worker's side as it is. -/
theorem join_of_deliver {r r' : Renderer α} {response : Response α} {result : Except RenderError (Option Nat)}
    (h : r.deliver response = (result, r')) : r'.join r = r' := by
  have side := r.deliver_join r response
  rw [h] at side
  exact (congrArg Prod.snd (h.symm.trans side)).symm

end Renderer

/-! ## What the worker has sent -/

namespace System

/-- The responses that the worker has sent, the earliest first: those that the owner has taken, and those in the queue. -/
def sent (s : System α) : List (Response α) :=
  responses s.history ++ s.renderer.responses

/-- What taking the first response of the queue does, by what its delivery does. -/
theorem consume_of_first {s : System α} {response : Response α} {rest : List (Response α)}
    (first : s.renderer.responses = response :: rest) (onward : Option Nat → Owner α) :
    s.consume response rest onward =
      match s.renderer.deliver response with
      | (.error error, r) => ⟨{ r with responses := rest }, .free, s.history ++ [.consumed response, .failed error]⟩
      | (.ok none, r) => ⟨{ r with responses := rest }, onward none, s.history ++ [.consumed response]⟩
      | (.ok (some generation), r) =>
        ⟨{ r with responses := rest }, onward (some generation),
          s.history ++ .consumed response :: r.current.toList.map .installed⟩ := by
  have same : { s.renderer with responses := response :: rest } = s.renderer := by rw [← first]
  have h := consume_eq s.renderer s.history s.owner response rest onward
  rwa [same] at h

/-- The frames that a poll has installed, by the generation that it will return. -/
def Installs (installed : Option Nat) (r : Renderer α) (new : List (Frame α)) : Prop :=
  (installed = none ∧ new = []) ∨
    ∃ frame, installed = some frame.generation ∧ new = [frame] ∧ r.current = some frame ∧ frame.generation = r.latest

/-- Before the latest generation is installed the poll has installed nothing. -/
theorem Installs.not_yet {installed : Option Nat} {r : Renderer α} {new : List (Frame α)} (h : Installs installed r new)
    (older : ∀ frame ∈ r.current, frame.generation < r.latest) : installed = none ∧ new = [] := by
  rcases h with none | ⟨frame, -, -, shown, latest⟩
  · exact none
  · exact absurd latest (Nat.ne_of_lt (older frame shown))

/-- No generation is answered twice, and a later one is never answered first. -/
theorem Order.sent_sorted {s : System α} (o : s.Order) : (s.sent.map (·.generation)).Pairwise (· < ·) := by
  rw [sent, List.map_append]
  exact o.sorted.sublist ((List.sublist_append_left _ _).append_left _)

/-- In the queue there are responses of earlier generations, and behind them one of the latest at most. -/
theorem Order.queue {s : System α} (o : s.Order) :
    ∃ (stale : List (Response α)) (fresh : Option (Response α)), s.renderer.responses = stale ++ fresh.toList ∧
      (∀ response ∈ stale, response.generation < s.renderer.latest) ∧
      ∀ response ∈ fresh, response.generation = s.renderer.latest := by
  have bounded : ∀ response ∈ s.renderer.responses, response.generation ≤ s.renderer.latest := fun response member =>
    o.bounded _ (List.mem_append_right _ (List.mem_append_left _ (List.mem_map_of_mem member)))
  have sorted := (List.pairwise_append.1 o.pipeline_sorted).1
  rcases List.eq_nil_or_concat s.renderer.responses with empty | ⟨earlier, last, some⟩
  · exact ⟨[], .none, empty, nofun, nofun⟩
  · rw [List.concat_eq_append] at some
    rw [some] at bounded sorted ⊢
    have before : ∀ response ∈ earlier, response.generation < last.generation := by
      rw [List.map_append, List.pairwise_append] at sorted
      exact fun response member => sorted.2.2 _ (List.mem_map_of_mem member) _ List.mem_cons_self
    have bound := bounded last (List.mem_append_right _ List.mem_cons_self)
    by_cases latest : last.generation = s.renderer.latest
    · refine ⟨earlier, .some last, rfl, fun response member => latest ▸ before response member, ?_⟩
      rintro _ ⟨⟩
      exact latest
    · refine ⟨earlier ++ [last], .none, (List.append_nil _).symm, ?_, nofun⟩
      intro response member
      rcases List.mem_append.1 member with member | member
      · exact Nat.lt_of_lt_of_le (before response member) bound
      · rw [List.mem_singleton.1 member]
        exact Nat.lt_of_le_of_ne bound latest

end System

/-! ## The poll of a renderer -/

namespace Renderer

/-- Responses of other generations than the latest are dropped, whatever they say. -/
theorem deliverAll_stale {r : Renderer α} {stale : List (Response α)}
    (old : ∀ response ∈ stale, response.generation ≠ r.latest) (installed : Option Nat) (rest : List (Response α)) :
    r.deliverAll installed (stale ++ rest) = r.deliverAll installed rest := by
  induction stale with
  | nil => rfl
  | cons response stale ih =>
    obtain ⟨first, others⟩ := List.forall_mem_cons.1 old
    have dropped : r.deliver response = (.ok none, r) := if_pos first
    rw [List.cons_append, deliverAll, dropped]
    exact ih others

/-- What is in the queue has no part in it. -/
theorem deliverAll_responses (r : Renderer α) (queue : List (Response α)) (installed : Option Nat)
    (responses : List (Response α)) :
    { r with responses := queue }.deliverAll installed responses = r.deliverAll installed responses := by
  induction responses generalizing r installed with
  | nil => rfl
  | cons response rest ih =>
    rw [deliverAll, deliverAll, r.deliver_responses queue response]
    rcases r.deliver response with ⟨_ | _ | generation, r'⟩
    · rfl
    · exact ih r' installed
    · exact ih r' (some generation)

/-- The ends that a poll can have: nothing is installed, and an error is that of the latest generation, or its frame is installed. -/
inductive PollEnd (r : Renderer α) : Except RenderError (Option Nat) × Renderer α → Prop
  | quiet (result : Except RenderError (Option Nat)) (none : ∀ generation, result ≠ .ok (some generation))
      (failed : ∀ error, result = .error error →
        ∃ response ∈ r.responses, response.generation = r.latest ∧ response.result = .error error) :
      PollEnd r (result, { r with responses := [] })
  | installed (response : Response α) (picture : Picture) (arrived : response ∈ r.responses)
      (latest : response.generation = r.latest) (rendered : response.result = .ok picture)
      (older : ∀ frame ∈ r.current, frame.generation < response.generation) :
      PollEnd r (.ok (some response.generation),
        { r with
          responses := []
          current := some ⟨response.generation, response.plot, picture, response.elapsed⟩ }.notify
            (.imageReady response.generation))

/-- What a poll returns is what it has done. -/
structure PollsExactly (r : Renderer α) : Prop where
  /-- A generation is returned exactly if its frame has replaced what was shown. -/
  installs : ∀ generation, r.poll.1 = .ok (some generation) ↔
    ∃ frame, r.poll.2.current = some frame ∧ frame.generation = generation ∧ r.current ≠ some frame
  /-- It is the latest then, the frame comes from its response, and listeners are told of it once. -/
  latest : ∀ generation, r.poll.1 = .ok (some generation) → generation = r.latest ∧
    r.poll.2.notifier = (r.notifier.notify (.imageReady generation)).1 ∧
    ∃ response ∈ r.responses, ∃ picture, response.generation = generation ∧ response.result = .ok picture ∧
      r.poll.2.current = some ⟨generation, response.plot, picture, response.elapsed⟩
  /-- Otherwise the same is shown as before, and listeners are told of nothing. -/
  silent : (∀ generation, r.poll.1 ≠ .ok (some generation)) →
    r.poll.2.current = r.current ∧ r.poll.2.notifier = r.notifier
  /-- An error is that of the latest generation. -/
  failed : ∀ error, r.poll.1 = .error error →
    ∃ response ∈ r.responses, response.generation = r.latest ∧ response.result = .error error
  /-- Responses of other generations might as well not have arrived. -/
  stale : r.poll = { r with responses := r.responses.filter (·.generation = r.latest) }.poll
  /-- Every response that had arrived has been taken. -/
  drained : r.poll.2.responses = []

end Renderer

namespace System

variable {s : System α}

/-- Of the responses in the queue one at most is of the latest generation, and a poll is about that one alone. -/
theorem Order.poll_eq (o : s.Order) :
    ∃ fresh : Option (Response α), s.renderer.responses.filter (·.generation = s.renderer.latest) = fresh.toList ∧
      s.renderer.poll = s.renderer.deliverAll none fresh.toList := by
  obtain ⟨stale, fresh, queue, old, latest⟩ := o.queue
  have other : ∀ response ∈ stale, response.generation ≠ s.renderer.latest := fun response member =>
    Nat.ne_of_lt (old response member)
  have dropped : stale.filter (·.generation = s.renderer.latest) = [] :=
    List.filter_eq_nil_iff.2 fun response member => by simpa using other response member
  have stays : fresh.toList.filter (·.generation = s.renderer.latest) = fresh.toList :=
    List.filter_eq_self.2 fun response member => decide_eq_true (latest response (Option.mem_toList.1 member))
  refine ⟨fresh, ?_, ?_⟩
  · rw [queue, List.filter_append, dropped, stays, List.nil_append]
  · rw [Renderer.poll, queue, Renderer.deliverAll_stale other]

/-- A poll that finds nothing of the latest generation only empties the queue. -/
theorem Order.poll_stale (o : s.Order) :
    s.renderer.poll = { s.renderer with
      responses := s.renderer.responses.filter (·.generation = s.renderer.latest) }.poll := by
  obtain ⟨fresh, kept, poll⟩ := o.poll_eq
  rw [poll, kept]
  exact (s.renderer.deliverAll_responses fresh.toList none fresh.toList).symm

end System

variable [Add α] [Sub α] [Mul α] [Div α] [Neg α] [BEq α] [NatCast α] [Elementary α] [Scalar α] [LT α] [DecidableLT α]

namespace System

variable {s : System α}

/-- Every poll ends in one of these ways. -/
theorem Sound.pollEnd (h : s.Sound) (t : s.Settlement) : s.renderer.PollEnd s.renderer.poll := by
  obtain ⟨fresh, kept, poll⟩ := h.order.poll_eq
  rw [poll]
  cases fresh with
  | none => exact .quiet _ (by rintro _ ⟨⟩) (by rintro _ ⟨⟩)
  | some response =>
    have member : response ∈ s.renderer.responses.filter (·.generation = s.renderer.latest) := by
      rw [kept]
      exact List.mem_cons_self
    obtain ⟨arrived, newest⟩ := List.mem_filter.1 member
    have delivery := s.renderer.delivery response
    rw [Option.toList_some, Renderer.deliverAll]
    generalize s.renderer.deliver response = delivered at delivery
    cases delivery with
    | drop stale => exact absurd (of_decide_eq_true newest) stale
    | fail error latest failed =>
      refine .quiet _ (by rintro _ ⟨⟩) ?_
      rintro _ ⟨⟩
      exact ⟨response, arrived, latest, failed⟩
    | install picture latest rendered => exact .installed response picture arrived latest rendered ((t.ascending h).older arrived)

/-- Every poll returns what it has done. -/
theorem Sound.pollsExactly (h : s.Sound) (t : s.Settlement) : s.renderer.PollsExactly := by
  have ends := h.pollEnd t
  have stale := h.order.poll_stale
  generalize polled : s.renderer.poll = ended at ends
  cases ends with
  | quiet result none failed =>
    refine ⟨?_, ?_, ?_, ?_, stale, ?_⟩ <;> rw [polled]
    · intro generation
      exact ⟨fun some => absurd some (none generation), fun ⟨frame, shown, _, other⟩ => absurd shown other⟩
    · exact fun generation some => absurd some (none generation)
    · exact fun _ => ⟨rfl, rfl⟩
    · exact failed
  | installed response picture arrived latest rendered older =>
    refine ⟨?_, ?_, ?_, ?_, stale, ?_⟩ <;> rw [polled]
    · intro generation
      constructor
      · rintro ⟨⟩
        exact ⟨_, rfl, rfl, fun shown => Nat.lt_irrefl _ (older _ shown)⟩
      · rintro ⟨frame, ⟨⟩, rfl, -⟩
        rfl
    · rintro generation ⟨⟩
      exact ⟨latest, rfl, response, arrived, picture, rfl, rendered, rfl⟩
    · exact fun none => absurd rfl (none response.generation)
    · exact nofun
    · rfl

end System

/-- The worker goes on in the same way whatever the owner has taken, shown and told. -/
theorem Renderer.workerStep?_join (owner r : Renderer α) (taken : List (Response α)) (step : WorkerStep) :
    (owner.join { r with responses := taken ++ r.responses }).workerStep? step =
      (r.workerStep? step).map fun r' => owner.join { r' with responses := taken ++ r'.responses } := by
  obtain ⟨requests, responses, handle, worker, latest, current, notifier⟩ := r
  -- What is left are the steps that are possible only for some requests, runs or results.
  cases step <;> cases worker <;> try rfl
  case receive.idle => cases requests <;> rfl
  case replace.choosing => cases requests <;> rfl
  case choose.choosing => cases requests <;> rfl
  case begin.noted job generation =>
    simp only [workerStep?, join]
    rcases job.drawing.begin generation handle with _ | ⟨run, handle'⟩ <;> rfl
  case row.rendering row job run =>
    simp only [workerStep?, join]
    rcases run.step? handle row with _ | ⟨run', handle'⟩ <;> rfl
  case conclude.rendering elapsed job run =>
    simp only [workerStep?, join]
    cases run.isDrained <;> rfl
  case respond.ended job result elapsed =>
    simp only [workerStep?, respond, join]
    rcases result with (_ | _) | _ <;> simp

/-! ## A poll while the worker goes on -/

namespace Renderer

/-- A step of the worker leaves the owner's side as it is. -/
theorem join_of_workerStep? {q q' : Renderer α} {step : WorkerStep} (possible : q.workerStep? step = some q') (w : Renderer α) :
    q'.join w = q.join w := by
  have moved := workerMove_of_workerStep? possible
  rw [join, moved.frame.1, moved.frame.2.1, moved.notifier, join]

/-- The worker takes its next step at the side of the owner as it would alone. -/
theorem work_snoc {r q q' : Renderer α} {steps : List WorkerStep} {taken : List (Response α)} {step : WorkerStep}
    (h : r.work steps = r.join { q with responses := taken ++ q.responses }) (possible : q.workerStep? step = some q') :
    r.work (steps ++ [step]) = r.join { q' with responses := taken ++ q'.responses } := by
  have first : r.work (steps ++ [step]) = (r.work steps).workerStep step := List.foldl_append
  rw [first, h, workerStep, workerStep?_join, possible]
  rfl

/-- For the worker it makes no difference whether a response has been taken. -/
theorem work_taken {r q q' : Renderer α} {steps : List WorkerStep} {taken rest : List (Response α)} {response : Response α}
    (h : r.work steps = r.join { q with responses := taken ++ q.responses }) (first : q.responses = response :: rest)
    {result : Except RenderError (Option Nat)} (delivered : q.deliver response = (result, q')) :
    r.work steps = r.join { q' with responses := (taken ++ [response]) ++ rest } := by
  rw [h, first, List.append_assoc, List.singleton_append, ← join_of_deliver delivered]
  rfl

/-- How far the poll of a renderer has come while its worker has taken some steps. The worker is where these steps alone have taken
it, and for the owner what is left of the queue makes of the renderer what the whole queue would. -/
structure Partway (r : Renderer α) (steps : List WorkerStep) (taken : List (Response α)) (installed : Option Nat)
    (q : Renderer α) : Prop where
  worker : r.work steps = r.join { q with responses := taken ++ q.responses }
  owner : ∀ w more, (r.join w).deliverAll none (taken ++ more) = (q.join w).deliverAll installed more

namespace Partway

variable {r q q' : Renderer α} {steps : List WorkerStep} {taken rest : List (Response α)} {installed : Option Nat}
  {response : Response α}

theorem call (r : Renderer α) : r.Partway [] [] none r :=
  ⟨rfl, fun _ _ => rfl⟩

theorem work (h : r.Partway steps taken installed q) {step : WorkerStep} (possible : q.workerStep? step = some q') :
    r.Partway (steps ++ [step]) taken installed q' where
  worker := work_snoc h.worker possible
  owner := by
    intro w more
    rw [join_of_workerStep? possible]
    exact h.owner w more

theorem take (h : r.Partway steps taken installed q) (first : q.responses = response :: rest) {generation : Option Nat}
    (delivered : q.deliver response = (.ok generation, q')) :
    r.Partway steps (taken ++ [response]) (generation <|> installed) { q' with responses := rest } where
  worker := (work_taken h.worker first delivered :)
  owner := by
    intro w more
    rw [List.append_assoc, List.singleton_append, h.owner, deliverAll, deliver_join, delivered]
    cases generation <;> rfl

/-- With nothing left to take the poll has come to its end. -/
theorem finish (h : r.Partway steps taken installed q) (empty : q.responses = []) :
    (r.work steps).poll = (.ok installed, q) := by
  have all : (r.work steps).responses = taken := by
    rw [h.worker, empty, List.append_nil]
    rfl
  have left := h.owner { q with responses := taken ++ q.responses } []
  rw [List.append_nil, ← h.worker] at left
  rw [poll, all, left, deliverAll]
  rw [← empty]
  rfl

/-- The failed render of the latest generation ends the poll. -/
theorem fail (h : r.Partway steps taken installed q) (first : q.responses = response :: rest) {error : RenderError}
    (delivered : q.deliver response = (.error error, q')) :
    (r.work steps).poll = (.error error, { q' with responses := rest }) := by
  have all : (r.work steps).responses = taken ++ response :: rest := by
    rw [h.worker, first]
    rfl
  have left := h.owner { q with responses := taken ++ q.responses } (response :: rest)
  rw [← h.worker, deliverAll, deliver_join, delivered] at left
  rw [poll, all, left, ← join_of_deliver delivered]
  rfl

end Partway

end Renderer

namespace System

/-- The owner is about a poll that it has called, and the worker has taken some steps since. -/
inductive Polling (s : System α) : List WorkerStep → System α → Prop
  | call {p : System α} (possible : s.move? .poll = some p) : Polling s [] p
  | work {steps : List WorkerStep} {p p' : System α} (goesOn : Polling s steps p) (step : WorkerStep)
      (possible : p.move? (.work step) = some p') : Polling s (steps ++ [step]) p'
  | take {steps : List WorkerStep} {p p' : System α} {installed : Option Nat} (goesOn : Polling s steps p)
      (possible : p.move? .take = some p') (polling : p'.owner = .polling installed) : Polling s steps p'

/-- A poll from the call to the return, with the steps that the worker takes in between. -/
def Polls (s : System α) (steps : List WorkerStep) (ended : System α) : Prop :=
  ∃ p m, s.Polling steps p ∧ p.move? m = some ended ∧ ended.owner = .free

/-- A poll is a row of moves. -/
theorem Polling.reaches {s p : System α} {steps : List WorkerStep} (h : s.Polling steps p) : s.Reaches p := by
  induction h with
  | call possible => exact .move _ possible
  | work goesOn step possible ih => exact ih.trans (.move _ possible)
  | take goesOn possible polling ih => exact ih.trans (.move _ possible)

/-- What a poll takes is the first response in the queue. -/
theorem take_of_polling {s s' : System α} {installed : Option Nat} (polling : s.owner = .polling installed)
    (possible : s.move? .take = some s') :
    ∃ response rest, s.renderer.responses = response :: rest ∧
      s' = s.consume response rest fun generation => .polling (generation <|> installed) := by
  unfold move? at possible
  rw [polling] at possible
  cases queue : s.renderer.responses with
  | nil =>
    rw [queue] at possible
    cases possible
  | cons response rest =>
    rw [queue] at possible
    cases possible
    exact ⟨response, rest, rfl, rfl⟩

/-- A poll that is under way has come as far as what it has taken. -/
theorem Polling.partway {s p : System α} {steps : List WorkerStep} (h : s.Polling steps p) (reached : initial.Reaches s) :
    ∃ taken installed new, p.owner = .polling installed ∧ s.renderer.Partway steps taken installed p.renderer ∧
      frames p.history = frames s.history ++ new ∧ Installs installed p.renderer new := by
  induction h with
  | call possible =>
    unfold move? at possible
    cases owner : s.owner with
    | free =>
      rw [owner] at possible
      cases possible
      exact ⟨[], none, [], rfl, .call _, (List.append_nil _).symm, .inl ⟨rfl, rfl⟩⟩
    | _ =>
      rw [owner] at possible
      cases possible
  | work goesOn step possible ih =>
    obtain ⟨taken, installed, new, owner, partway, history, installs⟩ := ih
    unfold move? at possible
    rw [owner] at possible
    obtain ⟨q, moved, rfl⟩ := Option.map_eq_some_iff.1 possible
    have frame := (Renderer.workerMove_of_workerStep? moved).frame
    refine ⟨taken, installed, new, rfl, partway.work moved, history, ?_⟩
    unfold Installs
    rwa [frame.1, frame.2.1]
  | @take _ p p' _ goesOn possible polling ih =>
    obtain ⟨taken, installed, new, owner, partway, history, installs⟩ := ih
    obtain ⟨response, rest, first, rfl⟩ := take_of_polling owner possible
    have past := reached.trans goesOn.reaches
    have ascending := past.settlement.ascending past.sound
    rw [first] at ascending
    have delivery := p.renderer.delivery response
    rw [consume_of_first first] at polling ⊢
    rcases delivered : p.renderer.deliver response with ⟨_ | generation, q⟩
    · rw [delivered] at polling
      cases polling
    · have later := partway.take first delivered
      rw [delivered] at delivery
      cases delivery with
      | drop stale =>
        refine ⟨taken ++ [response], installed, new, rfl, later, ?_, installs⟩
        simp [history]
      | install picture latest rendered =>
        -- A frame that the poll had installed before would be of the same generation.
        obtain ⟨rfl, rfl⟩ := installs.not_yet fun frame shown => latest ▸ ascending.fresh frame shown
        refine ⟨taken ++ [response], some response.generation, [_], rfl, later, ?_, .inr ⟨_, rfl, rfl, rfl, latest⟩⟩
        simp [history, Renderer.notify]

/-- The owner comes back from a poll or a wait by a move of its own. -/
theorem own_move_of_return {s s' : System α} {m : Move α}
    (calling : (∃ installed, s.owner = .polling installed) ∨ ∃ generation, s.owner = .waiting generation)
    (possible : s.move? m = some s') (free : s'.owner = .free) : m = .take ∨ m = .finish ∨ m = .timeOut := by
  have busy : s.owner ≠ .free := by
    rcases calling with ⟨installed, polling⟩ | ⟨generation, waiting⟩
    · rw [polling]
      rintro ⟨⟩
    · rw [waiting]
      rintro ⟨⟩
  cases m with
  | take => exact .inl rfl
  | finish => exact .inr (.inl rfl)
  | timeOut => exact .inr (.inr rfl)
  | work step =>
    unfold move? at possible
    obtain ⟨r, -, rfl⟩ := Option.map_eq_some_iff.1 possible
    exact absurd free busy
  | listeners change =>
    unfold move? at possible
    cases possible
    exact absurd free busy
  | _ =>
    unfold move? at possible
    rcases calling with ⟨installed, polling⟩ | ⟨generation, waiting⟩
    · rw [polling] at possible
      cases possible
    · rw [waiting] at possible
      cases possible

/-- A poll returns with nothing left in the queue, or when it takes a response. -/
theorem return_of_polling {s s' : System α} {installed : Option Nat} {m : Move α} (polling : s.owner = .polling installed)
    (possible : s.move? m = some s') (free : s'.owner = .free) :
    (s.renderer.responses = [] ∧ s' = ⟨s.renderer, .free, s.history ++ [.polled installed]⟩) ∨
      ∃ response rest, s.renderer.responses = response :: rest ∧
        s' = s.consume response rest fun generation => .polling (generation <|> installed) := by
  rcases own_move_of_return (.inl ⟨installed, polling⟩) possible free with rfl | rfl | rfl
  · exact .inr (take_of_polling polling possible)
  · unfold move? at possible
    rw [polling] at possible
    obtain ⟨empty, same⟩ := Option.ite_none_right_eq_some.1 possible
    cases same
    exact .inl ⟨List.isEmpty_iff.1 empty, rfl⟩
  · unfold move? at possible
    rw [polling] at possible
    cases possible

/-- Whatever the worker does between the call of a poll and its return, the poll does and returns what it would if the worker had
done that before. It installs one frame, of the generation that it returns, or none. -/
theorem Polls.eq_poll {s ended : System α} {steps : List WorkerStep} (h : s.Polls steps ended) (reached : initial.Reaches s) :
    ended.renderer = (s.renderer.work steps).poll.2 ∧
      ended.history.getLast? = some (.ofPoll (s.renderer.work steps).poll.1) ∧
      ((∃ frame, (s.renderer.work steps).poll.1 = .ok (some frame.generation) ∧ ended.renderer.current = some frame ∧
          frames ended.history = frames s.history ++ [frame]) ∨
        (∀ generation, (s.renderer.work steps).poll.1 ≠ .ok (some generation)) ∧
          frames ended.history = frames s.history) := by
  obtain ⟨p, m, goesOn, possible, free⟩ := h
  obtain ⟨taken, installed, new, owner, partway, history, installs⟩ := goesOn.partway reached
  rcases return_of_polling owner possible free with ⟨empty, rfl⟩ | ⟨response, rest, first, rfl⟩
  · have poll := partway.finish empty
    rw [poll]
    refine ⟨rfl, by simp, ?_⟩
    rcases installs with ⟨rfl, rfl⟩ | ⟨frame, rfl, rfl, shown, -⟩
    · exact .inr ⟨by rintro _ ⟨⟩, by simp [history]⟩
    · exact .inl ⟨frame, rfl, shown, by simp [history]⟩
  · have past := reached.trans goesOn.reaches
    have ascending := past.settlement.ascending past.sound
    rw [first] at ascending
    have delivery := p.renderer.delivery response
    rw [consume_of_first first] at free ⊢
    rcases delivered : p.renderer.deliver response with ⟨error | _ | generation, q⟩
    · have poll := partway.fail first delivered
      rw [delivered] at delivery
      cases delivery with
      | fail error latest failed =>
        -- A frame that the poll had installed would be of the same generation as the error.
        obtain ⟨rfl, rfl⟩ := installs.not_yet fun frame shown => latest ▸ ascending.fresh frame shown
        rw [poll]
        exact ⟨rfl, by simp, .inr ⟨by rintro _ ⟨⟩, by simp [history]⟩⟩
    all_goals
      rw [delivered] at free
      cases free

/-- The worker sends one response for a generation at most, and in the order of generations. A poll returns a generation exactly if
it has installed the frame of that generation, which is the latest then; otherwise, also with an error, it has shown nothing and
told nobody. Responses of earlier generations might as well not have arrived. All this holds of a poll whatever the worker does
between its call and its return. -/
theorem polled_exactly (ms : List (Move α)) :
    let s := after ms
    (s.sent.map (·.generation)).Pairwise (· < ·) ∧ s.renderer.PollsExactly ∧
      ∀ steps ended, s.Polls steps ended →
        let r := s.renderer.work steps
        (r.latest = s.renderer.latest ∧ r.current = s.renderer.current ∧ r.notifier = s.renderer.notifier) ∧
          r.PollsExactly ∧ ended.renderer = r.poll.2 ∧ ended.history.getLast? = some (.ofPoll r.poll.1) ∧
          ((∃ frame, r.poll.1 = .ok (some frame.generation) ∧ ended.renderer.current = some frame ∧
              frames ended.history = frames s.history ++ [frame]) ∨
            (∀ generation, r.poll.1 ≠ .ok (some generation)) ∧ frames ended.history = frames s.history) := by
  intro s
  have reached : initial.Reaches s := ⟨ms, rfl⟩
  refine ⟨reached.sound.order.sent_sorted, reached.sound.pollsExactly reached.settlement, ?_⟩
  intro steps ended polls r
  have worked := reached.trans (reaches_work s steps)
  have leaves := s.renderer.work_leaves steps
  exact ⟨⟨s.renderer.latest_work steps, leaves.1, leaves.2⟩, worked.sound.pollsExactly worked.settlement,
    polls.eq_poll reached⟩

/-- A request that the worker is about to answer. -/
def aboutToAnswer : List (Move Float) :=
  [.request ⟨.standard, ⟨1, 1⟩, ⟨0.5⟩⟩, .send, .work .receive, .work .choose, .work .note, .work .begin,
    .work (.row (.start 0 0)), .work (.row (.finish 0 0)), .work (.conclude 0)]

/-- The answer comes while the owner polls. -/
theorem answer_polled :
    ∃ ended, (after aboutToAnswer).Polls [.respond] ended ∧
      ((after aboutToAnswer).renderer.work [.respond]).poll.1 = .ok (some 1) ∧
      ∃ frame, frames ended.history = [frame] := by
  obtain ⟨ended, polls, frame, shown, first⟩ : ∃ ended, (after aboutToAnswer).Polls [.respond] ended ∧
      ∃ frame, ended.renderer.current = some frame ∧ frame.generation = 1 :=
    ⟨_, ⟨_, .finish, .take (.work (.call rfl) .respond rfl) rfl rfl, rfl, rfl⟩, _, rfl, rfl⟩
  obtain ⟨-, exactly, same, -, installed⟩ := (polled_exactly aboutToAnswer).2.2 [.respond] ended polls
  have returned := (exactly.installs 1).2 ⟨frame, same ▸ shown, first, nofun⟩
  refine ⟨ended, polls, returned, ?_⟩
  rcases installed with ⟨frame, -, -, history⟩ | ⟨none, -⟩
  · exact ⟨frame, history⟩
  · exact absurd returned (none 1)

end System

end DomainColoring
