import DomainColoring.Proofs.Notifier.Hearing
import DomainColoring.Proofs.Renderer.Outcomes

/-!
# What listeners of a renderer are told

As long as nothing is asked of a renderer it installs one frame at most: only that of the latest generation is installed, and
the responses come in the order of generations. Its listeners are told when that happens, and of nothing else
(`Renderer.Announces`). So it is with a wait, with a poll and with any row of quiet moves.
-/

namespace DomainColoring

open History Notifier

variable {α : Type}

/-- The generation of the frame that is shown afterwards, if it is not that of the frame that was shown before. -/
def newlyShown (before after : Option (Frame α)) : List Nat :=
  if after.map (·.generation) = before.map (·.generation) then [] else (after.map (·.generation)).toList

@[simp] theorem newlyShown_self (current : Option (Frame α)) : newlyShown current current = [] :=
  if_pos rfl

/-- A frame that is later than the one before is newly shown. -/
theorem newlyShown_of_older {before : Option (Frame α)} {frame : Frame α}
    (older : ∀ old ∈ before, old.generation < frame.generation) : newlyShown before (some frame) = [frame.generation] := by
  refine if_neg fun same => ?_
  obtain ⟨old, shown, generation⟩ := Option.map_eq_some_iff.1 same.symm
  exact Nat.ne_of_lt (older old shown) generation

namespace Renderer

/-- From one moment to another nothing is asked of a renderer, and its listeners are told of the latest generation if its frame is
installed in between, and of nothing else; they do just these operations themselves. -/
structure Announces (r r' : Renderer α) (tended : List (Operation (PlotEvent α))) : Prop where
  latest : r'.latest = r.latest
  installed : (r'.current = r.current ∧ r.notifier.Hears r'.notifier [] tended) ∨
    ∃ frame, r'.current = some frame ∧ frame.generation = r.latest ∧ (∀ old ∈ r.current, old.generation < r.latest) ∧
      r.notifier.Hears r'.notifier [.imageReady r.latest] tended

namespace Announces

variable {r r' r'' : Renderer α} {tended tended' : List (Operation (PlotEvent α))}

/-- Nothing is announced where neither the frame nor the latest generation has changed. -/
theorem of_silent (latest : r'.latest = r.latest) (current : r'.current = r.current)
    (hears : r.notifier.Hears r'.notifier [] tended) : r.Announces r' tended :=
  ⟨latest, .inl ⟨current, hears⟩⟩

theorem refl (r : Renderer α) : r.Announces r [] :=
  of_silent rfl rfl (.refl _)

/-- What is announced in two stretches of time is announced in both together. -/
theorem trans (h : r.Announces r' tended) (h' : r'.Announces r'' tended') : r.Announces r'' (tended ++ tended') := by
  refine ⟨h'.latest.trans h.latest, ?_⟩
  have installed' := h'.installed
  rw [h.latest] at installed'
  rcases h.installed with ⟨current, hears⟩ | ⟨frame, shown, generation, older, hears⟩
  · rw [current] at installed'
    rcases installed' with ⟨current', hears'⟩ | ⟨frame', shown', generation', older', hears'⟩
    · exact .inl ⟨current', hears.trans hears'⟩
    · exact .inr ⟨frame', shown', generation', older', hears.trans hears'⟩
  · rcases installed' with ⟨current', hears'⟩ | ⟨-, -, -, older', -⟩
    · exact .inr ⟨frame, current'.trans shown, generation, older, hears.trans hears'⟩
    · -- the latest generation is not installed twice
      exact absurd generation (Nat.ne_of_lt (older' frame shown))

end Announces

/-! ## Taking responses -/

/-- A response is dropped, or its frame is installed. -/
theorem deliver_cases (r : Renderer α) (response : Response α) :
    (r.deliver response).2 = r ∨ response.generation = r.latest ∧ ∃ frame : Frame α, frame.generation = response.generation ∧
      (r.deliver response).2 = { r with current := some frame }.notify (.imageReady response.generation) := by
  unfold deliver
  by_cases stale : response.generation ≠ r.latest
  · rw [if_pos stale]
    exact .inl rfl
  · rw [if_neg stale]
    cases response.result with
    | error error => exact .inl rfl
    | ok picture => exact .inr ⟨Decidable.of_not_not stale, _, rfl, rfl⟩

/-- A delivery announces the frame that it installs, if that is later than the one before. -/
theorem announces_deliver (r : Renderer α) (response : Response α)
    (fresh : response.generation = r.latest → ∀ frame ∈ r.current, frame.generation < response.generation) :
    r.Announces (r.deliver response).2 [] := by
  rcases r.deliver_cases response with dropped | ⟨latest, frame, generation, installed⟩
  · rw [dropped]
    exact .refl r
  · rw [installed]
    have older := fresh latest
    rw [latest] at older generation ⊢
    exact ⟨rfl, .inr ⟨frame, rfl, generation, older, .event _ _⟩⟩

/-- The frame that is shown and the given responses come in the order of generations. -/
def Ascending (r : Renderer α) (responses : List (Response α)) : Prop :=
  (r.current.toList.map (·.generation) ++ responses.map (·.generation)).Pairwise (· < ·)

namespace Ascending

variable {r : Renderer α} {response : Response α} {rest : List (Response α)}

/-- A response that is still to come is later than the frame that is shown. -/
theorem older {responses : List (Response α)} (h : r.Ascending responses) (mem : response ∈ responses) :
    ∀ frame ∈ r.current, frame.generation < response.generation := by
  intro frame shown
  have first : frame.generation ∈ r.current.toList.map (·.generation) := List.mem_map_of_mem (Option.mem_toList.2 shown)
  exact (List.pairwise_append.1 h).2.2 _ first _ (List.mem_map_of_mem mem)

/-- So is the first one. -/
theorem fresh (h : r.Ascending (response :: rest)) : ∀ frame ∈ r.current, frame.generation < response.generation :=
  h.older List.mem_cons_self

/-- After the first response has been delivered the others are still in order. -/
theorem deliver (h : r.Ascending (response :: rest)) : (r.deliver response).2.Ascending rest := by
  rcases r.deliver_cases response with dropped | ⟨-, frame, generation, installed⟩
  · rw [dropped]
    exact h.sublist ((List.sublist_cons_self _ _).append_left _)
  · rw [installed, Ascending]
    have later := (List.pairwise_append.1 h).2.1
    rw [List.map_cons, ← generation] at later
    exact later

end Ascending

/-- A poll announces what it installs. -/
theorem announces_deliverAll {r : Renderer α} {responses : List (Response α)} (ascending : r.Ascending responses)
    (installed : Option Nat) : r.Announces (r.deliverAll installed responses).2 [] := by
  induction responses generalizing r installed with
  | nil => exact .of_silent rfl rfl (.refl _)
  | cons response rest ih =>
    have first := r.announces_deliver response fun _ => ascending.fresh
    have later := ascending.deliver
    rw [deliverAll]
    rcases delivered : r.deliver response with ⟨_ | _ | generation, r'⟩ <;> rw [delivered] at first later
    · exact ⟨first.latest, first.installed⟩
    · exact first.trans (ih later installed)
    · exact first.trans (ih later (some generation))

/-- A wait takes a response only as long as its generation is awaited. -/
theorem announces_receiveUntil (r : Renderer α) (generation : Nat) (responses : List (Response α)) :
    r.Announces (r.receiveUntil generation responses).2 [] := by
  induction responses generalizing r with
  | nil => exact .of_silent rfl rfl (.refl _)
  | cons response rest ih =>
    rw [receiveUntil]
    by_cases awaits : r.Awaits generation
    · have first := r.announces_deliver response fun latest => by
        rw [latest, ← awaits.1]
        exact awaits.2
      rw [if_pos awaits]
      rcases delivered : r.deliver response with ⟨_ | _, r'⟩ <;> rw [delivered] at first
      · exact ⟨first.latest, first.installed⟩
      · exact first.trans (ih r')
    · rw [if_neg awaits]
      exact .of_silent rfl rfl (.refl _)

variable [Add α] [Sub α] [Mul α] [Div α] [Neg α] [BEq α] [NatCast α] [Elementary α] [Scalar α] [LT α] [DecidableLT α]

/-! ## The worker and waits -/

/-- The worker tells the listeners nothing. -/
theorem WorkerMove.notifier {r r' : Renderer α} (h : r.WorkerMove r') : r'.notifier = r.notifier := by
  cases h with
  | respond job result elapsed ended =>
    unfold Renderer.respond
    split <;> rfl
  | _ => rfl

/-- The worker shows nothing and tells nobody anything. -/
theorem work_leaves (r : Renderer α) (steps : List WorkerStep) :
    (r.work steps).current = r.current ∧ (r.work steps).notifier = r.notifier := by
  induction steps generalizing r with
  | nil => exact ⟨rfl, rfl⟩
  | cons step steps ih =>
    have first : (r.workerStep step).current = r.current ∧ (r.workerStep step).notifier = r.notifier := by
      unfold workerStep
      cases h : r.workerStep? step with
      | none => exact ⟨rfl, rfl⟩
      | some r' =>
        have moved := workerMove_of_workerStep? h
        exact ⟨moved.frame.2.1, moved.notifier⟩
    exact (ih (r.workerStep step)).imp (·.trans first.1) (·.trans first.2)

/-- Nothing is announced while the worker alone goes on. -/
theorem announces_work (r : Renderer α) (steps : List WorkerStep) : r.Announces (r.work steps) [] :=
  .of_silent (r.latest_work steps) (r.work_leaves steps).1 ((r.work_leaves steps).2 ▸ .refl _)

/-- A wait announces what it installs. -/
theorem announces_waitDuring (r : Renderer α) (generation : Nat) (steps : List WorkerStep) :
    r.Announces (r.waitDuring generation steps).2 [] := by
  have receives {r r' : Renderer α} {result : Except RenderError Unit}
      (received : r.receiveUntil generation r.responses = (result, r')) : r.Announces r' [] := by
    have announces := r.announces_receiveUntil generation r.responses
    rwa [received] at announces
  refine waitDuring_induction (P := fun r _ ended => r.Announces ended.2 []) ?_ ?_ ?_ r steps
  · exact fun r _ error r' received => receives received
  · exact fun r _ r' received _ => receives received
  · exact fun r step _ r' ended received _ next => (receives received).trans ((r'.announces_work [step]).trans next)

end Renderer

/-! ## Any row of quiet moves -/

/-- What a move does to the listeners alone, if that is all it does. -/
def Move.change? : Move α → Option (Notifier (PlotEvent α) → Notifier (PlotEvent α))
  | listeners change => some change
  | _ => none

/-- Quiet moves do all that is done to the listeners alone. -/
theorem Move.change?_filter_isQuiet (ms : List (Move α)) : (ms.filter Move.isQuiet).filterMap change? = ms.filterMap change? := by
  rw [List.filterMap_filter]
  congr 1
  funext m
  cases m <;> rfl

namespace System

variable [Add α] [Sub α] [Mul α] [Div α] [Neg α] [BEq α] [NatCast α] [Elementary α] [Scalar α] [LT α] [DecidableLT α]

/-- The frame that is shown comes before all responses that have not been taken. -/
theorem Settlement.ascending {s : System α} (t : s.Settlement) (h : s.Sound) : s.renderer.Ascending s.renderer.responses := by
  have last : s.renderer.current.toList.Sublist (frames s.history) := by
    rw [t.current]
    cases shown : (frames s.history).getLast? with
    | none => exact List.nil_sublist _
    | some frame => exact List.singleton_sublist.2 (List.mem_of_getLast? shown)
  have taken := (last.map (·.generation)).trans t.sublist
  exact h.order.sorted.sublist (taken.append (List.sublist_append_left _ _))

/-- Taking a response announces the frame that it installs. -/
theorem announces_consume {s : System α} (h : s.Sound) (t : s.Settlement) {response : Response α} {rest : List (Response α)}
    (first : s.renderer.responses = response :: rest) (onward : Option Nat → Owner α) :
    s.renderer.Announces (s.consume response rest onward).renderer [] := by
  have ascending := t.ascending h
  rw [first] at ascending
  have taken := { s.renderer with responses := rest }.announces_deliver response fun _ => ascending.fresh
  unfold consume
  split <;> rename_i delivered <;> rw [delivered] at taken <;> exact ⟨taken.latest, taken.installed⟩

/-- A quiet move that does not change the listeners. -/
theorem announces_move {s : System α} (h : s.Sound) (t : s.Settlement) {m : Move α} (quiet : m.isQuiet = true)
    (others : m.change? = none) : s.renderer.Announces (s.move m).renderer [] := by
  unfold move
  cases possible : s.move? m with
  | none => exact .refl _
  | some s' =>
    rw [Option.getD_some]
    unfold move? at possible
    split at possible
    · cases quiet
    · cases possible
      exact .of_silent rfl rfl (.refl _)
    · cases quiet
    · cases possible
      exact .refl _
    · cases possible
      exact .refl _
    · split at possible
      · rename_i first
        cases possible
        exact announces_consume h t first _
      · cases possible
    · split at possible
      · rename_i first
        split at possible
        · cases possible
          exact announces_consume h t first _
        · cases possible
      · cases possible
    · split at possible
      · cases possible
        exact .refl _
      · cases possible
    · split at possible
      · cases possible
      · cases possible
        exact .refl _
    · cases possible
      exact .refl _
    · obtain ⟨r, worked, rfl⟩ := Option.map_eq_some_iff.1 possible
      have moved := Renderer.workerMove_of_workerStep? worked
      exact .of_silent moved.frame.1 moved.frame.2.1 (moved.notifier ▸ .refl _)
    · cases others
    · cases possible

/-- The invariant holds after any move. -/
theorem Sound.after_move {s : System α} (h : s.Sound) (m : Move α) : (s.move m).Sound := by
  unfold move
  cases possible : s.move? m with
  | none => exact h
  | some s' => exact h.step (step_of_move? possible)

/-- What has become of the responses is known after any move. -/
theorem Settlement.after_move {s : System α} (t : s.Settlement) (h : s.Sound) (m : Move α) : (s.move m).Settlement := by
  unfold move
  cases possible : s.move? m with
  | none => exact t
  | some s' => exact t.step h (step_of_move? possible)

/-- A change of the listeners changes nothing else. -/
theorem move_listeners (s : System α) (change : Notifier (PlotEvent α) → Notifier (PlotEvent α)) :
    s.move (.listeners change) = { s with renderer := { s.renderer with notifier := change s.renderer.notifier } } := by
  obtain ⟨r, owner, history⟩ := s
  cases owner <;> rfl

/-- Quiet moves, with the operations that the listeners do themselves meanwhile. -/
theorem announces_moves {s : System α} (h : s.Sound) (t : s.Settlement) {ms : List (Move α)}
    (quiet : ∀ m ∈ ms, m.isQuiet = true) {tended : List (Operation (PlotEvent α))} (tends : ∀ o ∈ tended, o.tends = true)
    (changes : ms.filterMap Move.change? = tended.map fun o n => n.after o) : s.renderer.Announces (s.moves ms).renderer tended := by
  induction ms generalizing s tended with
  | nil =>
    obtain rfl : tended = [] := List.map_eq_nil_iff.1 changes.symm
    exact .refl _
  | cons m ms ih =>
    have quiet' : ∀ m ∈ ms, m.isQuiet = true := fun m' mem => quiet m' (List.mem_cons_of_mem _ mem)
    cases change : m.change? with
    | none =>
      rw [List.filterMap_cons_none change] at changes
      have first := announces_move h t (quiet m List.mem_cons_self) change
      exact first.trans (ih (h.after_move m) (t.after_move h m) quiet' tends changes)
    | some changed =>
      rw [List.filterMap_cons_some change] at changes
      obtain ⟨o, tended', rfl, rfl, changes'⟩ := List.map_eq_cons_iff.1 changes.symm
      obtain ⟨first, rest⟩ := List.forall_mem_cons.1 tends
      have later := ih (h.after_move m) (t.after_move h m) quiet' rest changes'.symm
      cases m with
      | listeners =>
        cases change
        have tended : s.renderer.Announces (s.move (.listeners fun n => n.after o)).renderer [o] := by
          rw [move_listeners]
          exact .of_silent rfl rfl (.tend _ first)
        exact tended.trans later
      | _ => cases change

end System

namespace Renderer.Orderly

variable [Add α] [Sub α] [Mul α] [Div α] [Neg α] [BEq α] [NatCast α] [Elementary α] [Scalar α] [LT α] [DecidableLT α]
  {r r' : Renderer α} {history more : List (Occurrence α)}

/-- The poll of an orderly owner announces what it installs. -/
theorem announces_poll (h : r.Orderly history) : r.Announces r.poll.2 [] :=
  announces_deliverAll (h.reached.settlement.ascending h.reached.sound) none

/-- Polls, waits and the steps of the worker in any order, with the operations that the listeners do themselves meanwhile. -/
theorem announces_quiet (h : r.Orderly history) {ms : List (Move α)} {owner : Owner α}
    {tended : List (Operation (PlotEvent α))} (tends : ∀ o ∈ tended, o.tends = true)
    (changes : ms.filterMap Move.change? = tended.map fun o n => n.after o)
    (ends : (⟨r, .free, []⟩ : System α).moves (ms.filter Move.isQuiet) = ⟨r', owner, more⟩) : r.Announces r' tended := by
  have since := System.moves_since ⟨r, .free, []⟩ history (ms.filter Move.isQuiet)
  rw [ends] at since
  simp only [System.since, List.append_nil] at since
  have quiet : ∀ m ∈ ms.filter Move.isQuiet, m.isQuiet = true := fun _ mem => List.of_mem_filter mem
  rw [← Move.change?_filter_isQuiet] at changes
  have announces := System.announces_moves h.reached.sound h.reached.settlement quiet tends changes
  rwa [since] at announces

end Renderer.Orderly

end DomainColoring
