import DomainColoring.Proofs.Notifier.Delivery

/-!
# A stretch of a notifier's life

From one time to another the listeners of a notifier are told of certain events, and come, take what waits and go in between
(`Notifier.Hears`). Stretches are put together end to end, and an account of one says what each listener got: it was called with
each of the events in order (`Notifier.Hears.recorded`).
-/

namespace DomainColoring

namespace Notifier

variable {ε : Type} {n n' n'' : Notifier ε} {events events' : List ε} {tended tended' : List (Operation ε)}

/-- An operation of the listeners themselves: no event is notified. -/
def Operation.tends (operation : Operation ε) : Bool :=
  operation.event?.isNone

/-- A notifier becomes another as its listeners are told of just these events, and do just these operations themselves. -/
def Hears (n n' : Notifier ε) (events : List ε) (tended : List (Operation ε)) : Prop :=
  ∃ operations, notified operations = events ∧ operations.filter Operation.tends = tended ∧ operations.foldl after n = n'

namespace Hears

theorem refl (n : Notifier ε) : n.Hears n [] [] :=
  ⟨[], rfl, rfl, rfl⟩

/-- What is heard in two stretches of time is heard in both together. -/
theorem trans (h : n.Hears n' events tended) (h' : n'.Hears n'' events' tended') :
    n.Hears n'' (events ++ events') (tended ++ tended') := by
  obtain ⟨operations, rfl, rfl, rfl⟩ := h
  obtain ⟨operations', rfl, rfl, rfl⟩ := h'
  exact ⟨operations ++ operations', List.filterMap_append, List.filter_append .., List.foldl_append⟩

theorem event (n : Notifier ε) (event : ε) : n.Hears (n.notify event).1 [event] [] :=
  ⟨[.notify event], rfl, rfl, rfl⟩

/-- What listeners do of their own is no event. -/
theorem tend (n : Notifier ε) {operation : Operation ε} (tends : operation.tends = true) :
    n.Hears (n.after operation) [] [operation] := by
  refine ⟨[operation], ?_, List.filter_cons_of_pos tends, rfl⟩
  rw [notified_cons, Option.isNone_iff_eq_none.1 tends]
  rfl

end Hears

/-! ## What the listeners get -/

/-- An event is one call of each listener. -/
theorem eventsAt_calls {place : Nat} (inside : place < n.size) (operation : Operation ε) :
    eventsAt place (n.calls operation) = operation.event?.toList := by
  have once : (List.range n.size).filter (· == place) = [place] := by
    rw [List.filter_beq, List.nodup_range.count, if_pos (List.mem_range.2 inside)]
    rfl
  rw [calls_eq]
  cases operation.event? with
  | none => rfl
  | some event => simp [eventsAt, List.filter_map, Function.comp_def, once]

namespace Account

/-- The notifier of an account goes through the operations itself. -/
theorem notifier_foldl_perform (a : Account ε) (operations : List (Operation ε)) :
    (operations.foldl perform a).notifier = operations.foldl after a.notifier := by
  induction operations generalizing a with
  | nil => rfl
  | cons operation operations ih => exact ih (a.perform operation)

/-- To a place that is there all events of the operations come, in their order. -/
theorem eventsAt_calls_foldl {place : Nat} {a : Account ε} (inside : place < a.notifier.size) (operations : List (Operation ε)) :
    eventsAt place (operations.foldl perform a).calls = eventsAt place a.calls ++ notified operations := by
  induction operations generalizing a with
  | nil => exact (List.append_nil _).symm
  | cons operation operations ih =>
    have within : place < (a.perform operation).notifier.size :=
      Nat.lt_of_lt_of_le inside (Nat.le.intro (a.notifier.size_after operation).symm)
    rw [List.foldl_cons, ih within, perform, eventsAt_append, eventsAt_calls inside, notified_cons, List.append_assoc]

/-- Nobody takes what waits at a place. -/
theorem eventsAt_taken_foldl {place : Nat} {operations : List (Operation ε)} (left : .drain place ∉ operations) (a : Account ε) :
    eventsAt place (operations.foldl perform a).taken = eventsAt place a.taken := by
  induction operations generalizing a with
  | nil => rfl
  | cons operation operations ih =>
    rw [List.mem_cons, not_or] at left
    have untaken : eventsAt place (a.notifier.taken operation) = [] := by
      cases operation with
      | drain other => exact eventsAt_map_other (fun same => left.1 (congrArg Operation.drain same.symm)) _
      | _ => rfl
    rw [List.foldl_cons, ih left.2, perform, eventsAt_append, untaken, List.append_nil]

/-- The account of a stretch of time in which the listeners of a notifier are told of certain events and do certain operations
themselves. -/
structure Records (n : Notifier ε) (events : List ε) (tended : List (Operation ε)) (a : Account ε) : Prop where
  operations : ∃ operations, notified operations = events ∧ operations.filter Operation.tends = tended ∧
    operations.foldl perform ⟨n, [], []⟩ = a
  /-- Each listener that was there is called once with each event, in order. -/
  called : ∀ place < n.size, eventsAt place a.calls = events
  /-- A receiver that was there and is not dropped has taken or finds waiting what waited before and then the events. -/
  delivered : ∀ place waiting, n.listeners[place]? = some (.channel waiting) → .dropReceiver place ∉ tended →
    a.Delivered place (waiting ++ events)
  /-- All of that waits for a receiver that has taken nothing. -/
  waiting : ∀ place waiting, n.listeners[place]? = some (.channel waiting) → .dropReceiver place ∉ tended →
    .drain place ∉ tended → a.notifier.listeners[place]? = some (.channel (waiting ++ events))

end Account

/-- What is heard can be put down in an account. -/
theorem Hears.recorded (h : n.Hears n' events tended) : ∃ a : Account ε, a.Records n events tended ∧ a.notifier = n' := by
  obtain ⟨operations, rfl, rfl, rfl⟩ := h
  have kept {operation : Operation ε} (tends : operation.tends = true) (h : operation ∉ operations.filter Operation.tends) :
      operation ∉ operations := fun mem => h (List.mem_filter.2 ⟨mem, tends⟩)
  have delivered (place : Nat) (waiting : List ε) (found : n.listeners[place]? = some (.channel waiting))
      (undropped : .dropReceiver place ∉ operations.filter Operation.tends) :
      (operations.foldl Account.perform ⟨n, [], []⟩).Delivered place (waiting ++ notified operations) :=
    Account.Delivered.run ⟨waiting, found, rfl⟩ (kept rfl undropped)
  refine ⟨operations.foldl Account.perform ⟨n, [], []⟩, ⟨⟨operations, rfl, rfl, rfl⟩, ?_, delivered, ?_⟩,
    Account.notifier_foldl_perform _ _⟩
  · exact fun place inside => Account.eventsAt_calls_foldl inside operations
  · intro place waiting found undropped undrained
    obtain ⟨rest, waits, eq⟩ := delivered place waiting found undropped
    rw [Account.eventsAt_taken_foldl (kept rfl undrained)] at eq
    rw [waits, ← eq]
    rfl

end Notifier

end DomainColoring
