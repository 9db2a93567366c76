import DomainColoring.Notifier

/-!
# What listeners get

Whatever is done with a notifier, an event goes to all listeners of its time, in the order in which they came, and a receiver
gets what was notified since its channel came, in order and without a gap (`Notifier.delivery_exact`). What is kept along the way
is that, for a channel, the events that are taken and those that wait make up the history since it came (`Account.Delivered`).
-/

namespace DomainColoring

namespace Notifier

variable {ε : Type}

/-! ## Operations and the account of them -/

/-- What is done with a notifier. A place stands for the listener there. -/
inductive Operation (ε : Type) where
  | subscribe
  | subscribeChannel
  | dropReceiver (place : Nat)
  | drain (place : Nat)
  | notify (event : ε)
  deriving DecidableEq, Repr

namespace Operation

/-- Whether a listener comes. -/
def subscribes : Operation ε → Bool
  | subscribe | subscribeChannel => true
  | _ => false

/-- The event that is notified, if one is. -/
def event? : Operation ε → Option ε
  | notify event => some event
  | _ => none

/-- The listener at a place afterwards. -/
def on (place : Nat) (listener : Listener ε) : Operation ε → Listener ε
  | subscribe => listener
  | subscribeChannel => listener
  | dropReceiver other => if other = place then listener.dropped else listener
  | drain other => if other = place then listener.drained else listener
  | notify event => listener.told event

end Operation

/-- How many listeners have come. -/
def subscriptions (operations : List (Operation ε)) : Nat :=
  operations.countP Operation.subscribes

/-- The events that were notified, in order. -/
def notified (operations : List (Operation ε)) : List ε :=
  operations.filterMap Operation.event?

theorem notified_cons (operation : Operation ε) (operations : List (Operation ε)) :
    notified (operation :: operations) = operation.event?.toList ++ notified operations := by
  cases e : operation.event? <;> simp [notified, e]

/-- The notifier after an operation. -/
def after (n : Notifier ε) : Operation ε → Notifier ε
  | .subscribe => n.subscribe
  | .subscribeChannel => n.subscribeChannel
  | .dropReceiver place => n.dropReceiver place
  | .drain place => (n.drain place).1
  | .notify event => (n.notify event).1

/-- The calls of listeners that an operation makes: only an event makes any. -/
def calls (n : Notifier ε) : Operation ε → List (Nat × ε)
  | .notify event => (n.notify event).2
  | _ => []

/-- The events that a receiver takes by an operation, with the place of its listener. -/
def taken (n : Notifier ε) : Operation ε → List (Nat × ε)
  | .drain place => ((n.drain place).2.getD []).map (place, ·)
  | _ => []

/-- A notifier with what came of it: the calls of listeners and the events that receivers have taken, each with the place of the
listener, in the order in which it happened. -/
structure Account (ε : Type) where
  notifier : Notifier ε
  calls : List (Nat × ε)
  taken : List (Nat × ε)
  deriving DecidableEq, Repr

/-- The events that entries have for one place. -/
def eventsAt (place : Nat) (entries : List (Nat × ε)) : List ε :=
  (entries.filter (·.1 == place)).map Prod.snd

namespace Account

/-- The account after one more operation. -/
def perform (a : Account ε) (operation : Operation ε) : Account ε where
  notifier := a.notifier.after operation
  calls := a.calls ++ a.notifier.calls operation
  taken := a.taken ++ a.notifier.taken operation

/-- The account of operations on a new notifier. -/
def of (operations : List (Operation ε)) : Account ε :=
  operations.foldl perform ⟨.empty, [], []⟩

/-- An account is continued from where it was. -/
theorem of_append (before after : List (Operation ε)) : of (before ++ after) = after.foldl perform (of before) :=
  List.foldl_append

end Account

@[simp] theorem eventsAt_append (place : Nat) (entries more : List (Nat × ε)) :
    eventsAt place (entries ++ more) = eventsAt place entries ++ eventsAt place more := by
  simp [eventsAt]

@[simp] theorem eventsAt_map_same (place : Nat) (events : List ε) : eventsAt place (events.map (place, ·)) = events := by
  simp [eventsAt, List.filter_map, Function.comp_def]

theorem eventsAt_map_other {place other : Nat} (h : other ≠ place) (events : List ε) :
    eventsAt place (events.map (other, ·)) = [] := by
  simp [eventsAt, List.filter_map, Function.comp_def, h]

/-! ## Every listener is called once, in order -/

theorem size_after (n : Notifier ε) (operation : Operation ε) :
    (n.after operation).size = n.size + if operation.subscribes then 1 else 0 := by
  cases operation <;> simp [after, size, subscribe, subscribeChannel, dropReceiver, drain, notify, Operation.subscribes]

/-- The calls do not depend on what the listeners are. -/
theorem calls_eq (n : Notifier ε) (operation : Operation ε) :
    n.calls operation = operation.event?.toList.flatMap fun event => (List.range n.size).map (·, event) := by
  cases operation with
  | notify event =>
    simp only [calls, Operation.event?, Option.toList_some, List.flatMap_cons, List.flatMap_nil, List.append_nil]
    apply List.ext_getElem <;> simp [notify, size]
  | _ => rfl

namespace Account

/-- Operations add as many places as there are subscriptions among them. -/
theorem size_foldl_perform (a : Account ε) (operations : List (Operation ε)) :
    (operations.foldl perform a).notifier.size = a.notifier.size + subscriptions operations := by
  induction operations generalizing a with
  | nil => rfl
  | cons operation operations ih =>
    have first : (a.perform operation).notifier.size = _ := a.notifier.size_after operation
    rw [List.foldl_cons, ih, first, subscriptions, subscriptions, List.countP_cons]
    omega

theorem size_of (operations : List (Operation ε)) : (of operations).notifier.size = subscriptions operations :=
  (size_foldl_perform _ operations).trans (Nat.zero_add _)

/-! ## A channel keeps what its receiver has not taken -/

/-- Nothing is taken where no listener is. -/
def TakenWithin (a : Account ε) : Prop :=
  ∀ entry ∈ a.taken, entry.1 < a.notifier.size

/-- Receivers go on to take only what has come to them. -/
theorem TakenWithin.perform {a : Account ε} (h : a.TakenWithin) (operation : Operation ε) : (a.perform operation).TakenWithin := by
  intro entry mem
  have grows : a.notifier.size ≤ (a.notifier.after operation).size := by
    rw [size_after]
    exact Nat.le_add_right ..
  refine Nat.lt_of_lt_of_le ?_ grows
  rcases List.mem_append.1 mem with mem | mem
  · exact h entry mem
  · cases operation with
    | drain place =>
      -- something waits only where there is a listener
      obtain ⟨event, waits, rfl⟩ := List.mem_map.1 mem
      refine Nat.lt_of_not_le fun outside => ?_
      have absent : a.notifier.listeners[place]? = none := List.getElem?_eq_none outside
      simp [Notifier.drain, absent] at waits
    | _ => cases mem

/-- No receiver ever takes more than has come to it. -/
theorem takenWithin_of (operations : List (Operation ε)) : (of operations).TakenWithin := by
  have run {a : Account ε} (h : a.TakenWithin) : (operations.foldl Account.perform a).TakenWithin := by
    induction operations generalizing a with
    | nil => exact h
    | cons operation operations ih => exact ih (h.perform operation)
  refine run ?_
  rintro _ ⟨⟩

/-- Whatever is done, a listener keeps its place. -/
theorem listener_perform {place : Nat} {a : Account ε} {listener : Listener ε}
    (h : a.notifier.listeners[place]? = some listener) (operation : Operation ε) :
    (a.perform operation).notifier.listeners[place]? = some (operation.on place listener) := by
  have inside : place < a.notifier.listeners.length := (List.getElem?_eq_some_iff.1 h).1
  cases operation with
  | subscribe | subscribeChannel => exact (List.getElem?_append_left inside).trans h
  | dropReceiver other | drain other =>
    simp only [Account.perform, Notifier.after, Notifier.dropReceiver, Notifier.drain, List.getElem?_modify, h, Operation.on]
    split <;> rfl
  | notify event =>
    simp only [Account.perform, Notifier.after, Notifier.notify, List.getElem?_map, h, Option.map_some, Operation.on]

/-- At a place there is a receiver that has taken a first part of a history and finds the rest waiting. -/
def Delivered (place : Nat) (a : Account ε) (history : List ε) : Prop :=
  ∃ waiting, a.notifier.listeners[place]? = some (.channel waiting) ∧ eventsAt place a.taken ++ waiting = history

/-- Everything goes on to come to a receiver that is not dropped. -/
theorem Delivered.perform {place : Nat} {a : Account ε} {history : List ε} (h : a.Delivered place history)
    {operation : Operation ε} (kept : operation ≠ .dropReceiver place) :
    (a.perform operation).Delivered place (history ++ operation.event?.toList) := by
  obtain ⟨waiting, found, rfl⟩ := h
  have afterwards := listener_perform found operation
  cases operation with
  | subscribe | subscribeChannel =>
    exact ⟨waiting, afterwards, by simp [Account.perform, Notifier.taken, Operation.event?]⟩
  | dropReceiver other =>
    have elsewhere : other ≠ place := fun same => kept (same ▸ rfl)
    rw [Operation.on, if_neg elsewhere] at afterwards
    exact ⟨waiting, afterwards, by simp [Account.perform, Notifier.taken, Operation.event?]⟩
  | drain other =>
    by_cases same : other = place
    · subst same
      rw [Operation.on, if_pos rfl] at afterwards
      refine ⟨[], afterwards, ?_⟩
      simp [Account.perform, Notifier.taken, Notifier.drain, found, Listener.waiting?, Operation.event?]
    · rw [Operation.on, if_neg same] at afterwards
      refine ⟨waiting, afterwards, ?_⟩
      simp [Account.perform, Notifier.taken, eventsAt_map_other same, Operation.event?]
  | notify event =>
    exact ⟨waiting ++ [event], afterwards, by simp [Account.perform, Notifier.taken, Operation.event?]⟩

/-- It does so through any operations. -/
theorem Delivered.run {place : Nat} {a : Account ε} {history : List ε} (h : a.Delivered place history)
    {operations : List (Operation ε)} (kept : .dropReceiver place ∉ operations) :
    (operations.foldl Account.perform a).Delivered place (history ++ notified operations) := by
  induction operations generalizing a history with
  | nil => rwa [notified, List.filterMap_nil, List.append_nil]
  | cons operation operations ih =>
    rw [List.mem_cons, not_or] at kept
    have rest := ih (h.perform (Ne.symm kept.1)) kept.2
    rwa [List.append_assoc, ← notified_cons] at rest

/-- A channel that comes is told of nothing that was before it. -/
theorem Delivered.of_subscribed (before : List (Operation ε)) :
    ((of before).perform .subscribeChannel).Delivered (subscriptions before) [] := by
  refine ⟨[], ?_, ?_⟩
  · rw [← size_of]
    exact List.getElem?_concat_length
  · rw [List.append_nil, eventsAt, List.map_eq_nil_iff, List.filter_eq_nil_iff]
    intro entry mem
    have within := takenWithin_of before entry (by simpa [Account.perform, Notifier.taken] using mem)
    rw [size_of] at within
    simpa using Nat.ne_of_lt within

/-- Nobody receives at a place any more. -/
def Closed (place : Nat) (a : Account ε) : Prop :=
  a.notifier.listeners[place]? = some .closed

/-- A place that was closed stays closed through any operations. -/
theorem Closed.run {place : Nat} {a : Account ε} (h : a.Closed place) (operations : List (Operation ε)) :
    (operations.foldl Account.perform a).Closed place := by
  induction operations generalizing a with
  | nil => exact h
  | cons operation operations ih =>
    refine ih ((listener_perform h operation).trans ?_)
    cases operation <;> simp [Operation.on, Listener.dropped, Listener.drained, Listener.told]

/-- A receiver that is dropped at some time leaves its place closed. -/
theorem Delivered.closed_of_dropped {place : Nat} {a : Account ε} {history : List ε} (h : a.Delivered place history)
    {operations : List (Operation ε)} (dropped : .dropReceiver place ∈ operations) :
    (operations.foldl Account.perform a).Closed place := by
  induction operations generalizing a history with
  | nil => cases dropped
  | cons operation operations ih =>
    by_cases first : operation = .dropReceiver place
    · subst first
      obtain ⟨waiting, found, -⟩ := h
      have closed := listener_perform found (.dropReceiver place)
      rw [Operation.on, if_pos rfl] at closed
      exact Closed.run closed operations
    · exact ih (h.perform first) ((List.mem_cons.1 dropped).resolve_left (Ne.symm first))

/-! ## Other listeners do not notice that a receiver is dropped -/

/-- Two accounts with the same calls and as many listeners, that differ at one place at most. -/
structure AlikeBut (place : Nat) (a b : Account ε) : Prop where
  size : a.notifier.size = b.notifier.size
  calls : a.calls = b.calls
  listeners : ∀ other ≠ place, a.notifier.listeners[other]? = b.notifier.listeners[other]?
  taken : ∀ other ≠ place, eventsAt other a.taken = eventsAt other b.taken

/-- An operation keeps two accounts alike but for one place. -/
theorem AlikeBut.perform {place : Nat} {a b : Account ε} (h : a.AlikeBut place b) (operation : Operation ε) :
    (a.perform operation).AlikeBut place (b.perform operation) where
  size := by simp only [Account.perform, size_after, h.size]
  calls := by simp only [Account.perform, calls_eq, h.calls, h.size]
  listeners other elsewhere := by
    have same := h.listeners other elsewhere
    have length : a.notifier.listeners.length = b.notifier.listeners.length := h.size
    cases operation with
    | subscribe | subscribeChannel =>
      simp only [Account.perform, after, Notifier.subscribe, Notifier.subscribeChannel, List.getElem?_append, length, same]
    | dropReceiver p | drain p =>
      simp only [Account.perform, after, Notifier.dropReceiver, Notifier.drain, List.getElem?_modify, same]
    | notify event => simp only [Account.perform, after, Notifier.notify, List.getElem?_map, same]
  taken other elsewhere := by
    simp only [Account.perform, eventsAt_append, h.taken other elsewhere]
    cases operation with
    | drain p =>
      by_cases here : p = other
      · subst here
        simp only [Notifier.taken, Notifier.drain, h.listeners p elsewhere]
      · simp only [Notifier.taken, eventsAt_map_other here]
    | _ => rfl

/-- So do any operations. -/
theorem AlikeBut.run {place : Nat} {a b : Account ε} (h : a.AlikeBut place b) (operations : List (Operation ε)) :
    (operations.foldl Account.perform a).AlikeBut place (operations.foldl Account.perform b) := by
  induction operations generalizing a b with
  | nil => exact h
  | cons operation operations ih => exact ih (h.perform operation)

/-- Dropping a receiver changes nothing at other places. -/
theorem AlikeBut.of_dropped (a : Account ε) (place : Nat) : (a.perform (.dropReceiver place)).AlikeBut place a where
  size := a.notifier.size_after _
  calls := List.append_nil _
  listeners _ elsewhere := List.getElem?_modify_ne _ _ elsewhere.symm
  taken _ _ := congrArg _ (List.append_nil _)

end Account

/-- Whatever was done before and is done after: there are as many listeners as ever came. An event calls each of them once, in the
order in which they came, and nothing else calls any. The receiver of a channel has taken and finds waiting just the events since
the channel came, unless it is dropped. To drop a receiver changes nothing elsewhere, neither then nor later. -/
theorem delivery_exact (before after : List (Operation ε)) :
    (Account.of before).notifier.size = subscriptions before ∧
      (∀ event, (Account.of (before ++ [.notify event])).calls =
        (Account.of before).calls ++ (List.range (subscriptions before)).map (·, event)) ∧
      (∀ operation, operation.event? = none → (Account.of (before ++ [operation])).calls = (Account.of before).calls) ∧
      (.dropReceiver (subscriptions before) ∉ after →
        (Account.of (before ++ .subscribeChannel :: after)).Delivered (subscriptions before) (notified after)) ∧
      (.dropReceiver (subscriptions before) ∈ after →
        (Account.of (before ++ .subscribeChannel :: after)).Closed (subscriptions before)) ∧
      ∀ place, (Account.of (before ++ .dropReceiver place :: after)).AlikeBut place (Account.of (before ++ after)) := by
  have channel := Account.Delivered.of_subscribed before
  refine ⟨Account.size_of before, fun event => ?_, fun operation silent => ?_, fun kept => ?_, fun dropped => ?_, fun place => ?_⟩
  · rw [Account.of_append, List.foldl_cons, List.foldl_nil, Account.perform, calls_eq, Account.size_of]
    exact congrArg _ (List.append_nil _)
  · rw [Account.of_append, List.foldl_cons, List.foldl_nil, Account.perform, calls_eq, silent]
    exact List.append_nil _
  · rw [Account.of_append, List.foldl_cons]
    exact channel.run kept
  · rw [Account.of_append, List.foldl_cons]
    exact channel.closed_of_dropped dropped
  · rw [Account.of_append, Account.of_append, List.foldl_cons]
    exact (Account.AlikeBut.of_dropped _ place).run after

/-- The receiver of the second of three listeners takes the first event before the second comes, and takes that later; the receiver
of the third is gone before the second event. -/
theorem second_of_three_gets_both :
    let operations := [.subscribe, .subscribeChannel, .subscribeChannel, .notify 7, .dropReceiver 2, .drain 1, .notify 8, .drain 1]
    (Account.of operations).calls = [(0, 7), (1, 7), (2, 7), (0, 8), (1, 8), (2, 8)] ∧
      (Account.of operations).Delivered 1 [7, 8] ∧ (Account.of operations).Closed 2 := by
  obtain ⟨-, called, -⟩ :=
    delivery_exact [.subscribe, .subscribeChannel, .subscribeChannel, .notify 7, .dropReceiver 2, .drain 1] []
  obtain ⟨-, -, silent, -⟩ :=
    delivery_exact [.subscribe, .subscribeChannel, .subscribeChannel, .notify 7, .dropReceiver 2, .drain 1, .notify 8] []
  obtain ⟨-, -, -, kept, -⟩ :=
    delivery_exact [.subscribe] [.subscribeChannel, .notify 7, .dropReceiver 2, .drain 1, .notify 8, .drain 1]
  obtain ⟨-, -, -, -, dropped, -⟩ :=
    delivery_exact [.subscribe, .subscribeChannel] [.notify 7, .dropReceiver 2, .drain 1, .notify 8, .drain 1]
  exact ⟨(silent (.drain 1) rfl).trans (called 8), kept (by decide), dropped (by decide)⟩

end Notifier

end DomainColoring
