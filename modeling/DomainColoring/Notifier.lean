/-!
# Notifiers

One party tells many others of events. Listeners hear of an event in the order in which they came. A listener is known by its
place in that order, which it keeps for ever; a channel whose receiver is gone stays in its place and keeps nothing.
-/

namespace DomainColoring

/-- A party that is told of events. -/
inductive Listener (ε : Type) where
  /-- Acts on an event at once. -/
  | callback
  /-- Holds the events that its receiver has not taken yet, the oldest first. -/
  | channel (waiting : List ε)
  /-- A channel whose receiver is gone. -/
  | closed
  deriving DecidableEq, Repr

namespace Listener

variable {ε : Type}

/-- The listener after it is told of an event. -/
def told (event : ε) : Listener ε → Listener ε
  | channel waiting => channel (waiting ++ [event])
  | other => other

/-- The listener after its receiver takes all that waits. -/
def drained : Listener ε → Listener ε
  | channel _ => channel []
  | other => other

/-- The listener after its receiver is dropped. -/
def dropped : Listener ε → Listener ε
  | channel _ => closed
  | other => other

/-- The events that a receiver finds waiting, if there is a receiver. -/
def waiting? : Listener ε → Option (List ε)
  | channel waiting => some waiting
  | _ => none

end Listener

/-- The listeners in the order in which they came. -/
structure Notifier (ε : Type) where
  listeners : List (Listener ε)
  deriving DecidableEq, Repr

namespace Notifier

variable {ε : Type}

/-- A notifier without listeners. -/
def empty : Notifier ε := ⟨[]⟩

/-- How many listeners there are. -/
def size (n : Notifier ε) : Nat := n.listeners.length

/-- Whether there are no listeners. -/
def isEmpty (n : Notifier ε) : Bool := n.listeners.isEmpty

/-- Adds a listener that acts at once. -/
def subscribe (n : Notifier ε) : Notifier ε :=
  ⟨n.listeners ++ [.callback]⟩

/-- Adds a channel. -/
def subscribeChannel (n : Notifier ε) : Notifier ε :=
  ⟨n.listeners ++ [.channel []]⟩

/-- Tells every listener of an event. The calls come with the notifier, as places of listeners with the event, in the order in
which they are made. -/
def notify (n : Notifier ε) (event : ε) : Notifier ε × List (Nat × ε) :=
  (⟨n.listeners.map (·.told event)⟩, n.listeners.zipIdx.map fun (_, place) => (place, event))

/-- Takes the events that wait at a place; there are none to take where no receiver is. -/
def drain (n : Notifier ε) (place : Nat) : Notifier ε × Option (List ε) :=
  (⟨n.listeners.modify place .drained⟩, n.listeners[place]?.bind Listener.waiting?)

/-- Drops the receiver at a place. -/
def dropReceiver (n : Notifier ε) (place : Nat) : Notifier ε :=
  ⟨n.listeners.modify place .dropped⟩

/-- The notifier in a few words. -/
def text (n : Notifier ε) : String :=
  "Notifier \x7b listeners: " ++ toString n.size ++ " \x7d"

end Notifier

end DomainColoring
