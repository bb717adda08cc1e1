import BlockFetch.NetworkEvent

/-!
# The event bus

The bus keeps the latest events, as many as the capacity rounded up to a power of two. Each
listener has a place in the stream of events and reads on from there; one that has fallen too far
behind goes on with the oldest event that is kept. A listener hears the events that its filter
lets through, from the moment it subscribed. When the bus is closed, listeners still read what is
kept.
-/
namespace BlockFetch

/-- A listener's filter and its place in the stream of events. -/
structure Subscription where
  filter : EventFilter
  /-- The number of events, heard by anybody, that precede the next one to be read. -/
  position : Nat
  deriving DecidableEq, Repr

/-- A bus with named listeners. -/
structure EventBus where
  capacity : Nat
  /-- The latest events, oldest first. -/
  kept : List NetworkEvent
  /-- The number of events that were sent to some listener. -/
  sent : Nat
  /-- The number of events that were published, with or without listeners. -/
  published : Nat
  listeners : List (String × Subscription)
  closed : Bool
  deriving DecidableEq

/-- What a listener finds when it reads. -/
inductive Reception where
  | event (event : NetworkEvent)
  | pending
  | closed
  deriving DecidableEq

namespace EventBus

def standardCapacity : Nat := 4096

def create (capacity : Nat) : EventBus := ⟨capacity, [], 0, 0, [], false⟩

instance : Inhabited EventBus := ⟨create standardCapacity⟩

def window (bus : EventBus) : Nat :=
  bus.capacity.nextPowerOfTwo

def listenerCount (bus : EventBus) : Nat :=
  bus.listeners.length

/-- Ends the subscription of a listener, if there is one of that name. -/
def unsubscribe (bus : EventBus) (name : String) : EventBus :=
  { bus with listeners := bus.listeners.filter fun listener => listener.1 ≠ name }

/-- Adds a listener, in place of an earlier one of the same name. -/
def subscribe (bus : EventBus) (name : String) (filter : EventFilter) : EventBus :=
  { bus.unsubscribe name with
    listeners := (bus.unsubscribe name).listeners ++ [(name, ⟨filter, bus.sent⟩)] }

/-- Publishes an event. An event without listeners is counted and dropped. -/
def publish (bus : EventBus) (event : NetworkEvent) : EventBus :=
  let bus := { bus with published := bus.published + 1 }
  if bus.listeners.isEmpty then bus
  else
    let events := bus.kept ++ [event]
    { bus with kept := events.drop (events.length - bus.window), sent := bus.sent + 1 }

@[simp] theorem listeners_publish (bus : EventBus) (event : NetworkEvent) :
    (bus.publish event).listeners = bus.listeners := by
  unfold publish
  dsimp only
  split <;> rfl

def publishAll (bus : EventBus) (events : List NetworkEvent) : EventBus :=
  events.foldl publish bus

def close (bus : EventBus) : EventBus :=
  { bus with closed := true }

/-- The kept events that a listener has not read yet. -/
def unread (bus : EventBus) (subscription : Subscription) : List NetworkEvent :=
  bus.kept.drop (subscription.position - (bus.sent - bus.kept.length))

def moveTo (bus : EventBus) (name : String) (position : Nat) : EventBus :=
  { bus with
    listeners := bus.listeners.map fun listener =>
      if listener.1 = name then (name, { listener.2 with position }) else listener }

def receive? (bus : EventBus) (name : String) : Option (Reception × EventBus) :=
  (bus.listeners.lookup name).map fun subscription =>
    match (bus.unread subscription).dropWhile fun event => !subscription.filter.accepts event with
    | [] => (if bus.closed then .closed else .pending, bus.moveTo name bus.sent)
    | event :: rest => (.event event, bus.moveTo name (bus.sent - rest.length))

def drain? (bus : EventBus) (name : String) : Option (List NetworkEvent × EventBus) :=
  (bus.listeners.lookup name).map fun subscription =>
    ((bus.unread subscription).filter subscription.filter.accepts, bus.moveTo name bus.sent)

end EventBus
end BlockFetch
