import BlockFetch.EventBus

/-!
# Reading from the bus

The bus numbers the events that are sent. A reader asks for the event at its place and gets it, or
it learns that it is too far behind and how many events it has lost, or it finds nothing. A
subscription asks until it gets an event that its filter lets through or finds nothing. A stream of
events does the same, over a channel that it polls.
-/
namespace BlockFetch

/-- What a reader is answered. -/
inductive ChannelAnswer where
  | event (event : NetworkEvent)
  /-- So many events were lost. -/
  | lagged (count : Nat)
  | empty
  | closed

/-- What a poll gives. -/
inductive Poll (α : Type) where
  | ready (value : α)
  | pending

/-- What a listener finds by a poll. -/
def Reception.ofPoll : Poll (Option NetworkEvent) → Reception
  | .ready (some said) => .event said
  | .ready none => .closed
  | .pending => .pending

namespace EventBus

/-- The number of the oldest event that is kept. -/
def oldest (bus : EventBus) : Nat :=
  bus.sent - bus.kept.length

/-- Asks for the event at a place; gives the answer and the place to ask for next. -/
def ask (bus : EventBus) (place : Nat) : ChannelAnswer × Nat :=
  if place < bus.oldest then (.lagged (bus.oldest - place), bus.oldest)
  else
    match bus.kept[place - bus.oldest]? with
    | some event => (.event event, place + 1)
    | none => (if bus.closed then .closed else .empty, place)

/-- Where there is an event to get or a loss to learn of, the reader gets on. -/
theorem ask_progress {bus : EventBus} {place next : Nat} {answer : ChannelAnswer}
    (asked : bus.ask place = (answer, next)) (something : answer ≠ .empty ∧ answer ≠ .closed) :
    bus.oldest + bus.kept.length - next < bus.oldest + bus.kept.length - place := by
  unfold ask at asked
  split at asked
  · cases asked
    omega
  · split at asked
    · rename_i found
      obtain ⟨inside, _⟩ := List.getElem?_eq_some_iff.mp found
      cases asked
      omega
    · cases asked
      split at something
      · exact absurd rfl something.2
      · exact absurd rfl something.1

/-- What the bus takes from the channel that carries its events. The channel has room for as many as
its capacity rounded up to a power of two; the oldest ones make room for what is sent, and what is
sent while nobody listens is dropped. A reader gets the event at its place, but one whose place is
gone learns how many events it has lost and goes on with the oldest that is kept. -/
structure Broadcast (publish : EventBus → NetworkEvent → EventBus)
    (ask : EventBus → Nat → ChannelAnswer × Nat) : Prop where
  room : ∀ bus : EventBus, bus.window = bus.capacity.nextPowerOfTwo
  keeps : ∀ (bus : EventBus) event, bus.listeners ≠ [] →
    (publish bus event).kept =
        (bus.kept ++ [event]).drop ((bus.kept ++ [event]).length - bus.window) ∧
      (publish bus event).sent = bus.sent + 1
  drops : ∀ (bus : EventBus) event, bus.listeners = [] →
    (publish bus event).kept = bus.kept ∧ (publish bus event).sent = bus.sent
  finds : ∀ (bus : EventBus) place event, bus.oldest ≤ place →
    bus.kept[place - bus.oldest]? = some event → ask bus place = (.event event, place + 1)
  lags : ∀ (bus : EventBus) place, place < bus.oldest →
    ask bus place = (.lagged (bus.oldest - place), bus.oldest)
  ends : ∀ (bus : EventBus) place, bus.oldest ≤ place → bus.kept[place - bus.oldest]? = none →
    ask bus place = (if bus.closed then .closed else .empty, place)

theorem broadcast : Broadcast publish ask where
  room _ := rfl
  keeps bus event heard := by
    have someone : bus.listeners.isEmpty = false := by simpa using heard
    simp only [publish, someone, Bool.false_eq_true, if_false]
    exact ⟨rfl, trivial⟩
  drops bus event unheard := by
    simp only [publish, unheard, List.isEmpty_nil, if_true, and_self]
  finds bus place event kept found := by rw [ask, if_neg (Nat.not_lt.mpr kept), found]
  lags bus place lost := if_pos lost
  ends bus place kept nothing := by rw [ask, if_neg (Nat.not_lt.mpr kept), nothing]

/-! ## Subscriptions -/

/-- The next event that a filter lets through, from a place on, and the place after it. -/
def receiveFrom (bus : EventBus) (filter : EventFilter) (place : Nat) : Reception × Nat :=
  match _asked : bus.ask place with
  | (.event event, next) =>
    if filter.accepts event then (.event event, next) else bus.receiveFrom filter next
  | (.lagged _, next) => bus.receiveFrom filter next
  | (.closed, next) => (.closed, next)
  | (.empty, next) => (.pending, next)
termination_by bus.oldest + bus.kept.length - place
decreasing_by all_goals exact ask_progress _asked ⟨nofun, nofun⟩

def receiveNext? (bus : EventBus) (name : String) : Option (Reception × EventBus) :=
  (bus.listeners.lookup name).map fun subscription =>
    let (reception, place) := bus.receiveFrom subscription.filter subscription.position
    (reception, bus.moveTo name place)

/-! ## Streams -/

/-- The channel as a stream: events and losses, until it ends. -/
def pollChannel (bus : EventBus) (place : Nat) : Poll (Option (Except Nat NetworkEvent)) × Nat :=
  match bus.ask place with
  | (.event event, next) => (.ready (some (.ok event)), next)
  | (.lagged count, next) => (.ready (some (.error count)), next)
  | (.closed, next) => (.ready none, next)
  | (.empty, next) => (.pending, next)

theorem pollChannel_progress {bus : EventBus} {place next : Nat}
    {item : Except Nat NetworkEvent} (polled : bus.pollChannel place = (.ready (some item), next)) :
    bus.oldest + bus.kept.length - next < bus.oldest + bus.kept.length - place := by
  unfold pollChannel at polled
  split at polled
  · rename_i asked
    cases polled
    exact ask_progress asked ⟨nofun, nofun⟩
  · rename_i asked
    cases polled
    exact ask_progress asked ⟨nofun, nofun⟩
  · exact nomatch (Prod.mk.inj polled).1
  · exact nomatch (Prod.mk.inj polled).1

/-- The next item of a stream of the events that a filter lets through. -/
def pollFrom (bus : EventBus) (filter : EventFilter) (place : Nat) :
    Poll (Option NetworkEvent) × Nat :=
  match _polled : bus.pollChannel place with
  | (.ready (some (.ok event)), next) =>
    if filter.accepts event then (.ready (some event), next) else bus.pollFrom filter next
  | (.ready (some (.error _)), next) => bus.pollFrom filter next
  | (.ready none, next) => (.ready none, next)
  | (.pending, next) => (.pending, next)
termination_by bus.oldest + bus.kept.length - place
decreasing_by all_goals exact pollChannel_progress _polled

def pollNext? (bus : EventBus) (name : String) : Option (Poll (Option NetworkEvent) × EventBus) :=
  (bus.listeners.lookup name).map fun subscription =>
    let (item, place) := bus.pollFrom subscription.filter subscription.position
    (item, bus.moveTo name place)

/-- A stream of events is made of a subscription. -/
def openStream (bus : EventBus) (name : String) (filter : EventFilter) : EventBus :=
  bus.subscribe name filter

end EventBus

/-! ## Runs -/

/-- Something that happens to a bus. -/
inductive BusStep where
  | subscribe (name : String) (filter : EventFilter)
  | openStream (name : String) (filter : EventFilter)
  | unsubscribe (name : String)
  | publish (event : NetworkEvent)
  | receive (name : String)
  | poll (name : String)
  | close
  deriving DecidableEq

/-- What whoever does something to a bus gets back. -/
inductive BusAnswer where
  | done
  /-- There is no bus or no listener any more. -/
  | gone
  /-- So many listeners are sent the event. -/
  | reached (count : Nat)
  | received (reception : Reception)
  | polled (item : Poll (Option NetworkEvent))

def BusAnswer.reception? : BusAnswer → Option Reception
  | .received reception => some reception
  | .polled item => some (.ofPoll item)
  | _ => none

namespace EventBus

/-- The answer to a step and the bus after it. When the bus is closed nobody can publish any more or
begin to listen. -/
def perform (bus : EventBus) : BusStep → BusAnswer × EventBus
  | .subscribe name filter =>
    if bus.closed then (.gone, bus) else (.done, bus.subscribe name filter)
  | .openStream name filter =>
    if bus.closed then (.gone, bus) else (.done, bus.openStream name filter)
  | .unsubscribe name => (.done, bus.unsubscribe name)
  | .publish event =>
    if bus.closed then (.gone, bus) else (.reached bus.listenerCount, bus.publish event)
  | .receive name =>
    match bus.receiveNext? name with
    | some (reception, bus) => (.received reception, bus)
    | none => (.gone, bus)
  | .poll name =>
    match bus.pollNext? name with
    | some (item, bus) => (.polled item, bus)
    | none => (.gone, bus)
  | .close => (.done, bus.close)

def after (bus : EventBus) (steps : List BusStep) : EventBus :=
  steps.foldl (fun bus step => (bus.perform step).2) bus

end EventBus
end BlockFetch
