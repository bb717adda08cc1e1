import BlockFetch.Channel
import BlockFetch.Proofs.Service.Reader
import BlockFetch.Proofs.Service.Subscription

/-!
# Receptions on the bus

A subscription asks the bus for one event after another, a stream polls its channel for one item
after another. Both find the first event that is kept, has not been read and is let through, and get
past it. A step that a bus takes changes what the bus keeps or the place of one listener, and leaves
the others where they are.
-/
namespace BlockFetch

namespace BusStep

/-- A listener of this name and with this filter comes about. -/
def Begins (name : String) (filter : EventFilter) (step : BusStep) : Prop :=
  step = subscribe name filter ∨ step = openStream name filter

def settles (name : String) : BusStep → Bool
  | subscribe other _ | openStream other _ | unsubscribe other => other = name
  | _ => false

def reads (name : String) : BusStep → Bool
  | receive other | poll other => other = name
  | _ => false

def event? : BusStep → Option NetworkEvent
  | publish event => some event
  | _ => none

theorem Begins.settles {name : String} {filter : EventFilter} {step : BusStep}
    (begins : step.Begins name filter) (other : String) :
    step.settles other = decide (name = other) := by
  rcases begins with rfl | rfl <;> rfl

theorem settles_of_reads {name : String} {step : BusStep} (reads : step.reads name = true)
    (other : String) : step.settles other = false := by
  cases step with
  | receive | poll => rfl
  | _ => exact nomatch reads

end BusStep

namespace EventBus

/-! ## The two loops -/

section

variable {bus : EventBus} {name : String} {filter : EventFilter} {place next count : Nat}
  {event : NetworkEvent}

theorem receiveFrom_of_event (asked : bus.ask place = (.event event, next)) :
    bus.receiveFrom filter place =
      if filter.accepts event then (.event event, next) else bus.receiveFrom filter next := by
  rw [receiveFrom]
  split <;> simp_all

theorem receiveFrom_of_lagged (asked : bus.ask place = (.lagged count, next)) :
    bus.receiveFrom filter place = bus.receiveFrom filter next := by
  rw [receiveFrom]
  split <;> simp_all

theorem receiveFrom_of_closed (asked : bus.ask place = (.closed, next)) :
    bus.receiveFrom filter place = (.closed, next) := by
  rw [receiveFrom]
  split <;> simp_all

theorem receiveFrom_of_empty (asked : bus.ask place = (.empty, next)) :
    bus.receiveFrom filter place = (.pending, next) := by
  rw [receiveFrom]
  split <;> simp_all

theorem pollFrom_of_event (asked : bus.ask place = (.event event, next)) :
    bus.pollFrom filter place =
      if filter.accepts event then (.ready (some event), next) else bus.pollFrom filter next := by
  have polled : bus.pollChannel place = (.ready (some (.ok event)), next) := by
    rw [pollChannel, asked]
  rw [pollFrom]
  split <;> simp_all

theorem pollFrom_of_lagged (asked : bus.ask place = (.lagged count, next)) :
    bus.pollFrom filter place = bus.pollFrom filter next := by
  have polled : bus.pollChannel place = (.ready (some (.error count)), next) := by
    rw [pollChannel, asked]
  rw [pollFrom]
  split <;> simp_all

theorem pollFrom_of_closed (asked : bus.ask place = (.closed, next)) :
    bus.pollFrom filter place = (.ready none, next) := by
  have polled : bus.pollChannel place = (.ready none, next) := by rw [pollChannel, asked]
  rw [pollFrom]
  split <;> simp_all

theorem pollFrom_of_empty (asked : bus.ask place = (.empty, next)) :
    bus.pollFrom filter place = (.pending, next) := by
  have polled : bus.pollChannel place = (.pending, next) := by rw [pollChannel, asked]
  rw [pollFrom]
  split <;> simp_all

/-- A stream finds what a subscription finds at the same place, and gets to the same place. -/
theorem ofPoll_pollFrom (bus : EventBus) (filter : EventFilter) (place : Nat) :
    (Reception.ofPoll (bus.pollFrom filter place).1, (bus.pollFrom filter place).2) =
      bus.receiveFrom filter place := by
  induction place using receiveFrom.induct bus filter with
  | case1 place event next asked accepted =>
    rw [pollFrom_of_event asked, receiveFrom_of_event asked, if_pos accepted, if_pos accepted]
    rfl
  | case2 place event next asked refused ih =>
    rw [pollFrom_of_event asked, receiveFrom_of_event asked, if_neg refused, if_neg refused]
    exact ih
  | case3 place count next asked ih =>
    rw [pollFrom_of_lagged asked, receiveFrom_of_lagged asked]
    exact ih
  | case4 place next asked =>
    rw [pollFrom_of_closed asked, receiveFrom_of_closed asked]
    rfl
  | case5 place next asked =>
    rw [pollFrom_of_empty asked, receiveFrom_of_empty asked]
    rfl

/-- From a place that is still kept on, a subscription skips what its filter refuses. -/
theorem receiveFrom_of_drop (sound : bus.kept.length ≤ bus.sent) {ahead : List NetworkEvent}
    (kept : bus.oldest ≤ place) (place_le : place ≤ bus.sent)
    (rest : bus.kept.drop (place - bus.oldest) = ahead) :
    bus.receiveFrom filter place =
      Reader.firstOf bus.closed bus.sent (ahead.dropWhile fun event => !filter.accepts event) := by
  have left : ahead.length = bus.sent - place := by
    rw [← rest, List.length_drop]
    unfold oldest at kept ⊢
    omega
  induction ahead generalizing place with
  | nil =>
    have last : place = bus.sent := by
      rw [List.length_nil] at left
      omega
    have nothing : bus.kept[place - bus.oldest]? = none :=
      List.getElem?_eq_none (List.drop_eq_nil_iff.mp rest)
    have asked := broadcast.ends bus place kept nothing
    cases closed : bus.closed with
    | true =>
      rw [closed] at asked
      rw [receiveFrom_of_closed asked, last]
      rfl
    | false =>
      rw [closed] at asked
      rw [receiveFrom_of_empty asked, last]
      rfl
  | cons event ahead ih =>
    have found : bus.kept[place - bus.oldest]? = some event := by
      rw [← List.head?_drop, rest, List.head?_cons]
    have asked := broadcast.finds bus place event kept found
    rw [List.length_cons] at left
    -- The loop and `dropWhile` take the same event off the front of what is kept.
    rw [receiveFrom_of_event asked, List.dropWhile_cons]
    cases accepted : filter.accepts event with
    | true =>
      have here : bus.sent - ahead.length = place + 1 := by omega
      simp [Reader.firstOf, here]
    | false =>
      have later : bus.kept.drop (place + 1 - bus.oldest) = ahead := by
        have shift : place + 1 - bus.oldest = place - bus.oldest + 1 := by omega
        rw [shift, ← List.drop_drop, rest, List.drop_one, List.tail_cons]
      simpa using ih (by omega) (by omega) later (by omega)

/-- A subscription that has fallen behind goes on with the oldest event that is kept. -/
theorem receiveFrom_eq (sound : bus.kept.length ≤ bus.sent) (place_le : place ≤ bus.sent) :
    bus.receiveFrom filter place =
      Reader.firstOf bus.closed bus.sent ((bus.kept.drop (place - bus.oldest)).dropWhile
        fun event => !filter.accepts event) := by
  by_cases lost : place < bus.oldest
  · have asked := broadcast.lags bus place lost
    have same : place - bus.oldest = bus.oldest - bus.oldest := by omega
    rw [receiveFrom_of_lagged asked, same]
    exact receiveFrom_of_drop sound (Nat.le_refl _) (Nat.sub_le ..) rfl
  · exact receiveFrom_of_drop sound (Nat.not_lt.mp lost) place_le rfl

/-- A subscription that asks for one event after another finds what it finds at once. -/
theorem receiveNext?_eq_receive? {subscription : Subscription} (sound : bus.kept.length ≤ bus.sent)
    (listens : bus.listeners.lookup name = some subscription)
    (place_le : subscription.position ≤ bus.sent) : bus.receiveNext? name = bus.receive? name := by
  rw [receiveNext?, receive?, listens, Option.map_some, Option.map_some,
    receiveFrom_eq sound place_le]
  unfold unread oldest
  generalize (bus.kept.drop _).dropWhile _ = ahead
  cases ahead with
  | nil => cases closed : bus.closed <;> rfl
  | cons event rest => rfl

theorem perform_receive_of_lookup {subscription : Subscription}
    (listens : bus.listeners.lookup name = some subscription) :
    bus.perform (.receive name) =
      (.received (bus.receiveFrom subscription.filter subscription.position).1,
        bus.moveTo name (bus.receiveFrom subscription.filter subscription.position).2) := by
  simp only [perform, receiveNext?, listens, Option.map_some]

theorem perform_receive_of_none (absent : bus.listeners.lookup name = none) :
    bus.perform (.receive name) = (.gone, bus) := by
  simp only [perform, receiveNext?, absent, Option.map_none]

theorem perform_poll (bus : EventBus) (name : String) :
    (bus.perform (.poll name)).1.reception? = (bus.perform (.receive name)).1.reception? ∧
      (bus.perform (.poll name)).2 = (bus.perform (.receive name)).2 := by
  cases listens : bus.listeners.lookup name with
  | none =>
    rw [perform_receive_of_none listens]
    simp only [perform, pollNext?, listens, Option.map_none, and_self]
  | some subscription =>
    rw [perform_receive_of_lookup listens, ← ofPoll_pollFrom]
    simp only [perform, pollNext?, listens, Option.map_some, BusAnswer.reception?, and_self]

end

/-! ## What a step does -/

inductive Performed (bus : EventBus) : BusStep → EventBus → Prop where
  | idle {step : BusStep} (why : bus.closed = true ∨ ∃ name, step.reads name = true) :
      Performed bus step bus
  | begun {step : BusStep} {name : String} {filter : EventFilter}
      (begins : step.Begins name filter) :
      Performed bus step (bus.subscribe name filter)
  | ended (name : String) : Performed bus (.unsubscribe name) (bus.unsubscribe name)
  | published (event : NetworkEvent) (unclosed : bus.closed = false) :
      Performed bus (.publish event) (bus.publish event)
  | moved {step : BusStep} {name : String} (reads : step.reads name = true) (place : Nat) :
      Performed bus step (bus.moveTo name place)
  | closed : Performed bus .close bus.close

theorem performed (bus : EventBus) (step : BusStep) : bus.Performed step (bus.perform step).2 := by
  have receives : ∀ name step, step.reads name = true →
      bus.Performed step (bus.perform (.receive name)).2 := by
    intro name step reads
    cases listens : bus.listeners.lookup name with
    | none =>
      rw [perform_receive_of_none listens]
      exact .idle (.inr ⟨name, reads⟩)
    | some subscription =>
      rw [perform_receive_of_lookup listens]
      exact .moved reads _
  cases step with
  | subscribe name filter =>
    rw [perform]
    split
    · exact .idle (.inl ‹_›)
    · exact .begun (.inl rfl)
  | openStream name filter =>
    rw [perform]
    split
    · exact .idle (.inl ‹_›)
    · exact .begun (.inr rfl)
  | unsubscribe name => exact .ended name
  | publish event =>
    rw [perform]
    split
    · exact .idle (.inl ‹_›)
    · exact .published event (Bool.eq_false_iff.mpr ‹_›)
  | receive name => exact receives name _ (decide_eq_true rfl)
  | poll name =>
    rw [(perform_poll bus name).2]
    exact receives name _ (decide_eq_true rfl)
  | close => exact .closed

/-! ## Places of other listeners -/

section

variable {bus : EventBus} {name other : String}

theorem lookup_unsubscribe_of_ne (bus : EventBus) (different : other ≠ name) :
    (bus.unsubscribe other).listeners.lookup name = bus.listeners.lookup name := by
  unfold unsubscribe
  induction bus.listeners with
  | nil => rfl
  | cons listener rest ih =>
    obtain ⟨key, subscription⟩ := listener
    by_cases here : key = other
    · subst here
      have elsewhere : (name == key) = false := beq_eq_false_iff_ne.mpr different.symm
      simpa [List.lookup_cons, elsewhere] using ih
    · simp only [List.filter_cons, here, ne_eq, not_false_eq_true, decide_true, if_true,
        List.lookup_cons]
      cases name == key with
      | true => rfl
      | false => exact ih

theorem lookup_subscribe_of_ne (bus : EventBus) (filter : EventFilter) (different : other ≠ name) :
    (bus.subscribe other filter).listeners.lookup name = bus.listeners.lookup name := by
  have elsewhere : (name == other) = false := beq_eq_false_iff_ne.mpr different.symm
  change List.lookup name ((bus.unsubscribe other).listeners ++ _) = _
  rw [List.lookup_append, lookup_unsubscribe_of_ne bus different, List.lookup_cons, elsewhere]
  exact Option.or_none

theorem lookup_moveTo_of_ne (bus : EventBus) (position : Nat) (different : other ≠ name) :
    (bus.moveTo other position).listeners.lookup name = bus.listeners.lookup name := by
  unfold moveTo
  induction bus.listeners with
  | nil => rfl
  | cons listener rest ih =>
    obtain ⟨key, subscription⟩ := listener
    by_cases here : key = other
    · subst here
      have elsewhere : (name == key) = false := beq_eq_false_iff_ne.mpr different.symm
      simpa [List.lookup_cons, elsewhere] using ih
    · simp only [List.map_cons, here, if_false, List.lookup_cons]
      cases name == key with
      | true => rfl
      | false => exact ih

end

end EventBus
end BlockFetch
