import BlockFetch.Channel
import Mathlib.Data.List.Infix

/-!
# Subscriptions

What a listener has still to read is the end of what the bus keeps, as long as the listener keeps up
with the bus. Then every event that is published joins the end of it, and every reception takes
events off its front, so that a listener that keeps up reads what is published in order and misses
nothing.
-/
namespace BlockFetch.EventBus

/-- No event that a listener has still to read has been dropped. -/
def KeepsUp (bus : EventBus) (name : String) : Prop :=
  ∀ subscription, bus.listeners.lookup name = some subscription →
    bus.sent ≤ subscription.position + bus.kept.length

/-- The events that came onto the bus from one moment to another, as far as they are kept. -/
def since (before after : EventBus) : List NetworkEvent :=
  after.kept.drop (after.kept.length - (after.sent - before.sent))

inductive Used : EventBus → Prop where
  | created (capacity : Nat) : Used (create capacity)
  | published {bus} (used : Used bus) (event : NetworkEvent) : Used (bus.publish event)
  | subscribed {bus} (used : Used bus) (name : String) (filter : EventFilter) :
      Used (bus.subscribe name filter)
  | unsubscribed {bus} (used : Used bus) (name : String) : Used (bus.unsubscribe name)
  | moved {bus} (used : Used bus) (name : String) (position : Nat) : Used (bus.moveTo name position)
  | closed {bus} (used : Used bus) : Used bus.close

/-- A listener has still to read some events, and nothing that it has to read was dropped. -/
structure Follows (bus : EventBus) (name : String) (filter : EventFilter)
    (waiting : List NetworkEvent) : Prop where
  length_kept_le : bus.kept.length ≤ bus.sent
  subscribed : bus.listeners.lookup name = some ⟨filter, bus.sent - waiting.length⟩
  kept : waiting <:+ bus.kept

variable {bus : EventBus} {name : String} {filter : EventFilter}
  {waiting events rest : List NetworkEvent}

/-! ## Publishing -/

/-- An event that somebody hears is sent, and may displace events that were kept. -/
theorem publish_of_listeners (heard : bus.listeners ≠ []) (event : NetworkEvent) :
    (bus.publish event).kept <:+ bus.kept ++ [event] ∧ (bus.publish event).sent = bus.sent + 1 := by
  obtain ⟨kept, sent⟩ := broadcast.keeps bus event heard
  exact ⟨kept ▸ List.drop_suffix _ _, sent⟩

theorem listeners_publishAll (bus : EventBus) (events : List NetworkEvent) :
    (bus.publishAll events).listeners = bus.listeners := by
  induction events generalizing bus with
  | nil => rfl
  | cons event rest ih => exact (ih (bus.publish event)).trans (listeners_publish bus event)

theorem publishAll_of_listeners (heard : bus.listeners ≠ []) (events : List NetworkEvent) :
    (bus.publishAll events).kept <:+ bus.kept ++ events ∧
      (bus.publishAll events).sent = bus.sent + events.length := by
  induction events generalizing bus with
  | nil => exact ⟨by simp [publishAll], rfl⟩
  | cons event rest ih =>
    obtain ⟨kept, sent⟩ := publish_of_listeners heard event
    have still : (bus.publish event).listeners ≠ [] := by rwa [listeners_publish]
    obtain ⟨later, more⟩ := ih still
    constructor
    · obtain ⟨dropped, same⟩ := kept
      refine later.trans ⟨dropped, ?_⟩
      rw [← List.append_assoc, same, List.append_assoc, List.singleton_append]
    · change ((bus.publish event).publishAll rest).sent = _
      rw [more, sent, List.length_cons]
      omega

theorem length_kept_publish_le_sent (h : bus.kept.length ≤ bus.sent) (event : NetworkEvent) :
    (bus.publish event).kept.length ≤ (bus.publish event).sent := by
  by_cases heard : bus.listeners = []
  · obtain ⟨kept, sent⟩ := broadcast.drops bus event heard
    rwa [kept, sent]
  · obtain ⟨kept, sent⟩ := publish_of_listeners heard event
    have bound := kept.length_le
    rw [List.length_append, List.length_singleton] at bound
    omega

theorem Used.length_kept_le (used : bus.Used) : bus.kept.length ≤ bus.sent := by
  induction used with
  | created capacity => exact Nat.le_refl _
  | published _ event ih => exact length_kept_publish_le_sent ih event
  | subscribed _ _ _ ih => exact ih
  | unsubscribed _ _ ih => exact ih
  | moved _ _ _ ih => exact ih
  | closed _ ih => exact ih

/-! ## Places of listeners -/

theorem lookup_unsubscribe (bus : EventBus) (name : String) :
    (bus.unsubscribe name).listeners.lookup name = none := by
  unfold unsubscribe
  induction bus.listeners with
  | nil => rfl
  | cons listener rest ih =>
    rw [List.filter_cons]
    split
    · rename_i other
      have different : (name == listener.1) = false :=
        beq_eq_false_iff_ne.mpr (Ne.symm (of_decide_eq_true other))
      obtain ⟨key, subscription⟩ := listener
      rw [List.lookup_cons, different]
      exact ih
    · exact ih

theorem lookup_subscribe (bus : EventBus) (name : String) (filter : EventFilter) :
    (bus.subscribe name filter).listeners.lookup name = some ⟨filter, bus.sent⟩ := by
  let added : Subscription := ⟨filter, bus.sent⟩
  change List.lookup name ((bus.unsubscribe name).listeners ++ [(name, added)]) = some added
  rw [List.lookup_append, lookup_unsubscribe, Option.none_or, List.lookup_cons, beq_self_eq_true]

theorem lookup_moveTo (bus : EventBus) (name : String) (position : Nat) :
    (bus.moveTo name position).listeners.lookup name =
      (bus.listeners.lookup name).map fun subscription => { subscription with position } := by
  unfold moveTo
  induction bus.listeners with
  | nil => rfl
  | cons listener rest ih =>
    obtain ⟨key, subscription⟩ := listener
    by_cases here : key = name
    · subst here
      simp
    · have different : (name == key) = false := beq_eq_false_iff_ne.mpr (Ne.symm here)
      simp only [List.map_cons, here, if_false, List.lookup_cons, different]
      exact ih

theorem listeners_ne_nil {subscription : Subscription}
    (subscribed : bus.listeners.lookup name = some subscription) : bus.listeners ≠ [] := by
  intro none
  rw [none] at subscribed
  exact nomatch subscribed

/-! ## Following the bus -/

namespace Follows

theorem subscribe (sound : bus.kept.length ≤ bus.sent) (name : String) (filter : EventFilter) :
    (bus.subscribe name filter).Follows name filter [] where
  length_kept_le := sound
  subscribed := lookup_subscribe bus name filter
  kept := List.nil_suffix

theorem length_le (h : bus.Follows name filter waiting) : waiting.length ≤ bus.sent :=
  h.kept.length_le.trans h.length_kept_le

theorem unread (h : bus.Follows name filter waiting) :
    bus.unread ⟨filter, bus.sent - waiting.length⟩ = waiting := by
  have shorter := h.kept.length_le
  have sound := h.length_kept_le
  have place : bus.sent - waiting.length - (bus.sent - bus.kept.length) =
      bus.kept.length - waiting.length := by omega
  rw [EventBus.unread, place]
  exact (List.suffix_iff_eq_drop.mp h.kept).symm

theorem publishAll (h : bus.Follows name filter waiting)
    (keepsUp : (bus.publishAll events).KeepsUp name) :
    (bus.publishAll events).Follows name filter (waiting ++ events) := by
  obtain ⟨kept, sent⟩ := publishAll_of_listeners (listeners_ne_nil h.subscribed) events
  have subscribed : (bus.publishAll events).listeners.lookup name =
      some ⟨filter, bus.sent - waiting.length⟩ := by
    rw [listeners_publishAll, h.subscribed]
  have bound := kept.length_le
  have room := keepsUp _ subscribed
  have fits := h.length_le
  have sound := h.length_kept_le
  rw [List.length_append] at bound
  rw [sent] at room
  refine ⟨by omega, ?_, ?_⟩
  · rw [subscribed, sent, List.length_append, Nat.add_sub_add_right]
  · have all : waiting ++ events <:+ bus.kept ++ events := by
      obtain ⟨early, same⟩ := h.kept
      exact ⟨early, by rw [← List.append_assoc, same]⟩
    refine List.suffix_of_suffix_length_le all kept ?_
    rw [List.length_append]
    change bus.sent + events.length ≤ bus.sent - waiting.length + _ at room
    omega

theorem since_publishAll (h : bus.Follows name filter waiting)
    (keepsUp : (bus.publishAll events).KeepsUp name) :
    bus.since (bus.publishAll events) = events := by
  obtain ⟨_, sent⟩ := publishAll_of_listeners (listeners_ne_nil h.subscribed) events
  have last : events <:+ (bus.publishAll events).kept :=
    (List.suffix_append waiting events).trans (h.publishAll keepsUp).kept
  rw [since, sent, Nat.add_sub_cancel_left]
  exact (List.suffix_iff_eq_drop.mp last).symm

theorem moveTo (h : bus.Follows name filter waiting) (left : rest <:+ waiting) :
    (bus.moveTo name (bus.sent - rest.length)).Follows name filter rest where
  length_kept_le := h.length_kept_le
  subscribed := by
    rw [lookup_moveTo, h.subscribed]
    rfl
  kept := left.trans h.kept

/-- A reception skips what does not interest the listener, and leaves what comes after the event
that it finds. -/
theorem receive? (h : bus.Follows name filter waiting) :
    bus.receive? name =
      some (match waiting.dropWhile fun event => !filter.accepts event with
        | [] => (if bus.closed then .closed else .pending, bus.moveTo name bus.sent)
        | event :: rest => (.event event, bus.moveTo name (bus.sent - rest.length))) := by
  have unread := h.unread
  rw [EventBus.receive?, h.subscribed, Option.map_some]
  generalize bus.unread ⟨filter, bus.sent - waiting.length⟩ = found at unread ⊢
  subst unread
  rfl

end Follows

theorem since_eq_nil {before after : EventBus} (sent : after.sent = before.sent) :
    before.since after = [] := by
  simp [since, sent]

end BlockFetch.EventBus
