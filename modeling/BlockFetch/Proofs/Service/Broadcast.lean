import BlockFetch.Proofs.Service.Reception
import Mathlib.Data.List.DropRight
import Mathlib.Data.List.Nodup

/-!
# Delivery on the bus

A listener is told of the events that are published while it listens and that its filter lets
through, in their order and each once. It misses such an event exactly if so many events follow
before it reads on that the event is no longer kept. When the bus is closed, it gets what is kept
and then learns, as often as it asks, that there is no more.

What a listener finds depends only on what it sees: the events published since it began to listen,
its own readings and the end of the bus. So a subscription and a stream that see the same find the
same.
-/
namespace BlockFetch

/-! ## What happens to a listener -/

/-- The events that are published in a run, before the bus is closed. -/
def news (steps : List BusStep) : List NetworkEvent :=
  (steps.takeWhile (· ≠ .close)).filterMap BusStep.event?

def BusStep.sight? (name : String) : BusStep → Option Sight
  | .publish event => some (.news event)
  | .close => some .closing
  | .receive other | .poll other => if other = name then some .reading else none
  | _ => none

theorem BusStep.sight?_eq_some_iff {name : String} {step : BusStep} {sight : Sight} :
    step.sight? name = some sight ↔
      (∃ event, step = .publish event ∧ sight = .news event) ∨
      (step.reads name = true ∧ sight = .reading) ∨ (step = .close ∧ sight = .closing) := by
  cases step <;> simp [sight?, reads, eq_comm]

theorem BusStep.sight?_eq_reading_iff {name : String} {step : BusStep} :
    step.sight? name = some .reading ↔ step.reads name = true := by
  simp [sight?_eq_some_iff]

/-- Without news and without an end nothing is published. -/
theorem BusStep.event?_eq_none {name : String} {step : BusStep}
    (seen : step.sight? name = none ∨ step.sight? name = some .reading) :
    step ≠ .close ∧ step.event? = none := by
  cases step with
  | publish | close => exact absurd seen nofun
  | _ => exact ⟨nofun, rfl⟩

/-- What the listener of a name sees of a run. -/
def sights (name : String) (steps : List BusStep) : List Sight :=
  steps.filterMap (BusStep.sight? name)

/-- A listener comes about in a run, while the bus is open, and lives on to the end of the run. -/
structure Lifetime (name : String) (filter : EventFilter) (early : List BusStep) (start : BusStep)
    (life : List BusStep) : Prop where
  begins : start.Begins name filter
  unclosed : .close ∉ early
  lasts : ∀ step ∈ life, step.settles name = false

def Listening (name : String) (steps : List BusStep) : Prop :=
  ∃ filter early start life, steps = early ++ start :: life ∧
    Lifetime name filter early start life

namespace EventBus

def receptions (bus : EventBus) (name : String) : List BusStep → List Reception
  | [] => []
  | step :: rest =>
    (if step.reads name then (bus.perform step).1.reception?.toList else []) ++
      (bus.perform step).2.receptions name rest

/-! ## What is kept -/

theorem capacity_publish (bus : EventBus) (event : NetworkEvent) :
    (bus.publish event).capacity = bus.capacity := by
  unfold publish
  dsimp only
  split <;> rfl

theorem window_publish (bus : EventBus) (event : NetworkEvent) :
    (bus.publish event).window = bus.window := by
  rw [broadcast.room, broadcast.room, capacity_publish]

/-- The bus was sent some events and keeps the last ones. -/
structure Carries (bus : EventBus) (events : List NetworkEvent) : Prop where
  sent : bus.sent = events.length
  kept : bus.kept = events.rtake bus.window

/-- Of some last events and one more, the last ones are those of all events. -/
theorem rtake_rtake_concat {α : Type} (count : Nat) (items : List α) (item : α) :
    (items.rtake count ++ [item]).rtake count = (items ++ [item]).rtake count := by
  have inside : items.rtake count ++ [item] = (items ++ [item]).drop (items.length - count) :=
    (List.drop_append_of_le_length (Nat.sub_le ..)).symm
  rw [inside, List.rtake, List.drop_drop, List.rtake, List.length_drop, List.length_append,
    List.length_singleton]
  congr 1
  omega

namespace Carries

variable {bus : EventBus} {events : List NetworkEvent}

theorem publish (carries : bus.Carries events) (heard : bus.listeners ≠ []) (event : NetworkEvent) :
    (bus.publish event).Carries (events ++ [event]) := by
  obtain ⟨kept, sent⟩ := broadcast.keeps bus event heard
  constructor
  · rw [sent, carries.sent, List.length_append, List.length_singleton]
  · rw [window_publish, ← rtake_rtake_concat, kept, carries.kept]
    rfl

theorem length_kept (carries : bus.Carries events) :
    bus.kept.length = min bus.window events.length := by
  rw [carries.kept, List.rtake, List.length_drop]
  omega

theorem oldest (carries : bus.Carries events) : bus.oldest = events.length - bus.window := by
  rw [EventBus.oldest, carries.sent, carries.length_kept]
  omega

/-- From a place on, the events are kept that follow the oldest one. -/
theorem drop_kept (carries : bus.Carries events) (place : Nat) :
    bus.kept.drop (place - bus.oldest) = events.drop (max place (events.length - bus.window)) := by
  rw [carries.oldest, carries.kept, List.rtake, List.drop_drop]
  congr 1
  omega

theorem perform (carries : bus.Carries events) (step : BusStep) :
    ∃ more, (bus.perform step).2.Carries more := by
  generalize result : (bus.perform step).2 = next
  have done := result ▸ bus.performed step
  cases done with
  | idle | begun | ended | moved | closed => exact ⟨events, carries.sent, carries.kept⟩
  | published event =>
    by_cases heard : bus.listeners = []
    · obtain ⟨kept, sent⟩ := broadcast.drops bus event heard
      exact ⟨events, sent.trans carries.sent, by rw [kept, carries.kept, window_publish]⟩
    · exact ⟨_, carries.publish heard event⟩

theorem after (carries : bus.Carries events) (steps : List BusStep) :
    ∃ more, (bus.after steps).Carries more := by
  induction steps generalizing bus events with
  | nil => exact ⟨events, carries⟩
  | cons step steps ih =>
    obtain ⟨more, carries⟩ := carries.perform step
    exact ih carries

end Carries

theorem capacity_perform (bus : EventBus) (step : BusStep) :
    (bus.perform step).2.capacity = bus.capacity := by
  generalize result : (bus.perform step).2 = next
  have done := result ▸ bus.performed step
  cases done with
  | idle | begun | ended | moved | closed => rfl
  | published event => exact capacity_publish bus event

theorem capacity_after (bus : EventBus) (steps : List BusStep) :
    (bus.after steps).capacity = bus.capacity := by
  induction steps generalizing bus with
  | nil => rfl
  | cons step steps ih => exact (ih _).trans (capacity_perform bus step)

theorem closed_publish (bus : EventBus) (event : NetworkEvent) :
    (bus.publish event).closed = bus.closed := by
  unfold publish
  dsimp only
  split <;> rfl

theorem closed_perform (bus : EventBus) {step : BusStep} (other : step ≠ .close) :
    (bus.perform step).2.closed = bus.closed := by
  generalize result : (bus.perform step).2 = next
  have done := result ▸ bus.performed step
  cases done with
  | idle | begun | ended | moved => rfl
  | published event => exact closed_publish bus event
  | closed => exact absurd rfl other

theorem closed_after (bus : EventBus) {steps : List BusStep} (others : .close ∉ steps) :
    (bus.after steps).closed = bus.closed := by
  induction steps generalizing bus with
  | nil => rfl
  | cons step steps ih =>
    rw [List.mem_cons, not_or] at others
    exact (ih _ others.2).trans (closed_perform bus (Ne.symm others.1))

/-! ## Serving a reader -/

/-- A bus does for a listener what a reader does that heard what was published since then. -/
structure Serves (bus : EventBus) (name : String) (filter : EventFilter) (window : Nat)
    (older : List NetworkEvent) (reader : Reader) : Prop where
  window_eq : bus.window = window
  carries : bus.Carries (older ++ reader.heard)
  listens : bus.listeners.lookup name = some ⟨filter, older.length + reader.place⟩
  place_le : reader.place ≤ reader.heard.length
  closed_eq : bus.closed = reader.closed

namespace Serves

variable {bus : EventBus} {name : String} {filter : EventFilter} {window : Nat}
  {older : List NetworkEvent} {reader : Reader}

/-- What the listener has before it on the bus, the reader has before it. -/
theorem ahead (serves : bus.Serves name filter window older reader) :
    bus.kept.drop (older.length + reader.place - bus.oldest) = reader.ahead window := by
  have place : max (older.length + reader.place) ((older ++ reader.heard).length - window) =
      older.length + reader.front window := by
    rw [List.length_append, Reader.front]
    omega
  rw [serves.carries.drop_kept, serves.window_eq, place, List.drop_length_add_append]
  rfl

theorem sent (serves : bus.Serves name filter window older reader) :
    bus.sent = older.length + reader.heard.length := by
  rw [serves.carries.sent, List.length_append]

theorem sound (serves : bus.Serves name filter window older reader) :
    bus.kept.length ≤ bus.sent := by
  rw [serves.carries.length_kept, serves.carries.sent]
  exact Nat.min_le_right ..

theorem position_le (serves : bus.Serves name filter window older reader) :
    older.length + reader.place ≤ bus.sent := by
  rw [serves.sent]
  exact Nat.add_le_add_left serves.place_le _

theorem receiveFrom (serves : bus.Serves name filter window older reader) :
    bus.receiveFrom filter (older.length + reader.place) =
      ((reader.finds window filter).1, older.length + (reader.finds window filter).2) := by
  have bound : ((reader.ahead window).dropWhile fun event => !filter.accepts event).length ≤
      reader.heard.length :=
    (List.dropWhile_suffix _).length_le.trans ((List.drop_suffix ..).length_le)
  rw [receiveFrom_eq serves.sound serves.position_le, serves.ahead, serves.closed_eq, serves.sent,
    Reader.firstOf_add _ _ _ bound]
  rfl

theorem receives (serves : bus.Serves name filter window older reader) :
    bus.perform (.receive name) =
      (.received (reader.finds window filter).1,
        bus.moveTo name (older.length + (reader.finds window filter).2)) := by
  rw [perform_receive_of_lookup serves.listens, serves.receiveFrom]

/-- A listener finds what the reader finds. -/
theorem reads (serves : bus.Serves name filter window older reader) {step : BusStep}
    (reads : step.reads name = true) :
    (bus.perform step).1.reception? = some (reader.finds window filter).1 ∧
      (bus.perform step).2 =
        bus.moveTo name (older.length + (reader.finds window filter).2) := by
  cases step with
  | receive other =>
    cases of_decide_eq_true reads
    rw [serves.receives]
    exact ⟨rfl, rfl⟩
  | poll other =>
    cases of_decide_eq_true reads
    rw [(perform_poll bus _).1, (perform_poll bus _).2, serves.receives]
    exact ⟨rfl, rfl⟩
  | _ => exact nomatch reads

/-! ### Steps -/

/-- What other listeners do is nothing to the reader. -/
theorem of_lookup {listeners : List (String × Subscription)}
    (serves : bus.Serves name filter window older reader)
    (same : listeners.lookup name = bus.listeners.lookup name) :
    { bus with listeners }.Serves name filter window older reader where
  window_eq := serves.window_eq
  carries := ⟨serves.carries.sent, serves.carries.kept⟩
  listens := same.trans serves.listens
  place_le := serves.place_le
  closed_eq := serves.closed_eq

theorem unseen (serves : bus.Serves name filter window older reader) {step : BusStep}
    (settles : step.settles name = false) (unseen : step.sight? name = none) :
    (bus.perform step).2.Serves name filter window older reader := by
  generalize result : (bus.perform step).2 = next
  have done := result ▸ bus.performed step
  cases done with
  | idle => exact serves
  | @begun _ other filter begins =>
    have different : other ≠ name := of_decide_eq_false (begins.settles name ▸ settles)
    exact serves.of_lookup (lookup_subscribe_of_ne bus filter different)
  | ended other =>
    have different : other ≠ name := of_decide_eq_false settles
    exact serves.of_lookup (lookup_unsubscribe_of_ne bus different)
  | published event => exact nomatch unseen
  | @moved _ other reads place =>
    have different : other ≠ name := by
      rintro rfl
      rw [BusStep.sight?_eq_reading_iff.mpr reads] at unseen
      exact nomatch unseen
    exact serves.of_lookup (lookup_moveTo_of_ne bus place different)
  | closed => exact nomatch unseen

theorem publish (serves : bus.Serves name filter window older reader) (event : NetworkEvent) :
    (bus.publish event).Serves name filter window older
      { reader with heard := reader.heard ++ [event] } where
  window_eq := (window_publish bus event).trans serves.window_eq
  carries := by
    rw [← List.append_assoc]
    exact serves.carries.publish (listeners_ne_nil serves.listens) event
  listens := (listeners_publish bus event).symm ▸ serves.listens
  place_le := serves.place_le.trans (List.prefix_append ..).length_le
  closed_eq := (closed_publish bus event).trans serves.closed_eq

theorem moveTo (serves : bus.Serves name filter window older reader) {place : Nat}
    (place_le : place ≤ reader.heard.length) :
    (bus.moveTo name (older.length + place)).Serves name filter window older
      { reader with place } where
  window_eq := serves.window_eq
  carries := ⟨serves.carries.sent, serves.carries.kept⟩
  listens := by rw [lookup_moveTo, serves.listens, Option.map_some]
  place_le := place_le
  closed_eq := serves.closed_eq

theorem seen (serves : bus.Serves name filter window older reader) {step : BusStep} {sight : Sight}
    (seen : step.sight? name = some sight) :
    (bus.perform step).2.Serves name filter window older (reader.see window filter sight) := by
  obtain ⟨event, rfl, rfl⟩ | ⟨reads, rfl⟩ | ⟨rfl, rfl⟩ := BusStep.sight?_eq_some_iff.mp seen
  · rw [perform, Reader.see_news, ← serves.closed_eq]
    split
    · exact serves
    · exact serves.closed_eq ▸ serves.publish event
  · rw [(serves.reads reads).2]
    exact serves.moveTo (reader.reading window filter serves.place_le).within
  · exact ⟨serves.window_eq, ⟨serves.carries.sent, serves.carries.kept⟩, serves.listens,
      serves.place_le, rfl⟩

/-! ### Runs -/

theorem after (serves : bus.Serves name filter window older reader) {life : List BusStep}
    (lasts : ∀ step ∈ life, step.settles name = false) :
    (bus.after life).Serves name filter window older
      (reader.afterAll window filter (sights name life)) := by
  induction life generalizing bus reader with
  | nil => exact serves
  | cons step life ih =>
    obtain ⟨first, others⟩ := List.forall_mem_cons.mp lasts
    cases seen : step.sight? name with
    | none =>
      rw [sights, List.filterMap_cons_none seen]
      exact ih (serves.unseen first seen) others
    | some sight =>
      rw [sights, List.filterMap_cons_some seen]
      exact ih (serves.seen seen) others

/-- What a listener finds in a run is what a reader finds that sees the same. -/
theorem receptions (serves : bus.Serves name filter window older reader) {life : List BusStep}
    (lasts : ∀ step ∈ life, step.settles name = false) :
    bus.receptions name life = reader.receptions window filter (sights name life) := by
  induction life generalizing bus reader with
  | nil => rfl
  | cons step life ih =>
    obtain ⟨first, others⟩ := List.forall_mem_cons.mp lasts
    rw [EventBus.receptions]
    cases seen : step.sight? name with
    | none =>
      have idle : step.reads name ≠ true := by
        intro reads
        rw [BusStep.sight?_eq_reading_iff.mpr reads] at seen
        exact nomatch seen
      rw [if_neg idle, sights, List.filterMap_cons_none seen, List.nil_append]
      exact ih (serves.unseen first seen) others
    | some sight =>
      have same : step.reads name = true ↔ sight = .reading := by
        rw [← BusStep.sight?_eq_reading_iff, seen, Option.some_inj]
      rw [sights, List.filterMap_cons_some seen, Reader.receptions, ih (serves.seen seen) others]
      by_cases reads : step.reads name = true
      · rw [if_pos reads, if_pos (same.mp reads), (serves.reads reads).1]
        rfl
      · rw [if_neg reads, if_neg (mt same.mpr reads)]
        rfl

end Serves

theorem news_cons (step : BusStep) (steps : List BusStep) :
    news (step :: steps) = if step = .close then [] else step.event?.toList ++ news steps := by
  unfold news
  rw [List.takeWhile_cons]
  by_cases close : step = .close
  · simp [close]
  · cases said : step.event? <;> simp [close, said]

/-- A reader hears what is published until the end. -/
theorem heard_afterAll (window : Nat) (name : String) (filter : EventFilter) (reader : Reader)
    (life : List BusStep) :
    (reader.afterAll window filter (sights name life)).heard =
      if reader.closed then reader.heard else reader.heard ++ news life := by
  induction life generalizing reader with
  | nil => simp [sights, news, Reader.afterAll]
  | cons step life ih =>
    rw [news_cons]
    cases seen : step.sight? name with
    | none =>
      have silent := BusStep.event?_eq_none (.inl seen)
      rw [sights, List.filterMap_cons_none seen, if_neg silent.1, silent.2]
      exact ih reader
    | some sight =>
      rw [sights, List.filterMap_cons_some seen]
      refine (ih (reader.see window filter sight)).trans ?_
      obtain ⟨event, rfl, rfl⟩ | ⟨reads, rfl⟩ | ⟨rfl, rfl⟩ := BusStep.sight?_eq_some_iff.mp seen
      · rw [Reader.see_news]
        cases closed : reader.closed with
        | true => simp [closed]
        | false => simp [BusStep.event?]
      · have silent := BusStep.event?_eq_none (.inr seen)
        rw [if_neg silent.1, silent.2]
        rfl
      · simp [Reader.see]

theorem after_concat (bus : EventBus) (steps : List BusStep) (step : BusStep) :
    bus.after (steps ++ [step]) = ((bus.after steps).perform step).2 :=
  List.foldl_concat ..

theorem perform_begins {bus : EventBus} {name : String} {filter : EventFilter} {step : BusStep}
    (unclosed : bus.closed = false)
    (begins : step.Begins name filter) : (bus.perform step).2 = bus.subscribe name filter := by
  rcases begins with rfl | rfl <;> simp only [perform, unclosed, openStream] <;> rfl

/-- From the moment at which it begins to listen, a listener is served. -/
theorem serves_of_lifetime {name : String} {filter : EventFilter} {early life : List BusStep}
    {start : BusStep} (capacity : Nat) (lifetime : Lifetime name filter early start life) :
    ∃ older, older.length = ((create capacity).after (early ++ [start])).sent ∧
      ((create capacity).after (early ++ [start])).Serves name filter capacity.nextPowerOfTwo older
        Reader.initial := by
  have nothing : (create capacity).Carries [] := ⟨rfl, (List.rtake_nil _).symm⟩
  obtain ⟨older, carries⟩ := nothing.after early
  have unclosed := closed_after (create capacity) lifetime.unclosed
  rw [after_concat, perform_begins unclosed lifetime.begins]
  refine ⟨older, carries.sent.symm, ?_, ?_, ?_, Nat.le_refl _, unclosed⟩
  · exact (broadcast.room _).trans
      (congrArg Nat.nextPowerOfTwo (capacity_after (create capacity) early))
  · rw [Reader.initial, List.append_nil]
    exact ⟨carries.sent, carries.kept⟩
  · rw [lookup_subscribe, carries.sent]
    rfl

/-! ## Who listens -/

def names (bus : EventBus) : List String :=
  bus.listeners.map Prod.fst

theorem names_unsubscribe (bus : EventBus) (name : String) :
    (bus.unsubscribe name).names = bus.names.filter (· ≠ name) := by
  rw [names, names, List.filter_map]
  rfl

theorem names_subscribe (bus : EventBus) (name : String) (filter : EventFilter) :
    (bus.subscribe name filter).names = bus.names.filter (· ≠ name) ++ [name] := by
  rw [← names_unsubscribe]
  exact List.map_append

theorem names_publish (bus : EventBus) (event : NetworkEvent) :
    (bus.publish event).names = bus.names :=
  congrArg (List.map Prod.fst) (listeners_publish bus event)

theorem names_moveTo (bus : EventBus) (name : String) (place : Nat) :
    (bus.moveTo name place).names = bus.names := by
  unfold names moveTo
  rw [List.map_map]
  refine List.map_congr_left fun listener _ => ?_
  rw [Function.comp_apply]
  split
  · exact ‹listener.1 = name›.symm
  · rfl

theorem nodup_names_perform {bus : EventBus} (distinct : bus.names.Nodup) (step : BusStep) :
    (bus.perform step).2.names.Nodup := by
  generalize result : (bus.perform step).2 = next
  have done := result ▸ bus.performed step
  cases done with
  | idle | closed => exact distinct
  | @begun _ other filter =>
    rw [names_subscribe]
    refine List.nodup_append.mpr ⟨distinct.filter _, List.nodup_singleton other, ?_⟩
    intro name kept last added
    rw [List.mem_singleton.mp added]
    exact of_decide_eq_true (List.mem_filter.mp kept).2
  | ended other => exact names_unsubscribe bus other ▸ distinct.filter _
  | published event => exact names_publish bus event ▸ distinct
  | @moved _ other _ place => exact names_moveTo bus other place ▸ distinct

/-- Who listens began to or listened before and has not ended. -/
theorem mem_names_perform {bus : EventBus} (unclosed : bus.closed = false) (step : BusStep)
    (name : String) :
    name ∈ (bus.perform step).2.names ↔
      (∃ filter, step.Begins name filter) ∨ step.settles name = false ∧ name ∈ bus.names := by
  generalize result : (bus.perform step).2 = next
  have done := result ▸ bus.performed step
  have quiet (same : next.names = bus.names) (settles : step.settles name = false) :
      name ∈ next.names ↔
        (∃ filter, step.Begins name filter) ∨ step.settles name = false ∧ name ∈ bus.names := by
    have begins : ¬∃ filter, step.Begins name filter := by
      rintro ⟨filter, begins⟩
      exact of_decide_eq_false ((begins.settles name).symm.trans settles) rfl
    rw [same, or_iff_right begins, and_iff_right settles]
  cases done with
  | idle why =>
    rcases why with closed | ⟨other, reads⟩
    · exact absurd (unclosed.symm.trans closed) Bool.false_ne_true
    · exact quiet rfl (BusStep.settles_of_reads reads name)
  | @begun _ other filter begins =>
    have starts : (∃ filter, step.Begins name filter) ↔ name = other := by
      rcases begins with rfl | rfl <;> simp [BusStep.Begins, eq_comm]
    rw [starts, begins.settles, names_subscribe, List.mem_append, List.mem_filter,
      List.mem_singleton, decide_eq_true_eq, decide_eq_false_iff_not]
    exact or_comm.trans (or_congr_right (and_comm.trans (and_congr_left fun _ => ne_comm)))
  | ended other =>
    have begins : ¬∃ filter, (BusStep.unsubscribe other).Begins name filter := nofun
    rw [names_unsubscribe, or_iff_right begins, List.mem_filter, decide_eq_true_eq, and_comm,
      ne_comm]
    exact and_congr_left fun _ => decide_eq_false_iff_not.symm
  | published event => exact quiet (names_publish bus event) rfl
  | @moved _ other reads place =>
    exact quiet (names_moveTo bus other place) (BusStep.settles_of_reads reads name)
  | closed => exact quiet rfl rfl

theorem listening_concat {name : String} {steps : List BusStep} (unclosed : .close ∉ steps)
    (step : BusStep) :
    Listening name (steps ++ [step]) ↔
      (∃ filter, step.Begins name filter) ∨ step.settles name = false ∧ Listening name steps := by
  constructor
  · rintro ⟨filter, early, start, life, split, lifetime⟩
    rcases List.eq_nil_or_concat' life with rfl | ⟨life, last, rfl⟩
    · obtain ⟨-, same⟩ := List.append_inj' split rfl
      cases same
      exact .inl ⟨filter, lifetime.begins⟩
    · have regroup : steps ++ [step] = (early ++ start :: life) ++ [last] := by simpa using split
      obtain ⟨rfl, same⟩ := List.append_inj' regroup rfl
      cases same
      have lasts := List.forall_mem_append.mp lifetime.lasts
      refine .inr ⟨lasts.2 _ (List.mem_singleton_self _), filter, early, start, life, rfl, ?_⟩
      exact ⟨lifetime.begins, lifetime.unclosed, lasts.1⟩
  · rintro (⟨filter, begins⟩ | ⟨settles, filter, early, start, life, rfl, lifetime⟩)
    · exact ⟨filter, steps, step, [], rfl, begins, unclosed, nofun⟩
    · refine ⟨filter, early, start, life ++ [step], by simp, lifetime.begins, lifetime.unclosed, ?_⟩
      exact List.forall_mem_append.mpr ⟨lifetime.lasts, List.forall_mem_singleton.mpr settles⟩

theorem names_after (capacity : Nat) {steps : List BusStep} (unclosed : .close ∉ steps) :
    ((create capacity).after steps).names.Nodup ∧
      ∀ name, name ∈ ((create capacity).after steps).names ↔ Listening name steps := by
  induction steps using List.reverseRecOn with
  | nil =>
    refine ⟨List.nodup_nil, fun name => iff_of_false nofun ?_⟩
    rintro ⟨_, early, _, _, split, _⟩
    exact List.append_ne_nil_of_right_ne_nil early (List.cons_ne_nil _ _) split.symm
  | append_singleton steps step ih =>
    have others : .close ∉ steps := fun found => unclosed (List.mem_append_left _ found)
    obtain ⟨distinct, listed⟩ := ih others
    have unclosed := closed_after (create capacity) others
    rw [after_concat]
    refine ⟨nodup_names_perform distinct step, fun name => ?_⟩
    rw [mem_names_perform unclosed, listening_concat others, listed]

/-! ## Delivery -/

/-- How many events have been sent that the listener of a name has passed or never heard. -/
def placeOf (bus : EventBus) (name : String) : Nat :=
  (bus.listeners.lookup name).elim 0 Subscription.position

/-- What a listener gets of its life, from the bus on which it just began to listen. Its place is
counted from there. -/
structure Delivers (bus : EventBus) (name : String) (filter : EventFilter) (window : Nat)
    (life : List BusStep) : Prop where
  /-- It is told of what is published since then and let through, in order and once. -/
  subsequence : ((bus.receptions name life).filterMap Reception.event?).Sublist
    ((news life).filter filter.accepts)
  begins : bus.placeOf name = bus.sent
  /-- Only a reading gets it further. -/
  waits : ∀ step : BusStep, step.settles name = false → step.reads name = false →
    ((bus.after life).perform step).2.placeOf name = (bus.after life).placeOf name
  /-- A reading goes on from where the one before it got, and misses what a whole window of events
  has followed. -/
  reads : ∀ step : BusStep, step.reads name = true → ∃ reception,
    ((bus.after life).perform step).1.reception? = some reception ∧
      Reading window filter (news life) (bus.after life).closed
        ((bus.after life).placeOf name - bus.sent)
        (((bus.after life).perform step).2.placeOf name - bus.sent) reception
  /-- After the end it gets what is kept, and from then on learns that there is no more. -/
  ends : ∀ rest : List BusStep, (∀ step ∈ rest, step.settles name = false) →
    (bus.after (life ++ [.close])).receptions name rest =
      ((((news life).drop (max ((bus.after life).placeOf name - bus.sent)
        ((news life).length - window))).filter filter.accepts).map Reception.event).takeD
          (rest.countP (BusStep.reads name)) .closed
  /-- To ask for one event after another comes to the same as to look at all that is kept. -/
  direct : (bus.after life).receiveNext? name = (bus.after life).receive? name

theorem Serves.placeOf {bus : EventBus} {name : String} {filter : EventFilter} {window : Nat}
    {older : List NetworkEvent} {reader : Reader}
    (serves : bus.Serves name filter window older reader) :
    bus.placeOf name = older.length + reader.place := by
  rw [EventBus.placeOf, serves.listens]
  rfl

theorem count_sights (name : String) (steps : List BusStep) :
    (sights name steps).count .reading = steps.countP (BusStep.reads name) := by
  rw [sights, List.count, List.countP_filterMap]
  refine List.countP_congr fun step _ => ?_
  cases step with
  | receive other | poll other =>
    by_cases same : other = name <;> simp [same, BusStep.sight?, BusStep.reads]
  | _ => simp [BusStep.sight?, BusStep.reads]

theorem delivers_of_lifetime {name : String} {filter : EventFilter} {early life : List BusStep}
    {start : BusStep} (capacity : Nat) (lifetime : Lifetime name filter early start life) :
    ((create capacity).after (early ++ [start])).Delivers name filter capacity.nextPowerOfTwo
      life := by
  obtain ⟨older, sent, serves⟩ := serves_of_lifetime capacity lifetime
  generalize (create capacity).after (early ++ [start]) = bus at sent serves
  generalize capacity.nextPowerOfTwo = window at serves
  have later := serves.after lifetime.lasts
  have heard := heard_afterAll window name filter .initial life
  rw [Reader.initial, if_neg Bool.false_ne_true, List.nil_append] at heard
  change (Reader.initial.afterAll window filter (sights name life)).heard = news life at heard
  generalize reached : Reader.initial.afterAll window filter (sights name life) = reader at *
  refine ⟨?_, ?_, ?_, ?_, ?_, ?_⟩
  · rw [serves.receptions lifetime.lasts, ← heard, ← reached]
    exact Reader.initial.given_sublist (Nat.le_refl 0) _
  · exact serves.placeOf.trans sent
  · intro step settles idle
    rw [later.placeOf]
    cases seen : step.sight? name with
    | none => exact (later.unseen settles seen).placeOf
    | some sight =>
      have other : sight ≠ .reading := by
        rintro rfl
        exact Bool.false_ne_true (idle.symm.trans (BusStep.sight?_eq_reading_iff.mp seen))
      rw [(later.seen seen).placeOf, Reader.place_see window filter reader other]
  · intro step reads
    obtain ⟨answer, moved⟩ := later.reads reads
    have reading := reader.reading window filter later.place_le
    have place := (later.moveTo reading.within).placeOf
    refine ⟨_, answer, ?_⟩
    rw [moved, place, later.placeOf, later.closed_eq, ← sent, Nat.add_sub_cancel_left,
      Nat.add_sub_cancel_left, ← heard]
    exact reading
  · intro rest lasts
    have closed : (bus.after (life ++ [.close])).Serves name filter window older
        (reader.see window filter .closing) := by
      rw [after_concat]
      exact later.seen rfl
    rw [closed.receptions lasts, Reader.receptions_of_closed rfl, count_sights, later.placeOf,
      ← sent, Nat.add_sub_cancel_left, ← heard]
    rfl
  · exact receiveNext?_eq_receive? later.sound later.listens later.position_le

/-- Each listener is delivered what it has to be, listeners that see the same find the same, and an
event reaches as many as listen. -/
theorem delivery (capacity : Nat) :
    (∀ name filter early start life, Lifetime name filter early start life →
      ((create capacity).after (early ++ [start])).Delivers name filter capacity.nextPowerOfTwo
        life) ∧
    (∀ filter name early start life name' early' start' life',
      Lifetime name filter early start life → Lifetime name' filter early' start' life' →
      sights name life = sights name' life' →
      ((create capacity).after (early ++ [start])).receptions name life =
        ((create capacity).after (early' ++ [start'])).receptions name' life') ∧
    ∀ early event, .close ∉ early → ∃ live : List String, live.Nodup ∧
      (∀ name, name ∈ live ↔ Listening name early) ∧
      (((create capacity).after early).perform (.publish event)).1 = .reached live.length := by
  refine ⟨fun name filter early start life lifetime => delivers_of_lifetime capacity lifetime,
    ?_, ?_⟩
  · intro filter name early start life name' early' start' life' lifetime lifetime' same
    obtain ⟨_, -, serves⟩ := serves_of_lifetime capacity lifetime
    obtain ⟨_, -, serves'⟩ := serves_of_lifetime capacity lifetime'
    rw [serves.receptions lifetime.lasts, serves'.receptions lifetime'.lasts, same]
  · intro early event unclosed
    obtain ⟨distinct, listed⟩ := names_after capacity unclosed
    refine ⟨_, distinct, listed, ?_⟩
    rw [perform, closed_after (create capacity) unclosed, names, List.length_map]
    rfl

/-- The life of a stream on a bus of two places: after a reading, three events follow, of which the
first is lost and the second is refused. -/
def lossyLife : List BusStep :=
  [.subscribe "reader" ⟨[.session]⟩, .publish (.enoughPeers 1), .poll "stream", .receive "reader",
    .publish (.enoughPeers 2), .publish (.blockDiscarded default "stale"), .publish (.enoughPeers 3)]

theorem delivery_overwritten :
    Lifetime "stream" ⟨[.session]⟩ [] (.openStream "stream" ⟨[.session]⟩) lossyLife ∧
    Lifetime "reader" ⟨[.session]⟩ [.openStream "stream" ⟨[.session]⟩]
      (.subscribe "reader" ⟨[.session]⟩) lossyLife.tail ∧
    sights "stream" lossyLife = sights "reader" lossyLife.tail ∧
    ((create 2).after ([] ++ [.openStream "stream" ⟨[.session]⟩])).receptions "stream" lossyLife =
      ((create 2).after ([.openStream "stream" ⟨[.session]⟩] ++
        [.subscribe "reader" ⟨[.session]⟩])).receptions "reader" lossyLife.tail ∧
    (((create 2).after ([] ++ [.openStream "stream" ⟨[.session]⟩])).after
      (lossyLife ++ [.close])).receptions "stream" [.poll "stream", .poll "stream"] =
        [.event (.enoughPeers 3), .closed] ∧
    .close ∉ .openStream "stream" ⟨[.session]⟩ :: lossyLife ∧
    ∃ live : List String, live.Nodup ∧
      (∀ name, name ∈ live ↔ Listening name (.openStream "stream" ⟨[.session]⟩ :: lossyLife)) ∧
      (((create 2).after (.openStream "stream" ⟨[.session]⟩ :: lossyLife)).perform
        (.publish .sessionStopped)).1 = .reached live.length := by
  have stream : Lifetime "stream" ⟨[.session]⟩ [] (.openStream "stream" ⟨[.session]⟩) lossyLife :=
    ⟨.inr rfl, nofun, by decide⟩
  have reader : Lifetime "reader" ⟨[.session]⟩ [.openStream "stream" ⟨[.session]⟩]
      (.subscribe "reader" ⟨[.session]⟩) lossyLife.tail :=
    ⟨.inl rfl, by decide, by decide⟩
  have same : sights "stream" lossyLife = sights "reader" lossyLife.tail := by decide
  have unclosed : .close ∉ .openStream "stream" ⟨[.session]⟩ :: lossyLife := by decide
  have ends := ((delivery 2).1 _ _ _ _ _ stream).ends [.poll "stream", .poll "stream"] (by decide)
  refine ⟨stream, reader, same, (delivery 2).2.1 _ _ _ _ _ _ _ _ _ stream reader same,
    ends.trans ?_, unclosed, (delivery 2).2.2 _ _ unclosed⟩
  decide +kernel

end EventBus
end BlockFetch
