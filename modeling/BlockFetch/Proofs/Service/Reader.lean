import BlockFetch.EventBus
import Mathlib.Data.List.TakeWhile
import Mathlib.Data.List.Infix

/-!
# A reader of events

A reader hears events one after another, of which the latest are kept, as many as fit a window. When
it reads, it passes the events that it has still before it up to the first one that its filter lets
through, or all of them. It misses what is no longer kept and nothing else, and what it gets are
events that it heard, in their order and each once. After the end it gets what is left, and from
then on only learns that there is no more.
-/
namespace BlockFetch

def Reception.event? : Reception → Option NetworkEvent
  | .event said => some said
  | _ => none

def Reception.ofEnd (closed : Bool) : Reception :=
  if closed then .closed else .pending

theorem Reception.ofEnd_ne_event (closed : Bool) (event : NetworkEvent) :
    ofEnd closed ≠ .event event := by
  cases closed <;> nofun

inductive Sight where
  | news (event : NetworkEvent)
  | reading
  | closing
  deriving DecidableEq

structure Reader where
  /-- What was published since the reader began. -/
  heard : List NetworkEvent
  /-- How many of these events it has passed. -/
  place : Nat
  closed : Bool

/-- What a reading gives and passes, from one place to the next. -/
structure Reading (window : Nat) (filter : EventFilter) (heard : List NetworkEvent) (closed : Bool)
    (place next : Nat) (reception : Reception) : Prop where
  forward : place ≤ next
  within : next ≤ heard.length
  gives : ∀ event, reception = .event event →
    place < next ∧ heard[next - 1]? = some event ∧ filter.accepts event
  exhausts : reception.event? = none → next = heard.length ∧ reception = .ofEnd closed
  /-- An event is passed and not given exactly if a whole window of events has followed it. -/
  misses : ∀ index event, place ≤ index → index < next → heard[index]? = some event →
    filter.accepts event →
    (¬(reception = .event event ∧ next = index + 1) ↔ window ≤ heard.length - (index + 1))

namespace Reader

/-- What a reader gets that has some events before it, of which the last one is the latest of all,
and the place to which it gets. -/
def firstOf (closed : Bool) (latest : Nat) : List NetworkEvent → Reception × Nat
  | [] => (.ofEnd closed, latest)
  | event :: rest => (.event event, latest - rest.length)

theorem firstOf_add (closed : Bool) (more latest : Nat) {ahead : List NetworkEvent}
    (bound : ahead.length ≤ latest) :
    firstOf closed (more + latest) ahead =
      ((firstOf closed latest ahead).1, more + (firstOf closed latest ahead).2) := by
  cases ahead with
  | nil => rfl
  | cons event rest =>
    rw [List.length_cons] at bound
    simp only [firstOf, Prod.mk.injEq, true_and]
    omega

def initial : Reader := ⟨[], 0, false⟩

section

variable (window : Nat) (filter : EventFilter) (reader : Reader)

def front : Nat :=
  max reader.place (reader.heard.length - window)

/-- What a reader has still before it, as far as it is kept. -/
def ahead : List NetworkEvent :=
  reader.heard.drop (reader.front window)

/-- What a reader has still to get, unless more is lost. -/
def left : List NetworkEvent :=
  (reader.ahead window).filter filter.accepts

def finds : Reception × Nat :=
  firstOf reader.closed reader.heard.length
    ((reader.ahead window).dropWhile fun event => !filter.accepts event)

/-- Nothing is heard after the end. -/
def see : Sight → Reader
  | .news event =>
    if reader.closed then reader else { reader with heard := reader.heard ++ [event] }
  | .reading => { reader with place := (reader.finds window filter).2 }
  | .closing => { reader with closed := true }

def afterAll (sights : List Sight) : Reader :=
  sights.foldl (see window filter) reader

def receptions (reader : Reader) : List Sight → List Reception
  | [] => []
  | sight :: rest =>
    (if sight = .reading then [(reader.finds window filter).1] else []) ++
      (reader.see window filter sight).receptions rest

end

variable {window : Nat} {filter : EventFilter} {reader : Reader} {skipped rest : List NetworkEvent}
  {event : NetworkEvent} {index : Nat}

theorem see_news (window : Nat) (filter : EventFilter) (reader : Reader) (event : NetworkEvent) :
    reader.see window filter (.news event) =
      if reader.closed then reader else { reader with heard := reader.heard ++ [event] } :=
  rfl

theorem place_see (window : Nat) (filter : EventFilter) (reader : Reader) {sight : Sight}
    (other : sight ≠ .reading) : (reader.see window filter sight).place = reader.place := by
  cases sight with
  | news event =>
    rw [see_news]
    split <;> rfl
  | reading => exact absurd rfl other
  | closing => rfl

/-! ## One reading -/

theorem length_ahead (window : Nat) (reader : Reader) :
    (reader.ahead window).length = reader.heard.length - reader.front window :=
  List.length_drop ..

/-- What a reader has before it, up to what it finds and from there on. -/
theorem ahead_split (window : Nat) (filter : EventFilter) (reader : Reader) :
    ∃ skipped rest, (∀ event ∈ skipped, filter.accepts event = false) ∧
      (∀ event, rest.head? = some event → filter.accepts event) ∧
      reader.ahead window = skipped ++ rest ∧
      reader.finds window filter = firstOf reader.closed reader.heard.length rest := by
  refine ⟨_, _, ?_, ?_, List.takeWhile_append_dropWhile.symm, rfl⟩
  · intro event passed
    simpa using List.mem_takeWhile_imp passed
  · intro event found
    rw [← List.find?_eq_head?_dropWhile_not] at found
    exact List.find?_some found

theorem place_le_front (window : Nat) (reader : Reader) : reader.place ≤ reader.front window :=
  Nat.le_max_left ..

/-- What is kept and passed over is refused. -/
theorem refused_of_skipped (split : reader.ahead window = skipped ++ rest)
    (refused : ∀ event ∈ skipped, filter.accepts event = false) (kept : reader.front window ≤ index)
    (passed : index + rest.length < reader.heard.length)
    (found : reader.heard[index]? = some event) : filter.accepts event = false := by
  have lengths := congrArg List.length split
  rw [length_ahead, List.length_append] at lengths
  have here : (skipped ++ rest)[index - reader.front window]? = some event := by
    rw [← split, ahead, List.getElem?_drop, Nat.add_sub_cancel' kept, found]
  rw [List.getElem?_append_left (by omega)] at here
  exact refused event (List.mem_of_getElem? here)

/-- What is passed over and would be let through is lost. -/
theorem lost_of_skipped (split : reader.ahead window = skipped ++ rest)
    (refused : ∀ event ∈ skipped, filter.accepts event = false) (ahead : reader.place ≤ index)
    (passed : index + rest.length < reader.heard.length)
    (found : reader.heard[index]? = some event) (accepted : filter.accepts event) :
    window ≤ reader.heard.length - (index + 1) := by
  have lost : index < reader.front window := by
    by_contra kept
    rw [refused_of_skipped split refused (Nat.not_lt.mp kept) passed found] at accepted
    exact Bool.false_ne_true accepted
  unfold front at lost
  omega

/-- What is found stands right before the rest, and is kept. -/
theorem heard_of_found (split : reader.ahead window = skipped ++ event :: rest) :
    reader.front window < reader.heard.length - rest.length ∧
      reader.heard[reader.heard.length - rest.length - 1]? = some event := by
  have lengths := congrArg List.length split
  rw [length_ahead, List.length_append, List.length_cons] at lengths
  have place : reader.heard.length - rest.length - 1 = reader.front window + skipped.length := by
    omega
  refine ⟨by omega, ?_⟩
  rw [place, ← List.getElem?_drop, ← ahead, split, List.getElem?_append_right (Nat.le_refl _),
    Nat.sub_self]
  rfl

theorem reading (window : Nat) (filter : EventFilter)
    (place_le : reader.place ≤ reader.heard.length) :
    Reading window filter reader.heard reader.closed reader.place (reader.finds window filter).2
      (reader.finds window filter).1 := by
  obtain ⟨skipped, rest, refused, accepted, split, finds⟩ := ahead_split window filter reader
  rw [finds]
  cases rest with
  | nil =>
    refine ⟨place_le, Nat.le_refl _, ?_, fun _ => ⟨rfl, rfl⟩, ?_⟩
    · intro event given
      exact absurd given (Reception.ofEnd_ne_event _ _)
    · intro index event ahead passed found accepts
      have lost := lost_of_skipped split refused ahead passed found accepts
      exact iff_of_true (fun given => Reception.ofEnd_ne_event _ _ given.1) lost
  | cons said rest =>
    obtain ⟨before, here⟩ := heard_of_found split
    have behind := place_le_front window reader
    refine ⟨?_, Nat.sub_le .., ?_, nofun, ?_⟩
    · change reader.place ≤ reader.heard.length - rest.length
      omega
    · intro event given
      cases given
      exact ⟨behind.trans_lt before, here, accepted said rfl⟩
    · intro index event ahead passed found accepts
      change index < reader.heard.length - rest.length at passed
      change ¬(_ ∧ reader.heard.length - rest.length = index + 1) ↔ _
      -- The last event that is passed is the one that is given, and it is kept.
      by_cases last : reader.heard.length - rest.length = index + 1
      · rw [last, Nat.add_sub_cancel, found] at here
        cases here
        refine iff_of_false (fun lost => lost ⟨rfl, last⟩) ?_
        unfold front at before
        omega
      · have earlier : index + (said :: rest).length < reader.heard.length := by
          rw [List.length_cons]
          omega
        have lost := lost_of_skipped split refused ahead earlier found accepts
        exact iff_of_true (fun given => last given.2) lost

/-! ## What is left -/

/-- What is refused is not left to get. -/
theorem left_of_split (split : reader.ahead window = skipped ++ rest)
    (refused : ∀ event ∈ skipped, filter.accepts event = false) :
    reader.left window filter = rest.filter filter.accepts := by
  have none : skipped.filter filter.accepts = [] := by simpa using refused
  rw [left, split, List.filter_append, none, List.nil_append]

theorem finds_eq (window : Nat) (filter : EventFilter) (reader : Reader) :
    (reader.finds window filter).1 =
      ((reader.left window filter).map Reception.event).head?.getD (.ofEnd reader.closed) := by
  obtain ⟨skipped, rest, refused, accepted, split, finds⟩ := ahead_split window filter reader
  rw [finds, left_of_split split refused]
  cases rest with
  | nil => rfl
  | cons said rest =>
    rw [List.filter_cons_of_pos (accepted said rfl)]
    rfl

/-- After a reading the other events are left. -/
theorem left_see_reading (window : Nat) (filter : EventFilter) (reader : Reader) :
    (reader.see window filter .reading).left window filter = (reader.left window filter).tail := by
  obtain ⟨skipped, rest, refused, accepted, split, finds⟩ := ahead_split window filter reader
  rw [left_of_split split refused, left, ahead, front, see, finds]
  cases rest with
  | nil =>
    have beyond : reader.heard.length ≤ max reader.heard.length (reader.heard.length - window) :=
      Nat.le_max_left ..
    simp only [firstOf, List.drop_eq_nil_of_le beyond, List.filter_nil, List.tail_nil]
  | cons said rest =>
    -- What follows an event that is kept is kept, so the reader reads on from its place.
    obtain ⟨before, -⟩ := heard_of_found split
    have last : rest <:+ reader.heard := by
      have kept : skipped ++ said :: rest <:+ reader.heard := split ▸ List.drop_suffix ..
      exact ((List.suffix_cons said rest).trans (List.suffix_append skipped _)).trans kept
    have place : max (reader.heard.length - rest.length) (reader.heard.length - window) =
        reader.heard.length - rest.length := by
      unfold front at before
      omega
    simp only [firstOf, place, ← List.suffix_iff_eq_drop.mp last]
    rw [List.filter_cons_of_pos (accepted said rfl), List.tail_cons]

/-- After the end, a reader gets what is left, one event a reading, and then learns each time that
there is no more. -/
theorem receptions_of_closed (closed : reader.closed = true) (sights : List Sight) :
    reader.receptions window filter sights =
      ((reader.left window filter).map Reception.event).takeD (sights.count .reading) .closed := by
  induction sights generalizing reader with
  | nil => rfl
  | cons sight sights ih =>
    rw [receptions]
    cases sight with
    | news event =>
      have other : Sight.news event ≠ .reading := nofun
      have same : reader.see window filter (.news event) = reader := if_pos closed
      rw [same, ih closed, if_neg other, List.count_cons_of_ne other, List.nil_append]
    | closing =>
      have other : Sight.closing ≠ .reading := nofun
      have still : (reader.see window filter .closing).closed = true := rfl
      rw [ih still, if_neg other, List.count_cons_of_ne other]
      rfl
    | reading =>
      have still : (reader.see window filter .reading).closed = true := closed
      rw [ih still, left_see_reading, if_pos rfl, finds_eq, closed, List.count_cons_self,
        List.takeD_succ, List.map_tail]
      rfl

/-! ## Reading after reading -/

theorem place_le_see (window : Nat) (filter : EventFilter)
    (place_le : reader.place ≤ reader.heard.length) (sight : Sight) :
    (reader.see window filter sight).place ≤ (reader.see window filter sight).heard.length := by
  cases sight with
  | news event =>
    rw [see_news]
    split
    · exact place_le
    · exact place_le.trans (List.prefix_append ..).length_le
  | reading => exact (reading window filter place_le).within
  | closing => exact place_le

theorem heard_prefix_see (window : Nat) (filter : EventFilter) (reader : Reader) (sight : Sight) :
    reader.heard <+: (reader.see window filter sight).heard := by
  cases sight with
  | news event =>
    rw [see_news]
    split
    · exact List.prefix_refl _
    · exact List.prefix_append ..
  | reading => exact List.prefix_refl _
  | closing => exact List.prefix_refl _

theorem heard_prefix_afterAll (window : Nat) (filter : EventFilter) (reader : Reader)
    (sights : List Sight) : reader.heard <+: (reader.afterAll window filter sights).heard := by
  induction sights generalizing reader with
  | nil => exact List.prefix_refl _
  | cons sight sights ih => exact (heard_prefix_see window filter reader sight).trans (ih _)

end Reader

/-- What a reading gives comes before all that is given later. -/
theorem Reading.sublist {window place next : Nat} {filter : EventFilter} {closed : Bool}
    {reception : Reception} {heard later : List NetworkEvent}
    (reading : Reading window filter heard closed place next reception) (more : heard <+: later) :
    (reception.event?.toList ++ (later.drop next).filter filter.accepts).Sublist
      ((later.drop place).filter filter.accepts) := by
  cases reception with
  | event said =>
    obtain ⟨passed, here, accepted⟩ := reading.gives said rfl
    have found : later.drop (next - 1) = said :: later.drop next := by
      obtain ⟨rest, rfl⟩ := more
      obtain ⟨inside, same⟩ := List.getElem?_eq_some_iff.mp here
      have step : next - 1 + 1 = next := by omega
      have within : next - 1 < (heard ++ rest).length := by
        rw [List.length_append]
        omega
      rw [List.drop_eq_getElem_cons within, List.getElem_append_left inside, same, step]
    have kept := (List.drop_sublist_drop_left later (Nat.le_sub_one_of_lt passed)).filter
      filter.accepts
    rw [found, List.filter_cons_of_pos accepted] at kept
    exact kept
  | pending => exact (List.drop_sublist_drop_left later reading.forward).filter filter.accepts
  | closed => exact (List.drop_sublist_drop_left later reading.forward).filter filter.accepts

namespace Reader

variable {window : Nat} {filter : EventFilter} {reader : Reader}

/-- What a reader gets is heard from its place on and let through, each event once and in order. -/
theorem given_sublist (place_le : reader.place ≤ reader.heard.length) (sights : List Sight) :
    ((reader.receptions window filter sights).filterMap Reception.event?).Sublist
      (((reader.afterAll window filter sights).heard.drop reader.place).filter filter.accepts) := by
  induction sights generalizing reader with
  | nil => exact List.nil_sublist _
  | cons sight sights ih =>
    have later := ih (place_le_see window filter place_le sight)
    have more := heard_prefix_afterAll window filter (reader.see window filter sight) sights
    rw [receptions, List.filterMap_append]
    change List.Sublist _ (((afterAll _ _ (see _ _ reader sight) sights).heard.drop _).filter _)
    cases sight with
    | news event =>
      have other : Sight.news event ≠ .reading := nofun
      rw [place_see window filter reader other] at later
      exact later
    | closing => exact later
    | reading =>
      have first := (reading window filter place_le).sublist more
      refine List.Sublist.trans ?_ first
      have alone : List.filterMap Reception.event? [(reader.finds window filter).1] =
          (reader.finds window filter).1.event?.toList := by
        cases (reader.finds window filter).1 <;> rfl
      rw [if_pos rfl, alone]
      exact later.append_left _

end Reader
end BlockFetch
