import BlockFetch.Proofs.Elements
import BlockFetch.Proofs.Service.Scene

/-!
# Engines and soloists

An engine hears the events that it publishes itself. They change nothing, so it says and answers
what a scheduler does that is given only what comes from others. A reception of an event of its own
is a step of the engine at which the soloist stands still.
-/
namespace BlockFetch

/-! ## Events that change nothing -/

namespace Scheduler

theorem hear_of_isOwn {event : NetworkEvent} (own : event.isOwn = true) (s : Scheduler)
    (now : Timestamp) : s.hear event now = s := by
  cases event with
  | headerDelivered _ _ _ origin =>
    cases origin with
    | wire => exact nomatch own
    | scheduler => rfl
  | chunkDelivered _ _ _ origin =>
    cases origin with
    | wire => exact nomatch own
    | scheduler => rfl
  | blockRequested => rfl
  | keepAlive => rfl
  | blockDownloaded => rfl
  | blockDiscarded => rfl
  | _ => exact nomatch own

theorem hear_of_not_accepts {event : NetworkEvent} (offTopic : Engine.topics.accepts event = false)
    (s : Scheduler) (now : Timestamp) : s.hear event now = s := by
  cases event with
  | blockRequested => rfl
  | keepAlive => rfl
  | blockDownloaded => rfl
  | blockDiscarded => rfl
  | _ => exact nomatch offTopic

/-- All that a scheduler says in a step is of its own kinds. -/
theorem isOwn_of_mem_events {s : Scheduler} (settled : s.outbox = []) (now : Timestamp)
    (operation : Operation) : ∀ event ∈ (s.apply now operation).events, event.isOwn = true := by
  obtain ⟨said, told, own⟩ := (elements_apply s now operation).events
  have silent : s.events = [] := by rw [events, settled]; rfl
  rw [told, silent, List.nil_append]
  exact own

/-- Likewise in all runs. -/
theorem Reachable.isOwn_of_mem_events {s : Scheduler} (h : s.Reachable) :
    ∀ event ∈ s.events, event.isOwn = true := by
  induction h with
  | created usable =>
    rw [eq_initial_of_create usable]
    exact fun event member => nomatch member
  | @applied s now operation _ ih =>
    obtain ⟨said, told, own⟩ := (elements_apply s now operation).events
    intro event member
    rw [told, List.mem_append] at member
    exact member.elim (ih event) (own event)
  | drained => exact fun event member => nomatch member

theorem events_endSession (s : Scheduler) (now : Timestamp) :
    (s.endSession now).events = s.events := by
  obtain ⟨_, _, _, _, _, _, shape⟩ := foldl_abandon_eq s.inFlight now s
  unfold endSession
  simp only [shape]
  rfl

theorem drained_eq_self {s : Scheduler} (settled : s.outbox = []) : s.drained = s := by
  rw [drained, ← settled]

end Scheduler

/-! ## What is taken off the subscription -/

namespace Scene

variable {scene : Scene}

theorem foreign_append (first second : List (Sender × NetworkEvent)) :
    foreign (first ++ second) = foreign first ++ foreign second := by
  simp [foreign]

theorem foreign_engine (events : List NetworkEvent) :
    foreign (events.map (Sender.engine, ·)) = [] := by
  simp [foreign]

def received (scene : Scene) : Engine :=
  { scene.engine with
    bus := scene.engine.bus.moveTo Engine.listenerName
      (scene.engine.bus.sent - (scene.left .event).length) }

theorem taken_append_left (scene : Scene) : scene.taken ++ scene.left .event = scene.unread := by
  have front : scene.taken <+: scene.unread := by
    rw [taken]
    split
    · exact List.nil_prefix
    · rename_i found rest split
      refine ⟨rest, ?_⟩
      rw [List.append_assoc, List.singleton_append, ← split, List.takeWhile_append_dropWhile]
  obtain ⟨rest, same⟩ := front
  rw [left, ← same, List.drop_left]

theorem unread_happen_of_running {happening : Happening}
    (running : (scene.engine.happen happening).running = true) :
    (scene.happen happening).unread =
      scene.left happening ++ (scene.news happening).map (happening.sender, ·) :=
  if_pos running

theorem unread_happen_of_stopped {happening : Happening}
    (stopped : (scene.engine.happen happening).running = false) :
    (scene.happen happening).unread = [] :=
  if_neg (Bool.eq_false_iff.mp stopped)

end Scene

/-! ## Soloists -/

namespace Soloist

variable {solo : Soloist}

/-- A soloist stands still at an event that changes nothing. -/
theorem operate_hear_eq_self (settled : solo.scheduler.outbox = []) {event : NetworkEvent}
    {now : Timestamp} (inert : solo.scheduler.hear event now = solo.scheduler) :
    solo.operate now (.hear event) = solo := by
  have silent : solo.scheduler.events = [] := by rw [Scheduler.events, settled]; rfl
  simp only [operate, Scheduler.apply, inert, Scheduler.drained_eq_self settled, silent,
    List.append_nil]

theorem foldl_inert (settled : solo.scheduler.outbox = []) (now : Timestamp)
    {events : List NetworkEvent}
    (inert : ∀ event ∈ events, solo.scheduler.hear event now = solo.scheduler) :
    ((events.map .event).map (now, ·)).foldl serve solo = solo := by
  induction events with
  | nil => rfl
  | cons first rest ih =>
    rw [List.map_cons, List.map_cons, List.foldl_cons]
    have still : solo.serve (now, .event first) = solo :=
      operate_hear_eq_self settled (inert first List.mem_cons_self)
    rw [still]
    exact ih fun event member => inert event (List.mem_cons_of_mem _ member)

end Soloist

/-! ## One happening -/

/-- An engine and a soloist are in the same state and have said and answered the same, and the
record of what the engine has still to read is right. -/
structure Scene.Mirrors (scene : Scene) (solo : Soloist) : Prop where
  scheduler : solo.scheduler = scene.engine.scheduler
  answers : solo.answers = scene.engine.answers
  said : solo.said = scene.published
  settled : scene.engine.scheduler.outbox = []
  listens : scene.engine.running = true → scene.engine.bus.Follows Engine.listenerName
    Engine.topics (scene.unread.map Prod.snd)
  own : ∀ event, (Sender.engine, event) ∈ scene.unread → event.isOwn = true
  stopped : scene.engine.running = false → scene.engine.inbox = [] ∧ scene.unread = [] ∧
    scene.engine.bus.listeners.lookup Engine.listenerName = none

namespace Scene.Mirrors

variable {scene : Scene} {solo after : Soloist} {happening : Happening}

theorem operate (h : scene.Mirrors solo) {engine : Engine} {operation : Operation}
    {answers : List Answer}
    (becomes : scene.engine.happen happening = { engine.operate operation with answers })
    (sender : happening.sender = .engine) (scheduler : engine.scheduler = scene.engine.scheduler)
    (now : engine.now = scene.engine.now) (sent : engine.bus.sent = scene.engine.bus.sent)
    (running : engine.running = true)
    (follows : engine.bus.Follows Engine.listenerName Engine.topics
      ((scene.left happening).map Prod.snd))
    (unread : ∀ entry ∈ scene.left happening, entry ∈ scene.unread)
    (keepsUp : (scene.engine.happen happening).bus.KeepsUp Engine.listenerName) :
    (scene.happen happening).Mirrors
      { solo.operate scene.engine.now operation with answers } := by
  let events := (scene.engine.scheduler.apply scene.engine.now operation).events
  have bus : (scene.engine.happen happening).bus = engine.bus.publishAll events := by
    rw [becomes]
    change engine.bus.publishAll (engine.scheduler.apply engine.now operation).events = _
    rw [scheduler, now]
  have runs : (scene.engine.happen happening).running = true := by rw [becomes]; exact running
  rw [bus] at keepsUp
  have news : scene.news happening = events := by
    rw [news, bus, EventBus.since, ← sent]
    exact follows.since_publishAll keepsUp
  constructor
  case scheduler =>
    change (solo.scheduler.apply _ _).drained = (scene.engine.happen happening).scheduler
    rw [becomes, h.scheduler, ← scheduler, ← now]
    rfl
  case answers =>
    change answers = (scene.engine.happen happening).answers
    rw [becomes]
  case said =>
    change solo.said ++ (solo.scheduler.apply _ _).events = scene.published ++ _
    rw [if_pos sender, news, h.said, h.scheduler]
  case settled =>
    change (scene.engine.happen happening).scheduler.outbox = []
    rw [becomes]
    rfl
  case listens =>
    intro _
    change (scene.engine.happen happening).bus.Follows _ _ _
    rw [unread_happen_of_running runs, bus, news, List.map_append, List.map_map]
    have same : Prod.snd ∘ (happening.sender, ·) = (id : NetworkEvent → NetworkEvent) := rfl
    rw [same, List.map_id]
    exact follows.publishAll keepsUp
  case own =>
    intro event member
    rw [unread_happen_of_running runs, news, List.mem_append] at member
    rcases member with before | new
    · exact h.own event (unread _ before)
    · obtain ⟨said, inNews, same⟩ := List.mem_map.mp new
      obtain ⟨_, rfl⟩ := Prod.mk.inj same
      exact Scheduler.isOwn_of_mem_events h.settled _ _ said inNews
  case stopped =>
    intro stopped
    cases runs.symm.trans stopped

theorem idle (h : scene.Mirrors solo) {scheduler : Scheduler} {clock : Clock}
    {inbox : List Command} {answers : List Answer} {closed : Bool}
    (becomes : scene.engine.happen happening =
      { scene.engine with
        scheduler, clock, inbox, answers, bus := { scene.engine.bus with closed } })
    (now : after.scheduler = scheduler) (answered : after.answers = answers)
    (said : after.said = solo.said) (settled : scheduler.outbox = [])
    (empty : scene.engine.running = false → inbox = [])
    (left : scene.left happening = scene.unread) : (scene.happen happening).Mirrors after := by
  have bus : (scene.engine.happen happening).bus = { scene.engine.bus with closed } := by
    rw [becomes]
  have runs : (scene.engine.happen happening).running = scene.engine.running := by rw [becomes]
  have news : scene.news happening = [] := EventBus.since_eq_nil (by rw [bus])
  have unread : (scene.happen happening).unread = scene.unread := by
    cases running : scene.engine.running with
    | true =>
      rw [unread_happen_of_running (runs.trans running), news, left, List.map_nil, List.append_nil]
    | false =>
      rw [unread_happen_of_stopped (runs.trans running)]
      exact (h.stopped running).2.1.symm
  constructor
  case scheduler => exact now.trans (congrArg Engine.scheduler becomes).symm
  case answers => exact answered.trans (congrArg Engine.answers becomes).symm
  case said =>
    change after.said = scene.published ++ _
    rw [said, h.said, news, ite_self, List.append_nil]
  case settled => exact (congrArg (·.scheduler.outbox) becomes).trans settled
  case listens =>
    intro (running : (scene.engine.happen happening).running = true)
    have follows := h.listens (runs.symm.trans running)
    change (scene.engine.happen happening).bus.Follows _ _ _
    rw [unread, bus]
    exact ⟨follows.length_kept_le, follows.subscribed, follows.kept⟩
  case own => exact fun event member => h.own event (unread ▸ member)
  case stopped =>
    intro (stopped : (scene.engine.happen happening).running = false)
    have before := runs.symm.trans stopped
    have listeners := congrArg (·.listeners.lookup Engine.listenerName) bus
    exact ⟨(congrArg Engine.inbox becomes).trans (empty before),
      unread.trans (h.stopped before).2.1, listeners.trans (h.stopped before).2.2⟩

theorem stop (h : scene.Mirrors solo) {engine : Engine}
    (becomes : scene.engine.happen happening = engine.stop)
    (scheduler : after.scheduler = engine.scheduler) (answers : after.answers = engine.answers)
    (said : after.said = solo.said) (settled : engine.scheduler.outbox = [])
    (sent : engine.bus.sent = scene.engine.bus.sent) : (scene.happen happening).Mirrors after := by
  have news : scene.news happening = [] := by
    rw [news, becomes]
    exact EventBus.since_eq_nil sent
  have stopped : (scene.engine.happen happening).running = false := by rw [becomes]; rfl
  have unread := unread_happen_of_stopped stopped
  constructor
  case scheduler =>
    change _ = (scene.engine.happen happening).scheduler
    rw [becomes]
    exact scheduler
  case answers =>
    change _ = (scene.engine.happen happening).answers
    rw [becomes]
    exact answers
  case said =>
    change after.said = scene.published ++ _
    rw [said, h.said, news, ite_self, List.append_nil]
  case settled =>
    change (scene.engine.happen happening).scheduler.outbox = []
    rw [becomes]
    exact settled
  case listens => exact fun runs => nomatch stopped.symm.trans runs
  case own =>
    intro event member
    rw [unread] at member
    exact nomatch member
  case stopped =>
    intro _
    refine ⟨?_, unread, ?_⟩
    · change (scene.engine.happen happening).inbox = []
      rw [becomes]
      rfl
    · change (scene.engine.happen happening).bus.listeners.lookup _ = none
      rw [becomes]
      exact EventBus.lookup_unsubscribe engine.bus Engine.listenerName

theorem unmoved (h : scene.Mirrors solo) (same : scene.engine.happen happening = scene.engine)
    (left : scene.left happening = scene.unread) : (scene.happen happening).Mirrors solo :=
  h.idle same h.scheduler h.answers rfl h.settled (fun stopped => (h.stopped stopped).1) left

theorem operate_answers_eq (h : scene.Mirrors solo) (now : Timestamp) (operation : Operation) :
    { solo.operate now operation with answers := scene.engine.answers } =
      solo.operate now operation := by
  rw [← h.answers]
  rfl

/-! ### Ticks and commands -/

theorem tick (h : scene.Mirrors solo)
    (keepsUp : (scene.engine.happen .tick).bus.KeepsUp Engine.listenerName) :
    (scene.happen .tick).Mirrors
      (((scene.inputs .tick).map (scene.engine.now, ·)).foldl Soloist.serve solo) := by
  cases running : scene.engine.running with
  | false =>
    have nothing : scene.inputs .tick = [] := by simp [inputs, running]
    rw [nothing]
    exact h.unmoved (by simp [Engine.happen, Engine.serveTick, running]) rfl
  | true =>
    have ticks : scene.inputs .tick = [.tick] := by simp [inputs, running]
    rw [ticks]
    change Mirrors _ (solo.operate scene.engine.now .tick)
    rw [← h.operate_answers_eq]
    have becomes : scene.engine.happen .tick = scene.engine.operate .tick := by
      simp [Engine.happen, Engine.serveTick, running]
    exact h.operate becomes rfl rfl rfl rfl running (h.listens running) (fun _ => id) keepsUp

theorem command (h : scene.Mirrors solo)
    (keepsUp : (scene.engine.happen .command).bus.KeepsUp Engine.listenerName) :
    (scene.happen .command).Mirrors
      (((scene.inputs .command).map (scene.engine.now, ·)).foldl Soloist.serve solo) := by
  cases waiting : scene.engine.inbox with
  | nil =>
    have nothing : scene.inputs .command = [] := by simp [inputs, waiting]
    rw [nothing]
    exact h.unmoved (by simp [Engine.happen, Engine.serveCommand, waiting]) rfl
  | cons asked rest =>
    have running : scene.engine.running = true := by
      by_contra stopped
      have empty := (h.stopped (Bool.eq_false_of_not_eq_true stopped)).1
      exact nomatch waiting.symm.trans empty
    have asks : scene.inputs .command = [.command asked] := by simp [inputs, waiting]
    let engine : Engine := { scene.engine with inbox := rest }
    have becomes : scene.engine.happen .command = engine.perform asked := by
      simp [Engine.happen, Engine.serveCommand, waiting, engine]
    have operates (operation : Operation) (answers : List Answer)
        (performs : engine.perform asked = { engine.operate operation with answers }) :
        (scene.happen .command).Mirrors
          { solo.operate scene.engine.now operation with answers } :=
      h.operate (becomes.trans performs) rfl rfl rfl rfl running (h.listens running)
        (fun _ => id) keepsUp
    have obeys (operation : Operation)
        (performs : engine.perform asked = engine.operate operation) :
        (scene.happen .command).Mirrors (solo.operate scene.engine.now operation) := by
      rw [← h.operate_answers_eq]
      exact operates operation _ performs
    rw [asks]
    change Mirrors _ (solo.perform scene.engine.now asked)
    cases asked with
    | download request => exact obeys (.download request) rfl
    | cancel blocks => exact obeys (.cancel blocks) rfl
    | pause => exact obeys .pause rfl
    | resume => exact obeys .resume rfl
    | report =>
      have answer : engine.perform .report = { engine.operate .report with
          answers := solo.answers ++ [.report solo.scheduler.report] } := by
        rw [h.answers, h.scheduler]
        rfl
      exact operates .report _ answer
    | history block =>
      have answered : solo.answers ++ [.history (solo.scheduler.journal.entriesOf block)] =
          (engine.perform (.history block)).answers := by
        rw [h.answers, h.scheduler]
        rfl
      exact h.idle becomes h.scheduler answered rfl h.settled
        (fun stopped => nomatch running.symm.trans stopped) rfl
    | shutdown =>
      have silent : engine.scheduler.events = [] := by
        change scene.engine.scheduler.events = []
        rw [Scheduler.events, h.settled]
        rfl
      have flushed : engine.flush = engine := by
        rw [Engine.flush, silent, Scheduler.drained_eq_self h.settled]
        rfl
      have stops : scene.engine.happen .command = engine.stop := by
        rw [becomes, Engine.perform, flushed]
      exact h.stop stops h.scheduler h.answers rfl h.settled rfl

/-! ### Events -/

/-- The interesting events that the engine has still to read. -/
theorem dropWhile_unread (scene : Scene) :
    ((scene.unread.map Prod.snd).dropWhile fun event => !Engine.topics.accepts event) =
      (scene.unread.dropWhile passesOver).map Prod.snd :=
  List.dropWhile_map

variable {found : Sender × NetworkEvent} {rest : List (Sender × NetworkEvent)}

theorem taken_of_finds (finds : scene.unread.dropWhile passesOver = found :: rest) :
    scene.taken = scene.unread.takeWhile passesOver ++ [found] := by
  rw [taken, finds]

theorem left_of_finds (finds : scene.unread.dropWhile passesOver = found :: rest) :
    scene.left .event = rest := by
  have parts : scene.taken ++ scene.left .event = scene.taken ++ rest := by
    rw [taken_append_left, taken_of_finds finds, List.append_assoc, List.singleton_append, ← finds,
      List.takeWhile_append_dropWhile]
  exact List.append_cancel_left parts

theorem mem_unread_of_finds (finds : scene.unread.dropWhile passesOver = found :: rest)
    {entry : Sender × NetworkEvent} (member : entry ∈ found :: rest) : entry ∈ scene.unread :=
  (List.dropWhile_sublist _).subset (finds ▸ member)

/-- Among all that the engine takes off its subscription, only the event that it finds can make a
soloist move. One that the engine published itself makes neither of them move. -/
theorem foldl_inputs_of_finds (h : scene.Mirrors solo)
    (finds : scene.unread.dropWhile passesOver = found :: rest) :
    ((scene.inputs .event).map (scene.engine.now, ·)).foldl Soloist.serve solo =
      solo.operate scene.engine.now (.hear found.2) := by
  have settled : solo.scheduler.outbox = [] := by rw [h.scheduler, h.settled]
  have passed : ∀ event ∈ foreign (scene.unread.takeWhile passesOver),
      solo.scheduler.hear event scene.engine.now = solo.scheduler := by
    intro event member
    obtain ⟨entry, among, rfl⟩ := List.mem_map.mp member
    have offTopic : passesOver entry = true := by
      have all : (scene.unread.takeWhile passesOver).all passesOver = true := List.all_takeWhile
      exact List.all_eq_true.mp all entry (List.mem_filter.mp among).1
    exact Scheduler.hear_of_not_accepts (by simpa [passesOver] using offTopic) _ _
  rw [inputs, taken_of_finds finds, foreign_append, List.map_append, List.map_append,
    List.foldl_append, Soloist.foldl_inert settled scene.engine.now passed]
  obtain ⟨sender, event⟩ := found
  cases sender with
  | world => rfl
  | engine =>
    have own := h.own event (mem_unread_of_finds finds List.mem_cons_self)
    exact (Soloist.operate_hear_eq_self settled (Scheduler.hear_of_isOwn own _ _)).symm

theorem happen_event_of_finds (h : scene.Mirrors solo) (running : scene.engine.running = true)
    (finds : scene.unread.dropWhile passesOver = found :: rest) :
    scene.engine.happen .event =
      if found.2 = .sessionStopped then (scene.received.operate (.hear found.2)).stop
      else scene.received.operate (.hear found.2) := by
  have hears : scene.engine.bus.receive? Engine.listenerName =
      some (.event found.2, scene.received.bus) := by
    rw [(h.listens running).receive?, dropWhile_unread, finds, received, left_of_finds finds]
    simp only [List.map_cons, List.length_map]
  simp only [Engine.happen, Engine.serveEvent?, hears, Option.getD_some]
  rfl

theorem follows_received (h : scene.Mirrors solo) (running : scene.engine.running = true)
    (finds : scene.unread.dropWhile passesOver = found :: rest) :
    scene.received.bus.Follows Engine.listenerName Engine.topics
      ((scene.left .event).map Prod.snd) := by
  have rests : (scene.left .event).map Prod.snd <:+ scene.unread.map Prod.snd := by
    rw [left_of_finds finds]
    refine List.IsSuffix.map Prod.snd ?_
    exact (List.suffix_cons found rest).trans (finds ▸ List.dropWhile_suffix _)
  have moved := (h.listens running).moveTo rests
  rwa [List.length_map] at moved

theorem event (h : scene.Mirrors solo)
    (keepsUp : (scene.engine.happen .event).bus.KeepsUp Engine.listenerName) :
    (scene.happen .event).Mirrors
      (((scene.inputs .event).map (scene.engine.now, ·)).foldl Soloist.serve solo) := by
  cases running : scene.engine.running with
  | false =>
    obtain ⟨_, empty, gone⟩ := h.stopped running
    have nothing : scene.inputs .event = [] := by simp [inputs, taken, foreign, empty]
    rw [nothing]
    refine h.unmoved ?_ (by simp [left, empty])
    simp [Engine.happen, Engine.serveEvent?, EventBus.receive?, gone]
  | true =>
    cases finds : scene.unread.dropWhile passesOver with
    | nil =>
      have takes : scene.taken = [] := by rw [taken, finds]
      have nothing : scene.inputs .event = [] := by simp [inputs, takes, foreign]
      have hears := (h.listens running).receive?
      rw [dropWhile_unread, finds, List.map_nil] at hears
      rw [nothing]
      cases closed : scene.engine.bus.closed with
      | false =>
        refine h.unmoved ?_ (by simp [left, takes])
        simp [Engine.happen, Engine.serveEvent?, hears, closed]
      | true =>
        let bus := scene.engine.bus.moveTo Engine.listenerName scene.engine.bus.sent
        have stops : scene.engine.happen .event = { scene.engine with bus }.stop := by
          simp [Engine.happen, Engine.serveEvent?, hears, closed, bus]
        exact h.stop stops h.scheduler h.answers rfl h.settled rfl
    | cons found rest =>
      have becomes := h.happen_event_of_finds running finds
      rw [h.foldl_inputs_of_finds finds]
      by_cases ends : found.2 = .sessionStopped
      · rw [if_pos ends] at becomes
        have silent (s : Scheduler) (settled : s.outbox = []) :
            (s.apply scene.engine.now (.hear found.2)).events = [] := by
          rw [ends]
          change (s.endSession scene.engine.now).events = []
          rw [Scheduler.events_endSession, Scheduler.events, settled]
          rfl
        refine h.stop becomes ?_ h.answers ?_ rfl ?_
        · change (solo.scheduler.apply _ _).drained = (scene.engine.scheduler.apply _ _).drained
          rw [h.scheduler]
          rfl
        · change solo.said ++ _ = _
          rw [silent solo.scheduler (by rw [h.scheduler, h.settled]), List.append_nil]
        · change (scene.received.bus.publishAll
            (scene.engine.scheduler.apply scene.engine.now (.hear found.2)).events).sent = _
          rw [silent scene.engine.scheduler h.settled]
          rfl
      · rw [if_neg ends] at becomes
        rw [← h.operate_answers_eq]
        have follows := h.follows_received running finds
        refine h.operate becomes rfl rfl rfl rfl running follows ?_ keepsUp
        intro entry member
        rw [left_of_finds finds] at member
        exact mem_unread_of_finds finds (List.mem_cons_of_mem _ member)

/-! ### All happenings -/

theorem news_announced (h : scene.Mirrors solo) {event : NetworkEvent}
    (running : scene.engine.running = true)
    (keepsUp : (scene.engine.happen (.announced event)).bus.KeepsUp Engine.listenerName) :
    scene.news (.announced event) = [event] := by
  have keepsUp : (scene.engine.bus.publishAll [event]).KeepsUp Engine.listenerName := keepsUp
  exact (h.listens running).since_publishAll keepsUp

theorem announced (h : scene.Mirrors solo) {event : NetworkEvent}
    (keepsUp : (scene.engine.happen (.announced event)).bus.KeepsUp Engine.listenerName) :
    (scene.happen (.announced event)).Mirrors solo := by
  constructor
  case scheduler => exact h.scheduler
  case answers => exact h.answers
  case said => exact h.said.trans (List.append_nil _).symm
  case settled => exact h.settled
  case listens =>
    intro (running : (scene.engine.happen (.announced event)).running = true)
    rw [unread_happen_of_running running, h.news_announced running keepsUp, List.map_append]
    have keepsUp : (scene.engine.bus.publishAll [event]).KeepsUp Engine.listenerName := keepsUp
    exact (h.listens running).publishAll keepsUp
  case own =>
    intro own member
    cases running : (scene.engine.happen (.announced event)).running with
    | true =>
      rw [unread_happen_of_running running, List.mem_append] at member
      rcases member with before | new
      · exact h.own own before
      · obtain ⟨_, _, same⟩ := List.mem_map.mp new
        exact nomatch (Prod.mk.inj same).1
    | false =>
      rw [unread_happen_of_stopped running] at member
      exact nomatch member
  case stopped =>
    intro (stopped : (scene.engine.happen (.announced event)).running = false)
    obtain ⟨inbox, _, gone⟩ := h.stopped stopped
    exact ⟨inbox, unread_happen_of_stopped stopped,
      (congrArg (List.lookup _) (EventBus.listeners_publish _ _)).trans gone⟩

/-- An engine and a soloist keep together, whatever happens. -/
theorem happen (h : scene.Mirrors solo)
    (keepsUp : (scene.engine.happen happening).bus.KeepsUp Engine.listenerName) :
    (scene.happen happening).Mirrors
      (((scene.inputs happening).map (scene.engine.now, ·)).foldl Soloist.serve solo) := by
  cases happening with
  | tick => exact h.tick keepsUp
  | command => exact h.command keepsUp
  | event => exact h.event keepsUp
  | announced event => exact h.announced keepsUp
  | abandoned => exact h.stop rfl h.scheduler h.answers rfl h.settled rfl
  | sent asked =>
    cases running : scene.engine.running with
    | false => exact h.unmoved (by simp [Engine.happen, Engine.send, running, Except.toOption]) rfl
    | true =>
      have becomes : scene.engine.happen (.sent asked) =
          { scene.engine with inbox := scene.engine.inbox ++ [asked] } := by
        simp [Engine.happen, Engine.send, running, Except.toOption]
      exact h.idle becomes h.scheduler h.answers rfl h.settled
        (fun stopped => nomatch running.symm.trans stopped) rfl
  | transport change =>
    have settled : (scene.engine.happen (.transport change)).scheduler.outbox = [] := h.settled
    have silent (streams : StreamTable) :
        (solo.scheduler.apply scene.engine.now (.transport streams)).events = [] := by
      change solo.scheduler.events = []
      rw [h.scheduler, Scheduler.events, h.settled]
      rfl
    refine h.idle rfl ?_ h.answers ?_ settled (fun stopped => (h.stopped stopped).1) rfl
    · refine Eq.trans ?_ (Scheduler.drained_eq_self settled)
      change (solo.scheduler.apply _ _).drained = _
      rw [h.scheduler]
    · change solo.said ++ _ = solo.said
      rw [silent, List.append_nil]
  | elapsed millis =>
    exact h.idle rfl h.scheduler h.answers rfl h.settled (fun stopped => (h.stopped stopped).1) rfl
  | busClosed =>
    exact h.idle rfl h.scheduler h.answers rfl h.settled (fun stopped => (h.stopped stopped).1) rfl

end Scene.Mirrors
end BlockFetch
