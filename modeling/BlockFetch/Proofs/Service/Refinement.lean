import BlockFetch.Proofs.Lifecycle.Places
import BlockFetch.Proofs.Service.Mirroring

/-!
# The engine refines its scheduler

Whatever an engine serves, and in whatever order, it says and answers what its scheduler does on
its own, given the ticks, the commands and the events of others at the times when the engine serves
them. The engine serves commands in the order in which they were sent, and reads events in the order
in which they came onto the bus, without a gap.
-/
namespace BlockFetch

variable {scene : Scene} {happening : Happening}

/-! ## Order -/

/-- What was served is the first part of all that came, and while the service goes on, what waits is
the rest. -/
structure InOrder {α : Type} (running : Bool) (served waiting all : List α) : Prop where
  first : served <+: all
  rest : running = true → served ++ waiting = all

/-- Items are served from the front of those that wait, and new ones join at the end. -/
theorem InOrder.step {α : Type} {before after : Bool}
    {served waiting all next later new : List α} (h : InOrder before served waiting all)
    (idle : before = false → waiting = []) (front : next <+: waiting)
    (on : after = true → before = true ∧ next ++ later = waiting ++ new) :
    InOrder after (served ++ next) later (all ++ new) where
  first := by
    cases running : before with
    | true =>
      rw [← h.rest running]
      exact ((List.prefix_append_right_inj served).mpr front).trans (List.prefix_append _ new)
    | false =>
      have none : next = [] := List.prefix_nil.mp (idle running ▸ front)
      rw [none, List.append_nil]
      exact h.first.trans (List.prefix_append all new)
  rest := by
    intro goesOn
    obtain ⟨running, same⟩ := on goesOn
    rw [List.append_assoc, same, ← List.append_assoc, h.rest running]

namespace Scene

/-- Commands are served, and events read, in the order in which they came. -/
structure KeepsOrder (scene : Scene) (happenings : List Happening) : Prop where
  commands : InOrder scene.engine.running scene.commands scene.engine.inbox
    (happenings.filterMap Happening.sent?)
  events : InOrder scene.engine.running scene.events (foreign scene.unread)
    (happenings.filterMap Happening.announced?)

theorem commands_happen (scene : Scene) (happening : Happening) :
    (scene.happen happening).commands =
      scene.commands ++ (scene.inputs happening).filterMap Input.command? := by
  rw [commands, happen, List.filterMap_append, List.filterMap_map]
  rfl

theorem events_happen (scene : Scene) (happening : Happening) :
    (scene.happen happening).events =
      scene.events ++ (scene.inputs happening).filterMap Input.event? := by
  rw [events, happen, List.filterMap_append, List.filterMap_map]
  rfl

/-- An event leaves the inbox alone, unless it stops the engine. -/
theorem inbox_happen_event {engine : Engine} (goesOn : (engine.happen .event).running = true) :
    engine.running = true ∧ (engine.happen .event).inbox = engine.inbox := by
  simp only [Engine.happen, Engine.serveEvent?] at goesOn ⊢
  split at goesOn
  · rename_i event bus hears
    simp only [Option.getD_some] at goesOn ⊢
    split at goesOn
    · cases goesOn
    · rename_i other
      rw [if_neg other]
      exact ⟨goesOn, rfl⟩
  · cases goesOn
  · exact ⟨goesOn, rfl⟩
  · exact ⟨goesOn, rfl⟩

/-- Commands leave the inbox of an engine that goes on at the front, and join it at the end. -/
theorem inbox_happen (goesOn : (scene.engine.happen happening).running = true) :
    scene.engine.running = true ∧
      (scene.inputs happening).filterMap Input.command? ++ (scene.engine.happen happening).inbox =
        scene.engine.inbox ++ happening.sent?.toList := by
  cases happening with
  | tick =>
    cases running : scene.engine.running with
    | false => simp [Engine.happen, Engine.serveTick, running] at goesOn
    | true =>
      simp only [Engine.happen, Engine.serveTick, inputs, running, if_true]
      exact ⟨trivial, (List.append_nil _).symm⟩
  | command =>
    cases waiting : scene.engine.inbox with
    | nil =>
      simp only [Engine.happen, Engine.serveCommand, inputs, waiting] at goesOn ⊢
      exact ⟨goesOn, rfl⟩
    | cons asked rest =>
      simp only [Engine.happen, Engine.serveCommand, inputs, waiting] at goesOn ⊢
      cases asked with
      | shutdown => cases goesOn
      | _ => exact ⟨goesOn, (List.append_nil _).symm⟩
  | event =>
    obtain ⟨running, same⟩ := inbox_happen_event goesOn
    have noCommands : (scene.inputs .event).filterMap Input.command? = [] := by
      rw [inputs, List.filterMap_map]
      exact List.filterMap_eq_nil_iff.mpr fun event _ => rfl
    rw [noCommands, same]
    exact ⟨running, (List.append_nil _).symm⟩
  | sent asked =>
    cases running : scene.engine.running with
    | false => simp [Engine.happen, Engine.send, running, Except.toOption] at goesOn
    | true =>
      simp only [Engine.happen, Engine.send, running, if_true]
      exact ⟨trivial, rfl⟩
  | abandoned => cases goesOn
  | announced event => exact ⟨goesOn, (List.append_nil _).symm⟩
  | transport change => exact ⟨goesOn, (List.append_nil _).symm⟩
  | elapsed millis => exact ⟨goesOn, (List.append_nil _).symm⟩
  | busClosed => exact ⟨goesOn, (List.append_nil _).symm⟩

theorem filterMap_command?_inputs_front (scene : Scene) (happening : Happening) :
    (scene.inputs happening).filterMap Input.command? <+: scene.engine.inbox := by
  cases happening with
  | command =>
    cases waiting : scene.engine.inbox with
    | nil => simp [inputs, waiting]
    | cons asked rest =>
      simp only [inputs, waiting]
      exact ⟨rest, rfl⟩
  | event =>
    rw [inputs, List.filterMap_map]
    exact List.filterMap_eq_nil_iff.mpr (fun event _ => rfl) ▸ List.nil_prefix
  | tick =>
    rw [inputs]
    split <;> exact List.nil_prefix
  | _ => exact List.nil_prefix

theorem filterMap_event?_inputs_event (scene : Scene) :
    (scene.inputs .event).filterMap Input.event? = foreign scene.taken := by
  rw [inputs, List.filterMap_map]
  exact List.filterMap_some

theorem filterMap_event?_inputs_front (scene : Scene) (happening : Happening) :
    (scene.inputs happening).filterMap Input.event? <+: foreign scene.unread := by
  cases happening with
  | event =>
    rw [filterMap_event?_inputs_event, ← taken_append_left, foreign_append]
    exact List.prefix_append _ _
  | command =>
    rw [inputs]
    cases scene.engine.inbox <;> exact List.nil_prefix
  | tick =>
    rw [inputs]
    split <;> exact List.nil_prefix
  | _ => exact List.nil_prefix

theorem foreign_news_engine (scene : Scene) (sender : happening.sender = .engine) :
    foreign ((scene.news happening).map (happening.sender, ·)) = [] := by
  rw [sender]
  exact foreign_engine _

/-- The events of others leave the subscription of an engine that goes on at the front, and join it
at the end. -/
theorem Mirrors.foreign_unread_happen {solo : Soloist} (h : scene.Mirrors solo)
    (keepsUp : (scene.engine.happen happening).bus.KeepsUp Engine.listenerName)
    (goesOn : (scene.engine.happen happening).running = true) :
    (scene.inputs happening).filterMap Input.event? ++ foreign (scene.happen happening).unread =
      foreign scene.unread ++ happening.announced?.toList := by
  rw [unread_happen_of_running goesOn, foreign_append]
  cases happening with
  | announced event =>
    rw [h.news_announced goesOn keepsUp]
    rfl
  | event =>
    rw [foreign_news_engine scene rfl, filterMap_event?_inputs_event, List.append_nil,
      ← foreign_append, taken_append_left]
    exact (List.append_nil _).symm
  | tick =>
    rw [foreign_news_engine scene rfl, inputs, (inbox_happen goesOn).1]
    rfl
  | command =>
    rw [foreign_news_engine scene rfl, inputs]
    cases scene.engine.inbox <;> rfl
  | _ =>
    rw [foreign_news_engine scene rfl]
    rfl

theorem KeepsOrder.happen {happenings : List Happening} (order : scene.KeepsOrder happenings)
    {solo : Soloist} (h : scene.Mirrors solo)
    (keepsUp : (scene.engine.happen happening).bus.KeepsUp Engine.listenerName) :
    (scene.happen happening).KeepsOrder (happenings ++ [happening]) where
  commands := by
    rw [List.filterMap_append, commands_happen]
    have new : [happening].filterMap Happening.sent? = happening.sent?.toList := by
      cases happening <;> rfl
    rw [new]
    exact order.commands.step (fun stopped => (h.stopped stopped).1)
      (filterMap_command?_inputs_front scene happening) inbox_happen
  events := by
    rw [List.filterMap_append, events_happen]
    have new : [happening].filterMap Happening.announced? = happening.announced?.toList := by
      cases happening <;> rfl
    rw [new]
    refine order.events.step ?_ (filterMap_event?_inputs_front scene happening) ?_
    · intro stopped
      rw [(h.stopped stopped).2.1]
      rfl
    · intro goesOn
      exact ⟨(inbox_happen goesOn).1, h.foreign_unread_happen keepsUp goesOn⟩

/-! ## Runs -/

theorem Mirrors.opened {scheduler : Scheduler} {bus : EventBus} (settled : scheduler.outbox = [])
    (used : bus.Used) (clock : Clock) :
    (Scene.opened scheduler bus clock).Mirrors ⟨scheduler, [], []⟩ where
  scheduler := rfl
  answers := rfl
  said := rfl
  settled := settled
  listens := fun _ => .subscribe used.length_kept_le Engine.listenerName Engine.topics
  own := fun _ member => nomatch member
  stopped := fun stopped => nomatch stopped

/-- An engine and a soloist that keep together go on to do so, and the order is kept. -/
theorem Mirrors.run {start : Soloist} {past happenings : List Happening}
    (h : scene.Mirrors (scene.script.foldl Soloist.serve start)) (order : scene.KeepsOrder past)
    (keepsUp : ∀ early, early <+: happenings →
      (scene.engine.serve early).bus.KeepsUp Engine.listenerName) :
    (scene.run happenings).Mirrors ((scene.run happenings).script.foldl Soloist.serve start) ∧
      (scene.run happenings).KeepsOrder (past ++ happenings) := by
  induction happenings generalizing scene past with
  | nil => exact ⟨h, (List.append_nil past).symm ▸ order⟩
  | cons happening rest ih =>
    have here := keepsUp [happening] (List.prefix_append [happening] rest)
    have next := h.happen here
    rw [← List.foldl_append] at next
    have later := ih next (order.happen h here) fun early front =>
      keepsUp (happening :: early) ((List.prefix_cons_inj happening).mpr front)
    rw [List.append_assoc] at later
    exact later

end Scene

/-- A peer delivers a block in one piece. The engine announces it in two, and hears both. -/
def echo : List Happening :=
  [.tick, .announced (.peerHandshaked Scheduler.soleSender), .event,
    .sent (.download (.plain [.zero])), .command, .tick,
    .announced (.liteBlockDelivered Scheduler.soleSender ⟨.zero, .zero, 2, 0⟩ 80),
    .event, .event, .event, .sent .report, .command]

end BlockFetch
