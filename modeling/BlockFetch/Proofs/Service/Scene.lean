import BlockFetch.Engine
import BlockFetch.Proofs.Service.Subscription

/-!
# Engines and their surroundings

An engine serves ticks, commands and events in any order, while clients send commands, others
publish events, the transport moves, and time passes. A scene is an engine with a record of all this:
which of the events on its subscription the engine has published itself, what it was given to serve
by others, and what it has published. A soloist is a scheduler that is given the same without any bus.
-/
namespace BlockFetch

/-- What an engine does next, or what happens around it. -/
inductive Happening where
  /-- The engine serves a tick. -/
  | tick
  /-- The engine serves the next command. -/
  | command
  /-- The engine serves the next event of its subscription. -/
  | event
  | sent (command : Command)
  | announced (event : NetworkEvent)
  | transport (change : StreamTable → StreamTable)
  | elapsed (millis : Nat)
  /-- All clients are gone. -/
  | abandoned
  | busClosed

inductive Sender where
  | engine
  | world
  deriving DecidableEq

namespace Happening

def sender : Happening → Sender
  | announced _ => .world
  | _ => .engine

def sent? : Happening → Option Command
  | sent asked => some asked
  | _ => none

def announced? : Happening → Option NetworkEvent
  | announced said => some said
  | _ => none

end Happening

namespace Engine

def opened (scheduler : Scheduler) (bus : EventBus) (clock : Clock) : Engine where
  scheduler := scheduler
  bus := bus.subscribe listenerName topics
  clock := clock
  inbox := []
  answers := []
  running := true

def happen (engine : Engine) : Happening → Engine
  | .tick => engine.serveTick
  | .command => engine.serveCommand
  | .event => engine.serveEvent?.getD engine
  | .sent command => (engine.send command).toOption.getD engine
  | .announced event => (engine.announce event).2
  | .transport change => engine.transport change
  | .elapsed millis => engine.advance millis
  | .abandoned => engine.abandon
  | .busClosed => { engine with bus := engine.bus.close }

def serve (engine : Engine) (happenings : List Happening) : Engine :=
  happenings.foldl happen engine

/-- The first thing that a started engine serves is a tick. -/
theorem start_eq (settings : Settings) (streams : StreamTable) (bus : EventBus) (clock : Clock) :
    start settings streams bus clock =
      (Scheduler.create settings streams).map fun scheduler =>
        (opened scheduler bus clock).serve [.tick] := rfl

theorem serve_append (engine : Engine) (early late : List Happening) :
    engine.serve (early ++ late) = (engine.serve early).serve late :=
  List.foldl_append

theorem serve_events_of_none {engine : Engine} (nothing : engine.serveEvent? = none) (count : Nat) :
    engine.serve (List.replicate count .event) = engine := by
  induction count with
  | zero => rfl
  | succ count ih =>
    have still : engine.happen .event = engine := congrArg (Option.getD · engine) nothing
    rw [List.replicate_succ]
    exact (congrArg (serve · _) still).trans ih

theorem serveEvents_eq_serve (count : Nat) (engine : Engine) :
    serveEvents count engine = engine.serve (List.replicate count .event) := by
  induction count generalizing engine with
  | zero => rfl
  | succ count ih =>
    cases served : engine.serveEvent? with
    | some later =>
      have happens : engine.happen .event = later := congrArg (Option.getD · engine) served
      rw [serveEvents, served]
      exact (ih later).trans (congrArg (serve · _) happens).symm
    | none =>
      rw [serveEvents, served]
      exact (serve_events_of_none served (count + 1)).symm

/-- An engine that works until nothing waits serves commands and events. -/
theorem exists_settle_eq_serve (engine : Engine) :
    ∃ happenings, engine.settle = engine.serve happenings := by
  let commands := engine.inbox.map fun _ => Happening.command
  have served : engine.inbox.foldl (fun engine _ => engine.serveCommand) engine =
      engine.serve commands := by
    rw [serve, List.foldl_map]
    rfl
  refine ⟨commands ++ List.replicate (3 * (engine.serve commands).unreadCount + 1) .event, ?_⟩
  rw [serve_append, ← serveEvents_eq_serve, settle, served]

end Engine

/-! ## Soloists -/

inductive Input where
  | tick
  | command (command : Command)
  | event (event : NetworkEvent)
  | transport (change : StreamTable → StreamTable)

namespace Input

def command? : Input → Option Command
  | command asked => some asked
  | _ => none

def event? : Input → Option NetworkEvent
  | event heard => some heard
  | _ => none

end Input

/-- A scheduler on its own, with all that it has said and answered. -/
structure Soloist where
  scheduler : Scheduler
  said : List NetworkEvent
  answers : List Answer

namespace Soloist

def operate (solo : Soloist) (now : Timestamp) (operation : Operation) : Soloist :=
  let after := solo.scheduler.apply now operation
  { solo with scheduler := after.drained, said := solo.said ++ after.events }

def perform (solo : Soloist) (now : Timestamp) : Command → Soloist
  | .download request => solo.operate now (.download request)
  | .cancel blocks => solo.operate now (.cancel blocks)
  | .pause => solo.operate now .pause
  | .resume => solo.operate now .resume
  | .report =>
    { solo.operate now .report with
      answers := solo.answers ++ [.report solo.scheduler.report] }
  | .history block =>
    { solo with answers := solo.answers ++ [.history (solo.scheduler.journal.entriesOf block)] }
  | .shutdown => solo

def serve (solo : Soloist) (timed : Timestamp × Input) : Soloist :=
  match timed.2 with
  | .tick => solo.operate timed.1 .tick
  | .command command => solo.perform timed.1 command
  | .event event => solo.operate timed.1 (.hear event)
  | .transport change => solo.operate timed.1 (.transport (change solo.scheduler.streams))

end Soloist

/-! ## Scenes -/

/-- An engine with a record of what it was given to serve by others, and of what it published. -/
structure Scene where
  engine : Engine
  /-- The events that wait on the subscription of the engine, with those who published them. -/
  unread : List (Sender × NetworkEvent)
  script : List (Timestamp × Input)
  published : List NetworkEvent

namespace Scene

def opened (scheduler : Scheduler) (bus : EventBus) (clock : Clock) : Scene where
  engine := .opened scheduler bus clock
  unread := []
  script := []
  published := []

/-- Whether a reception of the engine passes over an event. -/
def passesOver (entry : Sender × NetworkEvent) : Bool :=
  !Engine.topics.accepts entry.2

/-- What the next reception of the engine takes off its subscription: the event that it finds, and
those that it passes over on the way. If it finds none, it takes nothing. -/
def taken (scene : Scene) : List (Sender × NetworkEvent) :=
  match scene.unread.dropWhile passesOver with
  | [] => []
  | found :: _ => scene.unread.takeWhile passesOver ++ [found]

def foreign (entries : List (Sender × NetworkEvent)) : List NetworkEvent :=
  (entries.filter fun entry => entry.1 = .world).map Prod.snd

def inputs (scene : Scene) : Happening → List Input
  | .tick => if scene.engine.running then [.tick] else []
  | .command => scene.engine.inbox.head?.toList.map .command
  | .event => (foreign scene.taken).map .event
  | .transport change => [.transport change]
  | _ => []

/-- What is still to be read when the engine has taken off what it serves. -/
def left (scene : Scene) : Happening → List (Sender × NetworkEvent)
  | .event => scene.unread.drop scene.taken.length
  | _ => scene.unread

def news (scene : Scene) (happening : Happening) : List NetworkEvent :=
  scene.engine.bus.since (scene.engine.happen happening).bus

def happen (scene : Scene) (happening : Happening) : Scene where
  engine := scene.engine.happen happening
  unread :=
    if (scene.engine.happen happening).running then
      scene.left happening ++ (scene.news happening).map (happening.sender, ·)
    else []
  script := scene.script ++ (scene.inputs happening).map (scene.engine.now, ·)
  published :=
    scene.published ++ if happening.sender = .engine then scene.news happening else []

def run (scene : Scene) (happenings : List Happening) : Scene :=
  happenings.foldl happen scene

def commands (scene : Scene) : List Command :=
  scene.script.filterMap fun timed => timed.2.command?

/-- The events published by others that the engine was given to serve, or passed over. -/
def events (scene : Scene) : List NetworkEvent :=
  scene.script.filterMap fun timed => timed.2.event?

end Scene
end BlockFetch
