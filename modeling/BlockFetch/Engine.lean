import BlockFetch.EventBus
import BlockFetch.Scheduler.Operation

/-!
# The engine

The engine runs a scheduler: it serves ticks, the commands of clients and the events of the bus one
at a time, and publishes what the scheduler asks for after each of them. Since it listens to the
bus, it also hears those of its own events that are on its topics. It stops when a client asks for
it, when the session stops, and when all clients or the bus are gone.
-/
namespace BlockFetch

/-- Why a client gets no answer. -/
inductive EngineError where
  | settings (cause : Settings.Error)
  | stream (cause : StreamTable.Error)
  | stopped
  | answerDropped
  deriving DecidableEq

def EngineError.message : EngineError → String
  | .settings cause => "Invalid configuration: " ++ cause.message
  | .stream cause => "Stream error: " ++ cause.message
  | .stopped => "Block download service stopped"
  | .answerDropped => "Block download service dropped the response"

/-- What a client asks of the engine. -/
inductive Command where
  | download (request : FetchRequest)
  | cancel (blocks : List BlockHash)
  | pause
  | resume
  | report
  | history (block : BlockHash)
  | shutdown
  deriving DecidableEq

/-- What a client gets back. -/
inductive Answer where
  | report (report : Report)
  | history (entries : List JournalEntry)
  deriving DecidableEq

/-- A scheduler at work. -/
structure Engine where
  scheduler : Scheduler
  bus : EventBus
  clock : Clock
  /-- Commands that wait to be served, oldest first. -/
  inbox : List Command
  /-- Answers that have been given, oldest first. -/
  answers : List Answer
  running : Bool

namespace Engine

def inboxCapacity : Nat := 1024

def listenerName : String := "scheduler"

def topics : EventFilter := ⟨[.session, .peers, .inventory, .delivery]⟩

def now (engine : Engine) : Timestamp := engine.clock.now

def flush (engine : Engine) : Engine :=
  { engine with
    bus := engine.bus.publishAll engine.scheduler.events
    scheduler := engine.scheduler.drained }

/-- The engine has stopped: it no longer listens, and waiting commands are dropped. -/
def stop (engine : Engine) : Engine :=
  { engine with
    bus := engine.bus.unsubscribe listenerName
    inbox := []
    running := false }

def operate (engine : Engine) (operation : Operation) : Engine :=
  { engine with scheduler := engine.scheduler.apply engine.now operation }.flush

def serveTick (engine : Engine) : Engine :=
  if engine.running then engine.operate .tick else engine

def perform (engine : Engine) : Command → Engine
  | .download request => engine.operate (.download request)
  | .cancel blocks => engine.operate (.cancel blocks)
  | .pause => engine.operate .pause
  | .resume => engine.operate .resume
  | .report =>
    let answers := engine.answers ++ [.report engine.scheduler.report]
    { engine.operate .report with answers }
  | .history block =>
    { engine with
      answers := engine.answers ++ [.history (engine.scheduler.journal.entriesOf block)] }
  | .shutdown => engine.flush.stop

def serveCommand (engine : Engine) : Engine :=
  match engine.inbox with
  | command :: rest => { engine with inbox := rest }.perform command
  | [] => engine

/-- Serves the next event of the bus, if there is one. -/
def serveEvent? (engine : Engine) : Option Engine :=
  match engine.bus.receive? listenerName with
  | some (.event event, bus) =>
    let engine := { engine with bus }.operate (.hear event)
    some (if event = .sessionStopped then engine.stop else engine)
  | some (.closed, bus) => some { engine with bus }.stop
  | some (.pending, _) => none
  | none => none

/-- Serves events until there are none, or until a number of them has been served. -/
def serveEvents : Nat → Engine → Engine
  | 0, engine => engine
  | count + 1, engine =>
    match engine.serveEvent? with
    | some engine => serveEvents count engine
    | none => engine

def unreadCount (engine : Engine) : Nat :=
  match engine.bus.listeners.lookup listenerName with
  | some subscription => (engine.bus.unread subscription).length
  | none => 0

/-- Works until nothing waits. An event can make the engine publish two more events that it hears
itself, and those call for nothing further. -/
def settle (engine : Engine) : Engine :=
  let engine := engine.inbox.foldl (fun engine _ => engine.serveCommand) engine
  serveEvents (3 * engine.unreadCount + 1) engine

/-- Starts an engine. The first tick comes at once. -/
def start (settings : Settings) (streams : StreamTable) (bus : EventBus) (clock : Clock) :
    Except Settings.Error Engine :=
  (Scheduler.create settings streams).map fun scheduler =>
    let engine : Engine := {
      scheduler, clock
      bus := bus.subscribe listenerName topics
      inbox := []
      answers := []
      running := true }
    engine.serveTick

/-! ## Clients -/

/-- Hands a command to the engine, if it still runs. -/
def send (engine : Engine) (command : Command) : Except EngineError Engine :=
  if engine.running then .ok { engine with inbox := engine.inbox ++ [command] }
  else .error .stopped

def request (engine : Engine) (command : Command) : Except EngineError Engine :=
  (engine.send command).map settle

/-- Hands a question to the engine, lets it work, and takes the answer. -/
def ask (engine : Engine) (command : Command) : Except EngineError (Answer × Engine) := do
  let engine ← engine.request command
  match engine.answers.getLast? with
  | some answer => return (answer, { engine with answers := [] })
  | none => throw .answerDropped

/-- All clients are gone. -/
def abandon (engine : Engine) : Engine :=
  engine.stop

/-! ## The world around -/

/-- Somebody publishes an event; the answer is how many listen. -/
def announce (engine : Engine) (event : NetworkEvent) : Nat × Engine :=
  (engine.bus.listenerCount, { engine with bus := engine.bus.publish event })

def transport (engine : Engine) (change : StreamTable → StreamTable) : Engine :=
  { engine with
    scheduler :=
      engine.scheduler.apply engine.now (.transport (change engine.scheduler.streams)) }

/-- Time passes, without a tick. -/
def advance (engine : Engine) (millis : Nat) : Engine :=
  { engine with clock := engine.clock.advance millis }

/-- The time of one tick interval passes, and a tick is served at its end. -/
def tickAfterInterval (engine : Engine) : Engine :=
  (engine.advance engine.scheduler.settings.tickInterval.toNat).serveTick.settle

end Engine
end BlockFetch
