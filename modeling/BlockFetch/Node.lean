import BlockFetch.Engine
import BlockFetch.NodeSettings
import BlockFetch.OutcomeLog

/-!
# The node

A node is an engine with a bus of its own, on which a log of outcomes listens. Peers come and go on
the bus; the node announces the session, asks for the initial blocks, and ends the session when it
is shut down.
-/
namespace BlockFetch

/-- An engine with its log of outcomes. -/
structure Node where
  settings : NodeSettings
  engine : Engine

namespace Node

/-- How long a shutdown waits for the engine, in milliseconds. -/
def shutdownTimeout : Duration := 5_000

def version : String := "0.1.0"

def start (settings : NodeSettings) (clock : Clock) : Except NodeError Node :=
  match Engine.start settings.scheduler .empty (.create EventBus.standardCapacity) clock with
  | .ok engine =>
    let bus := engine.bus.subscribe OutcomeLog.listenerName OutcomeLog.topics
    .ok ⟨settings, { engine with bus }⟩
  | .error cause => .error (.notStarted cause)

/-- Announces the session and asks for the initial blocks. The session is announced even if the
blocks cannot be asked for. -/
def beginSession (node : Node) : Option NodeError × Node :=
  let engine := (node.engine.announce .sessionStarted).2.settle
  if node.settings.initialBlocks.isEmpty then (none, { node with engine })
  else
    match engine.request (.download (.plain node.settings.initialBlocks)) with
    | .ok engine => (none, { node with engine })
    | .error _ => (some .notQueued, { node with engine })

def takeReport (node : Node) : Except NodeError (Report × Node) :=
  match node.engine.ask .report with
  | .ok (.report report, engine) => .ok (report, { node with engine })
  | _ => .error .notReported

def takeOutcomes (node : Node) : List String × Node :=
  let (lines, bus) := OutcomeLog.takeLines node.engine.bus OutcomeLog.listenerName
  (lines, { node with engine := { node.engine with bus } })

/-- Ends the session; the engine stops when it hears of it, and the log is closed. -/
def shutdown (node : Node) : Node :=
  let engine := (node.engine.announce .sessionStopped).2.settle
  { node with engine := { engine with
      bus := engine.bus.unsubscribe OutcomeLog.listenerName } }

def tickAt (node : Node) (now : Timestamp) : Node :=
  { node with engine := { node.engine with clock := ⟨now⟩ }.serveTick.settle }

end Node
end BlockFetch
