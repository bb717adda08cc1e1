import BlockFetch.Document.Json
import BlockFetch.Document.Report
import BlockFetch.Node

/-!
# The program

Finds the settings, starts a node and serves its ticks until the process is ended. Reports and
outcomes are written to standard output as they come.
-/
namespace BlockFetch

def environmentVariables : List String :=
  [NodeSettings.pathVariable, "QC_LOG_LEVEL", "QC_STATE_LOG_INTERVAL_SECS", "QC_TICK_INTERVAL_MS",
    "QC_MAX_PEERS_DOWNLOADING", "QC_MAX_MB_IN_PARALLEL", "QC_MAX_DOWNLOAD_ATTEMPTS"]

/-- The variables that are set, with their values. -/
def readEnvironment : IO (List (String × String)) := do
  let mut found := []
  for name in environmentVariables do
    if let some value ← IO.getEnv name then
      found := found ++ [(name, value)]
  return found

/-- The text of a file, if it can be read. -/
def readFile? (path : String) : IO (Option String) := do
  try
    return some (← IO.FS.readFile path)
  catch _ => return none

def findSettings : IO (Except NodeError NodeSettings) := do
  let environment ← readEnvironment
  let content ← match environment.lookup NodeSettings.pathVariable with
    | some path => readFile? path
    | none => pure none
  return NodeSettings.load (fun name => environment.lookup name) fun _ => content

def readClock : IO Timestamp := do
  return ⟨(← IO.monoMsNow).toUInt64⟩

def reportError (error : NodeError) : IO Unit := do
  IO.eprintln ("Error: " ++ error.message)
  if let some cause := error.cause? then
    IO.eprintln ("Caused by: " ++ cause.message)

/-- Serves ticks for as long as the engine runs. `nextReport` is the time of the next report. -/
partial def serve (node : Node) (nextReport : Timestamp) : IO Unit := do
  if node.engine.running then
    let now ← readClock
    let (lines, node) := (node.tickAt now).takeOutcomes
    for line in lines do
      IO.println line
    let interval := node.settings.reportInterval.toNat * 1000
    let mut node := node
    let mut nextReport := nextReport
    if interval ≠ 0 ∧ nextReport.millis ≤ now.millis then
      match node.takeReport with
      | .ok (report, reported) =>
        IO.println ("Download state: " ++ report.toDocument.toJson)
        node := reported
        nextReport := now.plus interval
      | .error error => reportError error
    IO.sleep (min node.settings.scheduler.tickInterval 0xffffffff).toUInt32
    serve node nextReport

end BlockFetch

open BlockFetch in
def main : IO UInt32 := do
  match ← findSettings with
  | .error error => reportError error; return 1
  | .ok settings =>
    let now ← readClock
    match Node.start settings ⟨now⟩ with
    | .error error => reportError error; return 1
    | .ok node =>
      let (failure?, node) := node.beginSession
      if let some failure := failure? then
        reportError failure
        return 1
      IO.println "Block downloader is running. Press Ctrl+C to stop."
      serve node now
      return 0
