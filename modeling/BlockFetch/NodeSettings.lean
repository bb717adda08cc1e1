import BlockFetch.Document.Event
import BlockFetch.Document.Settings
import BlockFetch.Document.Toml
import BlockFetch.Reading

/-!
# Settings of a node

A node reads its settings from a configuration file, replaces some of them by variables of its
environment, and checks what it has got. A variable that cannot be read as a value of its setting
changes nothing.
-/
namespace BlockFetch

/-- Settings of a node. -/
structure NodeSettings where
  /-- The level below which messages are not logged. -/
  logLevel : String
  /-- Seconds between two reports in the log; zero switches them off. -/
  reportInterval : UInt64
  /-- Blocks that are requested when the session starts. -/
  initialBlocks : List BlockHash
  scheduler : Settings
  deriving DecidableEq

/-- Why a node does not do what it was asked for. -/
inductive NodeError where
  | fileUnreadable (path : String)
  | fileInvalid
  | settingsRejected (cause : Settings.Error)
  | notStarted (cause : Settings.Error)
  | notQueued
  | notReported
  deriving DecidableEq, Repr

namespace NodeError

def message : NodeError → String
  | fileUnreadable path => "Failed to read config file " ++ path
  | fileInvalid => "Invalid runtime configuration"
  | settingsRejected _ => "Invalid block download configuration"
  | notStarted _ => "Failed to create block download service"
  | notQueued => "Failed to queue initial blocks"
  | notReported => "Failed to query download state"

def cause? : NodeError → Option Settings.Error
  | settingsRejected cause | notStarted cause => some cause
  | _ => none

end NodeError

namespace NodeSettings

def standard : NodeSettings where
  logLevel := "info"
  reportInterval := 60
  initialBlocks := []
  scheduler := .standard

/-! ## Documents -/

def toDocument (settings : NodeSettings) : Document :=
  .record [
    ("log_level", .text settings.logLevel),
    ("state_log_interval_secs", .ofUInt64 settings.reportInterval),
    ("initial_blocks", .list (settings.initialBlocks.map BlockHash.toDocument)),
    ("download", settings.scheduler.toDocument)]

/-- Reads settings with a reader of their entries; what a document leaves out keeps its standard
value. -/
def read? (entries? : List String → Document → Option Document.Fields) (document : Document) :
    Option NodeSettings := do
  let fields ← entries? ["log_level", "state_log_interval_secs", "initial_blocks", "download"]
    document
  return {
    logLevel := ← fields.orDefault? "log_level" standard.logLevel Document.text?
    reportInterval :=
      ← fields.orDefault? "state_log_interval_secs" standard.reportInterval Document.uint64?
    initialBlocks := ← fields.orDefault? "initial_blocks" standard.initialBlocks
      (Document.list? BlockHash.ofDocument?)
    scheduler := ← fields.orDefault? "download" standard.scheduler (Settings.read? entries?) }

def ofDocument? : Document → Option NodeSettings := read? Document.partialFields?

def ofFile? : Document → Option NodeSettings := read? Document.leadingFields?

def ofToml (text : String) : Except NodeError NodeSettings :=
  match (Document.ofToml? text).bind ofFile? with
  | some settings => .ok settings
  | none => .error .fileInvalid

/-! ## Variables of the environment -/

def pathVariable : String := "QC_DOWNLOAD_CONFIG"

/-- Reads a number below a bound: decimal digits only, and perhaps a plus sign before them. -/
def number? (bound : Nat) (text : String) : Option Nat :=
  let digits := match text.toList with
    | '+' :: rest => rest
    | chars => chars
  let value := Reading.numeral 10 digits
  if !digits.isEmpty && digits.all (Reading.isDigit 10) && value < bound then some value else none

/-- The number that a variable gives, or else the old one. -/
def overrideUInt64 (lookup : String → Option String) (variableName : String) (old : UInt64) :
    UInt64 :=
  (((lookup variableName).bind (number? UInt64.size)).map Nat.toUInt64).getD old

/-- The number that a variable gives, or else the old one. -/
def overrideUInt32 (lookup : String → Option String) (variableName : String) (old : UInt32) :
    UInt32 :=
  (((lookup variableName).bind (number? UInt32.size)).map Nat.toUInt32).getD old

/-- The settings after the variables of the environment have been looked up. -/
def override (settings : NodeSettings) (lookup : String → Option String) : NodeSettings :=
  let s := settings.scheduler
  { settings with
    logLevel := (lookup "QC_LOG_LEVEL").getD settings.logLevel
    reportInterval :=
      overrideUInt64 lookup "QC_STATE_LOG_INTERVAL_SECS" settings.reportInterval
    scheduler := { s with
      tickInterval := overrideUInt64 lookup "QC_TICK_INTERVAL_MS" s.tickInterval
      maxTransfers := overrideUInt64 lookup "QC_MAX_PEERS_DOWNLOADING" s.maxTransfers
      maxMegabytes := overrideUInt64 lookup "QC_MAX_MB_IN_PARALLEL" s.maxMegabytes
      maxAttempts := overrideUInt32 lookup "QC_MAX_DOWNLOAD_ATTEMPTS" s.maxAttempts } }

/-- Finds the settings of a node: from the file that the environment names, if it names one, and
from the other variables. `readFile` yields nothing for a file that cannot be read. -/
def load (lookup readFile : String → Option String) : Except NodeError NodeSettings := do
  let configured ← match lookup pathVariable with
    | none => .ok standard
    | some path =>
      match readFile path with
      | none => .error (.fileUnreadable path)
      | some text => ofToml text
  let settings := configured.override lookup
  match settings.scheduler.check with
  | .ok () => .ok settings
  | .error cause => .error (.settingsRejected cause)

end NodeSettings
end BlockFetch
