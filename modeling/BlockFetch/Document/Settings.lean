import BlockFetch.Document
import BlockFetch.Settings

/-!
# Documents of settings

Settings that a document leaves out keep their standard values. The rule on announcers is a record
with the kind of the rule among its entries. Configuration files and other documents differ in what
they make of a list that stands for a record and goes on after the last key.
-/
namespace BlockFetch

open Document (Fields)

namespace Fallback

def name : Fallback → String
  | anyone => "download_from_anyone"
  | wait => "wait"

def byName : List (String × Fallback) :=
  [anyone, wait].map fun fallback => (fallback.name, fallback)

def toDocument (fallback : Fallback) : Document := .text fallback.name

def ofDocument? : Document → Option Fallback :=
  Document.choice? Document.isNull byName

/-- Reads a fallback within a rule, where an empty record counts as no data, too. -/
def ofContent? : Document → Option Fallback :=
  Document.choice? Document.isVoid byName

end Fallback

namespace AnnouncerFallbacks

def toDocument (fallbacks : AnnouncerFallbacks) : Document :=
  .record [
    ("if_no_announcer", fallbacks.ifNone.toDocument),
    ("if_announcer_busy", fallbacks.ifBusy.toDocument)]

def read? (fallback? : Document → Option Fallback) (document : Document) :
    Option AnnouncerFallbacks := do
  let fields ← document.fields? ["if_no_announcer", "if_announcer_busy"]
  return {
    ifNone := ← fields.required? "if_no_announcer" fallback?
    ifBusy := ← fields.required? "if_announcer_busy" fallback? }

def ofDocument? : Document → Option AnnouncerFallbacks := read? Fallback.ofDocument?

/-- Reads fallbacks within a rule. -/
def ofContent? : Document → Option AnnouncerFallbacks := read? Fallback.ofContent?

end AnnouncerFallbacks

namespace Criteria

def toDocument : Criteria → Document
  | anyPeer => .record [("kind", .text "any_peer")]
  | announcersOnly fallbacks =>
    .record [
      ("kind", .text "announcers_only"),
      ("if_no_announcer", fallbacks.ifNone.toDocument),
      ("if_announcer_busy", fallbacks.ifBusy.toDocument)]

/-- Reads what a rule of a kind needs from what stands beside the kind. The rule that accepts any
peer needs nothing: it ignores entries, but a list has to end. -/
def ofContent? (kind : String) (content : Document) : Option Criteria :=
  match kind with
  | "any_peer" =>
    match content with
    | .list (_ :: _) => none
    | _ => some anyPeer
  | "announcers_only" => (AnnouncerFallbacks.ofContent? content).map announcersOnly
  | _ => none

/-- Reads a rule. The kind stands under its key, once, or is the first item of a list. -/
def ofDocument? (document : Document) : Option Criteria :=
  if !document.isReadable then none
  else
    match document with
    | .record fields =>
      let (kinds, others) := fields.partition fun field => field.1 = "kind"
      match kinds with
      | [(_, .text kind)] => ofContent? kind (.record others)
      | _ => none
    | .list (.text kind :: rest) => ofContent? kind (.list rest)
    | _ => none

end Criteria

namespace JournalSettings

def toDocument (settings : JournalSettings) : Document :=
  .record [
    ("enabled", .bool settings.enabled),
    ("retention_ms", .ofUInt64 settings.retention),
    ("cleanup_every_ticks", .ofUInt64 settings.purgeEvery),
    ("clean_on_success", .bool settings.clearOnSuccess)]

def read? (entries? : List String → Document → Option Fields) (document : Document) :
    Option JournalSettings := do
  let fields ← entries? ["enabled", "retention_ms", "cleanup_every_ticks", "clean_on_success"]
    document
  return {
    enabled := ← fields.orDefault? "enabled" standard.enabled Document.bool?
    retention := ← fields.orDefault? "retention_ms" standard.retention Document.uint64?
    purgeEvery := ← fields.orDefault? "cleanup_every_ticks" standard.purgeEvery Document.uint64?
    clearOnSuccess :=
      ← fields.orDefault? "clean_on_success" standard.clearOnSuccess Document.bool? }

def ofDocument? : Document → Option JournalSettings := read? Document.partialFields?

def ofFile? : Document → Option JournalSettings := read? Document.leadingFields?

end JournalSettings

namespace Settings

def keys : List String :=
  ["tick_interval_ms", "max_peers_downloading", "max_mb_in_parallel", "max_idle_timeout_ms",
    "max_download_timeout_ms", "max_download_attempts", "inactivity_timeout_to_fail_ms",
    "retry_discarded_blocks_timeout_ms", "failure_cooldown_ms", "criteria", "history"]

def toDocument (settings : Settings) : Document :=
  .record [
    ("tick_interval_ms", .ofUInt64 settings.tickInterval),
    ("max_peers_downloading", .ofUInt64 settings.maxTransfers),
    ("max_mb_in_parallel", .ofUInt64 settings.maxMegabytes),
    ("max_idle_timeout_ms", .ofUInt64 settings.maxIdle),
    ("max_download_timeout_ms", .ofUInt64 settings.maxTransferTime),
    ("max_download_attempts", .ofUInt32 settings.maxAttempts),
    ("inactivity_timeout_to_fail_ms", .ofUInt64 settings.limboTimeout),
    ("retry_discarded_blocks_timeout_ms", .ofUInt64 settings.discardTimeout),
    ("failure_cooldown_ms", .ofUInt64 settings.failureCooldown),
    ("criteria", settings.criteria.toDocument),
    ("history", settings.journal.toDocument)]

def read? (entries? : List String → Document → Option Fields) (document : Document) :
    Option Settings := do
  let fields ← entries? keys document
  let duration (name : String) (default : Duration) : Option Duration :=
    fields.orDefault? name default Document.uint64?
  return {
    tickInterval := ← duration "tick_interval_ms" standard.tickInterval
    maxTransfers :=
      ← fields.orDefault? "max_peers_downloading" standard.maxTransfers Document.uint64?
    maxMegabytes := ← fields.orDefault? "max_mb_in_parallel" standard.maxMegabytes Document.uint64?
    maxIdle := ← duration "max_idle_timeout_ms" standard.maxIdle
    maxTransferTime := ← duration "max_download_timeout_ms" standard.maxTransferTime
    maxAttempts :=
      ← fields.orDefault? "max_download_attempts" standard.maxAttempts Document.uint32?
    limboTimeout := ← duration "inactivity_timeout_to_fail_ms" standard.limboTimeout
    discardTimeout := ← duration "retry_discarded_blocks_timeout_ms" standard.discardTimeout
    failureCooldown := ← duration "failure_cooldown_ms" standard.failureCooldown
    criteria := ← fields.orDefault? "criteria" standard.criteria Criteria.ofDocument?
    journal := ← fields.orDefault? "history" standard.journal (JournalSettings.read? entries?) }

def ofDocument? : Document → Option Settings := read? Document.partialFields?

def ofFile? : Document → Option Settings := read? Document.leadingFields?

end Settings
end BlockFetch
