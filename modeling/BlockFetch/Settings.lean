import BlockFetch.Timestamp

/-!
# Settings of the scheduler

Limits, timeouts and the rule that says which peers may fetch a block. The limits that divide or
bound work have to be positive, and a transfer may not be declared idle later than it is declared
too long; `Settings.check` reports the first rule that is broken.
-/
namespace BlockFetch

/-- What happens to a block that no announcer can take. -/
inductive Fallback where
  | anyone
  | wait
  deriving DecidableEq, Repr, Inhabited

/-- Fallbacks of a rule that prefers the peers which announced a block. -/
structure AnnouncerFallbacks where
  /-- Applies when no announcer of the block is connected. -/
  ifNone : Fallback
  /-- Applies when every connected announcer is busy. -/
  ifBusy : Fallback
  deriving DecidableEq, Repr, Inhabited

/-- Which peers may fetch a waiting block. -/
inductive Criteria where
  | anyPeer
  | announcersOnly (fallbacks : AnnouncerFallbacks)
  deriving DecidableEq, Repr, Inhabited

/-- Settings of the journal that is kept for each block. -/
structure JournalSettings where
  enabled : Bool
  /-- Older entries are purged. -/
  retention : Duration
  /-- A purge takes place every so many ticks. -/
  purgeEvery : UInt64
  /-- Whether the journal of a block is dropped once the block is there. -/
  clearOnSuccess : Bool
  deriving DecidableEq, Repr

/-- Settings of the scheduler. -/
structure Settings where
  tickInterval : Duration
  /-- The greatest number of peers that transfer a block at the same time. -/
  maxTransfers : UInt64
  /-- The greatest number of megabytes, of a million bytes each, in transfer at the same time. -/
  maxMegabytes : UInt64
  /-- A peer that sends nothing for longer is stalled. -/
  maxIdle : Duration
  /-- A transfer that takes longer is stalled. -/
  maxTransferTime : Duration
  /-- The number of failed attempts after which a block is discarded. -/
  maxAttempts : UInt32
  /-- A block in limbo has failed for good when nothing is heard of it for longer. -/
  limboTimeout : Duration
  /-- A discarded block is queued again after this time. -/
  discardTimeout : Duration
  /-- A peer that failed a block does not get it again before this time has passed. -/
  failureCooldown : Duration
  criteria : Criteria
  journal : JournalSettings
  deriving DecidableEq, Repr

/-- Journals are kept for an hour and purged every hundred ticks. -/
def JournalSettings.standard : JournalSettings where
  enabled := true
  retention := 3_600_000
  purgeEvery := 100
  clearOnSuccess := false

namespace Settings

def standard : Settings where
  tickInterval := 100
  maxTransfers := 10
  maxMegabytes := 100
  maxIdle := 10_000
  maxTransferTime := 600_000
  maxAttempts := 5
  limboTimeout := 20_000
  discardTimeout := 600_000
  failureCooldown := 30_000
  criteria := .anyPeer
  journal := .standard

/-- Settings with short timeouts and small limits, for experiments. -/
def brisk : Settings where
  tickInterval := 10
  maxTransfers := 4
  maxMegabytes := 10
  maxIdle := 1_000
  maxTransferTime := 5_000
  maxAttempts := 3
  limboTimeout := 2_000
  discardTimeout := 10_000
  failureCooldown := 3_000
  criteria := .anyPeer
  journal := { enabled := true, retention := 60_000, purgeEvery := 10, clearOnSuccess := false }

/-- The number of bytes in transfer from which on no new block is handed out. -/
def maxBytes (settings : Settings) : UInt64 :=
  saturate (settings.maxMegabytes.toNat * 1_000_000)

/-- Why settings cannot be used. -/
inductive Error where
  | mustBePositive (field : String)
  | inconsistent (detail : String)
  deriving DecidableEq, Repr

def Error.message : Error → String
  | .mustBePositive field => "Configuration field `" ++ field ++ "` must be positive"
  | .inconsistent detail => "Inconsistent configuration: " ++ detail

/-- The limits that have to be positive, under the names they are configured with. -/
def positiveLimits (settings : Settings) : List (String × Nat) :=
  [("tick_interval_ms", settings.tickInterval.toNat),
    ("max_idle_timeout_ms", settings.maxIdle.toNat),
    ("max_download_timeout_ms", settings.maxTransferTime.toNat),
    ("max_download_attempts", settings.maxAttempts.toNat),
    ("max_mb_in_parallel", settings.maxMegabytes.toNat),
    ("max_peers_downloading", settings.maxTransfers.toNat),
    ("history.cleanup_every_ticks", settings.journal.purgeEvery.toNat)]

/-- Reports the first limit that is zero, and else an idle time beyond the transfer time. -/
def check (settings : Settings) : Except Error Unit :=
  match settings.positiveLimits.find? fun limit => limit.2 = 0 with
  | some (field, _) => .error (.mustBePositive field)
  | none =>
    if settings.maxIdle > settings.maxTransferTime then
      .error (.inconsistent
        s!"max_idle_timeout_ms ({settings.maxIdle.toNat}) exceeds max_download_timeout_ms ({settings.maxTransferTime.toNat})")
    else .ok ()

/-- Settings can be used if no limit is zero and no transfer is idle later than too long. -/
theorem check_eq_ok_iff (settings : Settings) :
    settings.check = .ok () ↔
      (∀ limit ∈ settings.positiveLimits, limit.2 ≠ 0) ∧
        settings.maxIdle ≤ settings.maxTransferTime := by
  unfold check
  split
  · rename_i field value found
    have zero := List.find?_some found
    have member := List.mem_of_find?_eq_some found
    exact ⟨fun h => (nomatch h), fun h => absurd (of_decide_eq_true zero) (h.1 _ member)⟩
  · rename_i none_found
    have positive : ∀ limit ∈ settings.positiveLimits, limit.2 ≠ 0 := by
      intro limit member
      have := List.find?_eq_none.mp none_found limit member
      simpa using this
    by_cases h : settings.maxIdle > settings.maxTransferTime
    · rw [if_pos h]
      exact ⟨fun h => (nomatch h), fun both => absurd both.2 (UInt64.not_le.mpr h)⟩
    · rw [if_neg h]
      exact ⟨fun _ => ⟨positive, UInt64.not_lt.mp h⟩, fun _ => rfl⟩

end Settings
end BlockFetch
