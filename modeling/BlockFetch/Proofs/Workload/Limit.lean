import BlockFetch.Proofs.Lifecycle.Ledger
import BlockFetch.Proofs.Workload.Outcome
import Mathlib

/-!
# The limit on transfers

New work is given out only while fewer peers transfer a block than the settings allow. During a
pause the attempts that have begun go on, and a peer that is asked to repeat one is asked whatever
the number of transfers. So the limit holds for first attempts in all states, and for all attempts
as long as nothing is requested during a pause.
-/
namespace BlockFetch

def Operation.isTick : Operation → Bool
  | .tick => true
  | _ => false

namespace Scheduler

/-- The number of peers that transfer a block which they are the first to be asked for. -/
def firstAttempts (s : Scheduler) : Nat :=
  s.transfers.countP fun transfer => transfer.attempt = 1

/-- The peers whose task counts, in ascending order. -/
def senders (s : Scheduler) (counts : BlockHash × Nat → Bool) : List PeerAddress :=
  (s.peers.toList.filter fun entry => entry.2.task?.any counts).map Prod.fst

end Scheduler

/-- How many blocks are requested in a step that is a tick during a pause. -/
def Step.pausedRequests (step : Step) : Nat :=
  if step.operation.isTick && !step.before.isRunning then
    step.after.requestTotal - step.before.requestTotal
  else 0

namespace Scheduler

/-- How many blocks are requested during pauses of a run. -/
def pausedRequests (s : Scheduler) (history : List (Timestamp × Operation)) : Nat :=
  ((s.steps history).map Step.pausedRequests).sum

variable {s t u : Scheduler}

/-! ## Counting transfers -/

theorem mem_senders {counts : BlockHash × Nat → Bool} {peer : PeerAddress} :
    peer ∈ s.senders counts ↔ ∃ task, s.taskAt? peer = some task ∧ counts task = true := by
  simp only [senders, taskAt?, List.mem_map, List.mem_filter, Option.any_eq_true,
    Option.bind_eq_some_iff]
  constructor
  · rintro ⟨⟨other, record⟩, ⟨known, task, works, counted⟩, rfl⟩
    exact ⟨task, ⟨record, Std.ExtTreeMap.mem_toList_iff_getElem?_eq_some.mp known, works⟩, counted⟩
  · rintro ⟨task, ⟨record, known, works⟩, counted⟩
    exact ⟨(peer, record),
      ⟨Std.ExtTreeMap.mem_toList_iff_getElem?_eq_some.mpr known, task, works, counted⟩, rfl⟩

theorem nodup_senders (s : Scheduler) (counts : BlockHash × Nat → Bool) :
    (s.senders counts).Nodup := by
  have keys : (s.peers.toList.map Prod.fst).Nodup := by
    rw [Std.ExtTreeMap.map_fst_toList_eq_keys]
    exact Std.ExtTreeMap.nodup_keys
  exact keys.sublist (List.filter_sublist.map Prod.fst)

theorem countP_transfers (s : Scheduler) (counts : BlockHash × Nat → Bool) :
    s.transfers.countP (fun transfer => counts (transfer.block, transfer.attempt)) =
      (s.senders counts).length := by
  rw [transfers, List.countP_filterMap, senders, List.length_map, List.countP_eq_length_filter]
  congr 2
  funext entry
  rw [Peer.task?]
  cases entry.2.transfer? <;> rfl

theorem length_transfers (s : Scheduler) :
    s.transfers.length = (s.senders fun _ => true).length := by
  rw [← countP_transfers, List.countP_true]

theorem Staged.transferCount_eq (staged : s.Staged) : s.transferCount = s.transfers.length := by
  rw [transferCount, transfers, List.length_filterMap_eq_countP, ← List.countP_eq_length_filter]
  refine List.countP_congr fun entry listed => ?_
  have known := Std.ExtTreeMap.mem_toList_iff_getElem?_eq_some.mp listed
  rw [(staged.linked entry.1 entry.2 known).isBusy_eq]

theorem firstAttempts_eq (s : Scheduler) :
    s.firstAttempts = (s.senders fun task => task.2 = 1).length :=
  countP_transfers s fun task => task.2 = 1

theorem firstAttempts_le_length_transfers (s : Scheduler) :
    s.firstAttempts ≤ s.transfers.length :=
  List.countP_le_length

/-- Fewer peers work on tasks that count after a step that gives no work. -/
theorem Eases.length_senders_le (h : Eases s t) (counts : BlockHash × Nat → Bool) :
    (t.senders counts).length ≤ (s.senders counts).length := by
  refine (List.subperm_of_subset (t.nodup_senders counts) fun peer sends => ?_).length_le
  obtain ⟨task, works, counted⟩ := mem_senders.mp sends
  exact mem_senders.mpr ⟨task, h.tasks peer task works, counted⟩

theorem Eases.length_transfers_le (h : Eases s t) : t.transfers.length ≤ s.transfers.length := by
  rw [length_transfers, length_transfers]
  exact h.length_senders_le _

theorem Eases.firstAttempts_le (h : Eases s t) : t.firstAttempts ≤ s.firstAttempts := by
  rw [firstAttempts_eq, firstAttempts_eq]
  exact h.length_senders_le _

/-! ## One turn -/

section

variable {peer : PeerAddress} {record : Peer} {block : BlockHash}

theorem requestTotal_assign (s : Scheduler) (peer : PeerAddress) (block : BlockHash)
    (now : Timestamp) : (s.assign peer block now).requestTotal = s.requestTotal + 1 := by
  have told : ∀ t : Scheduler, ((((t.publish (.blockRequested peer block)).publish
      (.keepAlive peer false)).growBuffer peer).requestTotal = t.requestTotal + 1) := by
    intro t
    rw [requestTotal_growBuffer, requestTotal_publish, requestTotal_publish]
    rfl
  exact told _

/-- An assignment adds the peer to those that send, if its new task counts. -/
theorem length_senders_assign_le (known : s.peers[peer]? = some record) (block : BlockHash)
    (now : Timestamp) (counts : BlockHash × Nat → Bool) :
    ((s.assign peer block now).senders counts).length ≤ (s.senders counts).length +
      (counts (block, s.backlog.attemptsOn block + 1)).toNat := by
  cases counted : counts (block, s.backlog.attemptsOn block + 1) with
  | true =>
    have subset : (s.assign peer block now).senders counts ⊆ peer :: s.senders counts := by
      intro other sends
      obtain ⟨task, works, counts⟩ := mem_senders.mp sends
      rw [taskAt?_assign known] at works
      split at works
      · rename_i here
        exact here ▸ List.mem_cons_self
      · exact List.mem_cons_of_mem _ (mem_senders.mpr ⟨task, works, counts⟩)
    exact (List.subperm_of_subset (nodup_senders _ counts) subset).length_le
  | false =>
    have subset : (s.assign peer block now).senders counts ⊆ s.senders counts := by
      intro other sends
      obtain ⟨task, works, counts⟩ := mem_senders.mp sends
      rw [taskAt?_assign known] at works
      split at works
      · cases works
        exact absurd counts (by simp [counted])
      · exact mem_senders.mpr ⟨task, works, counts⟩
    exact (List.subperm_of_subset (nodup_senders _ counts) subset).length_le

theorem length_transfers_assign_le (known : s.peers[peer]? = some record) (block : BlockHash)
    (now : Timestamp) : (s.assign peer block now).transfers.length ≤ s.transfers.length + 1 := by
  rw [length_transfers, length_transfers]
  exact length_senders_assign_le known block now fun _ => true

end

/-! ## The turns of a tick -/

/-- The counter of an attempt that has begun is not zero. -/
def Counted (s : Scheduler) : Prop :=
  ∀ block : BlockHash, s.backlog.attempts[block]? ≠ some 0

/-- With the limit reached nothing is handed out, but for what goes on during a pause. -/
theorem Staged.length_transfers_lt (staged : s.Staged) {restricted : Bool}
    (mode : s.handOutMode? = some restricted) (usable : 0 < s.settings.maxTransfers.toNat)
    (goesOn : s.isRunning = true ∨ restricted = false) :
    s.transfers.length < s.settings.maxTransfers.toNat := by
  have admitted : s.admitsTransfer = true := by
    unfold handOutMode? at mode
    split at mode
    · split at mode
      · assumption
      · exact nomatch mode
    · rename_i paused
      split at mode
      · cases mode
        exact absurd goesOn (by simp [paused])
      · exact nomatch mode
  simp only [admitsTransfer, staged.transferCount_eq, Bool.or_eq_true, Bool.and_eq_true,
    decide_eq_true_eq] at admitted
  rcases admitted with none_sends | ⟨below, _⟩
  · exact none_sends ▸ usable
  · exact below

/-- What the turns of a tick do to the number of transfers. While blocks are handed out freely it
stays below the limit; in any case it grows with the requests. -/
structure Within (s t : Scheduler) : Prop where
  settings : t.settings = s.settings
  running : t.isRunning = s.isRunning
  counted : s.Counted → t.Counted
  transfers : s.isRunning = true →
    t.transfers.length ≤ max s.transfers.length s.settings.maxTransfers.toNat
  requests : t.transfers.length + s.requestTotal ≤ s.transfers.length + t.requestTotal
  firstAttempts : s.Counted →
    t.firstAttempts ≤ max s.firstAttempts s.settings.maxTransfers.toNat

namespace Within

theorem trans (first : Within s t) (second : Within t u) : Within s u where
  settings := second.settings.trans first.settings
  running := second.running.trans first.running
  counted counted := second.counted (first.counted counted)
  transfers running := by
    have early := first.transfers running
    have late := second.transfers (first.running.trans running)
    rw [first.settings] at late
    omega
  requests := by
    have early := first.requests
    have late := second.requests
    omega
  firstAttempts counted := by
    have early := first.firstAttempts counted
    have late := second.firstAttempts (first.counted counted)
    rw [first.settings] at late
    omega

theorem of_eases (eases : Eases s t) (attempts : t.backlog.attempts = s.backlog.attempts)
    (running : t.isRunning = s.isRunning) : Within s t where
  settings := eases.settings
  running := running
  counted counted block := attempts ▸ counted block
  transfers _ := Nat.le_trans eases.length_transfers_le (Nat.le_max_left ..)
  requests := by
    rw [eases.requests]
    exact Nat.add_le_add_right eases.length_transfers_le _
  firstAttempts _ := Nat.le_trans eases.firstAttempts_le (Nat.le_max_left ..)

end Within

section

variable {now : Timestamp} {peer : PeerAddress} {record : Peer} {block : BlockHash}

theorem Counted.assign (counted : s.Counted) (peer : PeerAddress) (block : BlockHash)
    (now : Timestamp) : (s.assign peer block now).Counted := by
  intro other
  have found : (s.assign peer block now).backlog.attempts[other]? =
      (s.backlog.attempts.insert block (s.backlog.attemptsOn block + 1))[other]? := rfl
  rw [found, Std.ExtTreeMap.getElem?_insert]
  split
  · simp
  · exact counted other

/-- Who is asked for a block that was attempted before makes no first attempt. -/
theorem Counted.firstAttempts_assign_le (counted : s.Counted)
    (known : s.peers[peer]? = some record) (begun : s.backlog.isBegun block = true)
    (now : Timestamp) : (s.assign peer block now).firstAttempts ≤ s.firstAttempts := by
  have repeated : s.backlog.attemptsOn block ≠ 0 := by
    intro none_yet
    obtain ⟨attempts, found⟩ := Option.isSome_iff_exists.mp
      (Std.ExtTreeMap.contains_eq_isSome_getElem?.symm.trans begun)
    rw [attemptsOn_eq, standing, found, Option.getD_some] at none_yet
    exact counted block (none_yet ▸ found)
  have grown := length_senders_assign_le known block now fun task => task.2 = 1
  rw [firstAttempts_eq, firstAttempts_eq]
  simpa [repeated] using grown

theorem firstAttempts_assign_le (known : s.peers[peer]? = some record) (block : BlockHash)
    (now : Timestamp) : (s.assign peer block now).firstAttempts ≤ s.transfers.length + 1 :=
  Nat.le_trans (firstAttempts_le_length_transfers _) (length_transfers_assign_le known block now)

/-- A turn starts at most as many transfers as it requests blocks, and none beyond the limit, but
for a repeated attempt during a pause. -/
theorem Outcome.within (h : Outcome now s peer t) (staged : s.Staged)
    (usable : 0 < s.settings.maxTransfers.toNat) : Within s t := by
  cases h with
  | spared spares attempts running => exact .of_eases spares.toEases attempts running
  | refused => exact .of_eases ⟨rfl, fun _ _ working => working, rfl⟩ rfl rfl
  | @assigned record block restricted flag known _ mode _ begun =>
    let offered : Scheduler :=
      { s with bandwidthRestricted := flag, backlog := s.backlog.remove block }
    have found : offered.peers[peer]? = some record := known
    have started : (offered.assign peer block now).transfers.length ≤ s.transfers.length + 1 :=
      length_transfers_assign_le found block now
    have asked : (offered.assign peer block now).requestTotal = s.requestTotal + 1 :=
      requestTotal_assign offered peer block now
    have below := staged.length_transfers_lt mode usable
    refine ⟨rfl, rfl, ?counted, ?transfers, ?requests, ?firstAttempts⟩
    case counted =>
      intro counted
      have before : offered.Counted := counted
      exact before.assign peer block now
    case transfers =>
      intro running
      exact Nat.le_trans started (Nat.le_trans (below (.inl running)) (Nat.le_max_right ..))
    case requests =>
      change (offered.assign peer block now).transfers.length + s.requestTotal ≤
        s.transfers.length + (offered.assign peer block now).requestTotal
      omega
    case firstAttempts =>
      intro counted
      have before : offered.Counted := counted
      -- A restricted turn repeats an attempt; any other one had to find room for a transfer.
      cases restricted with
      | true =>
        have repeated : (offered.assign peer block now).firstAttempts ≤ s.firstAttempts :=
          before.firstAttempts_assign_le found (begun rfl) now
        exact Nat.le_trans repeated (Nat.le_max_left ..)
      | false =>
        have first : (offered.assign peer block now).firstAttempts ≤ s.transfers.length + 1 :=
          firstAttempts_assign_le found block now
        exact Nat.le_trans first (Nat.le_trans (below (.inr rfl)) (Nat.le_max_right ..))

theorem within_turns (staged : s.Staged) (now : Timestamp)
    (usable : 0 < s.settings.maxTransfers.toNat) : Within s (s.turns now) := by
  obtain ⟨flag, same⟩ := checkBandwidth_eq s
  refine staged.turns_induction ?_ fun t u peer reached before outcome _ => ?_
  · rw [same]
    exact .of_eases (spares_setRestricted s flag).toEases rfl rfl
  · exact before.trans (outcome.within reached (before.settings ▸ usable))

end

end Scheduler

/-! ## All operations -/

section

variable {limit : Nat} {now : Timestamp} {block : BlockHash} {before after : Stage}
  {milestones : List Milestone} {operation : Operation}

theorem Change.attempts?_ne_zero (h : Change limit now operation block before milestones after)
    (counted : before.standing.attempts? ≠ some 0) : after.standing.attempts? ≠ some 0 := by
  cases h with
  | demanded _ demand =>
    cases demand with
    | kept => exact counted
    | waits => exact counted
    | _ => exact nofun
  | cancelled cancellation =>
    cases cancellation with
    | deferred => exact counted
    | _ => exact nofun
  | failed _ failure =>
    cases failure with
    | requeued => exact counted
    | _ => exact nofun
  | delivered delivery =>
    cases delivery with
    | unwanted => exact counted
    | downloaded => exact nofun
  | abandoned =>
    cases before with
    | underway custody attempts cancelling =>
      cases cancelling
      · exact counted
      · exact nofun
    | _ => exact counted
  | requested => simp [Stage.standing]
  | still => exact counted
  | lost => exact counted
  | stalled => exact counted
  | _ => exact nofun

end

namespace Scheduler

variable {s : Scheduler}

theorem Reachable.counted (h : s.Reachable) : s.Counted := by
  induction h with
  | created usable =>
    intro block
    rw [eq_initial_of_create usable]
    simp [initial, Backlog.empty]
  | @applied s now operation reachable ih =>
    intro block
    obtain ⟨before, inBefore⟩ := reachable.staged.stage block
    obtain ⟨milestones, passage⟩ := passes_apply reachable.staged now operation
    obtain ⟨after, inAfter, _, allowed⟩ := passage.course block before inBefore
    rw [inAfter.attempts]
    exact (Change.of_rule allowed).attempts?_ne_zero (inBefore.attempts ▸ ih block)
  | drained _ ih => exact ih

theorem Reachable.maxTransfers_pos (h : s.Reachable) : 0 < s.settings.maxTransfers.toNat := by
  have positive := ((Settings.check_eq_ok_iff s.settings).mp h.check_settings).1
    ("max_peers_downloading", s.settings.maxTransfers.toNat) (by simp [Settings.positiveLimits])
  exact Nat.pos_of_ne_zero positive

theorem Reachable.tick_limits (h : s.Reachable) (now : Timestamp) :
    (s.isRunning = true →
      (s.tick now).transferCount ≤ max s.transferCount s.settings.maxTransfers.toNat) ∧
    (s.tick now).transferCount + s.requestTotal ≤ s.transferCount + (s.tick now).requestTotal ∧
    (s.tick now).firstAttempts ≤ max s.firstAttempts s.settings.maxTransfers.toNat := by
  let started : Scheduler := { s with ticks := s.ticks + 1 }
  have counted : started.Staged := (quiet_setTicks s _).staged h.staged
  have turned : Within started (started.turns now) := within_turns counted now h.maxTransfers_pos
  have ended : Spares (started.turns now) (s.tick now) := spares_tick_of_turns s now
  rw [((passes_tick h.staged now).staged h.staged).transferCount_eq, h.staged.transferCount_eq]
  refine ⟨fun running => ?_, ?_, ?_⟩
  · exact Nat.le_trans ended.length_transfers_le (turned.transfers running)
  · rw [ended.requests]
    exact Nat.le_trans (Nat.add_le_add_right ended.length_transfers_le _) turned.requests
  · exact Nat.le_trans ended.firstAttempts_le (turned.firstAttempts h.counted)

theorem Reachable.firstAttempts_apply_le (h : s.Reachable) (now : Timestamp)
    (operation : Operation) :
    (s.apply now operation).firstAttempts ≤ max s.firstAttempts s.settings.maxTransfers.toNat := by
  by_cases timed : operation = .tick
  · subst timed
    exact (h.tick_limits now).2.2
  · exact Nat.le_trans (eases_apply s now timed).firstAttempts_le (Nat.le_max_left ..)

theorem Reachable.transferCount_apply_le (h : s.Reachable) (now : Timestamp)
    (operation : Operation) :
    (s.apply now operation).transferCount ≤
      max s.transferCount s.settings.maxTransfers.toNat +
        Step.pausedRequests ⟨s, now, operation⟩ := by
  by_cases timed : operation = .tick
  · subst timed
    obtain ⟨unpaused, asked, _⟩ := h.tick_limits now
    cases running : s.isRunning with
    | true => exact Nat.le_trans (unpaused running) (Nat.le_add_right ..)
    | false =>
      have requested : Step.pausedRequests ⟨s, now, .tick⟩ =
          (s.tick now).requestTotal - s.requestTotal := by
        simp [Step.pausedRequests, Operation.isTick, running, Step.after, apply]
      rw [requested]
      change (s.tick now).transferCount ≤ _
      omega
  · have eased := (eases_apply s now timed).length_transfers_le
    rw [(h.applied now operation).staged.transferCount_eq, h.staged.transferCount_eq]
    omega

theorem Reachable.firstAttempts_le (h : s.Reachable) :
    s.firstAttempts ≤ s.settings.maxTransfers.toNat := by
  induction h with
  | created usable =>
    rw [eq_initial_of_create usable]
    exact Nat.zero_le _
  | applied now operation reachable ih =>
    have step := reachable.firstAttempts_apply_le now operation
    rw [(passes_apply reachable.staged now operation).settings]
    omega
  | drained _ ih => exact ih

/-- First attempts never exceed the limit on transfers. All transfers together exceed it at most as
far as they did before, and by the requests that are made during pauses. -/
theorem Reachable.transferCount_run_le (h : s.Reachable)
    (history : List (Timestamp × Operation)) :
    (s.run history).firstAttempts ≤ s.settings.maxTransfers.toNat ∧
      (s.run history).transferCount ≤
        max s.transferCount s.settings.maxTransfers.toNat + s.pausedRequests history := by
  induction history generalizing s with
  | nil => exact ⟨h.firstAttempts_le, Nat.le_trans (Nat.le_max_left ..) (Nat.le_add_right ..)⟩
  | cons timed rest ih =>
    obtain ⟨first, all⟩ := ih (h.applied timed.1 timed.2)
    have step := h.transferCount_apply_le timed.1 timed.2
    rw [(passes_apply h.staged timed.1 timed.2).settings] at first all
    refine ⟨first, ?_⟩
    have total : s.pausedRequests (timed :: rest) = Step.pausedRequests ⟨s, timed.1, timed.2⟩ +
        (s.apply timed.1 timed.2).pausedRequests rest := rfl
    change ((s.apply timed.1 timed.2).run rest).transferCount ≤ _
    rw [total]
    omega

def oneAtATime : Settings := { Settings.brisk with maxTransfers := 1 }

/-- A block fails at the peer that was asked for it, which is asked for the next one; and during a
pause another peer is asked for the failed block. -/
def crowding : List (Timestamp × Operation) :=
  let other : PeerAddress := .v4 #v[10, 0, 0, 2] 8333
  let ones : BlockHash := ⟨List.replicate 32 1, List.length_replicate⟩
  [(⟨0⟩, .hear (.peerHandshaked soleSender)), (⟨0⟩, .hear (.peerHandshaked other)),
    (⟨1⟩, .download (.plain [.zero, ones])), (⟨2⟩, .tick),
    (⟨3⟩, .hear (.blocksNotFound soleSender [.zero])), (⟨4⟩, .tick), (⟨5⟩, .pause), (⟨6⟩, .tick)]

theorem reachable_initial_oneAtATime : (initial oneAtATime .empty).Reachable := by
  have usable : create oneAtATime .empty = .ok (initial oneAtATime .empty) := rfl
  exact .created usable

-- The runs are computed by rewriting: sorting several peers does not reduce in the kernel.
set_option maxRecDepth 100000 in
theorem transferCount_run_le_crowding :
    (initial oneAtATime .empty).Reachable ∧
      (initial oneAtATime .empty).pausedRequests crowding = 1 ∧
      ((initial oneAtATime .empty).run crowding).firstAttempts ≤ 1 ∧
      ((initial oneAtATime .empty).run crowding).transferCount ≤ 2 := by
  have requested : (initial oneAtATime .empty).pausedRequests crowding = 1 := by cbv
  obtain ⟨first, all⟩ := reachable_initial_oneAtATime.transferCount_run_le crowding
  rw [requested] at all
  exact ⟨reachable_initial_oneAtATime, requested, first, all⟩

set_option maxRecDepth 100000 in
/-- During a pause the limit on transfers is exceeded. -/
theorem exists_transferCount_gt :
    ¬ ∀ s : Scheduler, s.Reachable → s.transferCount ≤ s.settings.maxTransfers.toNat := by
  intro limited
  have reachable : ((initial oneAtATime .empty).run crowding).Reachable :=
    reachable_initial_oneAtATime.run crowding
  have crowded : ((initial oneAtATime .empty).run crowding).settings.maxTransfers.toNat <
      ((initial oneAtATime .empty).run crowding).transferCount := by cbv
  exact absurd (limited _ reachable) (Nat.not_le.mpr crowded)

end Scheduler
end BlockFetch
