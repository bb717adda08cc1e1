import BlockFetch.Proofs.Deadlines.Watch
import BlockFetch.Proofs.Workload.SideTables

/-!
# Deadlines

A tick enforces the time limits of transfers, of blocks in limbo and of discarded blocks, in this
order, so a block may pass through several of them in one tick. Time may go backwards between ticks:
what lies ahead counts as having happened just now.
-/
namespace BlockFetch.Scheduler

/-- What a tick does about deadlines: none has passed when it is over, and it ends nothing before
its deadline. A block may enter limbo and leave it in the same tick, and be discarded and wait again
in the same tick, so the states in the middle of the tick count as well. -/
structure KeepsDeadlines (s : Scheduler) (now : Timestamp) : Prop where
  transfers : ∀ peer transfer, (s.tick now).transferAt? peer = some transfer →
    transfer.block ∉ (s.tick now).limbo → transfer.IsTimely s.settings now
  limbo : ∀ block ∈ (s.tick now).limbo, block ∉ (s.tick now).cancelling ∧
    ∃ last, (s.tick now).lastActivity[block]? = some last ∧
      now.since last ≤ s.settings.limboTimeout
  discarded : ∀ (block : BlockHash) since, (s.tick now).discarded[block]? = some since →
    now.since since < s.settings.discardTimeout
  /-- A block enters limbo only if its transfer, as its stream shows it now, is not timely. -/
  stalled : ∀ block, block ∉ s.limbo →
    block ∈ (s.midSweep now []).limbo ∨ block ∈ (s.tick now).limbo →
    ∃ peer transfer, s.seen? peer now = some transfer ∧ transfer.block = block ∧
      ¬ transfer.IsTimely s.settings now
  resolved : ∀ block, block ∈ s.limbo ∨ block ∈ (s.midSweep now []).limbo →
    block ∉ (s.tick now).limbo → block ∈ s.cancelling ∨
      block ∈ s.limbo ∧ ∃ last, s.lastActivity[block]? = some last ∧
        s.settings.limboTimeout < now.since last
  revived : ∀ (block : BlockHash) since, s.discarded[block]? = some since ∨
      ((s.midSweep now []).reconcileLimbo now).discarded[block]? = some since →
    (s.tick now).discarded[block]? = none → s.settings.discardTimeout ≤ now.since since

def IsDue (s : Scheduler) (now : Timestamp) (block : BlockHash) : Prop :=
  block ∈ s.cancelling ∨
    ∃ last, s.lastActivity[block]? = some last ∧ s.settings.limboTimeout < now.since last

/-- A step leaves a block, and the time when something was last heard of it, as they were. -/
structure Leaves (s t : Scheduler) (block : BlockHash) : Prop where
  settings : t.settings = s.settings
  standing : t.standing block = s.standing block
  activity : t.lastActivity[block]? = s.lastActivity[block]?

variable {s t u : Scheduler} {block : BlockHash} {now : Timestamp}

theorem Leaves.trans (first : Leaves s t block) (second : Leaves t u block) : Leaves s u block where
  settings := second.settings.trans first.settings
  standing := second.standing.trans first.standing
  activity := second.activity.trans first.activity

theorem Leaves.mem_limbo (h : Leaves s t block) : block ∈ t.limbo ↔ block ∈ s.limbo := by
  rw [← Std.ExtTreeSet.contains_iff_mem, ← Std.ExtTreeSet.contains_iff_mem]
  exact iff_of_eq (congrArg (fun standing => standing.inLimbo = true) h.standing)

theorem Leaves.isDue (h : Leaves s t block) : t.IsDue now block ↔ s.IsDue now block := by
  have cancelling : block ∈ t.cancelling ↔ block ∈ s.cancelling := by
    rw [← Std.ExtTreeSet.contains_iff_mem, ← Std.ExtTreeSet.contains_iff_mem]
    exact iff_of_eq (congrArg (fun standing => standing.cancelling = true) h.standing)
  rw [IsDue, IsDue, cancelling, h.activity, h.settings]

/-! ## One block in limbo -/

theorem lastActivity_fail (s : Scheduler) (block : BlockHash) (now : Timestamp) :
    (s.fail block now).lastActivity = s.lastActivity.erase block := by
  rw [← lastActivity_failHolders s block now]
  unfold fail
  extract_lets ended
  split
  · rfl
  · split <;> rfl

theorem lastActivity_cancelNow (s : Scheduler) (block : BlockHash) (now : Timestamp) :
    (s.cancelNow block now).lastActivity = s.lastActivity.erase block := by
  rw [← lastActivity_freeHolders s block]
  rfl

theorem lastActivity_reconcile (s : Scheduler) {block other : BlockHash} (different : block ≠ other)
    (now : Timestamp) : (reconcile now s block).lastActivity[other]? = s.lastActivity[other]? := by
  have erased : (s.lastActivity.erase block)[other]? = s.lastActivity[other]? := by
    simp [Std.ExtTreeMap.getElem?_erase, different]
  unfold reconcile
  split
  · exact erased
  · split
    · rw [lastActivity_cancelNow, erased]
    · split
      · rw [lastActivity_fail, erased]
      · rfl

theorem leaves_reconcile (staged : s.Staged) {other : BlockHash} (different : block ≠ other)
    (now : Timestamp) : Leaves s (reconcile now s block) other := by
  obtain ⟨milestones, passage⟩ := passes_reconcile staged now block
  refine ⟨passage.settings, ?_, lastActivity_reconcile s different now⟩
  obtain ⟨before, inBefore⟩ := staged.stage other
  obtain ⟨after, inAfter, _, ⟨named, _⟩ | ⟨_, _, rfl⟩⟩ := passage.course other before inBefore
  · exact absurd (List.mem_singleton.mp named).symm different
  · exact inAfter.trans inBefore.symm

theorem reconcile_of_not_isDue (staged : s.Staged) (member : block ∈ s.limbo)
    (early : ¬ s.IsDue now block) : reconcile now s block = s := by
  obtain ⟨stage, h⟩ := staged.stage block
  have underway := h.isUnderway_of_mem_limbo member
  obtain ⟨wanted, heard⟩ := not_or.mp early
  obtain ⟨last, known⟩ : ∃ last, s.lastActivity[block]? = some last := by
    rw [← Option.isSome_iff_exists, Std.ExtTreeMap.isSome_getElem?_iff_mem]
    exact h.mem_lastActivity.mpr underway
  have begun := h.isBegun_of_isUnderway underway
  have recent : ¬ now.since last > s.settings.limboTimeout := fun late => heard ⟨last, known, late⟩
  rw [← Std.ExtTreeSet.contains_iff_mem, Bool.not_eq_true] at wanted
  simp only [reconcile, begun, wanted, known, Option.getD_some, recent, Bool.not_true,
    Bool.false_eq_true, if_false]

theorem not_mem_limbo_reconcile (staged : s.Staged) (member : block ∈ s.limbo)
    (due : s.IsDue now block) : block ∉ (reconcile now s block).limbo := by
  obtain ⟨stage, h⟩ := staged.stage block
  have underway := h.isUnderway_of_mem_limbo member
  have begun := h.isBegun_of_isUnderway underway
  cases stage with
  | underway custody attempts cancelling =>
    cases cancelling with
    | true =>
      have doomed : s.cancelling.contains block = true := h.contains_cancelling
      have cancelled : (reconcile now s block).InStage block .cancelled := by
        simp only [reconcile, begun, doomed, Bool.not_true, Bool.false_eq_true, if_false, if_true]
        exact (moves_cancelNow now h).standing
      exact fun still => nomatch cancelled.inLimbo.mp still
    | false =>
      have wanted : s.cancelling.contains block = false := h.contains_cancelling
      obtain doomed | ⟨last, known, late⟩ := due
      · rw [← Std.ExtTreeSet.contains_iff_mem, wanted] at doomed
        exact nomatch doomed
      · have step : reconcile now s block = s.fail block now := by
          have overdue : now.since last > s.settings.limboTimeout := late
          simp only [reconcile, begun, wanted, known, Option.getD_some, overdue, Bool.not_true,
            Bool.false_eq_true, if_false, if_true]
        obtain ⟨milestones, passage⟩ := passes_fail now h
        obtain ⟨after, inAfter, _, ⟨_, failure⟩ | ⟨unnamed, _⟩⟩ := passage.course block _ h
        · rw [step]
          intro still
          have inLimbo := inAfter.inLimbo.mp still
          generalize milestones block = passed at failure
          cases failure <;> exact nomatch inLimbo
        · exact absurd (List.mem_singleton_self block) unnamed
  | _ => exact nomatch underway

/-! ## All blocks in limbo -/

theorem leaves_foldl_reconcile {blocks : List BlockHash} (staged : s.Staged)
    (absent : block ∉ blocks) (now : Timestamp) :
    Leaves s (blocks.foldl (reconcile now) s) block := by
  induction blocks generalizing s with
  | nil => exact ⟨rfl, rfl, rfl⟩
  | cons first rest ih =>
    obtain ⟨different, absent⟩ := List.ne_and_not_mem_of_not_mem_cons absent
    have step := leaves_reconcile staged (Ne.symm different) now
    exact step.trans (ih ((passes_reconcile staged now first).staged staged) absent)

/-- A block in limbo that is looked at leaves limbo if it is due, and is left alone otherwise. -/
theorem swept {blocks : List BlockHash} (staged : s.Staged) (distinct : blocks.Nodup)
    (limbo : ∀ block ∈ blocks, block ∈ s.limbo) (listed : block ∈ blocks) (now : Timestamp) :
    (s.IsDue now block → block ∉ (blocks.foldl (reconcile now) s).limbo) ∧
      (¬ s.IsDue now block → Leaves s (blocks.foldl (reconcile now) s) block) := by
  induction blocks generalizing s with
  | nil => exact nomatch listed
  | cons first rest ih =>
    obtain ⟨absent, distinct⟩ := List.nodup_cons.mp distinct
    have ready := (passes_reconcile staged now first).staged staged
    by_cases here : first = block
    · subst here
      have later := leaves_foldl_reconcile ready absent now
      refine ⟨fun due => ?_, fun early => ?_⟩
      · exact fun still => not_mem_limbo_reconcile staged (limbo first List.mem_cons_self) due
          (later.mem_limbo.mp still)
      · rw [List.foldl_cons, reconcile_of_not_isDue staged (limbo first List.mem_cons_self) early]
        exact leaves_foldl_reconcile staged absent now
    · have step := leaves_reconcile staged here now
      have still : ∀ other ∈ rest, other ∈ (reconcile now s first).limbo := by
        intro other member
        have different : first ≠ other := fun same => absent (same ▸ member)
        exact (leaves_reconcile staged different now).mem_limbo.mpr
          (limbo other (List.mem_cons_of_mem _ member))
      have member := (List.mem_cons.mp listed).resolve_left (Ne.symm here)
      obtain ⟨gone, left⟩ := ih ready distinct still member
      refine ⟨fun due => gone (step.isDue.mpr due), fun early => step.trans (left ?_)⟩
      exact fun due => early (step.isDue.mp due)

theorem Staged.swept_limbo (staged : s.Staged) (member : block ∈ s.limbo) (now : Timestamp) :
    (s.IsDue now block → block ∉ (s.reconcileLimbo now).limbo) ∧
      (¬ s.IsDue now block → Leaves s (s.reconcileLimbo now) block) :=
  swept staged (BlockSet.nodup_toList s.limbo) (fun _ => Std.ExtTreeSet.mem_toList.mp)
    (Std.ExtTreeSet.mem_toList.mpr member) now

/-! ## The whole tick -/

theorem Staged.midSweep (staged : s.Staged) (now : Timestamp) : (s.midSweep now []).Staged :=
  (passes_turns ((quiet_setTicks s (s.ticks + 1)).staged staged) now).staged
    ((quiet_setTicks s (s.ticks + 1)).staged staged)

theorem Staged.settings_midSweep (staged : s.Staged) (now : Timestamp) :
    (s.midSweep now []).settings = s.settings :=
  (passes_turns ((quiet_setTicks s (s.ticks + 1)).staged staged) now).settings

theorem Staged.watched_midSweep (staged : s.Staged) (online : s.AllPeers Peer.SendsOnline)
    (now : Timestamp) : Watched now s [] (s.midSweep now []) := by
  have ready := (quiet_setTicks s (s.ticks + 1)).staged staged
  have watched := ready.watched_turns online now
  exact ⟨watched.settings, watched.snapshots, watched.untouched, watched.timely, watched.kept,
    watched.entered⟩

/-- A block that a tick leaves under way is as the turns have left it. -/
theorem Staged.leaves_tick (staged : s.Staged) (now : Timestamp)
    (underway : (s.tick now).isInFlight block = true) :
    (s.tick now).standing block = (s.midSweep now []).standing block := by
  have turned := staged.midSweep now
  obtain ⟨before, inBefore⟩ := turned.stage block
  obtain ⟨milestones, passage⟩ := passes_tick_of_turns s now turned
  obtain ⟨after, inAfter, _, kept⟩ := passage.course block before inBefore
  rw [inAfter.isInFlight] at underway
  rw [kept underway] at inAfter
  exact inAfter.trans inBefore.symm

/-- The turns take back no wish to cancel a block in limbo. -/
theorem Staged.mem_cancelling_of_midSweep (staged : s.Staged) (now : Timestamp)
    (limbo : block ∈ (s.midSweep now []).limbo)
    (doomed : block ∈ (s.midSweep now []).cancelling) : block ∈ s.cancelling := by
  obtain ⟨before, inBefore⟩ := staged.stage block
  have counted := quiet_setTicks s (s.ticks + 1)
  obtain ⟨milestones, passage⟩ := passes_turns (counted.staged staged) now
  obtain ⟨after, inAfter, _, turn⟩ :=
    passage.course block before ((counted.keeps block).inStage inBefore)
  have wished : s.midSweep now [] = { s with ticks := s.ticks + 1 }.turns now := rfl
  rw [wished] at limbo doomed
  rw [← Std.ExtTreeSet.contains_iff_mem, inAfter.contains_cancelling] at doomed
  rw [← Std.ExtTreeSet.contains_iff_mem, inBefore.contains_cancelling]
  have inLimbo := inAfter.inLimbo.mp limbo
  generalize milestones block = passed at turn
  cases turn with
  | requested => exact nomatch inLimbo
  | stalled => exact doomed
  | still => exact doomed

/-- A discarded block is still discarded when limbo has been resolved. -/
theorem Staged.discarded_reconcileLimbo (staged : s.Staged) (now : Timestamp) {since : Timestamp}
    (found : s.discarded[block]? = some since) :
    ((s.midSweep now []).reconcileLimbo now).discarded[block]? = some since := by
  obtain ⟨before, inBefore⟩ := staged.stage block
  have counted := quiet_setTicks s (s.ticks + 1)
  have turned := counted.trans_passes (passes_turns (counted.staged staged) now)
  have resolved := passes_reconcileLimbo (staged.midSweep now) now
  obtain ⟨milestones, passage⟩ := turned.trans resolved
  obtain ⟨after, inAfter, _, middle, early, late, _, turn, resolution⟩ :=
    passage.course block before inBefore
  rw [inBefore.discarded] at found
  rw [show ((s.midSweep now []).reconcileLimbo now).discarded[block]? = _ from inAfter.discarded]
  cases before with
  | discarded =>
    cases turn
    rcases resolution with ⟨_, failure⟩ | ⟨_, rfl⟩
    · exact nomatch failure
    · exact found
  | _ => exact nomatch found

/-! ## Deadlines after a tick -/

theorem Staged.mem_limbo_midSweep (staged : s.Staged) (member : block ∈ (s.tick now).limbo) :
    block ∈ (s.midSweep now []).limbo := by
  have flies : (s.tick now).isInFlight block = true := isInFlight_iff.mpr (.inr member)
  have same := congrArg Standing.inLimbo (staged.leaves_tick now flies)
  rw [← Std.ExtTreeSet.contains_iff_mem] at member ⊢
  exact same.symm.trans member

theorem Staged.mem_limbo_tick (staged : s.Staged) (member : block ∈ (s.midSweep now []).limbo) :
    block ∈ (s.tick now).limbo ↔ ¬ (s.midSweep now []).IsDue now block := by
  obtain ⟨discarded, share, journal, shape, _⟩ := tick_eq s now
  obtain ⟨gone, left⟩ := (staged.midSweep now).swept_limbo member now
  rw [shape]
  exact ⟨fun still due => gone due still, fun early => (left early).mem_limbo.mpr member⟩

theorem Reachable.isTimely_of_transferAt?_tick (h : s.Reachable) {peer : PeerAddress}
    {transfer : Transfer} (sends : (s.tick now).transferAt? peer = some transfer)
    (outside : transfer.block ∉ (s.tick now).limbo) : transfer.IsTimely s.settings now := by
  have sent := (elements_tick_of_turns s now).transferAt? sends
  have watched := h.staged.watched_midSweep h.sendsOnline now
  refine (watched.timely peer transfer List.not_mem_nil sent).resolve_left fun stalled => ?_
  have flies : (s.tick now).isInFlight transfer.block = true := by
    refine isInFlight_iff.mpr (.inl ⟨peer, ?_⟩)
    obtain ⟨record, known, sends⟩ := Option.bind_eq_some_iff.mp sends
    rw [blockAt?, known, Option.bind_some, Peer.block?, sends, Option.map_some]
  have same := congrArg Standing.inLimbo (h.staged.leaves_tick now flies)
  rw [← Std.ExtTreeSet.contains_iff_mem] at outside stalled
  exact outside (same.trans stalled)

theorem Staged.early_of_mem_limbo_tick (staged : s.Staged) (member : block ∈ (s.tick now).limbo) :
    block ∉ (s.tick now).cancelling ∧
      ∃ last, (s.tick now).lastActivity[block]? = some last ∧
        now.since last ≤ s.settings.limboTimeout := by
  have turned := staged.midSweep now
  have inside := staged.mem_limbo_midSweep member
  have early := (staged.mem_limbo_tick inside).mp member
  have still := (turned.swept_limbo inside now).2 early
  obtain ⟨wanted, heard⟩ := not_or.mp (mt still.isDue.mp early)
  obtain ⟨stage, inStage⟩ := ((passes_tick staged now).staged staged).stage block
  have underway := inStage.isUnderway_of_mem_limbo member
  obtain ⟨last, known⟩ := Option.isSome_iff_exists.mp
    (Std.ExtTreeMap.isSome_getElem?_iff_mem.mpr (inStage.mem_lastActivity.mpr underway))
  have settings : ((s.midSweep now []).reconcileLimbo now).settings = s.settings :=
    still.settings.trans (staged.settings_midSweep now)
  obtain ⟨discarded, share, journal, shape, _⟩ := tick_eq s now
  rw [shape] at known ⊢
  refine ⟨wanted, last, known, UInt64.not_lt.mp fun late => heard ⟨last, known, ?_⟩⟩
  rwa [settings]

/-- A block leaves limbo if its cancellation was asked for, or if nothing was heard of it for too
long. The time of one that has entered limbo in the same tick is not over. -/
theorem Reachable.isDue_of_not_mem_limbo_tick (h : s.Reachable)
    (inside : block ∈ s.limbo ∨ block ∈ (s.midSweep now []).limbo)
    (outside : block ∉ (s.tick now).limbo) :
    block ∈ s.cancelling ∨ block ∈ s.limbo ∧ ∃ last, s.lastActivity[block]? = some last ∧
      s.settings.limboTimeout < now.since last := by
  have watched := h.staged.watched_midSweep h.sendsOnline now
  have member : block ∈ (s.midSweep now []).limbo :=
    inside.elim (fun before => (watched.kept block before).1) id
  have due := not_not.mp (mt (h.staged.mem_limbo_tick member).mpr outside)
  rcases due with doomed | ⟨last, known, late⟩
  · exact .inl (h.staged.mem_cancelling_of_midSweep now member doomed)
  · rw [watched.settings] at late
    by_cases before : block ∈ s.limbo
    · rw [(watched.kept block before).2] at known
      exact .inr ⟨before, last, known, late⟩
    · rw [(watched.entered block member before).1] at known
      cases known
      rw [Timestamp.since_self] at late
      exact absurd late (UInt64.not_lt.mpr (UInt64.le_iff_toNat_le.mpr (Nat.zero_le _)))

/-- The discarded blocks after a tick are those before it and those put aside in it, but for the
ones whose time is up. -/
theorem Staged.discarded_tick (staged : s.Staged) (now : Timestamp) (block : BlockHash)
    (since : Timestamp) :
    (s.tick now).discarded[block]? = some since ↔
      ((s.midSweep now []).reconcileLimbo now).discarded[block]? = some since ∧
        now.since since < s.settings.discardTimeout := by
  obtain ⟨discarded, share, journal, shape, found⟩ := tick_eq s now
  have settings : ((s.midSweep now []).reconcileLimbo now).settings = s.settings :=
    (passes_reconcileLimbo (staged.midSweep now) now).settings.trans (staged.settings_midSweep now)
  have left : discarded[block]? =
      if block ∈ ((s.midSweep now []).reconcileLimbo now).expired now then none
      else ((s.midSweep now []).reconcileLimbo now).discarded[block]? := found block
  rw [shape]
  change discarded[block]? = some since ↔ _
  rw [left, ← settings, ← UInt64.not_le]
  by_cases expired : block ∈ ((s.midSweep now []).reconcileLimbo now).expired now
  · obtain ⟨put, aside, overdue⟩ := mem_expired.mp expired
    rw [if_pos expired, aside, Option.some_inj]
    exact iff_of_false nofun fun ⟨same, early⟩ => early (same ▸ overdue)
  · rw [if_neg expired]
    refine ⟨fun kept => ⟨kept, fun overdue => ?_⟩, And.left⟩
    exact expired (mem_expired.mpr ⟨since, kept, overdue⟩)

/-- In every state that can be reached, whatever the streams show and whatever time it is, a tick
enforces all deadlines and ends nothing before its deadline. -/
theorem Reachable.keeps_deadlines (h : s.Reachable) (streams : StreamTable) (now : Timestamp) :
    KeepsDeadlines { s with streams } now := by
  have reachable : Reachable { s with streams } := h.applied now (.transport streams)
  generalize { s with streams } = s at reachable
  have staged := reachable.staged
  have watched := staged.watched_midSweep reachable.sendsOnline now
  constructor
  case transfers => exact fun peer transfer => reachable.isTimely_of_transferAt?_tick
  case limbo => exact fun block => staged.early_of_mem_limbo_tick
  case discarded =>
    intro block since kept
    exact ((staged.discarded_tick now block since).mp kept).2
  case stalled =>
    intro block outside entered
    have member := entered.elim id staged.mem_limbo_midSweep
    exact (watched.entered block member outside).2
  case resolved => exact fun block => reachable.isDue_of_not_mem_limbo_tick
  case revived =>
    intro block since before gone
    have kept := before.elim (staged.discarded_reconcileLimbo now) id
    by_contra early
    have still := (staged.discarded_tick now block since).mpr ⟨kept, UInt64.not_le.mp early⟩
    exact nomatch gone.symm.trans still

def broken : StreamTable :=
  StreamTable.empty.setSnapshot soleSender ⟨none, 0, .corrupted⟩

theorem keeps_deadlines_broken :
    sending.Reachable ∧ BlockHash.zero ∉ sending.limbo ∧
      BlockHash.zero ∈ ({ sending with streams := broken }.tick ⟨3⟩).limbo ∧
      ∃ peer transfer, { sending with streams := broken }.seen? peer ⟨3⟩ = some transfer ∧
        transfer.block = .zero ∧ ¬ transfer.IsTimely sending.settings ⟨3⟩ := by
  have outside : BlockHash.zero ∉ sending.limbo := by decide +kernel
  have entered : BlockHash.zero ∈ ({ sending with streams := broken }.tick ⟨3⟩).limbo := by
    decide +kernel
  exact ⟨reachable_sending, outside, entered,
    (reachable_sending.keeps_deadlines broken ⟨3⟩).stalled .zero outside (.inr entered)⟩

end BlockFetch.Scheduler
