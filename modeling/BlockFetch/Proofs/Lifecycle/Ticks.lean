import BlockFetch.Proofs.Lifecycle.Requests
import BlockFetch.Proofs.Lifecycle.Turns

/-!
# Ticks

The passage of a tick, from the passages of its parts: the turns of the peers, the blocks in limbo,
and the blocks that were put aside. A block that is requested in a tick is not in limbo, so nothing
else happens to it in the same tick.
-/
namespace BlockFetch

/-- What the passing of time does to a discarded block. -/
inductive Revival : Rule where
  | revived {block since} : Revival block (.discarded since) [] (.waiting none)

/-- What a tick does to a block. -/
inductive Tick (limit : Nat) (now : Timestamp) : Rule where
  | requested {block attempts? peer} :
      Tick limit now block (.waiting attempts?) [.requested peer]
        (.underway (.held peer) (attempts?.getD 0 + 1) false)
  | stalled {block peer attempts cancelling} :
      Tick limit now block (.underway (.held peer) attempts cancelling) []
        (.underway (.stalled peer) attempts cancelling)
  | failed {block before milestones after} (failure : Failure limit now block before milestones after) :
      Tick limit now block before milestones after
  | revived {block since} : Tick limit now block (.discarded since) [] (.waiting none)
  /-- A block may be put aside for no time at all. -/
  | discardedAndRevived {block custody attempts} (spent : limit ≤ attempts) :
      Tick limit now block (.underway custody attempts false) [.discarded] (.waiting none)
  | still {block stage} : Tick limit now block stage [] stage

theorem Timestamp.since_self (now : Timestamp) : now.since now = 0 := by
  apply UInt64.toNat_inj.mp
  simp

namespace Scheduler

variable {s : Scheduler}

/-! ## Limbo -/

/-- A block that is not under way is in neither table of attempts. -/
theorem moves_dropActivity {block : BlockHash} {before : Standing} (h : s.standing block = before) :
    Moves s { s with
        limbo := s.limbo.erase block
        lastActivity := s.lastActivity.erase block } block []
      { before with inLimbo := false, watched := false } := by
  refine .of_outbox_eq rfl rfl rfl rfl ?_ fun other different => ?_
  · rw [← h]
    simp [standing, blockAt?]
  · simp [standing, blockAt?, Std.ExtTreeSet.contains_erase, Std.ExtTreeMap.contains_erase,
      different]

/-- Time is up only for blocks under way: nothing is kept on when others were last heard of. -/
theorem passes_reconcile (staged : s.Staged) (now : Timestamp) (block : BlockHash) :
    Passes ((Failure s.settings.maxAttempts.toNat now).orStill.limitedTo [block]) s
      (reconcile now s block) := by
  obtain ⟨stage, h⟩ := staged.stage block
  unfold reconcile
  split
  · rename_i fresh
    rw [h.isBegun, Bool.not_eq_true', Option.isSome_eq_false_iff] at fresh
    have dropped := moves_dropActivity h
    have same : { stage.standing with inLimbo := false, watched := false } = stage.standing := by
      cases stage <;> simp [Stage.standing] at fresh ⊢
    rw [same] at dropped
    exact dropped.passes_limitedTo h (Or.inr ⟨rfl, rfl⟩)
  · split
    · rename_i cancelling
      rw [h.contains_cancelling] at cancelling
      cases stage with
      | underway custody attempts doomed =>
        cases cancelling
        exact (moves_cancelNow now h).passes_limitedTo h (Or.inl .cancelled)
      | _ => simp [Stage.standing] at cancelling
    · split
      · rename_i late
        cases stage with
        | underway custody attempts cancelling =>
          exact (passes_fail now h).limitedTo_orStill
        | _ =>
          rw [h.lastActivity_eq_none rfl, Option.getD_none, Timestamp.since_self] at late
          exact absurd late (by simp)
      · exact (Quiet.refl s).passes fun _ _ => Rule.limitedTo_orStill

theorem passes_foldl_reconcile (staged : s.Staged) (now : Timestamp) (blocks : List BlockHash) :
    Passes ((Failure s.settings.maxAttempts.toNat now).orStill.limitedTo blocks) s
      (blocks.foldl (reconcile now) s) := by
  refine passes_foldl_limitedTo (Failure s.settings.maxAttempts.toNat now).orStill s.settings
    (fun s block staged same => same ▸ passes_reconcile staged now block) ?_ blocks staged rfl
  rintro block before early middle late after (head | ⟨rfl, rfl⟩) tail
  · rcases tail with tail | ⟨rfl, rfl⟩
    · cases head <;> cases tail
    · rw [List.append_nil]
      exact Or.inl head
  · exact tail

theorem passes_reconcileLimbo (staged : s.Staged) (now : Timestamp) :
    Passes (fun block before milestones after =>
        (before.standing.inLimbo = true ∧
          Failure s.settings.maxAttempts.toNat now block before milestones after) ∨
        Rule.still block before milestones after) s (s.reconcileLimbo now) := by
  refine (passes_foldl_reconcile staged now s.limbo.toList).mono ?_
  rintro block before milestones after inStage (⟨member, failure | still⟩ | ⟨_, still⟩)
  · rw [Std.ExtTreeSet.mem_toList, inStage.inLimbo] at member
    exact Or.inl ⟨member, failure⟩
  · exact Or.inr still
  · exact Or.inr still

/-! ## Revival -/

theorem mem_expired {s : Scheduler} {now : Timestamp} {block : BlockHash} :
    block ∈ s.expired now ↔
      ∃ since, s.discarded[block]? = some since ∧ s.settings.discardTimeout ≤ now.since since := by
  simp [expired, Std.ExtTreeMap.mem_toList_iff_getElem?_eq_some]

theorem foldl_revive (blocks : List BlockHash) (now : Timestamp) (s : Scheduler) :
    ∃ discarded journal,
      blocks.foldl (fun s block =>
          { s with discarded := s.discarded.erase block }.note block none .revived now) s =
        { s with discarded, journal } ∧
      ∀ block, discarded[block]? = if block ∈ blocks then none else s.discarded[block]? := by
  induction blocks generalizing s with
  | nil => exact ⟨s.discarded, s.journal, rfl, fun block => by simp⟩
  | cons first rest ih =>
    obtain ⟨discarded, journal, same, found⟩ :=
      ih ({ s with discarded := s.discarded.erase first }.note first none .revived now)
    refine ⟨discarded, journal, same, fun block => ?_⟩
    rw [found]
    by_cases here : first = block
    · subst here
      simp [note]
    · simp [note, Std.ExtTreeMap.getElem?_erase, here, Ne.symm here]

theorem reviveDiscarded_eq (s : Scheduler) (now : Timestamp) :
    ∃ discarded journal,
      s.reviveDiscarded now =
        { s with discarded, journal, backlog := s.backlog.prepend (s.expired now) } ∧
      ∀ block, discarded[block]? = if block ∈ s.expired now then none else s.discarded[block]? := by
  obtain ⟨discarded, journal, shape, found⟩ := foldl_revive (s.expired now) now s
  refine ⟨discarded, journal, ?_, found⟩
  unfold reviveDiscarded
  simp only [shape]

/-- A discarded block whose time is up waits again, and all other blocks are left alone. -/
theorem standing_reviveDiscarded {s : Scheduler} (staged : s.Staged) (now : Timestamp)
    (block : BlockHash) :
    (s.reviveDiscarded now).standing block =
      if block ∈ s.expired now then
        { s.standing block with waiting := 1, discardedAt? := none }
      else s.standing block := by
  obtain ⟨discarded, journal, shape, found⟩ := reviveDiscarded_eq s now
  have step : (s.reviveDiscarded now).standing block =
      { s.standing block with
        waiting := (s.backlog.prepend (s.expired now)).queue.count block
        discardedAt? := discarded[block]? } := by
    rw [shape]
    rfl
  have count := Backlog.count_queue_add staged.nodup_queue (s.expired now) true block
  rw [step, show (s.backlog.prepend (s.expired now)).queue.count block = _ from count, found]
  by_cases due : block ∈ s.expired now
  · rw [if_pos due, if_pos (Or.inl due), if_pos due]
  · rw [if_neg due, if_neg due]
    simp only [or_iff_right due, ← staged.count_queue]
    rfl

theorem passes_reviveDiscarded {s : Scheduler} (staged : s.Staged) (now : Timestamp) :
    Passes (Revival.limitedTo (s.expired now)) s (s.reviveDiscarded now) := by
  obtain ⟨discarded, journal, shape, _⟩ := reviveDiscarded_eq s now
  refine passes_of_outbox_eq (.of_peers_eq (by rw [shape])) (by rw [shape]) (by rw [shape])
    (by rw [shape]) ?_
  intro block stage h
  have told := standing_reviveDiscarded staged now block
  rw [h] at told
  by_cases due : block ∈ s.expired now
  · rw [if_pos due] at told
    obtain ⟨since, found, _⟩ := mem_expired.mp due
    rw [h.discarded] at found
    cases stage with
    | discarded => exact ⟨.waiting none, told, Or.inl ⟨due, .revived⟩⟩
    | _ => simp [Stage.standing] at found
  · rw [if_neg due] at told
    exact ⟨stage, told, Or.inr ⟨due, rfl, rfl⟩⟩

/-! ## The whole tick -/

/-- After limbo is resolved, a tick revives the discarded blocks whose time is up, and brings up to
date what is reported. -/
theorem tick_eq (s : Scheduler) (now : Timestamp) :
    let resolved := ({ s with ticks := s.ticks + 1 }.turns now).reconcileLimbo now
    ∃ discarded busyPercentage journal, s.tick now = { resolved with
        backlog := resolved.backlog.prepend (resolved.expired now)
        discarded, busyPercentage, journal } ∧
      ∀ block : BlockHash, discarded[block]? =
        if block ∈ resolved.expired now then none else resolved.discarded[block]? := by
  intro resolved
  have same : s.tick now = (resolved.reviveDiscarded now).gaugeBusy.purgeJournal now := rfl
  obtain ⟨discarded, journal, shape, found⟩ := reviveDiscarded_eq resolved now
  obtain ⟨share, gauged⟩ : ∃ share, (resolved.reviveDiscarded now).gaugeBusy =
      { resolved.reviveDiscarded now with busyPercentage := share } := ⟨_, rfl⟩
  rw [same, gauged, shape]
  unfold purgeJournal
  split <;> exact ⟨discarded, share, _, rfl, found⟩

/-- What a tick does to a block after the turns: a block in limbo may fail, and a discarded one may
wait again. -/
def AfterTurns (limit : Nat) (now : Timestamp) : Rule :=
  Rule.followedBy (fun block before milestones after =>
    (before.standing.inLimbo = true ∧ Failure limit now block before milestones after) ∨
      Rule.still block before milestones after) Revival.orStill

theorem passes_after_turns (s : Scheduler) (now : Timestamp)
    (turned : ({ s with ticks := s.ticks + 1 }.turns now).Staged) :
    Passes (AfterTurns ({ s with ticks := s.ticks + 1 }.turns now).settings.maxAttempts.toNat now)
      ({ s with ticks := s.ticks + 1 }.turns now) (s.tick now) := by
  have resolved := passes_reconcileLimbo turned now
  have revived := (passes_reviveDiscarded (resolved.staged turned) now).mono
    fun _ _ _ _ _ allowed => (allowed.imp And.right And.right : Revival.orStill _ _ _ _)
  exact ((resolved.trans revived).trans_quiet (quiet_gaugeBusy _)).trans_quiet
    (quiet_purgeJournal _ now)

theorem passes_tick (staged : s.Staged) (now : Timestamp) :
    Passes (Tick s.settings.maxAttempts.toNat now) s (s.tick now) := by
  have counted := quiet_setTicks s (s.ticks + 1)
  have turned := counted.trans_passes (passes_turns (counted.staged staged) now)
  have rest := passes_after_turns s now (turned.staged staged)
  rw [turned.settings] at rest
  refine (turned.trans rest).mono ?_
  rintro block before milestones after _
    ⟨second, first, _, rfl, turn, third, middle, late, rfl, resolution, revival⟩
  rcases resolution with ⟨limbo, failure⟩ | ⟨rfl, rfl⟩
  -- The block was in limbo after the turns, so it was not requested in this tick.
  · have failed : Failure s.settings.maxAttempts.toNat now block before (first ++ middle) third := by
      cases turn with
      | requested => simp [Stage.standing, Custody.inLimbo] at limbo
      | stalled => cases failure with
        | cancelled => exact .cancelled
        | requeued left => exact .requeued left
        | discarded spent => exact .discarded spent
      | still => exact failure
    rw [← List.append_assoc]
    generalize first ++ middle = milestones at failed ⊢
    rcases revival with revival | ⟨rfl, rfl⟩
    · cases revival
      cases failed with
      | discarded spent => exact .discardedAndRevived spent
    · rw [List.append_nil]
      exact .failed failed
  · rw [List.nil_append]
    rcases revival with revival | ⟨rfl, rfl⟩
    · cases revival
      cases turn
      exact .revived
    · rw [List.append_nil]
      cases turn with
      | requested => exact .requested
      | stalled => exact .stalled
      | still => exact .still

/-- After the turns a tick puts no block under way, and a block that stays under way stays as it
is. -/
theorem passes_tick_of_turns (s : Scheduler) (now : Timestamp)
    (turned : ({ s with ticks := s.ticks + 1 }.turns now).Staged) :
    Passes (fun _ before _ after => after.isUnderway = true → after = before)
      ({ s with ticks := s.ticks + 1 }.turns now) (s.tick now) := by
  refine (passes_after_turns s now turned).mono ?_
  rintro block before milestones after _ ⟨middle, early, late, rfl, resolution, revival⟩ underway
  rcases revival with revival | ⟨rfl, rfl⟩
  · cases revival
    exact nomatch underway
  · rcases resolution with ⟨_, failure⟩ | ⟨rfl, rfl⟩
    · cases failure <;> exact nomatch underway
    · rfl

end Scheduler
end BlockFetch
