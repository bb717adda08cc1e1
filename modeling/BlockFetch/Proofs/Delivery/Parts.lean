import BlockFetch.Proofs.Lifecycle.Course
import BlockFetch.Proofs.Lifecycle.Repetition
import BlockFetch.Proofs.Workload.Outcome

/-!
# What is kept of blocks in parts

The end of an attempt drops the header and the count that are kept of the block, and those of no
other block. All else that happens leaves them alone, but for the parts that arrive.
-/
namespace BlockFetch

theorem Failure.ends {limit : Nat} {now : Timestamp} {block : BlockHash} {before after : Stage}
    {milestones : List Milestone} (h : Failure limit now block before milestones after) :
    before.isUnderway = true ∧ after.isUnderway = false := by
  cases h <;> exact ⟨rfl, rfl⟩

namespace Scheduler

variable {s t u : Scheduler} {block : BlockHash} {now : Timestamp}

/-! ## Ends of attempts -/

theorem partials_fail (s : Scheduler) (block : BlockHash) (now : Timestamp) :
    (s.fail block now).partials = s.partials.erase block := by
  rw [← partials_failHolders s block now]
  unfold fail
  extract_lets ended
  split
  · rfl
  · split <;> rfl

theorem partials_cancelNow (s : Scheduler) (block : BlockHash) (now : Timestamp) :
    (s.cancelNow block now).partials = s.partials.erase block := by
  rw [← partials_freeHolders s block]
  rfl

/-! ## Notices and turns -/

theorem partials_hearConnected (s : Scheduler) (peer : PeerAddress) :
    (s.hearConnected peer).partials = s.partials := by
  unfold hearConnected
  split
  · rfl
  · split <;> rfl

theorem partials_hearDisconnected (s : Scheduler) (peer : PeerAddress) (now : Timestamp) :
    (s.hearDisconnected peer now).partials = s.partials := by
  unfold hearDisconnected
  split
  · rfl
  · split
    · rfl
    · extract_lets left
      split <;> rfl

theorem partials_offerBlock (round : Round) (peer : PeerAddress) (now : Timestamp) :
    (offerBlock round peer now).scheduler.partials = round.scheduler.partials := by
  have offered := offer_offerBlock round peer now
  generalize (offerBlock round peer now).scheduler = offer at offered ⊢
  cases offered <;> rfl

theorem partials_watch (s : Scheduler) (peer : PeerAddress) (record : Peer) (transfer : Transfer)
    (now : Timestamp) : (s.watch peer record transfer now).partials = s.partials := by
  have observed : (s.observe peer record transfer.block now).2.partials = s.partials := by
    unfold observe
    split
    · rfl
    · dsimp only
      split <;> rfl
  unfold watch
  split
  · rfl
  · dsimp only
    split <;> exact observed

theorem partials_turns (s : Scheduler) (now : Timestamp) :
    (s.turns now).partials = s.partials := by
  have each : ∀ round peer,
      (turn now round peer).scheduler.partials = round.scheduler.partials := by
    intro round peer
    have taken := turnTaken_turn now round peer
    generalize turn now round peer = next at taken ⊢
    cases taken with
    | offered => exact partials_offerBlock round peer now
    | watched => exact partials_watch ..
    | passed => rfl
  have all : ∀ (peers : List PeerAddress) (round : Round),
      (peers.foldl (turn now) round).scheduler.partials = round.scheduler.partials := by
    intro peers
    induction peers with
    | nil => exact fun _ => rfl
    | cons peer rest ih => exact fun round => (ih (turn now round peer)).trans (each round peer)
  obtain ⟨flag, same⟩ := checkBandwidth_eq s
  have checked : s.checkBandwidth.partials = s.partials := by rw [same]
  exact (all s.fastestFirst ⟨s.checkBandwidth, s.pool⟩).trans checked

/-! ## Attempts that end -/

theorem Quiet.isInFlight (quiet : Quiet s t) (staged : s.Staged) (block : BlockHash) :
    t.isInFlight block = s.isInFlight block := by
  obtain ⟨stage, h⟩ := staged.stage block
  rw [((quiet.keeps block).inStage h).isInFlight, h.isInFlight]

theorem Passes.isInFlight_of_not_mem {rule : Rule} {blocks : List BlockHash}
    (h : Passes (rule.limitedTo blocks) s t) (staged : s.Staged) (unnamed : block ∉ blocks) :
    t.isInFlight block = s.isInFlight block := by
  obtain ⟨_, passage⟩ := h
  obtain ⟨before, inBefore⟩ := staged.stage block
  obtain ⟨after, inAfter, _, ⟨named, _⟩ | ⟨_, _, same⟩⟩ := passage.course block before inBefore
  · exact absurd named unnamed
  · rw [inAfter.isInFlight, same, inBefore.isInFlight]

/-- A step begins no attempts, and it drops what is kept of the blocks whose attempts it ends, and
of no others. -/
structure Sheds (s t : Scheduler) : Prop where
  lands : ∀ block, t.isInFlight block = true → s.isInFlight block = true
  partials : ∀ block, t.partials[block]? =
    if s.isInFlight block && !t.isInFlight block then none else s.partials[block]?

namespace Sheds

theorem of_same (flying : ∀ block, t.isInFlight block = s.isInFlight block)
    (partials : t.partials = s.partials) : Sheds s t where
  lands block flies := (flying block).symm.trans flies
  partials block := by
    rw [flying, Bool.and_not_self, partials]
    rfl

theorem of_tables (peers : t.peers = s.peers) (limbo : t.limbo = s.limbo)
    (partials : t.partials = s.partials) : Sheds s t :=
  of_same (fun _ => by rw [isInFlight, isInFlight, isHeld, isHeld, peers, limbo]) partials

theorem refl (s : Scheduler) : Sheds s s := of_tables rfl rfl rfl

theorem trans (first : Sheds s t) (second : Sheds t u) : Sheds s u where
  lands block flies := first.lands block (second.lands block flies)
  partials block := by
    rw [second.partials, first.partials]
    have before := first.lands block
    have after := second.lands block
    revert before after
    cases s.isInFlight block <;> cases t.isInFlight block <;> cases u.isInFlight block <;> simp

theorem of_ends {rule : Rule} (staged : s.Staged) (passes : Passes (rule.limitedTo [block]) s t)
    (ends : ∀ before milestones after, rule block before milestones after →
      before.isUnderway = true ∧ after.isUnderway = false)
    (partials : t.partials = s.partials.erase block) : Sheds s t := by
  have others : ∀ other, block ≠ other → t.isInFlight other = s.isInFlight other :=
    fun other different => passes.isInFlight_of_not_mem staged
      fun member => different (List.mem_singleton.mp member).symm
  have ended : s.isInFlight block = true ∧ t.isInFlight block = false := by
    obtain ⟨_, passage⟩ := passes
    obtain ⟨before, inBefore⟩ := staged.stage block
    obtain ⟨after, inAfter, _, ⟨_, allowed⟩ | ⟨unnamed, _⟩⟩ := passage.course block before inBefore
    · rw [inBefore.isInFlight, inAfter.isInFlight]
      exact ends _ _ _ allowed
    · exact absurd (List.mem_singleton_self block) unnamed
  constructor
  · intro other flies
    by_cases here : block = other
    · exact here ▸ ended.1
    · exact (others other here).symm.trans flies
  · intro other
    rw [partials, Std.ExtTreeMap.getElem?_erase]
    by_cases here : block = other
    · subst here
      simp [ended]
    · simp [here, others other here]

end Sheds

theorem sheds_fail (staged : s.Staged) (flies : s.isInFlight block = true) (now : Timestamp) :
    Sheds s (s.fail block now) := by
  obtain ⟨stage, h⟩ := staged.stage block
  rw [h.isInFlight] at flies
  cases stage with
  | underway custody attempts cancelling =>
    exact .of_ends staged (passes_fail now h) (fun _ _ _ => Failure.ends)
      (partials_fail s block now)
  | _ => exact nomatch flies

theorem sheds_hearNotFound (staged : s.Staged) (peer : PeerAddress) (blocks : List BlockHash)
    (now : Timestamp) : Sheds s (s.hearNotFound peer blocks now) := by
  unfold hearNotFound
  split
  · rename_i block
    split
    · rename_i holds
      have noted : Sheds s (s.note block (some peer) .notFound now) := .of_tables rfl rfl rfl
      have staged := (quiet_note s block (some peer) .notFound now).staged staged
      exact noted.trans (sheds_fail staged (isInFlight_iff.mpr (.inl ⟨peer, holds⟩)) now)
    · exact .refl s
  · exact .refl s

theorem sheds_reconcile (staged : s.Staged) (now : Timestamp) (block : BlockHash) :
    Sheds s (reconcile now s block) := by
  obtain ⟨stage, h⟩ := staged.stage block
  unfold reconcile
  split
  · rename_i fresh
    -- A block without a count of attempts is not in limbo.
    have outside : block ∉ s.limbo := by
      rw [h.isBegun] at fresh
      rw [h.inLimbo]
      cases stage <;> simp [Stage.standing] at fresh ⊢
    have same : ∀ other, other ∈ s.limbo.erase block ↔ other ∈ s.limbo := by
      intro other
      simp only [Std.ExtTreeSet.mem_erase, ne_eq, Std.LawfulEqCmp.compare_eq_iff_eq]
      refine ⟨And.right, fun member => ⟨?_, member⟩⟩
      rintro rfl
      exact outside member
    refine .of_same (fun other => ?_) rfl
    rw [Bool.eq_iff_iff, isInFlight_iff, isInFlight_iff]
    exact or_congr Iff.rfl (same other)
  · split
    · rename_i doomed
      rw [h.contains_cancelling] at doomed
      cases stage with
      | underway custody attempts cancelling =>
        have passes : Passes (Rule.limitedTo (fun _ before _ after =>
            before.isUnderway = true ∧ after.isUnderway = false) [block]) s
              (s.cancelNow block now) :=
          (moves_cancelNow now h).passes_limitedTo h ⟨rfl, rfl⟩
        exact .of_ends staged passes (fun _ _ _ => id) (partials_cancelNow s block now)
      | _ => simp [Stage.standing] at doomed
    · split
      · rename_i late
        refine sheds_fail staged ?_ now
        rw [h.isInFlight]
        cases stage with
        | underway => rfl
        | _ =>
          rw [h.lastActivity_eq_none rfl, Option.getD_none, Timestamp.since_self] at late
          exact absurd late (by simp)
      · exact .refl s

theorem sheds_foldl_reconcile (now : Timestamp) (blocks : List BlockHash) (staged : s.Staged) :
    Sheds s (blocks.foldl (reconcile now) s) := by
  induction blocks generalizing s with
  | nil => exact .refl s
  | cons block rest ih =>
    have next := (passes_reconcile staged now block).staged staged
    exact (sheds_reconcile staged now block).trans (ih next)

theorem sheds_tick_of_turns (s : Scheduler) (now : Timestamp)
    (turned : ({ s with ticks := s.ticks + 1 }.turns now).Staged) :
    Sheds ({ s with ticks := s.ticks + 1 }.turns now) (s.tick now) := by
  have resolved : ∀ t : Scheduler, t.Staged → Sheds t (t.reconcileLimbo now) :=
    fun t => sheds_foldl_reconcile now t.limbo.toList
  obtain ⟨_, _, _, shape, _⟩ := tick_eq s now
  rw [shape]
  exact (resolved _ turned).trans (.of_tables rfl rfl rfl)

theorem partials_tick (staged : s.Staged) (now : Timestamp) (block : BlockHash) :
    (s.tick now).partials[block]? =
      if s.isInFlight block && !(s.tick now).isInFlight block then none
      else s.partials[block]? := by
  have counted := quiet_setTicks s (s.ticks + 1)
  have passes := counted.trans_passes (passes_turns (counted.staged staged) now)
  have turned := passes.staged staged
  have kept : ({ s with ticks := s.ticks + 1 }.turns now).partials = s.partials :=
    partials_turns _ now
  rw [(sheds_tick_of_turns s now turned).partials, kept]
  obtain ⟨milestones, passage⟩ := passes
  obtain ⟨_, rest⟩ := passes_after_turns s now turned
  obtain ⟨before, inBefore⟩ := staged.stage block
  obtain ⟨middle, inMiddle, _, turn⟩ := passage.course block before inBefore
  obtain ⟨after, inAfter, _, _, _, _, _, resolution, revival⟩ := rest.course block middle inMiddle
  rw [inBefore.isInFlight, inMiddle.isInFlight, inAfter.isInFlight]
  generalize milestones block = passed at turn
  cases turn with
  | requested =>
    -- A block that was requested is not in limbo, so its attempt does not end in the same tick.
    rcases resolution with ⟨limbo, _⟩ | ⟨_, rfl⟩
    · exact nomatch limbo
    · rcases revival with revival | ⟨_, rfl⟩
      · exact nomatch revival
      · rfl
  | _ => rfl

end Scheduler
end BlockFetch
