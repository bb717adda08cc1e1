import BlockFetch.Proofs.Eligibility.Blame
import BlockFetch.Proofs.Eligibility.Deferral
import BlockFetch.Proofs.Scan.Pause
import BlockFetch.Proofs.Workload.SideTables

/-!
# Cooldown

A peer that failed a block is not asked for it again before the cooldown is over, unless the block
was downloaded, discarded or cancelled meanwhile. The backlog remembers the last failure of every
peer on every block whose attempts go on, whichever way the peer failed.
-/
namespace BlockFetch

namespace Step

/-- Whether a block is downloaded, discarded or cancelled in a step. -/
def concludes (step : Step) (block : BlockHash) : Bool :=
  (step.marks block).any Mark.settles

/-- Whether a peer fails the block that it is sending: it disconnects, or its transfer stalls and
the block is put in limbo, or the attempt fails and the block waits again. -/
def fails (step : Step) (peer : PeerAddress) (block : BlockHash) : Bool :=
  step.before.blockAt? peer = some block &&
    (step.operation.disconnects peer ||
      (!step.before.limbo.contains block && step.after.limbo.contains block) ||
      (!step.operation.endsSession && step.after.backlog.contains block))

end Step

/-- When a peer last failed a block in a run, since the block was last downloaded, discarded or
cancelled. -/
def Scheduler.lastFailure? (s : Scheduler) (history : List (Timestamp × Operation))
    (peer : PeerAddress) (block : BlockHash) : Option Timestamp :=
  s.lastSince? history (fun step => step.concludes block) fun step =>
    if step.fails peer block then some step.now else none

/-! ## What becomes of the count of attempts -/

section

variable {limit : Nat} {now : Timestamp} {block : BlockHash} {before after : Stage}
  {milestones : List Milestone} {operation : Operation}

/-- A cancellation concludes the attempts on a block. -/
theorem Operation.ne_cancelled_of_marks
    (ongoing : (operation.marks before milestones after).any Mark.settles = false)
    (wanted : before ≠ .cancelled) : after ≠ .cancelled := by
  rintro rfl
  simp [Operation.marks, wanted, Mark.settles] at ongoing

/-- The count of the attempts on a block ends only when the block is downloaded, discarded or
cancelled. -/
theorem Change.isSome_attempts? (h : Change limit now operation block before milestones after)
    (begun : before.standing.attempts?.isSome = true)
    (ongoing : (operation.marks before milestones after).any Mark.settles = false) :
    after.standing.attempts?.isSome = true := by
  have uncancelled := Operation.ne_cancelled_of_marks ongoing
  cases h with
  | demanded _ demand =>
    cases demand with
    | queued rests absent =>
      cases before with
      | underway => exact nomatch rests
      | waiting => exact nomatch absent
      | _ => exact nomatch begun
    | kept => rfl
    | waits => exact begun
    | spurned => exact nomatch begun
  | cancelled cancellation =>
    cases cancellation with
    | deferred => rfl
    | cancelled rests =>
      refine absurd rfl (uncancelled ?_)
      rintro rfl
      exact nomatch begun
    | late => exact nomatch begun
  | failed _ failure =>
    cases failure with
    | cancelled => exact absurd rfl (uncancelled nofun)
    | requeued => rfl
    | discarded => simp [Operation.marks, published, Mark.settles] at ongoing
  | delivered delivery =>
    cases delivery with
    | unwanted => exact begun
    | downloaded => simp [Operation.marks, published, Mark.settles] at ongoing
  | abandoned =>
    cases before with
    | underway custody attempts cancelling =>
      cases cancelling with
      | true => exact absurd rfl (uncancelled nofun)
      | false => rfl
    | _ => exact begun
  | still => exact begun
  | revived => exact nomatch begun
  | discardedAndRevived => simp [Operation.marks, published, Mark.settles] at ongoing
  | _ => rfl

/-- Outside ticks a block that stays under way stays where it is, unless the peer that holds it
disconnects. -/
theorem Operation.custody_eq_of_rule {custody left : Custody} {attempts still : Nat}
    {cancelling wished : Bool}
    (h : operation.rule limit now block (.underway custody attempts cancelling) milestones
      (.underway left still wished))
    (untimed : operation ≠ .tick) :
    left = custody ∨ ∃ peer, operation.disconnects peer = true ∧ custody.holder? = some peer := by
  have unmoved : Rule.still block (.underway custody attempts cancelling) milestones
      (.underway left still wished) → left = custody := by
    rintro ⟨_, same⟩
    cases same
    rfl
  have delivered : Delivery block (.underway custody attempts cancelling) milestones
      (.underway left still wished) → left = custody := by
    intro delivery
    cases delivery
    rfl
  cases operation with
  | download request =>
    rcases h with ⟨_, demand⟩ | ⟨_, still⟩
    · cases demand
      exact .inl rfl
    · exact .inl (unmoved still)
  | cancel blocks =>
    rcases h with ⟨_, cancellation⟩ | ⟨_, still⟩
    · cases cancellation
      exact .inl rfl
    · exact .inl (unmoved still)
  | tick => exact absurd rfl untimed
  | hear event =>
    cases event with
    | sessionStopped =>
      obtain ⟨_, same⟩ := h
      cases cancelling <;> exact nomatch same
    | peerDisconnected peer =>
      cases h with
      | lost holder => exact .inr ⟨peer, decide_eq_true rfl, holder⟩
      | still => exact .inl rfl
    | blocksNotFound =>
      rcases h with ⟨_, failure | still⟩ | ⟨_, still⟩
      · cases failure
      · exact .inl (unmoved still)
      · exact .inl (unmoved still)
    | headerDelivered _ _ _ origin =>
      cases origin with
      | wire =>
        rcases h with ⟨_, delivery | still⟩ | ⟨_, still⟩
        · exact .inl (delivered delivery)
        · exact .inl (unmoved still)
        · exact .inl (unmoved still)
      | scheduler => exact .inl (unmoved h)
    | chunkDelivered _ _ _ origin =>
      cases origin with
      | wire => exact .inl (h.elim delivered unmoved)
      | scheduler => exact .inl (unmoved h)
    | liteBlockDelivered | rawBlockDelivered =>
      rcases h with ⟨_, delivery⟩ | ⟨_, still⟩
      · exact .inl (delivered delivery)
      · exact .inl (unmoved still)
    | _ => exact .inl (unmoved h)
  | _ => exact .inl (unmoved h)

end

namespace Scheduler

variable {s t : Scheduler} {round : Round} {now : Timestamp} {peer : PeerAddress}
  {block : BlockHash}

/-! ## The turns of a tick -/

/-- A turn puts at most the block of its own peer in limbo, and if it does, it notes the peer. -/
theorem turn_blames (now : Timestamp) (round : Round) (peer : PeerAddress) :
    ((turn now round peer).scheduler.limbo = round.scheduler.limbo ∧
      (turn now round peer).scheduler.backlog.failures = round.scheduler.backlog.failures) ∨
    ∃ block, round.scheduler.blockAt? peer = some block ∧
      (turn now round peer).scheduler.limbo = round.scheduler.limbo.insert block ∧
      (turn now round peer).scheduler.backlog.failures =
        (round.scheduler.backlog.noteFailure block peer now).failures ∧
      block ∉ round.scheduler.limbo := by
  have taken := turnTaken_turn now round peer
  generalize turn now round peer = next at taken ⊢
  cases taken with
  | offered =>
    have offered := offer_offerBlock round peer now
    generalize (offerBlock round peer now).scheduler = offer at offered ⊢
    cases offered with
    | _ => exact .inl ⟨rfl, rfl⟩
  | @watched record transfer known _ sends =>
    obtain ⟨after, _, lastActivity, looked, _⟩ := observe_eq known sends now
    have holds : round.scheduler.blockAt? peer = some transfer.block := by
      rw [blockAt?, known, Option.bind_some, Peer.block?, sends, Option.map_some]
    unfold watch
    split
    · exact .inl ⟨rfl, rfl⟩
    · rename_i outside
      rw [looked]
      dsimp only
      split
      · refine .inr ⟨transfer.block, holds, rfl, rfl, ?_⟩
        rwa [Std.ExtTreeSet.contains_iff_mem] at outside
      · exact .inl ⟨rfl, rfl⟩
  | passed => exact .inl ⟨rfl, rfl⟩

/-- The turns of some peers note those whose block they put in limbo, and nobody else. -/
theorem failedAt?_foldl_turn (staged : round.scheduler.Staged) (now : Timestamp)
    (peers : List PeerAddress) (distinct : peers.Nodup) :
    (∀ block ∈ round.scheduler.limbo, block ∈ (peers.foldl (turn now) round).scheduler.limbo) ∧
    ∀ block peer, ((peers.foldl (turn now) round).scheduler.dossier block).failedAt? peer =
      if round.scheduler.blockAt? peer = some block ∧ block ∉ round.scheduler.limbo ∧
          block ∈ (peers.foldl (turn now) round).scheduler.limbo then some now
      else (round.scheduler.dossier block).failedAt? peer := by
  induction peers using List.reverseRecOn with
  | nil =>
    refine ⟨fun _ member => member, fun block peer => (if_neg ?_).symm⟩
    rintro ⟨_, outside, inside⟩
    exact outside inside
  | append_singleton done next ih =>
    rw [List.nodup_append] at distinct
    obtain ⟨kept, noted⟩ := ih distinct.1
    obtain ⟨_, scanned⟩ := scanned_foldl staged now done
    have unvisited : next ∉ done := fun early =>
      distinct.2.2 next early next (List.mem_singleton_self next) rfl
    -- The peer whose turn it is has not been looked at yet.
    have holds : (done.foldl (turn now) round).scheduler.blockAt? next =
        round.scheduler.blockAt? next := by
      rw [blockAt?, blockAt?, (scanned.untouched next unvisited).1]
    rw [List.foldl_concat]
    generalize done.foldl (turn now) round = middle at kept noted holds
    rcases turn_blames now middle next with ⟨limbo, failures⟩ | ⟨sent, sends, limbo, failures, new⟩
    · refine ⟨fun block member => limbo ▸ kept block member, fun block peer => ?_⟩
      rw [limbo, ← noted]
      simp only [Dossier.failedAt?, dossier, failures]
    · refine ⟨fun block member => ?_, fun block peer => ?_⟩
      · rw [limbo, Std.ExtTreeSet.mem_insert]
        exact .inr (kept block member)
      · have told : ((turn now middle next).scheduler.dossier block).failedAt? peer =
            if sent = block ∧ next = peer then some now
            else (middle.scheduler.dossier block).failedAt? peer := by
          have revised := revises_noteFailure middle.scheduler sent now next block
          have same : ((turn now middle next).scheduler.dossier block).failedAt? peer =
              ((middle.scheduler.noteFailure sent next now).dossier block).failedAt? peer := by
            simp only [Dossier.failedAt?, dossier, failures, noteFailure]
          rw [same, revised]
          by_cases here : sent = block
          · simp [here, Dossier.failedAt?_failedBy]
          · simp [here]
        rw [told, noted, limbo]
        simp only [Std.ExtTreeSet.mem_insert, Std.LawfulEqCmp.compare_eq_iff_eq]
        rw [holds] at sends
        by_cases here : sent = block
        · subst here
          have outside : sent ∉ round.scheduler.limbo := fun member => new (kept sent member)
          by_cases its : next = peer
          · subst its
            simp [sends, outside]
          · have elsewhere : round.scheduler.blockAt? peer ≠ some sent := by
              intro also
              obtain ⟨stage, inStage⟩ := staged.stage sent
              exact its (inStage.holder_unique sends also)
            simp [its, elsewhere]
        · simp [here]

/-- A turn of the peers does not touch the count of a block but to begin it. -/
theorem failedAt?_turns (staged : s.Staged) (now : Timestamp) (block : BlockHash)
    (peer : PeerAddress) :
    ((({ s with ticks := s.ticks + 1 }.turns now).dossier block).failedAt? peer) =
      if s.blockAt? peer = some block ∧ block ∉ s.limbo ∧
          block ∈ ({ s with ticks := s.ticks + 1 }.turns now).limbo then some now
      else (s.dossier block).failedAt? peer := by
  have opened := (scanned_opening staged).staged
  have noted := (failedAt?_foldl_turn opened now s.fastestFirst s.nodup_fastestFirst).2 block peer
  obtain ⟨flag, same⟩ := checkBandwidth_eq { s with ticks := s.ticks + 1 }
  have start : s.opening.scheduler =
      { s with ticks := s.ticks + 1, bandwidthRestricted := flag } := same
  rw [start] at noted
  exact noted

/-! ## One step -/

theorem blockAt?_of_disconnects {operation : Operation}
    (disconnects : operation.disconnects peer = true) (s : Scheduler) (now : Timestamp) :
    (s.apply now operation).blockAt? peer = none := by
  cases operation with
  | hear event =>
    cases event with
    | peerDisconnected other =>
      rw [← of_decide_eq_true disconnects]
      exact blockAt?_hearDisconnected s other now
    | _ => exact nomatch disconnects
  | _ => exact nomatch disconnects

theorem Staged.course (staged : s.Staged) {now : Timestamp} {operation : Operation}
    (ongoing : Step.concludes ⟨s, now, operation⟩ block = false) {before : Stage}
    (inStage : s.InStage block before) (begun : before.standing.attempts?.isSome = true) :
    ∃ milestones after, (s.apply now operation).InStage block after ∧
      operation.rule s.settings.maxAttempts.toNat now block before milestones after ∧
      after.standing.attempts?.isSome = true := by
  obtain ⟨milestones, passage⟩ := passes_apply staged now operation
  obtain ⟨after, inAfter, told, allowed⟩ := passage.course block before inStage
  refine ⟨milestones block, after, inAfter, allowed, ?_⟩
  obtain ⟨marked, also, inAlso, _, marks, change⟩ := staged.marks_eq now operation inStage
  cases inAfter.unique inAlso
  rw [Step.concludes, marks] at ongoing
  exact change.isSome_attempts? begun ongoing

/-- Outside ticks, and while the session goes on, a peer fails a block whose attempts go on exactly
if it loses the block. -/
theorem Staged.fails_iff_of_untimed (staged : s.Staged) {operation : Operation}
    (untimed : operation ≠ .tick) (goesOn : operation.endsSession = false)
    (ongoing : Step.concludes ⟨s, now, operation⟩ block = false) :
    Step.fails ⟨s, now, operation⟩ peer block = true ↔
      s.blockAt? peer = some block ∧ (s.apply now operation).blockAt? peer ≠ some block := by
  rw [Step.fails, Bool.and_eq_true, decide_eq_true_eq]
  refine and_congr_right fun holds => ?_
  obtain ⟨stage, inStage⟩ := staged.stage block
  have held := (inStage.heldBy peer).mp holds
  cases stage with
  | underway custody attempts cancelling =>
    obtain ⟨milestones, after, inAfter, allowed, begun⟩ := staged.course ongoing inStage rfl
    have limbo := inAfter.contains_limbo
    have waits := inAfter.contains_backlog
    by_cases disconnects : operation.disconnects peer = true
    · have gone : (s.apply now operation).blockAt? peer = none :=
        blockAt?_of_disconnects disconnects s now
      simp [disconnects, gone]
    · rw [Ne, inAfter.heldBy]
      simp only [Step.after, disconnects, goesOn, inStage.contains_limbo, limbo, waits,
        Bool.false_or, Bool.not_false, Bool.true_and]
      cases after with
      | waiting => simp [Stage.standing, Stage.isWaiting]
      | underway left =>
        rcases Operation.custody_eq_of_rule allowed untimed with rfl | ⟨other, gone, holder⟩
        · simp [Stage.standing, Stage.isWaiting, show left.holder? = some peer from held]
        · cases Option.some_inj.mp (holder.symm.trans held)
          exact absurd gone disconnects
      | _ => contradiction
  | _ => exact held.elim

/-- A peer fails a block in a tick if its turn puts the block in limbo, or if the block is taken
from it when limbo is resolved. -/
theorem Staged.fails_tick_iff (staged : s.Staged)
    (begun : (s.dossier block).attempts?.isSome = true)
    (ongoing : Step.concludes ⟨s, now, .tick⟩ block = false) (peer : PeerAddress) :
    Step.fails ⟨s, now, .tick⟩ peer block = true ↔
      (({ s with ticks := s.ticks + 1 }.turns now).blockAt? peer = some block ∧
        (s.tick now).blockAt? peer ≠ some block) ∨
      (s.blockAt? peer = some block ∧ block ∉ s.limbo ∧
        block ∈ ({ s with ticks := s.ticks + 1 }.turns now).limbo) := by
  obtain ⟨stage, inStage⟩ := staged.stage block
  have counted := quiet_setTicks s (s.ticks + 1)
  have turned := passes_turns (counted.staged staged) now
  have rest := passes_after_turns s now (turned.staged (counted.staged staged))
  obtain ⟨milestones, turned⟩ := turned
  obtain ⟨second, inSecond, _, turn⟩ :=
    turned.course block stage ((counted.keeps block).inStage inStage)
  generalize milestones block = passed at turn
  obtain ⟨_, rest⟩ := rest
  obtain ⟨after, inAfter, _, third, _, _, _, resolution, revival⟩ :=
    rest.course block second inSecond
  obtain ⟨_, also, inAlso, _, goesOn⟩ := staged.course ongoing inStage (inStage.attempts ▸ begun)
  cases inAfter.unique inAlso
  have limbo : (s.tick now).limbo.contains block = _ := inAfter.contains_limbo
  have waits : (s.tick now).backlog.contains block = _ := inAfter.contains_backlog
  have unfolded : Step.fails ⟨s, now, .tick⟩ peer block =
      (decide (s.blockAt? peer = some block) &&
        (!s.limbo.contains block && (s.tick now).limbo.contains block ||
          (s.tick now).backlog.contains block)) := rfl
  rw [unfolded, inStage.contains_limbo, limbo, waits, Bool.and_eq_true, decide_eq_true_eq, Ne,
    inStage.heldBy, inSecond.heldBy, inAfter.heldBy, inStage.inLimbo, inSecond.inLimbo]
  -- What is revived has no count, so after the turns the block failed or stayed as it was.
  rcases revival with revival | ⟨_, rfl⟩
  · cases revival
    exact nomatch goesOn
  rcases resolution with ⟨stuck, failure⟩ | ⟨_, rfl⟩
  · cases failure with
    | cancelled => exact nomatch goesOn
    | discarded => exact nomatch goesOn
    | requeued =>
      cases turn with
      | requested => exact nomatch stuck
      | stalled => simp [Stage.standing, Stage.isWaiting, Custody.holder?, Custody.inLimbo]
      | still => simp [Stage.standing, Stage.isWaiting]
  · cases turn with
    | requested => simp [Stage.standing, Custody.holder?, Custody.inLimbo]
    | stalled => simp [Stage.standing, Stage.isWaiting, Custody.holder?, Custody.inLimbo]
    | still =>
      cases stage with
      | underway => simp [Stage.standing, Stage.isWaiting]
      | _ => simp [Stage.standing]

/-- In a tick the failures of peers are noted at the turns and when limbo is resolved. -/
theorem Staged.failedAt?_tick (staged : s.Staged)
    (begun : (s.dossier block).attempts?.isSome = true)
    (ongoing : Step.concludes ⟨s, now, .tick⟩ block = false) (peer : PeerAddress) :
    ((s.tick now).dossier block).failedAt? peer =
      if Step.fails ⟨s, now, .tick⟩ peer block then some now
      else (s.dossier block).failedAt? peer := by
  obtain ⟨stage, inStage⟩ := staged.stage block
  obtain ⟨_, after, inAfter, _, goesOn⟩ := staged.course ongoing inStage (inStage.attempts ▸ begun)
  have noted := failedAt?_turns staged now block peer
  rcases (blames_tick_of_turns s now).failures block with settled | blamed
  · rw [show ((s.tick now).dossier block).attempts? = _ from inAfter.attempts] at settled
    rw [settled] at goesOn
    exact nomatch goesOn
  · rw [blamed, noted, if_congr (staged.fails_tick_iff begun ongoing peer) rfl rfl, ite_or]

theorem failedAt?_endSession (s : Scheduler) (now : Timestamp)
    (begun : ((s.endSession now).dossier block).attempts?.isSome = true) (peer : PeerAddress) :
    ((s.endSession now).dossier block).failedAt? peer = (s.dossier block).failedAt? peer := by
  obtain ⟨_, _, _, _, _, _, shape⟩ := foldl_abandon_eq s.inFlight now s
  have peers : (s.inFlight.foldl (abandon now) s).peers = s.peers := by rw [shape]
  rcases (Blames.foldl (blames_abandon now) s.inFlight s).failures block with settled | kept
  · have counted : ((s.endSession now).dossier block).attempts? = none := settled
    rw [counted] at begun
    exact nomatch begun
  · have noted := kept peer
    rw [blockAt?_congr peers, if_neg fun lost => lost.2 lost.1] at noted
    exact noted

/-- A step in which the attempts on a block go on notes the peers that fail the block in it, and
forgets no failure of others. -/
theorem Staged.failedAt?_apply (staged : s.Staged) {operation : Operation}
    (begun : (s.dossier block).attempts?.isSome = true)
    (ongoing : Step.concludes ⟨s, now, operation⟩ block = false) (peer : PeerAddress) :
    ((s.apply now operation).dossier block).attempts?.isSome = true ∧
      ((s.apply now operation).dossier block).failedAt? peer =
        if Step.fails ⟨s, now, operation⟩ peer block then some now
        else (s.dossier block).failedAt? peer := by
  obtain ⟨stage, inStage⟩ := staged.stage block
  obtain ⟨_, after, inAfter, _, goesOn⟩ := staged.course ongoing inStage (inStage.attempts ▸ begun)
  have counted : ((s.apply now operation).dossier block).attempts?.isSome = true := by
    rwa [show ((s.apply now operation).dossier block).attempts? = _ from inAfter.attempts]
  refine ⟨counted, ?_⟩
  by_cases timed : operation = .tick
  · subst timed
    exact staged.failedAt?_tick begun ongoing peer
  by_cases ends : operation.endsSession = true
  · obtain rfl : operation = .hear .sessionStopped := by
      unfold Operation.endsSession at ends
      split at ends
      · rfl
      · contradiction
    have limbo : (s.endSession now).limbo.contains block = false := Std.ExtTreeSet.contains_empty
    have unfailed : Step.fails ⟨s, now, .hear .sessionStopped⟩ peer block = false := by
      rw [Step.fails, Step.after, Scheduler.apply, hear, limbo]
      simp [Operation.disconnects, Operation.endsSession]
    rw [unfailed]
    exact failedAt?_endSession s now counted peer
  · rw [Bool.not_eq_true] at ends
    rcases (blames_apply staged now timed ends).failures block with settled | blamed
    · rw [settled] at counted
      contradiction
    · rw [blamed, if_congr (staged.fails_iff_of_untimed timed ends ongoing) rfl rfl]

/-! ## Whole runs -/

theorem lastFailure?_concat (s : Scheduler) (history : List (Timestamp × Operation))
    (timed : Timestamp × Operation) (peer : PeerAddress) (block : BlockHash) :
    s.lastFailure? (history ++ [timed]) peer block =
      if Step.concludes ⟨s.run history, timed.1, timed.2⟩ block then none
      else (if Step.fails ⟨s.run history, timed.1, timed.2⟩ peer block then some timed.1
        else none).or (s.lastFailure? history peer block) :=
  s.lastSince?_concat history timed _ _

/-- The backlog remembers the last failure of a peer while the attempts on the block go on. -/
theorem Reachable.failedAt?_run (h : s.Reachable) (history : List (Timestamp × Operation))
    {failedAt : Timestamp} (failed : s.lastFailure? history peer block = some failedAt) :
    ((s.run history).dossier block).attempts?.isSome = true ∧
      ((s.run history).dossier block).failedAt? peer = some failedAt := by
  induction history using List.reverseRecOn generalizing failedAt with
  | nil => exact nomatch failed
  | append_singleton past timed ih =>
    have reachable := h.run past
    rw [lastFailure?_concat] at failed
    rw [run_concat]
    split at failed
    · contradiction
    · rename_i goesOn
      rw [Bool.not_eq_true] at goesOn
      by_cases fails : Step.fails ⟨s.run past, timed.1, timed.2⟩ peer block = true
      · rw [if_pos fails, Option.some_or, Option.some_inj] at failed
        subst failed
        have holds : (s.run past).blockAt? peer = some block := by
          rw [Step.fails, Bool.and_eq_true, decide_eq_true_eq] at fails
          exact fails.1
        have begun : ((s.run past).dossier block).attempts?.isSome = true := by
          obtain ⟨stage, inStage⟩ := reachable.staged.stage block
          rw [← isBegun_eq_dossier]
          exact inStage.isBegun_of_isUnderway (inStage.isUnderway_of_blockAt? holds)
        have stepped := reachable.staged.failedAt?_apply begun goesOn peer
        rwa [if_pos fails] at stepped
      · rw [if_neg fails, Option.none_or] at failed
        obtain ⟨begun, remembered⟩ := ih failed
        have stepped := reachable.staged.failedAt?_apply begun goesOn peer
        rwa [if_neg fails, remembered] at stepped

theorem Staged.cooled_of_requested (staged : s.Staged) {operation : Operation}
    (asked : (peer, block) ∈ Step.requests ⟨s, now, operation⟩) {failedAt : Timestamp}
    (failed : (s.dossier block).failedAt? peer = some failedAt) :
    s.settings.failureCooldown ≤ now.since failedAt := by
  by_cases timed : operation = .tick
  · subst timed
    obtain ⟨early, late, whole⟩ := List.append_of_mem asked
    obtain ⟨_, restricted, _, found, _, _, grants⟩ := staged.exists_grant whole
    obtain ⟨waits, _⟩ := (grants _ rfl).mem
    obtain ⟨_, _, _, _, accepted⟩ := grants _ rfl
    have well := Eligibility.coolingDown_eq_false_of_accepted accepted
    have remembered : ((s.roundAt now peer).scheduler.backlog.claims block peer).lastFailure? =
        some failedAt := by
      rw [claims_eq_dossier, found.dossier block waits]
      exact failed
    rw [Eligibility.coolingDown, remembered, eligibility, found.settings] at well
    simpa using well
  · rw [requests_eq_nil timed] at asked
    exact absurd asked List.not_mem_nil

/-- In every run from usable settings: a peer that failed a block, by a stall of its transfer, by
its disconnection or with the attempt, is not asked for the block again before the cooldown is
over, unless the block was downloaded, discarded or cancelled in between. It makes no difference
whether the scheduler is running or paused, and which failures the peer had before the last one. -/
theorem failure_cooldown {settings : Settings} {streams : StreamTable}
    (usable : create settings streams = .ok s) (history : List (Timestamp × Operation))
    {failedAt : Timestamp} (failed : s.lastFailure? history peer block = some failedAt)
    {operation : Operation}
    (asked : (peer, block) ∈ Step.requests ⟨s.run history, now, operation⟩) :
    settings.failureCooldown ≤ now.since failedAt := by
  have reachable := Reachable.created usable
  obtain ⟨_, remembered⟩ := reachable.failedAt?_run history failed
  have cooled := (reachable.run history).staged.cooled_of_requested asked remembered
  rw [reachable.settings_run, eq_initial_of_create usable] at cooled
  exact cooled

/-- A peer disconnects in the middle of a transfer and comes back; then the attempt fails. -/
def absence : List (Timestamp × Operation) :=
  [(⟨0⟩, .hear (.peerHandshaked soleSender)), (⟨1⟩, .download (.plain [.zero])), (⟨2⟩, .tick),
    (⟨3⟩, .hear (.peerDisconnected soleSender "gone")), (⟨4⟩, .hear (.peerConnected soleSender)),
    (⟨5⟩, .hear (.peerHandshaked soleSender)), (⟨2_500⟩, .tick)]

set_option maxRecDepth 100000 in
theorem failure_cooldown_absence :
    let s := initial .brisk .empty
    create .brisk .empty = .ok s ∧ s.lastFailure? absence soleSender .zero = some ⟨3⟩ ∧
      Step.requests ⟨s.run absence, ⟨2_600⟩, .tick⟩ = [] ∧
      Step.requests ⟨s.run absence, ⟨3_100⟩, .tick⟩ = [(soleSender, .zero)] ∧
      Settings.brisk.failureCooldown ≤ Timestamp.since ⟨3_100⟩ ⟨3⟩ := by
  intro s
  have usable : create .brisk .empty = .ok s := rfl
  have failed : s.lastFailure? absence soleSender .zero = some ⟨3⟩ := by cbv
  have early : Step.requests ⟨s.run absence, ⟨2_600⟩, .tick⟩ = [] := by cbv
  have late : Step.requests ⟨s.run absence, ⟨3_100⟩, .tick⟩ = [(soleSender, .zero)] := by cbv
  have asked : (soleSender, .zero) ∈ Step.requests ⟨s.run absence, ⟨3_100⟩, .tick⟩ :=
    late ▸ List.mem_singleton_self _
  exact ⟨usable, failed, early, late, failure_cooldown usable absence failed asked⟩

end Scheduler
end BlockFetch
