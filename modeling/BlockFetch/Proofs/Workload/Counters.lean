import BlockFetch.Proofs.Lifecycle.Ledger
import BlockFetch.Proofs.Workload.Outcome
import Mathlib.Algebra.Order.BigOperators.Group.Finset
import Mathlib.Data.List.DropRight

/-!
# Counters of attempts

The counter of a block says how often the block was requested since its attempts were last settled,
that is, since it was downloaded, discarded or cancelled. A failed block is requested again only
while its counter is below the limit. The end of a session puts blocks back whatever their counters
are, so it may allow for one attempt more.
-/
namespace BlockFetch

/-- Something in a run that concerns the counter of a block. -/
inductive Mark where
  | passed (milestone : Milestone)
  | cancelled
  | sessionEnded
  deriving DecidableEq

namespace Mark

/-- Whether the attempts on the block are settled, so that its next request is a first one. -/
def settles : Mark → Bool
  | passed .downloaded | passed .discarded | cancelled => true
  | _ => false

def isRequest : Mark → Bool
  | passed milestone => milestone.isRequest
  | _ => false

end Mark

namespace Step

def newlyCancels (step : Step) (block : BlockHash) : Bool :=
  !step.before.cancelled.contains block && step.after.cancelled.contains block

def marks (step : Step) (block : BlockHash) : List Mark :=
  (if step.operation.endsSession then [.sessionEnded] else []) ++
    (step.said block).map .passed ++ if step.newlyCancels block then [.cancelled] else []

end Step

namespace Scheduler

def marks (s : Scheduler) (history : List (Timestamp × Operation)) (block : BlockHash) :
    List Mark :=
  (s.steps history).flatMap fun step => step.marks block

/-- What concerned a block since its attempts were last settled. -/
def unsettled (s : Scheduler) (history : List (Timestamp × Operation)) (block : BlockHash) :
    List Mark :=
  (s.marks history block).rtakeWhile fun mark => !mark.settles

end Scheduler

/-! ## One step -/

namespace Mark

def follow (since : List Mark) (mark : Mark) : List Mark :=
  if mark.settles then [] else since ++ [mark]

theorem rtakeWhile_append (marks more : List Mark) :
    (marks ++ more).rtakeWhile (fun mark => !mark.settles) =
      more.foldl follow (marks.rtakeWhile fun mark => !mark.settles) := by
  induction more generalizing marks with
  | nil => rw [List.append_nil, List.foldl_nil]
  | cons mark rest ih =>
    rw [List.append_cons, ih, List.foldl_cons, List.rtakeWhile_concat, follow]
    cases mark.settles <;> rfl

end Mark

def Operation.marks (operation : Operation) (before : Stage) (milestones : List Milestone)
    (after : Stage) : List Mark :=
  (if operation.endsSession then [.sessionEnded] else []) ++
    (published milestones).map .passed ++
      if before ≠ .cancelled ∧ after = .cancelled then [.cancelled] else []

/-- What is known of the counter of a block from the marks since its attempts were last settled. -/
structure Tally (limit : Nat) (stage : Stage) (since : List Mark) : Prop where
  exact : stage.standing.attempts?.getD 0 = since.countP Mark.isRequest
  bounded : stage.standing.attempts?.getD 0 ≤ limit + since.count .sessionEnded
  /-- A block that waits to be repeated has an attempt left. -/
  spare : ∀ attempts, stage = .waiting (some attempts) →
    attempts < limit + since.count .sessionEnded

section

variable {limit : Nat} {now : Timestamp} {block : BlockHash} {before after stage : Stage}
  {milestones : List Milestone} {operation : Operation} {since : List Mark}

theorem Tally.settled (none_left : stage.standing.attempts? = none) : Tally limit stage [] where
  exact := by rw [none_left]; rfl
  bounded := by rw [none_left]; exact Nat.zero_le _
  spare attempts waits := by rw [waits] at none_left; exact nomatch none_left

theorem foldl_marks_of_silent (operation : Operation) (since : List Mark)
    (spared : before = .cancelled ∨ after ≠ .cancelled) :
    (operation.marks before [] after).foldl Mark.follow since =
      since ++ if operation.endsSession then [.sessionEnded] else [] := by
  have silent : operation.marks before [] after =
      if operation.endsSession then [.sessionEnded] else [] := by
    have none_cancelled : ¬ (before ≠ .cancelled ∧ after = .cancelled) := by
      rintro ⟨wanted, gone⟩
      exact spared.elim wanted fun kept => kept gone
    simp [Operation.marks, published, none_cancelled]
  rw [silent]
  cases operation.endsSession <;> simp [Mark.follow, Mark.settles]

theorem foldl_marks_of_cancelled (operation : Operation) (since : List Mark)
    (milestones : List Milestone) (wanted : before ≠ .cancelled) :
    (operation.marks before milestones .cancelled).foldl Mark.follow since = [] := by
  simp [Operation.marks, wanted, Mark.follow, Mark.settles]

theorem foldl_marks_of_settles (operation : Operation) (since : List Mark) {milestone : Milestone}
    (settles : (Mark.passed milestone).settles = true) (spared : after ≠ .cancelled) :
    (operation.marks before [milestone] after).foldl Mark.follow since = [] := by
  have announced : published [milestone] = [milestone] := by
    cases milestone <;> first | rfl | exact nomatch settles
  simp [Operation.marks, announced, spared, Mark.follow, settles]

/-- A block whose counter stays. A session may end meanwhile without an effect on the block. -/
theorem Tally.keep (h : Tally limit before since) (operation : Operation)
    (attempts : after.standing.attempts? = before.standing.attempts?)
    (spare : ∀ attempts, after = .waiting (some attempts) →
      attempts < limit + since.count .sessionEnded)
    (spared : before = .cancelled ∨ after ≠ .cancelled) :
    Tally limit after ((operation.marks before [] after).foldl Mark.follow since) := by
  rw [foldl_marks_of_silent operation since spared]
  have exact := h.exact
  have bounded := h.bounded
  rw [← attempts] at exact bounded
  constructor
  · cases operation.endsSession <;> simpa [Mark.isRequest] using exact
  · rw [List.count_append]
    omega
  · intro attempts waits
    have left := spare attempts waits
    rw [List.count_append]
    omega

theorem Tally.still (h : Tally limit stage since) (operation : Operation) :
    Tally limit stage ((operation.marks stage [] stage).foldl Mark.follow since) :=
  h.keep operation rfl h.spare (Decidable.em _)

theorem Tally.change (usable : 0 < limit) (h : Tally limit before since)
    (change : Change limit now operation block before milestones after) :
    Tally limit after ((operation.marks before milestones after).foldl Mark.follow since) := by
  cases change with
  | still => exact h.still operation
  | demanded _ demand =>
    cases demand with
    | queued rests absent =>
      refine h.keep _ ?_ (by simp) (.inr (by simp))
      cases before with
      | underway => exact nomatch rests
      | waiting => exact nomatch absent
      | _ => rfl
    | kept => exact h.keep _ rfl (by simp) (.inr (by simp))
    | _ => exact h.still _
  | cancelled cancellation =>
    cases cancellation with
    | deferred => exact h.keep _ rfl (by simp) (.inr (by simp))
    | cancelled rests =>
      by_cases already : before = .cancelled
      · subst already
        exact h.still _
      · rw [foldl_marks_of_cancelled _ since _ already]
        exact .settled rfl
    | late => exact h.still _
  | failed goesOn failure =>
    cases failure with
    | cancelled =>
      rw [foldl_marks_of_cancelled _ since _ (by simp)]
      exact .settled rfl
    | requeued left =>
      -- The return to the queue is announced by no event, so it is not among the marks.
      refine h.keep operation rfl (fun attempts waits => ?_) (.inr (by simp))
      cases waits
      exact Nat.lt_of_lt_of_le left (Nat.le_add_right ..)
    | discarded =>
      rw [foldl_marks_of_settles _ since rfl (by simp)]
      exact .settled rfl
  | delivered delivery =>
    cases delivery with
    | unwanted => exact h.still _
    | downloaded =>
      rw [foldl_marks_of_settles _ since rfl (by simp)]
      exact .settled rfl
  | lost => exact h.keep _ rfl (by simp) (.inr (by simp))
  | abandoned =>
    cases before with
    | underway custody attempts cancelling =>
      cases cancelling with
      | true =>
        rw [Stage.atSessionEnd, if_pos rfl, foldl_marks_of_cancelled _ since _ (by simp)]
        exact .settled rfl
      | false =>
        rw [Stage.atSessionEnd, foldl_marks_of_silent _ since (.inr (by simp))]
        have exact : attempts = _ := h.exact
        have bounded : attempts ≤ _ := h.bounded
        constructor
        · simpa [Operation.endsSession, Mark.isRequest, Stage.standing] using exact
        · rw [List.count_append]
          exact Nat.le_trans bounded (by omega)
        · intro counted waits
          cases waits
          simp only [Operation.endsSession, if_true, List.count_append, List.count_singleton_self]
          omega
    | _ => exact h.still _
  | @requested _ attempts? peer =>
    have marked : (Operation.tick.marks (.waiting attempts?) [.requested peer]
        (.underway (.held peer) (attempts?.getD 0 + 1) false)).foldl Mark.follow since =
          since ++ [.passed (.requested peer)] := by
      simp [Operation.marks, Operation.endsSession, published, Mark.follow, Mark.settles]
    rw [marked]
    have exact : attempts?.getD 0 = _ := h.exact
    constructor
    · simpa [Mark.isRequest, Milestone.isRequest, Stage.standing] using exact
    · rw [List.count_append]
      cases attempts? with
      | none => exact Nat.le_trans usable (by omega)
      | some attempts => exact Nat.le_trans (h.spare attempts rfl) (by omega)
    · simp
  | stalled => exact h.keep _ rfl (by simp) (.inr (by simp))
  | revived => exact h.keep _ rfl (by simp) (.inr (by simp))
  | discardedAndRevived =>
    rw [foldl_marks_of_settles _ since rfl (by simp)]
    exact .settled rfl

/-- A block is discarded only when its attempts are spent. -/
theorem Change.le_attempts_of_discarded
    (h : Change limit now operation block before milestones after)
    (passed : Milestone.discarded ∈ milestones) :
    limit ≤ before.standing.attempts?.getD 0 := by
  cases h with
  | demanded _ demand => cases demand <;> exact nomatch passed
  | cancelled cancellation => cases cancellation <;> exact nomatch passed
  | failed _ failure =>
    cases failure with
    | cancelled => exact nomatch passed
    | requeued => simp at passed
    | discarded spent => exact spent
  | delivered delivery =>
    cases delivery with
    | unwanted => exact nomatch passed
    | downloaded => simp at passed
  | requested => simp at passed
  | discardedAndRevived spent => exact spent
  | _ => exact nomatch passed

/-- A block that is under way and stays so is still at the same attempt. -/
theorem Change.attempts?_of_isUnderway
    (h : Change limit now operation block before milestones after)
    (underway : before.isUnderway = true) (still : after.isUnderway = true) :
    after.standing.attempts? = before.standing.attempts? := by
  cases h with
  | demanded _ demand =>
    cases demand with
    | queued => exact nomatch still
    | _ => rfl
  | cancelled cancellation =>
    cases cancellation with
    | cancelled => exact nomatch still
    | _ => rfl
  | failed _ failure => cases failure <;> exact nomatch still
  | delivered delivery =>
    cases delivery with
    | unwanted => rfl
    | downloaded => exact nomatch still
  | abandoned =>
    cases before with
    | underway custody attempts cancelling => cases cancelling <;> exact nomatch still
    | _ => exact nomatch underway
  | requested => exact nomatch underway
  | revived => exact nomatch underway
  | discardedAndRevived => exact nomatch still
  | _ => rfl

end

namespace Scheduler

variable {s t : Scheduler} {block : BlockHash}

/-! ## Whole runs -/

theorem run_concat (s : Scheduler) (history : List (Timestamp × Operation))
    (timed : Timestamp × Operation) :
    s.run (history ++ [timed]) = (s.run history).apply timed.1 timed.2 :=
  List.foldl_concat ..

theorem steps_concat (s : Scheduler) (history : List (Timestamp × Operation))
    (timed : Timestamp × Operation) :
    s.steps (history ++ [timed]) = s.steps history ++ [⟨s.run history, timed.1, timed.2⟩] := by
  induction history generalizing s with
  | nil => rfl
  | cons first rest ih => exact congrArg (List.cons _) (ih (s.apply first.1 first.2))

/-- What the steps of a run last said on a question, of the steps since one that closed it. -/
def lastSince? {α : Type} (s : Scheduler) (history : List (Timestamp × Operation))
    (closes : Step → Bool) (says? : Step → Option α) : Option α :=
  ((s.steps history).rtakeWhile fun step => !closes step).reverse.findSome? says?

theorem lastSince?_concat {α : Type} (s : Scheduler) (history : List (Timestamp × Operation))
    (timed : Timestamp × Operation) (closes : Step → Bool) (says? : Step → Option α) :
    s.lastSince? (history ++ [timed]) closes says? =
      if closes ⟨s.run history, timed.1, timed.2⟩ then none
      else (says? ⟨s.run history, timed.1, timed.2⟩).or (s.lastSince? history closes says?) := by
  rw [lastSince?, steps_concat, List.rtakeWhile_concat]
  cases closes ⟨s.run history, timed.1, timed.2⟩ with
  | true => rfl
  | false =>
    rw [if_pos Bool.not_false, if_neg Bool.false_ne_true, List.reverse_concat,
      List.findSome?_cons, lastSince?]
    cases says? ⟨s.run history, timed.1, timed.2⟩ <;> rfl

theorem unsettled_concat (s : Scheduler) (history : List (Timestamp × Operation))
    (timed : Timestamp × Operation) (block : BlockHash) :
    s.unsettled (history ++ [timed]) block =
      (Step.marks ⟨s.run history, timed.1, timed.2⟩ block).foldl Mark.follow
        (s.unsettled history block) := by
  rw [unsettled, marks, steps_concat, List.flatMap_append, List.flatMap_singleton]
  exact Mark.rtakeWhile_append _ _

/-- The marks of a step are those of the change that it makes. -/
theorem Staged.marks_eq (staged : s.Staged) (now : Timestamp) (operation : Operation)
    {before : Stage} (h : s.InStage block before) :
    ∃ milestones after, (s.apply now operation).InStage block after ∧
      Step.said ⟨s, now, operation⟩ block = published milestones ∧
      Step.marks ⟨s, now, operation⟩ block = operation.marks before milestones after ∧
      Change s.settings.maxAttempts.toNat now operation block before milestones after := by
  obtain ⟨milestones, after, inAfter, said, change⟩ := staged.change now operation h
  refine ⟨milestones, after, inAfter, said, ?_, change⟩
  have cancels : Step.newlyCancels ⟨s, now, operation⟩ block =
      decide (before ≠ .cancelled ∧ after = .cancelled) := by
    rw [Step.newlyCancels, Step.after, h.contains_cancelled_eq, inAfter.contains_cancelled_eq]
    simp
  rw [Step.marks, said, cancels]
  simp only [Operation.marks, decide_eq_true_eq]

theorem Reachable.maxAttempts_pos (h : s.Reachable) : 0 < s.settings.maxAttempts.toNat := by
  have positive := ((Settings.check_eq_ok_iff s.settings).mp h.check_settings).1
    ("max_download_attempts", s.settings.maxAttempts.toNat) (by simp [Settings.positiveLimits])
  exact Nat.pos_of_ne_zero positive

theorem Reachable.settings_run (h : s.Reachable) (history : List (Timestamp × Operation)) :
    (s.run history).settings = s.settings := by
  induction history generalizing s with
  | nil => rfl
  | cons timed rest ih =>
    exact (ih (h.applied timed.1 timed.2)).trans (passes_apply h.staged timed.1 timed.2).settings

theorem tally_run {settings : Settings} {streams : StreamTable}
    (usable : create settings streams = .ok s) (history : List (Timestamp × Operation))
    {stage : Stage} (h : (s.run history).InStage block stage) :
    Tally s.settings.maxAttempts.toNat stage (s.unsettled history block) := by
  have reachable := Reachable.created usable
  induction history using List.reverseRecOn generalizing stage with
  | nil =>
    have unknown : s.InStage block .unknown := by
      rw [eq_initial_of_create usable]
      simp [InStage, standing, initial, blockAt?, Stage.standing, Backlog.empty]
    cases unknown.unique h
    exact .settled rfl
  | append_singleton past timed ih =>
    obtain ⟨before, inBefore⟩ := (reachable.run past).staged.stage block
    obtain ⟨milestones, after, inAfter, _, marks, change⟩ :=
      (reachable.run past).staged.marks_eq timed.1 timed.2 inBefore
    rw [run_concat] at h
    cases inAfter.unique h
    rw [reachable.settings_run past] at change
    rw [unsettled_concat, marks]
    exact (ih inBefore).change reachable.maxAttempts_pos change

/-! ## Peers at work -/

def TasksCounted (s : Scheduler) : Prop :=
  ∀ peer block attempt, s.taskAt? peer = some (block, attempt) →
    s.backlog.attemptsOn block = attempt

theorem blockAt?_eq_of_taskAt? {peer : PeerAddress} {task : BlockHash × Nat}
    (works : s.taskAt? peer = some task) : s.blockAt? peer = some task.1 := by
  rw [taskAt?, Option.bind_eq_some_iff] at works
  obtain ⟨record, known, works⟩ := works
  rw [blockAt?, known, Option.bind_some, Peer.block?_eq_map_task?, works, Option.map_some]

theorem InStage.isUnderway_of_blockAt? {stage : Stage} {peer : PeerAddress}
    (h : s.InStage block stage) (holds : s.blockAt? peer = some block) :
    stage.isUnderway = true := by
  rw [h.heldBy] at holds
  cases stage with
  | underway => rfl
  | _ => exact holds.elim

/-- A step that gives no work keeps the counts if the counters of blocks under way stay. -/
theorem TasksCounted.of_passes {rule : Rule} (counted : s.TasksCounted) (staged : s.Staged)
    (passes : Passes rule s t)
    (tasks : ∀ peer task, t.taskAt? peer = some task → s.taskAt? peer = some task)
    (kept : ∀ block before milestones after, rule block before milestones after →
      before.isUnderway = true → after.isUnderway = true →
      after.standing.attempts? = before.standing.attempts?) : t.TasksCounted := by
  intro peer block attempt works
  have worked := tasks peer _ works
  obtain ⟨milestones, passage⟩ := passes
  obtain ⟨before, inBefore⟩ := staged.stage block
  obtain ⟨after, inAfter, _, allowed⟩ := passage.course block before inBefore
  have same := kept block before _ after allowed
    (inBefore.isUnderway_of_blockAt? (blockAt?_eq_of_taskAt? worked))
    (inAfter.isUnderway_of_blockAt? (blockAt?_eq_of_taskAt? works))
  rw [attemptsOn_eq, inAfter, same, ← show s.standing block = _ from inBefore, ← attemptsOn_eq]
  exact counted peer block attempt worked

/-- A turn gives at most the peer whose turn it is a task, and the counter of the task with it. -/
theorem TasksCounted.outcome {now : Timestamp} {peer : PeerAddress} (counted : s.TasksCounted)
    (staged : s.Staged) (outcome : Outcome now s peer t) (passes : Passes (Turn [peer]) s t) :
    t.TasksCounted := by
  have kept : ∀ block before milestones after, Turn [peer] block before milestones after →
      before.isUnderway = true → after.isUnderway = true →
      after.standing.attempts? = before.standing.attempts? := by
    intro block before milestones after turn underway _
    cases turn with
    | requested => exact nomatch underway
    | stalled => rfl
    | still => rfl
  cases outcome with
  | spared spares => exact counted.of_passes staged passes spares.tasks kept
  | refused => exact counted
  | @assigned record given restricted flag known _ _ waits =>
    let offered : Scheduler :=
      { s with bandwidthRestricted := flag, backlog := s.backlog.remove given }
    intro other block attempt works
    change (offered.assign peer given now).taskAt? other = _ at works
    have found : offered.peers[peer]? = some record := known
    rw [taskAt?_assign found] at works
    change (offered.backlog.beginAttempt given).attemptsOn block = attempt
    split at works
    · cases works
      exact Backlog.attemptsOn_beginAttempt_self _ _
    · -- The block given away waited, so it is not the one that the other peer sends.
      have busy : s.taskAt? other = some (block, attempt) := works
      have different : block ≠ given := by
        rintro rfl
        obtain ⟨stage, h⟩ := staged.stage block
        have underway := h.isUnderway_of_blockAt? (blockAt?_eq_of_taskAt? busy)
        rw [h.mem_queue] at waits
        cases stage with
        | underway => exact nomatch waits
        | _ => exact nomatch underway
      rw [Backlog.attemptsOn_beginAttempt_of_ne _ different]
      exact counted other block attempt busy

theorem Reachable.tasksCounted (h : s.Reachable) : s.TasksCounted := by
  induction h with
  | created usable =>
    intro peer block attempt works
    rw [eq_initial_of_create usable] at works
    simp [taskAt?, initial] at works
  | @applied s now operation reachable ih =>
    have staged := reachable.staged
    have kept : ∀ block before milestones after,
        operation.rule s.settings.maxAttempts.toNat now block before milestones after →
        before.isUnderway = true → after.isUnderway = true →
        after.standing.attempts? = before.standing.attempts? :=
      fun _ _ _ _ allowed => (Change.of_rule allowed).attempts?_of_isUnderway
    by_cases timed : operation = .tick
    · subst timed
      let started : Scheduler := { s with ticks := s.ticks + 1 }
      have ready : started.Staged := (quiet_setTicks s (s.ticks + 1)).staged staged
      have before : started.checkBandwidth.TasksCounted := by
        obtain ⟨flag, same⟩ := checkBandwidth_eq started
        rw [same]
        exact ih
      have turned : (started.turns now).TasksCounted :=
        ready.turns_induction before fun _ _ _ staged counted outcome passes =>
          counted.outcome staged outcome passes
      have settled : (started.turns now).Staged := (passes_turns ready now).staged ready
      exact turned.of_passes settled (passes_tick_of_turns s now settled)
        (spares_tick_of_turns s now).tasks fun _ _ _ _ same _ underway => by rw [same underway]
    · exact ih.of_passes staged (passes_apply staged now operation)
        (eases_apply s now timed).tasks kept
  | drained _ ih => exact ih

/-! ## Words -/

/-- No counter has run over its word: attempts are counted in thirty-two bits, and the blocks that
were queued again in sixty-four. -/
structure CountersFit (s : Scheduler) : Prop where
  attempts : s.backlog.CountsFit
  transfers : ∀ transfer ∈ s.transfers, transfer.attempt < UInt32.size
  retries : s.retries < UInt64.size

theorem Staged.requests_apply (staged : s.Staged) (now : Timestamp) (operation : Operation)
    (block : BlockHash) :
    (s.apply now operation).requests block =
      s.requests block + (Step.marks ⟨s, now, operation⟩ block).countP Mark.isRequest := by
  obtain ⟨before, inBefore⟩ := staged.stage block
  obtain ⟨milestones, passage⟩ := passes_apply staged now operation
  obtain ⟨after, _, told, _⟩ := passage.course block before inBefore
  have said : Step.said ⟨s, now, operation⟩ block = published (milestones block) := by
    rw [Step.said, Step.after, told, List.drop_left]
  have asked : Mark.isRequest ∘ Mark.passed = Milestone.isRequest := rfl
  rw [requests, requests, told, List.countP_append, Step.marks, said]
  split <;> split <;>
    simp [List.countP_append, List.countP_map, asked, Mark.isRequest]

theorem Staged.requests_run_eq (staged : s.Staged) (history : List (Timestamp × Operation))
    (block : BlockHash) :
    (s.run history).requests block =
      s.requests block + (s.marks history block).countP Mark.isRequest := by
  induction history generalizing s with
  | nil => rfl
  | cons timed rest ih =>
    have later := ih ((passes_apply staged timed.1 timed.2).staged staged)
    rw [staged.requests_apply, Nat.add_assoc] at later
    rw [marks, steps, List.flatMap_cons, List.countP_append]
    exact later

theorem attemptsOn_run_le {settings : Settings} {streams : StreamTable}
    (usable : create settings streams = .ok s) (history : List (Timestamp × Operation))
    (block : BlockHash) :
    (s.run history).backlog.attemptsOn block ≤ (s.run history).requests block := by
  have staged := (Reachable.created usable).staged
  obtain ⟨stage, h⟩ := ((Reachable.created usable).run history).staged.stage block
  have fewer : (s.unsettled history block).countP Mark.isRequest ≤
      (s.marks history block).countP Mark.isRequest :=
    (List.rtakeWhile_suffix _ _).sublist.countP_le
  rw [attemptsOn_eq, h, (tally_run usable history h).exact, staged.requests_run_eq]
  exact fewer.trans (Nat.le_add_left ..)

/-- As long as no block is requested so often that a word of thirty-two bits cannot count it, nor all
blocks together so often that one of sixty-four bits cannot, the counters are those of words. -/
theorem countersFit_run {settings : Settings} {streams : StreamTable}
    (usable : create settings streams = .ok s) (history : List (Timestamp × Operation))
    (each : ∀ block, (s.run history).requests block < UInt32.size)
    (all : ∑ block, (s.run history).requests block < UInt64.size) :
    (s.run history).CountersFit := by
  have attempts : (s.run history).backlog.CountsFit := fun block =>
    (attemptsOn_run_le usable history block).trans_lt (each block)
  refine ⟨attempts, fun transfer listed => ?_, ?_⟩
  · obtain ⟨⟨peer, record⟩, known, sends⟩ := List.mem_filterMap.mp listed
    rw [Std.ExtTreeMap.mem_toList_iff_getElem?_eq_some] at known
    have works : (s.run history).taskAt? peer = some (transfer.block, transfer.attempt) := by
      rw [taskAt?, known, Option.bind_some, Peer.task?, sends, Option.map_some]
    rw [← ((Reachable.created usable).run history).tasksCounted peer _ _ works]
    exact attempts transfer.block
  · rw [← sum_requeueCount usable history]
    refine (Finset.sum_le_sum fun block _ => ?_).trans_lt all
    rw [requests_run usable history block]
    omega

/-! ## Counters -/

/-- In every run from usable settings the counter of a block is the number of its requests since its
attempts were last settled, and a peer that sends the block is at the attempt of that number. The
counter exceeds the limit at most by the number of sessions that ended since, and a block is
discarded only when its counter has reached the limit. -/
theorem attempts_exact {settings : Settings} {streams : StreamTable}
    (usable : create settings streams = .ok s) (history : List (Timestamp × Operation))
    (block : BlockHash) :
    (s.run history).backlog.attemptsOn block =
        (s.unsettled history block).countP Mark.isRequest ∧
      (∀ peer transfer, (s.run history).transferOf? peer block = some transfer →
        transfer.attempt = (s.run history).backlog.attemptsOn block) ∧
      (s.run history).backlog.attemptsOn block ≤
        settings.maxAttempts.toNat + (s.unsettled history block).count .sessionEnded ∧
      ∀ now operation, .discarded ∈ Step.said ⟨s.run history, now, operation⟩ block →
        settings.maxAttempts.toNat ≤ (s.run history).backlog.attemptsOn block ∧
          ((s.unsettled history block).count .sessionEnded = 0 →
            (s.run history).backlog.attemptsOn block = settings.maxAttempts.toNat) := by
  have start := Reachable.created usable
  have reachable := start.run history
  have limit : s.settings = settings := by rw [eq_initial_of_create usable]; rfl
  obtain ⟨stage, h⟩ := reachable.staged.stage block
  have tally := tally_run usable history h
  have counter : (s.run history).backlog.attemptsOn block = stage.standing.attempts?.getD 0 := by
    rw [attemptsOn_eq, h]
  have exact := tally.exact
  have bounded := tally.bounded
  rw [← counter] at exact bounded
  rw [limit] at bounded
  refine ⟨exact, fun peer transfer sends => ?_, bounded, fun now operation discarded => ?_⟩
  · rw [transferOf?, Option.filter_eq_some_iff, decide_eq_true_eq] at sends
    obtain ⟨sends, rfl⟩ := sends
    refine (reachable.tasksCounted peer transfer.block transfer.attempt ?_).symm
    rw [Option.bind_eq_some_iff] at sends
    obtain ⟨record, known, works⟩ := sends
    rw [taskAt?, known, Option.bind_some, Peer.task?, works, Option.map_some]
  · obtain ⟨milestones, after, _, said, _, change⟩ :=
      reachable.staged.marks_eq now operation h
    rw [said] at discarded
    have spent := change.le_attempts_of_discarded (List.mem_of_mem_filter discarded)
    rw [start.settings_run history, limit, ← counter] at spent
    refine ⟨spent, fun uninterrupted => Nat.le_antisymm ?_ spent⟩
    rwa [uninterrupted, Nat.add_zero] at bounded

/-- The session ends while a peer sends a block, which is requested again in the next one. -/
def interruption : List (Timestamp × Operation) :=
  [(⟨0⟩, .hear (.peerHandshaked soleSender)), (⟨1⟩, .download (.plain [.zero])), (⟨2⟩, .tick),
    (⟨3⟩, .hear .sessionStopped), (⟨4⟩, .hear (.peerHandshaked soleSender)), (⟨5⟩, .tick)]

theorem attempts_exact_interruption :
    create .brisk .empty = .ok (initial .brisk .empty) ∧
      ((initial .brisk .empty).unsettled interruption .zero).count .sessionEnded = 1 ∧
      ((initial .brisk .empty).unsettled interruption .zero).countP Mark.isRequest = 2 ∧
      ((initial .brisk .empty).run interruption).backlog.attemptsOn .zero = 2 := by
  have usable : create .brisk .empty = .ok (initial .brisk .empty) := rfl
  have ended : ((initial .brisk .empty).unsettled interruption .zero).count .sessionEnded = 1 := by
    decide +kernel
  have requested : ((initial .brisk .empty).unsettled interruption .zero).countP Mark.isRequest =
      2 := by
    decide +kernel
  exact ⟨usable, ended, requested, (attempts_exact usable interruption .zero).1.trans requested⟩

end Scheduler
end BlockFetch
