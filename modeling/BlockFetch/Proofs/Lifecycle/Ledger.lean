import BlockFetch.Proofs.Lifecycle.Places

/-!
# The ledger of attempts

Every request of a block begins an attempt, and every attempt is over in one way: the block is
queued again after a failure, discarded, downloaded, cancelled, or queued again because the session
ends. The ledger of a run counts the requests of a block and the ends of its attempts, and the
difference is the attempt that is still under way, if there is one.

The outbox is never emptied in a run, so what it says is what was said in the whole run.
-/
namespace BlockFetch

def Milestone.isRequest : Milestone → Bool
  | .requested _ => true
  | _ => false

structure Step where
  before : Scheduler
  now : Timestamp
  operation : Operation

namespace Scheduler

def requests (s : Scheduler) (block : BlockHash) : Nat :=
  (s.story block).countP Milestone.isRequest

def discards (s : Scheduler) (block : BlockHash) : Nat :=
  (s.story block).count .discarded

def downloads (s : Scheduler) (block : BlockHash) : Nat :=
  (s.story block).count .downloaded

def steps (s : Scheduler) : List (Timestamp × Operation) → List Step
  | [] => []
  | (now, operation) :: rest => ⟨s, now, operation⟩ :: (s.apply now operation).steps rest

end Scheduler

namespace Step

def after (step : Step) : Scheduler :=
  step.before.apply step.now step.operation

/-- What the events of a step say about the attempts on a block. -/
def said (step : Step) (block : BlockHash) : List Milestone :=
  (step.after.story block).drop (step.before.story block).length

/-- Whether a failed block is queued again: it was in flight and waits now, and neither did the
session end nor was the block put aside in between. -/
def requeues (step : Step) (block : BlockHash) : Bool :=
  !step.operation.endsSession && step.before.isInFlight block && step.after.backlog.contains block
    && step.after.discards block = step.before.discards block

/-- How often a block that was in flight is downloaded. -/
def deliveries (step : Step) (block : BlockHash) : Nat :=
  if step.before.isInFlight block then step.after.downloads block - step.before.downloads block
  else 0

/-- Whether a block that was in flight is cancelled. -/
def cancels (step : Step) (block : BlockHash) : Bool :=
  step.before.isInFlight block && step.after.cancelled.contains block

/-- Whether a block that was in flight is queued again because the session ends. -/
def returns (step : Step) (block : BlockHash) : Bool :=
  step.operation.endsSession && step.before.isInFlight block && step.after.backlog.contains block

end Step

namespace Scheduler

/-- How often a failed block is queued again in a run. -/
def requeueCount (s : Scheduler) (history : List (Timestamp × Operation)) (block : BlockHash) : Nat :=
  (s.steps history).countP fun step => step.requeues block

/-- How often a block is downloaded in a run while it is in flight. -/
def deliveryCount (s : Scheduler) (history : List (Timestamp × Operation)) (block : BlockHash) :
    Nat :=
  ((s.steps history).map fun step => step.deliveries block).sum

/-- How often a block is cancelled in a run while it is in flight. -/
def cancelCount (s : Scheduler) (history : List (Timestamp × Operation)) (block : BlockHash) : Nat :=
  (s.steps history).countP fun step => step.cancels block

/-- How often a block is queued again in a run because the session ends. -/
def returnCount (s : Scheduler) (history : List (Timestamp × Operation)) (block : BlockHash) : Nat :=
  (s.steps history).countP fun step => step.returns block

end Scheduler

/-! ## One step -/

/-- The account of a block in one step, by its stages and milestones. -/
structure Balanced (endsSession : Bool) (before : Stage) (milestones : List Milestone)
    (after : Stage) : Prop where
  attempts :
    milestones.countP Milestone.isRequest + before.isUnderway.toNat =
      after.isUnderway.toNat + milestones.count .requeued + milestones.count .discarded +
        (if before.isUnderway then milestones.count .downloaded else 0) +
        (before.isUnderway && decide (after = .cancelled)).toNat +
        (endsSession && before.isUnderway && after.isWaiting).toNat
  requeued :
    milestones.count .requeued =
      (!endsSession && before.isUnderway && after.isWaiting &&
        decide (milestones.count .discarded = 0)).toNat

section

variable {limit : Nat} {now : Timestamp} {block : BlockHash} {before after : Stage}
  {milestones : List Milestone} {endsSession : Bool}

/-- No operation leaves an attempt unaccounted for, or accounts for it twice. -/
theorem balanced_of_rule {operation : Operation}
    (h : operation.rule limit now block before milestones after) :
    Balanced operation.endsSession before milestones after := by
  have still : ∀ stage, Balanced operation.endsSession stage [] stage := by
    intro stage
    constructor <;> cases stage <;> simp [Stage.isUnderway, Stage.isWaiting]
  cases Change.of_rule h with
  | still => exact still _
  | demanded _ demand =>
    cases demand with
    | queued rests =>
      have waits : (Stage.waiting none).isUnderway = false := rfl
      constructor <;> simp [rests, waits]
    | _ => constructor <;> simp [Stage.isUnderway, Stage.isWaiting]
  | cancelled cancellation =>
    cases cancellation with
    | cancelled rests =>
      have settled : Stage.cancelled.isUnderway = false := rfl
      constructor <;> simp [rests, settled]
    | _ => constructor <;> simp [Stage.isUnderway, Stage.isWaiting]
  | failed goesOn failure =>
    rw [goesOn]
    cases failure <;> constructor <;>
      simp [Stage.isUnderway, Stage.isWaiting, Milestone.isRequest]
  | delivered delivery =>
    cases delivery with
    | unwanted => exact still _
    | downloaded =>
      constructor <;> cases before <;>
        simp [Stage.isUnderway, Stage.isWaiting, Milestone.isRequest]
  | abandoned =>
    constructor <;> rcases before with _ | _ | ⟨_, _, _ | _⟩ | _ | _ | _ <;>
      simp [Stage.isUnderway, Stage.isWaiting, Stage.atSessionEnd, Operation.endsSession]
  | _ =>
    constructor <;>
      simp [Stage.isUnderway, Stage.isWaiting, Milestone.isRequest, Operation.endsSession]

end

theorem count_published {milestone : Milestone} (announced : milestone ≠ .requeued)
    (milestones : List Milestone) : (published milestones).count milestone =
      milestones.count milestone :=
  List.count_filter (by simpa using announced)

theorem countP_published (milestones : List Milestone) :
    (published milestones).countP Milestone.isRequest = milestones.countP Milestone.isRequest := by
  rw [published, List.countP_filter]
  congr 1
  funext milestone
  cases milestone <;> simp [Milestone.isRequest]

namespace Scheduler

variable {s : Scheduler}

theorem InStage.contains_backlog {block : BlockHash} {stage : Stage} (h : s.InStage block stage) :
    s.backlog.contains block = stage.isWaiting := by
  rw [Bool.eq_iff_iff, Backlog.contains, List.contains_iff_mem, h.mem_queue]

theorem InStage.contains_cancelled_eq {block : BlockHash} {stage : Stage}
    (h : s.InStage block stage) : s.cancelled.contains block = decide (stage = .cancelled) := by
  rw [h.contains_cancelled]
  cases stage <;> simp [Stage.standing]

/-- An operation changes each block in one of the ways that there are, and says of it what happened,
but for the return to the queue. -/
theorem Staged.change (staged : s.Staged) (now : Timestamp) (operation : Operation)
    {block : BlockHash} {before : Stage} (h : s.InStage block before) :
    ∃ milestones after, (s.apply now operation).InStage block after ∧
      Step.said ⟨s, now, operation⟩ block = published milestones ∧
      Change s.settings.maxAttempts.toNat now operation block before milestones after := by
  obtain ⟨milestones, passage⟩ := passes_apply staged now operation
  obtain ⟨after, inAfter, told, allowed⟩ := passage.course block before h
  refine ⟨milestones block, after, inAfter, ?_, Change.of_rule allowed⟩
  rw [Step.said, Step.after, told, List.drop_left]

/-- Each operation keeps the account of each block in balance, and the scheduler counts the blocks
that it queues again. -/
theorem Staged.accounts (staged : s.Staged) (step : Step) (here : step.before = s) :
    (∀ block,
      step.after.requests block + (s.isInFlight block).toNat + s.discards block =
        s.requests block + (step.after.isInFlight block).toNat + (step.requeues block).toNat +
          step.after.discards block + step.deliveries block + (step.cancels block).toNat +
          (step.returns block).toNat) ∧
    step.after.retries = s.retries + ∑ block, (step.requeues block).toNat := by
  subst here
  obtain ⟨milestones, passage⟩ := passes_apply staged step.now step.operation
  have each : ∀ block,
      step.after.requests block + (step.before.isInFlight block).toNat +
          step.before.discards block =
        step.before.requests block + (step.after.isInFlight block).toNat +
          (step.requeues block).toNat + step.after.discards block + step.deliveries block +
          (step.cancels block).toNat + (step.returns block).toNat ∧
      (step.requeues block).toNat = (milestones block).count .requeued := by
    intro block
    obtain ⟨before, inBefore⟩ := staged.stage block
    obtain ⟨after, inAfter, told, allowed⟩ := passage.course block before inBefore
    have balanced := balanced_of_rule allowed
    have requests : step.after.requests block =
        step.before.requests block + (milestones block).countP Milestone.isRequest := by
      rw [requests, requests, Step.after, told, List.countP_append, countP_published]
    have discards : step.after.discards block =
        step.before.discards block + (milestones block).count .discarded := by
      rw [discards, discards, Step.after, told, List.count_append, count_published (by simp)]
    have downloads : step.after.downloads block =
        step.before.downloads block + (milestones block).count .downloaded := by
      rw [downloads, downloads, Step.after, told, List.count_append, count_published (by simp)]
    have flew := inBefore.isInFlight
    have flies : step.after.isInFlight block = _ := inAfter.isInFlight
    have waits : step.after.backlog.contains block = _ := inAfter.contains_backlog
    have gone : step.after.cancelled.contains block = _ := inAfter.contains_cancelled_eq
    have requeued : (step.requeues block).toNat = (milestones block).count .requeued := by
      rw [Step.requeues, balanced.requeued, flew, waits, discards]
      simp
    refine ⟨?_, requeued⟩
    rw [requeued, requests, discards, Step.deliveries, downloads, Step.cancels, Step.returns, flew,
      flies, waits, gone, Nat.add_sub_cancel_left]
    have := balanced.attempts
    omega
  refine ⟨fun block => (each block).1, ?_⟩
  rw [Finset.sum_congr rfl fun block _ => (each block).2]
  exact passage.retries

/-! ## Whole runs -/

theorem countP_cons_toNat {α : Type} (p : α → Bool) (first : α) (rest : List α) :
    (first :: rest).countP p = (p first).toNat + rest.countP p := by
  cases h : p first <;> simp [h, Nat.add_comm]

theorem Staged.run_accounts (staged : s.Staged) (history : List (Timestamp × Operation)) :
    (∀ block,
      (s.run history).requests block + (s.isInFlight block).toNat + s.discards block =
        s.requests block + ((s.run history).isInFlight block).toNat +
          s.requeueCount history block + (s.run history).discards block +
          s.deliveryCount history block + s.cancelCount history block +
          s.returnCount history block) ∧
    (s.run history).retries = s.retries + ∑ block, s.requeueCount history block := by
  -- The ledger is kept between any two states of a run, so that what follows a step is a run too.
  induction history generalizing s with
  | nil => exact ⟨fun block => rfl, by simp [run, requeueCount, steps]⟩
  | cons timed rest ih =>
    obtain ⟨step, before, after, steps⟩ : ∃ step : Step, step.before = s ∧
        step.after = s.apply timed.1 timed.2 ∧
        s.steps (timed :: rest) = step :: (s.apply timed.1 timed.2).steps rest :=
      ⟨⟨s, timed.1, timed.2⟩, rfl, rfl, rfl⟩
    have run : s.run (timed :: rest) = (s.apply timed.1 timed.2).run rest := rfl
    have head := staged.accounts step before
    have tail := ih ((passes_apply staged timed.1 timed.2).staged staged)
    rw [after] at head
    simp only [requeueCount, deliveryCount, cancelCount, returnCount, steps, run,
      countP_cons_toNat, List.map_cons, List.sum_cons] at tail ⊢
    constructor
    · intro block
      have now := head.1 block
      have later := tail.1 block
      omega
    · rw [tail.2, Finset.sum_add_distrib]
      have now := head.2
      omega

/-- A run that starts with nothing accounts for each request of a block. -/
theorem requests_run {settings : Settings} {streams : StreamTable}
    (usable : create settings streams = .ok s) (history : List (Timestamp × Operation))
    (block : BlockHash) :
    (s.run history).requests block =
      (if (s.run history).isInFlight block then 1 else 0) + s.requeueCount history block +
        (s.run history).discards block + s.deliveryCount history block +
        s.cancelCount history block + s.returnCount history block := by
  have account := ((Reachable.created usable).staged.run_accounts history).1 block
  have fresh := eq_initial_of_create usable
  have silent : s.story block = [] := by
    rw [fresh]
    rfl
  have idle : s.isInFlight block = false := by
    rw [fresh]
    simp [isInFlight, isHeld, initial]
  rw [requests.eq_1 s, discards.eq_1 s, silent, idle] at account
  cases flies : (s.run history).isInFlight block <;> simp [flies] at account ⊢ <;> omega

theorem sum_requeueCount {settings : Settings} {streams : StreamTable}
    (usable : create settings streams = .ok s) (history : List (Timestamp × Operation)) :
    ∑ block, s.requeueCount history block = (s.run history).retries := by
  have uncounted : s.retries = 0 := by rw [eq_initial_of_create usable]; rfl
  rw [((Reachable.created usable).staged.run_accounts history).2, uncounted, Nat.zero_add]

/-- In every run from usable settings, each request of a block is answered for once: by the attempt
that is under way, or by the end of an attempt that failed and is repeated, that failed for good,
that was successful, that was cancelled, or that the session cut short. The failed attempts that
are repeated, of all blocks together, are those that the scheduler counts. -/
theorem ledger {settings : Settings} {streams : StreamTable}
    (usable : create settings streams = .ok s) (history : List (Timestamp × Operation)) :
    (∀ block,
      (s.run history).requests block =
        (if (s.run history).isInFlight block then 1 else 0) + s.requeueCount history block +
          (s.run history).discards block + s.deliveryCount history block +
          s.cancelCount history block + s.returnCount history block) ∧
    ∑ block, s.requeueCount history block = (s.run history).retries :=
  ⟨requests_run usable history, sum_requeueCount usable history⟩

/-- A peer does not have a block when it is asked first, and delivers it when it is asked again. -/
def secondTry : List (Timestamp × Operation) :=
  [(⟨0⟩, .hear (.peerHandshaked soleSender)), (⟨1⟩, .download (.plain [.zero])), (⟨2⟩, .tick),
    (⟨3⟩, .hear (.blocksNotFound soleSender [.zero])), (⟨4_000⟩, .tick),
    (⟨4_001⟩, .hear (.rawBlockDelivered soleSender ⟨.zero, .zero, 0, 0⟩ 80))]

theorem ledger_secondTry :
    create .brisk .empty = .ok (initial .brisk .empty) ∧
      ((initial .brisk .empty).run secondTry).requests .zero = 2 ∧
      (initial .brisk .empty).requeueCount secondTry .zero = 1 ∧
      (initial .brisk .empty).deliveryCount secondTry .zero = 1 ∧
      ((initial .brisk .empty).run secondTry).discards .zero +
        (initial .brisk .empty).cancelCount secondTry .zero +
        (initial .brisk .empty).returnCount secondTry .zero = 0 := by
  have usable : create .brisk .empty = .ok (initial .brisk .empty) := rfl
  have account := (ledger usable secondTry).1 .zero
  have requested : ((initial .brisk .empty).run secondTry).requests .zero = 2 := by decide +kernel
  have requeued : (initial .brisk .empty).requeueCount secondTry .zero = 1 := by decide +kernel
  have delivered : (initial .brisk .empty).deliveryCount secondTry .zero = 1 := by decide +kernel
  refine ⟨usable, requested, requeued, delivered, ?_⟩
  omega

end Scheduler
end BlockFetch
