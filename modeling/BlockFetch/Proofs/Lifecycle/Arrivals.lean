import BlockFetch.Proofs.Elements
import BlockFetch.Proofs.Lifecycle.Ledger

/-!
# Arrivals

A block may be delivered in one piece, as a header and chunks, more than once, and by peers that
nobody asked. Its arrival is reported when it is entered among the downloaded blocks and at no other
time, and only a request that insists on the block takes it off them again.
-/
namespace BlockFetch

/-- Whether an operation is a request that insists on a block even if it is there. -/
def Operation.insistsOn (operation : Operation) (block : BlockHash) : Bool :=
  match operation with
  | .download request => request.force && request.blocks.contains block
  | _ => false

namespace NetworkEvent

/-- The block that an event delivers, as a whole or in part. -/
def delivered? : NetworkEvent → Option BlockHash
  | headerDelivered _ header _ _ | liteBlockDelivered _ header _ | rawBlockDelivered _ header _ =>
    some header.hash
  | chunkDelivered _ block _ _ => some block
  | _ => none

def isDownload : NetworkEvent → Bool
  | blockDownloaded .. => true
  | _ => false

/-- A block that came in one piece, announced as a header and one chunk. -/
def pieces (peer : PeerAddress) (header : BlockHeader) (size : UInt64) : List NetworkEvent :=
  [headerDelivered peer header size .scheduler,
    chunkDelivered peer header.hash header.transactionCount .scheduler]

end NetworkEvent

/-- Whether a block is entered among the downloaded ones. -/
def Step.acquires (step : Step) (block : BlockHash) : Bool :=
  !step.before.downloaded.contains block && step.after.downloaded.contains block

namespace Scheduler

/-- The arrivals of a block are reported, each once. -/
structure ReportsArrivals (s : Scheduler) (block : BlockHash) : Prop where
  reported : ∀ now operation, (Step.said ⟨s, now, operation⟩ block).count .downloaded =
    if Step.acquires ⟨s, now, operation⟩ block then 1 else 0
  lost : ∀ now operation, block ∈ s.downloaded → block ∉ (s.apply now operation).downloaded →
    operation.insistsOn block = true
  once : ∀ history early first middle second late,
    s.steps history = early ++ first :: (middle ++ second :: late) →
    .downloaded ∈ first.said block → .downloaded ∈ second.said block →
    ∃ step ∈ middle, step.operation.insistsOn block = true
  /-- The delivery of a cancelled block reports the arrival of no block at all. -/
  cancelled : ∀ now event, event.delivered? = some block → block ∈ s.cancelled →
    ∀ other, .downloaded ∉ Step.said ⟨s, now, .hear event⟩ other

/-- A block that comes in one piece is announced in pieces exactly when its arrival is reported, and
before that. -/
def SplitsReported (s : Scheduler) (peer : PeerAddress) (header : BlockHeader) (size : UInt64)
    (now : Timestamp) : Prop :=
  ∃ outcome : List NetworkEvent,
    (s.hear (.liteBlockDelivered peer header size) now).events =
      s.events ++ ((if outcome.any NetworkEvent.isDownload then
        NetworkEvent.pieces peer header size else []) ++ outcome) ∧
    ∀ event ∈ outcome, event.topic ≠ .delivery

end Scheduler

/-! ## One step -/

section

variable {limit : Nat} {now : Timestamp} {block : BlockHash} {before after : Stage}
  {milestones : List Milestone} {operation : Operation}

theorem Change.count_downloaded (h : Change limit now operation block before milestones after) :
    milestones.count .downloaded = if before ≠ .downloaded ∧ after = .downloaded then 1 else 0 := by
  cases h with
  | still => simp
  | demanded _ demand => cases demand <;> simp
  | cancelled cancellation => cases cancellation <;> simp
  | failed _ failure => cases failure <;> simp
  | delivered delivery =>
    cases delivery with
    | unwanted => simp
    | downloaded _ missing => simp [missing]
  | abandoned =>
    rcases before with _ | _ | ⟨_, _, _ | _⟩ | _ | _ | _ <;> simp [Stage.atSessionEnd]
  | _ => simp

/-- A downloaded block stays downloaded unless somebody insists on it. -/
theorem Change.eq_downloaded (h : Change limit now operation block .downloaded milestones after)
    (unforced : operation.insistsOn block = false) : after = .downloaded := by
  cases h with
  | demanded named demand =>
    cases demand with
    | queued _ _ due => simp [Operation.insistsOn, due rfl, named] at unforced
    | spurned => rfl
  | cancelled cancellation =>
    cases cancellation with
    | cancelled _ missing => exact absurd rfl missing
    | late => rfl
  | failed _ failure => exact nomatch failure
  | delivered delivery =>
    cases delivery with
    | unwanted => rfl
    | downloaded => rfl
  | _ => rfl

end

namespace Scheduler

variable {s : Scheduler} {block : BlockHash}

theorem InStage.mem_downloaded {stage : Stage} (h : s.InStage block stage) :
    block ∈ s.downloaded ↔ stage = .downloaded := by
  rw [← Std.ExtTreeSet.contains_iff_mem, h.contains_downloaded]
  cases stage <;> simp [Stage.standing]

theorem InStage.mem_cancelled {stage : Stage} (h : s.InStage block stage) :
    block ∈ s.cancelled ↔ stage = .cancelled := by
  rw [← Std.ExtTreeSet.contains_iff_mem, h.contains_cancelled_eq, decide_eq_true_iff]

theorem Staged.count_said_downloaded (staged : s.Staged) (now : Timestamp) (operation : Operation)
    (block : BlockHash) : (Step.said ⟨s, now, operation⟩ block).count .downloaded =
      if Step.acquires ⟨s, now, operation⟩ block then 1 else 0 := by
  obtain ⟨before, inBefore⟩ := staged.stage block
  obtain ⟨milestones, after, inAfter, said, change⟩ := staged.change now operation inBefore
  have entered : Step.acquires ⟨s, now, operation⟩ block = true ↔
      before ≠ .downloaded ∧ after = .downloaded := by
    rw [Step.acquires, Step.after, Bool.and_eq_true, Bool.not_eq_true', ← Bool.not_eq_true,
      Std.ExtTreeSet.contains_iff_mem, Std.ExtTreeSet.contains_iff_mem, inBefore.mem_downloaded,
      inAfter.mem_downloaded]
  rw [said, count_published (by simp), change.count_downloaded]
  simp only [entered]

theorem Staged.mem_downloaded_apply (staged : s.Staged) (there : block ∈ s.downloaded)
    (now : Timestamp) {operation : Operation} (unforced : operation.insistsOn block = false) :
    block ∈ (s.apply now operation).downloaded := by
  obtain ⟨before, inBefore⟩ := staged.stage block
  obtain ⟨milestones, after, inAfter, _, change⟩ := staged.change now operation inBefore
  cases inBefore.mem_downloaded.mp there
  exact inAfter.mem_downloaded.mpr (change.eq_downloaded unforced)

/-! ## Between two reports -/

theorem Staged.mem_downloaded_run (staged : s.Staged) (there : block ∈ s.downloaded)
    (history : List (Timestamp × Operation))
    (unforced : ∀ step ∈ s.steps history, step.operation.insistsOn block = false) :
    block ∈ (s.run history).downloaded := by
  induction history generalizing s with
  | nil => exact there
  | cons timed rest ih =>
    have first : Step.mk s timed.1 timed.2 ∈ s.steps (timed :: rest) := List.mem_cons_self
    exact ih ((passes_apply staged timed.1 timed.2).staged staged)
      (staged.mem_downloaded_apply there timed.1 (unforced _ first))
      fun step later => unforced step (List.mem_cons_of_mem _ later)

/-- The steps of a run in two parts are those of two runs, one after the other. -/
theorem steps_eq_append {history : List (Timestamp × Operation)} {early late : List Step}
    (h : s.steps history = early ++ late) :
    ∃ past future, s.steps past = early ∧ (s.run past).steps future = late := by
  induction early generalizing s history with
  | nil => exact ⟨[], history, rfl, h⟩
  | cons first rest ih =>
    cases history with
    | nil => exact nomatch h
    | cons timed later =>
      obtain ⟨head, tail⟩ := List.cons.inj h
      obtain ⟨past, future, before, after⟩ := ih tail
      exact ⟨timed :: past, future, congrArg₂ List.cons head before, after⟩

/-- The first step of a run. -/
theorem eq_of_steps_eq_cons {history : List (Timestamp × Operation)} {first : Step}
    {late : List Step} (h : s.steps history = first :: late) :
    first.before = s ∧ ∃ future, first.after.steps future = late := by
  cases history with
  | nil => exact nomatch h
  | cons timed later =>
    obtain ⟨rfl, tail⟩ := List.cons.inj h
    exact ⟨rfl, later, tail⟩

theorem Reachable.exists_insistsOn (h : s.Reachable) {history : List (Timestamp × Operation)}
    {early middle late : List Step} {first second : Step}
    (whole : s.steps history = early ++ first :: (middle ++ second :: late))
    (before : .downloaded ∈ first.said block) (after : .downloaded ∈ second.said block) :
    ∃ step ∈ middle, step.operation.insistsOn block = true := by
  obtain ⟨past, future, _, rest⟩ := steps_eq_append whole
  obtain ⟨found, others, between⟩ := eq_of_steps_eq_cons rest
  obtain ⟨meantime, remaining, middle_eq, rest⟩ := steps_eq_append between
  obtain ⟨refound, _⟩ := eq_of_steps_eq_cons rest
  have acquires : ∀ step : Step, step.before.Staged → .downloaded ∈ step.said block →
      step.acquires block = true := by
    intro step staged said
    have counted := staged.count_said_downloaded step.now step.operation block
    have positive := List.count_pos_iff.mpr said
    by_contra unacquired
    rw [if_neg unacquired] at counted
    exact Nat.ne_of_gt positive counted
  have reachable : first.before.Reachable := found ▸ h.run past
  have there : block ∈ first.after.downloaded := by
    have acquired := acquires first reachable.staged before
    rw [Step.acquires, Bool.and_eq_true, Std.ExtTreeSet.contains_iff_mem] at acquired
    exact acquired.2
  have resumed : first.after.Reachable := reachable.applied first.now first.operation
  by_contra unforced
  have still : block ∈ second.before.downloaded := by
    rw [refound]
    refine resumed.staged.mem_downloaded_run there meantime fun step member => ?_
    rw [← Bool.not_eq_true]
    exact fun insists => unforced ⟨step, middle_eq ▸ member, insists⟩
  have again := acquires second (refound ▸ (resumed.run meantime).staged) after
  rw [Step.acquires, Bool.and_eq_true, Bool.not_eq_true', ← Bool.not_eq_true,
    Std.ExtTreeSet.contains_iff_mem] at again
  exact again.1 still

/-! ## Deliveries of cancelled blocks -/

theorem Passes.not_mem_downloaded {t : Scheduler} {blocks : List BlockHash}
    (h : Passes (Delivery.orStill.limitedTo blocks) s t) (staged : s.Staged)
    (cancelled : ∀ block ∈ blocks, block ∈ s.cancelled) (other : BlockHash) :
    .downloaded ∉ (t.story other).drop (s.story other).length := by
  obtain ⟨before, inBefore⟩ := staged.stage other
  obtain ⟨milestones, passage⟩ := h
  obtain ⟨after, _, told, allowed⟩ := passage.course other before inBefore
  rw [told, List.drop_left]
  generalize milestones other = passed at allowed
  rcases allowed with ⟨named, delivery | ⟨rfl, _⟩⟩ | ⟨_, rfl, _⟩
  · cases inBefore.mem_cancelled.mp (cancelled other named)
    cases delivery with
    | unwanted => exact List.not_mem_nil
    | downloaded uncancelled => exact absurd rfl uncancelled
  · exact List.not_mem_nil
  · exact List.not_mem_nil

theorem Reachable.not_mem_downloaded_of_cancelled (h : s.Reachable) (now : Timestamp)
    {event : NetworkEvent} (delivers : event.delivered? = some block)
    (cancelled : block ∈ s.cancelled) (other : BlockHash) :
    .downloaded ∉ Step.said ⟨s, now, .hear event⟩ other := by
  have staged := h.staged
  have alone : ∀ found ∈ [block], found ∈ s.cancelled := by simpa using cancelled
  cases event with
  | headerDelivered peer header size origin =>
    cases delivers
    cases origin with
    | wire =>
      exact (passes_hearHeader staged peer header size now).not_mem_downloaded staged alone other
    | scheduler => exact fun said => by simp [Step.said, Step.after, apply, hear] at said
  | chunkDelivered peer named transactions origin =>
    cases delivers
    cases origin with
    | wire =>
      have passes := passes_hearChunk staged peer block transactions now
      refine passes.not_mem_downloaded staged ?_ other
      intro counted member
      simp only [Option.mem_toList, Option.map_eq_some_iff] at member
      obtain ⟨part, known, rfl⟩ := member
      rw [h.partsNamed block part known]
      exact cancelled
    | scheduler => exact fun said => by simp [Step.said, Step.after, apply, hear] at said
  | liteBlockDelivered peer header size =>
    cases delivers
    exact (passes_hearLiteBlock staged peer header size now).limitedTo_orStill.not_mem_downloaded
      staged alone other
  | rawBlockDelivered peer header size =>
    cases delivers
    exact (passes_succeed staged peer header size now).limitedTo_orStill.not_mem_downloaded
      staged alone other
  | _ => cases delivers

/-! ## Blocks in one piece -/

theorem events_publish (s : Scheduler) (event : NetworkEvent) :
    (s.publish event).events = s.events ++ [event] := by
  simp [events, publish, Effect.event?]

theorem events_noteDownload (s : Scheduler) (block : BlockHash) (peer : PeerAddress)
    (now : Timestamp) : ((s.markDownloaded block).noteDownload block peer now).events = s.events := by
  unfold noteDownload
  split <;> rfl

/-- What a delivery says. -/
theorem events_succeed (s : Scheduler) (peer : PeerAddress) (header : BlockHeader) (size : UInt64)
    (now : Timestamp) : ∃ (duration : Duration) (freed : List PeerAddress),
    (s.succeed peer header size now).events = s.events ++
      ((if s.isUnwanted header.hash then [] else [.blockDownloaded peer header size duration]) ++
        freed.map fun peer => .keepAlive peer true) := by
  by_cases unwanted : s.isUnwanted header.hash = true
  · refine ⟨0, s.holders header.hash, ?_⟩
    have same : (s.succeed peer header size now).events = (s.freeHolders header.hash).events := by
      simp only [succeed, unwanted, if_true]
      rfl
    rw [same, events_freeHolders, if_pos unwanted, List.nil_append]
  · let transfer? := s.transferOf? peer header.hash
    let duration := (transfer?.map fun transfer => transfer.elapsed now).getD 0
    let measured :=
      (s.publish (.blockDownloaded peer header size duration)).recordSpeed peer transfer? size now
    refine ⟨duration, measured.holders header.hash, ?_⟩
    have same : (s.succeed peer header size now).events =
        (measured.freeHolders header.hash).events := by
      simp only [succeed, unwanted, Bool.false_eq_true, if_false]
      exact events_noteDownload (measured.freeHolders header.hash) header.hash peer now
    have told : measured.events = s.events ++ [.blockDownloaded peer header size duration] := by
      rw [← events_publish]
      simp only [measured, transfer?, recordSpeed]
      split <;> rfl
    rw [same, events_freeHolders, told, if_neg unwanted, List.append_assoc]

theorem splitsReported (s : Scheduler) (peer : PeerAddress) (header : BlockHeader) (size : UInt64)
    (now : Timestamp) : s.SplitsReported peer header size now := by
  rw [SplitsReported, hear, hearLiteBlock]
  split
  · rename_i unwanted
    obtain ⟨_, freed, told⟩ := events_succeed s peer header size now
    rw [if_pos unwanted, List.nil_append] at told
    refine ⟨freed.map fun peer => .keepAlive peer true, ?_, ?_⟩
    · rw [told, if_neg (by simp [NetworkEvent.isDownload]), List.nil_append]
    · simp [NetworkEvent.topic]
  · rename_i wanted
    extract_lets head body
    obtain ⟨duration, freed, told⟩ := events_succeed body peer header size now
    have same : body.isUnwanted header.hash = s.isUnwanted header.hash := rfl
    rw [same, if_neg wanted] at told
    refine ⟨[.blockDownloaded peer header size duration] ++
      freed.map fun peer => .keepAlive peer true, ?_, ?_⟩
    · rw [told, if_pos (by simp [NetworkEvent.isDownload]), events_publish, events_publish]
      simp [NetworkEvent.pieces]
    · simp [NetworkEvent.topic]

/-! ## All arrivals -/

/-- In every run the arrival of a block is reported in the steps that enter it among the downloaded
blocks, once in each of them. Only a request that insists on the block takes it off them, so there
is such a request between two reports. A cancelled block that is delivered is not reported, and a
block that comes in one piece is announced in pieces exactly when it is. -/
theorem Reachable.reports_arrivals (h : s.Reachable) :
    (∀ block, s.ReportsArrivals block) ∧
      ∀ peer header size now, s.SplitsReported peer header size now := by
  refine ⟨fun block => ⟨fun now operation => ?_, ?_, ?_, ?_⟩, splitsReported s⟩
  · exact h.staged.count_said_downloaded now operation block
  · intro now operation there gone
    rw [← Bool.not_eq_false]
    exact fun unforced => gone (h.staged.mem_downloaded_apply there now unforced)
  · intro history early first middle second late whole before after
    exact h.exists_insistsOn whole before after
  · intro now event delivers cancelled other
    exact h.not_mem_downloaded_of_cancelled now delivers cancelled other

/-- The block of zeros arrives, is insisted on, and arrives again. -/
def rearrival : List (Timestamp × Operation) :=
  [(⟨3⟩, .hear (.rawBlockDelivered soleSender ⟨.zero, .zero, 0, 0⟩ 80)),
    (⟨4⟩, .download { FetchRequest.plain [.zero] with force := true }),
    (⟨5⟩, .hear (.liteBlockDelivered soleSender ⟨.zero, .zero, 2, 0⟩ 80))]

theorem reports_arrivals_rearrival :
    sending.Reachable ∧
      ∃ first second third, sending.steps rearrival = [first, second, third] ∧
        Milestone.downloaded ∈ first.said .zero ∧ Milestone.downloaded ∈ third.said .zero ∧
        ∃ step ∈ [second], step.operation.insistsOn .zero = true := by
  refine ⟨reachable_sending, _, _, _, rfl, by decide +kernel, by decide +kernel, ?_⟩
  refine (reachable_sending.reports_arrivals.1 .zero).once rearrival [] _ [_] _ [] rfl ?_ ?_ <;>
    decide +kernel

end Scheduler
end BlockFetch
