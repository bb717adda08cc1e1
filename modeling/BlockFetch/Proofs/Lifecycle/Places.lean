import BlockFetch.Proofs.Lifecycle.Course

/-!
# Places

A block that the scheduler knows waits, is in flight, or has been discarded, cancelled or
downloaded. It is in one of these places only, and no operation makes the scheduler forget it.
-/
namespace BlockFetch

inductive Place where
  | backlog
  | inFlight
  | discarded
  | cancelled
  | downloaded
  deriving DecidableEq

def Stage.place? : Stage → Option Place
  | unknown => none
  | waiting _ => some .backlog
  | underway .. => some .inFlight
  | discarded _ => some .discarded
  | cancelled => some .cancelled
  | downloaded => some .downloaded

namespace Scheduler

/-- Whether a block is in a place, as the table of the place has it. -/
def IsAt (s : Scheduler) (block : BlockHash) : Place → Prop
  | .backlog => block ∈ s.backlog.queue
  | .inFlight => (∃ peer, s.blockAt? peer = some block) ∨ block ∈ s.limbo
  | .discarded => block ∈ s.discarded
  | .cancelled => block ∈ s.cancelled
  | .downloaded => block ∈ s.downloaded

/-- Whether the scheduler knows a block. -/
def Tracks (s : Scheduler) (block : BlockHash) : Prop :=
  ∃ place, s.IsAt block place

variable {s : Scheduler} {block : BlockHash} {stage : Stage}

theorem InStage.isAt_iff (h : s.InStage block stage) {place : Place} :
    s.IsAt block place ↔ stage.place? = some place := by
  cases place with
  | backlog =>
    rw [IsAt, h.mem_queue]
    cases stage <;> simp [Stage.isWaiting, Stage.place?]
  | inFlight =>
    rw [IsAt, ← isInFlight_iff, h.isInFlight]
    cases stage <;> simp [Stage.isUnderway, Stage.place?]
  | discarded =>
    rw [IsAt, ← Std.ExtTreeMap.isSome_getElem?_iff_mem, h.discarded]
    cases stage <;> simp [Stage.standing, Stage.place?]
  | cancelled =>
    rw [IsAt, ← Std.ExtTreeSet.contains_iff_mem, h.contains_cancelled]
    cases stage <;> simp [Stage.standing, Stage.place?]
  | downloaded =>
    rw [IsAt, ← Std.ExtTreeSet.contains_iff_mem, h.contains_downloaded]
    cases stage <;> simp [Stage.standing, Stage.place?]

theorem InStage.tracks_iff (h : s.InStage block stage) : s.Tracks block ↔ stage ≠ .unknown := by
  simp only [Tracks, h.isAt_iff]
  cases stage <;> simp [Stage.place?]

/-! ## One place at a time -/

theorem InStage.holder_unique (h : s.InStage block stage) {first second : PeerAddress}
    (holds : s.blockAt? first = some block) (holds' : s.blockAt? second = some block) :
    first = second := by
  rw [h.heldBy] at holds holds'
  cases stage with
  | underway custody attempts cancelling =>
    exact Option.some_inj.mp (Eq.trans (Eq.symm holds) holds')
  | _ => exact holds.elim

/-- In every state that can be reached a block is held by one peer at most, no block stands in the
backlog twice, and no block is in two places. -/
theorem Reachable.exclusive (h : s.Reachable) :
    (∀ block first second, s.blockAt? first = some block → s.blockAt? second = some block →
      first = second) ∧
    s.backlog.queue.Nodup ∧
    ∀ block place other, s.IsAt block place → s.IsAt block other → place = other := by
  refine ⟨fun block first second holds holds' => ?_, h.staged.nodup_queue,
    fun block place other here there => ?_⟩
  · obtain ⟨stage, inStage⟩ := h.staged.stage block
    exact inStage.holder_unique holds holds'
  · obtain ⟨stage, inStage⟩ := h.staged.stage block
    rw [inStage.isAt_iff] at here there
    exact Option.some_inj.mp (here.symm.trans there)

/-- The peer of the runs that serve as examples. -/
def soleSender : PeerAddress := .v4 #v[10, 0, 0, 1] 8333

def secondSender : PeerAddress := .v4 #v[10, 0, 0, 3] 8333

def ones : BlockHash := ⟨List.replicate 32 255, List.length_replicate⟩

/-- A run that ends while a peer sends the block of zeros. -/
def sending : Scheduler :=
  (initial .brisk .empty).run
    [(⟨0⟩, .hear (.peerHandshaked soleSender)), (⟨1⟩, .download (.plain [.zero])), (⟨2⟩, .tick)]

theorem reachable_sending : sending.Reachable := by
  have usable : create .brisk .empty = .ok (initial .brisk .empty) := rfl
  exact (Reachable.created usable).run _

theorem isAt_sending : sending.IsAt .zero .inFlight :=
  isInFlight_iff.mp (by decide +kernel)

theorem exclusive_sending :
    sending.Reachable ∧ sending.IsAt .zero .inFlight ∧ ¬ sending.IsAt .zero .backlog := by
  refine ⟨reachable_sending, isAt_sending, fun queued => ?_⟩
  have same := reachable_sending.exclusive.2.2 .zero .backlog .inFlight queued isAt_sending
  exact nomatch same

/-! ## No block is forgotten -/

section

variable {limit : Nat} {now : Timestamp} {before after : Stage} {milestones : List Milestone}

/-- What was known before an operation is known after it. -/
theorem known_of_rule {operation : Operation}
    (h : operation.rule limit now block before milestones after) (known : before ≠ .unknown) :
    after ≠ .unknown := by
  cases Change.of_rule h with
  | demanded _ demand => cases demand <;> simp
  | cancelled cancellation => cases cancellation <;> simp
  | failed _ failure => cases failure <;> simp
  | delivered delivery =>
    cases delivery with
    | unwanted => exact known
    | downloaded => simp
  | abandoned =>
    cases before with
    | underway custody attempts cancelling => cases cancelling <;> simp [Stage.atSessionEnd]
    | _ => exact known
  | still => exact known
  | _ => simp

end

theorem Staged.tracks_apply (staged : s.Staged) (now : Timestamp) {operation : Operation}
    (h : ∀ before milestones after, s.InStage block before →
      operation.rule s.settings.maxAttempts.toNat now block before milestones after →
      after ≠ .unknown) : (s.apply now operation).Tracks block := by
  obtain ⟨before, inBefore⟩ := staged.stage block
  obtain ⟨milestones, passage⟩ := passes_apply staged now operation
  obtain ⟨after, inAfter, _, allowed⟩ := passage.course block before inBefore
  exact inAfter.tracks_iff.mpr (h before _ after inBefore allowed)

/-- A request makes all its blocks known, and a block that is known stays known. -/
theorem Reachable.conserved (h : s.Reachable) (now : Timestamp) :
    (∀ request, ∀ block ∈ request.blocks, (s.apply now (.download request)).Tracks block) ∧
    ∀ operation block, s.Tracks block → (s.apply now operation).Tracks block := by
  refine ⟨fun request block named => ?_, fun operation block tracked => ?_⟩
  · refine h.staged.tracks_apply now fun before milestones after _ allowed => ?_
    rcases allowed with ⟨_, demand⟩ | ⟨unnamed, _⟩
    · cases demand <;> simp
    · exact absurd named unnamed
  · refine h.staged.tracks_apply now fun before milestones after inBefore allowed => ?_
    exact known_of_rule allowed (inBefore.tracks_iff.mp tracked)

theorem conserved_sending :
    sending.Reachable ∧ sending.Tracks .zero ∧
      (sending.apply ⟨3⟩ (.hear (.peerDisconnected soleSender "gone"))).Tracks .zero := by
  have tracked : sending.Tracks .zero := ⟨.inFlight, isAt_sending⟩
  exact ⟨reachable_sending, tracked, (reachable_sending.conserved ⟨3⟩).2 _ .zero tracked⟩

end Scheduler
end BlockFetch
