import BlockFetch.Proofs.Lifecycle.Ledger

/-!
# Cancelled for good

A client that has cancelled a block hears nothing more of attempts on it, but for the delivery of
one that was under way. A cancelled block is given up: it is cancelled or downloaded, or it is still
in flight with the wish to cancel it kept. Only a request that names the block ends this.
-/
namespace BlockFetch

/-- Whether a block is cancelled or there, or is to be cancelled when its attempt ends. -/
def Stage.isGivenUp : Stage → Bool
  | underway _ _ cancelling => cancelling
  | cancelled | downloaded => true
  | _ => false

def Operation.demands (operation : Operation) (block : BlockHash) : Bool :=
  match operation with
  | .download request => request.blocks.contains block
  | _ => false

section

variable {limit : Nat} {now : Timestamp} {block : BlockHash} {before after : Stage}
  {milestones : List Milestone} {operation : Operation}

/-- Every end of an attempt honours the wish to cancel, and none but a request takes it back. -/
theorem Change.isGivenUp (h : Change limit now operation block before milestones after)
    (givenUp : before.isGivenUp = true) (undemanded : operation.demands block = false) :
    after.isGivenUp = true := by
  cases h with
  | demanded named => simp [Operation.demands, named] at undemanded
  | cancelled cancellation => cases cancellation <;> simp [Stage.isGivenUp]
  | failed _ failure => cases failure <;> simp [Stage.isGivenUp] at givenUp ⊢
  | delivered delivery =>
    cases delivery with
    | unwanted => exact givenUp
    | downloaded => rfl
  | abandoned =>
    cases before with
    | underway custody attempts cancelling =>
      cases givenUp
      rfl
    | _ => exact givenUp
  | still => exact givenUp
  | lost => exact givenUp
  | stalled => exact givenUp
  | _ => simp [Stage.isGivenUp] at givenUp

/-- A block that is given up is at most delivered. -/
theorem Change.eq_downloaded_of_mem (h : Change limit now operation block before milestones after)
    (givenUp : before.isGivenUp = true) {milestone : Milestone} (passed : milestone ∈ milestones) :
    milestone = .downloaded := by
  cases h with
  | demanded _ demand => cases demand <;> exact nomatch passed
  | cancelled cancellation => cases cancellation <;> exact nomatch passed
  | failed _ failure =>
    cases failure with
    | cancelled => exact nomatch passed
    | _ => simp [Stage.isGivenUp] at givenUp
  | delivered delivery =>
    cases delivery with
    | unwanted => exact nomatch passed
    | downloaded => exact List.mem_singleton.mp passed
  | requested => simp [Stage.isGivenUp] at givenUp
  | discardedAndRevived => simp [Stage.isGivenUp] at givenUp
  | _ => exact nomatch passed

theorem Cancellation.isGivenUp (h : Cancellation block before milestones after) :
    after.isGivenUp = true := by
  cases h <;> rfl

end

namespace Scheduler

variable {s : Scheduler} {block : BlockHash}

/-- What a client gave up: the block is in a stage of a given up block. -/
def GaveUp (s : Scheduler) (block : BlockHash) : Prop :=
  ∃ stage, s.InStage block stage ∧ stage.isGivenUp = true

theorem Staged.gaveUp_cancel (staged : s.Staged) {blocks : List BlockHash} (named : block ∈ blocks)
    (now : Timestamp) : (s.cancel blocks now).GaveUp block := by
  obtain ⟨before, inBefore⟩ := staged.stage block
  obtain ⟨milestones, passage⟩ := passes_cancel staged blocks now
  obtain ⟨after, inAfter, _, ⟨_, cancellation⟩ | ⟨unnamed, _⟩⟩ :=
    passage.course block before inBefore
  · exact ⟨after, inAfter, cancellation.isGivenUp⟩
  · exact absurd named unnamed

/-- No operation but a request that names a block resumes what was given up, and in the meantime
the block is at most delivered. -/
theorem GaveUp.apply (gaveUp : s.GaveUp block) (staged : s.Staged) (now : Timestamp)
    {operation : Operation} (undemanded : operation.demands block = false) :
    (s.apply now operation).GaveUp block ∧
      ∃ milestones, (s.apply now operation).story block = s.story block ++ milestones ∧
        ∀ milestone ∈ milestones, milestone = .downloaded := by
  obtain ⟨before, inBefore, givenUp⟩ := gaveUp
  obtain ⟨milestones, passage⟩ := passes_apply staged now operation
  obtain ⟨after, inAfter, told, allowed⟩ := passage.course block before inBefore
  have change := Change.of_rule allowed
  refine ⟨⟨after, inAfter, change.isGivenUp givenUp undemanded⟩, published (milestones block), told,
    fun milestone passed => ?_⟩
  exact change.eq_downloaded_of_mem givenUp (List.mem_of_mem_filter passed)

/-- A block that was given up and is not in flight is either cancelled or there. -/
theorem GaveUp.xor_of_not_isInFlight (gaveUp : s.GaveUp block)
    (landed : s.isInFlight block = false) : Xor (block ∈ s.cancelled) (block ∈ s.downloaded) := by
  obtain ⟨stage, inStage, givenUp⟩ := gaveUp
  rw [inStage.isInFlight] at landed
  rw [← Std.ExtTreeSet.contains_iff_mem, ← Std.ExtTreeSet.contains_iff_mem,
    inStage.contains_cancelled, inStage.contains_downloaded]
  cases stage with
  | underway => simp [Stage.isUnderway] at landed
  | cancelled => simp [Stage.standing, Xor]
  | downloaded => simp [Stage.standing, Xor]
  | _ => simp [Stage.isGivenUp] at givenUp

theorem GaveUp.story_run (gaveUp : s.GaveUp block) (staged : s.Staged)
    {history : List (Timestamp × Operation)}
    (undemanded : ∀ timed ∈ history, timed.2.demands block = false) :
    ∃ milestones, (s.run history).story block = s.story block ++ milestones ∧
      ∀ milestone ∈ milestones, milestone = .downloaded := by
  induction history generalizing s with
  | nil => exact ⟨[], (List.append_nil _).symm, fun _ none => nomatch none⟩
  | cons timed rest ih =>
    obtain ⟨first, others⟩ := List.forall_mem_cons.mp undemanded
    obtain ⟨still, early, told, delivered⟩ := gaveUp.apply staged timed.1 first
    obtain ⟨late, toldLater, deliveredLater⟩ :=
      ih still ((passes_apply staged timed.1 timed.2).staged staged) others
    refine ⟨early ++ late, ?_, fun milestone passed => ?_⟩
    · rw [← List.append_assoc, ← told]
      exact toldLater
    · exact (List.mem_append.mp passed).elim (delivered milestone) (deliveredLater milestone)

theorem GaveUp.of_mem_steps (gaveUp : s.GaveUp block) (staged : s.Staged)
    {history : List (Timestamp × Operation)}
    (undemanded : ∀ timed ∈ history, timed.2.demands block = false) {step : Step}
    (taken : step ∈ s.steps history) : step.after.GaveUp block := by
  induction history generalizing s with
  | nil => exact nomatch taken
  | cons timed rest ih =>
    obtain ⟨first, others⟩ := List.forall_mem_cons.mp undemanded
    obtain ⟨still, _⟩ := gaveUp.apply staged timed.1 first
    rcases List.mem_cons.mp taken with rfl | later
    · exact still
    · exact ih still ((passes_apply staged timed.1 timed.2).staged staged) others later

/-- Once a block is cancelled, and until a request names it again, no peer is asked for it and it is
not reported as discarded; and the step that ends an attempt on it leaves it either cancelled or
downloaded. The outbox is emptied after the cancellation, so that it shows what follows. -/
theorem Reachable.cancel_final (h : s.Reachable) (now : Timestamp) {blocks : List BlockHash}
    (named : block ∈ blocks) {history : List (Timestamp × Operation)}
    (undemanded : ∀ timed ∈ history, timed.2.demands block = false) :
    (∀ event ∈ ((s.apply now (.cancel blocks)).drained.run history).events,
      (∀ peer, event ≠ .blockRequested peer block) ∧
        ∀ reason, event ≠ .blockDiscarded block reason) ∧
    ∀ step ∈ (s.apply now (.cancel blocks)).drained.steps history,
      step.before.isInFlight block = true → step.after.isInFlight block = false →
        Xor (block ∈ step.after.cancelled) (block ∈ step.after.downloaded) := by
  have staged : (s.apply now (.cancel blocks)).drained.Staged :=
    (h.applied now (.cancel blocks)).drained.staged
  have gaveUp : (s.apply now (.cancel blocks)).drained.GaveUp block :=
    h.staged.gaveUp_cancel named now
  refine ⟨fun event said => ?_, fun step taken _ landed => ?_⟩
  · obtain ⟨milestones, told, delivered⟩ := gaveUp.story_run staged undemanded
    have passed : ∀ milestone, event.milestone? block = some milestone →
        milestone = .downloaded := by
      intro milestone announces
      have mentioned :
          milestone ∈ ((s.apply now (.cancel blocks)).drained.run history).story block :=
        List.mem_filterMap.mpr ⟨event, said, announces⟩
      rw [told] at mentioned
      exact delivered milestone mentioned
    constructor
    · rintro peer rfl
      exact nomatch passed (.requested peer) (if_pos rfl)
    · rintro reason rfl
      exact nomatch passed .discarded (if_pos rfl)
  · exact (gaveUp.of_mem_steps staged undemanded taken).xor_of_not_isInFlight landed

/-- The peer that was sending a cancelled block disconnects. -/
def departure : List (Timestamp × Operation) :=
  [(⟨3⟩, .hear (.peerDisconnected soleSender "gone")), (⟨4⟩, .tick), (⟨9_000⟩, .tick)]

theorem cancel_final_departure :
    sending.Reachable ∧ BlockHash.zero ∈ [BlockHash.zero] ∧
      (∀ timed ∈ departure, timed.2.demands .zero = false) ∧
      ∀ event ∈ ((sending.apply ⟨3⟩ (.cancel [.zero])).drained.run departure).events,
        ∀ peer, event ≠ .blockRequested peer .zero := by
  have named : BlockHash.zero ∈ [BlockHash.zero] := List.mem_singleton_self _
  have undemanded : ∀ timed ∈ departure, timed.2.demands .zero = false := by
    simp [departure, Operation.demands]
  refine ⟨reachable_sending, named, undemanded, fun event said => ?_⟩
  exact ((reachable_sending.cancel_final ⟨3⟩ named undemanded).1 event said).1

end Scheduler
end BlockFetch
