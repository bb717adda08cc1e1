import BlockFetch.Proofs.Contracts.FailedAttempt
import BlockFetch.Proofs.Contracts.Request

/-!
# Cancellations

A cancellation is about the set of the blocks that it names. Each of them is called off in a way
that depends on this block alone, and a block that was called off is left as it is when it is
called off again. So neither the order of the names matters nor how often a block is named.
-/
namespace BlockFetch

namespace Dossier

def unrecorded (dossier : Dossier) : Dossier :=
  { dossier with entries? := none }

/-- The client calls the block off, while an attempt on it is under way or while it rests. -/
def calledOff (flies : Bool) (dossier : Dossier) : Dossier :=
  if dossier.cancelled || dossier.downloaded then dossier
  else if flies then { dossier with cancelling := true }
  else dossier.givenUp

theorem calledOff_calledOff (flies : Bool) (dossier : Dossier) :
    (dossier.calledOff flies).calledOff flies = dossier.calledOff flies := by
  by_cases settled : (dossier.cancelled || dossier.downloaded) = true
  · simp [calledOff, settled]
  · cases flies <;> simp [calledOff, settled, givenUp]

theorem unrecorded_calledOff (flies : Bool) (dossier : Dossier) :
    (dossier.calledOff flies).unrecorded = dossier.unrecorded.calledOff flies := by
  by_cases settled : (dossier.cancelled || dossier.downloaded) = true
  · simp [calledOff, settled, unrecorded]
  · cases flies <;> simp [calledOff, settled, unrecorded, givenUp, forgotten]

theorem unrecorded_noted (recording : Bool) (entry : JournalEntry) (dossier : Dossier) :
    (dossier.noted recording entry).unrecorded = dossier.unrecorded := by
  cases recording <;> rfl

theorem eq_of_unrecorded_eq {first second : Dossier} (h : first.unrecorded = second.unrecorded)
    (entries : first.entries? = second.entries?) : first = second := by
  cases first
  cases second
  simp_all [unrecorded]

end Dossier

namespace Scheduler

/-- A step wrote at most in the tables of the blocks at rest, in the wishes to cancel and in the
journal. -/
def Rebooks (s t : Scheduler) : Prop :=
  ∃ backlog discarded cancelling cancelled entries, t =
    { s with backlog, discarded, cancelling, cancelled, journal := { s.journal with entries } }

variable {s t u : Scheduler} {blocks others : List BlockHash} {block : BlockHash}
  {now later : Timestamp}

namespace Rebooks

theorem refl (s : Scheduler) : Rebooks s s := ⟨_, _, _, _, _, rfl⟩

theorem trans (head : Rebooks s t) (tail : Rebooks t u) : Rebooks s u := by
  obtain ⟨_, _, _, _, _, rfl⟩ := head
  obtain ⟨_, _, _, _, _, rfl⟩ := tail
  exact ⟨_, _, _, _, _, rfl⟩

theorem isInFlight (h : Rebooks s t) (block : BlockHash) :
    t.isInFlight block = s.isInFlight block := by
  obtain ⟨_, _, _, _, _, rfl⟩ := h
  rfl

/-- Two such steps lead to the same state, apart from the journal, if they leave the same queue and
keep the same on every block. -/
theorem exists_eq (first : Rebooks s t) (second : Rebooks s u)
    (queue : t.backlog.queue = u.backlog.queue)
    (dossiers : ∀ block, (t.dossier block).unrecorded = (u.dossier block).unrecorded) :
    ∃ entries, t = { u with journal := { s.journal with entries } } := by
  obtain ⟨_, _, _, _, entries, rfl⟩ := first
  obtain ⟨_, _, _, _, _, rfl⟩ := second
  refine ⟨entries, ?_⟩
  refine eq_of_dossier_eq rfl rfl rfl queue ?_ rfl rfl rfl rfl rfl rfl rfl rfl rfl rfl
  intro block
  exact Dossier.eq_of_unrecorded_eq (dossiers block) rfl

end Rebooks

/-! ## One block -/

theorem rebooks_cancelBlock (now : Timestamp) (s : Scheduler) (block : BlockHash) :
    Rebooks s (cancelBlock now s block) := by
  unfold cancelBlock
  split
  · exact .refl s
  · split
    · obtain ⟨entries, shape, -⟩ := s.journal.register_eq block none .cancelAsked now
      rw [note, shape]
      exact ⟨_, _, _, _, _, rfl⟩
    · obtain ⟨entries, shape, -⟩ := s.journal.register_eq block none .cancelled now
      rw [markCancelled, note, shape]
      exact ⟨_, _, _, _, _, rfl⟩

/-- A block that is not named, or that nobody wants any more, is left alone. -/
theorem dossier_cancelBlock {first : BlockHash}
    (spared : first = block → s.isUnwanted block = true) (now : Timestamp) :
    (cancelBlock now s first).dossier block = s.dossier block := by
  unfold cancelBlock
  split
  · rfl
  · rename_i wanted
    have different : first ≠ block := by
      rintro rfl
      exact wanted (spared rfl)
    split
    · have doomed := revises_insertCancelling s first
      exact (doomed.trans (revises_note _ first now none .cancelAsked)).of_ne different
    · exact (revises_markCancelled s first now).of_ne different

theorem unrecorded_cancelBlock_self (now : Timestamp) (s : Scheduler) (block : BlockHash) :
    ((cancelBlock now s block).dossier block).unrecorded =
      (s.dossier block).unrecorded.calledOff (s.isInFlight block) := by
  rw [← Dossier.unrecorded_calledOff, Dossier.calledOff, ← isUnwanted_eq_dossier]
  unfold cancelBlock
  split
  · rfl
  · split
    · have doomed := revises_insertCancelling s block
      have noted := doomed.trans (revises_note _ block now none .cancelAsked)
      rw [noted block, if_pos rfl]
      exact Dossier.unrecorded_noted _ _ _
    · rw [revises_markCancelled s block now block, if_pos rfl]
      exact Dossier.unrecorded_noted _ _ _

/-- A block that is called off does not wait any longer. -/
theorem Staged.queue_cancelBlock (staged : s.Staged) (now : Timestamp) (block : BlockHash) :
    (cancelBlock now s block).backlog.queue = s.backlog.queue.erase block := by
  obtain ⟨stage, inStage⟩ := staged.stage block
  have unqueued : stage.isWaiting = false → s.backlog.queue.erase block = s.backlog.queue := by
    intro away
    refine List.erase_of_not_mem fun queued => ?_
    rw [inStage.mem_queue, away] at queued
    exact nomatch queued
  unfold cancelBlock
  split
  · rename_i unwanted
    rcases (isUnwanted_eq inStage).mp unwanted with rfl | rfl <;> exact (unqueued rfl).symm
  · split
    · rename_i flies
      rw [inStage.isInFlight] at flies
      refine (unqueued ?_).symm
      cases stage <;> simp_all [Stage.isUnderway, Stage.isWaiting]
    · rfl

/-! ## All blocks -/

theorem rebooks_cancel (s : Scheduler) (blocks : List BlockHash) (now : Timestamp) :
    Rebooks s (s.cancel blocks now) := by
  unfold cancel
  induction blocks generalizing s with
  | nil => exact .refl s
  | cons first rest ih => exact (rebooks_cancelBlock now s first).trans (ih _)

theorem dossier_cancel (spared : block ∈ blocks → s.isUnwanted block = true) (now : Timestamp) :
    (s.cancel blocks now).dossier block = s.dossier block := by
  unfold cancel
  induction blocks generalizing s with
  | nil => rfl
  | cons first rest ih =>
    have step : (cancelBlock now s first).dossier block = s.dossier block := by
      refine dossier_cancelBlock (fun here => spared ?_) now
      simp [here]
    have still : block ∈ rest → (cancelBlock now s first).isUnwanted block = true := by
      intro named
      rw [isUnwanted_eq_dossier, step, ← isUnwanted_eq_dossier]
      exact spared (List.mem_cons_of_mem first named)
    rw [List.foldl_cons, ih still, step]

theorem unrecorded_cancel (s : Scheduler) (blocks : List BlockHash) (now : Timestamp)
    (block : BlockHash) :
    ((s.cancel blocks now).dossier block).unrecorded =
      if block ∈ blocks then (s.dossier block).unrecorded.calledOff (s.isInFlight block)
      else (s.dossier block).unrecorded := by
  unfold cancel
  induction blocks generalizing s with
  | nil => simp
  | cons first rest ih =>
    rw [List.foldl_cons, ih, (rebooks_cancelBlock now s first).isInFlight]
    by_cases here : first = block
    · -- If the block is named again, it is called off a second time.
      subst here
      simp [unrecorded_cancelBlock_self, Dossier.calledOff_calledOff]
    · have step := dossier_cancelBlock (fun same => absurd same here) now (s := s)
      simp [step, Ne.symm here]

theorem Staged.queue_cancel (staged : s.Staged) (blocks : List BlockHash) (now : Timestamp) :
    (s.cancel blocks now).backlog.queue = s.backlog.queue.filter (· ∉ blocks) := by
  unfold cancel
  induction blocks generalizing s with
  | nil => simp
  | cons first rest ih =>
    have next := (passes_cancelBlock staged now first).staged staged
    rw [List.foldl_cons, ih next, staged.queue_cancelBlock, staged.nodup_queue.erase_eq_filter,
      List.filter_filter]
    refine List.filter_congr fun block _ => ?_
    by_cases here : block = first <;> simp [here]

/-- Cancellations of the same blocks differ in the journal alone. -/
theorem Staged.exists_cancel_eq (staged : s.Staged)
    (same : ∀ block, block ∈ others ↔ block ∈ blocks) (now later : Timestamp) :
    ∃ entries, s.cancel others later =
      { s.cancel blocks now with journal := { s.journal with entries } } := by
  refine (rebooks_cancel s others later).exists_eq (rebooks_cancel s blocks now) ?_ ?_
  · simp only [staged.queue_cancel, same]
  · intro block
    simp only [unrecorded_cancel, same]

/-- A cancellation that is repeated writes in the journal alone. -/
theorem Staged.exists_cancel_cancel_eq (staged : s.Staged) (blocks : List BlockHash)
    (now later : Timestamp) :
    ∃ entries, (s.cancel blocks now).cancel blocks later =
      { s.cancel blocks now with journal := { s.journal with entries } } := by
  have once := rebooks_cancel s blocks now
  have next := (passes_cancel staged blocks now).staged staged
  refine (once.trans (rebooks_cancel _ blocks later)).exists_eq once ?_ ?_
  · rw [next.queue_cancel, staged.queue_cancel, List.filter_filter]
    simp
  · intro block
    simp only [unrecorded_cancel, once.isInFlight]
    split
    · exact Dossier.calledOff_calledOff _ _
    · rfl

/-! ## What a cancellation leaves behind -/

/-- A step called some blocks off, and did nothing else. -/
structure CallsOff (s t : Scheduler) (blocks : List BlockHash) : Prop where
  /-- A block whose attempt is under way is cancelled when the attempt ends. -/
  deferred : ∀ block ∈ blocks, s.IsAt block .inFlight →
    t.IsAt block .inFlight ∧ block ∈ t.cancelling
  settled : ∀ block ∈ blocks, block ∉ s.downloaded → ¬ s.IsAt block .inFlight →
    block ∈ t.cancelled ∧ block ∉ t.backlog.queue ∧ block ∉ t.discarded
  forgotten : ∀ block ∈ blocks, block ∉ s.downloaded → ¬ s.IsAt block .inFlight →
    block ∉ s.cancelled → t.backlog.KnowsNothing block
  /-- A block that is not named, or that is there or cancelled already, is left alone. -/
  spared : ∀ block, (block ∈ blocks → block ∈ s.downloaded ∨ block ∈ s.cancelled) →
    t.dossier block = s.dossier block
  queue : t.backlog.queue = s.backlog.queue.filter (· ∉ blocks)
  peers : t.peers = s.peers
  outbox : t.outbox = s.outbox
  rebooks : Rebooks s t

theorem Staged.callsOff_cancel (staged : s.Staged) (blocks : List BlockHash) (now : Timestamp) :
    CallsOff s (s.cancel blocks now) blocks := by
  have rebooks := rebooks_cancel s blocks now
  have queue := staged.queue_cancel blocks now
  have unqueued : ∀ block ∈ blocks, block ∉ (s.cancel blocks now).backlog.queue := by
    intro block named
    simp [queue, named]
  obtain ⟨milestones, passage⟩ := passes_cancel staged blocks now
  constructor
  case deferred =>
    intro block named flies
    obtain ⟨before, inBefore⟩ := staged.stage block
    obtain ⟨after, inAfter, _, ⟨_, cancellation⟩ | ⟨unnamed, _⟩⟩ :=
      passage.course block before inBefore
    · rw [inBefore.isAt_iff] at flies
      rw [inAfter.isAt_iff, ← Std.ExtTreeSet.contains_iff_mem, inAfter.contains_cancelling]
      generalize milestones block = passed at cancellation
      cases cancellation with
      | deferred => exact ⟨rfl, rfl⟩
      | cancelled rests => cases before <;> simp_all [Stage.place?, Stage.isUnderway]
      | late => cases flies
    · exact absurd named unnamed
  case settled =>
    intro block named missing rests
    obtain ⟨before, inBefore⟩ := staged.stage block
    obtain ⟨after, inAfter, _, ⟨_, cancellation⟩ | ⟨unnamed, _⟩⟩ :=
      passage.course block before inBefore
    · have cancelled : after = .cancelled := by
        rw [inBefore.isAt_iff] at rests
        generalize milestones block = passed at cancellation
        cases cancellation with
        | deferred => exact absurd rfl rests
        | cancelled => rfl
        | late =>
          have arrived : s.IsAt block .downloaded := inBefore.isAt_iff.mpr rfl
          exact absurd arrived missing
      subst cancelled
      have only : ∀ place, IsAt _ block place ↔ some .cancelled = some place :=
        fun _ => inAfter.isAt_iff
      refine ⟨(only .cancelled).mpr rfl, unqueued block named, fun aside => ?_⟩
      cases (only .discarded).mp aside
    · exact absurd named unnamed
  case forgotten =>
    intro block named missing rests wanted
    have kept := unrecorded_cancel s blocks now block
    have resting : s.isInFlight block = false := by
      rwa [← Bool.not_eq_true, isInFlight_iff]
    have unsettled : ¬ s.isUnwanted block = true := by
      simp [isUnwanted, wanted, missing]
    have due : ((s.dossier block).unrecorded.cancelled ||
        (s.dossier block).unrecorded.downloaded) = false := eq_false_of_ne_true unsettled
    rw [if_pos named, Dossier.calledOff, due, resting] at kept
    exact ⟨unqueued block named, congrArg Dossier.announcers? kept,
      congrArg Dossier.reservedFor? kept, congrArg Dossier.preferred? kept,
      congrArg Dossier.failures? kept, congrArg Dossier.attempts? kept⟩
  case spared =>
    intro block spared
    refine dossier_cancel (fun named => ?_) now
    simpa [isUnwanted, or_comm] using spared named
  case queue => exact queue
  case peers =>
    obtain ⟨_, _, _, _, _, shape⟩ := rebooks
    rw [shape]
  case outbox =>
    obtain ⟨_, _, _, _, _, shape⟩ := rebooks
    rw [shape]
  case rebooks => exact rebooks

/-- In every state that can be reached, a cancellation calls off the blocks that it names and does
nothing else. Every cancellation that names the same blocks leads to the same state, apart from the
journal, and so does a repetition. -/
theorem Reachable.calls_off (h : s.Reachable) (blocks : List BlockHash) (now : Timestamp) :
    CallsOff s (s.apply now (.cancel blocks)) blocks ∧
    (∀ others later, (∀ block, block ∈ others ↔ block ∈ blocks) →
      ∃ entries, s.apply later (.cancel others) =
        { s.apply now (.cancel blocks) with journal := { s.journal with entries } }) ∧
    ∀ later, ∃ entries, (s.apply now (.cancel blocks)).apply later (.cancel blocks) =
      { s.apply now (.cancel blocks) with journal := { s.journal with entries } } := by
  refine ⟨h.staged.callsOff_cancel blocks now, ?_, ?_⟩
  · intro others later same
    exact h.staged.exists_cancel_eq same now later
  · intro later
    exact h.staged.exists_cancel_cancel_eq blocks now later

/-- A run that ends while a peer sends the block of zeros and the block of ones waits. -/
def halfway : Scheduler :=
  sending.apply ⟨3⟩ (.download (.plain [ones]))

theorem calls_off_halfway :
    halfway.Reachable ∧ halfway.IsAt .zero .inFlight ∧ ¬ halfway.IsAt ones .inFlight ∧
      BlockHash.zero ∈ (halfway.apply ⟨4⟩ (.cancel [ones, .zero, ones])).cancelling ∧
      (halfway.apply ⟨4⟩ (.cancel [ones, .zero, ones])).backlog.KnowsNothing ones ∧
      ∃ entries, halfway.apply ⟨5⟩ (.cancel [.zero, ones]) =
        { halfway.apply ⟨4⟩ (.cancel [ones, .zero, ones]) with
          journal := { halfway.journal with entries } } := by
  have reachable : halfway.Reachable := reachable_sending.applied _ _
  have flies : halfway.IsAt .zero .inFlight := isInFlight_iff.mp (by decide +kernel)
  have rests : ¬ halfway.IsAt ones .inFlight := by
    rw [IsAt, ← isInFlight_iff]
    decide +kernel
  have missing : ones ∉ halfway.downloaded := by decide +kernel
  have wanted : ones ∉ halfway.cancelled := by decide +kernel
  obtain ⟨callsOff, regardless, -⟩ := reachable.calls_off [ones, .zero, ones] ⟨4⟩
  refine ⟨reachable, flies, rests, (callsOff.deferred .zero (by simp) flies).2,
    callsOff.forgotten ones (by simp) missing rests wanted, ?_⟩
  refine regardless [.zero, ones] ⟨5⟩ fun block => ?_
  simp only [List.mem_cons, List.not_mem_nil]
  tauto

end Scheduler
end BlockFetch
