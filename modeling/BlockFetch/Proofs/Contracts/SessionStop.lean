import BlockFetch.Proofs.Dossier
import BlockFetch.Proofs.Lifecycle.QueueOrder
import BlockFetch.Proofs.Workload.SideTables

/-!
# The stop of a session

All peers are gone when a session stops, and so is all that concerned their attempts. The blocks
of these attempts wait again before all others, in ascending order, but for those that the client
had asked to cancel. What is known about a block outlives the session.
-/
namespace BlockFetch

namespace Backlog

/-- Blocks that do not wait yet are put before the queue in their order. -/
theorem foldr_pushFront_eq {blocks queue : List BlockHash} (distinct : blocks.Nodup)
    (new : ∀ block ∈ blocks, block ∉ queue) : blocks.foldr pushFront queue = blocks ++ queue := by
  have all : ∀ block ∈ blocks, decide (block ∉ queue) = true := by simpa using new
  rw [foldr_pushFront, distinct.dedup, List.filter_eq_self.mpr all]

end Backlog

namespace Scheduler

/-- A step ended the session, and did nothing else. -/
structure StopsSession (s t : Scheduler) : Prop where
  peers : t.peers = ∅
  limbo : t.limbo = ∅
  cancelling : t.cancelling = ∅
  lastActivity : t.lastActivity = ∅
  partials : t.partials = ∅
  refusals : t.refusals = ∅
  settled : ∀ block, s.IsAt block .inFlight →
    t.IsAt block (if block ∈ s.cancelling then .cancelled else .backlog)
  queue : ∃ requeued, t.backlog.queue = requeued ++ s.backlog.queue ∧
    requeued.Pairwise (fun first second => compare first second = .lt) ∧
    ∀ block, block ∈ requeued ↔ s.IsAt block .inFlight ∧ block ∉ s.cancelling
  cancelled : ∀ block, block ∈ t.cancelled ↔ block ∈ s.cancelled ∨ block ∈ s.cancelling
  discarded : t.discarded = s.discarded
  downloaded : t.downloaded = s.downloaded
  /-- Only what concerned its attempt is dropped of a block that is not cancelled. -/
  kept : ∀ block, block ∉ s.cancelling → t.dossier block = (s.dossier block).ended
  outbox : t.outbox = s.outbox

variable {s : Scheduler} {block : BlockHash} {now : Timestamp} {stage : Stage}

/-! ## Blocks in flight -/

theorem queue_foldl_abandon {blocks : List BlockHash} (away : ∀ block ∈ blocks,
    block ∉ s.backlog.queue) (now : Timestamp) :
    (blocks.foldl (abandon now) s).backlog.queue = s.backlog.queue := by
  induction blocks generalizing s with
  | nil => rfl
  | cons first rest ih =>
    have step : (abandon now s first).backlog.queue = s.backlog.queue := by
      unfold abandon
      extract_lets silent
      split
      · exact List.erase_of_not_mem (away first List.mem_cons_self)
      · rfl
    have later : ∀ block ∈ rest, block ∉ (abandon now s first).backlog.queue :=
      fun block member => step.symm ▸ away block (List.mem_cons_of_mem first member)
    rw [List.foldl_cons, ih later, step]

/-- What is known about a block that is not to be cancelled stays, apart from its attempt. -/
theorem ended_abandon (first : BlockHash) (wanted : (s.dossier block).cancelling = false)
    (now : Timestamp) : ((abandon now s first).dossier block).ended = (s.dossier block).ended := by
  have silenced := revises_eraseActivity s first
  unfold abandon
  extract_lets silent
  by_cases here : first = block
  · subst here
    have unmarked : ¬ silent.cancelling.contains first = true := Bool.not_eq_true _ ▸ wanted
    rw [if_neg unmarked, silenced first, if_pos rfl]
    rfl
  · split
    · have spared := silenced.trans (revises_eraseCancelling silent first)
      rw [(spared.trans (revises_markCancelled _ first now)).of_ne here]
    · rw [silenced.of_ne here]

theorem ended_foldl_abandon (blocks : List BlockHash)
    (wanted : (s.dossier block).cancelling = false) (now : Timestamp) :
    ((blocks.foldl (abandon now) s).dossier block).ended = (s.dossier block).ended := by
  induction blocks generalizing s with
  | nil => rfl
  | cons first rest ih =>
    have step := ended_abandon first wanted now
    have still : ((abandon now s first).dossier block).cancelling = false :=
      (congrArg Dossier.cancelling step).trans wanted
    rw [List.foldl_cons, ih still, step]

/-- Of the blocks in flight those are cancelled that the client had asked to cancel. -/
theorem Staged.contains_cancelled_foldl_abandon (staged : s.Staged) (flies : block ∈ s.inFlight)
    (now : Timestamp) :
    (s.inFlight.foldl (abandon now) s).cancelled.contains block = s.cancelling.contains block := by
  obtain ⟨stage, inStage⟩ := staged.stage block
  have told := congrArg Standing.cancelled (standing_foldl_abandon s.nodup_inFlight now s block)
  rw [if_pos flies, inStage] at told
  rw [inStage.contains_cancelling]
  rw [mem_inFlight, inStage.isInFlight] at flies
  cases stage with
  | underway custody attempts cancelling =>
    refine told.trans ?_
    cases cancelling <;> rfl
  | _ => exact nomatch flies

theorem Staged.queue_endSession (staged : s.Staged) (now : Timestamp) :
    (s.endSession now).backlog.queue =
      (s.inFlight.filter fun block => !s.cancelling.contains block) ++ s.backlog.queue := by
  have away : ∀ block ∈ s.inFlight, block ∉ s.backlog.queue :=
    fun block flies => staged.not_mem_queue_of_isInFlight (mem_inFlight.mp flies)
  have wanted : (s.inFlight.filter fun block =>
        !(s.inFlight.foldl (abandon now) s).cancelled.contains block) =
      s.inFlight.filter fun block => !s.cancelling.contains block :=
    List.filter_congr fun block flies =>
      congrArg (!·) (staged.contains_cancelled_foldl_abandon flies now)
  unfold endSession
  extract_lets blocks ended
  change (blocks.filter _).foldr Backlog.pushFront ended.backlog.queue = _
  rw [queue_foldl_abandon away now, wanted]
  exact Backlog.foldr_pushFront_eq (s.nodup_inFlight.filter _)
    fun block member => away block (List.mem_of_mem_filter member)

/-! ## All blocks -/

theorem Staged.contains_cancelling_endSession (staged : s.Staged) (now : Timestamp)
    (block : BlockHash) : (s.endSession now).cancelling.contains block = false := by
  obtain ⟨stage, inStage⟩ := staged.stage block
  rw [(inStage_endSession staged now inStage).contains_cancelling]
  rcases stage with _ | _ | ⟨_, _, _ | _⟩ | _ | _ | _ <;> rfl

theorem Staged.not_mem_lastActivity_endSession (staged : s.Staged) (now : Timestamp)
    (block : BlockHash) : block ∉ (s.endSession now).lastActivity := by
  obtain ⟨stage, inStage⟩ := staged.stage block
  rw [(inStage_endSession staged now inStage).mem_lastActivity]
  rcases stage with _ | _ | ⟨_, _, _ | _⟩ | _ | _ | _ <;> exact nofun

theorem Staged.isAt_endSession (staged : s.Staged) (flies : s.IsAt block .inFlight)
    (now : Timestamp) :
    (s.endSession now).IsAt block (if block ∈ s.cancelling then .cancelled else .backlog) := by
  obtain ⟨stage, inStage⟩ := staged.stage block
  have doomed : block ∈ s.cancelling ↔ stage.standing.cancelling = true := by
    rw [← Std.ExtTreeSet.contains_iff_mem, inStage.contains_cancelling]
  rw [(inStage_endSession staged now inStage).isAt_iff, if_congr doomed rfl rfl]
  rw [inStage.isAt_iff] at flies
  cases stage with
  | underway custody attempts cancelling => cases cancelling <;> rfl
  | _ => exact nomatch flies

theorem Staged.mem_cancelled_endSession (staged : s.Staged) (now : Timestamp)
    (block : BlockHash) :
    block ∈ (s.endSession now).cancelled ↔ block ∈ s.cancelled ∨ block ∈ s.cancelling := by
  obtain ⟨stage, inStage⟩ := staged.stage block
  simp only [← Std.ExtTreeSet.contains_iff_mem,
    (inStage_endSession staged now inStage).contains_cancelled, inStage.contains_cancelled,
    inStage.contains_cancelling]
  rcases stage with _ | _ | ⟨_, _, _ | _⟩ | _ | _ | _ <;>
    simp [Stage.atSessionEnd, Stage.standing]

theorem Staged.discarded_endSession (staged : s.Staged) (now : Timestamp) :
    (s.endSession now).discarded = s.discarded := by
  refine Std.ExtTreeMap.ext_getElem? fun block => ?_
  obtain ⟨stage, inStage⟩ := staged.stage block
  rw [(inStage_endSession staged now inStage).discarded, inStage.discarded]
  rcases stage with _ | _ | ⟨_, _, _ | _⟩ | _ | _ | _ <;> rfl

theorem Staged.dossier_endSession (staged : s.Staged) (wanted : block ∉ s.cancelling)
    (now : Timestamp) : (s.endSession now).dossier block = (s.dossier block).ended := by
  have unmarked : (s.dossier block).cancelling = false := eq_false_of_ne_true wanted
  have unheard : ((s.endSession now).dossier block).lastActivity? = none :=
    Std.ExtTreeMap.getElem?_eq_none (staged.not_mem_lastActivity_endSession now block)
  have unsettled : (∅ : BlockSet).contains block = false := Std.ExtTreeSet.contains_empty
  have unfinished : (∅ : BlockMap PartialBlock)[block]? = none := Std.ExtTreeMap.getElem?_empty
  calc (s.endSession now).dossier block
      = ((s.endSession now).dossier block).ended :=
        Dossier.ext rfl rfl rfl rfl rfl unsettled rfl rfl rfl rfl unheard unfinished rfl
    _ = ((s.inFlight.foldl (abandon now) s).dossier block).ended := rfl
    _ = (s.dossier block).ended := ended_foldl_abandon s.inFlight unmarked now

/-- In every state that can be reached, the stop of the session ends all attempts and leaves the
rest as it is. -/
theorem Reachable.stops_session (h : s.Reachable) (now : Timestamp) :
    StopsSession s (s.apply now (.hear .sessionStopped)) := by
  have staged := h.staged
  obtain ⟨_, _, _, _, _, _, shape⟩ := foldl_abandon_eq s.inFlight now s
  change StopsSession s (s.endSession now)
  constructor
  case peers => rfl
  case limbo => rfl
  case partials => rfl
  case refusals => rfl
  case cancelling =>
    refine Std.ExtTreeSet.ext_mem fun block => ?_
    rw [← Std.ExtTreeSet.contains_iff_mem, staged.contains_cancelling_endSession now block]
    simp
  case lastActivity =>
    refine Std.ExtTreeMap.ext_getElem? fun block => ?_
    rw [Std.ExtTreeMap.getElem?_eq_none (staged.not_mem_lastActivity_endSession now block),
      Std.ExtTreeMap.getElem?_empty]
  case settled => exact fun block flies => staged.isAt_endSession flies now
  case queue =>
    refine ⟨_, staged.queue_endSession now, ?_, fun block => ?_⟩
    · exact Std.ExtTreeSet.ordered_toList.filter _
    · rw [List.mem_filter, mem_inFlight, isInFlight_iff, Bool.not_eq_true', ← Bool.not_eq_true,
        Std.ExtTreeSet.contains_iff_mem]
      rfl
  case cancelled => exact staged.mem_cancelled_endSession now
  case discarded => exact staged.discarded_endSession now
  case downloaded =>
    unfold endSession
    simp only [shape]
  case kept => exact fun block wanted => staged.dossier_endSession wanted now
  case outbox =>
    unfold endSession
    simp only [shape]

/-- A run that ends while a peer sends the block of ones, and while the block of zeros, which it
lost before, is in limbo and to be cancelled. -/
def halfCancelled : Scheduler :=
  adrift.run
    [(⟨4⟩, .hear (.peerHandshaked soleSender)), (⟨5⟩, .download (.plain [ones])), (⟨6⟩, .tick),
      (⟨7⟩, .cancel [.zero])]

theorem stops_session_halfCancelled :
    halfCancelled.Reachable ∧
      halfCancelled.IsAt .zero .inFlight ∧ BlockHash.zero ∈ halfCancelled.cancelling ∧
      halfCancelled.IsAt ones .inFlight ∧ ones ∉ halfCancelled.cancelling ∧
      (halfCancelled.apply ⟨8⟩ (.hear .sessionStopped)).IsAt .zero .cancelled ∧
      (halfCancelled.apply ⟨8⟩ (.hear .sessionStopped)).IsAt ones .backlog := by
  have reachable : halfCancelled.Reachable := (reachable_sending.applied _ _).run _
  have lost : halfCancelled.IsAt .zero .inFlight := isInFlight_iff.mp (by decide +kernel)
  have doomed : BlockHash.zero ∈ halfCancelled.cancelling := by decide +kernel
  have held : halfCancelled.IsAt ones .inFlight := isInFlight_iff.mp (by decide +kernel)
  have wanted : ones ∉ halfCancelled.cancelling := by decide +kernel
  have settled := (reachable.stops_session ⟨8⟩).settled
  have first := settled .zero lost
  have second := settled ones held
  rw [if_pos doomed] at first
  rw [if_neg wanted] at second
  exact ⟨reachable, lost, doomed, held, wanted, first, second⟩

end Scheduler
end BlockFetch
