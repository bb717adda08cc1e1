import BlockFetch.Proofs.Lifecycle.Requests

/-!
# The end of the session

All attempts end with the session. First the blocks in flight are gone through, then all peers are
forgotten at once, so no single step of this is the passage of a block from stage to stage.
-/
namespace BlockFetch

def SessionEnd : Rule := fun _ before milestones after =>
  milestones = [] ∧ after = before.atSessionEnd

namespace Scheduler

theorem mem_inFlight {s : Scheduler} {block : BlockHash} :
    block ∈ s.inFlight ↔ s.isInFlight block = true := by
  have transfers : block ∈ s.transfers.map Transfer.block ↔ s.isHeld block = true := by
    simp only [transfers, isHeld, Peer.block?, List.mem_map, List.mem_filterMap, List.any_eq_true,
      decide_eq_true_eq, Option.map_eq_some_iff]
    constructor
    · rintro ⟨transfer, ⟨entry, member, sends⟩, rfl⟩
      exact ⟨entry, member, transfer, sends, rfl⟩
    · rintro ⟨entry, member, transfer, sends, rfl⟩
      exact ⟨transfer, ⟨entry, member, sends⟩, rfl⟩
  rw [inFlight, Std.ExtTreeSet.mem_toList, Std.ExtTreeSet.mem_insertMany_list,
    List.contains_iff_mem, transfers]
  simp [isInFlight, or_comm]

theorem nodup_inFlight (s : Scheduler) : s.inFlight.Nodup :=
  BlockSet.nodup_toList _

theorem moves_eraseActivity {s : Scheduler} {block : BlockHash} {before : Standing}
    (h : s.standing block = before) :
    Moves s { s with lastActivity := s.lastActivity.erase block } block []
      { before with watched := false } := by
  refine .of_outbox_eq rfl rfl rfl rfl ?_ fun other different => ?_
  · rw [← h]
    simp [standing, blockAt?]
  · simp [standing, blockAt?, Std.ExtTreeMap.contains_erase, different]

/-- What the end of its attempt says about a block before the peers are forgotten. -/
def abandoned (before : Standing) : Standing :=
  if before.cancelling then
    { before with
      waiting := before.waiting - 1
      discardedAt? := none
      cancelling := false
      cancelled := true
      watched := false
      attempts? := none }
  else { before with watched := false }

theorem moves_abandon (s : Scheduler) (block : BlockHash) (now : Timestamp) :
    Moves s (abandon now s block) block [] (abandoned (s.standing block)) := by
  have silenced : Moves s _ block [] _ := moves_eraseActivity rfl
  unfold abandon abandoned
  change Moves s (if (s.standing block).cancelling = true then _ else _) block [] _
  by_cases doomed : (s.standing block).cancelling = true
  · have spared := silenced.trans (moves_eraseCancelling silenced.standing)
    have cancelled := spared.trans (moves_markCancelled now spared.standing)
    rw [if_pos doomed, if_pos doomed]
    exact cancelled
  · rw [if_neg doomed, if_neg doomed]
    exact silenced

/-- Of the scheduler the end of attempts changes some books only. -/
theorem abandon_eq (s : Scheduler) (block : BlockHash) (now : Timestamp) :
    ∃ backlog discarded cancelling cancelled lastActivity journal,
      abandon now s block =
        { s with backlog, discarded, cancelling, cancelled, lastActivity, journal } := by
  unfold abandon
  extract_lets silent
  split
  · exact ⟨_, _, _, _, _, _, rfl⟩
  · exact ⟨s.backlog, s.discarded, s.cancelling, s.cancelled, _, s.journal, rfl⟩

theorem foldl_abandon_eq (blocks : List BlockHash) (now : Timestamp) (s : Scheduler) :
    ∃ backlog discarded cancelling cancelled lastActivity journal,
      blocks.foldl (abandon now) s =
        { s with backlog, discarded, cancelling, cancelled, lastActivity, journal } := by
  induction blocks generalizing s with
  | nil => exact ⟨_, _, _, _, _, _, rfl⟩
  | cons first rest ih =>
    obtain ⟨backlog, discarded, cancelling, cancelled, lastActivity, journal, shape⟩ :=
      ih (abandon now s first)
    obtain ⟨_, _, _, _, _, _, step⟩ := abandon_eq s first now
    refine ⟨backlog, discarded, cancelling, cancelled, lastActivity, journal, ?_⟩
    rw [List.foldl_cons, shape, step]

theorem standing_foldl_abandon {blocks : List BlockHash} (distinct : blocks.Nodup)
    (now : Timestamp) (s : Scheduler) (block : BlockHash) :
    (blocks.foldl (abandon now) s).standing block =
      if block ∈ blocks then abandoned (s.standing block) else s.standing block := by
  induction blocks generalizing s with
  | nil => simp
  | cons first rest ih =>
    have moves := moves_abandon s first now
    obtain ⟨absent, distinct⟩ := List.nodup_cons.mp distinct
    rw [List.foldl_cons, ih distinct]
    by_cases here : first = block
    · subst here
      rw [if_neg absent, if_pos List.mem_cons_self, moves.standing]
    · rw [(moves.keeps block here).standing]
      simp [Ne.symm here]

theorem standing_endSession {s : Scheduler} (staged : s.Staged) (now : Timestamp)
    (block : BlockHash) :
    (s.endSession now).standing block =
      let after := if s.isInFlight block then abandoned (s.standing block) else s.standing block
      { after with
        waiting := if (s.isInFlight block ∧ after.cancelled = false) ∨ after.waiting ≠ 0 then 1
          else 0
        heldBy := fun _ => False
        inLimbo := false } := by
  have told := standing_foldl_abandon s.nodup_inFlight now s
  obtain ⟨ended, shape⟩ : ∃ ended, s.inFlight.foldl (abandon now) s = ended := ⟨_, rfl⟩
  simp only [mem_inFlight, shape] at told
  -- No block waits twice before the blocks in flight are added, as counts can only have gone down.
  have distinct : ended.backlog.queue.Nodup := by
    rw [List.nodup_iff_count]
    intro other
    have once := List.nodup_iff_count.mp staged.nodup_queue other
    have step : ended.backlog.queue.count other ≤ s.backlog.queue.count other := by
      change (ended.standing other).waiting ≤ (s.standing other).waiting
      rw [told, abandoned]
      split
      · split
        · exact Nat.sub_le ..
        · exact Nat.le_refl _
      · exact Nat.le_refl _
    omega
  extract_lets after
  have same : ended.standing block = after := told block
  have waits : block ∈ ended.backlog.queue ↔ after.waiting ≠ 0 := by
    rw [← same]
    exact List.one_le_count_iff.symm.trans Nat.one_le_iff_ne_zero
  have counted := Backlog.count_queue_add distinct
    (s.inFlight.filter fun block => !ended.cancelled.contains block) true block
  have named : block ∈ (s.inFlight.filter fun block => !ended.cancelled.contains block) ↔
      s.isInFlight block = true ∧ after.cancelled = false := by
    rw [List.mem_filter, mem_inFlight, Bool.not_eq_true', ← same]
    rfl
  simp only [named, waits] at counted
  rw [← counted, ← same]
  simp [standing, endSession, blockAt?, shape, Backlog.add, Backlog.prepend]

theorem inStage_endSession {s : Scheduler} (staged : s.Staged) (now : Timestamp)
    {block : BlockHash} {stage : Stage} (h : s.InStage block stage) :
    (s.endSession now).InStage block stage.atSessionEnd := by
  have told := standing_endSession staged now block
  rw [h.isInFlight, h] at told
  refine told.trans ?_
  cases stage with
  | underway custody attempts cancelling =>
    cases cancelling <;>
      simp [Stage.atSessionEnd, Stage.isUnderway, Stage.standing, abandoned]
  | _ => simp [Stage.atSessionEnd, Stage.isUnderway, Stage.standing]

theorem passes_endSession {s : Scheduler} (staged : s.Staged) (now : Timestamp) :
    Passes SessionEnd s (s.endSession now) := by
  obtain ⟨_, _, _, _, _, _, shape⟩ := foldl_abandon_eq s.inFlight now s
  have forgotten : KeepsLinks s (s.endSession now) := fun _ peer record found => by
    simp [endSession] at found
  refine passes_of_outbox_eq forgotten ?_ ?_ ?_ fun block stage h =>
    ⟨stage.atSessionEnd, inStage_endSession staged now h, rfl, rfl⟩ <;>
  · unfold endSession
    simp only [shape]

end Scheduler
end BlockFetch
