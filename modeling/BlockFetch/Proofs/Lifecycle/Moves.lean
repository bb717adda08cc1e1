import BlockFetch.Proofs.Lifecycle.SmallSteps

/-!
# Moves of one block

Most steps are about one block. A move says where the block ends up and which milestones it
passes, and that all other blocks are left alone. The moves below are the pieces from which the
resolution of attempts and the handing out of blocks are put together.
-/
namespace BlockFetch

def published (milestones : List Milestone) : List Milestone :=
  milestones.filter fun milestone => milestone ≠ .requeued

@[simp] theorem published_append (first second : List Milestone) :
    published (first ++ second) = published first ++ published second :=
  List.filter_append ..

namespace Scheduler

/-- A step brought one block to a standing, past some milestones, and left all others alone. -/
structure Moves (s t : Scheduler) (block : BlockHash) (milestones : List Milestone)
    (standing : Standing) : Prop where
  standing : t.standing block = standing
  story : t.story block = s.story block ++ published milestones
  keeps : ∀ other, block ≠ other → Keeps s t other
  links : KeepsLinks s t
  settings : t.settings = s.settings
  retries : t.retries = s.retries + milestones.count .requeued

section

variable {s t u : Scheduler} {block : BlockHash} {before after : Standing}

theorem Moves.trans {first second : List Milestone} (head : Moves s t block first before)
    (tail : Moves t u block second after) : Moves s u block (first ++ second) after where
  standing := tail.standing
  story := by rw [tail.story, head.story, published_append, List.append_assoc]
  keeps other h := (head.keeps other h).trans (tail.keeps other h)
  links := head.links.trans tail.links
  settings := tail.settings.trans head.settings
  retries := by rw [tail.retries, head.retries, List.count_append, Nat.add_assoc]

/-- A step that says nothing is a move if it changes what is said about one block only. -/
theorem Moves.of_outbox_eq (peers : t.peers = s.peers) (settings : t.settings = s.settings)
    (retries : t.retries = s.retries) (outbox : t.outbox = s.outbox)
    (here : t.standing block = after)
    (elsewhere : ∀ other, block ≠ other → t.standing other = s.standing other) :
    Moves s t block [] after where
  standing := here
  story := (story_congr outbox block).trans (List.append_nil _).symm
  keeps other different := ⟨elsewhere other different, story_congr outbox other⟩
  links := .of_peers_eq peers
  settings := settings
  retries := retries

theorem Quiet.moves (quiet : Quiet s t) (h : s.standing block = before) :
    Moves s t block [] before where
  standing := (quiet.keeps block).standing.trans h
  story := (quiet.story block).trans (List.append_nil _).symm
  keeps other _ := quiet.keeps other
  links := quiet.links
  settings := quiet.settings
  retries := quiet.retries

theorem Moves.trans_quiet {milestones : List Milestone}
    (head : Moves s t block milestones before) (tail : Quiet t u) :
    Moves s u block milestones before := by
  have whole := head.trans (tail.moves head.standing)
  rw [List.append_nil] at whole
  exact whole

theorem SameBooks.moves_of_released (books : SameBooks s t)
    (held : ∀ peer, t.blockAt? peer =
      if s.blockAt? peer = some block then none else s.blockAt? peer)
    (h : s.standing block = before) :
    Moves s t block [] { before with heldBy := fun _ => False } where
  standing := by
    have gone : (fun peer => t.blockAt? peer = some block) = fun _ => False := by
      funext peer
      rw [held]
      split <;> simp_all
    rw [books.standing, h, gone]
  story := (books.story block).trans (List.append_nil _).symm
  keeps other different := books.keeps fun peer => by
    rw [held]
    split
    · rename_i here
      simp [here, different]
    · rfl
  links := books.links
  settings := books.settings
  retries := books.retries

theorem moves_freeHolders (h : s.standing block = before) :
    Moves s (s.freeHolders block) block [] { before with heldBy := fun _ => False } :=
  (sameBooks_freeHolders s block).moves_of_released (blockAt?_freeHolders s block) h

theorem moves_failHolders (now : Timestamp) (h : s.standing block = before) :
    Moves s (s.failHolders block now) block [] { before with heldBy := fun _ => False } :=
  (sameBooks_failHolders s block now).moves_of_released (blockAt?_failHolders s block now) h

/-! ## Tables -/

theorem moves_endAttempt (h : s.standing block = before) :
    Moves s (s.endAttempt block) block [] { before with inLimbo := false, watched := false } := by
  refine .of_outbox_eq rfl rfl rfl rfl ?_ fun other different => ?_
  · rw [← h]
    simp [standing, endAttempt, blockAt?]
  · simp [standing, endAttempt, blockAt?, Std.ExtTreeSet.contains_erase,
      Std.ExtTreeMap.contains_erase, different]

theorem moves_eraseCancelling (h : s.standing block = before) :
    Moves s { s with cancelling := s.cancelling.erase block } block []
      { before with cancelling := false } := by
  refine .of_outbox_eq rfl rfl rfl rfl ?_ fun other different => ?_
  · rw [← h]
    simp [standing, blockAt?]
  · simp [standing, blockAt?, Std.ExtTreeSet.contains_erase, different]

theorem moves_insertCancelling (h : s.standing block = before) :
    Moves s { s with cancelling := s.cancelling.insert block } block []
      { before with cancelling := true } := by
  refine .of_outbox_eq rfl rfl rfl rfl ?_ fun other different => ?_
  · rw [← h]
    simp [standing, blockAt?]
  · simp [standing, blockAt?, Std.ExtTreeSet.contains_insert, different]

theorem moves_markCancelled (now : Timestamp) (h : s.standing block = before) :
    Moves s (s.markCancelled block now) block []
      { before with
        waiting := before.waiting - 1
        discardedAt? := none
        cancelled := true
        attempts? := none } := by
  refine .of_outbox_eq rfl rfl rfl rfl ?_ fun other different => ?_
  · rw [← h]
    simp [standing, markCancelled, note, Backlog.forget, blockAt?]
  · simp [standing, markCancelled, note, Backlog.forget, blockAt?, List.count_erase_of_ne,
      Std.ExtTreeSet.contains_insert, Std.ExtTreeMap.getElem?_erase, different, different.symm]

theorem moves_requeue (now : Timestamp) (h : s.standing block = before)
    (absent : before.waiting = 0) :
    Moves s (s.requeue block now) block [.requeued] { before with waiting := 1 } where
  standing := by
    rw [← h] at absent ⊢
    have away : block ∉ s.backlog.queue := List.count_eq_zero.mp absent
    simp [standing, requeue, note, Backlog.prepend, Backlog.pushFront, blockAt?, away,
      List.count_eq_zero_of_not_mem]
  story := (List.append_nil _).symm
  keeps other different := by
    refine ⟨?_, rfl⟩
    by_cases queued : block ∈ s.backlog.queue <;>
      simp [standing, requeue, note, Backlog.prepend, Backlog.pushFront, blockAt?, queued,
        different]
  links := .of_peers_eq rfl
  settings := rfl
  retries := rfl

theorem moves_discardBlock (now : Timestamp) (h : s.standing block = before) :
    Moves s (s.discardBlock block now) block [.discarded]
      { before with
        waiting := before.waiting - 1
        discardedAt? := some now
        attempts? := none } where
  standing := by
    rw [← h]
    simp [standing, discardBlock, note, publish, Backlog.setAside, blockAt?]
  story := by
    unfold discardBlock
    rw [story_publish]
    simp [NetworkEvent.milestone?, published, story, events, note]
  keeps other different := by
    constructor
    · simp [standing, discardBlock, note, publish, Backlog.setAside, blockAt?,
        List.count_erase_of_ne, Std.ExtTreeMap.getElem?_insert, Std.ExtTreeMap.getElem?_erase,
        different, different.symm]
    · unfold discardBlock
      rw [story_publish]
      simp [NetworkEvent.milestone?, story, events, note, different]
  links := .of_peers_eq rfl
  settings := rfl
  retries := rfl

theorem moves_markDownloaded (h : s.standing block = before) :
    Moves s (s.markDownloaded block) block []
      { before with
        waiting := before.waiting - 1
        inLimbo := false
        discardedAt? := none
        cancelling := false
        downloaded := true
        watched := false
        attempts? := none } := by
  refine .of_outbox_eq rfl rfl rfl rfl ?_ fun other different => ?_
  · rw [← h]
    simp [standing, markDownloaded, endAttempt, Backlog.forget, blockAt?]
  · simp [standing, markDownloaded, endAttempt, Backlog.forget, blockAt?, List.count_erase_of_ne,
      Std.ExtTreeSet.contains_insert, Std.ExtTreeSet.contains_erase, Std.ExtTreeMap.contains_erase,
      Std.ExtTreeMap.getElem?_erase, different, different.symm]

theorem moves_publish_blockDownloaded (peer : PeerAddress) (header : BlockHeader) (size : UInt64)
    (duration : Duration) (h : s.standing header.hash = before) :
    Moves s (s.publish (.blockDownloaded peer header size duration)) header.hash [.downloaded]
      before where
  standing := h
  story := by
    rw [story_publish]
    simp [NetworkEvent.milestone?, published]
  keeps other different := by
    refine ⟨rfl, ?_⟩
    rw [story_publish]
    simp [NetworkEvent.milestone?, different]
  links := .of_peers_eq rfl
  settings := rfl
  retries := rfl

theorem moves_remove (h : s.standing block = before) :
    Moves s { s with backlog := s.backlog.remove block } block []
      { before with waiting := before.waiting - 1 } := by
  refine .of_outbox_eq rfl rfl rfl rfl ?_ fun other different => ?_
  · rw [← h]
    simp [standing, Backlog.remove, blockAt?]
  · simp [standing, Backlog.remove, blockAt?, List.count_erase_of_ne, different.symm]

theorem moves_moveToLimbo (peer : PeerAddress) (stall : Stall) (now : Timestamp)
    (h : s.standing block = before) :
    Moves s (s.moveToLimbo peer block stall now) block []
      { before with inLimbo := true, watched := true } := by
  refine .of_outbox_eq rfl rfl rfl rfl ?_ fun other different => ?_
  · rw [← h]
    simp [standing, moveToLimbo, noteFailure, note, Backlog.noteFailure, blockAt?]
  · simp [standing, moveToLimbo, noteFailure, note, Backlog.noteFailure, blockAt?,
      Std.ExtTreeSet.contains_insert, Std.ExtTreeMap.contains_insert, different]

end

end Scheduler
end BlockFetch
