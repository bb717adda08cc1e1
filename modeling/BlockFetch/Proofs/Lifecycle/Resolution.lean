import BlockFetch.Proofs.Lifecycle.Passage

/-!
# Ends of an attempt

What failure, delivery and cancellation do to the block they are about, by the stage it is in.
-/
namespace BlockFetch

/-- How a failed attempt ends, when blocks are given so many attempts. -/
inductive Failure (limit : Nat) (now : Timestamp) : Rule where
  | cancelled {block custody attempts} :
      Failure limit now block (.underway custody attempts true) [] .cancelled
  | requeued {block custody attempts} (left : attempts < limit) :
      Failure limit now block (.underway custody attempts false) [.requeued]
        (.waiting (some attempts))
  | discarded {block custody attempts} (spent : limit ≤ attempts) :
      Failure limit now block (.underway custody attempts false) [.discarded] (.discarded now)

inductive Delivery : Rule where
  | unwanted {block stage} (settled : stage = .cancelled ∨ stage = .downloaded) :
      Delivery block stage [] stage
  | downloaded {block stage} (uncancelled : stage ≠ .cancelled) (missing : stage ≠ .downloaded) :
      Delivery block stage [.downloaded] .downloaded

namespace Scheduler

variable {s : Scheduler} {block : BlockHash}

theorem attemptsOn_eq (s : Scheduler) (block : BlockHash) :
    s.backlog.attemptsOn block = (s.standing block).attempts?.getD 0 :=
  Std.ExtTreeMap.getD_eq_getD_getElem?

/-! ## Failure -/

theorem moves_abort (now : Timestamp) {custody : Custody} {attempts : Nat} {cancelling : Bool}
    (h : s.InStage block (.underway custody attempts cancelling)) :
    Moves s ((s.failHolders block now).endAttempt block) block []
      { cancelling, attempts? := some attempts } := by
  have released := moves_failHolders now h
  exact released.trans (moves_endAttempt released.standing)

theorem moves_fail_of_cancelling (now : Timestamp) {custody : Custody} {attempts : Nat}
    (h : s.InStage block (.underway custody attempts true)) :
    Moves s (s.fail block now) block [] Stage.cancelled.standing := by
  have aborted := moves_abort now h
  have doomed : ((s.failHolders block now).endAttempt block).cancelling.contains block = true :=
    congrArg Standing.cancelling aborted.standing
  have spared := aborted.trans (moves_eraseCancelling aborted.standing)
  have ended := spared.trans (moves_markCancelled now spared.standing)
  unfold fail
  simp only [doomed, if_true]
  exact ended

theorem moves_fail_of_lt (now : Timestamp) {custody : Custody} {attempts : Nat}
    (h : s.InStage block (.underway custody attempts false))
    (left : attempts < s.settings.maxAttempts.toNat) :
    Moves s (s.fail block now) block [.requeued] (Stage.waiting (some attempts)).standing := by
  have aborted := moves_abort now h
  have wanted : ((s.failHolders block now).endAttempt block).cancelling.contains block = false :=
    congrArg Standing.cancelling aborted.standing
  have counted : ((s.failHolders block now).endAttempt block).backlog.attemptsOn block =
      attempts := by
    rw [attemptsOn_eq, aborted.standing]
    rfl
  have ended := aborted.trans (moves_requeue now aborted.standing rfl)
  unfold fail
  simp only [wanted, counted, aborted.settings, left, if_true, Bool.false_eq_true, if_false]
  exact ended

theorem moves_fail_of_le (now : Timestamp) {custody : Custody} {attempts : Nat}
    (h : s.InStage block (.underway custody attempts false))
    (spent : s.settings.maxAttempts.toNat ≤ attempts) :
    Moves s (s.fail block now) block [.discarded] (Stage.discarded now).standing := by
  have aborted := moves_abort now h
  have wanted : ((s.failHolders block now).endAttempt block).cancelling.contains block = false :=
    congrArg Standing.cancelling aborted.standing
  have counted : ((s.failHolders block now).endAttempt block).backlog.attemptsOn block =
      attempts := by
    rw [attemptsOn_eq, aborted.standing]
    rfl
  have ended := aborted.trans (moves_discardBlock now aborted.standing)
  unfold fail
  simp only [wanted, counted, aborted.settings, Nat.not_lt.mpr spent, Bool.false_eq_true, if_false]
  exact ended

theorem passes_fail (now : Timestamp) {custody : Custody} {attempts : Nat} {cancelling : Bool}
    (h : s.InStage block (.underway custody attempts cancelling)) :
    Passes ((Failure s.settings.maxAttempts.toNat now).limitedTo [block]) s (s.fail block now) := by
  cases cancelling with
  | true => exact (moves_fail_of_cancelling now h).passes_limitedTo h .cancelled
  | false =>
    by_cases left : attempts < s.settings.maxAttempts.toNat
    · exact (moves_fail_of_lt now h left).passes_limitedTo h (.requeued left)
    · have spent := Nat.le_of_not_lt left
      exact (moves_fail_of_le now h spent).passes_limitedTo h (.discarded spent)

/-! ## Cancellation -/

theorem moves_cancelNow (now : Timestamp) {custody : Custody} {attempts : Nat} {cancelling : Bool}
    (h : s.InStage block (.underway custody attempts cancelling)) :
    Moves s (s.cancelNow block now) block [] Stage.cancelled.standing := by
  have freed := moves_freeHolders h
  have ended := freed.trans (moves_endAttempt freed.standing)
  have spared := ended.trans (moves_eraseCancelling ended.standing)
  exact spared.trans (moves_markCancelled now spared.standing)

theorem moves_markCancelled_of_idle (now : Timestamp) {stage : Stage} (h : s.InStage block stage)
    (idle : stage.isUnderway = false) (wanted : stage ≠ .downloaded) :
    Moves s (s.markCancelled block now) block [] Stage.cancelled.standing := by
  have ended := moves_markCancelled now h
  cases stage with
  | underway => simp [Stage.isUnderway] at idle
  | downloaded => exact absurd rfl wanted
  | _ => exact ended

/-! ## Delivery -/

theorem isUnwanted_eq {stage : Stage} (h : s.InStage block stage) :
    s.isUnwanted block = true ↔ stage = .cancelled ∨ stage = .downloaded := by
  rw [isUnwanted, h.contains_cancelled, h.contains_downloaded]
  cases stage <;> simp [Stage.standing]

/-- A wanted block that arrives is downloaded, whatever was known about it. -/
theorem moves_succeed (peer : PeerAddress) {header : BlockHeader} (size : UInt64) (now : Timestamp)
    {stage : Stage} (h : s.InStage header.hash stage) (uncancelled : stage ≠ .cancelled)
    (missing : stage ≠ .downloaded) :
    Moves s (s.succeed peer header size now) header.hash [.downloaded]
      Stage.downloaded.standing := by
  have wanted : ¬ s.isUnwanted header.hash = true := by
    simp [isUnwanted_eq h, uncancelled, missing]
  unfold succeed
  simp only [wanted, Bool.false_eq_true, if_false]
  generalize ((s.transferOf? peer header.hash).map fun transfer => transfer.elapsed now).getD 0 =
    duration
  generalize s.transferOf? peer header.hash = transfer?
  have announced := moves_publish_blockDownloaded peer header size duration h
  have measured := announced.trans_quiet (quiet_recordSpeed _ peer transfer? size now)
  have freed := measured.trans (moves_freeHolders measured.standing)
  have marked := freed.trans (moves_markDownloaded freed.standing)
  have noted := marked.trans_quiet (quiet_noteDownload _ header.hash peer now)
  cases stage with
  | cancelled => exact absurd rfl uncancelled
  | downloaded => exact absurd rfl missing
  | _ => exact noted

/-- The arrival of a block that is cancelled or there already changes nothing on the books. -/
theorem quiet_succeed (peer : PeerAddress) {header : BlockHeader} (size : UInt64) (now : Timestamp)
    {stage : Stage} (h : s.InStage header.hash stage)
    (unwanted : stage = .cancelled ∨ stage = .downloaded) :
    Quiet s (s.succeed peer header size now) := by
  have books : SameBooks (s.freeHolders header.hash) (s.succeed peer header size now) := by
    unfold succeed
    simp only [(isUnwanted_eq h).mpr unwanted, if_true]
    apply SameBooks.of_tables <;> rfl
  have same : (s.succeed peer header size now).peers = (s.freeHolders header.hash).peers := by
    unfold succeed
    simp only [(isUnwanted_eq h).mpr unwanted, if_true]
  refine ⟨(sameBooks_freeHolders s header.hash).trans books, fun other => ?_⟩
  rw [blockAt?_congr same, blockAt?_freeHolders]
  have unheld : s.blockAt? other ≠ some header.hash := by
    rw [Ne, h.heldBy]
    rcases unwanted with rfl | rfl <;> exact fun impossible => impossible
  rw [if_neg unheld]

theorem passes_succeed (staged : s.Staged) (peer : PeerAddress) (header : BlockHeader)
    (size : UInt64) (now : Timestamp) :
    Passes (Delivery.limitedTo [header.hash]) s (s.succeed peer header size now) := by
  obtain ⟨stage, h⟩ := staged.stage header.hash
  by_cases unwanted : stage = .cancelled ∨ stage = .downloaded
  · have quiet := quiet_succeed peer size now h unwanted
    exact (quiet.moves h).passes_limitedTo h (.unwanted unwanted)
  · obtain ⟨uncancelled, missing⟩ := not_or.mp unwanted
    exact (moves_succeed peer size now h uncancelled missing).passes_limitedTo h
      (.downloaded uncancelled missing)

end Scheduler
end BlockFetch
