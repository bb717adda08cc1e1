import BlockFetch.Proofs.Deadlines.Enforcement
import BlockFetch.Proofs.Dossier
import BlockFetch.Proofs.Lifecycle.Arrivals
import BlockFetch.Proofs.Peers.Engagement

/-!
# Failed attempts

What a failed attempt leaves behind. Its block is taken from its holder and out of limbo, and it is
cancelled, queued again or discarded, as the state before says. Nothing that is kept on any other
block changes, nor does any peer that was not sending the block.
-/
namespace BlockFetch

/-- How a failed attempt can end for its block. -/
inductive FailureEnd where
  | cancelled
  | requeued
  | discarded
  deriving DecidableEq

def FailureEnd.stage (attempts : Nat) (now : Timestamp) : FailureEnd → Stage
  | .cancelled => .cancelled
  | .requeued => .waiting (some attempts)
  | .discarded => .discarded now

/-- Nothing is known about a block: it does not wait, and no table has an entry for it. -/
structure Backlog.KnowsNothing (backlog : Backlog) (block : BlockHash) : Prop where
  queue : block ∉ backlog.queue
  announcers : backlog.announcers[block]? = none
  reservations : backlog.reservations[block]? = none
  preferred : backlog.preferred[block]? = none
  failures : backlog.failures[block]? = none
  attempts : backlog.attempts[block]? = none

theorem Backlog.knowsNothing_forget {backlog : Backlog} (distinct : backlog.queue.Nodup)
    (block : BlockHash) : (backlog.forget block).KnowsNothing block where
  queue := distinct.not_mem_erase
  announcers := Std.ExtTreeMap.getElem?_erase_self
  reservations := Std.ExtTreeMap.getElem?_erase_self
  preferred := Std.ExtTreeMap.getElem?_erase_self
  failures := Std.ExtTreeMap.getElem?_erase_self
  attempts := Std.ExtTreeMap.getElem?_erase_self

theorem Peer.Linked.fail_eq {record : Peer} (linked : record.Linked) {transfer : Transfer}
    (sends : record.transfer? = some transfer) :
    record.fail =
      { record with
        work := if transfer.bytesReceived = 0 then .idle else .discarded
        transfer? := none } := by
  have work := linked.work_of_transfer? sends
  rw [Peer.fail, sends]
  by_cases empty : transfer.bytesReceived = 0 <;> simp [empty, Peer.release, Peer.discard, work]

namespace Scheduler

def failureEnd (s : Scheduler) (block : BlockHash) : FailureEnd :=
  if s.cancelling.contains block then .cancelled
  else if s.backlog.attemptsOn block < s.settings.maxAttempts.toNat then .requeued
  else .discarded

/-- A step brought a block to an end: it is cancelled and forgotten; or it waits before all others
and its attempts count on; or it is put aside, and of what is known about it only the attempts and
failures are gone. -/
def EndsAs (s t : Scheduler) (block : BlockHash) (now : Timestamp) : FailureEnd → Prop
  | .cancelled => block ∈ t.cancelled ∧ block ∉ t.cancelling ∧ t.backlog.KnowsNothing block
  | .requeued =>
    t.backlog.queue = block :: s.backlog.queue ∧
      t.backlog.attempts[block]? = s.backlog.attempts[block]?
  | .discarded =>
    t.discarded[block]? = some now ∧
      t.backlog.attempts[block]? = none ∧ t.backlog.failures[block]? = none ∧
      t.backlog.announcers[block]? = s.backlog.announcers[block]? ∧
      t.backlog.reservations[block]? = s.backlog.reservations[block]? ∧
      t.backlog.preferred[block]? = s.backlog.preferred[block]?

/-- A step was the failure of an attempt on a block, and nothing else. -/
structure Fails (s t : Scheduler) (block : BlockHash) (now : Timestamp) : Prop where
  released : ∀ peer, t.blockAt? peer ≠ some block
  settled : block ∉ t.limbo
  /-- A holder that had sent a part of the block gets no more work. -/
  holder : ∀ (peer : PeerAddress) record transfer, s.peers[peer]? = some record →
    record.transfer? = some transfer → transfer.block = block →
    t.peers[peer]? =
      some { record with
        work := if transfer.bytesReceived = 0 then .idle else .discarded
        transfer? := none }
  /-- Of the three ends the block has come to the one that was due, and to no other. -/
  ends : ∀ outcome, EndsAs s t block now outcome ↔ outcome = s.failureEnd block
  retries : t.retries = s.retries + if s.failureEnd block = .requeued then 1 else 0
  events : t.events = s.events ++ (s.holders block).map (.keepAlive · true) ++
    if s.failureEnd block = .discarded then
      [.blockDiscarded block (discardReason (s.backlog.attemptsOn block))]
    else []
  others : ∀ other, block ≠ other → t.dossier other = s.dossier other
  queue : t.backlog.queue.erase block = s.backlog.queue
  peers : ∀ peer, s.blockAt? peer ≠ some block → t.peers[peer]? = s.peers[peer]?

variable {s t : Scheduler} {block : BlockHash} {now : Timestamp}

/-! ## The holder -/

theorem getElem?_foldl_modify {peers : List PeerAddress} (distinct : peers.Nodup)
    (table : Std.ExtTreeMap PeerAddress Peer) (change : Peer → Peer) (peer : PeerAddress) :
    (peers.foldl (fun table peer => table.modify peer change) table)[peer]? =
      if peer ∈ peers then table[peer]?.map change else table[peer]? := by
  induction peers generalizing table with
  | nil => simp
  | cons first rest ih =>
    obtain ⟨absent, distinct⟩ := List.nodup_cons.mp distinct
    rw [List.foldl_cons, ih distinct]
    by_cases here : first = peer
    · subst here
      simp [absent]
    · simp [Std.ExtTreeMap.getElem?_modify, here, Ne.symm here]

theorem getElem?_foldl_holders (s : Scheduler) (block : BlockHash) (change : Peer → Peer)
    (peer : PeerAddress) :
    ((s.holders block).foldl (fun table peer => table.modify peer change) s.peers)[peer]? =
      if s.blockAt? peer = some block then (s.peers[peer]?).map change else s.peers[peer]? := by
  rw [← if_congr mem_holders rfl rfl]
  exact getElem?_foldl_modify (nodup_holders s block) s.peers change peer

theorem peers_failHolders (s : Scheduler) (block : BlockHash) (now : Timestamp)
    (peer : PeerAddress) :
    (s.failHolders block now).peers[peer]? =
      if s.blockAt? peer = some block then (s.peers[peer]?).map Peer.fail else s.peers[peer]? := by
  obtain ⟨streams, same⟩ := s.exists_failHolders_eq block now
  rw [same]
  exact s.getElem?_foldl_holders block Peer.fail peer

/-- What is kept on a block while its holder is failed changes in the failures alone. -/
theorem revises_failHolders (s : Scheduler) (block : BlockHash) (now : Timestamp) :
    ∃ failures?, Revises block (fun dossier => { dossier with failures? }) s
      (s.failHolders block now) := by
  unfold failHolders
  generalize s.holders block = peers
  induction peers generalizing s with
  | nil => exact ⟨(s.dossier block).failures?, .intro rfl fun _ _ => rfl⟩
  | cons peer rest ih =>
    have head : Revises block (Dossier.failedBy peer now) s (s.failHolder block now peer) :=
      revises_noteFailure (s.modifyPeer peer Peer.fail) block now peer
    obtain ⟨failures?, tail⟩ := ih (s.failHolder block now peer)
    exact ⟨failures?, head.trans tail⟩

theorem revises_abort (s : Scheduler) (block : BlockHash) (now : Timestamp) :
    ∃ failures?, Revises block (fun dossier => { dossier.ended with failures? }) s
      ((s.failHolders block now).endAttempt block) := by
  obtain ⟨failures?, failed⟩ := revises_failHolders s block now
  exact ⟨failures?, failed.trans (revises_endAttempt _ block)⟩

theorem attemptsOn_abort (s : Scheduler) (block : BlockHash) (now : Timestamp) :
    ((s.failHolders block now).endAttempt block).backlog.attemptsOn block =
      s.backlog.attemptsOn block :=
  congrArg (·.getD block 0) (sameBooks_failHolders s block now).attempts

/-! ## The three ends -/

theorem fail_eq (s : Scheduler) (block : BlockHash) (now : Timestamp) :
    s.fail block now =
      let aborted := (s.failHolders block now).endAttempt block
      match s.failureEnd block with
      | .cancelled =>
        { aborted with cancelling := aborted.cancelling.erase block }.markCancelled block now
      | .requeued => aborted.requeue block now
      | .discarded => aborted.discardBlock block now := by
  have books := sameBooks_failHolders s block now
  have settings : ((s.failHolders block now).endAttempt block).settings = s.settings :=
    books.settings
  have cancelling : ((s.failHolders block now).endAttempt block).cancelling = s.cancelling :=
    books.cancelling
  unfold fail failureEnd
  simp only [attemptsOn_abort, settings, cancelling]
  split
  · rfl
  · split <;> rfl

theorem inStage_fail (now : Timestamp) {custody : Custody} {attempts : Nat} {cancelling : Bool}
    (h : s.InStage block (.underway custody attempts cancelling)) :
    (s.fail block now).InStage block ((s.failureEnd block).stage attempts now) := by
  have counted : s.backlog.attemptsOn block = attempts := by
    rw [attemptsOn_eq, h]
    rfl
  have doomed : s.cancelling.contains block = cancelling := h.contains_cancelling
  unfold failureEnd
  rw [doomed, counted]
  cases cancelling with
  | true => exact (moves_fail_of_cancelling now h).standing
  | false =>
    by_cases left : attempts < s.settings.maxAttempts.toNat
    · simp only [Bool.false_eq_true, if_false, left, if_true]
      exact (moves_fail_of_lt now h left).standing
    · simp only [Bool.false_eq_true, if_false, left]
      exact (moves_fail_of_le now h (Nat.le_of_not_lt left)).standing

theorem peers_fail (s : Scheduler) (block : BlockHash) (now : Timestamp) :
    (s.fail block now).peers = (s.failHolders block now).peers := by
  rw [fail_eq]
  cases s.failureEnd block <;> rfl

theorem dossier_fail_of_ne (s : Scheduler) {block other : BlockHash} (different : block ≠ other)
    (now : Timestamp) : (s.fail block now).dossier other = s.dossier other := by
  obtain ⟨failures?, aborted⟩ := revises_abort s block now
  rw [fail_eq]
  cases s.failureEnd block with
  | cancelled =>
    have spared := aborted.trans (revises_eraseCancelling _ block)
    exact (spared.trans (revises_markCancelled _ block now)).of_ne different
  | requeued => exact (aborted.trans (revises_requeue _ block now)).of_ne different
  | discarded => exact (aborted.trans (revises_discardBlock _ block now)).of_ne different

/-- The end that is due is the one that comes about. -/
theorem endsAs_fail (distinct : s.backlog.queue.Nodup) (away : block ∉ s.backlog.queue)
    (now : Timestamp) : EndsAs s (s.fail block now) block now (s.failureEnd block) := by
  have books := sameBooks_failHolders s block now
  obtain ⟨failures?, aborted⟩ := revises_abort s block now
  have kept := aborted block
  rw [if_pos rfl] at kept
  rw [fail_eq]
  cases s.failureEnd block with
  | cancelled =>
    have same : ((s.failHolders block now).endAttempt block).backlog.queue.Nodup :=
      books.queue ▸ distinct
    have withdrawn : block ∉ (s.failHolders block now).cancelling.erase block := by simp
    exact ⟨Std.ExtTreeSet.mem_insert_self, withdrawn,
      Backlog.knowsNothing_forget same block⟩
  | requeued =>
    refine ⟨?_, congrArg (·[block]?) books.attempts⟩
    change Backlog.pushFront block (s.failHolders block now).backlog.queue = _
    rw [books.queue, Backlog.pushFront, if_neg (mt List.contains_iff_mem.mp away)]
  | discarded =>
    exact ⟨Std.ExtTreeMap.getElem?_insert_self, Std.ExtTreeMap.getElem?_erase_self,
      Std.ExtTreeMap.getElem?_erase_self, congrArg Dossier.announcers? kept,
      congrArg Dossier.reservedFor? kept, congrArg Dossier.preferred? kept⟩

/-- A block is in one stage only, so it comes to one end only. -/
theorem EndsAs.eq_of_inStage {first second : FailureEnd} {attempts : Nat}
    (h : EndsAs s t block now first) (stage : t.InStage block (second.stage attempts now)) :
    first = second := by
  cases first with
  | cancelled =>
    have settled := Std.ExtTreeSet.contains_iff_mem.mpr h.1
    rw [stage.contains_cancelled] at settled
    cases second with
    | cancelled => rfl
    | _ => exact nomatch settled
  | requeued =>
    have queued : block ∈ t.backlog.queue := h.1 ▸ List.mem_cons_self
    rw [stage.mem_queue] at queued
    cases second with
    | requeued => rfl
    | _ => exact nomatch queued
  | discarded =>
    have aside := h.1
    rw [stage.discarded] at aside
    cases second with
    | discarded => rfl
    | _ => exact nomatch aside

theorem events_fail (s : Scheduler) (block : BlockHash) (now : Timestamp) :
    (s.fail block now).events = s.events ++ (s.holders block).map (.keepAlive · true) ++
      if s.failureEnd block = .discarded then
        [.blockDiscarded block (discardReason (s.backlog.attemptsOn block))]
      else [] := by
  rw [fail_eq, ← events_failHolders s block now, ← attemptsOn_abort s block now]
  cases s.failureEnd block with
  | discarded => exact events_publish _ _
  | _ => exact (List.append_nil _).symm

theorem retries_fail (s : Scheduler) (block : BlockHash) (now : Timestamp) :
    (s.fail block now).retries = s.retries + if s.failureEnd block = .requeued then 1 else 0 := by
  rw [fail_eq, ← (sameBooks_failHolders s block now).retries]
  cases s.failureEnd block <;> rfl

theorem erase_queue_fail (away : block ∉ s.backlog.queue) (now : Timestamp) :
    (s.fail block now).backlog.queue.erase block = s.backlog.queue := by
  have aborted : (s.failHolders block now).backlog.queue = s.backlog.queue :=
    (sameBooks_failHolders s block now).queue
  have erased : s.backlog.queue.erase block = s.backlog.queue := List.erase_of_not_mem away
  rw [fail_eq]
  cases s.failureEnd block with
  | requeued =>
    change (Backlog.pushFront block (s.failHolders block now).backlog.queue).erase block = _
    rw [aborted, Backlog.pushFront, if_neg (mt List.contains_iff_mem.mp away)]
    exact List.erase_cons_head block s.backlog.queue
  | _ =>
    change ((s.failHolders block now).backlog.queue.erase block).erase block = _
    rw [aborted, erased, erased]

/-! ## Failures -/

theorem Staged.fails (staged : s.Staged) (flies : s.isInFlight block = true) (now : Timestamp) :
    Fails s (s.fail block now) block now := by
  obtain ⟨stage, inStage⟩ := staged.stage block
  rw [inStage.isInFlight] at flies
  cases stage with
  | underway custody attempts cancelling =>
    have away : block ∉ s.backlog.queue := by
      intro queued
      cases inStage.mem_queue.mp queued
    have after := inStage_fail now inStage
    have peers := fun peer => (congrArg (·[peer]?) (peers_fail s block now)).trans
      (peers_failHolders s block now peer)
    constructor
    case released =>
      intro peer holds
      rw [after.heldBy] at holds
      cases due : s.failureEnd block <;> exact (due ▸ holds).elim
    case settled =>
      intro inside
      rw [after.inLimbo] at inside
      cases due : s.failureEnd block <;> cases due ▸ inside
    case holder =>
      intro peer record transfer known sends named
      have holds : s.blockAt? peer = some block := by
        rw [blockAt?, known, Option.bind_some, Peer.block?, sends, Option.map_some, named]
      rw [peers, if_pos holds, known, Option.map_some,
        (staged.linked peer record known).fail_eq sends]
    case ends =>
      intro outcome
      refine ⟨fun ended => ended.eq_of_inStage after, ?_⟩
      rintro rfl
      exact endsAs_fail staged.nodup_queue away now
    case retries => exact retries_fail s block now
    case events => exact events_fail s block now
    case others => exact fun other different => dossier_fail_of_ne s different now
    case queue => exact erase_queue_fail away now
    case peers => exact fun peer other => (peers peer).trans (if_neg other)
  | _ => cases flies

/-- The answer of the holder that it does not have the block is noted first, on that block alone. -/
theorem Fails.of_note {peer? : Option PeerAddress} {note : Note}
    (h : Fails (s.note block peer? note now) t block now) : Fails s t block now where
  released := h.released
  settled := h.settled
  holder := h.holder
  ends := h.ends
  retries := h.retries
  events := h.events
  others other different :=
    (h.others other different).trans ((revises_note s block now peer? note).of_ne different)
  queue := h.queue
  peers := h.peers

theorem Staged.fails_hearNotFound (staged : s.Staged) {peer : PeerAddress}
    (holds : s.blockAt? peer = some block) (now : Timestamp) :
    Fails s (s.hearNotFound peer [block] now) block now := by
  have step : s.hearNotFound peer [block] now =
      (s.note block (some peer) .notFound now).fail block now := if_pos holds
  have noted := (quiet_note s block (some peer) .notFound now).staged staged
  rw [step]
  exact .of_note (noted.fails (isInFlight_iff.mpr (.inl ⟨peer, holds⟩)) now)

theorem Staged.fails_reconcile (staged : s.Staged) (flies : s.isInFlight block = true)
    (wanted : block ∉ s.cancelling) {last : Timestamp} (heard : s.lastActivity[block]? = some last)
    (late : s.settings.limboTimeout < now.since last) :
    Fails s (reconcile now s block) block now := by
  obtain ⟨stage, inStage⟩ := staged.stage block
  have begun : s.backlog.isBegun block = true :=
    inStage.isBegun_of_isUnderway (inStage.isInFlight.symm.trans flies)
  have overdue : now.since last > s.settings.limboTimeout := late
  have unmarked : s.cancelling.contains block = false := eq_false_of_ne_true wanted
  have step : reconcile now s block = s.fail block now := by
    simp only [reconcile, begun, unmarked, heard, Option.getD_some, overdue, Bool.not_true,
      Bool.false_eq_true, if_false, if_true]
  rw [step]
  exact staged.fails flies now

/-- The tick fails a block in limbo in the state that the blocks before it have left. -/
theorem Staged.fails_midSweep (staged : s.Staged) {seen rest : List BlockHash}
    (limbo : (s.midSweep now []).limbo.toList = seen ++ block :: rest)
    (wanted : block ∉ (s.midSweep now seen).cancelling) {last : Timestamp}
    (heard : (s.midSweep now seen).lastActivity[block]? = some last)
    (late : s.settings.limboTimeout < now.since last) :
    Fails (s.midSweep now seen) (s.midSweep now (seen ++ [block])) block now := by
  have swept := passes_foldl_reconcile (staged.midSweep now) now seen
  have settings : (s.midSweep now seen).settings = s.settings :=
    swept.settings.trans (staged.settings_midSweep now)
  obtain ⟨stage, inStage, underway⟩ := staged.isUnderway_midSweep now limbo
  have step : s.midSweep now (seen ++ [block]) = reconcile now (s.midSweep now seen) block :=
    List.foldl_append
  rw [step]
  exact (swept.staged (staged.midSweep now)).fails_reconcile (inStage.isInFlight.trans underway)
    wanted heard (settings ▸ late)

/-- In every state that can be reached the attempt on a block in flight fails in the same way,
whether the holder answers that it does not have the block or nothing has been heard of it for
too long. The counters here are numbers, and words as long as they fit (`CountersFit`). -/
theorem Reachable.resolves_failures (h : s.Reachable) (now : Timestamp) :
    (∀ block, s.IsAt block .inFlight → Fails s (s.fail block now) block now) ∧
    (∀ peer block, s.blockAt? peer = some block →
      Fails s (s.apply now (.hear (.blocksNotFound peer [block]))) block now) ∧
    ∀ seen block rest last, (s.midSweep now []).limbo.toList = seen ++ block :: rest →
      block ∉ (s.midSweep now seen).cancelling →
      (s.midSweep now seen).lastActivity[block]? = some last →
      s.settings.limboTimeout < now.since last →
      Fails (s.midSweep now seen) (s.midSweep now (seen ++ [block])) block now := by
  refine ⟨fun block flies => ?_, fun peer block holds => ?_,
    fun seen block rest last limbo wanted heard late => ?_⟩
  · exact h.staged.fails (isInFlight_iff.mpr flies) now
  · exact h.staged.fails_hearNotFound holds now
  · exact h.staged.fails_midSweep limbo wanted heard late

theorem resolves_failures_adrift :
    sending.Reachable ∧ sending.blockAt? soleSender = some .zero ∧
      (sending.apply ⟨3⟩ (.hear (.blocksNotFound soleSender [.zero]))).backlog.queue = [.zero] ∧
      adrift.Reachable ∧ (adrift.midSweep ⟨99999⟩ []).limbo.toList = [] ++ BlockHash.zero :: [] ∧
      (adrift.midSweep ⟨99999⟩ [.zero]).backlog.queue = [.zero] := by
  have holds : sending.blockAt? soleSender = some .zero := by decide +kernel
  have answered := ((reachable_sending.resolves_failures ⟨3⟩).2.1 soleSender .zero holds).ends
  have due : sending.failureEnd .zero = .requeued := by decide +kernel
  have reachable : adrift.Reachable := reachable_sending.applied _ _
  have limbo : (adrift.midSweep ⟨99999⟩ []).limbo.toList = [] ++ BlockHash.zero :: [] := by
    decide +kernel
  have swept := (reachable.resolves_failures ⟨99999⟩).2.2 [] .zero [] ⟨3⟩ limbo
    (by decide +kernel) (by decide +kernel) (by decide +kernel)
  have late : (adrift.midSweep ⟨99999⟩ []).failureEnd .zero = .requeued := by decide +kernel
  have first : sending.backlog.queue = [] := by decide +kernel
  have second : (adrift.midSweep ⟨99999⟩ []).backlog.queue = [] := by decide +kernel
  refine ⟨reachable_sending, holds, ?_, reachable, limbo, ?_⟩
  · exact ((answered .requeued).mpr due.symm).1.trans (congrArg _ first)
  · exact ((swept.ends .requeued).mpr late.symm).1.trans (congrArg _ second)

end Scheduler
end BlockFetch
