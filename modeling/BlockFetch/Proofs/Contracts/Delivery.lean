import BlockFetch.Proofs.Contracts.FailedAttempt
import BlockFetch.Proofs.Independence.Reactions

/-!
# Deliveries

A block may be delivered by the peer that was asked for it, by another one that sends something
else, or by a stranger, and at any time. Whoever delivers it, a wanted block is there afterwards,
its holder is idle again, and only the transfer of the holder itself counts for a speed. Nothing
else changes.
-/
namespace BlockFetch

theorem Peer.Linked.release_eq {record : Peer} (linked : record.Linked) {transfer : Transfer}
    (sends : record.transfer? = some transfer) :
    record.release = { record with work := .idle, transfer? := none } := by
  simp [Peer.release, linked.work_of_transfer? sends]

namespace Scheduler

/-- A step was the delivery of a wanted block by a peer within some time, and nothing else. -/
structure Delivers (s t : Scheduler) (peer : PeerAddress) (header : BlockHeader) (size : UInt64)
    (now : Timestamp) (duration : Duration) : Prop where
  arrived : ∀ place, t.IsAt header.hash place ↔ place = .downloaded
  released : ∀ holder, t.blockAt? holder ≠ some header.hash
  settled : header.hash ∉ t.limbo ∧ header.hash ∉ t.cancelling ∧ header.hash ∉ t.discarded
  silenced : t.lastActivity[header.hash]? = none ∧ t.partials[header.hash]? = none
  forgotten : t.backlog.KnowsNothing header.hash
  /-- A holder is idle again, and if it is the one that delivered, this counts for its speed. -/
  holder : ∀ (holder : PeerAddress) record transfer, s.peers[holder]? = some record →
    record.transfer? = some transfer → transfer.block = header.hash →
    t.peers[holder]? = some { (if holder = peer then
      record.recordSpeed size (now.since transfer.startedAt) else record) with
        work := .idle, transfer? := none }
  events : t.events = s.events ++ .blockDownloaded peer header size duration ::
    (s.holders header.hash).map (.keepAlive · true)
  asked : ∀ record transfer, s.peers[peer]? = some record → record.transfer? = some transfer →
    transfer.block = header.hash → duration = now.since transfer.startedAt
  unasked : s.blockAt? peer ≠ some header.hash → duration = 0
  speed : ∀ (other : PeerAddress) record after, s.peers[other]? = some record →
    t.peers[other]? = some after → after.speed ≠ record.speed →
    other = peer ∧ s.blockAt? peer = some header.hash
  others : ∀ block, header.hash ≠ block → t.dossier block = s.dossier block
  queue : t.backlog.queue = s.backlog.queue.erase header.hash
  stations : ∀ other, s.blockAt? other ≠ some header.hash → t.station other = s.station other
  background : t.background = s.background
  retries : t.retries = s.retries

/-- How long a peer has been sending a block. One that does not send it takes no time. -/
def timeOn (s : Scheduler) (peer : PeerAddress) (block : BlockHash) (now : Timestamp) : Duration :=
  ((s.transferOf? peer block).map fun transfer => transfer.elapsed now).getD 0

/-- The scheduler once a delivery is announced and counted for the speed of its peer. -/
def credited (s : Scheduler) (peer : PeerAddress) (header : BlockHeader) (size : UInt64)
    (now : Timestamp) : Scheduler :=
  (s.publish (.blockDownloaded peer header size (s.timeOn peer header.hash now))).recordSpeed peer
    (s.transferOf? peer header.hash) size now

variable {s : Scheduler} {header : BlockHeader} {peer : PeerAddress} {size : UInt64}
  {now : Timestamp} {block : BlockHash}

theorem succeed_of_wanted (wanted : ¬ s.isUnwanted header.hash = true) (peer : PeerAddress)
    (size : UInt64) (now : Timestamp) :
    s.succeed peer header size now =
      (((s.credited peer header size now).freeHolders header.hash).markDownloaded
        header.hash).noteDownload header.hash peer now := by
  rw [succeed, if_neg wanted]
  rfl

/-! ## The peers -/

theorem blockAt?_of_sends {record : Peer} {transfer : Transfer}
    (known : s.peers[peer]? = some record) (sends : record.transfer? = some transfer) :
    s.blockAt? peer = some transfer.block := by
  simp [blockAt?, known, Peer.block?, sends]

theorem transferOf?_of_sends {record : Peer} {transfer : Transfer}
    (known : s.peers[peer]? = some record) (sends : record.transfer? = some transfer)
    (named : transfer.block = block) : s.transferOf? peer block = some transfer := by
  simp [transferOf?, known, sends, named]

theorem exists_transfer_of_blockAt? (holds : s.blockAt? peer = some block) :
    ∃ record transfer, s.peers[peer]? = some record ∧ record.transfer? = some transfer ∧
      transfer.block = block := by
  obtain ⟨record, known, held⟩ := Option.bind_eq_some_iff.mp holds
  obtain ⟨transfer, sends, named⟩ := Option.map_eq_some_iff.mp held
  exact ⟨record, transfer, known, sends, named⟩

theorem peers_credited_of_ne (s : Scheduler) {peer other : PeerAddress} (different : other ≠ peer)
    (header : BlockHeader) (size : UInt64) (now : Timestamp) :
    (s.credited peer header size now).peers[other]? = s.peers[other]? := by
  unfold credited recordSpeed
  split
  · simp [modifyPeer, publish, Std.ExtTreeMap.getElem?_modify, Ne.symm different]
  · rfl

theorem peers_credited_of_sends {record : Peer} {transfer : Transfer}
    (known : s.peers[peer]? = some record) (sends : record.transfer? = some transfer)
    (named : transfer.block = header.hash) (size : UInt64) (now : Timestamp) :
    (s.credited peer header size now).peers[peer]? =
      some (record.recordSpeed size (now.since transfer.startedAt)) := by
  rw [credited, transferOf?_of_sends known sends named]
  simp [recordSpeed, modifyPeer, publish, known, Transfer.elapsed]

theorem blockAt?_credited (s : Scheduler) (peer : PeerAddress) (header : BlockHeader)
    (size : UInt64) (now : Timestamp) (other : PeerAddress) :
    (s.credited peer header size now).blockAt? other = s.blockAt? other :=
  (quiet_recordSpeed _ peer _ size now).held other

theorem peers_succeed (wanted : ¬ s.isUnwanted header.hash = true) (peer : PeerAddress)
    (size : UInt64) (now : Timestamp) (other : PeerAddress) :
    (s.succeed peer header size now).peers[other]? =
      if s.blockAt? other = some header.hash then
        ((s.credited peer header size now).peers[other]?).map Peer.release
      else (s.credited peer header size now).peers[other]? := by
  rw [succeed_of_wanted wanted]
  have noted : ∀ t : Scheduler, ((t.markDownloaded header.hash).noteDownload header.hash peer
      now).peers = t.peers := by
    intro t
    unfold noteDownload
    split <;> rfl
  rw [noted, ← s.blockAt?_credited peer header size now]
  obtain ⟨streams, freed⟩ := (s.credited peer header size now).exists_freeHolders_eq header.hash
  rw [freed]
  exact getElem?_foldl_holders _ header.hash Peer.release other

/-! ## The books -/

/-- Before the books are changed, a delivery concerns the peers, their buffers and the outbox
only. -/
theorem exists_freeHolders_credited_eq (s : Scheduler) (peer : PeerAddress) (header : BlockHeader)
    (size : UInt64) (now : Timestamp) :
    ∃ streams peers outbox, (s.credited peer header size now).freeHolders header.hash =
      { s with streams, peers, outbox } := by
  have measured : ∃ peers outbox, s.credited peer header size now = { s with peers, outbox } := by
    unfold credited recordSpeed
    split <;> exact ⟨_, _, rfl⟩
  obtain ⟨peers, outbox, measured⟩ := measured
  obtain ⟨streams, freed⟩ := exists_freeHolders_eq { s with peers, outbox } header.hash
  rw [measured, freed]
  exact ⟨streams, _, _, rfl⟩

/-- What becomes of the journal of the block is left open. -/
theorem dossier_succeed (wanted : ¬ s.isUnwanted header.hash = true) (peer : PeerAddress)
    (size : UInt64) (now : Timestamp) :
    ∃ entries?, (s.succeed peer header size now).dossier header.hash =
      { (s.dossier header.hash).delivered with entries? } := by
  obtain ⟨streams, peers, outbox, same⟩ := s.exists_freeHolders_credited_eq peer header size now
  rw [succeed_of_wanted wanted, same]
  have marked := revises_markDownloaded { s with streams, peers, outbox } header.hash
  unfold noteDownload
  split
  · have cleared := marked.trans (revises_clearJournal _ header.hash)
    exact ⟨none, (cleared header.hash).trans (if_pos rfl)⟩
  · have noted := marked.trans (revises_note _ header.hash now (some peer) .downloaded)
    refine ⟨((s.dossier header.hash).delivered.noted s.journal.enabled
      ⟨now, some peer, .downloaded⟩).entries?, ?_⟩
    have recording : ({ s with streams, peers, outbox }.markDownloaded
        header.hash).journal.enabled = s.journal.enabled := rfl
    rw [noted header.hash, if_pos rfl, recording]
    cases s.journal.enabled <;> rfl

theorem queue_and_retries_succeed (wanted : ¬ s.isUnwanted header.hash = true) (peer : PeerAddress)
    (size : UInt64) (now : Timestamp) :
    (s.succeed peer header size now).backlog.queue = s.backlog.queue.erase header.hash ∧
      (s.succeed peer header size now).retries = s.retries := by
  obtain ⟨streams, peers, outbox, same⟩ := s.exists_freeHolders_credited_eq peer header size now
  rw [succeed_of_wanted wanted, same]
  unfold noteDownload
  split <;> exact ⟨rfl, rfl⟩

theorem events_credited (s : Scheduler) (peer : PeerAddress) (header : BlockHeader)
    (size : UInt64) (now : Timestamp) :
    (s.credited peer header size now).events =
      s.events ++ [.blockDownloaded peer header size (s.timeOn peer header.hash now)] := by
  rw [← events_publish]
  unfold credited recordSpeed
  split <;> rfl

theorem events_succeed_of_wanted (wanted : ¬ s.isUnwanted header.hash = true) (peer : PeerAddress)
    (size : UInt64) (now : Timestamp) :
    (s.succeed peer header size now).events =
      s.events ++ .blockDownloaded peer header size (s.timeOn peer header.hash now) ::
        (s.holders header.hash).map (.keepAlive · true) := by
  have holders : (s.credited peer header size now).holders header.hash = s.holders header.hash :=
    holders_congr fun other => by rw [blockAt?_credited]
  rw [succeed_of_wanted wanted, events_noteDownload, events_freeHolders, events_credited, holders,
    List.append_assoc, List.singleton_append]

/-! ## Deliveries -/

/-- A delivery concerns its block and those who are sending it. -/
theorem exists_reacts_succeed (s : Scheduler) (peer : PeerAddress) (header : BlockHeader)
    (size : UInt64) (now : Timestamp) :
    ∃ deeds, Reacts [header.hash] {other | s.blockAt? other = some header.hash} deeds s
      (s.succeed peer header size now) := by
  have alike : Alike [header.hash] {other | s.blockAt? other = some header.hash} s s := by
    refine ⟨rfl, fun _ _ => rfl, fun _ _ => rfl, fun other stranger block member => ?_⟩
    rw [List.mem_singleton.mp member]
    exact ⟨stranger, stranger⟩
  have tandem : Tandem false _ _ _ _ _ _ := tandem_succeed alike now peer List.mem_cons_self size
  obtain ⟨deeds, _, reacts, _⟩ := tandem.reacts
  exact ⟨deeds, reacts⟩

theorem peers_succeed_of_sends (wanted : ¬ s.isUnwanted header.hash = true) {holder : PeerAddress}
    {record : Peer} {transfer : Transfer} (known : s.peers[holder]? = some record)
    (linked : record.Linked) (sends : record.transfer? = some transfer)
    (named : transfer.block = header.hash) (peer : PeerAddress) (size : UInt64) (now : Timestamp) :
    (s.succeed peer header size now).peers[holder]? = some { (if holder = peer then
      record.recordSpeed size (now.since transfer.startedAt) else record) with
        work := .idle, transfer? := none } := by
  have holds : s.blockAt? holder = some header.hash :=
    (blockAt?_of_sends known sends).trans (congrArg some named)
  rw [peers_succeed wanted, if_pos holds]
  by_cases here : holder = peer
  · subst here
    rw [peers_credited_of_sends known sends named, if_pos rfl, Option.map_some,
      (linked.recordSpeed size _).release_eq sends]
  · rw [peers_credited_of_ne s here, known, if_neg here, Option.map_some, linked.release_eq sends]

theorem Staged.delivers_succeed (staged : s.Staged) (uncancelled : header.hash ∉ s.cancelled)
    (missing : header.hash ∉ s.downloaded) (peer : PeerAddress) (size : UInt64) (now : Timestamp) :
    Delivers s (s.succeed peer header size now) peer header size now
      (s.timeOn peer header.hash now) := by
  have wanted : ¬ s.isUnwanted header.hash = true := by
    simp [isUnwanted, uncancelled, missing]
  obtain ⟨entries?, kept⟩ := dossier_succeed wanted peer size now
  obtain ⟨queue, retries⟩ := queue_and_retries_succeed wanted peer size now
  obtain ⟨_, reacts⟩ := s.exists_reacts_succeed peer header size now
  obtain ⟨before, inBefore⟩ := staged.stage header.hash
  have after : (s.succeed peer header size now).InStage header.hash .downloaded := by
    rw [isUnwanted_eq inBefore, not_or] at wanted
    exact (moves_succeed peer size now inBefore wanted.1 wanted.2).standing
  constructor
  case arrived =>
    intro place
    rw [after.isAt_iff]
    cases place <;> simp [Stage.place?]
  case released =>
    intro holder holds
    rw [after.heldBy] at holds
    exact holds
  case settled =>
    refine ⟨?_, ?_, ?_⟩
    · rw [after.inLimbo]
      exact Bool.false_ne_true
    · rw [← Std.ExtTreeSet.contains_iff_mem, after.contains_cancelling]
      exact Bool.false_ne_true
    · intro aside
      have discarded : (s.succeed peer header size now).IsAt header.hash .discarded := aside
      cases after.isAt_iff.mp discarded
  case silenced => exact ⟨congrArg Dossier.lastActivity? kept, congrArg Dossier.part? kept⟩
  case forgotten =>
    refine ⟨?_, congrArg Dossier.announcers? kept, congrArg Dossier.reservedFor? kept,
      congrArg Dossier.preferred? kept, congrArg Dossier.failures? kept,
      congrArg Dossier.attempts? kept⟩
    rw [queue]
    exact staged.nodup_queue.not_mem_erase
  case holder =>
    intro holder record transfer known sends named
    exact peers_succeed_of_sends wanted known (staged.linked holder record known) sends named peer
      size now
  case events => exact events_succeed_of_wanted wanted peer size now
  case asked =>
    intro record transfer known sends named
    rw [timeOn, transferOf?_of_sends known sends named]
    rfl
  case unasked =>
    intro idle
    rw [timeOn, transferOf?_eq_none idle]
    rfl
  case speed =>
    intro other record later known found faster
    by_cases holds : s.blockAt? other = some header.hash
    · obtain ⟨_, transfer, known', sends, named⟩ := exists_transfer_of_blockAt? holds
      rw [known] at known'
      cases known'
      have linked := staged.linked other record known
      rw [peers_succeed_of_sends wanted known linked sends named] at found
      cases found
      by_cases here : other = peer
      · exact ⟨here, here ▸ holds⟩
      · rw [if_neg here] at faster
        exact absurd rfl faster
    · have same : (s.succeed peer header size now).peers[other]? = s.peers[other]? :=
        congrArg Prod.fst (reacts.stations other holds)
      rw [same, known] at found
      cases found
      exact absurd rfl faster
  case others =>
    intro block different
    exact reacts.dossiers block fun member => different (List.mem_singleton.mp member).symm
  case queue => exact queue
  case stations => exact fun other idle => reacts.stations other idle
  case background => exact reacts.background
  case retries => exact retries

/-- In every state that can be reached, a delivery settles a block that is wanted and does nothing
else, whoever delivers it. Of a block that is not wanted it only drops the parts. -/
theorem Reachable.settles_deliveries (h : s.Reachable) (peer : PeerAddress) (header : BlockHeader)
    (size : UInt64) (now : Timestamp) :
    (header.hash ∉ s.cancelled → header.hash ∉ s.downloaded →
      ∃ duration, Delivers s (s.succeed peer header size now) peer header size now duration) ∧
    (header.hash ∈ s.cancelled ∨ header.hash ∈ s.downloaded →
      s.succeed peer header size now = { s with partials := s.partials.erase header.hash }) := by
  constructor
  · intro uncancelled missing
    exact ⟨_, h.staged.delivers_succeed uncancelled missing peer size now⟩
  · intro settled
    have unwanted : s.isUnwanted header.hash = true := by
      simpa [isUnwanted] using settled
    exact h.staged.succeed_of_unwanted unwanted peer size now

/-- A peer that is not even known delivers what another one was asked for, and when that one
delivers the block too, there is nothing left to do. -/
theorem settles_deliveries_sending :
    let header := BlockHeader.untimed .zero .zero 1
    let delivered := sending.succeed secondSender header 9 ⟨5⟩
    sending.Reachable ∧ sending.peers[secondSender]? = none ∧
      sending.blockAt? soleSender = some .zero ∧
      Delivers sending delivered secondSender header 9 ⟨5⟩ 0 ∧
      ∀ now, delivered.succeed soleSender header 9 now = delivered := by
  intro header delivered
  have stranger : sending.peers[secondSender]? = none := by decide +kernel
  have idle : sending.blockAt? secondSender ≠ some .zero := by simp [blockAt?, stranger]
  have wanted : BlockHash.zero ∉ sending.cancelled ∧ BlockHash.zero ∉ sending.downloaded := by
    decide +kernel
  obtain ⟨duration, first⟩ :=
    (reachable_sending.settles_deliveries secondSender header 9 ⟨5⟩).1 wanted.1 wanted.2
  obtain rfl := first.unasked idle
  refine ⟨reachable_sending, stranger, by decide +kernel, first, fun now => ?_⟩
  have reachable : delivered.Reachable :=
    reachable_sending.applied ⟨5⟩ (.hear (.rawBlockDelivered secondSender header 9))
  have settled : BlockHash.zero ∈ delivered.downloaded := (first.arrived .downloaded).mpr rfl
  rw [(reachable.settles_deliveries soleSender header 9 now).2 (.inr settled),
    erase_eq_self first.silenced.2]

end Scheduler
end BlockFetch
