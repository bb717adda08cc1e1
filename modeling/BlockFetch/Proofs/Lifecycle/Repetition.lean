import BlockFetch.Proofs.Lifecycle.Places

/-!
# Repeated events

The bus may deliver an event more than once. Each reaction below is described by the states that it
leaves alone, and the state after an event is one that the reaction to the same event leaves alone.
So a repetition changes nothing and says nothing. The chunks of a block are the exception: each of
them counts.
-/
namespace BlockFetch

/-! ## Tables -/

section

variable {κ α : Type} [Ord κ] [Std.TransOrd κ] [Std.LawfulEqOrd κ] {table : Std.ExtTreeMap κ α}
  {key : κ} {value : α}

theorem insert_eq_self (h : table[key]? = some value) : table.insert key value = table := by
  refine Std.ExtTreeMap.ext_getElem? fun other => ?_
  rw [Std.ExtTreeMap.getElem?_insert]
  split
  · rename_i same
    rw [← Std.LawfulEqOrd.eq_of_compare same, h]
  · rfl

theorem erase_eq_self (h : table[key]? = none) : table.erase key = table := by
  refine Std.ExtTreeMap.ext_getElem? fun other => ?_
  rw [Std.ExtTreeMap.getElem?_erase]
  split
  · rename_i same
    rw [← Std.LawfulEqOrd.eq_of_compare same, h]
  · rfl

theorem insertIfNew_eq_self (h : table[key]? = some value) (other : α) :
    table.insertIfNew key other = table := by
  have present : key ∈ table := Std.ExtTreeMap.isSome_getElem?_iff_mem.mp (by rw [h]; rfl)
  refine Std.ExtTreeMap.ext_getElem? fun _ => ?_
  rw [Std.ExtTreeMap.getElem?_insertIfNew, if_neg fun new => new.2 present]

theorem insert_eq_self_of_mem {set : Std.ExtTreeSet κ} (member : key ∈ set) :
    set.insert key = set := by
  refine Std.ExtTreeSet.ext_mem fun other => ?_
  rw [Std.ExtTreeSet.mem_insert, Std.LawfulEqCmp.compare_eq_iff_eq, or_iff_right_iff_imp]
  exact fun same => same ▸ member

theorem modify_eq_self {change : α → α}
    (h : ∀ value, table[key]? = some value → change value = value) :
    table.modify key change = table := by
  refine Std.ExtTreeMap.ext_getElem? fun other => ?_
  rw [Std.ExtTreeMap.getElem?_modify]
  split
  · rename_i same
    rw [← Std.LawfulEqOrd.eq_of_compare same]
    cases found : table[key]? with
    | none => rfl
    | some value => rw [Option.map_some, h value found]
  · rfl

end

/-! ## Announcements -/

namespace Backlog

/-- Whether a peer is known to have announced a block. -/
def Announced (backlog : Backlog) (block : BlockHash) (peer : PeerAddress) : Prop :=
  ∃ announcers, backlog.announcers[block]? = some announcers ∧ peer ∈ announcers

variable {backlog : Backlog} {block : BlockHash} {peer : PeerAddress}

theorem announced_noteAnnouncement (backlog : Backlog) (block : BlockHash) (peer : PeerAddress) :
    (backlog.noteAnnouncement block peer).Announced block peer :=
  ⟨_, Std.ExtTreeMap.getElem?_insert_self, Std.ExtTreeSet.mem_insert_self⟩

theorem Announced.noteAnnouncement (h : backlog.Announced block peer) (other : BlockHash) :
    (backlog.noteAnnouncement other peer).Announced block peer := by
  by_cases same : other = block
  · subst same
    exact announced_noteAnnouncement ..
  · obtain ⟨announcers, found, member⟩ := h
    refine ⟨announcers, ?_, member⟩
    simp [Backlog.noteAnnouncement, noteIn, Std.ExtTreeMap.getElem?_insert, same, found]

/-- An announcement that is known already is no news. -/
theorem Announced.noteAnnouncement_eq_self (h : backlog.Announced block peer) :
    backlog.noteAnnouncement block peer = backlog := by
  obtain ⟨announcers, found, member⟩ := h
  have same : announcers.insert peer = announcers := insert_eq_self_of_mem member
  have known : noteIn backlog.announcers block peer = backlog.announcers := by
    rw [noteIn, Std.ExtTreeMap.getD_eq_getD_getElem?, found, Option.getD_some, same]
    exact insert_eq_self found
  rw [Backlog.noteAnnouncement, known]

theorem announced_foldl (blocks : List BlockHash) (backlog : Backlog)
    (h : block ∈ blocks ∨ backlog.Announced block peer) :
    (blocks.foldl (fun backlog block => backlog.noteAnnouncement block peer) backlog).Announced
      block peer := by
  induction blocks generalizing backlog with
  | nil => exact h.resolve_left (fun none => nomatch none)
  | cons first rest ih =>
    refine ih _ ?_
    rcases h with here | known
    · rcases List.mem_cons.mp here with rfl | later
      · exact Or.inr (announced_noteAnnouncement ..)
      · exact Or.inl later
    · exact Or.inr (known.noteAnnouncement first)

theorem foldl_noteAnnouncement_eq_self {blocks : List BlockHash} {backlog : Backlog}
    (h : ∀ block ∈ blocks, backlog.Announced block peer) :
    blocks.foldl (fun backlog block => backlog.noteAnnouncement block peer) backlog = backlog := by
  induction blocks with
  | nil => rfl
  | cons first rest ih =>
    obtain ⟨known, others⟩ := List.forall_mem_cons.mp h
    rw [List.foldl_cons, known.noteAnnouncement_eq_self]
    exact ih others

end Backlog

namespace Scheduler

variable {s : Scheduler}

theorem hearAnnounced_repeated (s : Scheduler) (peer : PeerAddress) (blocks : List BlockHash) :
    (s.hearAnnounced peer blocks).hearAnnounced peer blocks = s.hearAnnounced peer blocks := by
  have known : blocks.foldl (fun backlog block => backlog.noteAnnouncement block peer)
      (s.hearAnnounced peer blocks).backlog = (s.hearAnnounced peer blocks).backlog :=
    Backlog.foldl_noteAnnouncement_eq_self fun block named =>
      Backlog.announced_foldl blocks s.backlog (Or.inl named)
  rw [hearAnnounced.eq_1 (s.hearAnnounced peer blocks), known]

/-! ## Peers -/

/-- A peer that is busy or connected need not be told of. -/
theorem hearConnected_eq_self {peer : PeerAddress} {record : Peer}
    (known : s.peers[peer]? = some record)
    (live : (!record.isBusy && record.connection = .disconnected) = false) :
    s.hearConnected peer = s := by
  unfold hearConnected
  simp only [known, live, Bool.false_eq_true, if_false]

theorem hearConnected_repeated (s : Scheduler) (peer : PeerAddress) :
    (s.hearConnected peer).hearConnected peer = s.hearConnected peer := by
  cases known : s.peers[peer]? with
  | none =>
    have step : s.hearConnected peer = { s with peers := s.peers.insert peer .fresh } := by
      simp only [hearConnected, known]
    rw [step]
    exact hearConnected_eq_self Std.ExtTreeMap.getElem?_insert_self rfl
  | some record =>
    by_cases live : (!record.isBusy && record.connection = .disconnected) = false
    · rw [hearConnected_eq_self known live, hearConnected_eq_self known live]
    · rw [Bool.not_eq_false] at live
      have step : s.hearConnected peer = s.modifyPeer peer Peer.reconnect := by
        simp only [hearConnected, known, live, if_true]
      have found : (s.modifyPeer peer Peer.reconnect).peers[peer]? = some record.reconnect :=
        Std.ExtTreeMap.getElem?_modify_self.trans (congrArg _ known)
      rw [step]
      exact hearConnected_eq_self found rfl

theorem hearHandshaked_eq_self {peer : PeerAddress} {record : Peer}
    (known : s.peers[peer]? = some record)
    (done : (if record.isBusy then record else record.handshake) = record) :
    s.hearHandshaked peer = s := by
  have same : s.peers.insertIfNew peer .fresh = s.peers := insertIfNew_eq_self known .fresh
  have kept : s.peers.modify peer (fun record =>
      if record.isBusy then record else record.handshake) = s.peers := by
    refine modify_eq_self fun other found => ?_
    rw [known] at found
    cases found
    exact done
  simp only [hearHandshaked, modifyPeer, same, kept]

theorem hearHandshaked_repeated (s : Scheduler) (peer : PeerAddress) :
    (s.hearHandshaked peer).hearHandshaked peer = s.hearHandshaked peer := by
  obtain ⟨record, known⟩ : ∃ record, (s.peers.insertIfNew peer .fresh)[peer]? = some record := by
    refine Option.isSome_iff_exists.mp ?_
    rw [Std.ExtTreeMap.isSome_getElem?_iff_mem]
    exact Std.ExtTreeMap.mem_insertIfNew_self
  have found : (s.hearHandshaked peer).peers[peer]? =
      some (if record.isBusy then record else record.handshake) :=
    Std.ExtTreeMap.getElem?_modify_self.trans (congrArg _ known)
  refine hearHandshaked_eq_self found ?_
  by_cases busy : record.isBusy = true
  · simp only [busy, if_true]
  · have idle : record.handshake.isBusy = record.isBusy := rfl
    simp only [busy, idle, Bool.false_eq_true, if_false]
    rfl

/-- A peer that is gone, sends nothing and waits for nothing has left nothing to clear up. -/
theorem hearDisconnected_eq_self {peer : PeerAddress} {record : Peer}
    (known : s.peers[peer]? = some record) (settled : record.disconnect.release = record)
    (silent : s.refusals[peer]? = none) (now : Timestamp) : s.hearDisconnected peer now = s := by
  have kept : s.peers.modify peer (fun record => record.disconnect.release) = s.peers := by
    refine modify_eq_self fun other found => ?_
    rw [known] at found
    cases found
    exact settled
  have idle : record.block? = none := by
    rw [← settled, Peer.block?, Peer.transfer?_release, Option.map_none]
  simp only [hearDisconnected, known, idle, detachPeer, modifyPeer, kept, erase_eq_self silent]

/-- A disconnection takes the peer off, whatever it does to the block that the peer held. -/
theorem hearDisconnected_of_known {peer : PeerAddress} {record : Peer}
    (known : s.peers[peer]? = some record) (now : Timestamp) :
    (s.hearDisconnected peer now).peers = (s.detachPeer peer).peers ∧
      (s.hearDisconnected peer now).refusals = (s.detachPeer peer).refusals := by
  simp only [hearDisconnected, known]
  split
  · exact ⟨rfl, rfl⟩
  · split <;> exact ⟨rfl, rfl⟩

theorem hearDisconnected_repeated (s : Scheduler) (peer : PeerAddress) (now : Timestamp) :
    (s.hearDisconnected peer now).hearDisconnected peer now = s.hearDisconnected peer now := by
  cases known : s.peers[peer]? with
  | none =>
    have step : s.hearDisconnected peer now = s := by simp only [hearDisconnected, known]
    rw [step, step]
  | some record =>
    obtain ⟨peers, refusals⟩ := hearDisconnected_of_known known now
    have found : (s.hearDisconnected peer now).peers[peer]? = some record.disconnect.release := by
      rw [peers]
      exact Std.ExtTreeMap.getElem?_modify_self.trans (congrArg _ known)
    refine hearDisconnected_eq_self found ?_ ?_ now
    · unfold Peer.disconnect Peer.release
      by_cases out : record.work = .discarded <;> simp [out]
    · rw [refusals]
      exact Std.ExtTreeMap.getElem?_erase_self

/-! ## Answers and deliveries -/

/-- After its failure nobody holds a block, so the same answer is not one to a request. -/
theorem Staged.hearNotFound_repeated (staged : s.Staged) (peer : PeerAddress)
    (blocks : List BlockHash) (now : Timestamp) :
    (s.hearNotFound peer blocks now).hearNotFound peer blocks now =
      s.hearNotFound peer blocks now := by
  rcases blocks with _ | ⟨block, _ | ⟨_, _⟩⟩
  · rfl
  · by_cases holds : (s.peers[peer]?).bind Peer.block? = some block
    · have step : s.hearNotFound peer [block] now =
          (s.note block (some peer) .notFound now).fail block now := by
        simp only [hearNotFound, holds, if_true]
      obtain ⟨before, inBefore⟩ := staged.stage block
      have held := (inBefore.heldBy peer).mp holds
      cases before with
      | underway custody attempts cancelling =>
        have noted := quiet_note s block (some peer) .notFound now
        have underway := (noted.keeps block).inStage inBefore
        obtain ⟨milestones, passage⟩ := passes_fail now underway
        obtain ⟨after, inAfter, _, ⟨_, failure⟩ | ⟨unnamed, _⟩⟩ :=
          passage.course block _ underway
        · have released : ¬ ((s.hearNotFound peer [block] now).peers[peer]?).bind Peer.block? =
              some block := by
            rw [step]
            intro still
            have holder := (inAfter.heldBy peer).mp still
            generalize milestones block = passed at failure
            cases failure <;> exact holder.elim
          rw [hearNotFound.eq_1 (s.hearNotFound peer [block] now)]
          simp only [released, if_false]
        · exact absurd (List.mem_singleton_self block) unnamed
      | _ => exact held.elim
    · have step : s.hearNotFound peer [block] now = s := by
        simp only [hearNotFound, holds, if_false]
      rw [step, step]
  · rfl

/-- Nobody sends a block that is not wanted any more. -/
theorem Staged.holders_eq_nil (staged : s.Staged) {block : BlockHash}
    (unwanted : s.isUnwanted block = true) : s.holders block = [] := by
  rw [List.eq_nil_iff_forall_not_mem]
  intro holder held
  obtain ⟨stage, inStage⟩ := staged.stage block
  rw [mem_holders, inStage.heldBy] at held
  rcases (isUnwanted_eq inStage).mp unwanted with rfl | rfl <;> exact held

theorem Staged.succeed_of_unwanted (staged : s.Staged) {header : BlockHeader}
    (unwanted : s.isUnwanted header.hash = true) (peer : PeerAddress) (size : UInt64)
    (now : Timestamp) :
    s.succeed peer header size now = { s with partials := s.partials.erase header.hash } := by
  simp only [succeed, unwanted, if_true, freeHolders, staged.holders_eq_nil unwanted,
    List.foldl_nil]

/-- The delivery of a block that is not wanted and of which nothing is kept. -/
theorem Staged.succeed_eq_self (staged : s.Staged) {header : BlockHeader}
    (unwanted : s.isUnwanted header.hash = true) (unread : s.partials[header.hash]? = none)
    (peer : PeerAddress) (size : UInt64) (now : Timestamp) :
    s.succeed peer header size now = s := by
  rw [staged.succeed_of_unwanted unwanted, erase_eq_self unread]

theorem Staged.isUnwanted_succeed (staged : s.Staged) (peer : PeerAddress) (header : BlockHeader)
    (size : UInt64) (now : Timestamp) :
    (s.succeed peer header size now).isUnwanted header.hash = true := by
  obtain ⟨before, inBefore⟩ := staged.stage header.hash
  obtain ⟨milestones, passage⟩ := passes_succeed staged peer header size now
  obtain ⟨after, inAfter, _, ⟨_, delivery⟩ | ⟨unnamed, _⟩⟩ := passage.course header.hash _ inBefore
  · rw [isUnwanted_eq inAfter]
    generalize milestones header.hash = passed at delivery
    cases delivery with
    | unwanted settled => exact settled
    | downloaded => exact Or.inr rfl
  · exact absurd (List.mem_singleton_self header.hash) unnamed

theorem partials_noteDownload (s : Scheduler) (block : BlockHash) (peer : PeerAddress)
    (now : Timestamp) : (s.noteDownload block peer now).partials = s.partials := by
  unfold noteDownload
  split <;> rfl

theorem partials_succeed (s : Scheduler) (peer : PeerAddress) (header : BlockHeader)
    (size : UInt64) (now : Timestamp) :
    (s.succeed peer header size now).partials = s.partials.erase header.hash := by
  unfold succeed
  extract_lets block freed transfer? duration announced delivered
  split
  · rw [← partials_freeHolders s block]
  · have measured : (announced.recordSpeed peer transfer? size now).partials = s.partials := by
      cases transfer? <;> rfl
    have released : delivered.partials = s.partials :=
      (partials_freeHolders _ block).trans measured
    rw [partials_noteDownload, ← released]
    rfl

theorem unread_succeed (s : Scheduler) (peer : PeerAddress) (header : BlockHeader) (size : UInt64)
    (now : Timestamp) : (s.succeed peer header size now).partials[header.hash]? = none := by
  rw [partials_succeed, Std.ExtTreeMap.getElem?_erase_self]

/-- What is left by the delivery of a block, the delivery of the same block leaves alone. -/
theorem Staged.succeed_succeed (staged : s.Staged) (peer : PeerAddress) (header : BlockHeader)
    (size : UInt64) (now : Timestamp) :
    (s.succeed peer header size now).succeed peer header size now =
      s.succeed peer header size now :=
  ((passes_succeed staged peer header size now).staged staged).succeed_eq_self
    (staged.isUnwanted_succeed peer header size now) (unread_succeed s peer header size now) ..

theorem Staged.touch_eq_self (staged : s.Staged) {block : BlockHash}
    (unwanted : s.isUnwanted block = true) (now : Timestamp) : s.touch block now = s := by
  have silent : s.lastActivity[block]? = none := by
    obtain ⟨stage, inStage⟩ := staged.stage block
    rcases (isUnwanted_eq inStage).mp unwanted with rfl | rfl <;>
      exact inStage.lastActivity_eq_none rfl
  have kept : s.lastActivity.modify block (fun _ => now) = s.lastActivity :=
    modify_eq_self fun _ found => nomatch silent.symm.trans found
  rw [touch, kept]

theorem Staged.hearHeader_repeated (staged : s.Staged) (peer : PeerAddress) (header : BlockHeader)
    (size : UInt64) (now : Timestamp) :
    (s.hearHeader peer header size now).hearHeader peer header size now =
      s.hearHeader peer header size now := by
  have touched := (quiet_touch s header.hash now).staged staged
  by_cases empty : header.transactionCount = 0
  · have step : ∀ t : Scheduler, t.hearHeader peer header size now =
        (t.touch header.hash now).succeed peer header size now := by
      intro t
      simp only [hearHeader, empty, if_true]
    have delivered := (passes_succeed touched peer header size now).staged touched
    have unwanted := touched.isUnwanted_succeed peer header size now
    rw [step, step, delivered.touch_eq_self unwanted]
    exact touched.succeed_succeed peer header size now
  · have heard : (s.lastActivity.modify header.hash fun _ => now).modify header.hash
        (fun _ => now) = s.lastActivity.modify header.hash fun _ => now := by
      refine modify_eq_self fun value found => ?_
      rw [Std.ExtTreeMap.getElem?_modify_self, Option.map_eq_some_iff] at found
      obtain ⟨_, _, same⟩ := found
      exact same
    have read : (s.partials.insert header.hash ⟨header, size, 0⟩).insert header.hash
        ⟨header, size, 0⟩ = s.partials.insert header.hash ⟨header, size, 0⟩ :=
      insert_eq_self Std.ExtTreeMap.getElem?_insert_self
    simp only [hearHeader, empty, if_false, touch, heard, read]

theorem Staged.hearLiteBlock_repeated (staged : s.Staged) (peer : PeerAddress)
    (header : BlockHeader) (size : UInt64) (now : Timestamp) :
    (s.hearLiteBlock peer header size now).hearLiteBlock peer header size now =
      s.hearLiteBlock peer header size now := by
  -- Either way the step is a delivery, on books that the announcements before it do not change.
  obtain ⟨t, ready, step⟩ : ∃ t : Scheduler, t.Staged ∧
      s.hearLiteBlock peer header size now = t.succeed peer header size now := by
    unfold hearLiteBlock
    split
    · exact ⟨s, staged, rfl⟩
    · have head : Quiet s (s.publish (.headerDelivered peer header size .scheduler)) :=
        quiet_publish s fun _ => rfl
      have body : Quiet _ ((s.publish (.headerDelivered peer header size .scheduler)).publish
          (.chunkDelivered peer header.hash header.transactionCount .scheduler)) :=
        quiet_publish _ fun _ => rfl
      exact ⟨_, (head.trans body).staged staged, rfl⟩
  have unwanted := ready.isUnwanted_succeed peer header size now
  rw [step]
  simp only [hearLiteBlock, unwanted, if_true]
  exact ready.succeed_succeed peer header size now

/-! ## The end of the session -/

theorem endSession_eq_self (peers : s.peers = ∅) (limbo : s.limbo = ∅) (partials : s.partials = ∅)
    (refusals : s.refusals = ∅) (now : Timestamp) : s.endSession now = s := by
  have grounded : s.inFlight = [] := by
    simp [inFlight, transfers, peers, limbo]
  simp only [endSession, grounded, List.foldl_nil, List.filter_nil]
  have waiting : s.backlog.prepend [] = s.backlog := rfl
  rw [waiting, ← peers, ← limbo, ← partials, ← refusals]

/-! ## All events -/

/-- In every state that can be reached, an event that is heard twice in a row does what it does
once, in all tables, in the journal, on the streams and in the outbox. This goes for all events but
the chunks from the wire. -/
theorem Reachable.hear_hear (h : s.Reachable) {event : NetworkEvent}
    (whole : ∀ peer block transactions, event ≠ .chunkDelivered peer block transactions .wire)
    (now : Timestamp) : (s.hear event now).hear event now = s.hear event now := by
  have staged := h.staged
  cases event with
  | sessionStopped => exact endSession_eq_self rfl rfl rfl rfl now
  | peerConnected peer => exact hearConnected_repeated s peer
  | peerHandshaked peer => exact hearHandshaked_repeated s peer
  | peerDisconnected peer reason => exact hearDisconnected_repeated s peer now
  | blocksAnnounced peer blocks => exact hearAnnounced_repeated s peer blocks
  | blocksNotFound peer blocks => exact staged.hearNotFound_repeated peer blocks now
  | headerDelivered peer header size origin =>
    cases origin with
    | wire => exact staged.hearHeader_repeated peer header size now
    | scheduler => rfl
  | chunkDelivered peer block transactions origin =>
    cases origin with
    | wire => exact absurd rfl (whole peer block transactions)
    | scheduler => rfl
  | liteBlockDelivered peer header size => exact staged.hearLiteBlock_repeated peer header size now
  | rawBlockDelivered peer header size => exact staged.succeed_succeed peer header size now
  | _ => rfl

theorem hear_hear_sending :
    sending.Reachable ∧
      (sending.hear (.peerDisconnected soleSender "gone") ⟨3⟩).hear
          (.peerDisconnected soleSender "gone") ⟨3⟩ =
        sending.hear (.peerDisconnected soleSender "gone") ⟨3⟩ :=
  ⟨reachable_sending, reachable_sending.hear_hear (by simp) ⟨3⟩⟩

end Scheduler
end BlockFetch
