import BlockFetch.Proofs.Lifecycle.SessionEnd

/-!
# Notices

The passage of each event on the bus. Most events leave all blocks where they are; a disconnection
loses the block that the peer held, and an answer of the peer that holds a block ends its attempt.
-/
namespace BlockFetch

inductive Loss (peer : PeerAddress) : Rule where
  | lost {block custody attempts cancelling} (holder : custody.holder? = some peer) :
      Loss peer block (.underway custody attempts cancelling) []
        (.underway .adrift attempts cancelling)
  | still {block stage} : Loss peer block stage [] stage

namespace Scheduler

variable {s : Scheduler}

/-! ## Peers -/

theorem quiet_hearConnected (staged : s.Staged) (peer : PeerAddress) :
    Quiet s (s.hearConnected peer) := by
  unfold hearConnected
  split
  · rename_i unknown
    refine ⟨.of_links (.insert rfl fun _ => Peer.linked_fresh), fun other => ?_⟩
    simp only [blockAt?, Std.ExtTreeMap.getElem?_insert, Std.LawfulEqCmp.compare_eq_iff_eq]
    split
    · rename_i same
      rw [← same, unknown]
      rfl
    · rfl
  · rename_i record known
    split
    · rename_i gone
      have idle : record.transfer? = none :=
        (staged.linked peer record known).transfer?_eq_none_of_not_isBusy (by simp_all)
      have free : s.blockAt? peer = none := by
        rw [blockAt?, known, Option.bind_some, Peer.block?, idle, Option.map_none]
      have books := sameBooks_modifyPeer s peer fun record _ => record.linked_reconnect
      exact quiet_of_blockAt?_eq_none books free fun other =>
        blockAt?_modifyPeer_of_block?_eq_none s peer other fun _ => rfl
    · exact Quiet.refl s

theorem quiet_hearHandshaked (s : Scheduler) (peer : PeerAddress) :
    Quiet s (s.hearHandshaked peer) := by
  have known : Quiet s { s with peers := s.peers.insertIfNew peer .fresh } := by
    refine ⟨.of_links fun linked other record found => ?_, fun other => ?_⟩
    · rw [Std.ExtTreeMap.getElem?_insertIfNew] at found
      split at found
      · cases found
        exact Peer.linked_fresh
      · exact linked other record found
    simp only [blockAt?, Std.ExtTreeMap.getElem?_insertIfNew, Std.LawfulEqCmp.compare_eq_iff_eq]
    split
    · rename_i new
      rw [← new.1, Std.ExtTreeMap.getElem?_eq_none new.2]
      rfl
    · rfl
  exact known.trans (quiet_modifyPeer _ peer (fun _ link => by split; exacts [link, link.handshake])
    fun record => by split <;> rfl)

/-- A peer that is gone holds nothing. -/
theorem moves_detachPeer {peer : PeerAddress} {block : BlockHash} {custody : Custody}
    {attempts : Nat} {cancelling : Bool}
    (h : s.InStage block (.underway custody attempts cancelling))
    (holder : custody.holder? = some peer) :
    Moves s (s.detachPeer peer) block []
      { inLimbo := custody.inLimbo, cancelling, watched := true, attempts? := some attempts } := by
  refine (sameBooks_detachPeer s peer).moves_of_released (fun other => ?_) h
  have holds : s.blockAt? other = some block ↔ peer = other := by
    rw [h.heldBy]
    exact (iff_of_eq (congrArg (· = some other) holder)).trans Option.some_inj
  rw [blockAt?_detachPeer]
  simp only [holds]

/-- A block that nobody holds any more is in limbo afterwards, if it was not before. -/
theorem moves_lose (peer : PeerAddress) (now : Timestamp) {block : BlockHash} {inLimbo : Bool}
    {cancelling : Bool} {attempts? : Option Nat}
    (h : s.standing block = { inLimbo, cancelling, watched := true, attempts? }) :
    Moves s (if s.limbo.contains block then s.noteFailure block peer now
        else s.moveToLimbo peer block .disconnected now) block []
      { inLimbo := true, cancelling, watched := true, attempts? } := by
  have limbo : s.limbo.contains block = inLimbo := congrArg Standing.inLimbo h
  rw [limbo]
  cases inLimbo with
  | true => exact (quiet_noteFailure s block peer now).moves h
  | false => exact moves_moveToLimbo peer .disconnected now h

theorem passes_hearDisconnected (staged : s.Staged) (peer : PeerAddress) (now : Timestamp) :
    Passes (Loss peer) s (s.hearDisconnected peer now) := by
  unfold hearDisconnected
  split
  · exact (Quiet.refl s).passes fun _ _ => .still
  · rename_i record known
    have holds : s.blockAt? peer = record.block? := by rw [blockAt?, known, Option.bind_some]
    split
    · rename_i idle
      have left := quiet_of_blockAt?_eq_none (sameBooks_detachPeer s peer) (holds.trans idle)
        (blockAt?_detachPeer s peer)
      exact left.passes fun _ _ => .still
    · rename_i block sends
      obtain ⟨stage, h⟩ := staged.stage block
      rw [sends, h.heldBy] at holds
      cases stage with
      | underway custody attempts cancelling =>
        have left := moves_detachPeer h holds
        have lost := left.trans (moves_lose peer now left.standing)
        rw [← Stage.standing_adrift] at lost
        exact lost.passes h (.lost holds) fun _ _ _ => .still
      | _ => exact holds.elim

theorem passes_hearNotFound (staged : s.Staged) (peer : PeerAddress) (blocks : List BlockHash)
    (now : Timestamp) :
    Passes ((Failure s.settings.maxAttempts.toNat now).orStill.limitedTo blocks) s
      (s.hearNotFound peer blocks now) := by
  unfold hearNotFound
  split
  · rename_i block
    split
    · rename_i holds
      obtain ⟨stage, h⟩ := staged.stage block
      have held := (h.heldBy peer).mp holds
      cases stage with
      | underway custody attempts cancelling =>
        have noted := quiet_note s block (some peer) .notFound now
        have failed := noted.trans_passes (passes_fail now ((noted.keeps block).inStage h))
        exact failed.limitedTo_orStill
      | _ => exact held.elim
    · exact (Quiet.refl s).passes fun _ _ => Rule.limitedTo_orStill
  · exact (Quiet.refl s).passes fun _ _ => Rule.limitedTo_orStill

/-! ## Deliveries -/

theorem Quiet.passes_succeed {t : Scheduler} (quiet : Quiet s t) (staged : s.Staged)
    (peer : PeerAddress) (header : BlockHeader) (size : UInt64) (now : Timestamp) :
    Passes (Delivery.limitedTo [header.hash]) s (t.succeed peer header size now) :=
  quiet.trans_passes (Scheduler.passes_succeed (quiet.staged staged) peer header size now)

theorem passes_hearHeader (staged : s.Staged) (peer : PeerAddress) (header : BlockHeader)
    (size : UInt64) (now : Timestamp) :
    Passes (Delivery.orStill.limitedTo [header.hash]) s (s.hearHeader peer header size now) := by
  have heard := quiet_touch s header.hash now
  unfold hearHeader
  extract_lets touched
  split
  · exact (heard.passes_succeed staged peer header size now).limitedTo_orStill
  · exact (heard.trans (quiet_setPartials _ _)).passes fun _ _ => Rule.limitedTo_orStill

/-- Transactions of a block complete the block with whose header they are counted, if any. -/
theorem passes_hearChunk (staged : s.Staged) (peer : PeerAddress) (block : BlockHash)
    (transactions : UInt64) (now : Timestamp) :
    Passes (Delivery.orStill.limitedTo ((s.partials[block]?).map fun part => part.header.hash).toList) s
      (s.hearChunk peer block transactions now) := by
  unfold hearChunk
  split
  · exact (Quiet.refl s).passes fun _ _ => Rule.limitedTo_orStill
  · rename_i part found
    have heard := quiet_touch s block now
    rw [found]
    extract_lets received touched
    split
    · exact ((heard.trans (quiet_setPartials _ _)).passes_succeed staged peer part.header part.size
        now).limitedTo_orStill
    · exact (heard.trans (quiet_setPartials _ _)).passes fun _ _ => Rule.limitedTo_orStill

theorem passes_hearLiteBlock (staged : s.Staged) (peer : PeerAddress) (header : BlockHeader)
    (size : UInt64) (now : Timestamp) :
    Passes (Delivery.limitedTo [header.hash]) s (s.hearLiteBlock peer header size now) := by
  unfold hearLiteBlock
  split
  · exact passes_succeed staged peer header size now
  · have head : Quiet s (s.publish (.headerDelivered peer header size .scheduler)) :=
      quiet_publish s fun _ => rfl
    have body : Quiet _ ((s.publish (.headerDelivered peer header size .scheduler)).publish
        (.chunkDelivered peer header.hash header.transactionCount .scheduler)) :=
      quiet_publish _ fun _ => rfl
    exact (head.trans body).passes_succeed staged peer header size now

end Scheduler
end BlockFetch
