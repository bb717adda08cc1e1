import BlockFetch.Proofs.Independence.Tandem
import BlockFetch.Scheduler.Operation

/-!
# What is done in tandem

Deliveries, failures, cancellations and announcements of blocks do the same in all states that
agree on these blocks and their holders.
-/
namespace BlockFetch.Scheduler

variable {pushes : Bool} {blocks : List BlockHash} {peers : Set PeerAddress} {s t : Scheduler}
  {block : BlockHash} {listed : List BlockHash} {peer : PeerAddress}

/-- A change after which a peer has no transfer gives it no block. -/
theorem keeps_of_transfer?_eq_none {change : Peer → Peer}
    (idle : ∀ record, (change record).transfer? = none) (record : Peer) (block : BlockHash)
    (sends : (change record).block? = some block) : record.block? = some block := by
  rw [Peer.block?, idle] at sends
  contradiction

variable (alike : Alike blocks peers s t)

include alike

/-! ## Peers -/

theorem tandem_freePeer (known : peer ∈ peers) :
    Tandem pushes blocks peers s t (s.freePeer peer) (t.freePeer peer) := by
  have idle := keeps_of_transfer?_eq_none Peer.transfer?_release
  refine (tandem_modifyPeer alike known idle).andThen fun alike => ?_
  refine (tandem_publish alike (.keepAlive peer true)).andThen fun alike => ?_
  exact tandem_resetBuffer alike known

theorem tandem_noteFailure (member : block ∈ blocks) (now : Timestamp) (peer : PeerAddress) :
    Tandem pushes blocks peers s t (s.noteFailure block peer now) (t.noteFailure block peer now) :=
  tandem_of_tables alike member (revises_noteFailure s block now peer)
    (revises_noteFailure t block now peer) rfl rfl

theorem tandem_failHolder (member : block ∈ blocks) (now : Timestamp) (known : peer ∈ peers) :
    Tandem pushes blocks peers s t (s.failHolder block now peer) (t.failHolder block now peer) := by
  have idle := keeps_of_transfer?_eq_none Peer.transfer?_fail
  refine (tandem_modifyPeer alike known idle).andThen fun alike => ?_
  refine (tandem_noteFailure alike member now peer).andThen fun alike => ?_
  refine (tandem_publish alike (.keepAlive peer true)).andThen fun alike => ?_
  exact tandem_resetBuffer alike known

theorem tandem_freeHolders (member : block ∈ blocks) :
    Tandem pushes blocks peers s t (s.freeHolders block) (t.freeHolders block) := by
  unfold freeHolders
  rw [alike.holders member]
  exact .foldl (fun peer holder _ _ alike' =>
    tandem_freePeer alike' (alike.mem_of_mem_holders member holder)) alike

theorem tandem_failHolders (member : block ∈ blocks) (now : Timestamp) :
    Tandem pushes blocks peers s t (s.failHolders block now) (t.failHolders block now) := by
  unfold failHolders
  rw [alike.holders member]
  exact .foldl (fun peer holder _ _ alike' =>
    tandem_failHolder alike' member now (alike.mem_of_mem_holders member holder)) alike

/-! ## Tables -/

theorem tandem_note (member : block ∈ blocks) (now : Timestamp)
    (peer? : Option PeerAddress) (note : Note) :
    Tandem pushes blocks peers s t (s.note block peer? note now) (t.note block peer? note now) := by
  have right := revises_note t block now peer? note
  rw [alike.recording] at right
  exact tandem_of_tables alike member (revises_note s block now peer? note) right
    (frame_note ..) (frame_note ..)

theorem tandem_touch (member : block ∈ blocks) (now : Timestamp) :
    Tandem pushes blocks peers s t (s.touch block now) (t.touch block now) :=
  tandem_of_tables alike member (revises_touch s block now) (revises_touch t block now) rfl rfl

theorem tandem_endAttempt (member : block ∈ blocks) :
    Tandem pushes blocks peers s t (s.endAttempt block) (t.endAttempt block) :=
  tandem_of_tables alike member (revises_endAttempt s block) (revises_endAttempt t block) rfl rfl

theorem tandem_eraseCancelling (member : block ∈ blocks) :
    Tandem pushes blocks peers s t { s with cancelling := s.cancelling.erase block }
      { t with cancelling := t.cancelling.erase block } :=
  tandem_of_tables alike member (revises_eraseCancelling s block)
    (revises_eraseCancelling t block) rfl rfl

theorem tandem_markCancelled (member : block ∈ blocks) (now : Timestamp) :
    Tandem pushes blocks peers s t (s.markCancelled block now) (t.markCancelled block now) := by
  have right := revises_markCancelled t block now
  rw [alike.recording] at right
  exact tandem_of_revises alike member (Deeds.within_take member)
    (revises_markCancelled s block now) right (frame_note ..) (frame_note ..)

/-! ## Failure -/

/-- Only here a block is pushed to the front of the queue. -/
theorem tandem_requeue (member : block ∈ blocks) (now : Timestamp) :
    Tandem true blocks peers s t (s.requeue block now) (t.requeue block now) := by
  have right := revises_requeue t block now
  rw [alike.recording] at right
  have within : (Deeds.mk [.push block] 1 []).Within true blocks := by
    intro edit listed
    rw [List.mem_singleton.mp listed]
    exact ⟨member, fun _ => rfl⟩
  exact tandem_of_revises alike member within (revises_requeue s block now) right
    (frame_note ..) (frame_note ..)

theorem tandem_discardBlock (member : block ∈ blocks) (now : Timestamp) :
    Tandem pushes blocks peers s t (s.discardBlock block now) (t.discardBlock block now) := by
  have right := revises_discardBlock t block now
  simp only [discardBlock, alike.recording, alike.attemptsOn member] at right ⊢
  refine Tandem.andThen ?_ fun alike => tandem_publish alike _
  exact tandem_of_revises alike member (Deeds.within_take member)
    (revises_discardBlock s block now) right (frame_note ..) (frame_note ..)

theorem tandem_fail (member : block ∈ blocks) (now : Timestamp) :
    Tandem true blocks peers s t (s.fail block now) (t.fail block now) := by
  refine (tandem_failHolders alike member now).andThen fun alike => ?_
  refine (tandem_endAttempt alike member).andThen fun alike => ?_
  refine .ite (by rw [alike.cancelling member]) (fun _ => ?_) fun _ =>
    .ite (by rw [alike.attemptsOn member, alike.settings]) (fun _ => ?_) fun _ => ?_
  · refine (tandem_eraseCancelling alike member).andThen fun alike => ?_
    exact tandem_markCancelled alike member now
  · exact tandem_requeue alike member now
  · exact tandem_discardBlock alike member now

/-! ## Delivery -/

theorem tandem_recordSpeed (now : Timestamp) {transfer? : Option Transfer}
    (known : ∀ transfer, transfer? = some transfer → peer ∈ peers) (size : UInt64) :
    Tandem pushes blocks peers s t (s.recordSpeed peer transfer? size now)
      (t.recordSpeed peer transfer? size now) := by
  cases transfer? with
  | none => exact .refl alike
  | some transfer => exact tandem_modifyPeer alike (known transfer rfl) fun _ _ sends => sends

theorem tandem_markDownloaded (member : block ∈ blocks) :
    Tandem pushes blocks peers s t (s.markDownloaded block) (t.markDownloaded block) :=
  tandem_of_revises alike member (Deeds.within_take member) (revises_markDownloaded s block)
    (revises_markDownloaded t block) rfl rfl

theorem tandem_noteDownload (member : block ∈ blocks) (now : Timestamp)
    (peer : PeerAddress) :
    Tandem pushes blocks peers s t (s.noteDownload block peer now)
      (t.noteDownload block peer now) := by
  refine .ite (by rw [alike.settings]) (fun _ => ?_) fun _ => ?_
  · exact tandem_of_tables alike member (revises_clearJournal s block)
      (revises_clearJournal t block) rfl rfl
  · exact tandem_note alike member now (some peer) .downloaded

theorem tandem_succeed (now : Timestamp) (peer : PeerAddress) {header : BlockHeader}
    (member : header.hash ∈ blocks) (size : UInt64) :
    Tandem pushes blocks peers s t (s.succeed peer header size now)
      (t.succeed peer header size now) := by
  refine .ite (by rw [alike.isUnwanted member]) (fun _ => ?_) fun _ => ?_
  · refine (tandem_freeHolders alike member).andThen fun alike => ?_
    exact tandem_of_tables alike member
      (revises_erasePartial (s.freeHolders header.hash) header.hash)
      (revises_erasePartial (t.freeHolders header.hash) header.hash) rfl rfl
  · have known : ∀ transfer, s.transferOf? peer header.hash = some transfer → peer ∈ peers :=
      fun _ => alike.mem_of_transferOf? member
    rw [alike.transferOf? member]
    refine (tandem_publish alike (.blockDownloaded peer header size
      (((s.transferOf? peer header.hash).map fun transfer => transfer.elapsed now).getD
        0))).andThen fun alike => ?_
    refine (tandem_recordSpeed alike now known size).andThen fun alike => ?_
    refine (tandem_freeHolders alike member).andThen fun alike => ?_
    refine (tandem_markDownloaded alike member).andThen fun alike => ?_
    exact tandem_noteDownload alike member now peer

/-! ## Notices and requests -/

theorem tandem_hearHeader (now : Timestamp) (peer : PeerAddress) {header : BlockHeader}
    (member : header.hash ∈ blocks) (size : UInt64) (complete : header.transactionCount = 0) :
    Tandem pushes blocks peers s t (s.hearHeader peer header size now)
      (t.hearHeader peer header size now) := by
  simp only [hearHeader, if_pos complete]
  exact (tandem_touch alike member now).andThen fun alike =>
    tandem_succeed alike now peer member size

theorem tandem_hearLiteBlock (now : Timestamp) (peer : PeerAddress) {header : BlockHeader}
    (member : header.hash ∈ blocks) (size : UInt64) :
    Tandem pushes blocks peers s t (s.hearLiteBlock peer header size now)
      (t.hearLiteBlock peer header size now) := by
  refine .ite (by rw [alike.isUnwanted member]) (fun _ => ?_) fun _ => ?_
  · exact tandem_succeed alike now peer member size
  · refine (tandem_publish alike (.headerDelivered peer header size .scheduler)).andThen
      fun alike => ?_
    refine (tandem_publish alike
      (.chunkDelivered peer header.hash header.transactionCount .scheduler)).andThen fun alike => ?_
    exact tandem_succeed alike now peer member size

theorem tandem_cancelBlock (member : block ∈ blocks) (now : Timestamp) :
    Tandem pushes blocks peers s t (s.cancelBlock now block) (t.cancelBlock now block) := by
  refine .ite (by rw [alike.isUnwanted member]) (fun _ => .refl alike) fun _ =>
    .ite (by rw [alike.isInFlight member]) (fun _ => ?_) fun _ => ?_
  · have asked : Tandem pushes blocks peers s t
        { s with cancelling := s.cancelling.insert block }
        { t with cancelling := t.cancelling.insert block } :=
      tandem_of_tables alike member (revises_insertCancelling s block)
        (revises_insertCancelling t block) rfl rfl
    refine asked.andThen fun alike => ?_
    exact tandem_note alike member now none .cancelAsked
  · exact tandem_markCancelled alike member now

theorem tandem_hearAnnounced (peer : PeerAddress) (known : ∀ block ∈ listed, block ∈ blocks) :
    Tandem pushes blocks peers s t (s.hearAnnounced peer listed) (t.hearAnnounced peer listed) := by
  induction listed generalizing s t with
  | nil => exact .refl alike
  | cons block rest ih =>
    have announced : Tandem pushes blocks peers s t
        { s with backlog := s.backlog.noteAnnouncement block peer }
        { t with backlog := t.backlog.noteAnnouncement block peer } :=
      tandem_of_tables alike (known block List.mem_cons_self)
        (revises_noteAnnouncement s block peer) (revises_noteAnnouncement t block peer) rfl rfl
    exact announced.andThen fun alike =>
      ih alike fun block inRest => known block (List.mem_cons_of_mem _ inRest)

theorem tandem_hearNotFound (now : Timestamp) (peer : PeerAddress)
    (known : ∀ block ∈ listed, block ∈ blocks) :
    Tandem true blocks peers s t (s.hearNotFound peer listed now)
      (t.hearNotFound peer listed now) := by
  unfold hearNotFound
  split
  · rename_i block
    have member := known block List.mem_cons_self
    refine .ite (alike.blockAt?_iff member) (fun _ => ?_) fun _ => .refl alike
    refine (tandem_note alike member now (some peer) .notFound).andThen fun alike => ?_
    exact tandem_fail alike member now
  · exact .refl alike

theorem tandem_cancel (now : Timestamp) (known : ∀ block ∈ listed, block ∈ blocks) :
    Tandem pushes blocks peers s t (s.cancel listed now) (t.cancel listed now) :=
  .foldl (fun block inList _ _ alike => tandem_cancelBlock alike (known block inList) now) alike

end BlockFetch.Scheduler
