import BlockFetch.Proofs.Lifecycle.SessionEnd
import BlockFetch.Proofs.Lifecycle.Ticks

/-!
# Steps that give no work

Only the turns of the peers in a tick give them work. All other steps take work away at most, and
most of them leave a peer that could take work as it is, together with the reasons why it got none
at its last turn.
-/
namespace BlockFetch

def NetworkEvent.isRequest : NetworkEvent → Bool
  | .blockRequested .. => true
  | _ => false

namespace Peer

variable {peer : Peer}

theorem task?_eq_none (h : peer.transfer? = none) : peer.task? = none := by
  rw [task?, h, Option.map_none]

theorem task?_release (peer : Peer) : peer.release.task? = none :=
  task?_eq_none peer.transfer?_release

theorem task?_fail (peer : Peer) : peer.fail.task? = none :=
  task?_eq_none peer.transfer?_fail

theorem isAvailable_release (h : peer.isAvailable = true) : peer.release.isAvailable = true := by
  simp only [isAvailable, isHandshaked, Bool.and_eq_true, decide_eq_true_eq] at h
  simp [release, isAvailable, isHandshaked, h.1, h.2]

end Peer

namespace Scheduler

def taskAt? (s : Scheduler) (peer : PeerAddress) : Option (BlockHash × Nat) :=
  (s.peers[peer]?).bind Peer.task?

def IsAvailableAt (s : Scheduler) (peer : PeerAddress) : Prop :=
  ∃ record, s.peers[peer]? = some record ∧ record.isAvailable = true

/-- Whether the peer at an address can be given a block, and has no transfer. -/
def IsFreeAt (s : Scheduler) (peer : PeerAddress) : Prop :=
  ∃ record, s.peers[peer]? = some record ∧ record.isAvailable = true ∧ record.transfer? = none

def requestTotal (s : Scheduler) : Nat :=
  s.events.countP NetworkEvent.isRequest

/-- A step gives no peer work and asks for no block. -/
structure Eases (s t : Scheduler) : Prop where
  settings : t.settings = s.settings
  tasks : ∀ peer task, t.taskAt? peer = some task → s.taskAt? peer = some task
  requests : t.requestTotal = s.requestTotal

/-- A step gives no peer work and leaves those alone that could take some. -/
structure Spares (s t : Scheduler) : Prop extends Eases s t where
  free : ∀ peer, s.IsFreeAt peer → t.IsFreeAt peer
  refusals : t.refusals = s.refusals

variable {s t u : Scheduler}

theorem Staged.isFreeAt (staged : s.Staged) {peer : PeerAddress} (h : s.IsAvailableAt peer) :
    s.IsFreeAt peer := by
  obtain ⟨record, known, available⟩ := h
  exact ⟨record, known, available,
    (staged.linked peer record known).transfer?_eq_none_of_isAvailable available⟩

theorem Eases.trans (first : Eases s t) (second : Eases t u) : Eases s u where
  settings := second.settings.trans first.settings
  tasks peer task working := first.tasks peer task (second.tasks peer task working)
  requests := second.requests.trans first.requests

namespace Spares

theorem refl (s : Scheduler) : Spares s s where
  settings := rfl
  tasks _ _ working := working
  requests := rfl
  free _ h := h
  refusals := rfl

theorem trans (first : Spares s t) (second : Spares t u) : Spares s u where
  toEases := first.toEases.trans second.toEases
  free peer h := second.free peer (first.free peer h)
  refusals := second.refusals.trans first.refusals

theorem foldl {α : Type} {step : Scheduler → α → Scheduler} (h : ∀ s a, Spares s (step s a))
    (items : List α) (s : Scheduler) : Spares s (items.foldl step s) := by
  induction items generalizing s with
  | nil => exact refl s
  | cons item rest ih => exact (h s item).trans (ih (step s item))

theorem of_tables (settings : t.settings = s.settings) (peers : t.peers = s.peers)
    (refusals : t.refusals = s.refusals) (outbox : t.outbox = s.outbox) : Spares s t where
  settings := settings
  tasks peer task working := by rwa [taskAt?, peers] at working
  requests := by rw [requestTotal, requestTotal, events, events, outbox]
  free peer h := by rwa [IsFreeAt, peers]
  refusals := refusals

end Spares

/-! ## Small steps -/

theorem requestTotal_publish (s : Scheduler) (event : NetworkEvent) :
    (s.publish event).requestTotal = s.requestTotal + event.isRequest.toNat := by
  unfold requestTotal events publish
  rw [List.filterMap_append, List.countP_append]
  cases asks : event.isRequest <;> simp [Effect.event?, asks]

theorem requestTotal_growBuffer (s : Scheduler) (peer : PeerAddress) :
    (s.growBuffer peer).requestTotal = s.requestTotal := by
  simp [requestTotal, events, growBuffer, Effect.event?]

theorem requestTotal_resetBuffer (s : Scheduler) (peer : PeerAddress) :
    (s.resetBuffer peer).requestTotal = s.requestTotal := by
  simp [requestTotal, events, resetBuffer, Effect.event?]

theorem spares_publish (s : Scheduler) {event : NetworkEvent} (h : event.isRequest = false) :
    Spares s (s.publish event) where
  settings := rfl
  tasks _ _ working := working
  requests := by rw [requestTotal_publish, h, Bool.toNat_false, Nat.add_zero]
  free _ h := h
  refusals := rfl

theorem spares_resetBuffer (s : Scheduler) (peer : PeerAddress) :
    Spares s (s.resetBuffer peer) where
  settings := rfl
  tasks _ _ working := working
  requests := requestTotal_resetBuffer s peer
  free _ h := h
  refusals := rfl

theorem taskAt?_modifyPeer (s : Scheduler) (peer other : PeerAddress) (change : Peer → Peer) :
    (s.modifyPeer peer change).taskAt? other =
      if peer = other then (s.peers[other]?).bind fun record => (change record).task?
      else s.taskAt? other :=
  s.bind_modifyPeer peer other change Peer.task?

theorem taskAt?_assign {peer : PeerAddress} {record : Peer} {block : BlockHash}
    (known : s.peers[peer]? = some record) (now : Timestamp) (other : PeerAddress) :
    (s.assign peer block now).taskAt? other =
      if peer = other then some (block, s.backlog.attemptsOn block + 1) else s.taskAt? other := by
  have same : (s.assign peer block now).peers =
      (s.modifyPeer peer fun record =>
        record.start block ((s.backlog.beginAttempt block).attemptsOn block) now).peers := rfl
  rw [taskAt?, same]
  change (s.modifyPeer peer _).taskAt? other = _
  rw [taskAt?_modifyPeer]
  split
  · rename_i here
    rw [← here, known, Backlog.attemptsOn_beginAttempt_self]
    rfl
  · rfl

theorem eases_modifyPeer (s : Scheduler) (peer : PeerAddress) {change : Peer → Peer}
    (h : ∀ record task, (change record).task? = some task → record.task? = some task) :
    Eases s (s.modifyPeer peer change) where
  settings := rfl
  tasks other task working := by
    rw [taskAt?_modifyPeer] at working
    split at working
    · rw [Option.bind_eq_some_iff] at working
      obtain ⟨record, known, works⟩ := working
      rw [taskAt?, known]
      exact h record task works
    · exact working
  requests := rfl

theorem IsFreeAt.modifyPeer_of_ne {peer other : PeerAddress} (h : s.IsFreeAt other)
    (different : peer ≠ other) (change : Peer → Peer) :
    (s.modifyPeer peer change).IsFreeAt other := by
  obtain ⟨record, known, free⟩ := h
  refine ⟨record, ?_, free⟩
  rw [← known, Scheduler.modifyPeer, Std.ExtTreeMap.getElem?_modify]
  simp [different]

theorem spares_modifyPeer (s : Scheduler) (peer : PeerAddress) {change : Peer → Peer}
    (tasks : ∀ record task, (change record).task? = some task → record.task? = some task)
    (stays : ∀ record, s.peers[peer]? = some record → record.isAvailable = true →
      record.transfer? = none →
        (change record).isAvailable = true ∧ (change record).transfer? = none) :
    Spares s (s.modifyPeer peer change) where
  toEases := eases_modifyPeer s peer tasks
  free other h := by
    by_cases same : peer = other
    · subst same
      obtain ⟨record, known, available, none⟩ := h
      refine ⟨change record, ?_, stays record known available none⟩
      exact Std.ExtTreeMap.getElem?_modify_self.trans (congrArg _ known)
    · exact h.modifyPeer_of_ne same change
  refusals := rfl

/-! ## Peers that end their work -/

theorem spares_freePeer (s : Scheduler) (peer : PeerAddress) : Spares s (s.freePeer peer) := by
  have released : Spares s (s.modifyPeer peer Peer.release) :=
    spares_modifyPeer s peer
      (fun record task works => nomatch record.task?_release.symm.trans works)
      fun _ _ available _ => ⟨Peer.isAvailable_release available, rfl⟩
  exact (released.trans (spares_publish _ rfl)).trans (spares_resetBuffer _ peer)

theorem spares_freeHolders (s : Scheduler) (block : BlockHash) : Spares s (s.freeHolders block) :=
  Spares.foldl spares_freePeer _ s

theorem spares_failHolder (s : Scheduler) (block : BlockHash) (now : Timestamp)
    (peer : PeerAddress) : Spares s (s.failHolder block now peer) := by
  have failed : Spares s (s.modifyPeer peer Peer.fail) := by
    refine spares_modifyPeer s peer
      (fun record task works => nomatch record.task?_fail.symm.trans works)
      fun record _ available none => ⟨?_, record.transfer?_fail⟩
    rw [Peer.fail, none]
    exact Peer.isAvailable_release available
  have noted : Spares (s.modifyPeer peer Peer.fail)
      ((s.modifyPeer peer Peer.fail).noteFailure block peer now) := by
    apply Spares.of_tables <;> rfl
  exact ((failed.trans noted).trans (spares_publish _ rfl)).trans (spares_resetBuffer _ peer)

theorem spares_failHolders (s : Scheduler) (block : BlockHash) (now : Timestamp) :
    Spares s (s.failHolders block now) :=
  Spares.foldl (fun s peer => spares_failHolder s block now peer) _ s

/-! ## Ends of attempts -/

theorem spares_endAttempt (s : Scheduler) (block : BlockHash) : Spares s (s.endAttempt block) := by
  apply Spares.of_tables <;> rfl

theorem spares_markCancelled (s : Scheduler) (block : BlockHash) (now : Timestamp) :
    Spares s (s.markCancelled block now) := by
  apply Spares.of_tables <;> rfl

theorem spares_discardBlock (s : Scheduler) (block : BlockHash) (now : Timestamp) :
    Spares s (s.discardBlock block now) := by
  have told : Spares _ (s.discardBlock block now) := spares_publish _ rfl
  refine Spares.trans ?_ told
  apply Spares.of_tables <;> rfl

theorem spares_fail (s : Scheduler) (block : BlockHash) (now : Timestamp) :
    Spares s (s.fail block now) := by
  have aborted := (spares_failHolders s block now).trans (spares_endAttempt _ block)
  refine aborted.trans ?_
  unfold fail
  extract_lets ended
  split
  · have spared : Spares ended { ended with cancelling := ended.cancelling.erase block } := by
      apply Spares.of_tables <;> rfl
    exact spared.trans (spares_markCancelled _ block now)
  · split
    · apply Spares.of_tables <;> rfl
    · exact spares_discardBlock _ block now

theorem spares_noteDownload (s : Scheduler) (block : BlockHash) (peer : PeerAddress)
    (now : Timestamp) : Spares s (s.noteDownload block peer now) := by
  unfold noteDownload
  split <;> apply Spares.of_tables <;> rfl

theorem spares_recordSpeed (s : Scheduler) (peer : PeerAddress) (transfer? : Option Transfer)
    (size : UInt64) (now : Timestamp) : Spares s (s.recordSpeed peer transfer? size now) := by
  cases transfer? with
  | none => exact Spares.refl s
  | some transfer =>
    exact spares_modifyPeer s peer (fun _ _ works => works)
      fun _ _ available none => ⟨available, none⟩

theorem spares_succeed (s : Scheduler) (peer : PeerAddress) (header : BlockHeader) (size : UInt64)
    (now : Timestamp) : Spares s (s.succeed peer header size now) := by
  unfold succeed
  extract_lets block freed transfer? duration announced delivered
  split
  · have forgotten : Spares freed { freed with partials := freed.partials.erase block } := by
      apply Spares.of_tables <;> rfl
    exact (spares_freeHolders s block).trans forgotten
  · have told : Spares s announced := spares_publish s rfl
    have measured := told.trans (spares_recordSpeed announced peer transfer? size now)
    have released := measured.trans (spares_freeHolders _ block)
    have marked : Spares delivered (delivered.markDownloaded block) := by
      apply Spares.of_tables <;> rfl
    exact (released.trans marked).trans (spares_noteDownload _ block peer now)

theorem spares_cancelNow (s : Scheduler) (block : BlockHash) (now : Timestamp) :
    Spares s (s.cancelNow block now) := by
  have ended := (spares_freeHolders s block).trans (spares_endAttempt _ block)
  unfold cancelNow
  extract_lets freed
  have spared : Spares freed { freed with cancelling := freed.cancelling.erase block } := by
    apply Spares.of_tables <;> rfl
  exact (ended.trans spared).trans (spares_markCancelled _ block now)

theorem spares_moveToLimbo (s : Scheduler) (peer : PeerAddress) (block : BlockHash) (stall : Stall)
    (now : Timestamp) : Spares s (s.moveToLimbo peer block stall now) := by
  apply Spares.of_tables <;> rfl

/-! ## Notices -/

theorem spares_hearConnected (s : Scheduler) (peer : PeerAddress) :
    Spares s (s.hearConnected peer) := by
  unfold hearConnected
  split
  · rename_i unknown
    refine ⟨⟨rfl, fun other task working => ?_, rfl⟩, ?_, rfl⟩
    · simp only [taskAt?, Std.ExtTreeMap.getElem?_insert, Std.LawfulEqCmp.compare_eq_iff_eq]
        at working
      split at working
      · exact nomatch working
      · exact working
    · rintro other ⟨record, known, free⟩
      refine ⟨record, ?_, free⟩
      have different : peer ≠ other := by
        rintro rfl
        exact nomatch unknown.symm.trans known
      simp [Std.ExtTreeMap.getElem?_insert, different, known]
  · rename_i record known
    split
    · rename_i gone
      simp only [Bool.and_eq_true, Bool.not_eq_true', decide_eq_true_eq] at gone
      refine spares_modifyPeer s peer (fun _ _ works => (nomatch works)) ?_
      intro other found available _
      rw [known] at found
      cases found
      simp [Peer.isAvailable, Peer.isHandshaked, gone.2] at available
    · exact Spares.refl s

theorem spares_hearHandshaked (s : Scheduler) (peer : PeerAddress) :
    Spares s (s.hearHandshaked peer) := by
  have known : Spares s { s with peers := s.peers.insertIfNew peer .fresh } := by
    refine ⟨⟨rfl, fun other task working => ?_, rfl⟩, ?_, rfl⟩
    · simp only [taskAt?, Std.ExtTreeMap.getElem?_insertIfNew] at working
      split at working
      · exact nomatch working
      · exact working
    · rintro other ⟨record, known, free⟩
      refine ⟨record, ?_, free⟩
      have present : other ∈ s.peers := by
        rw [← Std.ExtTreeMap.isSome_getElem?_iff_mem, known]
        rfl
      rw [← known]
      change (s.peers.insertIfNew peer .fresh)[other]? = _
      rw [Std.ExtTreeMap.getElem?_insertIfNew, if_neg]
      rintro ⟨same, new⟩
      exact new (Std.LawfulEqOrd.eq_of_compare same ▸ present)
  refine known.trans
    (spares_modifyPeer _ peer (fun record task works => ?_) fun record _ available none => ?_)
  · split at works <;> exact works
  · split
    · exact ⟨available, none⟩
    · simp only [Peer.isAvailable, Bool.and_eq_true] at available ⊢
      exact ⟨⟨rfl, available.2⟩, none⟩

theorem eases_detachPeer (s : Scheduler) (peer : PeerAddress) : Eases s (s.detachPeer peer) :=
  have released : Eases s (s.modifyPeer peer fun record => record.disconnect.release) :=
    eases_modifyPeer s peer fun record _ works =>
      nomatch record.disconnect.task?_release.symm.trans works
  ⟨released.settings, released.tasks, released.requests⟩

/-- A disconnection takes the peer off its connection; what follows concerns its block only. -/
theorem spares_hearDisconnected_of_known {peer : PeerAddress} {record : Peer}
    (known : s.peers[peer]? = some record) (now : Timestamp) :
    Spares (s.detachPeer peer) (s.hearDisconnected peer now) := by
  simp only [hearDisconnected, known]
  split
  · exact Spares.refl _
  · split <;> apply Spares.of_tables <;> rfl

theorem eases_hearDisconnected (s : Scheduler) (peer : PeerAddress) (now : Timestamp) :
    Eases s (s.hearDisconnected peer now) := by
  cases known : s.peers[peer]? with
  | none =>
    simp only [hearDisconnected, known]
    exact (Spares.refl s).toEases
  | some record =>
    exact (eases_detachPeer s peer).trans (spares_hearDisconnected_of_known known now).toEases

theorem spares_hearNotFound (s : Scheduler) (peer : PeerAddress) (blocks : List BlockHash)
    (now : Timestamp) : Spares s (s.hearNotFound peer blocks now) := by
  unfold hearNotFound
  split
  · rename_i block
    split
    · have noted : Spares s (s.note block (some peer) .notFound now) := by
        apply Spares.of_tables <;> rfl
      exact noted.trans (spares_fail _ block now)
    · exact Spares.refl s
  · exact Spares.refl s

theorem spares_touch (s : Scheduler) (block : BlockHash) (now : Timestamp) :
    Spares s (s.touch block now) := by
  apply Spares.of_tables <;> rfl

theorem spares_setPartials (s : Scheduler) (partials : BlockMap PartialBlock) :
    Spares s { s with partials } := by
  apply Spares.of_tables <;> rfl

theorem spares_hearHeader (s : Scheduler) (peer : PeerAddress) (header : BlockHeader)
    (size : UInt64) (now : Timestamp) : Spares s (s.hearHeader peer header size now) := by
  have heard := spares_touch s header.hash now
  unfold hearHeader
  extract_lets touched
  split
  · exact heard.trans (spares_succeed touched peer header size now)
  · exact heard.trans (spares_setPartials touched _)

theorem spares_hearChunk (s : Scheduler) (peer : PeerAddress) (block : BlockHash)
    (transactions : UInt64) (now : Timestamp) :
    Spares s (s.hearChunk peer block transactions now) := by
  unfold hearChunk
  split
  · exact Spares.refl s
  · have heard := spares_touch s block now
    extract_lets received touched
    split
    · exact (heard.trans (spares_setPartials touched _)).trans (spares_succeed ..)
    · exact heard.trans (spares_setPartials touched _)

theorem spares_hearLiteBlock (s : Scheduler) (peer : PeerAddress) (header : BlockHeader)
    (size : UInt64) (now : Timestamp) : Spares s (s.hearLiteBlock peer header size now) := by
  unfold hearLiteBlock
  split
  · exact spares_succeed s peer header size now
  · extract_lets head body
    have told : Spares s head := spares_publish s rfl
    exact (told.trans (spares_publish head rfl)).trans (spares_succeed body peer header size now)

theorem eases_endSession (s : Scheduler) (now : Timestamp) : Eases s (s.endSession now) := by
  obtain ⟨_, _, _, _, _, _, shape⟩ := foldl_abandon_eq s.inFlight now s
  unfold endSession
  simp only [shape]
  exact ⟨rfl, fun _ _ working => (nomatch working), rfl⟩

/-! ## The rest of a tick -/

theorem spares_reconcile (now : Timestamp) (s : Scheduler) (block : BlockHash) :
    Spares s (reconcile now s block) := by
  unfold reconcile
  split
  · apply Spares.of_tables <;> rfl
  · split
    · exact spares_cancelNow s block now
    · split
      · exact spares_fail s block now
      · exact Spares.refl s

theorem spares_reviveDiscarded (s : Scheduler) (now : Timestamp) :
    Spares s (s.reviveDiscarded now) := by
  obtain ⟨discarded, journal, shape, _⟩ := reviveDiscarded_eq s now
  rw [shape]
  apply Spares.of_tables <;> rfl

-- As in the proofs that these steps are quiet, what is computed from the state is kept arbitrary.
theorem spares_setRestricted (s : Scheduler) (bandwidthRestricted : Bool) :
    Spares s { s with bandwidthRestricted } := by
  apply Spares.of_tables <;> rfl

theorem spares_checkBandwidth (s : Scheduler) : Spares s s.checkBandwidth :=
  spares_setRestricted s _

theorem spares_gaugeBusy (s : Scheduler) : Spares s s.gaugeBusy := by
  have same : ∀ busyPercentage, Spares s { s with busyPercentage } := by
    intro busyPercentage
    apply Spares.of_tables <;> rfl
  exact same _

theorem spares_purgeJournal (s : Scheduler) (now : Timestamp) : Spares s (s.purgeJournal now) := by
  unfold purgeJournal
  split
  · apply Spares.of_tables <;> rfl
  · exact Spares.refl s

theorem spares_tick_of_turns (s : Scheduler) (now : Timestamp) :
    Spares ({ s with ticks := s.ticks + 1 }.turns now) (s.tick now) := by
  have resolved : ∀ t : Scheduler, Spares t (t.reconcileLimbo now) :=
    fun t => Spares.foldl (spares_reconcile now) t.limbo.toList t
  have revived := (resolved ({ s with ticks := s.ticks + 1 }.turns now)).trans
    (spares_reviveDiscarded _ now)
  exact (revived.trans (spares_gaugeBusy _)).trans (spares_purgeJournal _ now)

/-! ## Requests of clients -/

theorem spares_download (s : Scheduler) (request : FetchRequest) (now : Timestamp) :
    Spares s (s.download request now) := by
  obtain ⟨backlog, journal, shape, _⟩ := download_eq s request now
  rw [shape]
  apply Spares.of_tables <;> rfl

theorem spares_cancelBlock (now : Timestamp) (s : Scheduler) (block : BlockHash) :
    Spares s (cancelBlock now s block) := by
  unfold cancelBlock
  split
  · exact Spares.refl s
  · split
    · apply Spares.of_tables <;> rfl
    · exact spares_markCancelled s block now

/-! ## All operations -/

/-- Of all events only the loss of a peer and the end of the session concern peers without work. -/
theorem spares_hear (s : Scheduler) {event : NetworkEvent} (now : Timestamp)
    (connected : ∀ peer reason, event ≠ .peerDisconnected peer reason)
    (goesOn : event ≠ .sessionStopped) : Spares s (s.hear event now) := by
  cases event with
  | sessionStopped => exact absurd rfl goesOn
  | peerDisconnected peer reason => exact absurd rfl (connected peer reason)
  | enoughPeers => apply Spares.of_tables <;> rfl
  | tooFewPeers => apply Spares.of_tables <;> rfl
  | peerConnected peer => exact spares_hearConnected s peer
  | peerHandshaked peer => exact spares_hearHandshaked s peer
  | blocksAnnounced peer blocks => apply Spares.of_tables <;> rfl
  | blocksNotFound peer blocks => exact spares_hearNotFound s peer blocks now
  | headerDelivered peer header size origin =>
    cases origin with
    | wire => exact spares_hearHeader s peer header size now
    | scheduler => exact Spares.refl s
  | chunkDelivered peer block transactions origin =>
    cases origin with
    | wire => exact spares_hearChunk s peer block transactions now
    | scheduler => exact Spares.refl s
  | liteBlockDelivered peer header size => exact spares_hearLiteBlock s peer header size now
  | rawBlockDelivered peer header size => exact spares_succeed s peer header size now
  | _ => exact Spares.refl s

/-- Nothing but a tick gives peers work. -/
theorem eases_apply (s : Scheduler) (now : Timestamp) {operation : Operation}
    (untimed : operation ≠ .tick) : Eases s (s.apply now operation) := by
  have unchanged : ∀ {t : Scheduler}, Spares s t → Eases s t := Spares.toEases
  cases operation with
  | download request => exact (spares_download s request now).toEases
  | cancel blocks => exact (Spares.foldl (spares_cancelBlock now) blocks s).toEases
  | hear event =>
    by_cases ends : event = .sessionStopped
    · subst ends
      exact eases_endSession s now
    · by_cases lost : ∃ peer reason, event = .peerDisconnected peer reason
      · obtain ⟨peer, reason, rfl⟩ := lost
        exact eases_hearDisconnected s peer now
      · have connected : ∀ peer reason, event ≠ .peerDisconnected peer reason :=
          fun peer reason same => lost ⟨peer, reason, same⟩
        exact (spares_hear s now connected ends).toEases
  | tick => exact absurd rfl untimed
  | _ => exact unchanged (by apply Spares.of_tables <;> rfl)

end Scheduler
end BlockFetch
