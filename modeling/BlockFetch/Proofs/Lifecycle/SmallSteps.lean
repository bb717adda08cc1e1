import BlockFetch.Proofs.Lifecycle.Stage

/-!
# Small steps

The steps that leave the books as they are: notes in the journal, buffers, observations, and the
release of peers. What the last of these does to the holders of a block is said by `blockAt?`.
-/
namespace BlockFetch.Scheduler

/-! ## Quiet steps -/

theorem story_publish (s : Scheduler) (event : NetworkEvent) (block : BlockHash) :
    (s.publish event).story block = s.story block ++ (event.milestone? block).toList := by
  unfold story events publish
  rw [List.filterMap_append, List.filterMap_append]
  cases h : event.milestone? block <;> simp [Effect.event?, h]

theorem quiet_publish (s : Scheduler) {event : NetworkEvent}
    (h : ∀ block, event.milestone? block = none) : Quiet s (s.publish event) := by
  refine .of_peers_eq ?_ rfl
  constructor
  case links => exact .of_peers_eq rfl
  case story =>
    intro block
    rw [story_publish, h, Option.toList_none, List.append_nil]
  all_goals intros; rfl

theorem quiet_growBuffer (s : Scheduler) (peer : PeerAddress) : Quiet s (s.growBuffer peer) := by
  refine .of_peers_eq ?_ rfl
  constructor
  case links => exact .of_peers_eq rfl
  case story =>
    intro block
    simp [story, events, growBuffer, Effect.event?]
  all_goals intros; rfl

theorem quiet_resetBuffer (s : Scheduler) (peer : PeerAddress) : Quiet s (s.resetBuffer peer) := by
  refine .of_peers_eq ?_ rfl
  constructor
  case links => exact .of_peers_eq rfl
  case story =>
    intro block
    simp [story, events, resetBuffer, Effect.event?]
  all_goals intros; rfl

theorem quiet_note (s : Scheduler) (block : BlockHash) (peer? : Option PeerAddress) (note : Note)
    (now : Timestamp) : Quiet s (s.note block peer? note now) :=
  .of_peers_eq (by apply SameBooks.of_tables <;> rfl) rfl

theorem quiet_noteFailure (s : Scheduler) (block : BlockHash) (peer : PeerAddress)
    (now : Timestamp) : Quiet s (s.noteFailure block peer now) :=
  .of_peers_eq (by apply SameBooks.of_tables <;> rfl) rfl

theorem quiet_noteRefusals (s : Scheduler) (peer : PeerAddress)
    (refusals : List (BlockHash × Refusal)) : Quiet s (s.noteRefusals peer refusals) :=
  .of_peers_eq (by apply SameBooks.of_tables <;> rfl) rfl

theorem quiet_noteDownload (s : Scheduler) (block : BlockHash) (peer : PeerAddress)
    (now : Timestamp) : Quiet s (s.noteDownload block peer now) := by
  unfold noteDownload
  split
  · exact .of_peers_eq (by apply SameBooks.of_tables <;> rfl) rfl
  · exact quiet_note ..

theorem quiet_setPartials (s : Scheduler) (partials : BlockMap PartialBlock) :
    Quiet s { s with partials } :=
  .of_peers_eq (by apply SameBooks.of_tables <;> rfl) rfl

theorem quiet_setTicks (s : Scheduler) (ticks : UInt64) : Quiet s { s with ticks } :=
  .of_peers_eq (by apply SameBooks.of_tables <;> rfl) rfl

theorem quiet_touch (s : Scheduler) (block : BlockHash) (now : Timestamp) :
    Quiet s (s.touch block now) := by
  refine .of_peers_eq ?_ rfl
  constructor
  case links => exact .of_peers_eq rfl
  case watched => exact fun _ => Std.ExtTreeMap.contains_modify
  all_goals intros; rfl

-- The kernel compares whole records when the next two are left to it, so what is computed from the
-- state is kept arbitrary.
theorem quiet_checkBandwidth (s : Scheduler) : Quiet s s.checkBandwidth := by
  have same : ∀ bandwidthRestricted, Quiet s { s with bandwidthRestricted } :=
    fun _ => .of_peers_eq (by apply SameBooks.of_tables <;> rfl) rfl
  exact same _

theorem quiet_gaugeBusy (s : Scheduler) : Quiet s s.gaugeBusy := by
  have same : ∀ busyPercentage, Quiet s { s with busyPercentage } :=
    fun _ => .of_peers_eq (by apply SameBooks.of_tables <;> rfl) rfl
  exact same _

theorem peers_checkBandwidth (s : Scheduler) : s.checkBandwidth.peers = s.peers := by
  have same : ∀ bandwidthRestricted, { s with bandwidthRestricted }.peers = s.peers := fun _ => rfl
  exact same _

theorem quiet_purgeJournal (s : Scheduler) (now : Timestamp) : Quiet s (s.purgeJournal now) := by
  unfold purgeJournal
  split
  · exact .of_peers_eq (by apply SameBooks.of_tables <;> rfl) rfl
  · exact Quiet.refl s

theorem quiet_hearAnnounced (s : Scheduler) (peer : PeerAddress) (blocks : List BlockHash) :
    Quiet s (s.hearAnnounced peer blocks) := by
  have h : ∀ backlog : Backlog,
      (blocks.foldl (fun backlog block => backlog.noteAnnouncement block peer) backlog).queue =
          backlog.queue ∧
        (blocks.foldl (fun backlog block => backlog.noteAnnouncement block peer)
          backlog).attempts = backlog.attempts := by
    induction blocks with
    | nil => exact fun _ => ⟨rfl, rfl⟩
    | cons block rest ih => exact fun backlog => ih (backlog.noteAnnouncement block peer)
  have books : SameBooks s (s.hearAnnounced peer blocks) :=
    .of_tables rfl rfl (h s.backlog).1 (h s.backlog).2 rfl rfl rfl rfl rfl rfl rfl rfl
  exact .of_peers_eq books rfl

/-! ## Changes of peers -/

theorem sameBooks_modifyPeer (s : Scheduler) (peer : PeerAddress) {change : Peer → Peer}
    (link : ∀ record, record.Linked → (change record).Linked) :
    SameBooks s (s.modifyPeer peer change) :=
  .of_links (.modify rfl link)

theorem bind_modifyPeer {α : Type} (s : Scheduler) (peer other : PeerAddress)
    (change : Peer → Peer) (view : Peer → Option α) :
    ((s.modifyPeer peer change).peers[other]?).bind view =
      if peer = other then (s.peers[other]?).bind fun record => view (change record)
      else (s.peers[other]?).bind view := by
  unfold modifyPeer
  rw [Std.ExtTreeMap.getElem?_modify]
  simp only [Std.LawfulEqCmp.compare_eq_iff_eq]
  split
  · rename_i same
    subst same
    cases s.peers[peer]? <;> rfl
  · rfl

theorem blockAt?_modifyPeer (s : Scheduler) (peer other : PeerAddress) (change : Peer → Peer) :
    (s.modifyPeer peer change).blockAt? other =
      if peer = other then (s.peers[other]?).bind fun record => (change record).block?
      else s.blockAt? other :=
  s.bind_modifyPeer peer other change Peer.block?

/-- A change that concerns no transfer is quiet. -/
theorem quiet_modifyPeer (s : Scheduler) (peer : PeerAddress) {change : Peer → Peer}
    (link : ∀ record, record.Linked → (change record).Linked)
    (h : ∀ record, (change record).block? = record.block?) :
    Quiet s (s.modifyPeer peer change) := by
  refine ⟨sameBooks_modifyPeer s peer link, fun other => ?_⟩
  rw [blockAt?_modifyPeer]
  split
  · simp only [h]
    rfl
  · rfl

theorem quiet_recordSpeed (s : Scheduler) (peer : PeerAddress) (transfer? : Option Transfer)
    (size : UInt64) (now : Timestamp) : Quiet s (s.recordSpeed peer transfer? size now) := by
  cases transfer? with
  | none => exact Quiet.refl s
  | some transfer => exact quiet_modifyPeer s peer (fun _ link => link.recordSpeed _ _) fun _ => rfl

theorem blockAt?_modifyPeer_of_block?_eq_none (s : Scheduler) (peer other : PeerAddress)
    {change : Peer → Peer} (h : ∀ record, (change record).block? = none) :
    (s.modifyPeer peer change).blockAt? other =
      if peer = other then none else s.blockAt? other := by
  rw [blockAt?_modifyPeer]
  split
  · simp [h]
  · rfl

/-- Taking a transfer from a peer that has none is quiet. -/
theorem quiet_of_blockAt?_eq_none {s t : Scheduler} {peer : PeerAddress} (books : SameBooks s t)
    (idle : s.blockAt? peer = none)
    (held : ∀ other, t.blockAt? other = if peer = other then none else s.blockAt? other) :
    Quiet s t := by
  refine ⟨books, fun other => ?_⟩
  rw [held]
  split
  · rename_i here
    rw [← here, idle]
  · rfl

theorem sameBooks_freePeer (s : Scheduler) (peer : PeerAddress) :
    SameBooks s (s.freePeer peer) := by
  have released := sameBooks_modifyPeer s peer fun record _ => record.linked_release
  have announced : Quiet _ ((s.modifyPeer peer Peer.release).publish (.keepAlive peer true)) :=
    quiet_publish _ fun _ => rfl
  exact (released.trans announced.toSameBooks).trans (quiet_resetBuffer _ peer).toSameBooks

theorem blockAt?_freePeer (s : Scheduler) (peer other : PeerAddress) :
    (s.freePeer peer).blockAt? other = if peer = other then none else s.blockAt? other := by
  have same : (s.freePeer peer).peers = (s.modifyPeer peer Peer.release).peers := rfl
  rw [blockAt?_congr same]
  refine blockAt?_modifyPeer_of_block?_eq_none s peer other fun record => ?_
  rw [Peer.block?, Peer.transfer?_release, Option.map_none]

theorem sameBooks_detachPeer (s : Scheduler) (peer : PeerAddress) :
    SameBooks s (s.detachPeer peer) := by
  have released := sameBooks_modifyPeer s peer fun record _ => record.disconnect.linked_release
  exact released.trans (by apply SameBooks.of_tables <;> rfl)

theorem blockAt?_detachPeer (s : Scheduler) (peer other : PeerAddress) :
    (s.detachPeer peer).blockAt? other = if peer = other then none else s.blockAt? other := by
  have same : (s.detachPeer peer).peers =
      (s.modifyPeer peer fun record => record.disconnect.release).peers := rfl
  rw [blockAt?_congr same]
  refine blockAt?_modifyPeer_of_block?_eq_none s peer other fun record => ?_
  rw [Peer.block?, Peer.transfer?_release, Option.map_none]

theorem sameBooks_failHolder (s : Scheduler) (block : BlockHash) (now : Timestamp)
    (peer : PeerAddress) : SameBooks s (s.failHolder block now peer) := by
  have failed := (sameBooks_modifyPeer s peer fun record _ => record.linked_fail).trans
    (quiet_noteFailure _ block peer now).toSameBooks
  have announced : Quiet _ (((s.modifyPeer peer Peer.fail).noteFailure block peer now).publish
      (.keepAlive peer true)) := quiet_publish _ fun _ => rfl
  exact (failed.trans announced.toSameBooks).trans (quiet_resetBuffer _ peer).toSameBooks

theorem blockAt?_failHolder (s : Scheduler) (block : BlockHash) (now : Timestamp)
    (peer other : PeerAddress) :
    (s.failHolder block now peer).blockAt? other =
      if peer = other then none else s.blockAt? other := by
  have same : (s.failHolder block now peer).peers = (s.modifyPeer peer Peer.fail).peers := rfl
  rw [blockAt?_congr same]
  refine blockAt?_modifyPeer_of_block?_eq_none s peer other fun record => ?_
  rw [Peer.block?, Peer.transfer?_fail, Option.map_none]

theorem blockAt?_foldl {step : Scheduler → PeerAddress → Scheduler}
    (h : ∀ s peer other,
      (step s peer).blockAt? other = if peer = other then none else s.blockAt? other)
    (peers : List PeerAddress) (s : Scheduler) (other : PeerAddress) :
    (peers.foldl step s).blockAt? other = if other ∈ peers then none else s.blockAt? other := by
  induction peers generalizing s with
  | nil => simp
  | cons peer rest ih =>
    rw [List.foldl_cons, ih, h]
    by_cases here : peer = other
    · simp [here]
    · simp [here, Ne.symm here]

/-! ## The holders of a block -/

/-- What is said of peers that are let go: each is probed again and gets its idle buffer back. -/
def partings (peers : List PeerAddress) : List Effect :=
  peers.flatMap fun peer => [.publish (.keepAlive peer true), .resetBuffer peer]

theorem filterMap_event?_partings (peers : List PeerAddress) :
    (partings peers).filterMap Effect.event? = peers.map (.keepAlive · true) := by
  induction peers with
  | nil => rfl
  | cons peer rest ih =>
    rw [partings, List.flatMap_cons, List.filterMap_append, List.map_cons]
    exact congrArg (_ :: ·) ih

/-- Which peers are freed is settled before the first is: the records of the later ones are those
they had. -/
theorem exists_foldl_freePeer_eq (peers : List PeerAddress) (s : Scheduler) :
    ∃ streams, peers.foldl freePeer s = { s with
      streams
      peers := peers.foldl (fun table peer => table.modify peer Peer.release) s.peers
      outbox := s.outbox ++ partings peers } := by
  induction peers generalizing s with
  | nil => exact ⟨s.streams, by rw [partings, List.flatMap_nil, List.append_nil]; rfl⟩
  | cons first rest ih =>
    obtain ⟨streams, same⟩ := ih (s.freePeer first)
    have said : (s.freePeer first).outbox ++ partings rest =
        s.outbox ++ partings (first :: rest) := by
      simp [freePeer, modifyPeer, publish, resetBuffer, partings]
    rw [said] at same
    exact ⟨streams, same⟩

theorem exists_freeHolders_eq (s : Scheduler) (block : BlockHash) :
    ∃ streams, s.freeHolders block = { s with
      streams
      peers := (s.holders block).foldl (fun table peer => table.modify peer Peer.release) s.peers
      outbox := s.outbox ++ partings (s.holders block) } :=
  exists_foldl_freePeer_eq _ s

theorem exists_foldl_failHolder_eq (block : BlockHash) (now : Timestamp)
    (peers : List PeerAddress) (s : Scheduler) :
    ∃ streams, peers.foldl (fun s peer => s.failHolder block now peer) s = { s with
      streams
      backlog := peers.foldl (fun backlog peer => backlog.noteFailure block peer now) s.backlog
      peers := peers.foldl (fun table peer => table.modify peer Peer.fail) s.peers
      outbox := s.outbox ++ partings peers } := by
  induction peers generalizing s with
  | nil => exact ⟨s.streams, by rw [partings, List.flatMap_nil, List.append_nil]; rfl⟩
  | cons first rest ih =>
    obtain ⟨streams, same⟩ := ih (s.failHolder block now first)
    have said : (s.failHolder block now first).outbox ++ partings rest =
        s.outbox ++ partings (first :: rest) := by
      simp [failHolder, modifyPeer, noteFailure, publish, resetBuffer, partings]
    rw [said] at same
    exact ⟨streams, same⟩

/-- The holders of a failed block are let go as those of a delivered one are, and each failure is
noted. -/
theorem exists_failHolders_eq (s : Scheduler) (block : BlockHash) (now : Timestamp) :
    ∃ streams, s.failHolders block now = { s with
      streams
      backlog := (s.holders block).foldl (fun backlog peer => backlog.noteFailure block peer now)
        s.backlog
      peers := (s.holders block).foldl (fun table peer => table.modify peer Peer.fail) s.peers
      outbox := s.outbox ++ partings (s.holders block) } :=
  exists_foldl_failHolder_eq block now _ s

theorem lastActivity_freeHolders (s : Scheduler) (block : BlockHash) :
    (s.freeHolders block).lastActivity = s.lastActivity := by
  obtain ⟨streams, same⟩ := s.exists_freeHolders_eq block
  rw [same]

theorem backlog_freeHolders (s : Scheduler) (block : BlockHash) :
    (s.freeHolders block).backlog = s.backlog := by
  obtain ⟨streams, same⟩ := s.exists_freeHolders_eq block
  rw [same]

theorem partials_freeHolders (s : Scheduler) (block : BlockHash) :
    (s.freeHolders block).partials = s.partials := by
  obtain ⟨streams, same⟩ := s.exists_freeHolders_eq block
  rw [same]

theorem events_freeHolders (s : Scheduler) (block : BlockHash) :
    (s.freeHolders block).events = s.events ++ (s.holders block).map (.keepAlive · true) := by
  obtain ⟨streams, same⟩ := s.exists_freeHolders_eq block
  rw [same, events, List.filterMap_append, filterMap_event?_partings]
  rfl

theorem lastActivity_failHolders (s : Scheduler) (block : BlockHash) (now : Timestamp) :
    (s.failHolders block now).lastActivity = s.lastActivity := by
  obtain ⟨streams, same⟩ := s.exists_failHolders_eq block now
  rw [same]

theorem partials_failHolders (s : Scheduler) (block : BlockHash) (now : Timestamp) :
    (s.failHolders block now).partials = s.partials := by
  obtain ⟨streams, same⟩ := s.exists_failHolders_eq block now
  rw [same]

theorem events_failHolders (s : Scheduler) (block : BlockHash) (now : Timestamp) :
    (s.failHolders block now).events = s.events ++ (s.holders block).map (.keepAlive · true) := by
  obtain ⟨streams, same⟩ := s.exists_failHolders_eq block now
  rw [same, events, List.filterMap_append, filterMap_event?_partings]
  rfl

theorem sameBooks_freeHolders (s : Scheduler) (block : BlockHash) :
    SameBooks s (s.freeHolders block) :=
  SameBooks.foldl sameBooks_freePeer _ s

/-- The holders of a block lose it, and all other peers keep what they hold. -/
theorem blockAt?_freeHolders (s : Scheduler) (block : BlockHash) (peer : PeerAddress) :
    (s.freeHolders block).blockAt? peer =
      if s.blockAt? peer = some block then none else s.blockAt? peer := by
  unfold freeHolders
  rw [blockAt?_foldl blockAt?_freePeer]
  simp only [mem_holders]

theorem sameBooks_failHolders (s : Scheduler) (block : BlockHash) (now : Timestamp) :
    SameBooks s (s.failHolders block now) :=
  SameBooks.foldl (fun s peer => sameBooks_failHolder s block now peer) _ s

theorem blockAt?_failHolders (s : Scheduler) (block : BlockHash) (now : Timestamp)
    (peer : PeerAddress) :
    (s.failHolders block now).blockAt? peer =
      if s.blockAt? peer = some block then none else s.blockAt? peer := by
  unfold failHolders
  rw [blockAt?_foldl fun s peer other => blockAt?_failHolder s block now peer other]
  simp only [mem_holders]

end BlockFetch.Scheduler
