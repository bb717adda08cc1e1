import BlockFetch.Proofs.Deadlines.Watch
import BlockFetch.Proofs.Peers.Engagement
import BlockFetch.Proofs.Scan.Pause

/-!
# Connections

Whether a peer is handshaked is told by the last handshake or disconnection that the scheduler heard
of, and only handshaked peers are asked for blocks. A peer that failed in the middle of a transfer
is discarded, and gets no more work before it connects anew or the session ends.
-/
namespace BlockFetch

/-- What an operation says on whether a peer is handshaked. -/
def Operation.links? (peer : PeerAddress) (operation : Operation) : Option Bool :=
  if operation.greets peer then some true
  else if operation.cuts peer then some false
  else none

/-- Whether a step lets a peer start over: it connects while it is disconnected, or the session
ends. -/
def Step.restarts (step : Step) (peer : PeerAddress) : Bool :=
  step.operation.endsSession ||
    (step.operation.connects peer &&
      (step.before.peers[peer]?).any fun record => record.connection = .disconnected)

/-! ## What signals keep -/

theorem Shifts.connection {before after : Option Footing} {signals : List Signal}
    (h : Shifts before signals after) :
    after.map Footing.connection = before.map Footing.connection := by
  induction h with
  | trans _ _ head tail => exact tail.trans head
  | _ => rfl

/-- A discarded peer is neither taken nor freed. -/
theorem Shifts.eq_of_discarded {before after : Option Footing} {signals : List Signal}
    {connection : Connection} (h : Shifts before signals after)
    (discarded : before = some ⟨connection, .discarded⟩) : after = before := by
  induction h with
  | stays => rfl
  | taken => exact nomatch discarded
  | freed => exact nomatch discarded
  | trans _ _ head tail =>
    have middle := head discarded
    exact (tail (middle.trans discarded)).trans middle

namespace Operation

variable {operation : Operation} {peer : PeerAddress}

theorem links?_of_connects (connects : operation.connects peer = true) :
    operation.links? peer = none := by
  rw [eq_of_connects connects]
  rfl

theorem links?_of_cuts (cuts : operation.cuts peer = true) :
    operation.links? peer = some false := by
  rw [links?, greets_of_cuts cuts, cuts]
  rfl

end Operation

namespace Scheduler

variable {s t : Scheduler} {now : Timestamp} {peer : PeerAddress} {block : BlockHash}

def isHandshakedAt (s : Scheduler) (peer : PeerAddress) : Bool :=
  (s.peers[peer]?).any Peer.isHandshaked

theorem isHandshakedAt_eq (s : Scheduler) (peer : PeerAddress) :
    s.isHandshakedAt peer =
      decide ((s.footingAt? peer).map Footing.connection = some .handshaked) := by
  rw [isHandshakedAt, footingAt?]
  cases s.peers[peer]? with
  | none => rfl
  | some record => simp [Peer.isHandshaked, Peer.footing]

/-! ## One step -/

/-- A busy peer is handshaked. -/
theorem Reachable.connection_of_transferring (h : s.Reachable) {connection : Connection}
    (busy : s.footingAt? peer = some ⟨connection, .transferring⟩) : connection = .handshaked := by
  obtain ⟨record, known, footing⟩ := Option.map_eq_some_iff.mp busy
  have sending : record.transfer?.isSome = true :=
    (h.staged.linked peer record known).mp (congrArg Footing.work footing)
  obtain ⟨transfer, sends⟩ := Option.isSome_iff_exists.mp sending
  have online : record.connection = .handshaked := h.sendsOnline peer record known transfer sends
  exact (congrArg Footing.connection footing).symm.trans online

theorem Reachable.isHandshakedAt_apply (h : s.Reachable) (now : Timestamp) (operation : Operation)
    (peer : PeerAddress) :
    (s.apply now operation).isHandshakedAt peer =
      (operation.links? peer).getD (s.isHandshakedAt peer) := by
  rw [isHandshakedAt_eq, isHandshakedAt_eq]
  cases treats_apply h.staged now operation peer with
  | engages _ ungreeted uncut engages =>
    obtain ⟨_, _, _, _, _, shifts⟩ := engages.shifts h.staged.linked
    simp [Operation.links?, ungreeted, uncut, shifts.connection]
  | connected connects _ footing =>
    rw [footing, Operation.links?_of_connects connects, Option.getD_none]
    cases s.footingAt? peer with
    | none => rfl
    | some before =>
      simp only [Footing.connected, Option.map_some]
      split
      · rename_i gone
        simp [gone.2]
      · rfl
  | handshaked greets _ footing =>
    rw [footing, Operation.links?, if_pos greets, Option.getD_some, decide_eq_true_eq]
    cases before : s.footingAt? peer with
    | none => rfl
    | some before' =>
      simp only [Footing.handshaked, Option.map_some]
      split
      · rename_i busy
        obtain ⟨connection, work⟩ := before'
        cases busy
        rw [h.connection_of_transferring before]
      · rfl
  | disconnected disconnects _ footing =>
    rw [footing, Operation.links?_of_cuts (Operation.cuts_of_disconnects disconnects),
      Option.getD_some]
    cases s.footingAt? peer <;> simp [Footing.disconnected]
  | forgotten ends _ footing =>
    rw [footing, Operation.links?_of_cuts (Operation.cuts_of_endsSession ends)]
    rfl

/-- A peer is available when it is asked for a block. -/
theorem Staged.isAvailableAt_of_requested (staged : s.Staged) {operation : Operation}
    (asked : (peer, block) ∈ Step.requests ⟨s, now, operation⟩) : s.IsAvailableAt peer := by
  by_cases timed : operation = .tick
  · subst timed
    obtain ⟨early, late, whole⟩ := List.append_of_mem asked
    obtain ⟨_, _, unvisited, found, ⟨record, known, available⟩, _⟩ := staged.exists_grant whole
    rw [(found.untouched peer unvisited).1] at known
    exact ⟨record, known, available⟩
  · rw [requests_eq_nil timed] at asked
    exact nomatch asked

theorem footingAt?_of_isAvailableAt (available : s.IsAvailableAt peer) :
    s.footingAt? peer = some ⟨.handshaked, .idle⟩ := by
  obtain ⟨record, known, idle⟩ := available
  rw [footingAt?, known, Option.map_some, Peer.footing_eq_of_isAvailable idle]

def IsDiscardedAt (s : Scheduler) (peer : PeerAddress) : Prop :=
  ∃ connection, s.footingAt? peer = some ⟨connection, .discarded⟩

/-- A discarded peer stays discarded until it may start over. -/
theorem IsDiscardedAt.apply (h : s.IsDiscardedAt peer) (staged : s.Staged) (now : Timestamp)
    {operation : Operation} (kept : Step.restarts ⟨s, now, operation⟩ peer = false) :
    (s.apply now operation).IsDiscardedAt peer := by
  obtain ⟨connection, discarded⟩ := h
  rw [Step.restarts, Bool.or_eq_false_iff, Bool.and_eq_false_iff] at kept
  cases treats_apply staged now operation peer with
  | engages _ _ _ engages =>
    obtain ⟨_, _, _, _, _, shifts⟩ := engages.shifts staged.linked
    exact ⟨connection, (shifts.eq_of_discarded discarded).trans discarded⟩
  | connected connects _ footing =>
    have online : connection ≠ .disconnected := by
      rintro rfl
      obtain ⟨record, known, same⟩ := Option.map_eq_some_iff.mp discarded
      have gone : record.connection = .disconnected := congrArg Footing.connection same
      simp [connects, known, gone] at kept
    refine ⟨connection, ?_⟩
    rw [footing, discarded, Footing.connected, if_neg fun gone => online gone.2]
  | handshaked _ _ footing =>
    refine ⟨.handshaked, ?_⟩
    rw [footing, discarded]
    rfl
  | disconnected _ _ footing =>
    refine ⟨.disconnected, ?_⟩
    rw [footing, discarded]
    rfl
  | forgotten ends =>
    rw [ends] at kept
    exact Bool.noConfusion kept.1

/-! ## Whole runs -/

theorem Reachable.isHandshakedAt_run (h : s.Reachable) (history : List (Timestamp × Operation))
    (peer : PeerAddress) :
    (s.run history).isHandshakedAt peer =
      (Operation.lastSaid? (Operation.links? peer) history).getD (s.isHandshakedAt peer) := by
  induction history using List.reverseRecOn with
  | nil => rfl
  | append_singleton past timed ih =>
    rw [run_concat, (h.run past).isHandshakedAt_apply, lastSaid?_concat, ih]
    cases timed.2.links? peer <;> rfl

theorem IsDiscardedAt.unasked (h : s.IsDiscardedAt peer) (reachable : s.Reachable)
    (future : List (Timestamp × Operation))
    (kept : ∀ step ∈ s.steps future, step.restarts peer = false) :
    ∀ step ∈ s.steps future, ∀ block, (peer, block) ∉ step.requests := by
  induction future generalizing s with
  | nil => exact fun _ member => nomatch member
  | cons timed rest ih =>
    obtain ⟨first, others⟩ := List.forall_mem_cons.mp kept
    refine List.forall_mem_cons.mpr ⟨fun block asked => ?_, ?_⟩
    · obtain ⟨connection, discarded⟩ := h
      have available := footingAt?_of_isAvailableAt
        (reachable.staged.isAvailableAt_of_requested asked)
      exact nomatch discarded.symm.trans available
    · exact ih (h.apply reachable.staged timed.1 first) (reachable.applied timed.1 timed.2) others

/-- In every run from usable settings: a peer is at work exactly if it has a transfer, and then it
is handshaked; a disconnected one holds no block. It is handshaked exactly if the last handshake or
disconnection of it was a handshake and the session has not ended since, so only such peers are
asked for blocks. A peer that was discarded is not asked for blocks until it connects while it is
disconnected, or the session ends. -/
theorem peer_lifecycle {settings : Settings} {streams : StreamTable}
    (usable : create settings streams = .ok s) (history : List (Timestamp × Operation))
    (peer : PeerAddress) :
    (∀ record, (s.run history).peers[peer]? = some record →
      (record.work = .transferring ↔ record.transfer?.isSome = true) ∧
        (record.work = .transferring → record.connection = .handshaked) ∧
        (record.connection = .disconnected → record.block? = none)) ∧
    ((∃ record, (s.run history).peers[peer]? = some record ∧ record.connection = .handshaked) ↔
      Operation.lastSaid? (Operation.links? peer) history = some true) ∧
    (∀ now operation block, (peer, block) ∈ Step.requests ⟨s.run history, now, operation⟩ →
      Operation.lastSaid? (Operation.links? peer) history = some true) ∧
    ∀ record, (s.run history).peers[peer]? = some record → record.work = .discarded →
      ∀ future, (∀ step ∈ (s.run history).steps future, step.restarts peer = false) →
        ∀ step ∈ (s.run history).steps future, ∀ block, (peer, block) ∉ step.requests := by
  have reachable := (Reachable.created usable).run history
  have linked : (s.run history).isHandshakedAt peer = true ↔
      Operation.lastSaid? (Operation.links? peer) history = some true := by
    have unknown : s.isHandshakedAt peer = false := by
      rw [eq_initial_of_create usable]
      exact congrArg (Option.any _) Std.ExtTreeMap.getElem?_empty
    rw [(Reachable.created usable).isHandshakedAt_run, unknown]
    cases Operation.lastSaid? (Operation.links? peer) history <;> simp
  have footing : ∀ record : Peer, (s.run history).peers[peer]? = some record →
      (s.run history).footingAt? peer = some record.footing := by
    intro record known
    rw [footingAt?, known, Option.map_some]
  have online : ∀ record : Peer, (s.run history).peers[peer]? = some record →
      record.work = .transferring → record.connection = .handshaked := by
    intro record known busy
    have sending : (s.run history).footingAt? peer = some ⟨record.connection, .transferring⟩ := by
      rw [footing record known, Peer.footing, busy]
    exact reachable.connection_of_transferring sending
  refine ⟨fun record known => ⟨?_, online record known, fun gone => ?_⟩, ?_, ?_, ?_⟩
  · exact reachable.staged.linked peer record known
  · cases sends : record.transfer? with
    | none => rw [Peer.block?, sends, Option.map_none]
    | some transfer =>
      have busy := (reachable.staged.linked peer record known).work_of_transfer? sends
      rw [online record known busy] at gone
      contradiction
  · rw [← linked, isHandshakedAt, Option.any_eq_true]
    simp only [Peer.isHandshaked, decide_eq_true_eq]
  · intro now operation block asked
    rw [← linked, isHandshakedAt_eq,
      footingAt?_of_isAvailableAt (reachable.staged.isAvailableAt_of_requested asked)]
    rfl
  · intro record known discarded future kept
    have out : (s.run history).IsDiscardedAt peer := by
      refine ⟨record.connection, ?_⟩
      rw [footing record known, Peer.footing, discarded]
    exact out.unasked reachable future kept

/-- A stream that has received a part of a block. -/
def partway : StreamTable :=
  StreamTable.empty.setSnapshot soleSender
    ⟨some ⟨MessageHeader.blockCommand, 1_000⟩, 100, .readingBody⟩

/-- A peer gives up in the middle of a transfer. -/
def surrender : List (Timestamp × Operation) :=
  [(⟨0⟩, .hear (.peerHandshaked soleSender)), (⟨1⟩, .download (.plain [.zero])), (⟨2⟩, .tick),
    (⟨3⟩, .transport partway), (⟨4⟩, .tick), (⟨5⟩, .hear (.blocksNotFound soleSender [.zero]))]

/-- The peer connects once more without having disconnected. -/
def reunion : List (Timestamp × Operation) :=
  [(⟨4_000⟩, .tick), (⟨4_001⟩, .hear (.peerConnected soleSender)), (⟨4_002⟩, .tick)]

set_option maxRecDepth 100000 in
theorem peer_lifecycle_surrender :
    let s := initial .brisk .empty
    create .brisk .empty = .ok s ∧
      Operation.lastSaid? (Operation.links? soleSender) surrender = some true ∧
      (∃ record, (s.run surrender).peers[soleSender]? = some record ∧
        record.connection = .handshaked ∧ record.work = .discarded) ∧
      ∀ step ∈ (s.run surrender).steps reunion, ∀ block, (soleSender, block) ∉ step.requests := by
  intro s
  have usable : create .brisk .empty = .ok s := rfl
  have linked : Operation.lastSaid? (Operation.links? soleSender) surrender = some true := by cbv
  have known : (s.run surrender).peers[soleSender]? =
      some ⟨.handshaked, .discarded, none, Peer.unmeasuredSpeed⟩ := by cbv
  have kept : ∀ step ∈ (s.run surrender).steps reunion, step.restarts soleSender = false := by
    decide +kernel
  obtain ⟨_, _, _, unasked⟩ := peer_lifecycle usable surrender soleSender
  exact ⟨usable, linked, ⟨_, known, rfl, rfl⟩, unasked _ known rfl reunion kept⟩

end Scheduler
end BlockFetch
