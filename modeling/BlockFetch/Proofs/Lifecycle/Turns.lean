import BlockFetch.Proofs.Lifecycle.Passage

/-!
# Turns

The passage of the turns that the peers get in a tick. A peer that is idle may be given a waiting
block, and the block of a busy peer may be put in limbo. As every peer has one turn, a block that is
given away is not looked at again.
-/
namespace BlockFetch

inductive Turn (peers : List PeerAddress) : Rule where
  | requested {block attempts? peer} (turn : peer ∈ peers) :
      Turn peers block (.waiting attempts?) [.requested peer]
        (.underway (.held peer) (attempts?.getD 0 + 1) false)
  | stalled {block peer attempts cancelling} (turn : peer ∈ peers) :
      Turn peers block (.underway (.held peer) attempts cancelling) []
        (.underway (.stalled peer) attempts cancelling)
  | still {block stage} : Turn peers block stage [] stage

theorem Turn.mono {first second : List PeerAddress} (subset : ∀ peer ∈ first, peer ∈ second)
    {block : BlockHash} {before after : Stage} {milestones : List Milestone}
    (h : Turn first block before milestones after) : Turn second block before milestones after := by
  cases h with
  | requested turn => exact .requested (subset _ turn)
  | stalled turn => exact .stalled (subset _ turn)
  | still => exact .still

/-- A peer that got a block at its turn is not among the peers that are still to come. -/
theorem Turn.join {peer : PeerAddress} {rest : List PeerAddress} (absent : peer ∉ rest)
    {block : BlockHash} {before after : Stage} {milestones : List Milestone}
    (h : Rule.followedBy (Turn [peer]) (Turn rest) block before milestones after) :
    Turn (peer :: rest) block before milestones after := by
  obtain ⟨middle, early, late, rfl, head, tail⟩ := h
  -- Only the holder's own turn could put the block in limbo, and it has had its turn.
  cases head with
  | requested turn =>
    cases List.mem_singleton.mp turn
    cases tail with
    | stalled later => exact absurd later absent
    | still => exact .requested List.mem_cons_self
  | stalled turn =>
    cases tail with
    | still => exact .stalled (List.mem_cons.mpr (Or.inl (List.mem_singleton.mp turn)))
  | still => exact tail.mono fun _ later => List.mem_cons_of_mem _ later

/-- A block that is handed out waits, and it has been begun if only such blocks are handed out. -/
theorem Backlog.handOut_eq_assigned {backlog remaining : Backlog} {inquiry : Backlog.Inquiry}
    {block : BlockHash} (h : backlog.handOut inquiry = (.assigned block, remaining)) :
    block ∈ backlog.queue ∧ (inquiry.restricted = true → backlog.isBegun block = true) ∧
      remaining = backlog.remove block := by
  unfold handOut at h
  split at h
  · rename_i first found
    obtain ⟨same, rest⟩ := Prod.mk.inj h
    cases same
    have considered := List.mem_of_find?_eq_some found
    unfold Backlog.considered at considered
    split at considered
    · obtain ⟨queued, begun⟩ := List.mem_filter.mp considered
      exact ⟨queued, fun _ => begun, rest.symm⟩
    · rename_i unrestricted
      exact ⟨considered, fun restricted => absurd restricted unrestricted, rest.symm⟩
  · exact nomatch (Prod.mk.inj h).1

/-- What a peer is working on: a block, and the number of the attempt on it. -/
def Peer.task? (peer : Peer) : Option (BlockHash × Nat) :=
  peer.transfer?.map fun transfer => (transfer.block, transfer.attempt)

theorem Peer.block?_eq_map_task? (peer : Peer) : peer.block? = peer.task?.map Prod.fst := by
  rw [task?, Option.map_map]
  rfl

theorem Peer.task?_observe (peer : Peer) (snapshot : StreamSnapshot) (now : Timestamp) :
    (peer.observe snapshot now).1.task? = peer.task? := by
  have same : ∀ transfer : Transfer,
      (transfer.observe snapshot now).1.block = transfer.block ∧
        (transfer.observe snapshot now).1.attempt = transfer.attempt := by
    intro transfer
    unfold Transfer.observe
    split
    · exact ⟨rfl, rfl⟩
    · split
      · exact ⟨rfl, rfl⟩
      · split
        · exact ⟨rfl, rfl⟩
        · dsimp only
          split <;> exact ⟨rfl, rfl⟩
  unfold observe
  split
  · rfl
  · rename_i transfer sends
    simp only [task?, sends, Option.map_some, ← (same transfer).1, ← (same transfer).2]

theorem Peer.block?_observe (peer : Peer) (snapshot : StreamSnapshot) (now : Timestamp) :
    (peer.observe snapshot now).1.block? = peer.block? := by
  rw [block?_eq_map_task?, task?_observe, block?_eq_map_task?]

namespace Scheduler

variable {s : Scheduler}

/-! ## Handing out -/

theorem moves_beginAttempt {block : BlockHash} {before : Standing}
    (h : s.standing block = before) :
    Moves s { s with backlog := s.backlog.beginAttempt block } block []
      { before with attempts? := some (before.attempts?.getD 0 + 1) } := by
  refine .of_outbox_eq rfl rfl rfl rfl ?_ fun other different => ?_
  · rw [← h]
    simp [standing, Backlog.beginAttempt, blockAt?, Backlog.attemptsOn,
      Std.ExtTreeMap.getD_eq_getD_getElem?]
  · simp [standing, Backlog.beginAttempt, blockAt?, Std.ExtTreeMap.getElem?_insert, different]

theorem moves_start {peer : PeerAddress} {record : Peer} {block : BlockHash} {before : Standing}
    (attempt : Nat) (now : Timestamp) (known : s.peers[peer]? = some record)
    (idle : s.blockAt? peer = none) (h : s.standing block = before)
    (free : before.heldBy = fun _ => False) :
    Moves s (s.modifyPeer peer fun record => record.start block attempt now) block []
      { before with heldBy := fun other => some peer = some other } := by
  have held : ∀ other, (s.modifyPeer peer fun record =>
      record.start block attempt now).blockAt? other =
        if peer = other then some block else s.blockAt? other := by
    intro other
    rw [blockAt?_modifyPeer]
    split
    · rename_i here
      rw [← here, known]
      rfl
    · rfl
  have books := sameBooks_modifyPeer s peer fun record _ => record.linked_start block attempt now
  refine ⟨?_, (List.append_nil _).symm, fun other different => ?_, books.links, rfl, rfl⟩
  · have nobody : ∀ other, s.blockAt? other ≠ some block := by
      intro other holds
      have impossible : (s.standing block).heldBy other := holds
      rw [h, free] at impossible
      exact impossible
    have holders : (fun other => (s.modifyPeer peer fun record =>
        record.start block attempt now).blockAt? other = some block) =
          fun other => some peer = some other := by
      funext other
      rw [held, Option.some_inj]
      by_cases here : peer = other
      · simp [here]
      · simp [here, nobody other]
    rw [books.standing, h, holders]
  · refine books.keeps fun holder => ?_
    rw [held]
    split
    · rename_i here
      rw [← here, idle]
      simp [different]
    · rfl

theorem moves_watch {block : BlockHash} {before : Standing} (peer : PeerAddress) (now : Timestamp)
    (h : s.standing block = before) :
    Moves s { s with
        lastActivity := s.lastActivity.insert block now
        refusals := s.refusals.erase peer } block []
      { before with watched := true } := by
  refine .of_outbox_eq rfl rfl rfl rfl ?_ fun other different => ?_
  · rw [← h]
    simp [standing, blockAt?]
  · simp [standing, blockAt?, Std.ExtTreeMap.contains_insert, different]

theorem moves_publish_blockRequested {block : BlockHash} {before : Standing} (peer : PeerAddress)
    (h : s.standing block = before) :
    Moves s (s.publish (.blockRequested peer block)) block [.requested peer] before where
  standing := h
  story := by
    rw [story_publish]
    simp [NetworkEvent.milestone?, published]
  keeps other different := by
    refine ⟨rfl, ?_⟩
    rw [story_publish]
    simp [NetworkEvent.milestone?, different]
  links := .of_peers_eq rfl
  settings := rfl
  retries := rfl

theorem moves_assign {peer : PeerAddress} {record : Peer} {block : BlockHash}
    {attempts? : Option Nat} (now : Timestamp) (known : s.peers[peer]? = some record)
    (idle : s.blockAt? peer = none) (h : s.InStage block (.waiting attempts?)) :
    Moves s ({ s with backlog := s.backlog.remove block }.assign peer block now) block
      [.requested peer]
      (Stage.underway (.held peer) (attempts?.getD 0 + 1) false).standing := by
  have removed := moves_remove h
  have begun := removed.trans (moves_beginAttempt removed.standing)
  have started := begun.trans (moves_start (Backlog.attemptsOn
    { s with backlog := (s.backlog.remove block).beginAttempt block }.backlog block) now known idle
    begun.standing rfl)
  have watched := started.trans (moves_watch peer now started.standing)
  have announced := watched.trans (moves_publish_blockRequested peer watched.standing)
  have silence : ∀ other, (NetworkEvent.keepAlive peer false).milestone? other = none :=
    fun _ => rfl
  exact ((announced.trans_quiet (quiet_publish _ silence)).trans_quiet
    (quiet_growBuffer _ peer)).trans_quiet (quiet_note _ block (some peer) _ now)

theorem passes_findBlock (round : Round) (staged : round.scheduler.Staged) {peer : PeerAddress}
    {record : Peer} (known : round.scheduler.peers[peer]? = some record)
    (available : record.isAvailable = true) (now : Timestamp) :
    Passes (Turn [peer]) round.scheduler (findBlock round peer now).scheduler := by
  have idle : round.scheduler.blockAt? peer = none := by
    have none := (staged.linked peer record known).transfer?_eq_none_of_isAvailable available
    simp [blockAt?, known, Peer.block?, none]
  unfold findBlock
  dsimp only
  split
  · exact (Quiet.refl _).passes fun _ _ => .still
  · split
    · rename_i refusals _ _
      exact (quiet_noteRefusals _ peer refusals).passes fun _ _ => .still
    · rename_i block backlog handed
      obtain ⟨queued, _, rfl⟩ := Backlog.handOut_eq_assigned handed
      obtain ⟨stage, h⟩ := staged.stage block
      rw [h.mem_queue] at queued
      cases stage with
      | waiting attempts? =>
        exact (moves_assign now known idle h).passes h
          (.requested (List.mem_singleton_self peer)) fun _ _ _ => .still
      | _ => simp [Stage.isWaiting] at queued

theorem passes_offerBlock {round : Round} (staged : round.scheduler.Staged) {peer : PeerAddress}
    {record : Peer} (known : round.scheduler.peers[peer]? = some record)
    (available : record.isAvailable = true) (now : Timestamp) :
    Passes (Turn [peer]) round.scheduler (offerBlock round peer now).scheduler := by
  have checked := quiet_checkBandwidth round.scheduler
  have knownStill : round.scheduler.checkBandwidth.peers[peer]? = some record := by
    rw [peers_checkBandwidth, known]
  exact checked.trans_passes (passes_findBlock
    { round with scheduler := round.scheduler.checkBandwidth } (checked.staged staged) knownStill
    available now)

/-! ## Watching -/

theorem quiet_observe {peer : PeerAddress} {record : Peer} {block : BlockHash}
    (known : s.peers[peer]? = some record) (watched : s.lastActivity.contains block = true)
    (now : Timestamp) : Quiet s (s.observe peer record block now).2 := by
  unfold observe
  split
  · exact Quiet.refl s
  · rename_i snapshot _
    have same := record.block?_observe snapshot now
    have seen : Quiet s { s with
        peers := s.peers.insert peer (record.observe snapshot now).1 } := by
      refine ⟨.of_links (.insert rfl fun linked =>
        (linked peer record known).observe snapshot now), fun other => ?_⟩
      simp only [blockAt?, Std.ExtTreeMap.getElem?_insert, Std.LawfulEqCmp.compare_eq_iff_eq]
      split
      · rename_i here
        rw [← here, known, Option.bind_some, Option.bind_some, same]
      · rfl
    dsimp only
    split
    · refine seen.trans ⟨?_, fun _ => rfl⟩
      constructor
      case links => exact .of_peers_eq rfl
      case watched =>
        intro other
        rw [Std.ExtTreeMap.contains_insert]
        by_cases here : block = other
        · rw [← here, watched, Bool.or_true]
        · simp [here]
      all_goals intros; rfl
    · exact seen

theorem passes_watch (staged : s.Staged) {peer : PeerAddress} {record : Peer} {transfer : Transfer}
    (known : s.peers[peer]? = some record) (sends : record.transfer? = some transfer)
    (now : Timestamp) : Passes (Turn [peer]) s (s.watch peer record transfer now) := by
  obtain ⟨stage, h⟩ := staged.stage transfer.block
  have holds : s.blockAt? peer = some transfer.block := by
    rw [blockAt?, known, Option.bind_some, Peer.block?, sends, Option.map_some]
  rw [h.heldBy] at holds
  have limbo := h.contains_limbo
  unfold watch
  split
  · exact (Quiet.refl s).passes fun _ _ => .still
  · rename_i outside
    cases stage with
    | underway custody attempts cancelling =>
      have observed := quiet_observe known h.contains_lastActivity now
      dsimp only
      split
      · rename_i stall _
        cases custody with
        | held holder =>
          cases Option.some_inj.mp holds
          have still := (observed.keeps _).inStage h
          have moved : Moves _ _ transfer.block []
              (Stage.underway (.stalled peer) attempts cancelling).standing :=
            moves_moveToLimbo peer stall now still
          exact observed.trans_passes (moved.passes still
            (.stalled (List.mem_singleton_self peer)) fun _ _ _ => .still)
        | stalled => exact absurd limbo outside
        | adrift => exact absurd limbo outside
      · exact observed.passes fun _ _ => .still
    | _ => exact holds.elim

/-! ## Turns -/

/-- What the turn of a peer is: a peer that can take work is offered a block, the transfer of a busy
one is looked at, and no other peer has a turn. -/
inductive TurnTaken (now : Timestamp) (round : Round) (peer : PeerAddress) : Round → Prop where
  | offered {record : Peer} (known : round.scheduler.peers[peer]? = some record)
      (available : record.isAvailable = true) : TurnTaken now round peer (offerBlock round peer now)
  | watched {record : Peer} {transfer : Transfer}
      (known : round.scheduler.peers[peer]? = some record) (unavailable : ¬ record.isAvailable = true)
      (sends : record.transfer? = some transfer) :
      TurnTaken now round peer
        { round with scheduler := round.scheduler.watch peer record transfer now }
  | passed (rests : ∀ record, round.scheduler.peers[peer]? = some record →
      ¬ record.isAvailable = true ∧ (record.isBusy = true → record.transfer? = none)) :
      TurnTaken now round peer round

theorem turnTaken_turn (now : Timestamp) (round : Round) (peer : PeerAddress) :
    TurnTaken now round peer (turn now round peer) := by
  unfold turn
  split
  · rename_i unknown
    exact .passed fun record known => nomatch unknown.symm.trans known
  · rename_i record known
    have rests (none : record.isBusy = true → record.transfer? = none)
        (unavailable : ¬ record.isAvailable = true) : TurnTaken now round peer round :=
      .passed fun other found => by
        cases known.symm.trans found
        exact ⟨unavailable, none⟩
    split
    · rename_i available
      exact .offered known available
    · rename_i unavailable
      split
      · split
        · rename_i transfer sends
          exact .watched known unavailable sends
        · rename_i none
          exact rests (fun _ => none) unavailable
      · rename_i unoccupied
        exact rests (fun busy => absurd busy unoccupied) unavailable

theorem passes_turn {round : Round} (staged : round.scheduler.Staged) (now : Timestamp)
    (peer : PeerAddress) :
    Passes (Turn [peer]) round.scheduler (turn now round peer).scheduler := by
  have taken := turnTaken_turn now round peer
  generalize turn now round peer = next at taken ⊢
  cases taken with
  | offered known available => exact passes_offerBlock staged known available now
  | watched known _ sends => exact passes_watch staged known sends now
  | passed => exact (Quiet.refl _).passes fun _ _ => .still

theorem nodup_fastestFirst (s : Scheduler) : s.fastestFirst.Nodup := by
  have sorted := List.mergeSort_perm s.peers.toList fun a b => decide (b.2.speed ≤ a.2.speed)
  refine (sorted.map Prod.fst).nodup_iff.mpr ?_
  rw [Std.ExtTreeMap.map_fst_toList_eq_keys]
  exact Std.ExtTreeMap.nodup_keys

theorem mem_fastestFirst {peer : PeerAddress} :
    peer ∈ s.fastestFirst ↔ ∃ record, s.peers[peer]? = some record := by
  simp [fastestFirst, Std.ExtTreeMap.mem_toList_iff_getElem?_eq_some]

theorem passes_turns (staged : s.Staged) (now : Timestamp) :
    Passes (Turn s.fastestFirst) s (s.turns now) := by
  have checked := quiet_checkBandwidth s
  have passed := passes_foldl Round.scheduler
    (fun peers block before milestones after =>
      peers.Nodup → Turn peers block before milestones after) s.settings
    (fun _ _ _ => .still) (fun _ peer staged _ => passes_turn staged now peer)
    (fun peer rest block before milestones after steps distinct => by
      obtain ⟨absent, distinct⟩ := List.nodup_cons.mp distinct
      obtain ⟨middle, early, late, same, head, tail⟩ := steps
      exact Turn.join absent ⟨middle, early, late, same, head, tail distinct⟩)
    s.fastestFirst ⟨s.checkBandwidth, s.pool⟩ (checked.staged staged) checked.settings
  exact checked.trans_passes (passed.mono fun _ _ _ _ _ allowed => allowed s.nodup_fastestFirst)

end Scheduler
end BlockFetch
