import BlockFetch.Proofs.Elements
import BlockFetch.Proofs.Lifecycle.Repetition

/-!
# Watched transfers

The turns of a tick look at every transfer once. What a look shows is taken over, and the block of a
transfer that is no longer timely is put in limbo. Peers whose turn is still to come are as the tick
found them, so in the end every transfer is judged by what its own stream shows.
-/
namespace BlockFetch

structure Transfer.IsTimely (transfer : Transfer) (settings : Settings) (now : Timestamp) :
    Prop where
  sound : transfer.corrupted = false
  active : transfer.idleFor now ≤ settings.maxIdle
  swift : transfer.elapsed now ≤ settings.maxTransferTime

theorem Transfer.isTimely_start (block : BlockHash) (attempt : Nat) (settings : Settings)
    (now : Timestamp) : (Transfer.start block attempt now).IsTimely settings now := by
  have nothing : ∀ limit : Duration, now.since now ≤ limit := by
    intro limit
    rw [Timestamp.since_self, UInt64.le_iff_toNat_le]
    exact Nat.zero_le _
  exact ⟨rfl, nothing _, nothing _⟩

def Peer.SendsOnline (peer : Peer) : Prop :=
  ∀ transfer, peer.transfer? = some transfer → peer.connection = .handshaked

theorem Peer.Changed.sendsOnline {before after : Peer} (h : before.SendsOnline)
    (change : Changed before after) : after.SendsOnline := by
  intro transfer sends
  cases change with
  | relieved relief =>
    cases relief with
    | released => exact nomatch before.transfer?_release.symm.trans sends
    | failed => exact nomatch before.transfer?_fail.symm.trans sends
    | measured => exact h transfer sends
  | detached => exact nomatch before.disconnect.transfer?_release.symm.trans sends
  | reconnected => exact nomatch sends
  | handshaked => rfl
  | started available =>
    simp only [isAvailable, isHandshaked, Bool.and_eq_true, decide_eq_true_eq] at available
    exact available.1
  | observed snapshot now =>
    unfold observe at sends ⊢
    split at sends
    · exact h transfer sends
    · rename_i sent sending
      exact h sent sending

namespace Scheduler

def transferAt? (s : Scheduler) (peer : PeerAddress) : Option Transfer :=
  (s.peers[peer]?).bind Peer.transfer?

/-- The transfer of a peer as the stream of the peer shows it, if it has one. -/
def seen? (s : Scheduler) (peer : PeerAddress) (now : Timestamp) : Option Transfer :=
  (s.transferAt? peer).map fun transfer =>
    match s.streams.snapshot? peer with
    | some snapshot => (transfer.observe snapshot now).1
    | none => transfer

variable {s t : Scheduler}

theorem Reachable.sendsOnline (h : s.Reachable) : s.AllPeers Peer.SendsOnline :=
  h.allPeers (fun _ sends => nomatch sends) fun _ _ => Peer.Changed.sendsOnline

/-- Peers that are relieved at most keep their transfers as they are, or lose them. -/
theorem Elements.transferAt? (h : Elements Peer.Relieved s t) {peer : PeerAddress}
    {transfer : Transfer} (sends : t.transferAt? peer = some transfer) :
    s.transferAt? peer = some transfer := by
  induction h with
  | refl => exact sends
  | @tail middle after _ step ih =>
    refine ih ?_
    cases step with
    | tables _ peers => rwa [Scheduler.transferAt?, peers] at sends
    | peers peers each =>
      obtain ⟨record, found, sends⟩ := Option.bind_eq_some_iff.mp sends
      have kept : (middle.peers.getD peer .fresh).transfer? = some transfer := by
        rcases each peer record found with rfl | relief
        · exact sends
        · generalize middle.peers.getD peer .fresh = before at relief ⊢
          cases relief with
          | released => exact nomatch before.transfer?_release.symm.trans sends
          | failed => exact nomatch before.transfer?_fail.symm.trans sends
          | measured => exact sends
      rw [Std.ExtTreeMap.getD_eq_getD_getElem?] at kept
      rw [Scheduler.transferAt?]
      cases known : middle.peers[peer]? with
      | none =>
        rw [known] at kept
        exact nomatch kept
      | some before =>
        rw [known] at kept
        exact kept
    | partials => exact sends
    | asked => exact sends

/-! ## One turn -/

/-- What the turn of a peer does to transfers and to limbo. -/
structure Watches (now : Timestamp) (s : Scheduler) (peer : PeerAddress) (t : Scheduler) :
    Prop where
  settings : t.settings = s.settings
  snapshots : ∀ other, t.streams.snapshot? other = s.streams.snapshot? other
  elsewhere : ∀ other, peer ≠ other → t.peers[other]? = s.peers[other]?
  timely : ∀ transfer, t.transferAt? peer = some transfer →
    transfer.block ∈ t.limbo ∨ transfer.IsTimely s.settings now
  kept : ∀ block ∈ s.limbo, block ∈ t.limbo ∧ t.lastActivity[block]? = s.lastActivity[block]?
  entered : ∀ block ∈ t.limbo, block ∉ s.limbo → t.lastActivity[block]? = some now ∧
    ∃ transfer, s.seen? peer now = some transfer ∧ transfer.block = block ∧
      ¬ transfer.IsTimely s.settings now

/-- A turn that leaves transfers, limbo and the times of blocks in it alone. -/
theorem Watches.of_limbo_eq {now : Timestamp} {peer : PeerAddress}
    (settings : t.settings = s.settings)
    (snapshots : ∀ other, t.streams.snapshot? other = s.streams.snapshot? other)
    (elsewhere : ∀ other, peer ≠ other → t.peers[other]? = s.peers[other]?)
    (timely : ∀ transfer, t.transferAt? peer = some transfer →
      transfer.block ∈ t.limbo ∨ transfer.IsTimely s.settings now)
    (limbo : t.limbo = s.limbo)
    (activity : ∀ block ∈ s.limbo, t.lastActivity[block]? = s.lastActivity[block]?) :
    Watches now s peer t where
  settings := settings
  snapshots := snapshots
  elsewhere := elsewhere
  timely := timely
  kept _ member := ⟨limbo ▸ member, activity _ member⟩
  entered _ member absent := absurd (limbo ▸ member) absent

theorem Watches.of_idle {now : Timestamp} {peer : PeerAddress} (settings : t.settings = s.settings)
    (streams : t.streams = s.streams) (peers : t.peers = s.peers) (limbo : t.limbo = s.limbo)
    (lastActivity : t.lastActivity = s.lastActivity) (idle : s.transferAt? peer = none) :
    Watches now s peer t := by
  refine .of_limbo_eq settings (fun _ => by rw [streams]) (fun _ _ => by rw [peers]) ?_ limbo
    fun _ _ => by rw [lastActivity]
  intro transfer sends
  rw [transferAt?, peers] at sends
  exact nomatch idle.symm.trans sends

theorem snapshot?_growBuffer (table : StreamTable) (peer other : PeerAddress) :
    (table.orUnchanged (table.growBuffer peer)).snapshot? other = table.snapshot? other := by
  unfold StreamTable.growBuffer StreamTable.request
  split
  · rfl
  · split
    · rw [StreamTable.orUnchanged_ok, StreamTable.snapshot?, StreamTable.modify,
        Std.ExtTreeMap.getElem?_modify]
      split
      · rename_i same
        rw [← Std.LawfulEqOrd.eq_of_compare same, StreamTable.snapshot?]
        cases table.streams[peer]? <;> rfl
      · rfl
    · rfl

/-- A peer that is given a block has all the time for it. -/
theorem watches_assign {now : Timestamp} {peer : PeerAddress} {record : Peer} {block : BlockHash}
    (known : s.peers[peer]? = some record) (outside : block ∉ s.limbo) :
    Watches now s peer (s.assign peer block now) := by
  have peers : (s.assign peer block now).peers = s.peers.modify peer fun record =>
      record.start block ((s.backlog.beginAttempt block).attemptsOn block) now := rfl
  refine .of_limbo_eq rfl (snapshot?_growBuffer s.streams peer) (fun other different => ?_)
    (fun transfer sends => .inr ?_) rfl fun other member => ?_
  · rw [peers, Std.ExtTreeMap.getElem?_modify]
    simp [different]
  · rw [transferAt?, peers, Std.ExtTreeMap.getElem?_modify_self, known] at sends
    cases sends
    exact Transfer.isTimely_start ..
  · have different : block ≠ other := fun same => outside (same ▸ member)
    change (s.lastActivity.insert block now)[other]? = _
    simp [Std.ExtTreeMap.getElem?_insert, different]

theorem watches_offerBlock {round : Round} (staged : round.scheduler.Staged) {peer : PeerAddress}
    {record : Peer} (known : round.scheduler.peers[peer]? = some record)
    (available : record.isAvailable = true) (now : Timestamp) :
    Watches now round.scheduler peer (offerBlock round peer now).scheduler := by
  have idle : round.scheduler.transferAt? peer = none := by
    rw [transferAt?, known, Option.bind_some]
    exact (staged.linked peer record known).transfer?_eq_none_of_isAvailable available
  have offered := offer_offerBlock round peer now
  generalize (offerBlock round peer now).scheduler = offer at offered ⊢
  cases offered with
  | unasked flag => exact .of_idle rfl rfl rfl rfl rfl idle
  | refused flag refusals => exact .of_idle rfl rfl rfl rfl rfl idle
  | @assigned block _ flag _ waits =>
    have outside : block ∉ round.scheduler.limbo := by
      obtain ⟨stage, h⟩ := staged.stage block
      rw [h.mem_queue] at waits
      rw [h.inLimbo]
      cases stage with
      | waiting => simp [Stage.standing]
      | _ => cases waits
    let taken : Scheduler :=
      { round.scheduler with
        bandwidthRestricted := flag, backlog := round.scheduler.backlog.remove block }
    have given : Watches now taken peer (taken.assign peer block now) :=
      watches_assign known outside
    exact ⟨given.settings, given.snapshots, given.elsewhere, given.timely, given.kept,
      given.entered⟩

/-- A peer that is connected is stalled exactly if its transfer is not timely. -/
theorem stall?_eq_none_iff {record : Peer} (online : record.connection = .handshaked)
    (transfer : Transfer) (now : Timestamp) :
    s.stall? record transfer now = none ↔ transfer.IsTimely s.settings now := by
  constructor
  · intro lively
    unfold stall? at lively
    split at lively
    · exact nomatch lively
    · rename_i sound
      split at lively
      · exact nomatch lively
      · rename_i active
        split at lively
        · exact nomatch lively
        · rename_i swift
          exact ⟨Bool.eq_false_iff.mpr sound, UInt64.not_lt.mp active, UInt64.not_lt.mp swift⟩
  · intro timely
    have active : ¬ transfer.idleFor now > s.settings.maxIdle := UInt64.not_lt.mpr timely.active
    have swift : ¬ transfer.elapsed now > s.settings.maxTransferTime :=
      UInt64.not_lt.mpr timely.swift
    simp [stall?, timely.sound, active, swift, online]

theorem observe_eq {peer : PeerAddress} {record : Peer} {transfer : Transfer}
    (known : s.peers[peer]? = some record) (sends : record.transfer? = some transfer)
    (now : Timestamp) :
    ∃ after shown lastActivity,
      s.observe peer record transfer.block now =
        (after, { s with peers := s.peers.insert peer after, lastActivity }) ∧
      s.seen? peer now = some shown ∧ after.transfer? = some shown ∧
      shown.block = transfer.block ∧ after.connection = record.connection ∧
      ∀ block, transfer.block ≠ block → lastActivity[block]? = s.lastActivity[block]? := by
  have sending : s.transferAt? peer = some transfer := by
    rw [transferAt?, known, Option.bind_some, sends]
  unfold observe
  split
  · rename_i unseen
    refine ⟨record, transfer, s.lastActivity, ?_, ?_, sends, rfl, rfl, fun _ _ => rfl⟩
    · rw [insert_eq_self known]
    · rw [seen?, sending, unseen]
      rfl
  · rename_i snapshot shows
    have looked : record.observe snapshot now =
        ({ record with transfer? := some (transfer.observe snapshot now).1 },
          (transfer.observe snapshot now).2) := by
      simp only [Peer.observe, sends]
    have same : (transfer.observe snapshot now).1.block = transfer.block := by
      unfold Transfer.observe
      split
      · rfl
      · split
        · rfl
        · split
          · rfl
          · dsimp only
            split <;> rfl
    rw [looked]
    refine ⟨{ record with transfer? := some (transfer.observe snapshot now).1 },
      (transfer.observe snapshot now).1,
      if (transfer.observe snapshot now).2 then s.lastActivity.insert transfer.block now
      else s.lastActivity, ?_, ?_, rfl, same, rfl, fun block different => ?_⟩
    · dsimp only
      split <;> rfl
    · rw [seen?, sending, shows]
      rfl
    · split
      · simp [Std.ExtTreeMap.getElem?_insert, different]
      · rfl

theorem watches_watch {peer : PeerAddress} {record : Peer} {transfer : Transfer}
    (known : s.peers[peer]? = some record) (sends : record.transfer? = some transfer)
    (online : record.SendsOnline) (now : Timestamp) :
    Watches now s peer (s.watch peer record transfer now) := by
  have sending : s.transferAt? peer = some transfer := by
    rw [transferAt?, known, Option.bind_some, sends]
  unfold watch
  split
  · rename_i limbo
    refine .of_limbo_eq rfl (fun _ => rfl) (fun _ _ => rfl) (fun found sent => .inl ?_) rfl
      fun _ _ => rfl
    cases sending.symm.trans sent
    exact Std.ExtTreeSet.contains_iff_mem.mp limbo
  · rename_i outside
    rw [Std.ExtTreeSet.contains_iff_mem] at outside
    obtain ⟨after, shown, lastActivity, looked, seen, sees, same, connection, activity⟩ :=
      observe_eq known sends now
    have connected : after.connection = .handshaked := connection.trans (online transfer sends)
    have elsewhere : ∀ other, peer ≠ other →
        (s.peers.insert peer after)[other]? = s.peers[other]? := by
      intro other different
      simp [Std.ExtTreeMap.getElem?_insert, different]
    have left : ∀ block ∈ s.limbo, transfer.block ≠ block :=
      fun block member here => outside (here ▸ member)
    rw [looked]
    dsimp only
    rw [sees, Option.bind_some]
    split
    · rename_i stall stalled
      have late : ¬ shown.IsTimely s.settings now := by
        intro timely
        have lively := (stall?_eq_none_iff (s := s) connected shown now).mpr timely
        exact nomatch lively.symm.trans stalled
      refine ⟨rfl, fun _ => rfl, elsewhere, fun found sent => .inl ?_, fun block member => ?_,
        fun block member absent => ?_⟩
      · change (((s.peers.insert peer after)[peer]?).bind Peer.transfer?) = some found at sent
        rw [Std.ExtTreeMap.getElem?_insert_self, Option.bind_some, sees] at sent
        cases sent
        rw [same]
        exact Std.ExtTreeSet.mem_insert_self
      · refine ⟨Std.ExtTreeSet.mem_insert.mpr (.inr member), ?_⟩
        change (lastActivity.insert transfer.block now)[block]? = _
        rw [← activity block (left block member), Std.ExtTreeMap.getElem?_insert]
        simp [left block member]
      · rcases Std.ExtTreeSet.mem_insert.mp member with here | before
        · cases Std.LawfulEqOrd.eq_of_compare here
          refine ⟨?_, shown, seen, same, late⟩
          change (lastActivity.insert transfer.block now)[transfer.block]? = _
          exact Std.ExtTreeMap.getElem?_insert_self
        · exact absurd before absent
    · rename_i lively
      have timely := (stall?_eq_none_iff (s := s) connected shown now).mp lively
      refine .of_limbo_eq rfl (fun _ => rfl) elsewhere (fun found sent => .inr ?_) rfl
        fun block member => activity block (left block member)
      change (((s.peers.insert peer after)[peer]?).bind Peer.transfer?) = some found at sent
      rw [Std.ExtTreeMap.getElem?_insert_self, Option.bind_some, sees] at sent
      cases sent
      exact timely

theorem watches_turn {round : Round} (staged : round.scheduler.Staged)
    (online : round.scheduler.AllPeers Peer.SendsOnline) (now : Timestamp) (peer : PeerAddress) :
    Watches now round.scheduler peer (turn now round peer).scheduler := by
  have taken := turnTaken_turn now round peer
  generalize turn now round peer = next at taken ⊢
  cases taken with
  | offered known available => exact watches_offerBlock staged known available now
  | @watched record transfer known _ sends =>
    exact watches_watch known sends (online peer record known) now
  | passed rests =>
    have idle : round.scheduler.transferAt? peer = none := by
      refine Option.bind_eq_none_iff.mpr fun record known => ?_
      have linked := staged.linked peer record known
      cases busy : record.isBusy with
      | true => exact (rests record known).2 busy
      | false => exact linked.transfer?_eq_none_of_not_isBusy busy
    exact .of_idle rfl rfl rfl rfl rfl idle

/-! ## All turns -/

/-- What the turns of some peers have done while others are still to come. -/
structure Watched (now : Timestamp) (s : Scheduler) (waiting : List PeerAddress) (t : Scheduler) :
    Prop where
  settings : t.settings = s.settings
  snapshots : ∀ peer, t.streams.snapshot? peer = s.streams.snapshot? peer
  untouched : ∀ peer ∈ waiting, t.peers[peer]? = s.peers[peer]?
  timely : ∀ peer transfer, peer ∉ waiting → t.transferAt? peer = some transfer →
    transfer.block ∈ t.limbo ∨ transfer.IsTimely s.settings now
  kept : ∀ block ∈ s.limbo, block ∈ t.limbo ∧ t.lastActivity[block]? = s.lastActivity[block]?
  entered : ∀ block ∈ t.limbo, block ∉ s.limbo → t.lastActivity[block]? = some now ∧
    ∃ peer transfer, s.seen? peer now = some transfer ∧ transfer.block = block ∧
      ¬ transfer.IsTimely s.settings now

theorem Watched.turn {now : Timestamp} {peer : PeerAddress} {waiting : List PeerAddress}
    {u : Scheduler} (h : Watched now s (peer :: waiting) t) (absent : peer ∉ waiting)
    (turn : Watches now t peer u) : Watched now s waiting u where
  settings := turn.settings.trans h.settings
  snapshots other := (turn.snapshots other).trans (h.snapshots other)
  untouched other later := by
    have different : peer ≠ other := fun same => absent (same ▸ later)
    rw [turn.elsewhere other different]
    exact h.untouched other (List.mem_cons_of_mem _ later)
  timely other transfer done sends := by
    by_cases here : peer = other
    · subst here
      rw [← h.settings]
      exact turn.timely transfer sends
    · rw [transferAt?, turn.elsewhere other here] at sends
      have earlier : other ∉ peer :: waiting := by simp [Ne.symm here, done]
      exact (h.timely other transfer earlier sends).imp_left fun member =>
        (turn.kept _ member).1
  kept block member := by
    obtain ⟨still, same⟩ := h.kept block member
    obtain ⟨stays, activity⟩ := turn.kept block still
    exact ⟨stays, activity.trans same⟩
  entered block member absent := by
    by_cases before : block ∈ t.limbo
    · obtain ⟨activity, stalled⟩ := h.entered block before absent
      exact ⟨(turn.kept block before).2.trans activity, stalled⟩
    · obtain ⟨activity, transfer, seen, same, late⟩ := turn.entered block member before
      refine ⟨activity, peer, transfer, ?_, same, h.settings ▸ late⟩
      rw [← seen, seen?, seen?, transferAt?, transferAt?,
        h.untouched peer List.mem_cons_self, h.snapshots peer]

/-- In the end every transfer is timely or its block is in limbo, and blocks have entered limbo only
because of transfers that were not timely. -/
theorem Staged.watched_turns (staged : s.Staged) (online : s.AllPeers Peer.SendsOnline)
    (now : Timestamp) : Watched now s [] (s.turns now) := by
  have all : ∀ (peers : List PeerAddress) (round : Round), peers.Nodup →
      round.scheduler.Staged → round.scheduler.AllPeers Peer.SendsOnline →
      Watched now s peers round.scheduler →
      Watched now s [] (peers.foldl (turn now) round).scheduler := by
    intro peers
    induction peers with
    | nil => exact fun _ _ _ _ watched => watched
    | cons peer rest ih =>
      intro round distinct staged online watched
      obtain ⟨absent, distinct⟩ := List.nodup_cons.mp distinct
      refine ih (turn now round peer) distinct ((passes_turn staged now peer).staged staged) ?_
        (watched.turn absent (watches_turn staged online now peer))
      exact (elements_turn now round peer).allPeers (fun _ sends => nomatch sends)
        (fun _ _ => Peer.Changed.sendsOnline) online
  obtain ⟨flag, same⟩ := checkBandwidth_eq s
  have ready := (quiet_checkBandwidth s).staged staged
  have start : Watched now s s.fastestFirst s.checkBandwidth := by
    rw [same]
    refine ⟨rfl, fun _ => rfl, fun _ _ => rfl, fun peer transfer unlisted sends => ?_,
      fun _ member => ⟨member, rfl⟩, fun _ member absent => absurd member absent⟩
    refine absurd ?_ unlisted
    obtain ⟨record, known, _⟩ := Option.bind_eq_some_iff.mp sends
    exact mem_fastestFirst.mpr ⟨record, known⟩
  refine all s.fastestFirst ⟨s.checkBandwidth, s.pool⟩ s.nodup_fastestFirst ready ?_ start
  show s.checkBandwidth.AllPeers Peer.SendsOnline
  rw [AllPeers, peers_checkBandwidth]
  exact online

end Scheduler
end BlockFetch
