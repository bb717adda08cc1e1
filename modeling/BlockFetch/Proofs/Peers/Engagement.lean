import BlockFetch.Proofs.Lifecycle.Course
import BlockFetch.Proofs.Workload.Outcome

/-!
# Engagements

A peer is engaged from the request of a block until it is freed. The scheduler says so twice, by the
keep-alive of the connection and by the size of the receive buffer. Whatever happens to a peer goes
with these signals, except that connections are made and closed without any.
-/
namespace BlockFetch

/-- What is signalled about the work of a peer, or puts an end to it. -/
inductive Signal where
  | taken
  | freed
  /-- The peer is gone, or all peers are. -/
  | cut
  deriving DecidableEq

namespace Effect

def keepAlive? (peer : PeerAddress) : Effect → Option Signal
  | .publish (.keepAlive other enabled) =>
    if other = peer then some (if enabled then .freed else .taken) else none
  | _ => none

def buffer? (peer : PeerAddress) : Effect → Option Signal
  | .growBuffer other => if other = peer then some .taken else none
  | .resetBuffer other => if other = peer then some .freed else none
  | .publish _ => none

end Effect

/-- How a peer is connected and what it is doing. -/
structure Footing where
  connection : Connection
  work : Work
  deriving DecidableEq

def Peer.footing (peer : Peer) : Footing := ⟨peer.connection, peer.work⟩

/-- What happens to a peer, if it is known, and the signals that go with it. -/
inductive Shifts : Option Footing → List Signal → Option Footing → Prop where
  | stays {footing} : Shifts footing [] footing
  | taken : Shifts (some ⟨.handshaked, .idle⟩) [.taken] (some ⟨.handshaked, .transferring⟩)
  | freed {connection work} (ends : work ≠ .transferring) :
      Shifts (some ⟨connection, .transferring⟩) [.freed] (some ⟨connection, work⟩)
  | trans {first second third early late} (head : Shifts first early second)
      (tail : Shifts second late third) : Shifts first (early ++ late) third

/-! ## Changes of a peer -/

namespace Peer

variable {peer : Peer}

theorem footing_eq_of_isAvailable (available : peer.isAvailable = true) :
    peer.footing = ⟨.handshaked, .idle⟩ := by
  simp only [isAvailable, isHandshaked, Bool.and_eq_true, decide_eq_true_eq] at available
  rw [footing, available.1, available.2]

theorem footing_observe (peer : Peer) (snapshot : StreamSnapshot) (now : Timestamp) :
    (peer.observe snapshot now).1.footing = peer.footing := by
  unfold observe
  split <;> rfl

end Peer

namespace Scheduler

def footingAt? (s : Scheduler) (peer : PeerAddress) : Option Footing :=
  (s.peers[peer]?).map Peer.footing

def IsBusyAt (s : Scheduler) (peer : PeerAddress) : Prop :=
  ∃ record, s.peers[peer]? = some record ∧ record.isBusy = true

/-- All that a step does to a peer goes with signals, and both kinds of signals say the same, if
exactly the busy peers have a transfer; and this stays so. -/
structure Engages (peer : PeerAddress) (s t : Scheduler) : Prop where
  links : KeepsLinks s t
  shifts : s.AllPeers Peer.Linked → ∃ effects signals, t.outbox = s.outbox ++ effects ∧
    effects.filterMap (Effect.keepAlive? peer) = signals ∧
    effects.filterMap (Effect.buffer? peer) = signals ∧
    Shifts (s.footingAt? peer) signals (t.footingAt? peer)

variable {s t u : Scheduler} {peer holder : PeerAddress} {block : BlockHash}

namespace Engages

theorem of_linked (h : s.AllPeers Peer.Linked → Engages peer s t) : Engages peer s t :=
  ⟨fun linked => (h linked).links linked, fun linked => (h linked).shifts linked⟩

theorem of_footing_eq (links : KeepsLinks s t) (outbox : t.outbox = s.outbox)
    (footing : t.footingAt? peer = s.footingAt? peer) : Engages peer s t :=
  ⟨links, fun _ => ⟨[], [], by rw [outbox, List.append_nil], rfl, rfl, footing ▸ .stays⟩⟩

theorem of_tables (outbox : t.outbox = s.outbox) (peers : t.peers = s.peers) : Engages peer s t :=
  .of_footing_eq (.of_peers_eq peers) outbox (by rw [footingAt?, footingAt?, peers])

theorem refl (s : Scheduler) : Engages peer s s := of_tables rfl rfl

theorem trans (first : Engages peer s t) (second : Engages peer t u) : Engages peer s u := by
  refine ⟨first.links.trans second.links, fun linked => ?_⟩
  obtain ⟨early, _, outbox, rfl, buffers, shifts⟩ := first.shifts linked
  obtain ⟨late, _, outboxLater, rfl, buffersLater, shiftsLater⟩ :=
    second.shifts (first.links linked)
  refine ⟨early ++ late, _, ?_, rfl, ?_, ?_⟩
  · rw [outboxLater, outbox, List.append_assoc]
  · rw [List.filterMap_append, List.filterMap_append, buffers, buffersLater]
  · rw [List.filterMap_append]
    exact shifts.trans shiftsLater

theorem foldl {α : Type} {step : Scheduler → α → Scheduler}
    (h : ∀ s a, Engages peer s (step s a)) (items : List α) (s : Scheduler) :
    Engages peer s (items.foldl step s) := by
  induction items generalizing s with
  | nil => exact refl s
  | cons item rest ih => exact (h s item).trans (ih (step s item))

end Engages

theorem engages_publish (s : Scheduler) {event : NetworkEvent}
    (silent : Effect.keepAlive? peer (.publish event) = none) :
    Engages peer s (s.publish event) :=
  ⟨.of_peers_eq rfl, fun _ => ⟨[.publish event], [], rfl,
    by rw [List.filterMap_cons_none silent, List.filterMap_nil], rfl, .stays⟩⟩

theorem engages_modifyPeer (s : Scheduler) (holder : PeerAddress) {change : Peer → Peer}
    (link : ∀ record, record.Linked → (change record).Linked)
    (same : ∀ record, (change record).footing = record.footing) :
    Engages peer s (s.modifyPeer holder change) := by
  refine .of_footing_eq (.modify rfl link) rfl ?_
  rw [footingAt?, footingAt?, modifyPeer, Std.ExtTreeMap.getElem?_modify]
  split
  · rename_i here
    rw [Std.LawfulEqOrd.eq_of_compare here, Option.map_map]
    exact congrArg (Option.map · _) (funext same)
  · rfl

/-! ## Ends of engagements -/

theorem engages_relieve {change : Peer → Peer} (busy : s.IsBusyAt holder)
    (peers : t.peers = s.peers.modify holder change)
    (outbox : t.outbox = s.outbox ++ [.publish (.keepAlive holder true), .resetBuffer holder])
    (connection : ∀ record, (change record).connection = record.connection)
    (ends : ∀ record, (change record).work ≠ .transferring)
    (drops : ∀ record, (change record).transfer? = none) : Engages peer s t := by
  refine ⟨.modify peers fun record _ => Peer.linked_of_work_ne (ends record) (drops record),
    fun _ => ?_⟩
  obtain ⟨record, known, sends⟩ := busy
  by_cases here : holder = peer
  · subst here
    have before : s.footingAt? holder = some ⟨record.connection, .transferring⟩ := by
      rw [footingAt?, known, Option.map_some, Peer.footing, of_decide_eq_true sends]
    have after : t.footingAt? holder =
        some ⟨record.connection, (change record).work⟩ := by
      rw [footingAt?, peers, Std.ExtTreeMap.getElem?_modify_self, known, Option.map_some,
        Option.map_some, Peer.footing, connection]
    refine ⟨_, [.freed], outbox, by simp [List.filterMap_cons, Effect.keepAlive?],
      by simp [List.filterMap_cons, Effect.buffer?], ?_⟩
    rw [before, after]
    exact .freed (ends record)
  · refine ⟨_, [], outbox, by simp [List.filterMap_cons, Effect.keepAlive?, here],
      by simp [List.filterMap_cons, Effect.buffer?, here], ?_⟩
    have same : t.footingAt? peer = s.footingAt? peer := by
      rw [footingAt?, footingAt?, peers, Std.ExtTreeMap.getElem?_modify]
      simp [here]
    exact same ▸ .stays

theorem nodup_holders (s : Scheduler) (block : BlockHash) : (s.holders block).Nodup := by
  have sublist : (s.holders block).Sublist (s.peers.toList.map Prod.fst) :=
    List.filter_sublist.map Prod.fst
  rw [Std.ExtTreeMap.map_fst_toList_eq_keys] at sublist
  exact sublist.nodup Std.ExtTreeMap.nodup_keys

theorem isBusyAt_of_mem_holders (linked : s.AllPeers Peer.Linked)
    (member : holder ∈ s.holders block) : s.IsBusyAt holder := by
  rw [mem_holders, blockAt?, Option.bind_eq_some_iff] at member
  obtain ⟨record, known, sends⟩ := member
  refine ⟨record, known, ?_⟩
  obtain ⟨transfer, found, _⟩ := Option.map_eq_some_iff.mp sends
  exact decide_eq_true ((linked holder record known).work_of_transfer? found)

/-- The holders of a block are freed one after the other; a peer that has not been freed yet is
busy still. -/
theorem engages_foldl_holders {step : Scheduler → PeerAddress → Scheduler}
    {change : Peer → Peer}
    (peers : ∀ s holder, (step s holder).peers = s.peers.modify holder change)
    (each : ∀ s holder, s.IsBusyAt holder → Engages peer s (step s holder))
    (s : Scheduler) (block : BlockHash) : Engages peer s ((s.holders block).foldl step s) := by
  have all : ∀ (holders : List PeerAddress) (s : Scheduler), holders.Nodup →
      (∀ holder ∈ holders, s.IsBusyAt holder) → Engages peer s (holders.foldl step s) := by
    intro holders
    induction holders with
    | nil => exact fun s _ _ => .refl s
    | cons first rest ih =>
      intro s distinct busy
      obtain ⟨absent, distinct⟩ := List.nodup_cons.mp distinct
      obtain ⟨now, later⟩ := List.forall_mem_cons.mp busy
      refine (each s first now).trans (ih (step s first) distinct fun holder member => ?_)
      obtain ⟨record, known, sends⟩ := later holder member
      have different : first ≠ holder := fun same => absent (same ▸ member)
      refine ⟨record, ?_, sends⟩
      rw [peers, Std.ExtTreeMap.getElem?_modify]
      simp [different, known]
  exact .of_linked fun linked =>
    all (s.holders block) s (nodup_holders s block) fun _ => isBusyAt_of_mem_holders linked

theorem engages_freeHolders (s : Scheduler) (block : BlockHash) :
    Engages peer s (s.freeHolders block) := by
  refine engages_foldl_holders (fun _ _ => rfl) (fun s holder busy => ?_) s block
  refine engages_relieve busy rfl ?_ (fun _ => rfl) Peer.work_release_ne Peer.transfer?_release
  exact List.append_assoc ..

theorem connection_fail (record : Peer) : record.fail.connection = record.connection := by
  unfold Peer.fail
  split
  · split <;> rfl
  · rfl

theorem engages_failHolders (s : Scheduler) (block : BlockHash) (now : Timestamp) :
    Engages peer s (s.failHolders block now) := by
  refine engages_foldl_holders (fun _ _ => rfl) (fun s holder busy => ?_) s block
  refine engages_relieve busy rfl ?_ connection_fail Peer.work_fail_ne Peer.transfer?_fail
  exact List.append_assoc ..

theorem engages_fail (s : Scheduler) (block : BlockHash) (now : Timestamp) :
    Engages peer s (s.fail block now) := by
  have aborted : Engages peer s ((s.failHolders block now).endAttempt block) :=
    (engages_failHolders s block now).trans (.of_tables rfl rfl)
  refine aborted.trans ?_
  unfold fail
  extract_lets ended
  split
  · exact .of_tables rfl rfl
  · split
    · exact .of_tables rfl rfl
    · refine .trans ?_ (engages_publish _ rfl)
      exact .of_tables rfl rfl

theorem engages_noteDownload (s : Scheduler) (block : BlockHash) (holder : PeerAddress)
    (now : Timestamp) : Engages peer s (s.noteDownload block holder now) := by
  unfold noteDownload
  split <;> exact .of_tables rfl rfl

theorem engages_recordSpeed (s : Scheduler) (holder : PeerAddress) (transfer? : Option Transfer)
    (size : UInt64) (now : Timestamp) :
    Engages peer s (s.recordSpeed holder transfer? size now) := by
  cases transfer? with
  | none => exact .refl s
  | some transfer =>
    exact engages_modifyPeer s holder (fun _ link => link.recordSpeed _ _) fun _ => rfl

theorem engages_succeed (s : Scheduler) (sender : PeerAddress) (header : BlockHeader)
    (size : UInt64) (now : Timestamp) : Engages peer s (s.succeed sender header size now) := by
  unfold succeed
  extract_lets block freed transfer? duration announced delivered
  split
  · exact (engages_freeHolders s block).trans (.of_tables rfl rfl)
  · have told : Engages peer s announced := engages_publish s rfl
    have measured := told.trans (engages_recordSpeed announced sender transfer? size now)
    have released : Engages peer s delivered := measured.trans (engages_freeHolders _ block)
    have marked := released.trans (.of_tables (t := delivered.markDownloaded block) rfl rfl)
    exact marked.trans (engages_noteDownload _ block sender now)

theorem engages_cancelNow (s : Scheduler) (block : BlockHash) (now : Timestamp) :
    Engages peer s (s.cancelNow block now) :=
  (engages_freeHolders s block).trans (.of_tables rfl rfl)

/-! ## Deliveries and answers -/

theorem engages_hearNotFound (s : Scheduler) (sender : PeerAddress) (blocks : List BlockHash)
    (now : Timestamp) : Engages peer s (s.hearNotFound sender blocks now) := by
  unfold hearNotFound
  split
  · rename_i block
    split
    · have noted : Engages peer s (s.note block (some sender) .notFound now) := .of_tables rfl rfl
      exact noted.trans (engages_fail _ block now)
    · exact .refl s
  · exact .refl s

theorem engages_hearHeader (s : Scheduler) (sender : PeerAddress) (header : BlockHeader)
    (size : UInt64) (now : Timestamp) : Engages peer s (s.hearHeader sender header size now) := by
  have heard : Engages peer s (s.touch header.hash now) := .of_tables rfl rfl
  unfold hearHeader
  extract_lets touched
  split
  · exact heard.trans (engages_succeed touched sender header size now)
  · exact heard.trans (.of_tables rfl rfl)

theorem engages_hearChunk (s : Scheduler) (sender : PeerAddress) (block : BlockHash)
    (transactions : UInt64) (now : Timestamp) :
    Engages peer s (s.hearChunk sender block transactions now) := by
  unfold hearChunk
  split
  · exact .refl s
  · extract_lets received touched
    split
    · have read : Engages peer s { touched with partials := touched.partials.erase block } :=
        .of_tables rfl rfl
      exact read.trans (engages_succeed ..)
    · exact .of_tables rfl rfl

theorem engages_hearLiteBlock (s : Scheduler) (sender : PeerAddress) (header : BlockHeader)
    (size : UInt64) (now : Timestamp) :
    Engages peer s (s.hearLiteBlock sender header size now) := by
  unfold hearLiteBlock
  split
  · exact engages_succeed s sender header size now
  · extract_lets head body
    have first : Engages peer s head := engages_publish s rfl
    have second : Engages peer s body := first.trans (engages_publish head rfl)
    exact second.trans (engages_succeed body sender header size now)

/-! ## Ticks -/

theorem engages_assign {record : Peer} (known : s.peers[holder]? = some record)
    (available : record.isAvailable = true) (block : BlockHash) (now : Timestamp) :
    Engages peer s (s.assign holder block now) := by
  have outbox : (s.assign holder block now).outbox = s.outbox ++
      [.publish (.blockRequested holder block), .publish (.keepAlive holder false),
        .growBuffer holder] := by
    simp [assign, publish, growBuffer, note, modifyPeer]
  have peers : (s.assign holder block now).peers = s.peers.modify holder fun record =>
      record.start block ((s.backlog.beginAttempt block).attemptsOn block) now := rfl
  refine ⟨.modify peers fun record _ => record.linked_start .., fun _ => ?_⟩
  by_cases here : holder = peer
  · subst here
    have before : s.footingAt? holder = some ⟨.handshaked, .idle⟩ := by
      rw [footingAt?, known, Option.map_some, Peer.footing_eq_of_isAvailable available]
    have after : (s.assign holder block now).footingAt? holder =
        some ⟨.handshaked, .transferring⟩ := by
      have handshaked : record.connection = .handshaked :=
        congrArg Footing.connection (Peer.footing_eq_of_isAvailable available)
      rw [footingAt?, peers, Std.ExtTreeMap.getElem?_modify_self, known, Option.map_some,
        Option.map_some, Peer.footing, Peer.start, handshaked]
    refine ⟨_, [.taken], outbox, by simp [List.filterMap_cons, Effect.keepAlive?],
      by simp [List.filterMap_cons, Effect.buffer?], ?_⟩
    rw [before, after]
    exact .taken
  · refine ⟨_, [], outbox, by simp [List.filterMap_cons, Effect.keepAlive?, here],
      by simp [List.filterMap_cons, Effect.buffer?, here], ?_⟩
    have same : (s.assign holder block now).footingAt? peer = s.footingAt? peer := by
      rw [footingAt?, footingAt?, peers, Std.ExtTreeMap.getElem?_modify]
      simp [here]
    exact same ▸ .stays

theorem engages_offerBlock (round : Round) {record : Peer}
    (known : round.scheduler.peers[holder]? = some record)
    (available : record.isAvailable = true) (now : Timestamp) :
    Engages peer round.scheduler (offerBlock round holder now).scheduler := by
  have offered := offer_offerBlock round holder now
  generalize (offerBlock round holder now).scheduler = offer at offered ⊢
  cases offered with
  | unasked => exact .of_tables rfl rfl
  | refused => exact .of_tables rfl rfl
  | @assigned block _ flag =>
    let taken : Scheduler :=
      { round.scheduler with
        bandwidthRestricted := flag, backlog := round.scheduler.backlog.remove block }
    have removed : Engages peer round.scheduler taken := .of_tables rfl rfl
    have still : taken.peers[holder]? = some record := known
    exact removed.trans (engages_assign still available block now)

theorem engages_observe {record : Peer} (known : s.peers[holder]? = some record)
    (block : BlockHash) (now : Timestamp) :
    Engages peer s (s.observe holder record block now).2 := by
  unfold observe
  split
  · exact .refl s
  · rename_i snapshot _
    have seen : { s with
        peers := s.peers.insert holder (record.observe snapshot now).1 }.footingAt? peer =
          s.footingAt? peer := by
      rw [footingAt?, footingAt?, Std.ExtTreeMap.getElem?_insert]
      split
      · rename_i here
        rw [← Std.LawfulEqOrd.eq_of_compare here, known, Option.map_some, Option.map_some,
          record.footing_observe]
      · rfl
    have links : KeepsLinks s
        { s with peers := s.peers.insert holder (record.observe snapshot now).1 } :=
      .insert rfl fun linked => (linked holder record known).observe snapshot now
    dsimp only
    split <;> exact .of_footing_eq links rfl seen

theorem engages_watch {record : Peer} (known : s.peers[holder]? = some record)
    (transfer : Transfer) (now : Timestamp) :
    Engages peer s (s.watch holder record transfer now) := by
  have observed : Engages peer s (s.observe holder record transfer.block now).2 :=
    engages_observe known transfer.block now
  unfold watch
  split
  · exact .refl s
  · dsimp only
    split
    · exact observed.trans (.of_tables rfl rfl)
    · exact observed

theorem engages_turn (now : Timestamp) (round : Round) (holder : PeerAddress) :
    Engages peer round.scheduler (turn now round holder).scheduler := by
  have taken := turnTaken_turn now round holder
  generalize turn now round holder = next at taken ⊢
  cases taken with
  | offered known available => exact engages_offerBlock round known available now
  | @watched record transfer known _ _ => exact engages_watch known transfer now
  | passed => exact .refl _

theorem engages_turns (s : Scheduler) (now : Timestamp) : Engages peer s (s.turns now) := by
  have all : ∀ (holders : List PeerAddress) (round : Round), Engages peer round.scheduler
      (holders.foldl (turn now) round).scheduler := by
    intro holders
    induction holders with
    | nil => exact fun _ => .refl _
    | cons holder rest ih => exact fun round => (engages_turn now round holder).trans (ih _)
  obtain ⟨flag, same⟩ := checkBandwidth_eq s
  have checked : Engages peer s s.checkBandwidth := same ▸ .of_tables rfl rfl
  exact checked.trans (all s.fastestFirst ⟨s.checkBandwidth, s.pool⟩)

theorem engages_reconcile (now : Timestamp) (s : Scheduler) (block : BlockHash) :
    Engages peer s (reconcile now s block) := by
  unfold reconcile
  split
  · exact .of_tables rfl rfl
  · split
    · exact engages_cancelNow s block now
    · split
      · exact engages_fail s block now
      · exact .refl s

theorem engages_tick (s : Scheduler) (now : Timestamp) : Engages peer s (s.tick now) := by
  have counted : Engages peer s { s with ticks := s.ticks + 1 } := .of_tables rfl rfl
  have turned := counted.trans (engages_turns _ now)
  have resolved : ∀ t : Scheduler, Engages peer t (t.reconcileLimbo now) :=
    fun t => Engages.foldl (engages_reconcile now) t.limbo.toList t
  obtain ⟨_, _, _, shape, _⟩ := tick_eq s now
  rw [shape]
  exact (turned.trans (resolved _)).trans (.of_tables rfl rfl)

end Scheduler

/-! ## Connections -/

namespace Operation

def connects (operation : Operation) (peer : PeerAddress) : Bool :=
  match operation with
  | .hear (.peerConnected other) => other = peer
  | _ => false

def greets (operation : Operation) (peer : PeerAddress) : Bool :=
  match operation with
  | .hear (.peerHandshaked other) => other = peer
  | _ => false

/-- Whether an operation cuts a peer off: it disconnects, or the session ends. -/
def cuts (operation : Operation) (peer : PeerAddress) : Bool :=
  operation.disconnects peer || operation.endsSession

variable {operation : Operation} {peer : PeerAddress}

theorem eq_of_connects (h : operation.connects peer = true) :
    operation = .hear (.peerConnected peer) := by
  unfold connects at h
  split at h
  · rw [of_decide_eq_true h]
  · contradiction

theorem eq_of_greets (h : operation.greets peer = true) :
    operation = .hear (.peerHandshaked peer) := by
  unfold greets at h
  split at h
  · rw [of_decide_eq_true h]
  · contradiction

theorem cuts_of_connects (connects : operation.connects peer = true) :
    operation.cuts peer = false := by
  rw [eq_of_connects connects]
  rfl

theorem cuts_of_greets (greets : operation.greets peer = true) : operation.cuts peer = false := by
  rw [eq_of_greets greets]
  rfl

theorem cuts_of_disconnects (disconnects : operation.disconnects peer = true) :
    operation.cuts peer = true := by
  rw [cuts, disconnects, Bool.true_or]

theorem cuts_of_endsSession (ends : operation.endsSession = true) :
    operation.cuts peer = true := by
  rw [cuts, ends, Bool.or_true]

theorem greets_of_cuts (cuts : operation.cuts peer = true) : operation.greets peer = false := by
  by_contra greets
  rw [cuts_of_greets (Bool.eq_true_of_not_eq_false greets)] at cuts
  exact Bool.false_ne_true cuts

end Operation

namespace Footing

/-- A peer after its connection: one that had disconnected starts over. -/
def connected : Option Footing → Footing
  | none => ⟨.connected, .idle⟩
  | some footing =>
    if footing.work ≠ .transferring ∧ footing.connection = .disconnected then ⟨.connected, .idle⟩
    else footing

/-- A peer after its handshake; a busy one has had it before. -/
def handshaked : Option Footing → Footing
  | none => ⟨.handshaked, .idle⟩
  | some footing =>
    if footing.work = .transferring then footing else { footing with connection := .handshaked }

/-- A peer after its disconnection: it sends nothing, whether it is discarded or not. -/
def disconnected (footing : Footing) : Footing :=
  ⟨.disconnected, if footing.work = .discarded then .discarded else .idle⟩

end Footing

namespace Scheduler

variable {s : Scheduler} {peer : PeerAddress} {now : Timestamp}

theorem footingAt?_insert (s : Scheduler) (holder peer : PeerAddress) (record : Peer) :
    { s with peers := s.peers.insert holder record }.footingAt? peer =
      if holder = peer then some record.footing else s.footingAt? peer := by
  rw [footingAt?, footingAt?, Std.ExtTreeMap.getElem?_insert]
  simp only [Std.LawfulEqCmp.compare_eq_iff_eq]
  split <;> rfl

theorem footingAt?_modifyPeer (s : Scheduler) (holder peer : PeerAddress) (change : Peer → Peer) :
    (s.modifyPeer holder change).footingAt? peer =
      if holder = peer then (s.peers[peer]?).map fun record => (change record).footing
      else s.footingAt? peer := by
  rw [footingAt?, footingAt?, modifyPeer, Std.ExtTreeMap.getElem?_modify]
  simp only [Std.LawfulEqCmp.compare_eq_iff_eq]
  split
  · rename_i here
    rw [here, Option.map_map]
    rfl
  · rfl

theorem footing_hearConnected (s : Scheduler) (holder peer : PeerAddress) :
    (s.hearConnected holder).outbox = s.outbox ∧
      (s.hearConnected holder).footingAt? peer =
        if holder = peer then some (Footing.connected (s.footingAt? peer))
        else s.footingAt? peer := by
  unfold hearConnected
  split
  · rename_i unknown
    refine ⟨rfl, (s.footingAt?_insert holder peer .fresh).trans ?_⟩
    by_cases here : holder = peer
    · rw [← here, footingAt?, unknown]
      rfl
    · rw [if_neg here, if_neg here]
  · rename_i record known
    have footing : s.footingAt? holder = some record.footing := by rw [footingAt?, known]; rfl
    have idle : record.isBusy = false ↔ record.footing.work ≠ .transferring :=
      decide_eq_false_iff_not
    have gone : (!record.isBusy && decide (record.connection = .disconnected)) = true ↔
        record.footing.work ≠ .transferring ∧ record.footing.connection = .disconnected := by
      rw [Bool.and_eq_true, Bool.not_eq_true', idle, decide_eq_true_eq]
      rfl
    split
    · rename_i left
      refine ⟨rfl, (s.footingAt?_modifyPeer holder peer Peer.reconnect).trans ?_⟩
      by_cases here : holder = peer
      · rw [if_pos here, if_pos here, ← here, known, footing, Footing.connected,
          if_pos (gone.mp left)]
        rfl
      · rw [if_neg here, if_neg here]
    · rename_i stays
      refine ⟨rfl, ?_⟩
      by_cases here : holder = peer
      · rw [if_pos here, ← here, footing, Footing.connected,
          if_neg fun left => stays (gone.mpr left)]
      · rw [if_neg here]

theorem footing_hearHandshaked (s : Scheduler) (holder peer : PeerAddress) :
    (s.hearHandshaked holder).outbox = s.outbox ∧
      (s.hearHandshaked holder).footingAt? peer =
        if holder = peer then some (Footing.handshaked (s.footingAt? peer))
        else s.footingAt? peer := by
  have greeted : ∀ record : Peer,
      (if record.isBusy then record else record.handshake).footing =
        Footing.handshaked (some record.footing) := by
    intro record
    have busy : record.isBusy = true ↔ record.footing.work = .transferring := decide_eq_true_iff
    simp only [Footing.handshaked, busy]
    split <;> rfl
  refine ⟨rfl, ?_⟩
  unfold hearHandshaked
  extract_lets known
  rw [footingAt?_modifyPeer]
  have others : holder ≠ peer → known.footingAt? peer = s.footingAt? peer := by
    intro different
    rw [footingAt?, footingAt?, Std.ExtTreeMap.getElem?_insertIfNew]
    simp [different]
  by_cases here : holder = peer
  · subst here
    simp only [if_true, greeted]
    change ((s.peers.insertIfNew holder .fresh)[holder]?).map _ = _
    rw [Std.ExtTreeMap.getElem?_insertIfNew]
    split
    · rename_i new
      rw [footingAt?, Std.ExtTreeMap.getElem?_eq_none new.2]
      rfl
    · rename_i old
      have found : holder ∈ s.peers := by
        by_contra absent
        exact old ⟨Std.ReflCmp.compare_self, absent⟩
      obtain ⟨record, known⟩ := Option.isSome_iff_exists.mp
        (Std.ExtTreeMap.isSome_getElem?_iff_mem.mpr found)
      rw [footingAt?, known]
      rfl
  · rw [if_neg here, if_neg here, others here]

theorem footing_hearDisconnected (s : Scheduler) (holder peer : PeerAddress) (now : Timestamp) :
    (s.hearDisconnected holder now).outbox = s.outbox ∧
      (s.hearDisconnected holder now).footingAt? peer =
        if holder = peer then (s.footingAt? peer).map Footing.disconnected
        else s.footingAt? peer := by
  have released : ∀ record : Peer,
      record.disconnect.release.footing = record.footing.disconnected := fun _ => rfl
  have detached : (s.detachPeer holder).footingAt? peer =
      if holder = peer then (s.footingAt? peer).map Footing.disconnected
      else s.footingAt? peer := by
    refine (s.footingAt?_modifyPeer holder peer _).trans ?_
    simp only [released]
    split
    · rw [footingAt?, Option.map_map]
      rfl
    · rfl
  unfold hearDisconnected
  split
  · rename_i unknown
    refine ⟨rfl, ?_⟩
    split
    · rename_i here
      rw [← here, footingAt?, unknown]
      rfl
    · rfl
  · split
    · exact ⟨rfl, detached⟩
    · extract_lets left
      split <;> exact ⟨rfl, detached⟩

theorem footing_endSession (s : Scheduler) (now : Timestamp) (peer : PeerAddress) :
    (s.endSession now).outbox = s.outbox ∧ (s.endSession now).footingAt? peer = none := by
  obtain ⟨_, _, _, _, _, _, shape⟩ := foldl_abandon_eq s.inFlight now s
  constructor
  · unfold endSession
    simp only [shape]
  · rw [footingAt?]
    exact congrArg _ Std.ExtTreeMap.getElem?_empty

/-! ## All operations -/

/-- What an operation does to a peer: it engages or frees the peer with signals, or it is about the
connection of the peer and signals nothing. -/
inductive Treats (peer : PeerAddress) (operation : Operation) (s t : Scheduler) : Prop where
  | engages (unconnected : operation.connects peer = false)
      (ungreeted : operation.greets peer = false) (uncut : operation.cuts peer = false)
      (engages : Engages peer s t)
  | connected (connects : operation.connects peer = true) (outbox : t.outbox = s.outbox)
      (footing : t.footingAt? peer = some (Footing.connected (s.footingAt? peer)))
  | handshaked (greets : operation.greets peer = true) (outbox : t.outbox = s.outbox)
      (footing : t.footingAt? peer = some (Footing.handshaked (s.footingAt? peer)))
  | disconnected (disconnects : operation.disconnects peer = true) (outbox : t.outbox = s.outbox)
      (footing : t.footingAt? peer = (s.footingAt? peer).map Footing.disconnected)
  | forgotten (ends : operation.endsSession = true) (outbox : t.outbox = s.outbox)
      (footing : t.footingAt? peer = none)

theorem engages_cancelBlock (now : Timestamp) (s : Scheduler) (block : BlockHash) :
    Engages peer s (cancelBlock now s block) := by
  unfold cancelBlock
  split
  · exact .refl s
  · split <;> exact .of_tables rfl rfl

theorem treats_hear (staged : s.Staged) (event : NetworkEvent) (now : Timestamp)
    (peer : PeerAddress) : Treats peer (.hear event) s (s.hear event now) := by
  have links := (passes_hear staged event now).links
  cases event with
  | sessionStopped =>
    obtain ⟨outbox, footing⟩ := footing_endSession s now peer
    exact .forgotten rfl outbox footing
  | peerConnected holder =>
    obtain ⟨outbox, footing⟩ := footing_hearConnected s holder peer
    by_cases here : holder = peer
    · exact .connected (decide_eq_true here) outbox (footing.trans (if_pos here))
    · exact .engages (decide_eq_false here) rfl rfl
        (.of_footing_eq links outbox (footing.trans (if_neg here)))
  | peerHandshaked holder =>
    obtain ⟨outbox, footing⟩ := footing_hearHandshaked s holder peer
    by_cases here : holder = peer
    · exact .handshaked (decide_eq_true here) outbox (footing.trans (if_pos here))
    · exact .engages rfl (decide_eq_false here) rfl
        (.of_footing_eq links outbox (footing.trans (if_neg here)))
  | peerDisconnected holder =>
    obtain ⟨outbox, footing⟩ := footing_hearDisconnected s holder peer now
    by_cases here : holder = peer
    · exact .disconnected (decide_eq_true here) outbox (footing.trans (if_pos here))
    · exact .engages rfl rfl (Bool.or_eq_false_iff.mpr ⟨decide_eq_false here, rfl⟩)
        (.of_footing_eq links outbox (footing.trans (if_neg here)))
  | blocksAnnounced holder blocks => exact .engages rfl rfl rfl (.of_tables rfl rfl)
  | blocksNotFound holder blocks =>
    exact .engages rfl rfl rfl (engages_hearNotFound s holder blocks now)
  | headerDelivered holder header size origin =>
    cases origin with
    | wire => exact .engages rfl rfl rfl (engages_hearHeader s holder header size now)
    | scheduler => exact .engages rfl rfl rfl (.refl s)
  | chunkDelivered holder block transactions origin =>
    cases origin with
    | wire => exact .engages rfl rfl rfl (engages_hearChunk s holder block transactions now)
    | scheduler => exact .engages rfl rfl rfl (.refl s)
  | liteBlockDelivered holder header size =>
    exact .engages rfl rfl rfl (engages_hearLiteBlock s holder header size now)
  | rawBlockDelivered holder header size =>
    exact .engages rfl rfl rfl (engages_succeed s holder header size now)
  | _ => exact .engages rfl rfl rfl (.of_tables rfl rfl)

theorem treats_apply (staged : s.Staged) (now : Timestamp) (operation : Operation)
    (peer : PeerAddress) : Treats peer operation s (s.apply now operation) := by
  cases operation with
  | download request =>
    obtain ⟨_, _, shape, _⟩ := download_eq s request now
    rw [apply, shape]
    exact .engages rfl rfl rfl (.of_tables rfl rfl)
  | cancel blocks =>
    exact .engages rfl rfl rfl (Engages.foldl (engages_cancelBlock now) blocks s)
  | hear event => exact treats_hear staged event now peer
  | tick => exact .engages rfl rfl rfl (engages_tick s now)
  | _ => exact .engages rfl rfl rfl (.of_tables rfl rfl)

end Scheduler
end BlockFetch
