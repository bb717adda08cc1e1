import BlockFetch.Proofs.Lifecycle.Course
import BlockFetch.Proofs.Workload.Outcome
import Mathlib.Logic.Relation

/-!
# Elementary steps

Every operation consists of elementary steps: tables about blocks change, peers change one by one in
a few ways, headers are read, or something is asked of the surroundings. What each elementary step
keeps, every operation keeps. This is used for what does not depend on the stages of blocks.
-/
namespace BlockFetch

/-- Whether an event is of a kind that the scheduler publishes itself. -/
def NetworkEvent.isOwn : NetworkEvent → Bool
  | headerDelivered _ _ _ .scheduler | chunkDelivered _ _ _ .scheduler => true
  | blockRequested .. | keepAlive .. | blockDownloaded .. | blockDiscarded .. => true
  | _ => false

/-- The changes of a peer by which its work ends, or nothing changes but its speed. -/
inductive Peer.Relieved : Peer → Peer → Prop where
  | released {peer} : Relieved peer peer.release
  | failed {peer} : Relieved peer peer.fail
  | measured {peer} (bytes : UInt64) (elapsed : Duration) :
      Relieved peer (peer.recordSpeed bytes elapsed)

inductive Peer.Changed : Peer → Peer → Prop where
  | relieved {peer after} (relief : Relieved peer after) : Changed peer after
  | detached {peer} : Changed peer peer.disconnect.release
  | reconnected {peer} (idle : peer.isBusy = false) : Changed peer peer.reconnect
  | handshaked {peer} (idle : peer.isBusy = false) : Changed peer peer.handshake
  | started {peer} (available : peer.isAvailable = true) (block : BlockHash) (attempt : Nat)
      (now : Timestamp) : Changed peer (peer.start block attempt now)
  | observed {peer} (snapshot : StreamSnapshot) (now : Timestamp) :
      Changed peer (peer.observe snapshot now).1

namespace Scheduler

/-- An elementary step in which peers change only in some ways. A peer that was unknown starts as a
fresh one. -/
inductive Element (change : Peer → Peer → Prop) : Scheduler → Scheduler → Prop where
  | tables {s t} (settings : t.settings = s.settings) (peers : t.peers = s.peers)
      (partials : t.partials = s.partials) (outbox : t.outbox = s.outbox) : Element change s t
  | peers {s} (peers : PeerMap Peer)
      (each : ∀ (peer : PeerAddress) record, peers[peer]? = some record →
        record = s.peers.getD peer .fresh ∨ change (s.peers.getD peer .fresh) record) :
      Element change s { s with peers }
  | partials {s} (partials : BlockMap PartialBlock)
      (each : ∀ (block : BlockHash) part, partials[block]? = some part →
        part.header.hash = block ∨
          ∃ old, s.partials[block]? = some old ∧ old.header = part.header) :
      Element change s { s with partials }
  | asked {s} (effect : Effect) (streams : StreamTable)
      (own : ∀ event ∈ effect.event?, event.isOwn = true) :
      Element change s { s with streams, outbox := s.outbox ++ [effect] }

def Elements (change : Peer → Peer → Prop) : Scheduler → Scheduler → Prop :=
  Relation.ReflTransGen (Element change)

variable {s t u : Scheduler} {change : Peer → Peer → Prop}

namespace Elements

theorem refl : Elements change s s := Relation.ReflTransGen.refl

theorem trans (first : Elements change s t) (second : Elements change t u) : Elements change s u :=
  Relation.ReflTransGen.trans first second

theorem single (h : Element change s t) : Elements change s t := Relation.ReflTransGen.single h

theorem of_tables (settings : t.settings = s.settings) (peers : t.peers = s.peers)
    (partials : t.partials = s.partials) (outbox : t.outbox = s.outbox) : Elements change s t :=
  .single (.tables settings peers partials outbox)

theorem mono {other : Peer → Peer → Prop} (h : Elements change s t)
    (weaker : ∀ before after, change before after → other before after) : Elements other s t := by
  induction h with
  | refl => exact refl
  | tail _ step ih =>
    refine ih.trans (single ?_)
    cases step with
    | tables settings peers partials outbox => exact .tables settings peers partials outbox
    | peers peers each =>
      exact .peers peers fun peer record found => (each peer record found).imp_right (weaker _ _)
    | partials partials each => exact .partials partials each
    | asked effect streams own => exact .asked effect streams own

theorem foldl {α : Type} {step : Scheduler → α → Scheduler}
    (h : ∀ s a, Elements change s (step s a)) (items : List α) (s : Scheduler) :
    Elements change s (items.foldl step s) := by
  induction items generalizing s with
  | nil => exact .refl
  | cons item rest ih => exact (h s item).trans (ih (step s item))

theorem settings (h : Elements change s t) : t.settings = s.settings := by
  induction h with
  | refl => rfl
  | tail _ step ih =>
    cases step with
    | tables settings => exact settings.trans ih
    | _ => exact ih

/-- What was said is not taken back. -/
theorem outbox_grows (h : Elements change s t) : s.outbox <+: t.outbox := by
  induction h with
  | refl => exact List.prefix_refl _
  | tail _ step ih =>
    cases step with
    | tables _ _ _ outbox => exact outbox ▸ ih
    | peers => exact ih
    | partials => exact ih
    | asked => exact ih.trans (List.prefix_append ..)

end Elements

/-! ## What elementary steps keep -/

theorem AllPeers.getD {property : Peer → Prop} (h : s.AllPeers property) (fresh : property .fresh)
    (peer : PeerAddress) : property (s.peers.getD peer .fresh) := by
  rw [Std.ExtTreeMap.getD_eq_getD_getElem?]
  cases known : s.peers[peer]? with
  | none => exact fresh
  | some record => exact h peer record known

theorem Elements.allPeers {property : Peer → Prop} (h : Elements change s t)
    (fresh : property .fresh)
    (kept : ∀ before after, property before → change before after → property after)
    (all : s.AllPeers property) : t.AllPeers property := by
  induction h with
  | refl => exact all
  | tail _ step ih =>
    cases step with
    | tables _ peers => rwa [AllPeers, peers]
    | peers peers each =>
      intro peer record found
      rcases each peer record found with rfl | changed
      · exact ih.getD fresh peer
      · exact kept _ _ (ih.getD fresh peer) changed
    | partials => exact ih
    | asked => exact ih

/-- What is kept of a block in parts is kept under the name of the block. -/
def PartsNamed (s : Scheduler) : Prop :=
  ∀ (block : BlockHash) part, s.partials[block]? = some part → part.header.hash = block

theorem Elements.partsNamed (h : Elements change s t) (named : s.PartsNamed) : t.PartsNamed := by
  induction h with
  | refl => exact named
  | tail _ step ih =>
    cases step with
    | tables _ _ partials => rwa [PartsNamed, partials]
    | peers => exact ih
    | partials partials each =>
      intro block part found
      rcases each block part found with here | ⟨old, kept, same⟩
      · exact here
      · rw [← same]
        exact ih block old kept
    | asked => exact ih

/-- Nothing that was said is taken back, and what is added is of the scheduler's own kinds. -/
theorem Elements.events (h : Elements change s t) :
    ∃ said, t.events = s.events ++ said ∧ ∀ event ∈ said, event.isOwn = true := by
  induction h with
  | refl => exact ⟨[], (List.append_nil _).symm, by simp⟩
  | @tail middle after _ step ih =>
    obtain ⟨said, told, own⟩ := ih
    cases step with
    | tables _ _ _ outbox => exact ⟨said, by rw [← told, Scheduler.events, outbox]; rfl, own⟩
    | peers => exact ⟨said, told, own⟩
    | partials => exact ⟨said, told, own⟩
    | asked effect streams new =>
      refine ⟨said ++ effect.event?.toList, ?_, fun event member => ?_⟩
      · rw [← List.append_assoc, ← told, Scheduler.events, Scheduler.events,
          List.filterMap_append]
        cases asked : effect.event? <;> simp [asked]
      · rcases List.mem_append.mp member with early | late
        · exact own event early
        · exact new event (Option.mem_toList.mp late)

/-! ## Small steps -/

theorem elements_modifyPeer (s : Scheduler) (peer : PeerAddress) {edit : Peer → Peer}
    (h : ∀ record, s.peers[peer]? = some record →
      edit record = record ∨ change record (edit record)) :
    Elements change s (s.modifyPeer peer edit) := by
  refine .single (.peers _ fun other record found => ?_)
  rw [Std.ExtTreeMap.getElem?_modify] at found
  split at found
  · rename_i same
    cases Std.LawfulEqOrd.eq_of_compare same
    obtain ⟨before, known, rfl⟩ := Option.map_eq_some_iff.mp found
    rw [Std.ExtTreeMap.getD_eq_getD_getElem?, known]
    exact h before known
  · rw [Std.ExtTreeMap.getD_eq_getD_getElem?, found]
    exact .inl rfl

theorem elements_publish (s : Scheduler) {event : NetworkEvent} (own : event.isOwn = true) :
    Elements change s (s.publish event) :=
  .single (.asked (.publish event) s.streams fun _ same => Option.some_inj.mp same ▸ own)

theorem elements_growBuffer (s : Scheduler) (peer : PeerAddress) :
    Elements change s (s.growBuffer peer) :=
  .single (.asked (.growBuffer peer) _ nofun)

theorem elements_resetBuffer (s : Scheduler) (peer : PeerAddress) :
    Elements change s (s.resetBuffer peer) :=
  .single (.asked (.resetBuffer peer) _ nofun)

theorem elements_erasePartial (s : Scheduler) (block : BlockHash) :
    Elements change s { s with partials := s.partials.erase block } := by
  refine .single (.partials _ fun other part found => .inr ⟨part, ?_, rfl⟩)
  rw [Std.ExtTreeMap.getElem?_erase] at found
  split at found
  · exact nomatch found
  · exact found

/-! ## Ends of attempts -/

theorem elements_freePeer (s : Scheduler) (peer : PeerAddress) :
    Elements Peer.Relieved s (s.freePeer peer) :=
  ((elements_modifyPeer s peer fun _ _ => .inr .released).trans
    (elements_publish _ rfl)).trans (elements_resetBuffer _ peer)

theorem elements_freeHolders (s : Scheduler) (block : BlockHash) :
    Elements Peer.Relieved s (s.freeHolders block) :=
  .foldl elements_freePeer _ s

theorem elements_failHolder (s : Scheduler) (block : BlockHash) (now : Timestamp)
    (peer : PeerAddress) : Elements Peer.Relieved s (s.failHolder block now peer) := by
  have failed : Elements Peer.Relieved s (s.modifyPeer peer Peer.fail) :=
    elements_modifyPeer s peer fun _ _ => .inr .failed
  have noted := failed.trans
    (.of_tables (t := (s.modifyPeer peer Peer.fail).noteFailure block peer now) rfl rfl rfl rfl)
  exact (noted.trans (elements_publish _ rfl)).trans (elements_resetBuffer _ peer)

theorem elements_endAttempt (s : Scheduler) (block : BlockHash) :
    Elements change s (s.endAttempt block) := by
  have forgotten : Elements change s { s with partials := s.partials.erase block } :=
    elements_erasePartial s block
  exact forgotten.trans (.of_tables rfl rfl rfl rfl)

theorem elements_abort (s : Scheduler) (block : BlockHash) (now : Timestamp) :
    Elements Peer.Relieved s ((s.failHolders block now).endAttempt block) :=
  (Elements.foldl (fun s peer => elements_failHolder s block now peer) _ s).trans
    (elements_endAttempt _ block)

theorem elements_discardBlock (s : Scheduler) (block : BlockHash) (now : Timestamp) :
    Elements change s (s.discardBlock block now) := by
  refine .trans ?_ (elements_publish _ rfl)
  exact .of_tables rfl rfl rfl rfl

theorem elements_fail (s : Scheduler) (block : BlockHash) (now : Timestamp) :
    Elements Peer.Relieved s (s.fail block now) := by
  refine (elements_abort s block now).trans ?_
  unfold fail
  extract_lets ended
  split
  · exact .of_tables rfl rfl rfl rfl
  · split
    · exact .of_tables rfl rfl rfl rfl
    · exact elements_discardBlock ended block now

theorem elements_recordSpeed (s : Scheduler) (peer : PeerAddress) (transfer? : Option Transfer)
    (size : UInt64) (now : Timestamp) :
    Elements Peer.Relieved s (s.recordSpeed peer transfer? size now) := by
  cases transfer? with
  | none => exact .refl
  | some transfer => exact elements_modifyPeer s peer fun _ _ => .inr (.measured size _)

theorem elements_noteDownload (s : Scheduler) (block : BlockHash) (peer : PeerAddress)
    (now : Timestamp) : Elements change s (s.noteDownload block peer now) := by
  unfold noteDownload
  split <;> exact .of_tables rfl rfl rfl rfl

theorem elements_succeed (s : Scheduler) (peer : PeerAddress) (header : BlockHeader)
    (size : UInt64) (now : Timestamp) :
    Elements Peer.Relieved s (s.succeed peer header size now) := by
  unfold succeed
  extract_lets block freed transfer? duration announced delivered
  split
  · exact (elements_freeHolders s block).trans (elements_erasePartial freed block)
  · have told : Elements Peer.Relieved s announced := elements_publish s rfl
    have measured := told.trans (elements_recordSpeed announced peer transfer? size now)
    have released : Elements Peer.Relieved s delivered :=
      measured.trans (elements_freeHolders _ block)
    have ended := released.trans (elements_endAttempt delivered block)
    have marked := ended.trans (.of_tables (t := delivered.markDownloaded block) rfl rfl rfl rfl)
    exact marked.trans (elements_noteDownload _ block peer now)

theorem elements_cancelNow (s : Scheduler) (block : BlockHash) (now : Timestamp) :
    Elements Peer.Relieved s (s.cancelNow block now) := by
  have ended := (elements_freeHolders s block).trans (elements_endAttempt _ block)
  exact ended.trans (.of_tables rfl rfl rfl rfl)

theorem elements_endSession (s : Scheduler) (now : Timestamp) :
    Elements Peer.Relieved s (s.endSession now) := by
  obtain ⟨backlog, discarded, cancelling, cancelled, lastActivity, journal, shape⟩ :=
    foldl_abandon_eq s.inFlight now s
  have forgotten : Elements Peer.Relieved s { s with peers := ∅ } :=
    .single (.peers ∅ fun _ _ found => nomatch Std.ExtTreeMap.getElem?_empty.symm.trans found)
  have unread : Elements Peer.Relieved { s with peers := ∅ } { s with peers := ∅, partials := ∅ } :=
    .single (.partials ∅ fun _ _ found => nomatch Std.ExtTreeMap.getElem?_empty.symm.trans found)
  refine (forgotten.trans unread).trans ?_
  unfold endSession
  simp only [shape]
  exact .of_tables rfl rfl rfl rfl

/-! ## Notices -/

theorem Elements.changed (h : Elements Peer.Relieved s t) : Elements Peer.Changed s t :=
  h.mono fun _ _ relief => .relieved relief

theorem elements_hearConnected (s : Scheduler) (peer : PeerAddress) :
    Elements Peer.Changed s (s.hearConnected peer) := by
  unfold hearConnected
  split
  · rename_i unknown
    refine .single (.peers _ fun other record found => .inl ?_)
    rw [Std.ExtTreeMap.getElem?_insert] at found
    rw [Std.ExtTreeMap.getD_eq_getD_getElem?]
    split at found
    · rename_i same
      cases Std.LawfulEqOrd.eq_of_compare same
      rw [unknown]
      exact (Option.some_inj.mp found).symm
    · rw [found]
      rfl
  · rename_i record known
    split
    · rename_i gone
      simp only [Bool.and_eq_true, Bool.not_eq_true'] at gone
      refine elements_modifyPeer s peer fun other found => .inr (.reconnected ?_)
      cases known.symm.trans found
      exact gone.1
    · exact .refl

theorem elements_hearHandshaked (s : Scheduler) (peer : PeerAddress) :
    Elements Peer.Changed s (s.hearHandshaked peer) := by
  have known : Elements Peer.Changed s { s with peers := s.peers.insertIfNew peer .fresh } := by
    refine .single (.peers _ fun other record found => .inl ?_)
    rw [Std.ExtTreeMap.getElem?_insertIfNew] at found
    rw [Std.ExtTreeMap.getD_eq_getD_getElem?]
    split at found
    · rename_i new
      cases Std.LawfulEqOrd.eq_of_compare new.1
      rw [Std.ExtTreeMap.getElem?_eq_none new.2]
      exact (Option.some_inj.mp found).symm
    · rw [found]
      rfl
  refine known.trans (elements_modifyPeer _ peer fun record _ => ?_)
  split
  · exact .inl rfl
  · rename_i idle
    exact .inr (.handshaked (Bool.eq_false_iff.mpr idle))

theorem elements_hearDisconnected (s : Scheduler) (peer : PeerAddress) (now : Timestamp) :
    Elements Peer.Changed s (s.hearDisconnected peer now) := by
  unfold hearDisconnected
  split
  · exact .refl
  · rename_i record _
    extract_lets detached
    have left : Elements Peer.Changed s detached :=
      (elements_modifyPeer s peer fun _ _ => .inr .detached).trans (.of_tables rfl rfl rfl rfl)
    split
    · exact left
    · split <;> exact left.trans (.of_tables rfl rfl rfl rfl)

theorem elements_hearNotFound (s : Scheduler) (peer : PeerAddress) (blocks : List BlockHash)
    (now : Timestamp) : Elements Peer.Relieved s (s.hearNotFound peer blocks now) := by
  unfold hearNotFound
  split
  · rename_i block
    split
    · have noted : Elements Peer.Relieved s (s.note block (some peer) .notFound now) :=
        .of_tables rfl rfl rfl rfl
      exact noted.trans (elements_fail _ block now)
    · exact .refl
  · exact .refl

theorem elements_touch (s : Scheduler) (block : BlockHash) (now : Timestamp) :
    Elements change s (s.touch block now) :=
  .of_tables rfl rfl rfl rfl

theorem elements_hearHeader (s : Scheduler) (peer : PeerAddress) (header : BlockHeader)
    (size : UInt64) (now : Timestamp) :
    Elements Peer.Relieved s (s.hearHeader peer header size now) := by
  unfold hearHeader
  extract_lets touched
  have heard : Elements Peer.Relieved s touched := elements_touch s header.hash now
  split
  · exact heard.trans (elements_succeed touched peer header size now)
  · refine heard.trans (.single (.partials _ fun block part found => ?_))
    rw [Std.ExtTreeMap.getElem?_insert] at found
    split at found
    · rename_i same
      cases found
      exact .inl (Std.LawfulEqOrd.eq_of_compare same)
    · exact .inr ⟨part, found, rfl⟩

theorem elements_hearChunk (s : Scheduler) (peer : PeerAddress) (block : BlockHash)
    (transactions : UInt64) (now : Timestamp) :
    Elements Peer.Relieved s (s.hearChunk peer block transactions now) := by
  unfold hearChunk
  split
  · exact .refl
  · rename_i part known
    extract_lets received touched
    have heard : Elements Peer.Relieved s touched := elements_touch s block now
    split
    · exact (heard.trans (elements_erasePartial touched block)).trans (elements_succeed ..)
    · refine heard.trans (.single (.partials _ fun other counted found => ?_))
      rw [Std.ExtTreeMap.getElem?_insert] at found
      split at found
      · rename_i same
        cases Std.LawfulEqOrd.eq_of_compare same
        cases found
        exact .inr ⟨part, known, rfl⟩
      · exact .inr ⟨counted, found, rfl⟩

theorem elements_hearLiteBlock (s : Scheduler) (peer : PeerAddress) (header : BlockHeader)
    (size : UInt64) (now : Timestamp) :
    Elements Peer.Relieved s (s.hearLiteBlock peer header size now) := by
  unfold hearLiteBlock
  split
  · exact elements_succeed s peer header size now
  · extract_lets head body
    have told : Elements Peer.Relieved s head := elements_publish s rfl
    exact (told.trans (elements_publish head rfl)).trans (elements_succeed ..)

theorem elements_hear (s : Scheduler) (event : NetworkEvent) (now : Timestamp) :
    Elements Peer.Changed s (s.hear event now) := by
  cases event with
  | sessionStopped => exact (elements_endSession s now).changed
  | enoughPeers => exact .of_tables rfl rfl rfl rfl
  | tooFewPeers => exact .of_tables rfl rfl rfl rfl
  | peerConnected peer => exact elements_hearConnected s peer
  | peerHandshaked peer => exact elements_hearHandshaked s peer
  | peerDisconnected peer => exact elements_hearDisconnected s peer now
  | blocksAnnounced => exact .of_tables rfl rfl rfl rfl
  | blocksNotFound peer blocks => exact (elements_hearNotFound s peer blocks now).changed
  | headerDelivered peer header size origin =>
    cases origin with
    | wire => exact (elements_hearHeader s peer header size now).changed
    | scheduler => exact .refl
  | chunkDelivered peer block transactions origin =>
    cases origin with
    | wire => exact (elements_hearChunk s peer block transactions now).changed
    | scheduler => exact .refl
  | liteBlockDelivered peer header size =>
    exact (elements_hearLiteBlock s peer header size now).changed
  | rawBlockDelivered peer header size => exact (elements_succeed s peer header size now).changed
  | _ => exact .refl

/-! ## Ticks -/

theorem elements_setRestricted (s : Scheduler) (bandwidthRestricted : Bool) :
    Elements change s { s with bandwidthRestricted } :=
  .of_tables rfl rfl rfl rfl

theorem elements_assign {peer : PeerAddress} {record : Peer} (known : s.peers[peer]? = some record)
    (available : record.isAvailable = true) (block : BlockHash) (now : Timestamp) :
    Elements Peer.Changed s (s.assign peer block now) := by
  have counted : Elements Peer.Changed s { s with backlog := s.backlog.beginAttempt block } :=
    .of_tables rfl rfl rfl rfl
  have started := counted.trans (elements_modifyPeer _ peer fun other found => .inr
    (.started (by cases known.symm.trans found; exact available) block
      ((s.backlog.beginAttempt block).attemptsOn block) now))
  unfold assign
  extract_lets begun attempt given watched asked grown
  have watching : Elements Peer.Changed s watched := started.trans (.of_tables rfl rfl rfl rfl)
  have told : Elements Peer.Changed s asked := watching.trans (elements_publish watched rfl)
  have ready : Elements Peer.Changed s grown :=
    (told.trans (elements_publish asked rfl)).trans (elements_growBuffer _ peer)
  exact ready.trans (.of_tables rfl rfl rfl rfl)

theorem elements_offerBlock (round : Round) {peer : PeerAddress} {record : Peer}
    (known : round.scheduler.peers[peer]? = some record) (available : record.isAvailable = true)
    (now : Timestamp) :
    Elements Peer.Changed round.scheduler (offerBlock round peer now).scheduler := by
  have offered := offer_offerBlock round peer now
  generalize (offerBlock round peer now).scheduler = offer at offered ⊢
  cases offered with
  | unasked flag => exact elements_setRestricted _ flag
  | refused flag refusals => exact .of_tables rfl rfl rfl rfl
  | @assigned block _ flag =>
    let taken : Scheduler :=
      { round.scheduler with
        bandwidthRestricted := flag, backlog := round.scheduler.backlog.remove block }
    have removed : Elements Peer.Changed round.scheduler taken := .of_tables rfl rfl rfl rfl
    exact removed.trans (elements_assign (s := taken) known available block now)

theorem elements_observe {peer : PeerAddress} {record : Peer} (known : s.peers[peer]? = some record)
    (block : BlockHash) (now : Timestamp) :
    Elements Peer.Changed s (s.observe peer record block now).2 := by
  unfold observe
  split
  · exact .refl
  · rename_i snapshot _
    have seen : Elements Peer.Changed s
        { s with peers := s.peers.insert peer (record.observe snapshot now).1 } := by
      refine .single (.peers _ fun other after found => ?_)
      rw [Std.ExtTreeMap.getElem?_insert] at found
      rw [Std.ExtTreeMap.getD_eq_getD_getElem?]
      split at found
      · rename_i same
        cases Std.LawfulEqOrd.eq_of_compare same
        cases found
        rw [known]
        exact .inr (.observed snapshot now)
      · rw [found]
        exact .inl rfl
    dsimp only
    split
    · exact seen.trans (.of_tables rfl rfl rfl rfl)
    · exact seen

theorem elements_watch {peer : PeerAddress} {record : Peer} (known : s.peers[peer]? = some record)
    (transfer : Transfer) (now : Timestamp) :
    Elements Peer.Changed s (s.watch peer record transfer now) := by
  have observed := elements_observe known transfer.block now
  unfold watch
  split
  · exact .refl
  · dsimp only
    split
    · exact observed.trans (.of_tables rfl rfl rfl rfl)
    · exact observed

theorem elements_turn (now : Timestamp) (round : Round) (peer : PeerAddress) :
    Elements Peer.Changed round.scheduler (turn now round peer).scheduler := by
  have taken := turnTaken_turn now round peer
  generalize turn now round peer = next at taken ⊢
  cases taken with
  | offered known available => exact elements_offerBlock round known available now
  | @watched record transfer known _ _ => exact elements_watch known transfer now
  | passed => exact .refl

theorem elements_turns (s : Scheduler) (now : Timestamp) :
    Elements Peer.Changed s (s.turns now) := by
  have all : ∀ (peers : List PeerAddress) (round : Round), Elements Peer.Changed round.scheduler
      (peers.foldl (turn now) round).scheduler := by
    intro peers
    induction peers with
    | nil => exact fun _ => .refl
    | cons peer rest ih => exact fun round => (elements_turn now round peer).trans (ih _)
  obtain ⟨flag, same⟩ := checkBandwidth_eq s
  have checked : Elements Peer.Changed s s.checkBandwidth := same ▸ elements_setRestricted s flag
  exact checked.trans (all s.fastestFirst ⟨s.checkBandwidth, s.pool⟩)

theorem elements_reconcile (now : Timestamp) (s : Scheduler) (block : BlockHash) :
    Elements Peer.Relieved s (reconcile now s block) := by
  unfold reconcile
  split
  · exact .of_tables rfl rfl rfl rfl
  · split
    · exact elements_cancelNow s block now
    · split
      · exact elements_fail s block now
      · exact .refl

/-- After the turns of a tick peers are relieved of work at most. -/
theorem elements_tick_of_turns (s : Scheduler) (now : Timestamp) :
    Elements Peer.Relieved ({ s with ticks := s.ticks + 1 }.turns now) (s.tick now) := by
  have resolved : ∀ t : Scheduler, Elements Peer.Relieved t (t.reconcileLimbo now) :=
    fun t => .foldl (elements_reconcile now) t.limbo.toList t
  obtain ⟨_, _, _, shape, _⟩ := tick_eq s now
  rw [shape]
  exact (resolved _).trans (.of_tables rfl rfl rfl rfl)

theorem elements_tick (s : Scheduler) (now : Timestamp) : Elements Peer.Changed s (s.tick now) := by
  have counted : Elements Peer.Changed s { s with ticks := s.ticks + 1 } :=
    .of_tables rfl rfl rfl rfl
  exact (counted.trans (elements_turns _ now)).trans (elements_tick_of_turns s now).changed

/-! ## All operations -/

theorem elements_cancelBlock (now : Timestamp) (s : Scheduler) (block : BlockHash) :
    Elements change s (cancelBlock now s block) := by
  unfold cancelBlock
  split
  · exact .refl
  · split <;> exact .of_tables rfl rfl rfl rfl

/-- Every operation consists of elementary steps. -/
theorem elements_apply (s : Scheduler) (now : Timestamp) (operation : Operation) :
    Elements Peer.Changed s (s.apply now operation) := by
  cases operation with
  | download request =>
    obtain ⟨backlog, journal, shape, _⟩ := download_eq s request now
    rw [apply, shape]
    exact .of_tables rfl rfl rfl rfl
  | cancel blocks => exact .foldl (elements_cancelBlock now) blocks s
  | hear event => exact elements_hear s event now
  | tick => exact elements_tick s now
  | _ => exact .of_tables rfl rfl rfl rfl

theorem Reachable.allPeers {property : Peer → Prop} (h : s.Reachable) (fresh : property .fresh)
    (kept : ∀ before after, property before → Peer.Changed before after → property after) :
    s.AllPeers property := by
  induction h with
  | created usable =>
    rw [eq_initial_of_create usable]
    exact fun _ _ found => nomatch Std.ExtTreeMap.getElem?_empty.symm.trans found
  | applied now operation _ ih => exact (elements_apply _ now operation).allPeers fresh kept ih
  | drained _ ih => exact ih

theorem Reachable.partsNamed (h : s.Reachable) : s.PartsNamed := by
  induction h with
  | created usable =>
    rw [eq_initial_of_create usable]
    exact fun _ _ found => nomatch Std.ExtTreeMap.getElem?_empty.symm.trans found
  | applied now operation _ ih => exact (elements_apply _ now operation).partsNamed ih
  | drained _ ih => exact ih

end Scheduler
end BlockFetch
