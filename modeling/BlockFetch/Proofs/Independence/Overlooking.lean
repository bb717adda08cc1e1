import BlockFetch.Scheduler.Operation

/-!
# Steps that overlook a part of the state

The streams, the journal with its settings and the gauge of busy peers stand in the background:
hardly a step reads them. So if two schedulers differ there at most, a step cannot tell one from the
other unless it is one of the few that do, and what those few keep is kept by all. This is put
together once, for all relations between schedulers that differ in their backgrounds at most.
-/
namespace BlockFetch.Scheduler

/-- A step takes related schedulers to related ones. -/
def Respects (R : Scheduler → Scheduler → Prop) (step : Scheduler → Scheduler) : Prop :=
  ∀ s t, R s t → R (step s) (step t)

/-- The parts of a scheduler that most steps overlook. -/
structure Backdrop where
  streams : StreamTable
  journalSettings : JournalSettings
  journal : Journal
  busyPercentage : Nat

def backdrop (s : Scheduler) : Backdrop :=
  ⟨s.streams, s.settings.journal, s.journal, s.busyPercentage⟩

def withBackdrop (s : Scheduler) (backdrop : Backdrop) : Scheduler :=
  { s with
    streams := backdrop.streams
    settings := { s.settings with journal := backdrop.journalSettings }
    journal := backdrop.journal
    busyPercentage := backdrop.busyPercentage }

/-- A step that does not look at the background leaves it as it is. -/
theorem backdrop_of_comm {step : Scheduler → Scheduler}
    (h : ∀ s backdrop, step (s.withBackdrop backdrop) = (step s).withBackdrop backdrop)
    (s : Scheduler) : (step s).backdrop = s.backdrop := by
  have same := congrArg Scheduler.backdrop (h s s.backdrop)
  exact same

/-- Related schedulers differ in their backgrounds at most, and stay related when a step overlooks
the background, makes an entry in the journal or has a buffer grown. -/
structure Overlooks (R : Scheduler → Scheduler → Prop) : Prop where
  differ : ∀ {s t}, R s t → ∃ backdrop, t = s.withBackdrop backdrop
  comm : ∀ {step : Scheduler → Scheduler},
    (∀ s backdrop, step (s.withBackdrop backdrop) = (step s).withBackdrop backdrop) →
      Respects R step
  note : ∀ block peer? entry now, Respects R fun s => s.note block peer? entry now
  growBuffer : ∀ peer, Respects R fun s => s.growBuffer peer

/-- Related schedulers see the same of every stream. -/
structure OverlooksInTurns (R : Scheduler → Scheduler → Prop) : Prop extends Overlooks R where
  sees : ∀ {s t}, R s t → ∀ peer, t.streams.snapshot? peer = s.streams.snapshot? peer

/-- Related schedulers also stay related when a buffer is reset and when a download is noted. -/
structure OverlooksAtEnds (R : Scheduler → Scheduler → Prop) : Prop extends Overlooks R where
  resetBuffer : ∀ peer, Respects R fun s => s.resetBuffer peer
  noteDownload : ∀ block peer now, Respects R fun s => s.noteDownload block peer now

variable {R : Scheduler → Scheduler → Prop} {step next : Scheduler → Scheduler}

namespace Respects

theorem comp (first : Respects R step) (second : Respects R next) :
    Respects R fun s => next (step s) :=
  fun s t related => second _ _ (first s t related)

theorem foldl {α : Type} {step : Scheduler → α → Scheduler}
    (h : ∀ item, Respects R fun s => step s item) (items : List α) :
    Respects R fun s => items.foldl step s := by
  induction items with
  | nil => exact fun _ _ related => related
  | cons item rest ih => exact (h item).comp ih

end Respects

variable (block : BlockHash) (peer : PeerAddress) (now : Timestamp)

/-! ## Small steps and turns -/

namespace Overlooks

theorem of_view {α : Type} {step : α → Scheduler → Scheduler} (h : Overlooks R)
    (view : Scheduler → α) (shared : ∀ s backdrop, view (s.withBackdrop backdrop) = view s)
    (each : ∀ value, Respects R (step value)) : Respects R fun s => step (view s) s := by
  intro s t related
  obtain ⟨backdrop, rfl⟩ := h.differ related
  have same := shared s backdrop
  simp only [same]
  exact each (view s) s _ related

theorem ite (h : Overlooks R) (condition : Scheduler → Prop) [DecidablePred condition]
    (shared : ∀ s backdrop, condition (s.withBackdrop backdrop) ↔ condition s)
    (yes : Respects R step) (no : Respects R next) :
    Respects R fun s => if condition s then step s else next s := by
  intro s t related
  obtain ⟨backdrop, rfl⟩ := h.differ related
  simp only [shared s backdrop]
  split
  · exact yes s _ related
  · exact no s _ related

theorem publish (h : Overlooks R) (event : NetworkEvent) : Respects R fun s => s.publish event :=
  h.comm fun _ _ => rfl

theorem modifyPeer (h : Overlooks R) (change : Peer → Peer) :
    Respects R fun s => s.modifyPeer peer change :=
  h.comm fun _ _ => rfl

theorem noteFailure (h : Overlooks R) : Respects R fun s => s.noteFailure block peer now :=
  h.comm fun _ _ => rfl

theorem moveToLimbo (h : Overlooks R) (stall : Stall) :
    Respects R fun s => s.moveToLimbo peer block stall now :=
  have moved : Respects R fun s =>
      { s with
        limbo := s.limbo.insert block
        lastActivity := s.lastActivity.insert block now } := h.comm fun _ _ => rfl
  (moved.comp (h.noteFailure block peer now)).comp (h.note block _ _ now)

theorem checkBandwidth (h : Overlooks R) : Respects R Scheduler.checkBandwidth := by
  have restricted : ∀ flag, Respects R fun s => { s with bandwidthRestricted := flag } :=
    fun flag => h.comm fun _ _ => rfl
  refine h.of_view (fun s => decide (s.bytesInFlight ≥ s.settings.maxBytes)) ?_ restricted
  intro s backdrop
  have bytes : (s.withBackdrop backdrop).bytesInFlight = s.bytesInFlight := rfl
  have limit : (s.withBackdrop backdrop).settings.maxBytes = s.settings.maxBytes := by
    simp only [withBackdrop, Settings.maxBytes]
  rw [bytes, limit]

theorem assign (h : Overlooks R) : Respects R fun s => s.assign peer block now := by
  have begun : Respects R fun s => { s with backlog := s.backlog.beginAttempt block } :=
    h.comm fun _ _ => rfl
  have started : ∀ attempt, Respects R fun s =>
      { s.modifyPeer peer fun record => record.start block attempt now with
        lastActivity := (s.modifyPeer peer fun record =>
          record.start block attempt now).lastActivity.insert block now
        refusals := (s.modifyPeer peer fun record =>
          record.start block attempt now).refusals.erase peer } :=
    fun attempt => h.comm fun _ _ => rfl
  have said : Respects R fun s =>
      ((s.publish (.blockRequested peer block)).publish (.keepAlive peer false)).growBuffer peer :=
    ((h.publish _).comp (h.publish _)).comp (h.growBuffer peer)
  have requested := h.of_view (fun s => s.backlog.attemptsOn block) (fun _ _ => rfl)
    fun attempt => ((started attempt).comp said).comp
      (h.note block (some peer) (.requested attempt) now)
  exact begun.comp requested

end Overlooks

def RelatedRounds (R : Scheduler → Scheduler → Prop) (first second : Round) : Prop :=
  R first.scheduler second.scheduler ∧ first.pool = second.pool

namespace OverlooksInTurns

variable {s t : Scheduler}

theorem observe (h : OverlooksInTurns R) (record : Peer) (related : R s t) :
    (t.observe peer record block now).1 = (s.observe peer record block now).1 ∧
      R (s.observe peer record block now).2 (t.observe peer record block now).2 := by
  unfold Scheduler.observe
  rw [h.sees related peer]
  cases s.streams.snapshot? peer with
  | none => exact ⟨rfl, related⟩
  | some snapshot =>
    dsimp only
    refine ⟨rfl, ?_⟩
    have kept : Respects R fun s =>
        { s with peers := s.peers.insert peer (record.observe snapshot now).1 } :=
      h.comm fun _ _ => rfl
    have touched : Respects R fun s =>
        { s with lastActivity := s.lastActivity.insert block now } := h.comm fun _ _ => rfl
    split
    · exact (kept.comp touched) s t related
    · exact kept s t related

theorem watch (h : OverlooksInTurns R) (record : Peer) (transfer : Transfer) :
    Respects R fun s => s.watch peer record transfer now := by
  intro s t related
  have limbo : t.limbo.contains transfer.block = s.limbo.contains transfer.block := by
    obtain ⟨backdrop, rfl⟩ := h.differ related
    rfl
  obtain ⟨sameRecord, observed⟩ := h.observe transfer.block peer now record related
  dsimp only [Scheduler.watch]
  rw [limbo]
  split
  · exact related
  · generalize s.observe peer record transfer.block now = seen at sameRecord observed ⊢
    generalize t.observe peer record transfer.block now = seenToo at sameRecord observed ⊢
    obtain ⟨_, u⟩ := seen
    obtain ⟨record', v⟩ := seenToo
    dsimp only at sameRecord observed ⊢
    obtain rfl := sameRecord
    obtain ⟨backdrop, rfl⟩ := h.differ observed
    have stalled : (record'.transfer?.bind fun transfer =>
        (u.withBackdrop backdrop).stall? record' transfer now) =
          record'.transfer?.bind fun transfer => u.stall? record' transfer now := rfl
    rw [stalled]
    cases record'.transfer?.bind fun transfer => u.stall? record' transfer now with
    | none => exact observed
    | some stall => exact h.moveToLimbo transfer.block peer now stall u _ observed

variable {first second : Round}

theorem findBlock (h : OverlooksInTurns R) (related : RelatedRounds R first second) :
    RelatedRounds R (findBlock first peer now) (findBlock second peer now) := by
  obtain ⟨s, pool⟩ := first
  obtain ⟨t, _⟩ := second
  obtain ⟨schedulers, rfl⟩ := related
  dsimp only at schedulers
  obtain ⟨backdrop, rfl⟩ := h.differ schedulers
  have mode : (s.withBackdrop backdrop).handOutMode? = s.handOutMode? := rfl
  unfold Scheduler.findBlock
  dsimp only
  rw [mode]
  cases s.handOutMode? with
  | none => exact ⟨schedulers, rfl⟩
  | some restricted =>
    have asked : (s.withBackdrop backdrop).backlog.handOut
          ⟨(s.withBackdrop backdrop).eligibility, peer, pool, restricted, now⟩ =
        s.backlog.handOut ⟨s.eligibility, peer, pool, restricted, now⟩ := rfl
    dsimp only
    rw [asked]
    rcases s.backlog.handOut ⟨s.eligibility, peer, pool, restricted, now⟩ with
      ⟨block | refusals, backlog⟩
    · have taken : Respects R fun s => { s with backlog } := h.comm fun _ _ => rfl
      exact ⟨taken.comp (h.assign block peer now) s _ schedulers, rfl⟩
    · have noted : Respects R fun s => s.noteRefusals peer refusals := h.comm fun _ _ => rfl
      exact ⟨noted s _ schedulers, rfl⟩

theorem turn (h : OverlooksInTurns R) (related : RelatedRounds R first second) :
    RelatedRounds R (turn now first peer) (turn now second peer) := by
  obtain ⟨s, pool⟩ := first
  obtain ⟨t, _⟩ := second
  obtain ⟨schedulers, rfl⟩ := related
  dsimp only at schedulers
  obtain ⟨backdrop, rfl⟩ := h.differ schedulers
  have known : (s.withBackdrop backdrop).peers[peer]? = s.peers[peer]? := rfl
  unfold Scheduler.turn
  dsimp only
  rw [known]
  cases s.peers[peer]? with
  | none => exact ⟨schedulers, rfl⟩
  | some record =>
    dsimp only
    split
    · exact h.findBlock peer now ⟨h.checkBandwidth s _ schedulers, rfl⟩
    · split
      · cases record.transfer? with
        | none => exact ⟨schedulers, rfl⟩
        | some transfer => exact ⟨h.watch peer now record transfer s _ schedulers, rfl⟩
      · exact ⟨schedulers, rfl⟩

/-- The turns look at the streams of busy peers only, and they grow buffers only. -/
theorem turns (h : OverlooksInTurns R) : Respects R fun s => s.turns now := by
  intro s t related
  obtain ⟨backdrop, rfl⟩ := h.differ related
  have order : (s.withBackdrop backdrop).fastestFirst = s.fastestFirst := rfl
  have pool : (s.withBackdrop backdrop).pool = s.pool := rfl
  have each : ∀ (peers : List PeerAddress) (first second : Round),
      RelatedRounds R first second →
        RelatedRounds R (peers.foldl (Scheduler.turn now) first)
          (peers.foldl (Scheduler.turn now) second) := by
    intro peers
    induction peers with
    | nil => exact fun _ _ related => related
    | cons peer rest ih => exact fun _ _ related => ih _ _ (h.turn peer now related)
  have begun : RelatedRounds R ⟨s.checkBandwidth, s.pool⟩
      ⟨(s.withBackdrop backdrop).checkBandwidth, s.pool⟩ :=
    ⟨h.checkBandwidth s _ related, rfl⟩
  dsimp only [Scheduler.turns]
  rw [order, pool]
  exact (each s.fastestFirst _ _ begun).1

end OverlooksInTurns

/-! ## Ends of attempts -/

namespace OverlooksAtEnds

theorem freePeer (h : OverlooksAtEnds R) : Respects R fun s => s.freePeer peer :=
  ((h.modifyPeer peer _).comp (h.publish _)).comp (h.resetBuffer peer)

theorem freeHolders (h : OverlooksAtEnds R) : Respects R fun s => s.freeHolders block :=
  h.of_view (fun s => s.holders block) (fun _ _ => rfl) (.foldl h.freePeer)

theorem endAttempt (h : OverlooksAtEnds R) : Respects R fun s => s.endAttempt block :=
  h.comm fun _ _ => rfl

theorem markCancelled (h : OverlooksAtEnds R) : Respects R fun s => s.markCancelled block now :=
  have marked : Respects R fun s =>
      { s with
        backlog := s.backlog.forget block
        discarded := s.discarded.erase block
        cancelled := s.cancelled.insert block } := h.comm fun _ _ => rfl
  marked.comp (h.note block _ _ now)

theorem settleCancel (h : OverlooksAtEnds R) : Respects R fun s =>
    { s with cancelling := s.cancelling.erase block }.markCancelled block now :=
  have settled : Respects R fun s => { s with cancelling := s.cancelling.erase block } :=
    h.comm fun _ _ => rfl
  settled.comp (h.markCancelled block now)

theorem failHolder (h : OverlooksAtEnds R) : Respects R fun s => s.failHolder block now peer :=
  (((h.modifyPeer peer _).comp (h.noteFailure block peer now)).comp (h.publish _)).comp
    (h.resetBuffer peer)

theorem failHolders (h : OverlooksAtEnds R) : Respects R fun s => s.failHolders block now :=
  h.of_view (fun s => s.holders block) (fun _ _ => rfl)
    (.foldl fun peer => h.failHolder block peer now)

theorem requeue (h : OverlooksAtEnds R) : Respects R fun s => s.requeue block now :=
  have queued : Respects R fun s =>
      { s with backlog := s.backlog.prepend [block], retries := s.retries + 1 } :=
    h.comm fun _ _ => rfl
  queued.comp (h.note block _ _ now)

theorem discardBlock (h : OverlooksAtEnds R) : Respects R fun s => s.discardBlock block now := by
  have discarded : ∀ attempts, Respects R fun s =>
      ({ s with
        backlog := s.backlog.setAside block
        discarded := s.discarded.insert block now }.note block none (.discarded attempts) now).publish
          (.blockDiscarded block (discardReason attempts)) := by
    intro attempts
    have aside : Respects R fun s =>
        { s with
          backlog := s.backlog.setAside block
          discarded := s.discarded.insert block now } := h.comm fun _ _ => rfl
    exact (aside.comp (h.note block _ _ now)).comp (h.publish _)
  exact h.of_view (fun s => s.backlog.attemptsOn block) (fun _ _ => rfl) discarded

theorem fail (h : OverlooksAtEnds R) : Respects R fun s => s.fail block now := by
  have ended := (h.failHolders block now).comp (h.endAttempt block)
  have resolved : Respects R fun s =>
      if s.cancelling.contains block then
        { s with cancelling := s.cancelling.erase block }.markCancelled block now
      else if s.backlog.attemptsOn block < s.settings.maxAttempts.toNat then s.requeue block now
      else s.discardBlock block now :=
    h.ite _ (fun _ _ => .rfl) (h.settleCancel block now)
      (h.ite _ (fun _ _ => .rfl) (h.requeue block now) (h.discardBlock block now))
  exact ended.comp resolved

theorem recordSpeed (h : OverlooksAtEnds R) (transfer? : Option Transfer) (size : UInt64) :
    Respects R fun s => s.recordSpeed peer transfer? size now := by
  cases transfer? with
  | none => exact h.comm fun _ _ => rfl
  | some transfer => exact h.comm fun _ _ => rfl

theorem dropPartial (h : OverlooksAtEnds R) :
    Respects R fun s => { s with partials := s.partials.erase block } :=
  h.comm fun _ _ => rfl

theorem succeed (h : OverlooksAtEnds R) (header : BlockHeader) (size : UInt64) :
    Respects R fun s => s.succeed peer header size now := by
  have dropped := (h.freeHolders header.hash).comp (h.dropPartial header.hash)
  have delivered : ∀ transfer? : Option Transfer, Respects R fun s =>
      ((((s.publish (.blockDownloaded peer header size
          ((transfer?.map fun transfer => transfer.elapsed now).getD 0))).recordSpeed peer transfer?
            size now).freeHolders header.hash).markDownloaded header.hash).noteDownload header.hash
              peer now := by
    intro transfer?
    have marked : Respects R fun s => s.markDownloaded header.hash := h.comm fun _ _ => rfl
    exact ((((h.publish _).comp (h.recordSpeed peer now transfer? size)).comp
      (h.freeHolders header.hash)).comp marked).comp (h.noteDownload header.hash peer now)
  exact h.ite _ (fun _ _ => .rfl) dropped
    (h.of_view (fun s => s.transferOf? peer header.hash) (fun _ _ => rfl) delivered)

theorem cancelNow (h : OverlooksAtEnds R) : Respects R fun s => s.cancelNow block now :=
  ((h.freeHolders block).comp (h.endAttempt block)).comp (h.settleCancel block now)

theorem abandon (h : OverlooksAtEnds R) : Respects R fun s => abandon now s block := by
  have silent : Respects R fun s => { s with lastActivity := s.lastActivity.erase block } :=
    h.comm fun _ _ => rfl
  have settled : Respects R fun s =>
      if s.cancelling.contains block then
        { s with cancelling := s.cancelling.erase block }.markCancelled block now
      else s :=
    h.ite _ (fun _ _ => .rfl) (h.settleCancel block now) (h.comm fun _ _ => rfl)
  exact silent.comp settled

theorem endSession (h : OverlooksAtEnds R) : Respects R fun s => s.endSession now := by
  have ended : ∀ blocks : List BlockHash, Respects R fun s =>
      { blocks.foldl (Scheduler.abandon now) s with
        backlog := (blocks.foldl (Scheduler.abandon now) s).backlog.prepend
          (blocks.filter fun block =>
            !(blocks.foldl (Scheduler.abandon now) s).cancelled.contains block)
        peers := ∅
        limbo := ∅
        partials := ∅
        refusals := ∅ } := by
    intro blocks
    have reset : Respects R fun s =>
        { s with
          backlog := s.backlog.prepend (blocks.filter fun block => !s.cancelled.contains block)
          peers := ∅
          limbo := ∅
          partials := ∅
          refusals := ∅ } := h.comm fun _ _ => rfl
    exact (Respects.foldl (fun block => h.abandon block now) blocks).comp reset
  exact h.of_view inFlight (fun _ _ => rfl) ended

/-! ## Notices -/

theorem hearConnected (h : OverlooksAtEnds R) : Respects R fun s => s.hearConnected peer := by
  intro s t related
  obtain ⟨backdrop, rfl⟩ := h.differ related
  have known : (s.withBackdrop backdrop).peers[peer]? = s.peers[peer]? := rfl
  have added : Respects R fun s => { s with peers := s.peers.insert peer .fresh } :=
    h.comm fun _ _ => rfl
  dsimp only [Scheduler.hearConnected]
  rw [known]
  cases s.peers[peer]? with
  | none => exact added s _ related
  | some record =>
    dsimp only
    split
    · exact h.modifyPeer peer _ s _ related
    · exact related

theorem hearDisconnected (h : OverlooksAtEnds R) :
    Respects R fun s => s.hearDisconnected peer now := by
  intro s t related
  obtain ⟨backdrop, rfl⟩ := h.differ related
  have known : (s.withBackdrop backdrop).peers[peer]? = s.peers[peer]? := rfl
  have detached : Respects R fun s => s.detachPeer peer := h.comm fun _ _ => rfl
  have lost : ∀ block, Respects R fun s =>
      if s.limbo.contains block then s.noteFailure block peer now
      else s.moveToLimbo peer block .disconnected now :=
    fun block => h.ite _ (fun _ _ => .rfl) (h.noteFailure block peer now)
      (h.moveToLimbo block peer now .disconnected)
  dsimp only [Scheduler.hearDisconnected]
  rw [known]
  cases s.peers[peer]? with
  | none => exact related
  | some record =>
    dsimp only
    cases record.block? with
    | none => exact detached s _ related
    | some block => exact (detached.comp (lost block)) s _ related

theorem hearNotFound (h : OverlooksAtEnds R) (blocks : List BlockHash) :
    Respects R fun s => s.hearNotFound peer blocks now := by
  have same : Respects R fun s => s := h.comm fun _ _ => rfl
  cases blocks with
  | nil => exact same
  | cons block rest => cases rest with
    | nil =>
      exact h.ite (fun s => (s.peers[peer]?).bind Peer.block? = some block) (fun _ _ => .rfl)
        ((h.note block _ _ now).comp (h.fail block now)) same
    | cons _ _ => exact same

theorem hearHeader (h : OverlooksAtEnds R) (header : BlockHeader) (size : UInt64) :
    Respects R fun s => s.hearHeader peer header size now := by
  have touched : Respects R fun s => s.touch header.hash now := h.comm fun _ _ => rfl
  have begun : Respects R fun s =>
      { s with partials := s.partials.insert header.hash ⟨header, size, 0⟩ } :=
    h.comm fun _ _ => rfl
  exact touched.comp (h.ite (fun _ => header.transactionCount = 0) (fun _ _ => .rfl)
    (h.succeed peer now header size) begun)

theorem hearChunk (h : OverlooksAtEnds R) (transactions : UInt64) :
    Respects R fun s => s.hearChunk peer block transactions now := by
  intro s t related
  obtain ⟨backdrop, rfl⟩ := h.differ related
  have pending : (s.withBackdrop backdrop).partials[block]? = s.partials[block]? := rfl
  have touched : Respects R fun s => s.touch block now := h.comm fun _ _ => rfl
  dsimp only [Scheduler.hearChunk]
  rw [pending]
  cases s.partials[block]? with
  | none => exact related
  | some part =>
    have completed := (h.dropPartial block).comp (h.succeed peer now part.header part.size)
    have kept : ∀ received, Respects R fun s =>
        { s with partials := s.partials.insert block { part with received } } :=
      fun received => h.comm fun _ _ => rfl
    dsimp only
    split
    · exact (touched.comp completed) s _ related
    · exact (touched.comp (kept _)) s _ related

theorem hearLiteBlock (h : OverlooksAtEnds R) (header : BlockHeader) (size : UInt64) :
    Respects R fun s => s.hearLiteBlock peer header size now :=
  h.ite _ (fun _ _ => .rfl) (h.succeed peer now header size)
    (((h.publish _).comp (h.publish _)).comp (h.succeed peer now header size))

theorem hear (h : OverlooksAtEnds R) (event : NetworkEvent) :
    Respects R fun s => s.hear event now := by
  have same : Respects R fun s => s := h.comm fun _ _ => rfl
  cases event with
  | sessionStopped => exact h.endSession now
  | enoughPeers count => exact h.comm fun _ _ => rfl
  | tooFewPeers count => exact h.comm fun _ _ => rfl
  | peerConnected peer => exact h.hearConnected peer
  | peerHandshaked peer => exact h.comm fun _ _ => rfl
  | peerDisconnected peer reason => exact h.hearDisconnected peer now
  | blocksAnnounced peer blocks => exact h.comm fun _ _ => rfl
  | blocksNotFound peer blocks => exact h.hearNotFound peer now blocks
  | headerDelivered peer header size origin => cases origin with
    | wire => exact h.hearHeader peer now header size
    | scheduler => exact same
  | chunkDelivered peer block transactions origin => cases origin with
    | wire => exact h.hearChunk block peer now transactions
    | scheduler => exact same
  | liteBlockDelivered peer header size => exact h.hearLiteBlock peer now header size
  | rawBlockDelivered peer header size => exact h.succeed peer now header size
  | _ => exact same

/-! ## What clients ask for -/

theorem cancelBlock (h : OverlooksAtEnds R) : Respects R fun s => cancelBlock now s block := by
  have later : Respects R fun s => { s with cancelling := s.cancelling.insert block } :=
    h.comm fun _ _ => rfl
  exact h.ite _ (fun _ _ => .rfl) (h.comm fun _ _ => rfl)
    (h.ite _ (fun _ _ => .rfl) (later.comp (h.note block _ _ now)) (h.markCancelled block now))

theorem cancel (h : OverlooksAtEnds R) (blocks : List BlockHash) :
    Respects R fun s => s.cancel blocks now :=
  .foldl (fun block => h.cancelBlock block now) blocks

theorem download (h : OverlooksAtEnds R) (request : FetchRequest) :
    Respects R fun s => s.download request now := by
  intro s t related
  obtain ⟨backdrop, rfl⟩ := h.differ related
  let blocks := s.accepted request
  let added := blocks.filter fun block => !s.isInFlight block && !s.backlog.contains block
  have reopened : Respects R fun s => s.reopen blocks := h.comm fun _ _ => rfl
  have noted := Respects.foldl (fun block => h.note block none .queued now) added
  have waiting : ∀ backlog, Respects R fun s => { s with backlog } :=
    fun backlog => h.comm fun _ _ => rfl
  have same : (s.withBackdrop backdrop).accepted request = blocks := rfl
  have sameToo : (blocks.filter fun block => !(s.withBackdrop backdrop).isInFlight block &&
      !(s.withBackdrop backdrop).backlog.contains block) = added := rfl
  have queued := (reopened.comp noted) s _ related
  obtain ⟨later, shape⟩ := h.differ queued
  dsimp only [Scheduler.download] at shape queued ⊢
  rw [shape] at queued
  rw [same, sameToo, shape]
  exact waiting _ _ _ queued

/-! ## Limbo and discarded blocks -/

theorem reconcile (h : OverlooksAtEnds R) : Respects R fun s => reconcile now s block :=
  have released : Respects R fun s =>
      { s with limbo := s.limbo.erase block, lastActivity := s.lastActivity.erase block } :=
    h.comm fun _ _ => rfl
  h.ite _ (fun _ _ => .rfl) released
    (h.ite _ (fun _ _ => .rfl) (h.cancelNow block now)
      (h.ite _ (fun _ _ => .rfl) (h.fail block now) (h.comm fun _ _ => rfl)))

theorem reconcileLimbo (h : OverlooksAtEnds R) : Respects R fun s => s.reconcileLimbo now :=
  h.of_view (fun s => s.limbo.toList) (fun _ _ => rfl) (.foldl fun block => h.reconcile block now)

theorem reviveDiscarded (h : OverlooksAtEnds R) : Respects R fun s => s.reviveDiscarded now := by
  have revived : ∀ block, Respects R fun s =>
      { s with discarded := s.discarded.erase block }.note block none .revived now := by
    intro block
    have erased : Respects R fun s => { s with discarded := s.discarded.erase block } :=
      h.comm fun _ _ => rfl
    exact erased.comp (h.note block _ _ now)
  have queued : ∀ blocks, Respects R fun s => { s with backlog := s.backlog.prepend blocks } :=
    fun blocks => h.comm fun _ _ => rfl
  exact h.of_view (fun s => s.expired now) (fun _ _ => rfl)
    fun blocks => (Respects.foldl revived blocks).comp (queued blocks)

end OverlooksAtEnds
end BlockFetch.Scheduler
