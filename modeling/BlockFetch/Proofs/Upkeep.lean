import BlockFetch.Proofs.Dossier
import BlockFetch.Proofs.Workload.Outcome
import Mathlib.Logic.Relation

/-!
# Upkeep

What the scheduler does of its own accord to the dossiers of blocks is listed here once, as the
amendments of a dossier. All operations but the requests of clients amend dossiers only, and leave
the two switches alone by which the handing out of new blocks is paused. So what no amendment
undoes lasts until a client undoes it.
-/
namespace BlockFetch

/-- The ways in which a dossier is revised in the course of the work on its block. -/
inductive Dossier.Amended : Dossier → Dossier → Prop where
  /-- What concerns the attempt under way, and the journal. -/
  | attended {dossier} (inLimbo cancelling : Bool) (lastActivity? : Option Timestamp)
      (part? : Option PartialBlock) (entries? : Option (List JournalEntry)) :
      Amended dossier { dossier with inLimbo, cancelling, lastActivity?, part?, entries? }
  | announced {dossier} (peer : PeerAddress) : Amended dossier (dossier.announcedBy peer)
  | failed {dossier} (peer : PeerAddress) (now : Timestamp) :
      Amended dossier (dossier.failedBy peer now)
  | begun {dossier} (now : Timestamp) : Amended dossier (dossier.begun now)
  | setAside {dossier} (now : Timestamp) : Amended dossier (dossier.setAside now)
  | revived {dossier} : Amended dossier { dossier with discardedAt? := none }
  | givenUp {dossier} : Amended dossier dossier.givenUp
  | delivered {dossier} : Amended dossier dossier.delivered

def Dossier.Amendments : Dossier → Dossier → Prop :=
  Relation.ReflTransGen Dossier.Amended

namespace Dossier.Amendments

variable {first second third : Dossier}

theorem refl (dossier : Dossier) : Amendments dossier dossier := Relation.ReflTransGen.refl

theorem single (h : Amended first second) : Amendments first second :=
  Relation.ReflTransGen.single h

theorem trans (head : Amendments first second) (tail : Amendments second third) :
    Amendments first third := Relation.ReflTransGen.trans head tail

theorem noted (recording : Bool) (entry : JournalEntry) (dossier : Dossier) :
    Amendments dossier (dossier.noted recording entry) := by
  unfold Dossier.noted
  split
  · exact single (.attended ..)
  · exact refl dossier

end Dossier.Amendments

namespace Scheduler

/-- A step amends dossiers at most, and leaves the switches of a pause alone. -/
structure Upkeep (s t : Scheduler) : Prop where
  clientPaused : t.clientPaused = s.clientPaused
  enoughPeers : t.enoughPeers = s.enoughPeers
  dossier : ∀ block, Dossier.Amendments (s.dossier block) (t.dossier block)

variable {s t u : Scheduler} {block : BlockHash} {now : Timestamp}

namespace Upkeep

theorem refl (s : Scheduler) : Upkeep s s := ⟨rfl, rfl, fun _ => .refl _⟩

theorem trans (first : Upkeep s t) (second : Upkeep t u) : Upkeep s u where
  clientPaused := second.clientPaused.trans first.clientPaused
  enoughPeers := second.enoughPeers.trans first.enoughPeers
  dossier block := (first.dossier block).trans (second.dossier block)

theorem foldl {α : Type} {step : Scheduler → α → Scheduler} (h : ∀ s a, Upkeep s (step s a))
    (items : List α) (s : Scheduler) : Upkeep s (items.foldl step s) := by
  induction items generalizing s with
  | nil => exact refl s
  | cons item rest ih => exact (h s item).trans (ih (step s item))

theorem of_dossier_eq (clientPaused : t.clientPaused = s.clientPaused)
    (enoughPeers : t.enoughPeers = s.enoughPeers)
    (dossier : ∀ block, t.dossier block = s.dossier block) : Upkeep s t :=
  ⟨clientPaused, enoughPeers, fun block => dossier block ▸ .refl _⟩

theorem of_revises {revision : Dossier → Dossier} (revises : Revises block revision s t)
    (clientPaused : t.clientPaused = s.clientPaused) (enoughPeers : t.enoughPeers = s.enoughPeers)
    (amends : ∀ dossier, Dossier.Amendments dossier (revision dossier)) : Upkeep s t := by
  refine ⟨clientPaused, enoughPeers, fun other => ?_⟩
  rw [revises other]
  split
  · exact amends _
  · exact .refl _

end Upkeep

/-! ## Small steps -/

theorem upkeep_note (s : Scheduler) (block : BlockHash) (peer? : Option PeerAddress) (note : Note)
    (now : Timestamp) : Upkeep s (s.note block peer? note now) :=
  .of_revises (revises_note s block now peer? note) rfl rfl (.noted _ _)

theorem upkeep_noteFailure (s : Scheduler) (block : BlockHash) (peer : PeerAddress)
    (now : Timestamp) : Upkeep s (s.noteFailure block peer now) :=
  .of_revises (revises_noteFailure s block now peer) rfl rfl fun _ => .single (.failed peer now)

theorem upkeep_touch (s : Scheduler) (block : BlockHash) (now : Timestamp) :
    Upkeep s (s.touch block now) :=
  .of_revises (revises_touch s block now) rfl rfl fun _ => .single (.attended ..)

theorem upkeep_erasePartial (s : Scheduler) (block : BlockHash) :
    Upkeep s { s with partials := s.partials.erase block } :=
  .of_revises (revises_erasePartial s block) rfl rfl fun _ => .single (.attended ..)

theorem upkeep_eraseCancelling (s : Scheduler) (block : BlockHash) :
    Upkeep s { s with cancelling := s.cancelling.erase block } :=
  .of_revises (revises_eraseCancelling s block) rfl rfl fun _ => .single (.attended ..)

/-- A change of peers only. -/
theorem upkeep_modifyPeer (s : Scheduler) (peer : PeerAddress) (change : Peer → Peer) :
    Upkeep s (s.modifyPeer peer change) :=
  .of_dossier_eq rfl rfl fun _ => rfl

theorem upkeep_moveToLimbo (s : Scheduler) (peer : PeerAddress) (block : BlockHash) (stall : Stall)
    (now : Timestamp) : Upkeep s (s.moveToLimbo peer block stall now) := by
  refine .of_revises (revises_moveToLimbo s block now peer stall) rfl rfl fun dossier => ?_
  have stalled : Dossier.Amendments dossier (dossier.stalled now) := .single (.attended ..)
  exact (stalled.trans (.single (.failed peer now))).trans (.noted ..)

/-! ## Ends of attempts -/

theorem upkeep_freePeer (s : Scheduler) (peer : PeerAddress) : Upkeep s (s.freePeer peer) :=
  .of_dossier_eq rfl rfl fun _ => rfl

theorem upkeep_freeHolders (s : Scheduler) (block : BlockHash) : Upkeep s (s.freeHolders block) :=
  Upkeep.foldl upkeep_freePeer _ s

theorem upkeep_failHolders (s : Scheduler) (block : BlockHash) (now : Timestamp) :
    Upkeep s (s.failHolders block now) := by
  refine Upkeep.foldl (fun s peer => ?_) _ s
  have noted := (upkeep_modifyPeer s peer Peer.fail).trans (upkeep_noteFailure _ block peer now)
  exact ⟨noted.clientPaused, noted.enoughPeers, noted.dossier⟩

theorem upkeep_endAttempt (s : Scheduler) (block : BlockHash) : Upkeep s (s.endAttempt block) :=
  .of_revises (revises_endAttempt s block) rfl rfl fun _ => .single (.attended ..)

theorem upkeep_markCancelled (s : Scheduler) (block : BlockHash) (now : Timestamp) :
    Upkeep s (s.markCancelled block now) :=
  .of_revises (revises_markCancelled s block now) rfl rfl fun _ =>
    (Dossier.Amendments.single .givenUp).trans (.noted ..)

theorem upkeep_requeue (s : Scheduler) (block : BlockHash) (now : Timestamp) :
    Upkeep s (s.requeue block now) :=
  .of_revises (revises_requeue s block now) rfl rfl (.noted _ _)

theorem upkeep_discardBlock (s : Scheduler) (block : BlockHash) (now : Timestamp) :
    Upkeep s (s.discardBlock block now) :=
  .of_revises (revises_discardBlock s block now) rfl rfl fun _ =>
    (Dossier.Amendments.single (.setAside now)).trans (.noted ..)

theorem upkeep_fail (s : Scheduler) (block : BlockHash) (now : Timestamp) :
    Upkeep s (s.fail block now) := by
  have aborted := (upkeep_failHolders s block now).trans (upkeep_endAttempt _ block)
  refine aborted.trans ?_
  unfold fail
  extract_lets ended
  split
  · exact (upkeep_eraseCancelling ended block).trans (upkeep_markCancelled _ block now)
  · split
    · exact upkeep_requeue ended block now
    · exact upkeep_discardBlock ended block now

theorem upkeep_recordSpeed (s : Scheduler) (peer : PeerAddress) (transfer? : Option Transfer)
    (size : UInt64) (now : Timestamp) : Upkeep s (s.recordSpeed peer transfer? size now) := by
  cases transfer? with
  | none => exact .refl s
  | some transfer => exact upkeep_modifyPeer s peer _

theorem upkeep_noteDownload (s : Scheduler) (block : BlockHash) (peer : PeerAddress)
    (now : Timestamp) : Upkeep s (s.noteDownload block peer now) := by
  unfold noteDownload
  split
  · exact .of_revises (revises_clearJournal s block) rfl rfl fun _ => .single (.attended ..)
  · exact upkeep_note ..

theorem upkeep_succeed (s : Scheduler) (peer : PeerAddress) (header : BlockHeader) (size : UInt64)
    (now : Timestamp) : Upkeep s (s.succeed peer header size now) := by
  unfold succeed
  extract_lets block freed transfer? duration announced delivered
  split
  · exact (upkeep_freeHolders s block).trans (upkeep_erasePartial freed block)
  · have told : Upkeep s announced := .of_dossier_eq rfl rfl fun _ => rfl
    have measured := told.trans (upkeep_recordSpeed announced peer transfer? size now)
    have released := measured.trans (upkeep_freeHolders _ block)
    have marked : Upkeep delivered (delivered.markDownloaded block) :=
      .of_revises (revises_markDownloaded delivered block) rfl rfl fun _ => .single .delivered
    exact (released.trans marked).trans (upkeep_noteDownload _ block peer now)

theorem upkeep_cancelNow (s : Scheduler) (block : BlockHash) (now : Timestamp) :
    Upkeep s (s.cancelNow block now) := by
  have ended := (upkeep_freeHolders s block).trans (upkeep_endAttempt _ block)
  exact (ended.trans (upkeep_eraseCancelling _ block)).trans (upkeep_markCancelled _ block now)

theorem upkeep_abandon (now : Timestamp) (s : Scheduler) (block : BlockHash) :
    Upkeep s (abandon now s block) := by
  have unheard : Upkeep s { s with lastActivity := s.lastActivity.erase block } :=
    .of_revises (revises_eraseActivity s block) rfl rfl fun _ => .single (.attended ..)
  unfold abandon
  extract_lets left
  split
  · have taken := unheard.trans (upkeep_eraseCancelling left block)
    exact taken.trans (upkeep_markCancelled _ block now)
  · exact unheard

theorem upkeep_endSession (s : Scheduler) (now : Timestamp) : Upkeep s (s.endSession now) := by
  have abandoned := Upkeep.foldl (upkeep_abandon now) s.inFlight s
  exact abandoned.trans ⟨rfl, rfl, fun _ => .single (.attended ..)⟩

/-! ## Notices -/

theorem upkeep_hearConnected (s : Scheduler) (peer : PeerAddress) :
    Upkeep s (s.hearConnected peer) := by
  unfold hearConnected
  split
  · exact .of_dossier_eq rfl rfl fun _ => rfl
  · split
    · exact upkeep_modifyPeer s peer _
    · exact .refl s

theorem upkeep_hearHandshaked (s : Scheduler) (peer : PeerAddress) :
    Upkeep s (s.hearHandshaked peer) :=
  .of_dossier_eq rfl rfl fun _ => rfl

theorem upkeep_hearDisconnected (s : Scheduler) (peer : PeerAddress) (now : Timestamp) :
    Upkeep s (s.hearDisconnected peer now) := by
  unfold hearDisconnected
  split
  · exact .refl s
  · extract_lets detached
    have left : Upkeep s detached := .of_dossier_eq rfl rfl fun _ => rfl
    split
    · exact left
    · split
      · exact left.trans (upkeep_noteFailure detached _ peer now)
      · exact left.trans (upkeep_moveToLimbo detached peer _ .disconnected now)

theorem upkeep_hearAnnounced (s : Scheduler) (peer : PeerAddress) (blocks : List BlockHash) :
    Upkeep s (s.hearAnnounced peer blocks) := by
  induction blocks generalizing s with
  | nil => exact .refl s
  | cons block rest ih =>
    have noted : Upkeep s { s with backlog := s.backlog.noteAnnouncement block peer } :=
      .of_revises (revises_noteAnnouncement s block peer) rfl rfl fun _ =>
        .single (.announced peer)
    exact noted.trans (ih _)

theorem upkeep_hearNotFound (s : Scheduler) (peer : PeerAddress) (blocks : List BlockHash)
    (now : Timestamp) : Upkeep s (s.hearNotFound peer blocks now) := by
  unfold hearNotFound
  split
  · rename_i block
    split
    · exact (upkeep_note s block (some peer) .notFound now).trans (upkeep_fail _ block now)
    · exact .refl s
  · exact .refl s

theorem upkeep_insertPartial (s : Scheduler) (block : BlockHash) (part : PartialBlock) :
    Upkeep s { s with partials := s.partials.insert block part } :=
  ⟨rfl, rfl, fun _ => .single (.attended ..)⟩

theorem upkeep_hearHeader (s : Scheduler) (peer : PeerAddress) (header : BlockHeader)
    (size : UInt64) (now : Timestamp) : Upkeep s (s.hearHeader peer header size now) := by
  have heard := upkeep_touch s header.hash now
  unfold hearHeader
  extract_lets touched
  split
  · exact heard.trans (upkeep_succeed touched peer header size now)
  · exact heard.trans (upkeep_insertPartial touched _ _)

theorem upkeep_hearChunk (s : Scheduler) (peer : PeerAddress) (block : BlockHash)
    (transactions : UInt64) (now : Timestamp) :
    Upkeep s (s.hearChunk peer block transactions now) := by
  unfold hearChunk
  split
  · exact .refl s
  · have heard := upkeep_touch s block now
    extract_lets received touched
    split
    · exact (heard.trans (upkeep_erasePartial touched block)).trans (upkeep_succeed ..)
    · exact heard.trans (upkeep_insertPartial touched _ _)

theorem upkeep_hearLiteBlock (s : Scheduler) (peer : PeerAddress) (header : BlockHeader)
    (size : UInt64) (now : Timestamp) : Upkeep s (s.hearLiteBlock peer header size now) := by
  unfold hearLiteBlock
  split
  · exact upkeep_succeed s peer header size now
  · extract_lets head body
    have told : Upkeep s body := .of_dossier_eq rfl rfl fun _ => rfl
    exact told.trans (upkeep_succeed body peer header size now)

/-! ## Ticks -/

theorem upkeep_assign (s : Scheduler) (peer : PeerAddress) (block : BlockHash) (now : Timestamp) :
    Upkeep s (s.assign peer block now) :=
  .of_revises (revises_assign s block now peer) rfl rfl fun _ =>
    (Dossier.Amendments.single (.begun now)).trans (.noted ..)

theorem upkeep_setRestricted (s : Scheduler) (bandwidthRestricted : Bool) :
    Upkeep s { s with bandwidthRestricted } :=
  .of_dossier_eq rfl rfl fun _ => rfl

theorem upkeep_offerBlock (round : Round) (peer : PeerAddress) (now : Timestamp) :
    Upkeep round.scheduler (offerBlock round peer now).scheduler := by
  have offered := offer_offerBlock round peer now
  generalize (offerBlock round peer now).scheduler = offer at offered ⊢
  cases offered with
  | unasked flag => exact upkeep_setRestricted _ flag
  | refused flag => exact .of_dossier_eq rfl rfl fun _ => rfl
  | @assigned block _ flag =>
    let taken : Scheduler :=
      { round.scheduler with
        bandwidthRestricted := flag, backlog := round.scheduler.backlog.remove block }
    have removed : Upkeep round.scheduler taken := .of_dossier_eq rfl rfl fun _ => rfl
    exact removed.trans (upkeep_assign taken peer block now)

theorem upkeep_observe (s : Scheduler) (peer : PeerAddress) (record : Peer) (block : BlockHash)
    (now : Timestamp) : Upkeep s (s.observe peer record block now).2 := by
  unfold observe
  split
  · exact .refl s
  · dsimp only
    split
    · exact ⟨rfl, rfl, fun _ => .single (.attended ..)⟩
    · exact .of_dossier_eq rfl rfl fun _ => rfl

theorem upkeep_watch (s : Scheduler) (peer : PeerAddress) (record : Peer) (transfer : Transfer)
    (now : Timestamp) : Upkeep s (s.watch peer record transfer now) := by
  have observed := upkeep_observe s peer record transfer.block now
  unfold watch
  split
  · exact .refl s
  · dsimp only
    split
    · exact observed.trans (upkeep_moveToLimbo _ peer transfer.block _ now)
    · exact observed

theorem upkeep_turn (now : Timestamp) (round : Round) (peer : PeerAddress) :
    Upkeep round.scheduler (turn now round peer).scheduler := by
  have taken := turnTaken_turn now round peer
  generalize turn now round peer = next at taken ⊢
  cases taken with
  | offered => exact upkeep_offerBlock round peer now
  | watched => exact upkeep_watch ..
  | passed => exact .refl _

theorem upkeep_turns (s : Scheduler) (now : Timestamp) : Upkeep s (s.turns now) := by
  have all : ∀ (peers : List PeerAddress) (round : Round), Upkeep round.scheduler
      (peers.foldl (turn now) round).scheduler := by
    intro peers
    induction peers with
    | nil => exact fun _ => .refl _
    | cons peer rest ih => exact fun round => (upkeep_turn now round peer).trans (ih _)
  obtain ⟨flag, same⟩ := checkBandwidth_eq s
  have checked : Upkeep s s.checkBandwidth := same ▸ upkeep_setRestricted s flag
  exact checked.trans (all s.fastestFirst ⟨s.checkBandwidth, s.pool⟩)

theorem upkeep_reconcile (now : Timestamp) (s : Scheduler) (block : BlockHash) :
    Upkeep s (reconcile now s block) := by
  unfold reconcile
  split
  · exact ⟨rfl, rfl, fun _ => .single (.attended ..)⟩
  · split
    · exact upkeep_cancelNow s block now
    · split
      · exact upkeep_fail s block now
      · exact .refl s

theorem upkeep_reviveDiscarded (s : Scheduler) (now : Timestamp) :
    Upkeep s (s.reviveDiscarded now) := by
  obtain ⟨discarded, journal, shape, found⟩ := reviveDiscarded_eq s now
  rw [shape]
  have noted : Upkeep s { s with journal } := ⟨rfl, rfl, fun _ => .single (.attended ..)⟩
  refine noted.trans ⟨rfl, rfl, fun block => ?_⟩
  by_cases due : block ∈ s.expired now
  · have gone : discarded[block]? = none := by rw [found, if_pos due]
    have revised :
        { s with discarded, journal, backlog := s.backlog.prepend (s.expired now) }.dossier block =
          { { s with journal }.dossier block with discardedAt? := none } := by
      ext1 <;> first | rfl | exact gone
    rw [revised]
    exact .single .revived
  · have kept : discarded[block]? = s.discarded[block]? := by rw [found, if_neg due]
    have same : { s with discarded, journal, backlog := s.backlog.prepend (s.expired now) }.dossier
        block = { s with journal }.dossier block := by
      ext1 <;> first | rfl | exact kept
    rw [same]
    exact .refl _

theorem upkeep_tick (s : Scheduler) (now : Timestamp) : Upkeep s (s.tick now) := by
  have counted : Upkeep s { s with ticks := s.ticks + 1 } := .of_dossier_eq rfl rfl fun _ => rfl
  have resolved : ∀ t : Scheduler, Upkeep t (t.reconcileLimbo now) :=
    fun t => Upkeep.foldl (upkeep_reconcile now) t.limbo.toList t
  have gauged : ∀ t : Scheduler, Upkeep t t.gaugeBusy := by
    intro t
    have same : ∀ busyPercentage, Upkeep t { t with busyPercentage } :=
      fun _ => .of_dossier_eq rfl rfl fun _ => rfl
    exact same _
  have purged : ∀ t : Scheduler, Upkeep t (t.purgeJournal now) := by
    intro t
    unfold purgeJournal
    split
    · exact ⟨rfl, rfl, fun _ => .single (.attended ..)⟩
    · exact .refl t
  have turned := counted.trans (upkeep_turns _ now)
  exact (((turned.trans (resolved _)).trans (upkeep_reviveDiscarded _ now)).trans (gauged _)).trans
    (purged _)

/-! ## All operations -/

theorem upkeep_cancelBlock (now : Timestamp) (s : Scheduler) (block : BlockHash) :
    Upkeep s (cancelBlock now s block) := by
  unfold cancelBlock
  split
  · exact .refl s
  · split
    · have wished : Upkeep s { s with cancelling := s.cancelling.insert block } :=
        .of_revises (revises_insertCancelling s block) rfl rfl fun _ => .single (.attended ..)
      exact wished.trans (upkeep_note _ block none .cancelAsked now)
    · exact upkeep_markCancelled s block now

end Scheduler

def NetworkEvent.peersSuffice? : NetworkEvent → Option Bool
  | .enoughPeers _ => some true
  | .tooFewPeers _ => some false
  | _ => none

namespace Operation

def peersSuffice? : Operation → Option Bool
  | .hear event => event.peersSuffice?
  | _ => none

def pauses? : Operation → Option Bool
  | .pause => some true
  | .resume => some false
  | _ => none

end Operation

namespace Scheduler

theorem upkeep_hear (s : Scheduler) {event : NetworkEvent} (now : Timestamp)
    (silent : event.peersSuffice? = none) : Upkeep s (s.hear event now) := by
  cases event with
  | sessionStopped => exact upkeep_endSession s now
  | enoughPeers => exact nomatch silent
  | tooFewPeers => exact nomatch silent
  | peerConnected peer => exact upkeep_hearConnected s peer
  | peerHandshaked peer => exact upkeep_hearHandshaked s peer
  | peerDisconnected peer => exact upkeep_hearDisconnected s peer now
  | blocksAnnounced peer blocks => exact upkeep_hearAnnounced s peer blocks
  | blocksNotFound peer blocks => exact upkeep_hearNotFound s peer blocks now
  | headerDelivered peer header size origin =>
    cases origin with
    | wire => exact upkeep_hearHeader s peer header size now
    | scheduler => exact .refl s
  | chunkDelivered peer block transactions origin =>
    cases origin with
    | wire => exact upkeep_hearChunk s peer block transactions now
    | scheduler => exact .refl s
  | liteBlockDelivered peer header size => exact upkeep_hearLiteBlock s peer header size now
  | rawBlockDelivered peer header size => exact upkeep_succeed s peer header size now
  | _ => exact .refl s

/-- Only clients that ask for blocks do more to a dossier than to amend it. -/
theorem amendments_apply (s : Scheduler) (now : Timestamp) {operation : Operation}
    (own : ∀ request, operation ≠ .download request) (block : BlockHash) :
    Dossier.Amendments (s.dossier block) ((s.apply now operation).dossier block) := by
  cases operation with
  | download request => exact absurd rfl (own request)
  | cancel blocks => exact (Upkeep.foldl (upkeep_cancelBlock now) blocks s).dossier block
  | hear event =>
    cases said : event.peersSuffice? with
    | none => exact (upkeep_hear s now said).dossier block
    | some suffice => cases event <;> first | exact .refl _ | exact nomatch said
  | tick => exact (upkeep_tick s now).dossier block
  | _ => exact .refl _

theorem clientPaused_apply (s : Scheduler) (now : Timestamp) (operation : Operation) :
    (s.apply now operation).clientPaused = operation.pauses?.getD s.clientPaused := by
  cases operation with
  | download request =>
    obtain ⟨backlog, journal, shape, _⟩ := download_eq s request now
    rw [apply, shape]
    rfl
  | cancel blocks => exact (Upkeep.foldl (upkeep_cancelBlock now) blocks s).clientPaused
  | hear event =>
    cases said : event.peersSuffice? with
    | none => exact (upkeep_hear s now said).clientPaused
    | some suffice => cases event <;> first | rfl | exact nomatch said
  | tick => exact (upkeep_tick s now).clientPaused
  | _ => rfl

theorem enoughPeers_apply (s : Scheduler) (now : Timestamp) (operation : Operation) :
    (s.apply now operation).enoughPeers = operation.peersSuffice?.getD s.enoughPeers := by
  cases operation with
  | download request =>
    obtain ⟨backlog, journal, shape, _⟩ := download_eq s request now
    rw [apply, shape]
    rfl
  | cancel blocks => exact (Upkeep.foldl (upkeep_cancelBlock now) blocks s).enoughPeers
  | hear event =>
    cases said : event.peersSuffice? with
    | none =>
      rw [Operation.peersSuffice?, said, Option.getD_none]
      exact (upkeep_hear s now said).enoughPeers
    | some suffice => cases event <;> first | rfl | exact nomatch said
  | tick => exact (upkeep_tick s now).enoughPeers
  | _ => rfl

end Scheduler
end BlockFetch
