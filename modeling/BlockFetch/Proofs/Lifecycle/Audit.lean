import BlockFetch.Proofs.Delivery.Assembly
import BlockFetch.Proofs.Journal.Retention
import BlockFetch.Proofs.Scan.Rounds

/-!
# The journal as an audit

The requests, downloads and discards of a block are entered in its journal and published as events,
by separate statements. While the journal is on and nothing is dropped from it, the two agree: the
journal of a block has one line for each of these events, in the order of the events, with the peer
of the event and the time at which it was published.

Both are followed through every step. A request is entered with the number of its attempt; during
the turns of a tick this number is one more than before the tick, because a block that still waits
was not requested yet.
-/
namespace BlockFetch

/-- What a client reads in an entry of the journal. -/
structure JournalLine where
  time : Timestamp
  peer? : Option PeerAddress
  text : String
  deriving DecidableEq

def JournalEntry.line (entry : JournalEntry) : JournalLine :=
  ⟨entry.time, entry.peer?, entry.note.text⟩

namespace JournalLine

def opensWith (start text : String) : Bool :=
  start.toList.isPrefixOf text.toList

def isOutcomeText (text : String) : Bool :=
  opensWith "requested, attempt " text || text = "downloaded" || opensWith "discarded: " text

def isOutcome (line : JournalLine) : Bool :=
  isOutcomeText line.text

theorem opensWith_append (start rest : String) : opensWith start (start ++ rest) = true := by
  rw [opensWith, List.isPrefixOf_iff_prefix, String.toList_append]
  exact List.prefix_append ..

@[simp] theorem isOutcomeText_requested (attempt : Nat) :
    isOutcomeText (Note.requested attempt).text = true := by
  have text : (Note.requested attempt).text = "requested, attempt " ++ toString attempt := rfl
  rw [text, isOutcomeText, opensWith_append, Bool.true_or, Bool.true_or]

@[simp] theorem isOutcomeText_discarded (attempts : Nat) :
    isOutcomeText (Note.discarded attempts).text = true := by
  have text : (Note.discarded attempts).text = "discarded: " ++ discardReason attempts := rfl
  rw [text, isOutcomeText, opensWith_append, Bool.or_true]

@[simp] theorem isOutcomeText_stalled (stall : Stall) :
    isOutcomeText (Note.stalled stall).text = false := by
  cases stall <;> decide

end JournalLine

/-- The line that belongs to an event about a block, for a request with the number of its attempt. -/
def NetworkEvent.line? (block : BlockHash) (now : Timestamp) (attempt : Nat) :
    NetworkEvent → Option JournalLine
  | .blockRequested peer requested =>
    if requested = block then some ⟨now, some peer, "requested, attempt " ++ toString attempt⟩
    else none
  | .blockDownloaded peer header _ _ =>
    if header.hash = block then some ⟨now, some peer, "downloaded"⟩ else none
  | .blockDiscarded discarded reason =>
    if discarded = block then some ⟨now, none, "discarded: " ++ reason⟩ else none
  | _ => none

/-- The state of a tick before the journal is purged. -/
def Scheduler.worked (s : Scheduler) (now : Timestamp) : Scheduler :=
  ((({ s with ticks := s.ticks + 1 }.turns now).reconcileLimbo now).reviveDiscarded now).gaugeBusy

theorem Scheduler.tick_eq_purgeJournal (s : Scheduler) (now : Timestamp) :
    s.tick now = (s.worked now).purgeJournal now := rfl

namespace Step

def lines (step : Step) (block : BlockHash) : List JournalLine :=
  step.events.filterMap
    (NetworkEvent.line? block step.now (step.after.backlog.attemptsOn block))

def purged (step : Step) : Nat :=
  match step.operation with
  | .tick =>
    let s := step.before.worked step.now
    if s.ticks % s.settings.journal.purgeEvery = 0 then s.journal.purgeCount step.now else 0
  | _ => 0

end Step

namespace Scheduler

def outcomeLines (s : Scheduler) (block : BlockHash) : List JournalLine :=
  ((s.journal.entriesOf block).map JournalEntry.line).filter JournalLine.isOutcome

/-- Whether what is entered in the journal is not dropped on success. -/
def keepsLines (s : Scheduler) : Bool :=
  s.journal.enabled && !s.settings.journal.clearOnSuccess

/-- A step writes some lines on a block in the journal, and the events that it publishes tell of
some, where requests are taken for the given attempt. -/
structure Logs (block : BlockHash) (now : Timestamp) (attempt : Nat)
    (written told : List JournalLine) (s t : Scheduler) : Prop where
  settings : t.settings = s.settings
  recording : t.journal.enabled = s.journal.enabled
  written : s.keepsLines = true → t.outcomeLines block = s.outcomeLines block ++ written
  told : ∃ said, t.events = s.events ++ said ∧
    said.filterMap (NetworkEvent.line? block now attempt) = told

def Audited (block : BlockHash) (now : Timestamp) (attempt : Nat) (s t : Scheduler) : Prop :=
  ∃ lines, Logs block now attempt lines lines s t

section

variable {block : BlockHash} {now : Timestamp} {attempt : Nat} {s t u : Scheduler}
  {written told : List JournalLine}

namespace Logs

theorem trans {more tale : List JournalLine} (first : Logs block now attempt written told s t)
    (second : Logs block now attempt more tale t u) :
    Logs block now attempt (written ++ more) (told ++ tale) s u where
  settings := second.settings.trans first.settings
  recording := second.recording.trans first.recording
  written keeps := by
    have kept : t.keepsLines = true := by
      rw [keepsLines, first.settings, first.recording]
      exact keeps
    rw [second.written kept, first.written keeps, List.append_assoc]
  told := by
    obtain ⟨said, events, rfl⟩ := first.told
    obtain ⟨later, eventsLater, rfl⟩ := second.told
    refine ⟨said ++ later, ?_, List.filterMap_append⟩
    rw [eventsLater, events, List.append_assoc]

theorem untold (outbox : t.outbox = s.outbox) : ∃ said, t.events = s.events ++ said ∧
    said.filterMap (NetworkEvent.line? block now attempt) = [] := by
  refine ⟨[], ?_, rfl⟩
  rw [events, outbox, List.append_nil]
  rfl

theorem silent (settings : t.settings = s.settings) (journal : t.journal = s.journal)
    (outbox : t.outbox = s.outbox) : Logs block now attempt [] [] s t where
  settings := settings
  recording := by rw [journal]
  written _ := by rw [outcomeLines, journal, List.append_nil]; rfl
  told := untold outbox

theorem refl (s : Scheduler) : Logs block now attempt [] [] s s := silent rfl rfl rfl

theorem andThen (first : Logs block now attempt [] [] s t)
    (second : Logs block now attempt written told t u) : Logs block now attempt written told s u :=
  first.trans second

theorem foldl {α : Type} {step : Scheduler → α → Scheduler}
    (h : ∀ s item, Logs block now attempt [] [] s (step s item)) (items : List α) (s : Scheduler) :
    Logs block now attempt [] [] s (items.foldl step s) := by
  induction items generalizing s with
  | nil => exact .refl s
  | cons item rest ih => exact (h s item).andThen (ih _)

theorem audited (h : Logs block now attempt written written s t) : Audited block now attempt s t :=
  ⟨written, h⟩

end Logs

namespace Audited

theorem refl (s : Scheduler) : Audited block now attempt s s := (Logs.refl s).audited

theorem trans (first : Audited block now attempt s t) (second : Audited block now attempt t u) :
    Audited block now attempt s u := by
  obtain ⟨lines, first⟩ := first
  obtain ⟨more, second⟩ := second
  exact ⟨lines ++ more, first.trans second⟩

theorem foldl {α : Type} {step : Scheduler → α → Scheduler}
    (h : ∀ s item, Audited block now attempt s (step s item)) (items : List α) (s : Scheduler) :
    Audited block now attempt s (items.foldl step s) := by
  induction items generalizing s with
  | nil => exact .refl s
  | cons item rest ih => exact (h s item).trans (ih _)

end Audited

/-! ## Entries and events -/

theorem logs_note (s : Scheduler) (noted : BlockHash) (peer? : Option PeerAddress) (note : Note) :
    Logs block now attempt
      (if noted = block then [JournalLine.mk now peer? note.text].filter JournalLine.isOutcome
        else []) [] s (s.note noted peer? note now) where
  settings := rfl
  recording := by
    change (s.journal.register noted peer? note now).enabled = _
    rw [Journal.register]
    split <;> rfl
  written keeps := by
    have enabled : s.journal.enabled = true := (Bool.and_eq_true_iff.mp keeps).1
    change (((s.journal.register noted peer? note now).entriesOf block).map _).filter _ = _
    split
    · rename_i same
      rw [same, Journal.entriesOf_register_self s.journal enabled, List.map_append,
        List.filter_append]
      rfl
    · rename_i different
      rw [Journal.entriesOf_register_of_ne s.journal (Ne.symm different), List.append_nil]
      rfl
  told := Logs.untold rfl

theorem logs_note_outcome (s : Scheduler) (noted : BlockHash) (peer? : Option PeerAddress)
    {note : Note} (outcome : JournalLine.isOutcomeText note.text = true) :
    Logs block now attempt (if noted = block then [⟨now, peer?, note.text⟩] else []) [] s
      (s.note noted peer? note now) := by
  have line : [JournalLine.mk now peer? note.text].filter JournalLine.isOutcome =
      [⟨now, peer?, note.text⟩] := List.filter_cons_of_pos outcome
  have logged := @logs_note block now attempt s noted peer? note
  rw [line] at logged
  exact logged

theorem logs_note_aside (s : Scheduler) (noted : BlockHash) (peer? : Option PeerAddress)
    {note : Note} (aside : JournalLine.isOutcomeText note.text = false) :
    Logs block now attempt [] [] s (s.note noted peer? note now) := by
  have silent : [JournalLine.mk now peer? note.text].filter JournalLine.isOutcome = [] :=
    List.filter_cons_of_neg (by rw [JournalLine.isOutcome, aside]; exact nofun)
  have logged := @logs_note block now attempt s noted peer? note
  rw [silent, ite_self] at logged
  exact logged

theorem logs_publish (s : Scheduler) (event : NetworkEvent) :
    Logs block now attempt [] (event.line? block now attempt).toList s (s.publish event) where
  settings := rfl
  recording := rfl
  written _ := (List.append_nil _).symm
  told := by
    refine ⟨[event], ?_, ?_⟩
    · simp [events, publish, Effect.event?]
    · rw [List.filterMap_cons]
      cases event.line? block now attempt <;> rfl

theorem logs_publish_aside (s : Scheduler) {event : NetworkEvent}
    (aside : event.line? block now attempt = none) :
    Logs block now attempt [] [] s (s.publish event) := by
  have logged := @logs_publish block now attempt s event
  rw [aside] at logged
  exact logged

theorem logs_setPartials (s : Scheduler) (partials : BlockMap PartialBlock) :
    Logs block now attempt [] [] s { s with partials } :=
  .silent rfl rfl rfl

theorem logs_endAttempt (s : Scheduler) (ended : BlockHash) :
    Logs block now attempt [] [] s (s.endAttempt ended) :=
  .silent rfl rfl rfl

theorem logs_markDownloaded (s : Scheduler) (arrived : BlockHash) :
    Logs block now attempt [] [] s (s.markDownloaded arrived) :=
  .silent rfl rfl rfl

theorem logs_gaugeBusy (s : Scheduler) : Logs block now attempt [] [] s s.gaugeBusy :=
  .silent rfl rfl rfl

theorem logs_resetBuffer (s : Scheduler) (peer : PeerAddress) :
    Logs block now attempt [] [] s (s.resetBuffer peer) where
  settings := rfl
  recording := rfl
  written _ := (List.append_nil _).symm
  told := ⟨[], by simp [events, resetBuffer, Effect.event?], rfl⟩

theorem logs_growBuffer (s : Scheduler) (peer : PeerAddress) :
    Logs block now attempt [] [] s (s.growBuffer peer) where
  settings := rfl
  recording := rfl
  written _ := (List.append_nil _).symm
  told := ⟨[], by simp [events, growBuffer, Effect.event?], rfl⟩

/-! ## Ends of attempts -/

theorem logs_freeHolders (s : Scheduler) (freed : BlockHash) :
    Logs block now attempt [] [] s (s.freeHolders freed) := by
  refine .foldl (fun s peer => ?_) (s.holders freed) s
  have released : Logs block now attempt [] [] s (s.modifyPeer peer Peer.release) :=
    .silent rfl rfl rfl
  exact (released.andThen (logs_publish_aside _ rfl)).andThen (logs_resetBuffer _ peer)

theorem logs_failHolders (s : Scheduler) (failed : BlockHash) :
    Logs block now attempt [] [] s (s.failHolders failed now) := by
  refine .foldl (fun s peer => ?_) (s.holders failed) s
  have noted : Logs block now attempt [] [] s
      ((s.modifyPeer peer Peer.fail).noteFailure failed peer now) := .silent rfl rfl rfl
  exact (noted.andThen (logs_publish_aside _ rfl)).andThen (logs_resetBuffer _ peer)

theorem logs_markCancelled (s : Scheduler) (cancelled : BlockHash) :
    Logs block now attempt [] [] s (s.markCancelled cancelled now) := by
  let marked : Scheduler := { s with
    backlog := s.backlog.forget cancelled
    discarded := s.discarded.erase cancelled
    cancelled := s.cancelled.insert cancelled }
  have moved : Logs block now attempt [] [] s marked := .silent rfl rfl rfl
  exact moved.andThen (logs_note_aside marked cancelled none (by decide))

theorem logs_settleCancel (s : Scheduler) (cancelled : BlockHash) :
    Logs block now attempt [] [] s
      ({ s with cancelling := s.cancelling.erase cancelled }.markCancelled cancelled now) := by
  have settled : Logs block now attempt [] [] s
      { s with cancelling := s.cancelling.erase cancelled } := .silent rfl rfl rfl
  exact settled.andThen (logs_markCancelled _ cancelled)

theorem audited_discardBlock (s : Scheduler) (discarded : BlockHash) :
    Audited block now attempt s (s.discardBlock discarded now) := by
  let aside : Scheduler := { s with
    backlog := s.backlog.setAside discarded
    discarded := s.discarded.insert discarded now }
  let attempts := s.backlog.attemptsOn discarded
  have moved : Logs block now attempt [] [] s aside := .silent rfl rfl rfl
  have noted := @logs_note_outcome block now attempt aside discarded none _
    (JournalLine.isOutcomeText_discarded attempts)
  have told := @logs_publish block now attempt (aside.note discarded none (.discarded attempts) now)
    (.blockDiscarded discarded (discardReason attempts))
  have logged := (moved.andThen noted).trans told
  have same : (if discarded = block then [JournalLine.mk now none (Note.discarded attempts).text]
      else []) = ((NetworkEvent.blockDiscarded discarded (discardReason attempts)).line? block now
        attempt).toList := by
    rw [NetworkEvent.line?]
    split <;> rfl
  rw [same, List.append_nil, List.nil_append] at logged
  exact logged.audited

theorem audited_fail (s : Scheduler) (failed : BlockHash) :
    Audited block now attempt s (s.fail failed now) := by
  have ended : Logs block now attempt [] [] s ((s.failHolders failed now).endAttempt failed) :=
    (logs_failHolders s failed).andThen (logs_endAttempt _ failed)
  refine ended.audited.trans ?_
  unfold fail
  extract_lets aborted
  split
  · exact (logs_settleCancel aborted failed).audited
  · split
    · let queued : Scheduler := { aborted with
        backlog := aborted.backlog.prepend [failed]
        retries := aborted.retries + 1 }
      have moved : Logs block now attempt [] [] aborted queued := .silent rfl rfl rfl
      exact (moved.andThen (logs_note_aside queued failed none (by decide))).audited
    · exact audited_discardBlock aborted failed

theorem logs_noteDownload (s : Scheduler) (arrived : BlockHash) (peer : PeerAddress) :
    Logs block now attempt
      (if arrived = block then [JournalLine.mk now (some peer) Note.downloaded.text] else []) []
      s (s.noteDownload arrived peer now) := by
  by_cases clears : s.settings.journal.clearOnSuccess = true
  · rw [noteDownload, if_pos clears]
    constructor
    · rfl
    · rfl
    · intro keeps
      rw [keepsLines, clears, Bool.not_true, Bool.and_false] at keeps
      contradiction
    · exact Logs.untold rfl
  · rw [noteDownload, if_neg clears]
    exact logs_note_outcome s arrived (some peer) (by decide)

/-- A download is published before the peers are freed, and entered after that. -/
theorem audited_succeed (s : Scheduler) (peer : PeerAddress) (header : BlockHeader)
    (size : UInt64) : Audited block now attempt s (s.succeed peer header size now) := by
  unfold succeed
  extract_lets arrived freed transfer? duration announced delivered
  split
  · have dropped : Logs block now attempt [] [] freed
        { freed with partials := freed.partials.erase arrived } := .silent rfl rfl rfl
    exact ((logs_freeHolders s arrived).andThen dropped).audited
  · have told : Logs block now attempt [] _ s announced :=
      logs_publish s (.blockDownloaded peer header size duration)
    have measured : Logs block now attempt [] [] announced
        (announced.recordSpeed peer transfer? size now) := by
      cases transfer? <;> exact .silent rfl rfl rfl
    have released : Logs block now attempt [] [] announced delivered :=
      measured.andThen (logs_freeHolders _ arrived)
    have noted := @logs_noteDownload block now attempt (delivered.markDownloaded arrived) arrived
      peer
    have same : (if arrived = block then [JournalLine.mk now (some peer) Note.downloaded.text]
        else []) = ((NetworkEvent.blockDownloaded peer header size duration).line? block now
          attempt).toList := by
      rw [NetworkEvent.line?]
      split <;> rfl
    have logged := told.trans ((released.andThen (logs_markDownloaded _ arrived)).andThen noted)
    rw [same, List.append_nil, List.nil_append] at logged
    exact logged.audited

theorem logs_cancelNow (s : Scheduler) (cancelled : BlockHash) :
    Logs block now attempt [] [] s (s.cancelNow cancelled now) := by
  have ended : Logs block now attempt [] [] s ((s.freeHolders cancelled).endAttempt cancelled) :=
    (logs_freeHolders s cancelled).andThen (logs_endAttempt _ cancelled)
  exact ended.andThen (logs_settleCancel _ cancelled)

theorem logs_endSession (s : Scheduler) :
    Logs block now attempt [] [] s (s.endSession now) := by
  have abandoned : Logs block now attempt [] [] s (s.inFlight.foldl (abandon now) s) := by
    refine .foldl (fun s lost => ?_) s.inFlight s
    unfold abandon
    extract_lets silent
    have dropped : Logs block now attempt [] [] s silent := .silent rfl rfl rfl
    split
    · exact dropped.andThen (logs_settleCancel silent lost)
    · exact dropped
  exact abandoned.andThen (.silent rfl rfl rfl)

/-! ## Notices -/

theorem logs_moveToLimbo (s : Scheduler) (peer : PeerAddress) (lost : BlockHash) (stall : Stall) :
    Logs block now attempt [] [] s (s.moveToLimbo peer lost stall now) := by
  let adrift : Scheduler := { s with
    limbo := s.limbo.insert lost
    lastActivity := s.lastActivity.insert lost now }
  have moved : Logs block now attempt [] [] s (adrift.noteFailure lost peer now) :=
    .silent rfl rfl rfl
  exact moved.andThen (logs_note_aside _ lost (some peer) (JournalLine.isOutcomeText_stalled stall))

theorem logs_hearDisconnected (s : Scheduler) (peer : PeerAddress) :
    Logs block now attempt [] [] s (s.hearDisconnected peer now) := by
  unfold hearDisconnected
  split
  · exact .refl s
  · extract_lets detached
    have left : Logs block now attempt [] [] s detached := .silent rfl rfl rfl
    split
    · exact left
    · split
      · exact left.andThen (.silent rfl rfl rfl)
      · exact left.andThen (logs_moveToLimbo detached peer _ .disconnected)

theorem logs_hearConnected (s : Scheduler) (peer : PeerAddress) :
    Logs block now attempt [] [] s (s.hearConnected peer) := by
  unfold hearConnected
  split
  · exact .silent rfl rfl rfl
  · split
    · exact .silent rfl rfl rfl
    · exact .refl s

theorem audited_hearNotFound (s : Scheduler) (peer : PeerAddress) (blocks : List BlockHash) :
    Audited block now attempt s (s.hearNotFound peer blocks now) := by
  unfold hearNotFound
  split
  · rename_i missing
    split
    · have noted : Logs block now attempt [] [] s (s.note missing (some peer) .notFound now) :=
        logs_note_aside s missing (some peer) (by decide)
      exact noted.audited.trans (audited_fail _ missing)
    · exact .refl s
  · exact .refl s

theorem audited_hearHeader (s : Scheduler) (peer : PeerAddress) (header : BlockHeader)
    (size : UInt64) : Audited block now attempt s (s.hearHeader peer header size now) := by
  unfold hearHeader
  extract_lets touched
  have heard : Logs block now attempt [] [] s touched := .silent rfl rfl rfl
  split
  · exact heard.audited.trans (audited_succeed touched peer header size)
  · exact (heard.andThen (logs_setPartials touched _)).audited

theorem audited_hearChunk (s : Scheduler) (peer : PeerAddress) (arriving : BlockHash)
    (transactions : UInt64) :
    Audited block now attempt s (s.hearChunk peer arriving transactions now) := by
  unfold hearChunk
  split
  · exact .refl s
  · extract_lets received touched
    have heard : Logs block now attempt [] [] s touched := .silent rfl rfl rfl
    split
    · have complete : Logs block now attempt [] [] s
          { touched with partials := touched.partials.erase arriving } :=
        heard.andThen (logs_setPartials touched _)
      exact complete.audited.trans (audited_succeed _ peer _ _)
    · exact (heard.andThen (logs_setPartials touched _)).audited

theorem audited_hearLiteBlock (s : Scheduler) (peer : PeerAddress) (header : BlockHeader)
    (size : UInt64) : Audited block now attempt s (s.hearLiteBlock peer header size now) := by
  unfold hearLiteBlock
  split
  · exact audited_succeed s peer header size
  · extract_lets head body
    have split : Logs block now attempt [] [] s body :=
      (logs_publish_aside s rfl).andThen (logs_publish_aside head rfl)
    exact split.audited.trans (audited_succeed body peer header size)

theorem audited_hear (s : Scheduler) (event : NetworkEvent) :
    Audited block now attempt s (s.hear event now) := by
  cases event with
  | sessionStopped => exact (logs_endSession s).audited
  | enoughPeers count =>
    have heard : Logs block now attempt [] [] s { s with enoughPeers := true } := .silent rfl rfl rfl
    exact heard.audited
  | tooFewPeers count =>
    have heard : Logs block now attempt [] [] s { s with enoughPeers := false } :=
      .silent rfl rfl rfl
    exact heard.audited
  | peerConnected peer => exact (logs_hearConnected s peer).audited
  | peerHandshaked peer =>
    have heard : Logs block now attempt [] [] s (s.hearHandshaked peer) := .silent rfl rfl rfl
    exact heard.audited
  | peerDisconnected peer reason => exact (logs_hearDisconnected s peer).audited
  | blocksAnnounced peer blocks =>
    have heard : Logs block now attempt [] [] s (s.hearAnnounced peer blocks) := .silent rfl rfl rfl
    exact heard.audited
  | blocksNotFound peer blocks => exact audited_hearNotFound s peer blocks
  | headerDelivered peer header size origin =>
    cases origin with
    | wire => exact audited_hearHeader s peer header size
    | scheduler => exact .refl s
  | chunkDelivered peer arriving transactions origin =>
    cases origin with
    | wire => exact audited_hearChunk s peer arriving transactions
    | scheduler => exact .refl s
  | liteBlockDelivered peer header size => exact audited_hearLiteBlock s peer header size
  | rawBlockDelivered peer header size => exact audited_succeed s peer header size
  | _ => exact .refl s

/-! ## What clients ask for -/

theorem logs_download (s : Scheduler) (request : FetchRequest) :
    Logs block now attempt [] [] s (s.download request now) := by
  unfold download
  extract_lets blocks added reopened noted reserved preferred
  have opened : Logs block now attempt [] [] s reopened := .silent rfl rfl rfl
  have queued : Logs block now attempt [] [] reopened noted :=
    .foldl (fun s fresh => logs_note_aside s fresh none (by decide)) added reopened
  exact (opened.andThen queued).andThen (.silent rfl rfl rfl)

theorem logs_cancelBlock (s : Scheduler) (cancelled : BlockHash) :
    Logs block now attempt [] [] s (cancelBlock now s cancelled) := by
  unfold cancelBlock
  split
  · exact .refl s
  · split
    · have asked : Logs block now attempt [] [] s
          { s with cancelling := s.cancelling.insert cancelled } := .silent rfl rfl rfl
      exact asked.andThen (logs_note_aside _ cancelled none (by decide))
    · exact logs_markCancelled s cancelled

/-! ## Ticks -/

/-- A request is entered with the number of the attempt that it begins. -/
theorem audited_assign (s : Scheduler) (peer : PeerAddress) (given : BlockHash)
    (counted : given = block → s.backlog.attemptsOn block + 1 = attempt) :
    Audited block now attempt s (s.assign peer given now) := by
  unfold assign
  extract_lets begun number started watched asked grown
  have ready : Logs block now attempt [] [] s watched := .silent rfl rfl rfl
  have told := @logs_publish block now attempt watched (.blockRequested peer given)
  have grows : Logs block now attempt [] [] asked grown :=
    (logs_publish_aside asked rfl).andThen (logs_growBuffer _ peer)
  have noted := @logs_note_outcome block now attempt grown given (some peer) _
    (JournalLine.isOutcomeText_requested number)
  have logged := ready.andThen (told.trans (grows.andThen noted))
  have same : (if given = block then
      [JournalLine.mk now (some peer) (Note.requested number).text] else []) =
        ((NetworkEvent.blockRequested peer given).line? block now attempt).toList := by
    rw [NetworkEvent.line?]
    split
    · rename_i here
      have first : number = attempt := by
        rw [← counted here, ← here]
        exact Backlog.attemptsOn_beginAttempt_self s.backlog given
      rw [first]
      rfl
    · rfl
  rw [same, List.append_nil, List.nil_append] at logged
  exact logged.audited

theorem logs_watch (s : Scheduler) (peer : PeerAddress) (record : Peer) (transfer : Transfer) :
    Logs block now attempt [] [] s (s.watch peer record transfer now) := by
  have observed : Logs block now attempt [] [] s (s.observe peer record transfer.block now).2 := by
    unfold observe
    split
    · exact .refl s
    · dsimp only
      split <;> exact .silent rfl rfl rfl
  unfold watch
  split
  · exact .refl s
  · dsimp only
    split
    · exact observed.andThen (logs_moveToLimbo _ peer transfer.block _)
    · exact observed

theorem audited_turn (round : Round) (peer : PeerAddress)
    (counted : block ∈ round.scheduler.backlog.queue →
      round.scheduler.backlog.attemptsOn block + 1 = attempt) :
    Audited block now attempt round.scheduler (turn now round peer).scheduler := by
  have taken := turnTaken_turn now round peer
  generalize turn now round peer = next at taken ⊢
  cases taken with
  | offered =>
    have offered := offer_offerBlock round peer now
    generalize (offerBlock round peer now).scheduler = offer at offered ⊢
    cases offered with
    | unasked flag =>
      have flagged : Logs block now attempt [] [] round.scheduler
          { round.scheduler with bandwidthRestricted := flag } := .silent rfl rfl rfl
      exact flagged.audited
    | refused flag refusals =>
      have told : Logs block now attempt [] [] round.scheduler
          ({ round.scheduler with bandwidthRestricted := flag }.noteRefusals peer refusals) :=
        .silent rfl rfl rfl
      exact told.audited
    | @assigned given _ flag _ waits =>
      let taken : Scheduler := { round.scheduler with
        bandwidthRestricted := flag, backlog := round.scheduler.backlog.remove given }
      have removed : Logs block now attempt [] [] round.scheduler taken := .silent rfl rfl rfl
      exact removed.audited.trans
        (audited_assign taken peer given fun same => counted (same ▸ waits))
  | watched => exact (logs_watch round.scheduler peer _ _).audited
  | passed => exact .refl _

/-- A block that goes on waiting in a turn keeps the number of its attempts. -/
theorem attemptsOn_of_turn {peers : List PeerAddress} (staged : s.Staged)
    (passes : Passes (Turn peers) s t) (waits : block ∈ t.backlog.queue) :
    block ∈ s.backlog.queue ∧ t.backlog.attemptsOn block = s.backlog.attemptsOn block := by
  obtain ⟨before, inBefore⟩ := staged.stage block
  obtain ⟨milestones, passage⟩ := passes
  obtain ⟨after, inAfter, _, turned⟩ := passage.course block before inBefore
  have same : after = before := by
    rw [inAfter.mem_queue] at waits
    generalize milestones block = said at turned
    cases turned with
    | still => rfl
    | _ => exact nomatch waits
  rw [same] at inAfter
  refine ⟨?_, ?_⟩
  · rwa [inBefore.mem_queue, ← inAfter.mem_queue]
  · rw [attemptsOn_eq, attemptsOn_eq, inBefore, inAfter]

theorem Staged.audited_turns (staged : s.Staged)
    (counted : s.backlog.attemptsOn block + 1 = attempt) :
    Audited block now attempt s (s.turns now) := by
  have all : ∀ (peers : List PeerAddress) (round : Round), round.scheduler.Staged →
      (block ∈ round.scheduler.backlog.queue →
        round.scheduler.backlog.attemptsOn block + 1 = attempt) →
      Audited block now attempt round.scheduler (peers.foldl (turn now) round).scheduler := by
    intro peers
    induction peers with
    | nil => exact fun round _ _ => .refl round.scheduler
    | cons peer rest ih =>
      intro round staged counted
      have passed := passes_turn staged now peer
      refine (audited_turn round peer counted).trans (ih _ (passed.staged staged) fun waits => ?_)
      obtain ⟨waited, same⟩ := attemptsOn_of_turn staged passed waits
      rw [same]
      exact counted waited
  obtain ⟨flag, same⟩ := checkBandwidth_eq s
  have checked : Logs block now attempt [] [] s s.checkBandwidth := by
    rw [same]
    exact .silent rfl rfl rfl
  refine checked.audited.trans (all s.fastestFirst ⟨s.checkBandwidth, s.pool⟩
    ((quiet_checkBandwidth s).staged staged) fun _ => ?_)
  rw [same]
  exact counted

theorem audited_reconcile (s : Scheduler) (lost : BlockHash) :
    Audited block now attempt s (reconcile now s lost) := by
  unfold reconcile
  split
  · have released : Logs block now attempt [] [] s
        { s with limbo := s.limbo.erase lost, lastActivity := s.lastActivity.erase lost } :=
      .silent rfl rfl rfl
    exact released.audited
  · split
    · exact (logs_cancelNow s lost).audited
    · split
      · exact audited_fail s lost
      · exact .refl s

theorem logs_reviveDiscarded (s : Scheduler) :
    Logs block now attempt [] [] s (s.reviveDiscarded now) := by
  unfold reviveDiscarded
  extract_lets blocks noted
  have revived : Logs block now attempt [] [] s noted := by
    refine .foldl (fun s due => ?_) blocks s
    have erased : Logs block now attempt [] [] s
        { s with discarded := s.discarded.erase due } := .silent rfl rfl rfl
    exact erased.andThen (logs_note_aside _ due none (by decide))
  exact revived.andThen (.silent rfl rfl rfl)

/-- A purge that removes nothing leaves the lines of every block as they are. -/
theorem logs_purgeJournal (s : Scheduler)
    (unpurged : s.ticks % s.settings.journal.purgeEvery = 0 → s.journal.purgeCount now = 0) :
    Logs block now attempt [] [] s (s.purgeJournal now) := by
  unfold purgeJournal
  split
  · rename_i due
    have same : ({ s with journal := s.journal.purge now } : Scheduler).outcomeLines block =
        s.outcomeLines block := by
      rw [outcomeLines, outcomeLines,
        Journal.entriesOf_purge_of_purgeCount_eq_zero (unpurged due) block]
    constructor
    · rfl
    · rfl
    · intro _
      rw [same, List.append_nil]
    · exact Logs.untold rfl
  · exact .refl s

theorem Staged.audited_tick (staged : s.Staged)
    (counted : s.backlog.attemptsOn block + 1 = attempt)
    (unpurged : Step.purged ⟨s, now, .tick⟩ = 0) : Audited block now attempt s (s.tick now) := by
  let started : Scheduler := { s with ticks := s.ticks + 1 }
  have begun : Logs block now attempt [] [] s started := .silent rfl rfl rfl
  have turned : Audited block now attempt started (started.turns now) :=
    ((quiet_setTicks s (s.ticks + 1)).staged staged).audited_turns counted
  have resolved : Audited block now attempt (started.turns now)
      ((started.turns now).reconcileLimbo now) :=
    .foldl audited_reconcile _ _
  have revived := @logs_reviveDiscarded block now attempt ((started.turns now).reconcileLimbo now)
  have purged : Logs block now attempt [] [] (s.worked now) ((s.worked now).purgeJournal now) :=
    logs_purgeJournal (s.worked now) fun due => (if_pos due).symm.trans unpurged
  rw [tick_eq_purgeJournal]
  exact ((begun.audited.trans turned).trans resolved).trans
    ((revived.andThen (logs_gaugeBusy _)).andThen purged).audited

/-! ## All operations -/

theorem Staged.audited_apply (staged : s.Staged) (operation : Operation)
    (counted : s.backlog.attemptsOn block + 1 = attempt)
    (unpurged : Step.purged ⟨s, now, operation⟩ = 0) :
    Audited block now attempt s (s.apply now operation) := by
  cases operation with
  | download request => exact (logs_download s request).audited
  | cancel blocks => exact (Logs.foldl logs_cancelBlock blocks s).audited
  | pause =>
    have paused : Logs block now attempt [] [] s s.pause := .silent rfl rfl rfl
    exact paused.audited
  | resume =>
    have resumed : Logs block now attempt [] [] s s.resume := .silent rfl rfl rfl
    exact resumed.audited
  | report =>
    have shown : Logs block now attempt [] [] s s.reported := .silent rfl rfl rfl
    exact shown.audited
  | hear event => exact audited_hear s event
  | tick => exact staged.audited_tick counted unpurged
  | transport streams =>
    have moved : Logs block now attempt [] [] s { s with streams } := .silent rfl rfl rfl
    exact moved.audited

end

end Scheduler

/-- A request raises the number of attempts by one, and this number stays until the operation is
over. -/
theorem Change.attempts?_of_requested {limit : Nat} {now : Timestamp} {operation : Operation}
    {block : BlockHash} {before after : Stage} {milestones : List Milestone} {peer : PeerAddress}
    (h : Change limit now operation block before milestones after)
    (passed : .requested peer ∈ milestones) :
    after.standing.attempts?.getD 0 = before.standing.attempts?.getD 0 + 1 := by
  cases h with
  | requested => rfl
  | demanded _ demand => cases demand <;> exact nomatch passed
  | cancelled cancellation => cases cancellation <;> exact nomatch passed
  | failed _ failure => cases failure <;> simp at passed
  | delivered delivery => cases delivery <;> simp at passed
  | discardedAndRevived => simp at passed
  | _ => exact nomatch passed

namespace Scheduler

variable {s : Scheduler}

theorem Staged.attemptsOn_of_requested (staged : s.Staged) {now : Timestamp}
    {operation : Operation} {peer : PeerAddress} {block : BlockHash}
    (asked : .blockRequested peer block ∈ Step.events ⟨s, now, operation⟩) :
    (s.apply now operation).backlog.attemptsOn block = s.backlog.attemptsOn block + 1 := by
  obtain ⟨before, inBefore⟩ := staged.stage block
  obtain ⟨milestones, after, inAfter, said, change⟩ := staged.change now operation inBefore
  have request : (peer, block) ∈ Step.requests ⟨s, now, operation⟩ :=
    List.mem_filterMap.mpr ⟨_, asked, rfl⟩
  rw [mem_requests, said] at request
  rw [attemptsOn_eq, attemptsOn_eq, inBefore, inAfter]
  exact change.attempts?_of_requested (List.mem_of_mem_filter request)

/-- A step that purges nothing writes one line for each of its events, with the number of attempts
that it leaves. -/
theorem Staged.outcomeLines_step (staged : s.Staged) {now : Timestamp} {operation : Operation}
    (keeps : s.keepsLines = true) (unpurged : Step.purged ⟨s, now, operation⟩ = 0)
    (block : BlockHash) :
    (s.apply now operation).keepsLines = true ∧
      (s.apply now operation).outcomeLines block =
        s.outcomeLines block ++ Step.lines ⟨s, now, operation⟩ block := by
  have audited : Audited block now _ s (s.apply now operation) :=
    staged.audited_apply operation rfl unpurged
  obtain ⟨_, logs⟩ := audited
  obtain ⟨said, whole, rfl⟩ := logs.told
  refine ⟨?_, ?_⟩
  · rw [keepsLines, logs.settings, logs.recording]
    exact keeps
  rw [logs.written keeps]
  have events : Step.events ⟨s, now, operation⟩ = said := Step.events_eq whole
  rw [Step.lines, ← events]
  refine congrArg _ (List.filterMap_congr fun event published => ?_)
  cases event with
  | blockRequested peer requested =>
    by_cases here : requested = block
    · rw [here] at published ⊢
      rw [← staged.attemptsOn_of_requested published]
      rfl
    · rw [NetworkEvent.line?, NetworkEvent.line?, if_neg here, if_neg here]
  | _ => rfl

/-- From any state the lines that are added are those of the steps. -/
theorem Reachable.outcomeLines_run (reachable : s.Reachable) (keeps : s.keepsLines = true)
    (history : List (Timestamp × Operation))
    (unpurged : ∀ step ∈ s.steps history, step.purged = 0) (block : BlockHash) :
    (s.run history).outcomeLines block =
      s.outcomeLines block ++ (s.steps history).flatMap fun step => step.lines block := by
  induction history generalizing s with
  | nil => exact (List.append_nil _).symm
  | cons timed rest ih =>
    obtain ⟨now, operation⟩ := timed
    obtain ⟨first, later⟩ := List.forall_mem_cons.mp unpurged
    obtain ⟨keeps, same⟩ := reachable.staged.outcomeLines_step keeps first block
    have whole := ih (reachable.applied now operation) keeps later
    rw [same, List.append_assoc] at whole
    exact whole

/-- The journal is a faithful audit. In a run with the journal on, in which nothing is dropped from
it, the lines of a block on requests, downloads and discards are those that belong to the events of
the run about the block, one for each and in the same order; and a note on a block is entered for no
other block. -/
theorem journal_audits_events {settings : Settings} {streams : StreamTable}
    (usable : create settings streams = .ok s) (recording : settings.journal.enabled = true)
    (kept : settings.journal.clearOnSuccess = false) (history : List (Timestamp × Operation))
    (unpurged : ∀ step ∈ s.steps history, step.purged = 0) (block : BlockHash) :
    (s.run history).outcomeLines block = (s.steps history).flatMap (fun step => step.lines block) ∧
      ∀ (t : Scheduler) (other : BlockHash) (peer? : Option PeerAddress) (note : Note)
        (now : Timestamp), other ≠ block →
        (t.note other peer? note now).journal.entriesOf block = t.journal.entriesOf block := by
  have fresh := eq_initial_of_create usable
  have keeps : s.keepsLines = true := by
    rw [fresh, keepsLines, Bool.and_eq_true_iff]
    exact ⟨recording, congrArg not kept⟩
  have blank : s.outcomeLines block = [] := by
    rw [fresh]
    rfl
  have whole := (Reachable.created usable).outcomeLines_run keeps history unpurged block
  rw [blank, List.nil_append] at whole
  exact ⟨whole, fun t other peer? note now different =>
    t.journal.entriesOf_register_of_ne different.symm peer? note now⟩

/-- A peer does not have a block and delivers it later. Every tick purges the journal, and finds
nothing. -/
def secondAttempt : List (Timestamp × Operation) :=
  [(⟨0⟩, .hear (.peerHandshaked soleSender)), (⟨1⟩, .download (.plain [.zero])), (⟨2⟩, .tick),
    (⟨3⟩, .hear (.blocksNotFound soleSender [.zero])), (⟨4_000⟩, .tick),
    (⟨4_001⟩, .hear (.rawBlockDelivered soleSender ⟨.zero, .zero, 0, 0⟩ 80))]

theorem journal_audits_events_secondAttempt :
    let settings := { Settings.brisk with journal := { JournalSettings.standard with purgeEvery := 1 } }
    let s := initial settings .empty
    create settings .empty = .ok s ∧ (∀ step ∈ s.steps secondAttempt, step.purged = 0) ∧
      ((s.steps secondAttempt).flatMap fun step => step.lines .zero) =
        [⟨⟨2⟩, some soleSender, "requested, attempt 1"⟩,
          ⟨⟨4_000⟩, some soleSender, "requested, attempt 2"⟩,
          ⟨⟨4_001⟩, some soleSender, "downloaded"⟩] ∧
      (s.run secondAttempt).outcomeLines .zero =
        [⟨⟨2⟩, some soleSender, "requested, attempt 1"⟩,
          ⟨⟨4_000⟩, some soleSender, "requested, attempt 2"⟩,
          ⟨⟨4_001⟩, some soleSender, "downloaded"⟩] := by
  intro settings s
  have usable : create settings .empty = .ok s := rfl
  have found : (s.steps secondAttempt).all (fun step => step.purged = 0) = true := by
    decide +kernel
  have unpurged : ∀ step ∈ s.steps secondAttempt, step.purged = 0 :=
    fun step member => of_decide_eq_true (List.all_eq_true.mp found step member)
  have lines : ((s.steps secondAttempt).flatMap fun step => step.lines .zero) =
      [⟨⟨2⟩, some soleSender, "requested, attempt 1"⟩,
        ⟨⟨4_000⟩, some soleSender, "requested, attempt 2"⟩,
        ⟨⟨4_001⟩, some soleSender, "downloaded"⟩] := by
    decide +kernel
  have audit := (journal_audits_events usable rfl rfl secondAttempt unpurged .zero).1
  exact ⟨usable, unpurged, lines, audit.trans lines⟩

end Scheduler
end BlockFetch
