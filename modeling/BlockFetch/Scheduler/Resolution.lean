import BlockFetch.Scheduler.Basic

/-!
# How attempts end

An attempt on a block ends in exactly one way: the block is delivered, the attempt fails and the
block is queued again or discarded, the block is cancelled as the client asked, or the session
ends and the block is queued again.
-/
namespace BlockFetch.Scheduler

def freePeer (s : Scheduler) (peer : PeerAddress) : Scheduler :=
  ((s.modifyPeer peer Peer.release).publish (.keepAlive peer true)).resetBuffer peer

def freeHolders (s : Scheduler) (block : BlockHash) : Scheduler :=
  (s.holders block).foldl freePeer s

/-- Drops what is kept about an attempt that is under way. -/
def endAttempt (s : Scheduler) (block : BlockHash) : Scheduler :=
  { s with
    limbo := s.limbo.erase block
    lastActivity := s.lastActivity.erase block
    partials := s.partials.erase block }

/-- Cancels a block for good. -/
def markCancelled (s : Scheduler) (block : BlockHash) (now : Timestamp) : Scheduler :=
  let s := { s with
    backlog := s.backlog.forget block
    discarded := s.discarded.erase block
    cancelled := s.cancelled.insert block }
  s.note block none .cancelled now

/-! ## Failure -/

def failHolder (s : Scheduler) (block : BlockHash) (now : Timestamp) (peer : PeerAddress) :
    Scheduler :=
  let s := s.modifyPeer peer Peer.fail
  ((s.noteFailure block peer now).publish (.keepAlive peer true)).resetBuffer peer

def failHolders (s : Scheduler) (block : BlockHash) (now : Timestamp) : Scheduler :=
  (s.holders block).foldl (fun s peer => s.failHolder block now peer) s

/-- Queues a block again after a failed attempt, before all others. -/
def requeue (s : Scheduler) (block : BlockHash) (now : Timestamp) : Scheduler :=
  let s := { s with
    backlog := s.backlog.prepend [block]
    retries := s.retries + 1 }
  s.note block none .queuedAgain now

/-- Puts a block aside after too many failed attempts. -/
def discardBlock (s : Scheduler) (block : BlockHash) (now : Timestamp) : Scheduler :=
  let attempts := s.backlog.attemptsOn block
  let s := { s with
    backlog := s.backlog.setAside block
    discarded := s.discarded.insert block now }
  (s.note block none (.discarded attempts) now).publish
    (.blockDiscarded block (discardReason attempts))

/-- Ends a failed attempt: the block is cancelled if the client asked for it, queued again while
it has attempts left, and discarded otherwise. -/
def fail (s : Scheduler) (block : BlockHash) (now : Timestamp) : Scheduler :=
  let s := (s.failHolders block now).endAttempt block
  if s.cancelling.contains block then
    { s with cancelling := s.cancelling.erase block }.markCancelled block now
  else if s.backlog.attemptsOn block < s.settings.maxAttempts.toNat then s.requeue block now
  else s.discardBlock block now

/-! ## Delivery -/

def transferOf? (s : Scheduler) (peer : PeerAddress) (block : BlockHash) : Option Transfer :=
  ((s.peers[peer]?).bind Peer.transfer?).filter fun transfer => transfer.block = block

def markDownloaded (s : Scheduler) (block : BlockHash) : Scheduler :=
  { s.endAttempt block with
    backlog := s.backlog.forget block
    downloaded := s.downloaded.insert block
    cancelling := s.cancelling.erase block
    discarded := s.discarded.erase block }

/-- Takes the delivery of a block into the averaged speed of the peer that was sending it. -/
def recordSpeed (s : Scheduler) (peer : PeerAddress) (transfer? : Option Transfer)
    (size : UInt64) (now : Timestamp) : Scheduler :=
  match transfer? with
  | some transfer => s.modifyPeer peer fun record => record.recordSpeed size (transfer.elapsed now)
  | none => s

/-- Notes a download in the journal, or clears the journal of the block. -/
def noteDownload (s : Scheduler) (block : BlockHash) (peer : PeerAddress) (now : Timestamp) :
    Scheduler :=
  if s.settings.journal.clearOnSuccess then { s with journal := s.journal.clear block }
  else s.note block (some peer) .downloaded now

/-- Ends the attempt on a block that was delivered. The delivering peer need not be the one that
was asked; then the delivery counts as having taken no time. A block that nobody wants any more
only frees its peers. -/
def succeed (s : Scheduler) (peer : PeerAddress) (header : BlockHeader) (size : UInt64)
    (now : Timestamp) : Scheduler :=
  let block := header.hash
  if s.isUnwanted block then
    let s := s.freeHolders block
    { s with partials := s.partials.erase block }
  else
    let transfer? := s.transferOf? peer block
    let duration := (transfer?.map fun transfer => transfer.elapsed now).getD 0
    let s := s.publish (.blockDownloaded peer header size duration)
    let s := (s.recordSpeed peer transfer? size now).freeHolders block
    (s.markDownloaded block).noteDownload block peer now

/-! ## Cancellation and the end of the session -/

def cancelNow (s : Scheduler) (block : BlockHash) (now : Timestamp) : Scheduler :=
  let s := (s.freeHolders block).endAttempt block
  { s with cancelling := s.cancelling.erase block }.markCancelled block now

/-- The blocks whose attempts are under way, in ascending order. -/
def inFlight (s : Scheduler) : List BlockHash :=
  (s.limbo.insertMany (s.transfers.map Transfer.block)).toList

/-- Ends the attempt on a block because the session ends. -/
def abandon (now : Timestamp) (s : Scheduler) (block : BlockHash) : Scheduler :=
  let s := { s with lastActivity := s.lastActivity.erase block }
  if s.cancelling.contains block then
    { s with cancelling := s.cancelling.erase block }.markCancelled block now
  else s

/-- Ends the session: all peers are forgotten, and the blocks whose attempts were under way are
cancelled if the client asked for it, and wait before all others otherwise. -/
def endSession (s : Scheduler) (now : Timestamp) : Scheduler :=
  let blocks := s.inFlight
  let s := blocks.foldl (abandon now) s
  { s with
    backlog := s.backlog.prepend (blocks.filter fun block => !s.cancelled.contains block)
    peers := ∅
    limbo := ∅
    partials := ∅
    refusals := ∅ }

end BlockFetch.Scheduler
