import BlockFetch.Backlog
import BlockFetch.FetchRequest
import BlockFetch.Journal
import BlockFetch.NetworkEvent
import BlockFetch.Peer

/-!
# The scheduler

The scheduler hands waiting blocks to peers and follows each block until it is downloaded,
discarded or cancelled. A block is held while a peer sends it, and in limbo while it is unclear
what became of its transfer. What the scheduler wants from its surroundings is listed in the
outbox: events to publish, and changes of receive buffers, which it also carries out at once on
the streams.
-/
namespace BlockFetch

/-- A block whose header has arrived and whose transactions are arriving in chunks. -/
structure PartialBlock where
  header : BlockHeader
  size : UInt64
  /-- The number of transactions that have arrived since the header. -/
  received : UInt64
  deriving DecidableEq

/-- Something that the scheduler asked of its surroundings. -/
inductive Effect where
  | publish (event : NetworkEvent)
  | growBuffer (peer : PeerAddress)
  | resetBuffer (peer : PeerAddress)
  deriving DecidableEq

def Effect.event? : Effect → Option NetworkEvent
  | .publish event => some event
  | _ => none

/-- The state of the scheduler. -/
structure Scheduler where
  settings : Settings
  streams : StreamTable
  peers : PeerMap Peer
  backlog : Backlog
  /-- Blocks whose transfer is over or stalled and whose attempt is not resolved yet. -/
  limbo : BlockSet
  /-- Blocks that failed too often, with the time since when they are put aside. -/
  discarded : BlockMap Timestamp
  /-- Blocks to be cancelled as soon as their attempt ends. -/
  cancelling : BlockSet
  cancelled : BlockSet
  downloaded : BlockSet
  /-- When something was last heard of a held block or a block in limbo. -/
  lastActivity : BlockMap Timestamp
  partials : BlockMap PartialBlock
  journal : Journal
  /-- Whether the client asked for a pause. -/
  clientPaused : Bool
  /-- Whether enough peers are handshaked. -/
  enoughPeers : Bool
  /-- How often a block was queued again after a failed attempt. -/
  retries : Nat
  /-- The greatest share of busy peers since the last report, in percent. -/
  busyPercentage : Nat
  /-- Whether the bytes in transfer reached their limit when this was last looked at. -/
  bandwidthRestricted : Bool
  /-- For peers that got no block at their last turn, the reasons by block. -/
  refusals : PeerMap (List (BlockHash × Refusal))
  ticks : UInt64
  /-- What was asked of the surroundings since the outbox was last emptied, oldest first. -/
  outbox : List Effect

namespace Scheduler

def initial (settings : Settings) (streams : StreamTable) : Scheduler where
  settings := settings
  streams := streams
  peers := ∅
  backlog := .empty
  limbo := ∅
  discarded := ∅
  cancelling := ∅
  cancelled := ∅
  downloaded := ∅
  lastActivity := ∅
  partials := ∅
  journal := .blank settings.journal.enabled settings.journal.retention
  clientPaused := false
  enoughPeers := true
  retries := 0
  busyPercentage := 0
  bandwidthRestricted := false
  refusals := ∅
  ticks := 0
  outbox := []

def create (settings : Settings) (streams : StreamTable) : Except Settings.Error Scheduler :=
  match settings.check with
  | .ok () => .ok (initial settings streams)
  | .error error => .error error

/-! ## Views -/

/-- Whether new blocks are handed out. -/
def isRunning (s : Scheduler) : Bool :=
  !s.clientPaused && s.enoughPeers

def eligibility (s : Scheduler) : Eligibility :=
  ⟨s.settings.criteria, s.settings.failureCooldown⟩

/-- The peers that hold a block, in ascending order. -/
def holders (s : Scheduler) (block : BlockHash) : List PeerAddress :=
  (s.peers.toList.filter fun entry => entry.2.block? = some block).map Prod.fst

def isHeld (s : Scheduler) (block : BlockHash) : Bool :=
  s.peers.toList.any fun entry => entry.2.block? = some block

/-- Whether an attempt on a block is under way. -/
def isInFlight (s : Scheduler) (block : BlockHash) : Bool :=
  s.isHeld block || s.limbo.contains block

/-- Whether a delivery of a block is of no use. -/
def isUnwanted (s : Scheduler) (block : BlockHash) : Bool :=
  s.cancelled.contains block || s.downloaded.contains block

def transfers (s : Scheduler) : List Transfer :=
  s.peers.toList.filterMap fun entry => entry.2.transfer?

/-- The bytes that all transfers take of the bandwidth. This is a sum of words, and it wraps around
when peers announce more than a word can hold. -/
def bytesInFlight (s : Scheduler) : UInt64 :=
  s.transfers.foldr (fun transfer total => transfer.bytesInFlight + total) 0

def events (s : Scheduler) : List NetworkEvent :=
  s.outbox.filterMap Effect.event?

def drained (s : Scheduler) : Scheduler :=
  { s with outbox := [] }

/-! ## Small steps -/

def modifyPeer (s : Scheduler) (peer : PeerAddress) (change : Peer → Peer) : Scheduler :=
  { s with peers := s.peers.modify peer change }

def publish (s : Scheduler) (event : NetworkEvent) : Scheduler :=
  { s with outbox := s.outbox ++ [.publish event] }

/-- Asks for a bigger buffer ahead of a transfer; a failure has no consequence. -/
def growBuffer (s : Scheduler) (peer : PeerAddress) : Scheduler :=
  { s with
    streams := s.streams.orUnchanged (s.streams.growBuffer peer)
    outbox := s.outbox ++ [.growBuffer peer] }

/-- Asks for the idle buffer after a transfer; a failure has no consequence. -/
def resetBuffer (s : Scheduler) (peer : PeerAddress) : Scheduler :=
  { s with
    streams := s.streams.orUnchanged (s.streams.resetBuffer peer)
    outbox := s.outbox ++ [.resetBuffer peer] }

def note (s : Scheduler) (block : BlockHash) (peer? : Option PeerAddress) (note : Note)
    (now : Timestamp) : Scheduler :=
  { s with journal := s.journal.register block peer? note now }

def noteFailure (s : Scheduler) (block : BlockHash) (peer : PeerAddress) (now : Timestamp) :
    Scheduler :=
  { s with backlog := s.backlog.noteFailure block peer now }

/-- Something was heard of a block; this counts only while an attempt on it is under way. -/
def touch (s : Scheduler) (block : BlockHash) (now : Timestamp) : Scheduler :=
  { s with lastActivity := s.lastActivity.modify block fun _ => now }

/-- Puts a block in limbo because its transfer at a peer stalled. -/
def moveToLimbo (s : Scheduler) (peer : PeerAddress) (block : BlockHash) (stall : Stall)
    (now : Timestamp) : Scheduler :=
  let s := { s with
    limbo := s.limbo.insert block
    lastActivity := s.lastActivity.insert block now }
  (s.noteFailure block peer now).note block (some peer) (.stalled stall) now

end Scheduler
end BlockFetch
