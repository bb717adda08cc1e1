import BlockFetch.BlockHeader
import BlockFetch.PeerAddress
import BlockFetch.Timestamp

/-!
# Network events

Everything that is said on the event bus: notices on the session and on peers, deliveries from
the wire, requests to the wire, and the outcomes of downloads. Every event has one topic, and a
listener chooses the topics it wants to hear.
-/
namespace BlockFetch

/-- Who announced a delivery: the wire, or the scheduler that split up a block it got in one
piece. -/
inductive Origin where
  | wire
  | scheduler
  deriving DecidableEq, Repr, Inhabited

/-- An event on the bus. -/
inductive NetworkEvent where
  | sessionStarted
  | sessionStopped
  | enoughPeers (count : UInt64)
  | tooFewPeers (count : UInt64)
  | peerConnected (peer : PeerAddress)
  | peerHandshaked (peer : PeerAddress)
  | peerDisconnected (peer : PeerAddress) (reason : String)
  | blocksAnnounced (peer : PeerAddress) (hashes : List BlockHash)
  | blocksNotFound (peer : PeerAddress) (hashes : List BlockHash)
  | headerDelivered (peer : PeerAddress) (header : BlockHeader) (size : UInt64) (origin : Origin)
  | chunkDelivered (peer : PeerAddress) (block : BlockHash) (transactions : UInt64)
      (origin : Origin)
  | liteBlockDelivered (peer : PeerAddress) (header : BlockHeader) (size : UInt64)
  | rawBlockDelivered (peer : PeerAddress) (header : BlockHeader) (size : UInt64)
  | blockRequested (peer : PeerAddress) (block : BlockHash)
  | keepAlive (peer : PeerAddress) (enabled : Bool)
  | blockDownloaded (peer : PeerAddress) (header : BlockHeader) (size : UInt64)
      (duration : Duration)
  | blockDiscarded (block : BlockHash) (reason : String)
  deriving DecidableEq

/-- What an event is about; `all` stands for every topic in a choice of topics. -/
inductive Topic where
  | session
  | peers
  | inventory
  | delivery
  | requests
  | outcomes
  | all
  deriving DecidableEq, Repr

namespace NetworkEvent

def topic : NetworkEvent → Topic
  | sessionStarted | sessionStopped | enoughPeers _ | tooFewPeers _ => .session
  | peerConnected _ | peerHandshaked _ | peerDisconnected .. => .peers
  | blocksAnnounced .. | blocksNotFound .. => .inventory
  | headerDelivered .. | chunkDelivered .. | liteBlockDelivered .. | rawBlockDelivered .. =>
    .delivery
  | blockRequested .. | keepAlive .. => .requests
  | blockDownloaded .. | blockDiscarded .. => .outcomes

/-- The peer that an event is about, if it is about one. -/
def peer? : NetworkEvent → Option PeerAddress
  | peerConnected peer | peerHandshaked peer | peerDisconnected peer _
  | blocksAnnounced peer _ | blocksNotFound peer _
  | headerDelivered peer .. | chunkDelivered peer .. | liteBlockDelivered peer ..
  | rawBlockDelivered peer .. | blockRequested peer _ | keepAlive peer _
  | blockDownloaded peer .. => some peer
  | sessionStarted | sessionStopped | enoughPeers _ | tooFewPeers _ | blockDiscarded .. => none

end NetworkEvent

/-- A choice of topics; none means all of them. -/
structure EventFilter where
  topics : List Topic
  deriving DecidableEq, Repr, Inhabited

namespace EventFilter

/-- The filter that lets every event through. -/
def everything : EventFilter := ⟨[]⟩

def accepts (filter : EventFilter) (event : NetworkEvent) : Bool :=
  filter.topics.isEmpty || filter.topics.contains .all || filter.topics.contains event.topic

end EventFilter
end BlockFetch
