import BlockFetch.Document
import BlockFetch.NetworkEvent
import BlockFetch.PeerAddress.Parser

/-!
# Documents of network events

Hashes and addresses are texts, headers are records. An event is a record with the kind of the
event as its only key; an event without data may also be written as the name of its kind alone.
-/
namespace BlockFetch

open Document (Fields)

namespace BlockHash

/-- The document of a hash: its base-16 text. -/
def toDocument (hash : BlockHash) : Document := .text hash.toHex

def ofDocument? (document : Document) : Option BlockHash :=
  document.text?.bind fun text => (ofHex text).toOption

end BlockHash

namespace PeerAddress

/-- The document of an address: its text. -/
def toDocument (address : PeerAddress) : Document := .text address.toText

def ofDocument? (document : Document) : Option PeerAddress :=
  document.text?.bind ofText?

end PeerAddress

namespace Timestamp

/-- The document of a time: its milliseconds. -/
def toDocument (moment : Timestamp) : Document := .ofUInt64 moment.millis

def ofDocument? (document : Document) : Option Timestamp :=
  document.uint64?.map Timestamp.mk

end Timestamp

namespace BlockHeader

def toDocument (header : BlockHeader) : Document :=
  .record [
    ("hash", header.hash.toDocument),
    ("prev_block_hash", header.parent.toDocument),
    ("time", .ofUInt64 header.time),
    ("transaction_count", .ofUInt64 header.transactionCount)]

def ofDocument? (document : Document) : Option BlockHeader := do
  let fields ← document.fields? ["hash", "prev_block_hash", "time", "transaction_count"]
  return {
    hash := ← fields.required? "hash" BlockHash.ofDocument?
    parent := ← fields.required? "prev_block_hash" BlockHash.ofDocument?
    time := ← fields.required? "time" Document.uint64?
    transactionCount := ← fields.required? "transaction_count" Document.uint64? }

end BlockHeader

namespace Origin

def name : Origin → String
  | wire => "Wire"
  | scheduler => "Downloader"

def byName : List (String × Origin) :=
  [wire, scheduler].map fun origin => (origin.name, origin)

def toDocument (origin : Origin) : Document := .text origin.name

def ofDocument? : Document → Option Origin :=
  Document.choice? Document.isNull byName

end Origin

namespace Topic

def name : Topic → String
  | session => "Session"
  | peers => "Peers"
  | inventory => "Inventory"
  | delivery => "BlockDelivery"
  | requests => "Requests"
  | outcomes => "Download"
  | all => "All"

def byName : List (String × Topic) :=
  [session, peers, inventory, delivery, requests, outcomes, all].map fun topic =>
    (topic.name, topic)

def toDocument (topic : Topic) : Document := .text topic.name

def ofDocument? : Document → Option Topic :=
  Document.choice? Document.isNull byName

end Topic

namespace EventFilter

def ofDocument? (document : Document) : Option EventFilter :=
  (document.list? Topic.ofDocument?).map EventFilter.mk

end EventFilter

namespace NetworkEvent

def tagged (kind : String) (fields : Fields) : Document :=
  .record [(kind, .record fields)]

def hashesToDocument (hashes : List BlockHash) : Document :=
  .list (hashes.map BlockHash.toDocument)

def hashesOfDocument? : Document → Option (List BlockHash) :=
  Document.list? BlockHash.ofDocument?

def toDocument : NetworkEvent → Document
  | sessionStarted => .text "NetStarted"
  | sessionStopped => .text "NetStopped"
  | enoughPeers count => tagged "MinHandshakedPeersReached" [("peers", .ofUInt64 count)]
  | tooFewPeers count => tagged "MinHandshakedPeersLost" [("peers", .ofUInt64 count)]
  | peerConnected peer => tagged "PeerConnected" [("peer", peer.toDocument)]
  | peerHandshaked peer => tagged "PeerHandshaked" [("peer", peer.toDocument)]
  | peerDisconnected peer reason =>
    tagged "PeerDisconnected" [("peer", peer.toDocument), ("reason", .text reason)]
  | blocksAnnounced peer hashes =>
    tagged "BlockAnnounced" [("peer", peer.toDocument), ("hashes", hashesToDocument hashes)]
  | blocksNotFound peer hashes =>
    tagged "BlockNotFound" [("peer", peer.toDocument), ("hashes", hashesToDocument hashes)]
  | headerDelivered peer header size origin =>
    tagged "BlockHeaderDownloaded" [
      ("peer", peer.toDocument),
      ("header", header.toDocument),
      ("block_size", .ofUInt64 size),
      ("origin", origin.toDocument)]
  | chunkDelivered peer block transactions origin =>
    tagged "BlockTxsDownloaded" [
      ("peer", peer.toDocument),
      ("block_hash", block.toDocument),
      ("txs_count", .ofUInt64 transactions),
      ("origin", origin.toDocument)]
  | liteBlockDelivered peer header size =>
    tagged "LiteBlockDownloaded" [
      ("peer", peer.toDocument),
      ("header", header.toDocument),
      ("block_size", .ofUInt64 size)]
  | rawBlockDelivered peer header size =>
    tagged "RawBlockDownloaded" [
      ("peer", peer.toDocument),
      ("header", header.toDocument),
      ("block_size", .ofUInt64 size)]
  | blockRequested peer block =>
    tagged "GetBlockRequested" [("peer", peer.toDocument), ("block_hash", block.toDocument)]
  | keepAlive peer enabled =>
    tagged "KeepAliveChanged" [("peer", peer.toDocument), ("enabled", .bool enabled)]
  | blockDownloaded peer header size duration =>
    tagged "BlockDownloaded" [
      ("peer", peer.toDocument),
      ("header", header.toDocument),
      ("block_size", .ofUInt64 size),
      ("duration_ms", .ofUInt64 duration)]
  | blockDiscarded block reason =>
    tagged "BlockDiscarded" [("block_hash", block.toDocument), ("reason", .text reason)]

/-- The entries of the data of a kind, in the order in which a list may give their values. -/
def keysOf (kind : String) : List String :=
  match kind with
  | "MinHandshakedPeersReached" | "MinHandshakedPeersLost" => ["peers"]
  | "PeerConnected" | "PeerHandshaked" => ["peer"]
  | "PeerDisconnected" => ["peer", "reason"]
  | "BlockAnnounced" | "BlockNotFound" => ["peer", "hashes"]
  | "BlockHeaderDownloaded" => ["peer", "header", "block_size", "origin"]
  | "BlockTxsDownloaded" => ["peer", "block_hash", "txs_count", "origin"]
  | "LiteBlockDownloaded" | "RawBlockDownloaded" => ["peer", "header", "block_size"]
  | "GetBlockRequested" => ["peer", "block_hash"]
  | "KeepAliveChanged" => ["peer", "enabled"]
  | "BlockDownloaded" => ["peer", "header", "block_size", "duration_ms"]
  | "BlockDiscarded" => ["block_hash", "reason"]
  | _ => []

def ofFields? (kind : String) (fields : Fields) : Option NetworkEvent := do
  let peer := fields.required? "peer" PeerAddress.ofDocument?
  let block := fields.required? "block_hash" BlockHash.ofDocument?
  let hashes := fields.required? "hashes" hashesOfDocument?
  let header := fields.required? "header" BlockHeader.ofDocument?
  let size := fields.required? "block_size" Document.uint64?
  let origin := fields.required? "origin" Origin.ofDocument?
  let reason := fields.required? "reason" Document.text?
  match kind with
  | "MinHandshakedPeersReached" =>
    return enoughPeers (← fields.required? "peers" Document.uint64?)
  | "MinHandshakedPeersLost" =>
    return tooFewPeers (← fields.required? "peers" Document.uint64?)
  | "PeerConnected" => return peerConnected (← peer)
  | "PeerHandshaked" => return peerHandshaked (← peer)
  | "PeerDisconnected" => return peerDisconnected (← peer) (← reason)
  | "BlockAnnounced" => return blocksAnnounced (← peer) (← hashes)
  | "BlockNotFound" => return blocksNotFound (← peer) (← hashes)
  | "BlockHeaderDownloaded" =>
    return headerDelivered (← peer) (← header) (← size) (← origin)
  | "BlockTxsDownloaded" =>
    return chunkDelivered (← peer) (← block)
      (← fields.required? "txs_count" Document.uint64?) (← origin)
  | "LiteBlockDownloaded" => return liteBlockDelivered (← peer) (← header) (← size)
  | "RawBlockDownloaded" => return rawBlockDelivered (← peer) (← header) (← size)
  | "GetBlockRequested" => return blockRequested (← peer) (← block)
  | "KeepAliveChanged" =>
    return keepAlive (← peer) (← fields.required? "enabled" Document.bool?)
  | "BlockDownloaded" =>
    return blockDownloaded (← peer) (← header) (← size)
      (← fields.required? "duration_ms" Document.uint64?)
  | "BlockDiscarded" => return blockDiscarded (← block) (← reason)
  | _ => none

/-- The events without data, by name. -/
def plainByName : List (String × NetworkEvent) :=
  [("NetStarted", sessionStarted), ("NetStopped", sessionStopped)]

def ofDocument? (document : Document) : Option NetworkEvent :=
  match document.choice? Document.isNull plainByName with
  | some event => some event
  | none =>
    match document with
    | .record [(kind, content)] => (content.fields? (keysOf kind)).bind (ofFields? kind)
    | _ => none

/-- Reads an event whose data have to be written key by key: a bare list of values is refused. -/
def ofKeyed? : Document → Option NetworkEvent
  | .record [(_, .list _)] => none
  | document => ofDocument? document

end NetworkEvent
end BlockFetch
