import BlockFetch.Document.Event
import BlockFetch.Scheduler.Report

/-!
# Documents of reports

What a client is shown of the scheduler: its peers and their transfers, the blocks in their several
places, the reasons why peers got no block, and the journal of a block.
-/
namespace BlockFetch

namespace Connection

def name : Connection → String
  | connected => "Connected"
  | handshaked => "Handshaked"
  | disconnected => "Disconnected"

def byName : List (String × Connection) :=
  [connected, handshaked, disconnected].map fun connection => (connection.name, connection)

def toDocument (connection : Connection) : Document := .text connection.name

def ofDocument? : Document → Option Connection :=
  Document.choice? Document.isNull byName

end Connection

namespace Work

def name : Work → String
  | idle => "Idle"
  | transferring => "Processing"
  | discarded => "Discarded"

def byName : List (String × Work) :=
  [idle, transferring, discarded].map fun work => (work.name, work)

def toDocument (work : Work) : Document := .text work.name

def ofDocument? : Document → Option Work :=
  Document.choice? Document.isNull byName

end Work

namespace Activity

def name : Activity → String
  | running => "Running"
  | paused => "Paused"

def byName : List (String × Activity) :=
  [running, paused].map fun activity => (activity.name, activity)

def toDocument (activity : Activity) : Document := .text activity.name

def ofDocument? : Document → Option Activity :=
  Document.choice? Document.isNull byName

end Activity

namespace Refusal

def name : Refusal → String
  | recentFailure => "TooManyRecentFailures"
  | reservedForOther => "OtherPeerHasExclusivity"
  | otherPreferred => "OtherPeerHasPriority"
  | otherAnnouncer => "OtherPeerIsAnnouncer"
  | noAnnouncer => "NoAnnouncer"

def toDocument (refusal : Refusal) : Document := .text refusal.name

end Refusal

def Transfer.toDocument (address : PeerAddress) (transfer : Transfer) : Document :=
  .record [
    ("block_hash", transfer.block.toDocument),
    ("attempt", .ofNat transfer.attempt),
    ("peer", address.toDocument),
    ("corrupted", .bool transfer.corrupted),
    ("total_bytes", .ofOption .ofUInt64 transfer.totalBytes?),
    ("bytes_downloaded", .ofUInt64 transfer.bytesReceived),
    ("started_at", transfer.startedAt.toDocument),
    ("last_bytes_at", transfer.lastBytesAt.toDocument)]

def Peer.toDocument (address : PeerAddress) (peer : Peer) : Document :=
  .record [
    ("address", address.toDocument),
    ("connection_state", peer.connection.toDocument),
    ("working_state", peer.work.toDocument),
    ("speed", .ofOption .ofUInt64 peer.measuredSpeed?),
    ("progress", .ofOption (Transfer.toDocument address) peer.transfer?)]

def JournalEntry.toDocument (entry : JournalEntry) : Document :=
  .record [
    ("timestamp", entry.time.toDocument),
    ("peer", .ofOption PeerAddress.toDocument entry.peer?),
    ("message", .text entry.note.text)]

def Refusal.listToDocument (address : PeerAddress) (refusals : List (BlockHash × Refusal)) :
    Document :=
  .record [
    ("peer", address.toDocument),
    ("rejections", .list (refusals.map fun (block, reason) =>
      .record [("block", block.toDocument), ("reason", reason.toDocument)]))]

namespace Report

def toFields (report : Report) : Document.Fields :=
  [("handler_state", report.activity.toDocument),
    ("client_paused", .bool report.clientPaused),
    ("enough_peers", .bool report.enoughPeers),
    ("pending", .list (report.waiting.map BlockHash.toDocument)),
    ("downloaded", .list (report.downloaded.map BlockHash.toDocument)),
    ("discarded", .list (report.discarded.map BlockHash.toDocument)),
    ("cancelled", .list (report.cancelled.map BlockHash.toDocument)),
    ("pending_to_cancel", .list (report.cancelling.map BlockHash.toDocument)),
    ("in_limbo", .list (report.limbo.map BlockHash.toDocument)),
    ("peers", .list (report.peers.map fun (address, peer) => peer.toDocument address)),
    ("total_reattempts", .ofNat report.retries),
    ("busy_percentage", .ofNat report.busyPercentage),
    ("bandwidth_restricted", .bool report.bandwidthRestricted),
    ("bytes_in_flight", .ofUInt64 report.bytesInFlight),
    ("rejections", .list (report.refusals.map fun (address, refusals) =>
      Refusal.listToDocument address refusals))]

def toDocument (report : Report) : Document := .record report.toFields

end Report
end BlockFetch
