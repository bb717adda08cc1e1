import BlockFetch.Scheduler.Resolution

/-!
# What the scheduler hears

The reaction to each event on the bus. Notices that no longer fit the state, such as a second
handshake of a busy peer, change nothing; so do all events that the scheduler itself publishes.
-/
namespace BlockFetch.Scheduler

/-- A peer connects: a new one is added, and one that had disconnected starts over. -/
def hearConnected (s : Scheduler) (peer : PeerAddress) : Scheduler :=
  match s.peers[peer]? with
  | none => { s with peers := s.peers.insert peer .fresh }
  | some record =>
    if !record.isBusy && record.connection = .disconnected then s.modifyPeer peer Peer.reconnect
    else s

def hearHandshaked (s : Scheduler) (peer : PeerAddress) : Scheduler :=
  let s := { s with peers := s.peers.insertIfNew peer .fresh }
  s.modifyPeer peer fun record => if record.isBusy then record else record.handshake

/-- Takes a known peer off its connection and its transfer. -/
def detachPeer (s : Scheduler) (peer : PeerAddress) : Scheduler :=
  { s.modifyPeer peer (fun record => record.disconnect.release) with
    refusals := s.refusals.erase peer }

/-- A peer disconnects, and the block that it was sending is put in limbo. -/
def hearDisconnected (s : Scheduler) (peer : PeerAddress) (now : Timestamp) : Scheduler :=
  match s.peers[peer]? with
  | none => s
  | some record =>
    let s := s.detachPeer peer
    match record.block? with
    | none => s
    | some block =>
      if s.limbo.contains block then s.noteFailure block peer now
      else s.moveToLimbo peer block .disconnected now

def hearAnnounced (s : Scheduler) (peer : PeerAddress) (blocks : List BlockHash) : Scheduler :=
  { s with
    backlog := blocks.foldl (fun backlog block => backlog.noteAnnouncement block peer)
      s.backlog }

/-- A peer does not have the one block that it was asked for. An answer about any other number of
blocks is not an answer to a request of the scheduler. -/
def hearNotFound (s : Scheduler) (peer : PeerAddress) (blocks : List BlockHash)
    (now : Timestamp) : Scheduler :=
  match blocks with
  | [block] =>
    if (s.peers[peer]?).bind Peer.block? = some block then
      (s.note block (some peer) .notFound now).fail block now
    else s
  | _ => s

/-- The header of a block arrives; the count of its transactions starts from zero. A block without
transactions is complete. -/
def hearHeader (s : Scheduler) (peer : PeerAddress) (header : BlockHeader) (size : UInt64)
    (now : Timestamp) : Scheduler :=
  let s := s.touch header.hash now
  if header.transactionCount = 0 then s.succeed peer header size now
  else { s with partials := s.partials.insert header.hash ⟨header, size, 0⟩ }

/-- Transactions of a block arrive. Without a header they mean nothing; with the last of them the
block is delivered. -/
def hearChunk (s : Scheduler) (peer : PeerAddress) (block : BlockHash) (transactions : UInt64)
    (now : Timestamp) : Scheduler :=
  match s.partials[block]? with
  | none => s
  | some part =>
    let received := saturate (part.received.toNat + transactions.toNat)
    let s := s.touch block now
    if received ≥ part.header.transactionCount then
      { s with partials := s.partials.erase block }.succeed peer part.header part.size now
    else { s with partials := s.partials.insert block { part with received } }

/-- A block arrives in one piece. If it is wanted, it is announced once more as a header and one
chunk, so that all listeners see the same kind of delivery. -/
def hearLiteBlock (s : Scheduler) (peer : PeerAddress) (header : BlockHeader) (size : UInt64)
    (now : Timestamp) : Scheduler :=
  if s.isUnwanted header.hash then s.succeed peer header size now
  else
    let s := s.publish (.headerDelivered peer header size .scheduler)
    let s := s.publish (.chunkDelivered peer header.hash header.transactionCount .scheduler)
    s.succeed peer header size now

def hear (s : Scheduler) (event : NetworkEvent) (now : Timestamp) : Scheduler :=
  match event with
  | .sessionStarted => s
  | .sessionStopped => s.endSession now
  | .enoughPeers _ => { s with enoughPeers := true }
  | .tooFewPeers _ => { s with enoughPeers := false }
  | .peerConnected peer => s.hearConnected peer
  | .peerHandshaked peer => s.hearHandshaked peer
  | .peerDisconnected peer _ => s.hearDisconnected peer now
  | .blocksAnnounced peer blocks => s.hearAnnounced peer blocks
  | .blocksNotFound peer blocks => s.hearNotFound peer blocks now
  | .headerDelivered peer header size .wire => s.hearHeader peer header size now
  | .chunkDelivered peer block transactions .wire => s.hearChunk peer block transactions now
  | .headerDelivered _ _ _ .scheduler | .chunkDelivered _ _ _ .scheduler => s
  | .liteBlockDelivered peer header size => s.hearLiteBlock peer header size now
  | .rawBlockDelivered peer header size => s.succeed peer header size now
  | .blockRequested .. | .keepAlive .. | .blockDownloaded .. | .blockDiscarded .. => s

end BlockFetch.Scheduler
