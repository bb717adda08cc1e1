import BlockFetch.PeerAddress

/-!
# Peer streams

The transport keeps one stream per connected peer. A stream shows which message it is receiving
and how far it has got, and has a receive buffer that is grown for the transfer of a block. A
stream can refuse to change its buffer; whoever asks learns of it and goes on.
-/
namespace BlockFetch

/-- The header of a message that a stream is receiving. -/
structure MessageHeader where
  command : String
  length : UInt64
  deriving DecidableEq, Repr, Inhabited

namespace MessageHeader

def blockCommand : String := "block"

def isBlock (header : MessageHeader) : Bool :=
  header.command = blockCommand

end MessageHeader

/-- How far a stream is with its current message. -/
inductive StreamPhase where
  | seekingBody
  | readingBody
  | corrupted
  deriving DecidableEq, Repr, Inhabited

/-- A view of a stream at one moment. -/
structure StreamSnapshot where
  message? : Option MessageHeader
  bytesReceived : UInt64
  phase : StreamPhase
  deriving DecidableEq, Repr

namespace StreamSnapshot

def idle : StreamSnapshot := ⟨none, 0, .seekingBody⟩

instance : Inhabited StreamSnapshot := ⟨idle⟩

def isReceivingBlock (snapshot : StreamSnapshot) : Bool :=
  snapshot.message?.any MessageHeader.isBlock

end StreamSnapshot

/-- A stream with its receive buffer, whose size is in bytes. -/
structure Stream where
  snapshot : StreamSnapshot
  bufferSize : Nat
  deriving DecidableEq, Repr

namespace Stream

def idleBufferSize : Nat := 64 * 1024

/-- The size of the receive buffer while a block is being transferred. -/
def blockBufferSize : Nat := 4 * 1024 * 1024

def opened : Stream := ⟨.idle, idleBufferSize⟩

instance : Inhabited Stream := ⟨opened⟩

end Stream

/-- The streams of all connected peers. -/
structure StreamTable where
  streams : PeerMap Stream
  /-- Peers whose streams refuse to change their buffers. -/
  refusing : PeerSet

namespace StreamTable

def empty : StreamTable := ⟨∅, ∅⟩

instance : Inhabited StreamTable := ⟨empty⟩

/-- Why a buffer was not changed. -/
inductive Error where
  | unknownPeer (peer : PeerAddress)
  | operationFailed (peer : PeerAddress) (reason : String)
  deriving DecidableEq

def Error.message : Error → String
  | .unknownPeer peer => "No stream for peer " ++ peer.toText
  | .operationFailed peer reason =>
    "Stream operation failed for peer " ++ peer.toText ++ ": " ++ reason

/-! ## What the transport does -/

/-- The view of the stream of a peer, if it has one. -/
def snapshot? (table : StreamTable) (peer : PeerAddress) : Option StreamSnapshot :=
  (table.streams[peer]?).map Stream.snapshot

/-- The buffer size of the stream of a peer, if it has one. -/
def bufferSize? (table : StreamTable) (peer : PeerAddress) : Option Nat :=
  (table.streams[peer]?).map Stream.bufferSize

/-- Changes the stream of a peer, if it has one. -/
def modify (table : StreamTable) (peer : PeerAddress) (change : Stream → Stream) : StreamTable :=
  { table with streams := table.streams.modify peer change }

def openStream (table : StreamTable) (peer : PeerAddress) : StreamTable :=
  { table with streams := table.streams.insertIfNew peer .opened }

def close (table : StreamTable) (peer : PeerAddress) : StreamTable :=
  { table with streams := table.streams.erase peer }

/-- Shows a new view on the stream of a peer, which is opened if needed. -/
def setSnapshot (table : StreamTable) (peer : PeerAddress) (snapshot : StreamSnapshot) : StreamTable :=
  (table.openStream peer).modify peer fun stream => { stream with snapshot }

def beginBlock (table : StreamTable) (peer : PeerAddress) (length : UInt64) : StreamTable :=
  table.setSnapshot peer ⟨some ⟨MessageHeader.blockCommand, length⟩, 0, .readingBody⟩

def receive (table : StreamTable) (peer : PeerAddress) (bytes : UInt64) : StreamTable :=
  table.modify peer fun stream =>
    { stream with snapshot := { stream.snapshot with bytesReceived := bytes } }

def corrupt (table : StreamTable) (peer : PeerAddress) : StreamTable :=
  table.modify peer fun stream =>
    { stream with snapshot := { stream.snapshot with phase := .corrupted } }

/-! ## What a scheduler asks for -/

/-- Changes the stream of a peer on request; a refusal or a missing stream is reported. -/
def request (table : StreamTable) (peer : PeerAddress) (change : Stream → Stream) :
    Except Error StreamTable :=
  if table.refusing.contains peer then .error (.operationFailed peer "refused")
  else if table.streams.contains peer then .ok (table.modify peer change)
  else .error (.unknownPeer peer)

def growBuffer (table : StreamTable) (peer : PeerAddress) : Except Error StreamTable :=
  table.request peer fun stream => { stream with bufferSize := Stream.blockBufferSize }

/-- Gives the stream of a peer its idle buffer and forgets the message it was receiving. -/
def resetBuffer (table : StreamTable) (peer : PeerAddress) : Except Error StreamTable :=
  table.request peer fun _ => .opened

/-- The table after a request that may have failed: a failure leaves it as it was. -/
def orUnchanged (table : StreamTable) (outcome : Except Error StreamTable) : StreamTable :=
  match outcome with
  | .ok changed => changed
  | .error _ => table

@[simp] theorem orUnchanged_error (table : StreamTable) (error : Error) :
    table.orUnchanged (.error error) = table := rfl

@[simp] theorem orUnchanged_ok (table changed : StreamTable) :
    table.orUnchanged (.ok changed) = changed := rfl

end StreamTable
end BlockFetch
