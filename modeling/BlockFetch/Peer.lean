import BlockFetch.BlockHash
import BlockFetch.StreamTable
import BlockFetch.Timestamp

/-!
# Peers and their transfers

A peer is connected, handshaked or disconnected, and it is idle, transferring one block, or
discarded. The progress of its transfer is kept beside that, and some questions about a peer are
answered by the one and some by the other, so whatever changes one of them has to restore the link:
a peer has a transfer exactly while it is busy. The speed of a peer is averaged over its deliveries;
a peer that has delivered nothing counts as the fastest, so that it is tried first.
-/
namespace BlockFetch

/-- One attempt of a peer to send a block. -/
structure Transfer where
  block : BlockHash
  /-- The number of this attempt on the block, from one. -/
  attempt : Nat
  /-- Whether the stream became corrupted during the transfer. -/
  corrupted : Bool
  /-- The size of the message, once its body has started to arrive. -/
  totalBytes? : Option UInt64
  bytesReceived : UInt64
  startedAt : Timestamp
  /-- When the number of received bytes last changed. -/
  lastBytesAt : Timestamp
  deriving DecidableEq

namespace Transfer

def start (block : BlockHash) (attempt : Nat) (now : Timestamp) : Transfer where
  block := block
  attempt := attempt
  corrupted := false
  totalBytes? := none
  bytesReceived := 0
  startedAt := now
  lastBytesAt := now

def idleFor (transfer : Transfer) (now : Timestamp) : Duration :=
  now.since transfer.lastBytesAt

def elapsed (transfer : Transfer) (now : Timestamp) : Duration :=
  now.since transfer.startedAt

/-- The bytes that a transfer takes of the bandwidth: its full size once that is known. -/
def bytesInFlight (transfer : Transfer) : UInt64 :=
  transfer.totalBytes?.getD transfer.bytesReceived

/-- The transfer after a look at the stream, and whether bytes have arrived. Only block messages
count; the full size is taken once, when the body is being read; and a corrupted transfer no
longer changes. -/
def observe (transfer : Transfer) (snapshot : StreamSnapshot) (now : Timestamp) :
    Transfer × Bool :=
  if transfer.corrupted then (transfer, false)
  else if snapshot.phase = .corrupted then ({ transfer with corrupted := true }, false)
  else
    match snapshot.message?.filter MessageHeader.isBlock with
    | none => (transfer, false)
    | some message =>
      let total :=
        if transfer.totalBytes?.isNone ∧ snapshot.phase = .readingBody then some message.length
        else transfer.totalBytes?
      if snapshot.bytesReceived = transfer.bytesReceived then
        ({ transfer with totalBytes? := total }, false)
      else
        ({ transfer with
            totalBytes? := total
            bytesReceived := snapshot.bytesReceived
            lastBytesAt := now }, true)

end Transfer

/-- Connection of a peer. -/
inductive Connection where
  | connected
  | handshaked
  | disconnected
  deriving DecidableEq, Repr, Inhabited

/-- What a peer is doing. -/
inductive Work where
  | idle
  | transferring
  /-- The peer failed in the middle of a transfer and gets no more work on this connection. -/
  | discarded
  deriving DecidableEq, Repr

/-- What is known about a peer. -/
structure Peer where
  connection : Connection
  work : Work
  transfer? : Option Transfer
  /-- Averaged speed in bytes per second. -/
  speed : UInt64
  deriving DecidableEq

namespace Peer

/-- The speed of a peer that has delivered nothing. -/
def unmeasuredSpeed : UInt64 := maxWord

def fresh : Peer := ⟨.connected, .idle, none, unmeasuredSpeed⟩

instance : Inhabited Peer := ⟨fresh⟩

def block? (peer : Peer) : Option BlockHash :=
  peer.transfer?.map Transfer.block

/-- Whether a peer has completed the handshake and is still connected. -/
def isHandshaked (peer : Peer) : Bool :=
  peer.connection = .handshaked

def isBusy (peer : Peer) : Bool :=
  peer.work = .transferring

/-- Whether a peer can be given a block. -/
def isAvailable (peer : Peer) : Bool :=
  peer.isHandshaked && peer.work = .idle

/-- A new connection from a known address: only the speed is kept. -/
def reconnect (peer : Peer) : Peer :=
  { peer with connection := .connected, work := .idle, transfer? := none }

def handshake (peer : Peer) : Peer :=
  { peer with connection := .handshaked }

/-- The connection is closed; a transfer stays until it is released. -/
def disconnect (peer : Peer) : Peer :=
  { peer with connection := .disconnected }

def start (peer : Peer) (block : BlockHash) (attempt : Nat) (now : Timestamp) : Peer :=
  { peer with work := .transferring, transfer? := some (.start block attempt now) }

/-- A peer is idle again, unless it has been discarded. -/
def release (peer : Peer) : Peer :=
  { peer with work := if peer.work = .discarded then .discarded else .idle, transfer? := none }

/-- A peer gets no more work. -/
def discard (peer : Peer) : Peer :=
  { peer with work := .discarded, transfer? := none }

/-- A peer failed its transfer: if it had sent a part of the block, it gets no more work. -/
def fail (peer : Peer) : Peer :=
  match peer.transfer? with
  | some transfer => if transfer.bytesReceived = 0 then peer.release else peer.discard
  | none => peer.release

@[simp] theorem transfer?_release (peer : Peer) : peer.release.transfer? = none := rfl

@[simp] theorem transfer?_fail (peer : Peer) : peer.fail.transfer? = none := by
  unfold fail
  split
  · split <;> rfl
  · rfl

/-- The peer after a look at its stream, and whether bytes have arrived. -/
def observe (peer : Peer) (snapshot : StreamSnapshot) (now : Timestamp) : Peer × Bool :=
  match peer.transfer? with
  | none => (peer, false)
  | some transfer =>
    let (transfer, moved) := transfer.observe snapshot now
    ({ peer with transfer? := some transfer }, moved)

/-- The speed of one delivery, in bytes per second. A delivery takes at least a millisecond. -/
def deliverySpeed (bytes : UInt64) (elapsed : Duration) : UInt64 :=
  saturate (bytes.toNat * 1000) / max elapsed 1

/-- Takes a delivery into the average: the first one as it is, a later one with half its weight. -/
def recordSpeed (peer : Peer) (bytes : UInt64) (elapsed : Duration) : Peer :=
  let sample := deliverySpeed bytes elapsed
  { peer with
    speed := if peer.speed = unmeasuredSpeed then sample else peer.speed / 2 + sample / 2 }

def measuredSpeed? (peer : Peer) : Option UInt64 :=
  if peer.speed = unmeasuredSpeed then none else some peer.speed

/-! ## The link between work and transfer -/

/-- Exactly a busy peer has a transfer. -/
def Linked (peer : Peer) : Prop :=
  peer.work = .transferring ↔ peer.transfer?.isSome = true

variable {peer : Peer}

theorem work_release_ne (peer : Peer) : peer.release.work ≠ .transferring := by
  unfold release
  dsimp only
  split <;> exact nofun

theorem work_fail_ne (peer : Peer) : peer.fail.work ≠ .transferring := by
  unfold fail
  split
  · split
    · exact work_release_ne peer
    · exact nofun
  · exact work_release_ne peer

theorem linked_of_work_ne (rests : peer.work ≠ .transferring) (none : peer.transfer? = none) :
    peer.Linked :=
  ⟨fun busy => absurd busy rests, fun sends => by rw [none] at sends; contradiction⟩

theorem linked_fresh : fresh.Linked := linked_of_work_ne nofun rfl

theorem linked_reconnect (peer : Peer) : peer.reconnect.Linked := linked_of_work_ne nofun rfl

theorem linked_start (peer : Peer) (block : BlockHash) (attempt : Nat) (now : Timestamp) :
    (peer.start block attempt now).Linked :=
  ⟨fun _ => rfl, fun _ => rfl⟩

theorem linked_release (peer : Peer) : peer.release.Linked :=
  linked_of_work_ne peer.work_release_ne rfl

theorem linked_fail (peer : Peer) : peer.fail.Linked :=
  linked_of_work_ne peer.work_fail_ne peer.transfer?_fail

namespace Linked

theorem handshake (h : peer.Linked) : peer.handshake.Linked := h

theorem recordSpeed (h : peer.Linked) (bytes : UInt64) (elapsed : Duration) :
    (peer.recordSpeed bytes elapsed).Linked := h

theorem observe (h : peer.Linked) (snapshot : StreamSnapshot) (now : Timestamp) :
    (peer.observe snapshot now).1.Linked := by
  unfold Peer.observe
  cases sends : peer.transfer? with
  | none => exact h
  | some transfer =>
    exact ⟨fun _ => rfl, fun _ => h.mpr (by rw [sends, Option.isSome_some])⟩

theorem isBusy_eq (h : peer.Linked) : peer.isBusy = peer.transfer?.isSome := by
  rw [Bool.eq_iff_iff, isBusy, decide_eq_true_eq]
  exact h

theorem work_of_transfer? (h : peer.Linked) {transfer : Transfer}
    (sends : peer.transfer? = some transfer) : peer.work = .transferring :=
  h.mpr (by rw [sends, Option.isSome_some])

theorem transfer?_eq_none_of_work_ne (h : peer.Linked) (idle : peer.work ≠ .transferring) :
    peer.transfer? = none :=
  Option.not_isSome_iff_eq_none.mp (mt h.mpr idle)

theorem transfer?_eq_none_of_not_isBusy (h : peer.Linked) (rests : peer.isBusy = false) :
    peer.transfer? = none :=
  h.transfer?_eq_none_of_work_ne (of_decide_eq_false rests)

theorem transfer?_eq_none_of_isAvailable (h : peer.Linked) (available : peer.isAvailable = true) :
    peer.transfer? = none := by
  refine h.transfer?_eq_none_of_work_ne fun busy => ?_
  simp [isAvailable, busy] at available

end Linked

end Peer
end BlockFetch
