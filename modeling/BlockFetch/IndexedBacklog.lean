import BlockFetch.Backlog

/-!
# The indexed backlog

A backlog with the set of its waiting blocks beside the queue, so that whether a block waits is
known without a look through the queue. The two are kept in step by hand: whatever changes one
changes the other. The queue is gone through once for each inquiry, up to the first block that is
handed out.
-/
namespace BlockFetch

/-- A backlog with the set of its waiting blocks. -/
structure IndexedBacklog extends Backlog where
  members : BlockSet

/-- Something that is done with a backlog. -/
inductive BacklogOperation where
  | add (blocks : List BlockHash) (priority : Bool)
  | remove (block : BlockHash)
  | announce (block : BlockHash) (peer : PeerAddress)
  | reserve (blocks : List BlockHash) (peer : PeerAddress)
  | prefer (blocks : List BlockHash) (peer : PeerAddress)
  | noteFailure (block : BlockHash) (peer : PeerAddress) (now : Timestamp)
  | beginAttempt (block : BlockHash)
  | downloaded (block : BlockHash)
  | cancelled (block : BlockHash)
  | discarded (block : BlockHash)
  | extract (inquiry : Backlog.Inquiry)

/-- What a backlog answers. -/
inductive BacklogAnswer where
  | done
  /-- Whether the block was waiting. -/
  | removed (waited : Bool)
  /-- The number of the attempt, from one. -/
  | begun (attempt : Nat)
  | extracted (answer : Backlog.Answer)
  deriving DecidableEq

namespace IndexedBacklog

def empty : IndexedBacklog := { Backlog.empty with members := ∅ }

instance : Inhabited IndexedBacklog := ⟨empty⟩

/-! ## Waiting blocks -/

def contains (backlog : IndexedBacklog) (block : BlockHash) : Bool :=
  backlog.members.contains block

def pushBack (backlog : IndexedBacklog) (block : BlockHash) : IndexedBacklog :=
  if backlog.contains block then backlog
  else { backlog with
    queue := backlog.queue ++ [block]
    members := backlog.members.insert block }

def pushFront (backlog : IndexedBacklog) (block : BlockHash) : IndexedBacklog :=
  if backlog.contains block then backlog
  else { backlog with
    queue := block :: backlog.queue
    members := backlog.members.insert block }

/-- Adds blocks. With priority they come before the waiting ones, the last one first, so that they
keep their order. -/
def add (backlog : IndexedBacklog) (blocks : List BlockHash) (priority : Bool) : IndexedBacklog :=
  if priority then blocks.reverse.foldl pushFront backlog else blocks.foldl pushBack backlog

/-- Takes a block out of the queue, and says whether it was waiting. -/
def remove (backlog : IndexedBacklog) (block : BlockHash) : Bool × IndexedBacklog :=
  if backlog.contains block then
    (true, { backlog with
      queue := backlog.queue.filter (· ≠ block)
      members := backlog.members.erase block })
  else (false, backlog)

/-- Forgets a block and everything about it. -/
def forget (backlog : IndexedBacklog) (block : BlockHash) : IndexedBacklog :=
  let backlog := (backlog.remove block).2
  { backlog with
    announcers := backlog.announcers.erase block
    reservations := backlog.reservations.erase block
    preferred := backlog.preferred.erase block
    failures := backlog.failures.erase block
    attempts := backlog.attempts.erase block }

/-- Takes a block out of the queue and forgets its attempts and failures. -/
def setAside (backlog : IndexedBacklog) (block : BlockHash) : IndexedBacklog :=
  let backlog := (backlog.remove block).2
  { backlog with
    attempts := backlog.attempts.erase block
    failures := backlog.failures.erase block }

/-! ## Handing out blocks -/

/-- Goes through blocks from a place in the queue on, up to the first one that the candidate gets:
its place, if there is one, and the reasons against those before, after the ones found earlier. -/
def scan (backlog : Backlog) (inquiry : Backlog.Inquiry) :
    List BlockHash → Nat → List (BlockHash × Refusal) → Option Nat × List (BlockHash × Refusal)
  | [], _, refusals => (none, refusals)
  | block :: rest, place, refusals =>
    if inquiry.restricted && !backlog.isBegun block then
      scan backlog inquiry rest (place + 1) refusals
    else
      match backlog.judge inquiry block with
      | .accepted => (some place, refusals)
      | .refused reason => scan backlog inquiry rest (place + 1) (refusals ++ [(block, reason)])

/-- Hands out the first block that the candidate gets, and takes it out by its place. -/
def extract (backlog : IndexedBacklog) (inquiry : Backlog.Inquiry) :
    Backlog.Answer × IndexedBacklog :=
  let (place?, refusals) := scan backlog.toBacklog inquiry backlog.queue 0 []
  match place?.bind fun place => (backlog.queue[place]?).map fun block => (place, block) with
  | some (place, block) =>
    (.assigned block, { backlog with
      queue := backlog.queue.eraseIdx place
      members := backlog.members.erase block })
  | none => (.refused refusals, backlog)

/-! ## Operations -/

def apply (backlog : IndexedBacklog) : BacklogOperation → BacklogAnswer × IndexedBacklog
  | .add blocks priority => (.done, backlog.add blocks priority)
  | .remove block =>
    let (waited, backlog) := backlog.remove block
    (.removed waited, backlog)
  | .announce block peer =>
    (.done, { backlog with toBacklog := backlog.noteAnnouncement block peer })
  | .reserve blocks peer => (.done, { backlog with toBacklog := backlog.reserve blocks peer })
  | .prefer blocks peer => (.done, { backlog with toBacklog := backlog.prefer blocks peer })
  | .noteFailure block peer now =>
    (.done, { backlog with toBacklog := backlog.toBacklog.noteFailure block peer now })
  | .beginAttempt block =>
    let begun := backlog.toBacklog.beginAttempt block
    (.begun (begun.attemptsOn block), { backlog with toBacklog := begun })
  | .downloaded block | .cancelled block => (.done, backlog.forget block)
  | .discarded block => (.done, backlog.setAside block)
  | .extract inquiry =>
    let (answer, backlog) := backlog.extract inquiry
    (.extracted answer, backlog)

/-- The backlog after some operations. -/
def run (backlog : IndexedBacklog) (operations : List BacklogOperation) : IndexedBacklog :=
  operations.foldl (fun backlog operation => (backlog.apply operation).2) backlog

end IndexedBacklog
end BlockFetch
