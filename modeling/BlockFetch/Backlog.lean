import BlockFetch.BlockHash
import BlockFetch.Eligibility

/-!
# The backlog

Blocks that wait for a peer, in the order in which they are handed out, together with what is
known about each block: who announced it, for whom it is reserved, who is preferred, who failed it
and when, and how often it was attempted. A block has an attempt counter from its first request
until it is downloaded, discarded or cancelled, whether it waits in the backlog or not.
-/
namespace BlockFetch

/-- Waiting blocks and what is known about blocks. -/
structure Backlog where
  /-- The waiting blocks, each once, the next one first. -/
  queue : List BlockHash
  announcers : BlockMap PeerSet
  reservations : BlockMap PeerAddress
  preferred : BlockMap PeerSet
  failures : BlockMap (PeerMap Timestamp)
  /-- How often each block was asked for since its attempts were settled; see `CountsFit`. -/
  attempts : BlockMap Nat

namespace Backlog

def empty : Backlog := ⟨[], ∅, ∅, ∅, ∅, ∅⟩

instance : Inhabited Backlog := ⟨empty⟩

/-! ## Waiting blocks -/

def contains (backlog : Backlog) (block : BlockHash) : Bool :=
  backlog.queue.contains block

/-- Puts a block behind the waiting ones, unless it is waiting already. -/
def pushBack (queue : List BlockHash) (block : BlockHash) : List BlockHash :=
  if queue.contains block then queue else queue ++ [block]

/-- Puts a block before the waiting ones, unless it is waiting already. -/
def pushFront (block : BlockHash) (queue : List BlockHash) : List BlockHash :=
  if queue.contains block then queue else block :: queue

/-- Adds blocks behind the waiting ones, in their order; a waiting block keeps its place. -/
def append (backlog : Backlog) (blocks : List BlockHash) : Backlog :=
  { backlog with queue := blocks.foldl pushBack backlog.queue }

/-- Adds blocks before the waiting ones, in their order; a waiting block keeps its place. -/
def prepend (backlog : Backlog) (blocks : List BlockHash) : Backlog :=
  { backlog with queue := blocks.foldr pushFront backlog.queue }

def add (backlog : Backlog) (blocks : List BlockHash) (priority : Bool) : Backlog :=
  if priority then backlog.prepend blocks else backlog.append blocks

/-- Takes a block out of the queue; what is known about it stays. -/
def remove (backlog : Backlog) (block : BlockHash) : Backlog :=
  { backlog with queue := backlog.queue.erase block }

theorem mem_pushBack {queue : List BlockHash} {block other : BlockHash} :
    other ∈ pushBack queue block ↔ other ∈ queue ∨ other = block := by
  unfold pushBack
  split
  · rename_i h
    exact ⟨Or.inl, fun either => either.elim id fun same => same ▸ List.contains_iff_mem.mp h⟩
  · simp

theorem mem_pushFront {queue : List BlockHash} {block other : BlockHash} :
    other ∈ pushFront block queue ↔ other = block ∨ other ∈ queue := by
  unfold pushFront
  split
  · rename_i h
    exact ⟨Or.inr, fun either => either.elim (fun same => same ▸ List.contains_iff_mem.mp h) id⟩
  · simp

theorem nodup_pushBack {queue : List BlockHash} (h : queue.Nodup) (block : BlockHash) :
    (pushBack queue block).Nodup := by
  unfold pushBack
  split
  · exact h
  · rename_i absent
    rw [List.contains_iff_mem] at absent
    refine List.nodup_append.mpr ⟨h, List.pairwise_singleton .., ?_⟩
    rintro first inQueue second inOne rfl
    exact absent (List.mem_singleton.mp inOne ▸ inQueue)

theorem nodup_pushFront {queue : List BlockHash} (h : queue.Nodup) (block : BlockHash) :
    (pushFront block queue).Nodup := by
  unfold pushFront
  split
  · exact h
  · rename_i absent
    rw [List.contains_iff_mem] at absent
    exact List.nodup_cons.mpr ⟨absent, h⟩

/-- The blocks that wait after some were added behind are the old ones and the added ones. -/
theorem mem_queue_append {backlog : Backlog} {blocks : List BlockHash} {block : BlockHash} :
    block ∈ (backlog.append blocks).queue ↔ block ∈ backlog.queue ∨ block ∈ blocks := by
  unfold append
  generalize backlog.queue = queue
  induction blocks generalizing queue with
  | nil => simp
  | cons first rest ih => simp [ih, mem_pushBack, or_assoc]

/-- The blocks that wait after some were added before are the added ones and the old ones. -/
theorem mem_queue_prepend {backlog : Backlog} {blocks : List BlockHash} {block : BlockHash} :
    block ∈ (backlog.prepend blocks).queue ↔ block ∈ blocks ∨ block ∈ backlog.queue := by
  unfold prepend
  induction blocks with
  | nil => simp
  | cons first rest ih =>
    rw [List.foldr_cons, mem_pushFront, ih, List.mem_cons, or_assoc]

theorem nodup_queue_append {backlog : Backlog} (h : backlog.queue.Nodup)
    (blocks : List BlockHash) : (backlog.append blocks).queue.Nodup := by
  unfold append
  revert h
  generalize backlog.queue = queue
  intro h
  induction blocks generalizing queue with
  | nil => exact h
  | cons first rest ih => exact ih _ (nodup_pushBack h first)

theorem nodup_queue_prepend {backlog : Backlog} (h : backlog.queue.Nodup)
    (blocks : List BlockHash) : (backlog.prepend blocks).queue.Nodup := by
  unfold prepend
  induction blocks with
  | nil => exact h
  | cons first rest ih => exact nodup_pushFront ih first

/-! ## What is known about blocks -/

/-- Adds a peer to the peers that a table lists for a block. -/
def noteIn (table : BlockMap PeerSet) (block : BlockHash) (peer : PeerAddress) :
    BlockMap PeerSet :=
  table.insert block ((table.getD block ∅).insert peer)

def noteAnnouncement (backlog : Backlog) (block : BlockHash) (peer : PeerAddress) : Backlog :=
  { backlog with announcers := noteIn backlog.announcers block peer }

/-- Blocks are reserved for a peer, in place of an earlier reservation. -/
def reserve (backlog : Backlog) (blocks : List BlockHash) (peer : PeerAddress) : Backlog :=
  { backlog with
    reservations := blocks.foldl (fun table block => table.insert block peer)
      backlog.reservations }

/-- A peer is preferred for blocks, beside those preferred before. -/
def prefer (backlog : Backlog) (blocks : List BlockHash) (peer : PeerAddress) : Backlog :=
  { backlog with
    preferred := blocks.foldl (fun table block => noteIn table block peer) backlog.preferred }

def noteFailure (backlog : Backlog) (block : BlockHash) (peer : PeerAddress) (now : Timestamp) :
    Backlog :=
  { backlog with
    failures := backlog.failures.insert block ((backlog.failures.getD block ∅).insert peer now) }

def attemptsOn (backlog : Backlog) (block : BlockHash) : Nat :=
  backlog.attempts.getD block 0

/-- The counters are words of thirty-two bits, and none of them has run over. -/
def CountsFit (backlog : Backlog) : Prop :=
  ∀ block, backlog.attemptsOn block < UInt32.size

def isBegun (backlog : Backlog) (block : BlockHash) : Bool :=
  backlog.attempts.contains block

def hasBegun (backlog : Backlog) : Bool :=
  !backlog.attempts.isEmpty

def beginAttempt (backlog : Backlog) (block : BlockHash) : Backlog :=
  { backlog with attempts := backlog.attempts.insert block (backlog.attemptsOn block + 1) }

@[simp] theorem attemptsOn_beginAttempt_self (backlog : Backlog) (block : BlockHash) :
    (backlog.beginAttempt block).attemptsOn block = backlog.attemptsOn block + 1 := by
  simp [beginAttempt, attemptsOn]

theorem attemptsOn_beginAttempt_of_ne (backlog : Backlog) {block other : BlockHash}
    (h : other ≠ block) : (backlog.beginAttempt block).attemptsOn other = backlog.attemptsOn other := by
  unfold beginAttempt attemptsOn
  rw [Std.ExtTreeMap.getD_insert, if_neg fun same => h (Std.LawfulEqOrd.eq_of_compare same).symm]

/-- Forgets a block and everything about it: it was downloaded or cancelled. -/
def forget (backlog : Backlog) (block : BlockHash) : Backlog where
  queue := backlog.queue.erase block
  announcers := backlog.announcers.erase block
  reservations := backlog.reservations.erase block
  preferred := backlog.preferred.erase block
  failures := backlog.failures.erase block
  attempts := backlog.attempts.erase block

/-- Forgets the attempts and failures of a block that was discarded; announcements, reservations
and preferences stay for a later try. -/
def setAside (backlog : Backlog) (block : BlockHash) : Backlog :=
  { backlog with
    queue := backlog.queue.erase block
    failures := backlog.failures.erase block
    attempts := backlog.attempts.erase block }

/-! ## Handing out blocks -/

/-- What is known of a block when a peer is considered for it. -/
def claims (backlog : Backlog) (block : BlockHash) (candidate : PeerAddress) : Claims where
  announcers := backlog.announcers.getD block ∅
  reservedFor? := backlog.reservations[block]?
  preferred := backlog.preferred.getD block ∅
  lastFailure? := (backlog.failures.getD block ∅)[candidate]?

/-- What a peer asks the backlog for a block with. -/
structure Inquiry where
  rule : Eligibility
  candidate : PeerAddress
  pool : Pool
  /-- Whether only begun blocks are handed out. -/
  restricted : Bool
  now : Timestamp

def judge (backlog : Backlog) (inquiry : Inquiry) (block : BlockHash) : Verdict :=
  inquiry.rule.judge inquiry.candidate (backlog.claims block inquiry.candidate) inquiry.pool
    inquiry.restricted inquiry.now

/-- The blocks that are considered: all waiting ones, or in restricted mode the begun ones. -/
def considered (backlog : Backlog) (inquiry : Inquiry) : List BlockHash :=
  if inquiry.restricted then backlog.queue.filter backlog.isBegun else backlog.queue

/-- The answer to an inquiry: a block, or the reasons against each block considered. -/
inductive Answer where
  | assigned (block : BlockHash)
  | refused (refusals : List (BlockHash × Refusal))
  deriving DecidableEq

/-- The reasons against the blocks considered, in backlog order. -/
def refusals (backlog : Backlog) (inquiry : Inquiry) : List (BlockHash × Refusal) :=
  (backlog.considered inquiry).filterMap fun block =>
    match backlog.judge inquiry block with
    | .accepted => none
    | .refused reason => some (block, reason)

/-- Hands out the first block that the candidate gets, and takes it out of the queue. -/
def handOut (backlog : Backlog) (inquiry : Inquiry) : Answer × Backlog :=
  match (backlog.considered inquiry).find? fun block =>
      backlog.judge inquiry block = .accepted with
  | some block => (.assigned block, backlog.remove block)
  | none => (.refused (backlog.refusals inquiry), backlog)

end Backlog
end BlockFetch
