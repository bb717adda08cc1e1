import BlockFetch.Scheduler.Operation

/-!
# Stages of a block

Seven tables of the scheduler say something about a block, and the peers and the outbox say more.
This module reads all of it off a state as one `Standing` per block, and names the standings that
make sense: the stages of a block's life. That every block of every reachable state is in a stage
is what keeps the tables apart; it is proved where the operations are.

A block's story is the part of the outbox that is about its attempts.
-/
namespace BlockFetch

/-- Who has to do with a block whose attempt is under way. -/
inductive Custody where
  | held (peer : PeerAddress)
  /-- The block is in limbo, though a peer may still be sending it. -/
  | stalled (peer : PeerAddress)
  /-- The block is in limbo, and no peer is sending it. -/
  | adrift
  deriving DecidableEq

namespace Custody

def holder? : Custody → Option PeerAddress
  | held peer | stalled peer => some peer
  | adrift => none

def inLimbo : Custody → Bool
  | held _ => false
  | stalled _ | adrift => true

theorem eq_of_holder?_eq {first second : Custody} (holders : first.holder? = second.holder?)
    (limbo : first.inLimbo = second.inLimbo) : first = second := by
  cases first <;> cases second <;> simp_all [holder?, inLimbo]

end Custody

/-- What a state says about one block. -/
@[ext] structure Standing where
  /-- How often the block stands in the queue. -/
  waiting : Nat := 0
  heldBy : PeerAddress → Prop := fun _ => False
  inLimbo : Bool := false
  discardedAt? : Option Timestamp := none
  cancelling : Bool := false
  cancelled : Bool := false
  downloaded : Bool := false
  /-- Whether it is known when something was last heard of the block. -/
  watched : Bool := false
  attempts? : Option Nat := none

/-- The stages of a block's life. A block that waits has an attempt counter if it was attempted
before. -/
inductive Stage where
  | unknown
  | waiting (attempts? : Option Nat)
  | underway (custody : Custody) (attempts : Nat) (cancelling : Bool)
  | discarded (since : Timestamp)
  | cancelled
  | downloaded
  deriving DecidableEq

namespace Stage

def standing : Stage → Standing
  | unknown => {}
  | waiting attempts? => { waiting := 1, attempts? }
  | underway custody attempts cancelling =>
    { heldBy := fun peer => custody.holder? = some peer
      inLimbo := custody.inLimbo
      cancelling
      watched := true
      attempts? := some attempts }
  | discarded since => { discardedAt? := some since }
  | cancelled => { cancelled := true }
  | downloaded => { downloaded := true }

theorem standing_adrift (attempts : Nat) (cancelling : Bool) :
    (underway .adrift attempts cancelling).standing =
      { inLimbo := true, cancelling, watched := true, attempts? := some attempts } := by
  simp [standing, Custody.holder?, Custody.inLimbo]

def isUnderway : Stage → Bool
  | underway .. => true
  | _ => false

def isWaiting : Stage → Bool
  | waiting _ => true
  | _ => false

/-- A block that is under way when the session ends is cancelled if that was asked for, and waits
otherwise. -/
def atSessionEnd : Stage → Stage
  | underway _ attempts cancelling => if cancelling then cancelled else waiting (some attempts)
  | stage => stage

end Stage

/-- What can happen to a block in the course of its attempts. All but the return to the queue is
announced by an event. -/
inductive Milestone where
  | requested (peer : PeerAddress)
  | requeued
  | discarded
  | downloaded
  deriving DecidableEq

def NetworkEvent.milestone? (block : BlockHash) : NetworkEvent → Option Milestone
  | .blockRequested peer requested => if requested = block then some (.requested peer) else none
  | .blockDownloaded _ header _ _ => if header.hash = block then some .downloaded else none
  | .blockDiscarded discarded _ => if discarded = block then some .discarded else none
  | _ => none

namespace Scheduler

def blockAt? (s : Scheduler) (peer : PeerAddress) : Option BlockHash :=
  (s.peers[peer]?).bind Peer.block?

def standing (s : Scheduler) (block : BlockHash) : Standing where
  waiting := s.backlog.queue.count block
  heldBy := fun peer => s.blockAt? peer = some block
  inLimbo := s.limbo.contains block
  discardedAt? := s.discarded[block]?
  cancelling := s.cancelling.contains block
  cancelled := s.cancelled.contains block
  downloaded := s.downloaded.contains block
  watched := s.lastActivity.contains block
  attempts? := s.backlog.attempts[block]?

/-- A block is in a stage when all tables agree on it. -/
def InStage (s : Scheduler) (block : BlockHash) (stage : Stage) : Prop :=
  s.standing block = stage.standing

def AllPeers (s : Scheduler) (property : Peer → Prop) : Prop :=
  ∀ (peer : PeerAddress) record, s.peers[peer]? = some record → property record

/-- Every block is in a stage, and exactly the busy peers have a transfer. -/
structure Staged (s : Scheduler) : Prop where
  stage : ∀ block, ∃ stage, s.InStage block stage
  linked : s.AllPeers Peer.Linked

/-- What the outbox says about the attempts on a block, oldest first. -/
def story (s : Scheduler) (block : BlockHash) : List Milestone :=
  s.events.filterMap (NetworkEvent.milestone? block)

/-! ## Holders -/

theorem mem_holders {s : Scheduler} {block : BlockHash} {peer : PeerAddress} :
    peer ∈ s.holders block ↔ s.blockAt? peer = some block := by
  simp only [holders, blockAt?, List.mem_map, List.mem_filter, Prod.exists, decide_eq_true_eq,
    Std.ExtTreeMap.mem_toList_iff_getElem?_eq_some, Option.bind_eq_some_iff]
  constructor
  · rintro ⟨other, record, ⟨found, holds⟩, rfl⟩
    exact ⟨record, found, holds⟩
  · rintro ⟨record, found, holds⟩
    exact ⟨peer, record, ⟨found, holds⟩, rfl⟩

theorem blockAt?_congr {s t : Scheduler} (h : t.peers = s.peers) (peer : PeerAddress) :
    t.blockAt? peer = s.blockAt? peer := by
  rw [blockAt?, blockAt?, h]

theorem story_congr {s t : Scheduler} (h : t.outbox = s.outbox) (block : BlockHash) :
    t.story block = s.story block := by
  rw [story, story, events, events, h]

theorem isHeld_iff {s : Scheduler} {block : BlockHash} :
    s.isHeld block = true ↔ ∃ peer, s.blockAt? peer = some block := by
  simp only [isHeld, blockAt?, List.any_eq_true, Prod.exists, decide_eq_true_eq,
    Std.ExtTreeMap.mem_toList_iff_getElem?_eq_some, Option.bind_eq_some_iff]

theorem isInFlight_iff {s : Scheduler} {block : BlockHash} :
    s.isInFlight block = true ↔ (∃ peer, s.blockAt? peer = some block) ∨ block ∈ s.limbo := by
  simp [isInFlight, isHeld_iff]

/-! ## What a stage says -/

section

variable {s : Scheduler} {block : BlockHash} {stage : Stage}

theorem InStage.heldBy (h : s.InStage block stage) (peer : PeerAddress) :
    s.blockAt? peer = some block ↔ stage.standing.heldBy peer :=
  iff_of_eq (congrFun (congrArg Standing.heldBy h) peer)

theorem InStage.inLimbo (h : s.InStage block stage) :
    block ∈ s.limbo ↔ stage.standing.inLimbo = true := by
  rw [← Std.ExtTreeSet.contains_iff_mem]
  exact iff_of_eq (congrArg (fun standing => standing.inLimbo = true) h)

theorem InStage.count_queue (h : s.InStage block stage) :
    s.backlog.queue.count block = stage.standing.waiting :=
  congrArg Standing.waiting h

theorem InStage.unique {other : Stage} (h : s.InStage block stage) (h' : s.InStage block other) :
    stage = other := by
  have same : stage.standing = other.standing := h.symm.trans h'
  rw [Standing.ext_iff] at same
  obtain ⟨waiting, held, limbo, discarded, cancelling, cancelled, downloaded, watched, attempts⟩ :=
    same
  cases stage with
  | underway custody =>
    cases other with
    | underway custody' =>
      have holders : custody.holder? = custody'.holder? :=
        Option.ext fun peer => iff_of_eq (congrFun held peer)
      have custodies := Custody.eq_of_holder?_eq holders limbo
      simp_all [Stage.standing]
    | _ => simp [Stage.standing] at watched
  | _ => cases other <;> simp_all [Stage.standing]

/-- An attempt is under way exactly in the stages that say so. -/
theorem InStage.isInFlight (h : s.InStage block stage) :
    s.isInFlight block = stage.isUnderway := by
  rw [Bool.eq_iff_iff, isInFlight_iff, h.inLimbo]
  simp only [h.heldBy]
  rcases stage with _ | _ | ⟨_ | _ | _, _, _⟩ | _ | _ | _ <;>
    simp [Stage.standing, Stage.isUnderway, Custody.holder?, Custody.inLimbo]

theorem InStage.mem_queue (h : s.InStage block stage) :
    block ∈ s.backlog.queue ↔ stage.isWaiting = true := by
  rw [← List.one_le_count_iff, h.count_queue]
  cases stage <;> simp [Stage.standing, Stage.isWaiting]

theorem InStage.contains_cancelling (h : s.InStage block stage) :
    s.cancelling.contains block = stage.standing.cancelling :=
  congrArg Standing.cancelling h

theorem InStage.contains_cancelled (h : s.InStage block stage) :
    s.cancelled.contains block = stage.standing.cancelled :=
  congrArg Standing.cancelled h

theorem InStage.contains_downloaded (h : s.InStage block stage) :
    s.downloaded.contains block = stage.standing.downloaded :=
  congrArg Standing.downloaded h

theorem InStage.discarded (h : s.InStage block stage) :
    s.discarded[block]? = stage.standing.discardedAt? :=
  congrArg Standing.discardedAt? h

theorem InStage.contains_limbo (h : s.InStage block stage) :
    s.limbo.contains block = stage.standing.inLimbo :=
  congrArg Standing.inLimbo h

theorem InStage.contains_lastActivity (h : s.InStage block stage) :
    s.lastActivity.contains block = stage.standing.watched :=
  congrArg Standing.watched h

/-- Nothing is kept on when something was last heard of a block at rest. -/
theorem InStage.lastActivity_eq_none (h : s.InStage block stage)
    (rests : stage.isUnderway = false) : s.lastActivity[block]? = none := by
  rw [← Option.not_isSome_iff_eq_none, ← Std.ExtTreeMap.contains_eq_isSome_getElem?,
    h.contains_lastActivity]
  cases stage with
  | underway => exact nomatch rests
  | _ => exact nofun

theorem InStage.attempts (h : s.InStage block stage) :
    s.backlog.attempts[block]? = stage.standing.attempts? :=
  congrArg Standing.attempts? h

theorem InStage.isBegun (h : s.InStage block stage) :
    s.backlog.isBegun block = stage.standing.attempts?.isSome := by
  rw [Backlog.isBegun, Std.ExtTreeMap.contains_eq_isSome_getElem?, h.attempts]

end

/-! ## What a step leaves alone -/

/-- A step restores the link between the work of each peer and its transfer. -/
def KeepsLinks (s t : Scheduler) : Prop :=
  s.AllPeers Peer.Linked → t.AllPeers Peer.Linked

theorem KeepsLinks.trans {s t u : Scheduler} (first : KeepsLinks s t) (second : KeepsLinks t u) :
    KeepsLinks s u :=
  second ∘ first

theorem KeepsLinks.of_peers_eq {s t : Scheduler} (peers : t.peers = s.peers) : KeepsLinks s t :=
  fun linked peer record found => linked peer record (peers ▸ found)

theorem KeepsLinks.insert {s t : Scheduler} {peer : PeerAddress} {record : Peer}
    (peers : t.peers = s.peers.insert peer record)
    (link : s.AllPeers Peer.Linked → record.Linked) : KeepsLinks s t := by
  intro linked other found known
  rw [peers, Std.ExtTreeMap.getElem?_insert] at known
  split at known
  · cases known
    exact link linked
  · exact linked other found known

/-- A step left a block as it was. -/
structure Keeps (s t : Scheduler) (block : BlockHash) : Prop where
  standing : t.standing block = s.standing block
  story : t.story block = s.story block

theorem Keeps.trans {s t u : Scheduler} {block : BlockHash} (first : Keeps s t block)
    (second : Keeps t u block) : Keeps s u block :=
  ⟨second.standing.trans first.standing, second.story.trans first.story⟩

theorem Keeps.inStage {s t : Scheduler} {block : BlockHash} {stage : Stage}
    (keeps : Keeps s t block) (h : s.InStage block stage) : t.InStage block stage :=
  keeps.standing.trans h

theorem KeepsLinks.modify {s t : Scheduler} {peer : PeerAddress} {change : Peer → Peer}
    (peers : t.peers = s.peers.modify peer change)
    (link : ∀ record, record.Linked → (change record).Linked) : KeepsLinks s t := by
  intro linked other record found
  rw [peers, Std.ExtTreeMap.getElem?_modify] at found
  split at found
  · obtain ⟨before, known, rfl⟩ := Option.map_eq_some_iff.mp found
    exact link before (linked peer before known)
  · exact linked other record found

/-- A step changed nothing that is said about blocks, except perhaps which peers hold them. -/
structure SameBooks (s t : Scheduler) : Prop where
  links : KeepsLinks s t
  settings : t.settings = s.settings
  queue : t.backlog.queue = s.backlog.queue
  attempts : t.backlog.attempts = s.backlog.attempts
  limbo : t.limbo = s.limbo
  discarded : t.discarded = s.discarded
  cancelling : t.cancelling = s.cancelling
  cancelled : t.cancelled = s.cancelled
  downloaded : t.downloaded = s.downloaded
  watched : ∀ block, t.lastActivity.contains block = s.lastActivity.contains block
  retries : t.retries = s.retries
  story : ∀ block, t.story block = s.story block

namespace SameBooks

variable {s t u : Scheduler}

theorem of_links {peers : PeerMap Peer} (links : KeepsLinks s { s with peers }) :
    SameBooks s { s with peers } := by
  constructor
  case links => exact links
  all_goals intros; rfl

theorem refl (s : Scheduler) : SameBooks s s := of_links (.of_peers_eq rfl)

theorem trans (first : SameBooks s t) (second : SameBooks t u) : SameBooks s u where
  links := first.links.trans second.links
  settings := second.settings.trans first.settings
  queue := second.queue.trans first.queue
  attempts := second.attempts.trans first.attempts
  limbo := second.limbo.trans first.limbo
  discarded := second.discarded.trans first.discarded
  cancelling := second.cancelling.trans first.cancelling
  cancelled := second.cancelled.trans first.cancelled
  downloaded := second.downloaded.trans first.downloaded
  watched block := (second.watched block).trans (first.watched block)
  retries := second.retries.trans first.retries
  story block := (second.story block).trans (first.story block)

theorem of_tables (peers : t.peers = s.peers) (settings : t.settings = s.settings)
    (queue : t.backlog.queue = s.backlog.queue)
    (attempts : t.backlog.attempts = s.backlog.attempts) (limbo : t.limbo = s.limbo)
    (discarded : t.discarded = s.discarded) (cancelling : t.cancelling = s.cancelling)
    (cancelled : t.cancelled = s.cancelled) (downloaded : t.downloaded = s.downloaded)
    (lastActivity : t.lastActivity = s.lastActivity) (retries : t.retries = s.retries)
    (outbox : t.outbox = s.outbox) : SameBooks s t where
  links := .of_peers_eq peers
  settings := settings
  queue := queue
  attempts := attempts
  limbo := limbo
  discarded := discarded
  cancelling := cancelling
  cancelled := cancelled
  downloaded := downloaded
  watched _ := by rw [lastActivity]
  retries := retries
  story := story_congr outbox

theorem foldl {α : Type} {step : Scheduler → α → Scheduler}
    (h : ∀ s a, SameBooks s (step s a)) (items : List α) (s : Scheduler) :
    SameBooks s (items.foldl step s) := by
  induction items generalizing s with
  | nil => exact refl s
  | cons item rest ih => exact (h s item).trans (ih (step s item))

theorem standing (h : SameBooks s t) (block : BlockHash) :
    t.standing block =
      { s.standing block with heldBy := fun peer => t.blockAt? peer = some block } := by
  simp only [Scheduler.standing, h.queue, h.limbo, h.discarded, h.cancelling, h.cancelled,
    h.downloaded, h.watched, h.attempts]

/-- A block is left alone when also its holders stay the same. -/
theorem keeps (h : SameBooks s t) {block : BlockHash}
    (held : ∀ peer, t.blockAt? peer = some block ↔ s.blockAt? peer = some block) :
    Keeps s t block := by
  refine ⟨?_, h.story block⟩
  rw [h.standing, funext fun peer => propext (held peer)]
  rfl

end SameBooks

/-- A step left all blocks as they were. -/
structure Quiet (s t : Scheduler) : Prop extends SameBooks s t where
  held : ∀ peer, t.blockAt? peer = s.blockAt? peer

namespace Quiet

variable {s t u : Scheduler}

theorem refl (s : Scheduler) : Quiet s s := ⟨SameBooks.refl s, fun _ => rfl⟩

theorem trans (first : Quiet s t) (second : Quiet t u) : Quiet s u :=
  ⟨first.toSameBooks.trans second.toSameBooks,
    fun peer => (second.held peer).trans (first.held peer)⟩

theorem of_peers_eq (books : SameBooks s t) (peers : t.peers = s.peers) : Quiet s t :=
  ⟨books, blockAt?_congr peers⟩

theorem keeps (h : Quiet s t) (block : BlockHash) : Keeps s t block :=
  h.toSameBooks.keeps fun peer => by rw [h.held]

theorem staged (h : Quiet s t) (staged : s.Staged) : t.Staged where
  stage block := (staged.stage block).imp fun _ inStage => (h.keeps block).inStage inStage
  linked := h.links staged.linked

end Quiet

end Scheduler
end BlockFetch
