import BlockFetch.Scheduler.Operation

/-!
# Dossiers

The tables of the scheduler are kept per kind of fact. A dossier gathers what all of them hold on
one block, so that a step can be described by the dossier it revises and how. Only the order of the
waiting blocks is not part of it.
-/
namespace BlockFetch

attribute [ext] Backlog Journal Scheduler StreamTable

/-- What the tables hold on a block. -/
@[ext] structure Dossier where
  announcers? : Option PeerSet
  reservedFor? : Option PeerAddress
  preferred? : Option PeerSet
  failures? : Option (PeerMap Timestamp)
  attempts? : Option Nat
  inLimbo : Bool
  discardedAt? : Option Timestamp
  cancelling : Bool
  cancelled : Bool
  downloaded : Bool
  lastActivity? : Option Timestamp
  part? : Option PartialBlock
  entries? : Option (List JournalEntry)

namespace Dossier

/-- A note is taken, if the journal is switched on. -/
def noted (recording : Bool) (entry : JournalEntry) (dossier : Dossier) : Dossier :=
  if recording then { dossier with entries? := some (dossier.entries?.getD [] ++ [entry]) }
  else dossier

def announcedBy (peer : PeerAddress) (dossier : Dossier) : Dossier :=
  { dossier with announcers? := some ((dossier.announcers?.getD ∅).insert peer) }

def failedBy (peer : PeerAddress) (now : Timestamp) (dossier : Dossier) : Dossier :=
  { dossier with failures? := some ((dossier.failures?.getD ∅).insert peer now) }

def heardOf (now : Timestamp) (dossier : Dossier) : Dossier :=
  { dossier with lastActivity? := dossier.lastActivity?.map fun _ => now }

def ended (dossier : Dossier) : Dossier :=
  { dossier with inLimbo := false, lastActivity? := none, part? := none }

def forgotten (dossier : Dossier) : Dossier :=
  { dossier with
    announcers? := none
    reservedFor? := none
    preferred? := none
    failures? := none
    attempts? := none }

def givenUp (dossier : Dossier) : Dossier :=
  { dossier.forgotten with discardedAt? := none, cancelled := true }

def delivered (dossier : Dossier) : Dossier :=
  { dossier.ended.forgotten with discardedAt? := none, cancelling := false, downloaded := true }

def setAside (now : Timestamp) (dossier : Dossier) : Dossier :=
  { dossier with discardedAt? := some now, failures? := none, attempts? := none }

def begun (now : Timestamp) (dossier : Dossier) : Dossier :=
  { dossier with attempts? := some (dossier.attempts?.getD 0 + 1), lastActivity? := some now }

def stalled (now : Timestamp) (dossier : Dossier) : Dossier :=
  { dossier with inLimbo := true, lastActivity? := some now }

end Dossier

namespace Scheduler

def dossier (s : Scheduler) (block : BlockHash) : Dossier where
  announcers? := s.backlog.announcers[block]?
  reservedFor? := s.backlog.reservations[block]?
  preferred? := s.backlog.preferred[block]?
  failures? := s.backlog.failures[block]?
  attempts? := s.backlog.attempts[block]?
  inLimbo := s.limbo.contains block
  discardedAt? := s.discarded[block]?
  cancelling := s.cancelling.contains block
  cancelled := s.cancelled.contains block
  downloaded := s.downloaded.contains block
  lastActivity? := s.lastActivity[block]?
  part? := s.partials[block]?
  entries? := s.journal.entries[block]?

/-- A step revises the dossier of one block and leaves all other dossiers as they are. -/
def Revises (block : BlockHash) (revision : Dossier → Dossier) (s t : Scheduler) : Prop :=
  ∀ other, t.dossier other =
    if block = other then revision (s.dossier other) else s.dossier other

section

variable {s t u : Scheduler} {block : BlockHash} {first second : Dossier → Dossier}

theorem Revises.trans (head : Revises block first s t) (tail : Revises block second t u) :
    Revises block (second ∘ first) s u := by
  intro other
  rw [tail other, head other]
  split <;> rfl

theorem Revises.of_ne (h : Revises block first s t) {other : BlockHash}
    (different : block ≠ other) : t.dossier other = s.dossier other := by
  rw [h other, if_neg different]

end

/-! ## What the dossiers tell -/

section

variable {s t : Scheduler} {block : BlockHash}

theorem isUnwanted_eq_dossier (s : Scheduler) (block : BlockHash) :
    s.isUnwanted block = ((s.dossier block).cancelled || (s.dossier block).downloaded) := rfl

theorem attemptsOn_eq_dossier (s : Scheduler) (block : BlockHash) :
    s.backlog.attemptsOn block = (s.dossier block).attempts?.getD 0 := by
  rw [Backlog.attemptsOn, Std.ExtTreeMap.getD_eq_getD_getElem?]
  rfl

theorem isBegun_eq_dossier (s : Scheduler) (block : BlockHash) :
    s.backlog.isBegun block = (s.dossier block).attempts?.isSome :=
  Std.ExtTreeMap.contains_eq_isSome_getElem?

theorem claims_eq_dossier (s : Scheduler) (block : BlockHash) (candidate : PeerAddress) :
    s.backlog.claims block candidate =
      ⟨(s.dossier block).announcers?.getD ∅, (s.dossier block).reservedFor?,
        (s.dossier block).preferred?.getD ∅,
        ((s.dossier block).failures?.getD ∅)[candidate]?⟩ := by
  simp only [Backlog.claims, Std.ExtTreeMap.getD_eq_getD_getElem?]
  rfl

/-- The dossiers of all blocks, the order of the waiting ones, the peers, the streams and the
counters together make up the state. -/
theorem eq_of_dossier_eq (settings : t.settings = s.settings) (streams : t.streams = s.streams)
    (peers : t.peers = s.peers) (queue : t.backlog.queue = s.backlog.queue)
    (dossiers : ∀ block, t.dossier block = s.dossier block)
    (enabled : t.journal.enabled = s.journal.enabled)
    (retention : t.journal.retention = s.journal.retention)
    (clientPaused : t.clientPaused = s.clientPaused) (enoughPeers : t.enoughPeers = s.enoughPeers)
    (retries : t.retries = s.retries) (busyPercentage : t.busyPercentage = s.busyPercentage)
    (bandwidthRestricted : t.bandwidthRestricted = s.bandwidthRestricted)
    (refusals : t.refusals = s.refusals) (ticks : t.ticks = s.ticks)
    (outbox : t.outbox = s.outbox) : t = s := by
  have table : ∀ {α : Type} {after before : BlockMap α} (view : Dossier → Option α),
      (∀ block, view (t.dossier block) = after[block]?) →
      (∀ block, view (s.dossier block) = before[block]?) → after = before := by
    intro α after before view afterEq beforeEq
    refine Std.ExtTreeMap.ext_getElem? fun block => ?_
    rw [← afterEq, ← beforeEq, dossiers]
  have set : ∀ {after before : BlockSet} (view : Dossier → Bool),
      (∀ block, view (t.dossier block) = after.contains block) →
      (∀ block, view (s.dossier block) = before.contains block) → after = before := by
    intro after before view afterEq beforeEq
    refine Std.ExtTreeSet.ext_mem fun block => ?_
    rw [← Std.ExtTreeSet.contains_iff_mem, ← Std.ExtTreeSet.contains_iff_mem, ← afterEq,
      ← beforeEq, dossiers]
  have announcers := table Dossier.announcers? (fun _ => rfl) fun _ => rfl
  have reservations := table Dossier.reservedFor? (fun _ => rfl) fun _ => rfl
  have preferred := table Dossier.preferred? (fun _ => rfl) fun _ => rfl
  have failures := table Dossier.failures? (fun _ => rfl) fun _ => rfl
  have attempts := table Dossier.attempts? (fun _ => rfl) fun _ => rfl
  have discarded := table Dossier.discardedAt? (fun _ => rfl) fun _ => rfl
  have lastActivity := table Dossier.lastActivity? (fun _ => rfl) fun _ => rfl
  have partials := table Dossier.part? (fun _ => rfl) fun _ => rfl
  have entries := table Dossier.entries? (fun _ => rfl) fun _ => rfl
  have limbo := set Dossier.inLimbo (fun _ => rfl) fun _ => rfl
  have cancelling := set Dossier.cancelling (fun _ => rfl) fun _ => rfl
  have cancelled := set Dossier.cancelled (fun _ => rfl) fun _ => rfl
  have downloaded := set Dossier.downloaded (fun _ => rfl) fun _ => rfl
  exact Scheduler.ext settings streams peers
    (Backlog.ext queue announcers reservations preferred failures attempts) limbo discarded
    cancelling cancelled downloaded lastActivity partials (Journal.ext enabled retention entries)
    clientPaused enoughPeers retries busyPercentage bandwidthRestricted refusals ticks outbox

end

/-! ## Steps and the dossiers they revise -/

section

variable {s t : Scheduler} {block : BlockHash} {revision : Dossier → Dossier}

theorem Revises.intro (self : t.dossier block = revision (s.dossier block))
    (others : ∀ other, block ≠ other → t.dossier other = s.dossier other) :
    Revises block revision s t := by
  intro other
  split
  · rename_i same
    subst same
    exact self
  · rename_i different
    exact others other different

end

section

variable (s : Scheduler) (block : BlockHash) (now : Timestamp)

theorem revises_note (peer? : Option PeerAddress) (note : Note) :
    Revises block (Dossier.noted s.journal.enabled ⟨now, peer?, note⟩) s
      (s.note block peer? note now) := by
  cases recording : s.journal.enabled with
  | true =>
    refine .intro ?_ fun other different => ?_
    · simp [dossier, Dossier.noted, Scheduler.note, Journal.register, Journal.entriesOf, recording,
        Std.ExtTreeMap.getD_eq_getD_getElem?]
    · simp [dossier, Scheduler.note, Journal.register, recording, Std.ExtTreeMap.getElem?_insert,
        different]
  | false =>
    refine .intro ?_ fun other _ => ?_
    · simp [dossier, Dossier.noted, Scheduler.note, Journal.register, recording]
    · simp [dossier, Scheduler.note, Journal.register, recording]

theorem revises_noteFailure (peer : PeerAddress) :
    Revises block (Dossier.failedBy peer now) s (s.noteFailure block peer now) := by
  refine .intro ?_ fun other different => ?_
  · simp [dossier, Dossier.failedBy, noteFailure, Backlog.noteFailure,
      Std.ExtTreeMap.getD_eq_getD_getElem?]
  · simp [dossier, noteFailure, Backlog.noteFailure, Std.ExtTreeMap.getElem?_insert, different]

theorem revises_touch : Revises block (Dossier.heardOf now) s (s.touch block now) := by
  refine .intro ?_ fun other different => ?_
  · simp [dossier, Dossier.heardOf, touch]
  · simp [dossier, touch, Std.ExtTreeMap.getElem?_modify, different]

theorem revises_endAttempt : Revises block Dossier.ended s (s.endAttempt block) := by
  refine .intro ?_ fun other different => ?_
  · simp [dossier, Dossier.ended, endAttempt]
  · simp [dossier, endAttempt, Std.ExtTreeSet.contains_erase, Std.ExtTreeMap.getElem?_erase,
      different]

theorem revises_erasePartial :
    Revises block (fun dossier => { dossier with part? := none }) s
      { s with partials := s.partials.erase block } := by
  refine .intro ?_ fun other different => ?_
  · simp [dossier]
  · simp [dossier, Std.ExtTreeMap.getElem?_erase, different]

theorem revises_insertCancelling :
    Revises block (fun dossier => { dossier with cancelling := true }) s
      { s with cancelling := s.cancelling.insert block } := by
  refine .intro ?_ fun other different => ?_
  · simp [dossier]
  · simp [dossier, Std.ExtTreeSet.contains_insert, different]

theorem revises_eraseCancelling :
    Revises block (fun dossier => { dossier with cancelling := false }) s
      { s with cancelling := s.cancelling.erase block } := by
  refine .intro ?_ fun other different => ?_
  · simp [dossier]
  · simp [dossier, Std.ExtTreeSet.contains_erase, different]

theorem revises_eraseActivity :
    Revises block (fun dossier => { dossier with lastActivity? := none }) s
      { s with lastActivity := s.lastActivity.erase block } := by
  refine .intro ?_ fun other different => ?_
  · simp [dossier]
  · simp [dossier, Std.ExtTreeMap.getElem?_erase, different]

theorem revises_noteAnnouncement (peer : PeerAddress) :
    Revises block (Dossier.announcedBy peer) s
      { s with backlog := s.backlog.noteAnnouncement block peer } := by
  refine .intro ?_ fun other different => ?_
  · simp [dossier, Dossier.announcedBy, Backlog.noteAnnouncement, Backlog.noteIn,
      Std.ExtTreeMap.getD_eq_getD_getElem?]
  · simp [dossier, Backlog.noteAnnouncement, Backlog.noteIn, Std.ExtTreeMap.getElem?_insert,
      different]

theorem revises_markCancelled :
    Revises block (Dossier.noted s.journal.enabled ⟨now, none, .cancelled⟩ ∘ Dossier.givenUp) s
      (s.markCancelled block now) := by
  have given : Revises block Dossier.givenUp s { s with
      backlog := s.backlog.forget block
      discarded := s.discarded.erase block
      cancelled := s.cancelled.insert block } := by
    refine .intro ?_ fun other different => ?_
    · simp [dossier, Dossier.givenUp, Dossier.forgotten, Backlog.forget]
    · simp [dossier, Backlog.forget, Std.ExtTreeSet.contains_insert, Std.ExtTreeMap.getElem?_erase,
        different]
  exact given.trans (revises_note _ block now none .cancelled)

/-- A block that is queued again is known as before. -/
theorem revises_requeue :
    Revises block (Dossier.noted s.journal.enabled ⟨now, none, .queuedAgain⟩) s
      (s.requeue block now) :=
  revises_note { s with backlog := s.backlog.prepend [block], retries := s.retries + 1 } block now
    none .queuedAgain

theorem revises_discardBlock :
    Revises block
      (Dossier.noted s.journal.enabled ⟨now, none, .discarded (s.backlog.attemptsOn block)⟩ ∘
        Dossier.setAside now) s (s.discardBlock block now) := by
  have aside : Revises block (Dossier.setAside now) s { s with
      backlog := s.backlog.setAside block
      discarded := s.discarded.insert block now } := by
    refine .intro ?_ fun other different => ?_
    · simp [dossier, Dossier.setAside, Backlog.setAside]
    · simp [dossier, Backlog.setAside, Std.ExtTreeMap.getElem?_insert,
        Std.ExtTreeMap.getElem?_erase, different]
  have noted := aside.trans
    (revises_note _ block now none (.discarded (s.backlog.attemptsOn block)))
  exact noted

theorem revises_markDownloaded : Revises block Dossier.delivered s (s.markDownloaded block) := by
  refine .intro ?_ fun other different => ?_
  · simp [dossier, Dossier.delivered, Dossier.ended, Dossier.forgotten, markDownloaded, endAttempt,
      Backlog.forget]
  · simp [dossier, markDownloaded, endAttempt, Backlog.forget, Std.ExtTreeSet.contains_insert,
      Std.ExtTreeSet.contains_erase, Std.ExtTreeMap.getElem?_erase, different]

theorem revises_clearJournal :
    Revises block (fun dossier => { dossier with entries? := none }) s
      { s with journal := s.journal.clear block } := by
  refine .intro ?_ fun other different => ?_
  · simp [dossier, Journal.clear]
  · simp [dossier, Journal.clear, Std.ExtTreeMap.getElem?_erase, different]

theorem revises_moveToLimbo (peer : PeerAddress) (stall : Stall) :
    Revises block
      (Dossier.noted s.journal.enabled ⟨now, some peer, .stalled stall⟩ ∘
        Dossier.failedBy peer now ∘ Dossier.stalled now) s
      (s.moveToLimbo peer block stall now) := by
  have entered : Revises block (Dossier.stalled now) s { s with
      limbo := s.limbo.insert block
      lastActivity := s.lastActivity.insert block now } := by
    refine .intro ?_ fun other different => ?_
    · simp [dossier, Dossier.stalled]
    · simp [dossier, Std.ExtTreeSet.contains_insert, Std.ExtTreeMap.getElem?_insert, different]
  exact (entered.trans (revises_noteFailure _ block now peer)).trans
    (revises_note _ block now (some peer) (.stalled stall))

theorem revises_assign (peer : PeerAddress) :
    Revises block
      (Dossier.noted s.journal.enabled
          ⟨now, some peer, .requested (s.backlog.attemptsOn block + 1)⟩ ∘
        Dossier.begun now) s (s.assign peer block now) := by
  have began : Revises block (Dossier.begun now) s { s with
      backlog := s.backlog.beginAttempt block
      lastActivity := s.lastActivity.insert block now } := by
    refine .intro ?_ fun other different => ?_
    · simp [dossier, Dossier.begun, Backlog.beginAttempt, Backlog.attemptsOn,
        Std.ExtTreeMap.getD_eq_getD_getElem?]
    · simp [dossier, Backlog.beginAttempt, Std.ExtTreeMap.getElem?_insert, different]
  have noted := began.trans (revises_note _ block now (some peer)
    (.requested ((s.backlog.beginAttempt block).attemptsOn block)))
  rw [← Backlog.attemptsOn_beginAttempt_self]
  exact noted

end
end Scheduler
end BlockFetch
