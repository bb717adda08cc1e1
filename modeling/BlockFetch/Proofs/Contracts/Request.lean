import BlockFetch.Proofs.Dossier
import BlockFetch.Proofs.Lifecycle.QueueOrder
import BlockFetch.Proofs.Lifecycle.Repetition
import BlockFetch.Proofs.Scan.Reservation

/-!
# Requests of clients

What a request for blocks does, in whatever state it comes. Its blocks wait or are under way
afterwards, and they are free of all former ends. A request that is made again does nothing more,
and a request takes back the wish to cancel blocks whose attempts are under way.
-/
namespace BlockFetch

/-- A note concerns the entries of its block only. -/
theorem Journal.register_eq (journal : Journal) (block : BlockHash) (peer? : Option PeerAddress)
    (note : Note) (now : Timestamp) :
    ∃ entries, journal.register block peer? note now = { journal with entries } ∧
      ∀ other, other ≠ block → entries[other]? = journal.entries[other]? := by
  unfold register
  split
  · refine ⟨_, rfl, fun other different => ?_⟩
    rw [Std.ExtTreeMap.getElem?_insert, if_neg]
    exact fun same => different (Std.LawfulEqOrd.eq_of_compare same).symm
  · exact ⟨journal.entries, rfl, fun _ _ => rfl⟩

namespace Backlog

/-- Marks blocks as a request wants them to be handed out. -/
def earmark (backlog : Backlog) (request : FetchRequest) (blocks : List BlockHash) : Backlog :=
  let backlog := match request.exclusiveTo? with
    | some peer => backlog.reserve blocks peer
    | none => backlog
  match request.preferred? with
  | some peer => backlog.prefer blocks peer
  | none => backlog

variable {backlog : Backlog} {request : FetchRequest} {blocks : List BlockHash}
  {block : BlockHash} {peer : PeerAddress}

theorem getElem?_foldl_noteIn (blocks : List BlockHash) (peer : PeerAddress)
    (table : BlockMap PeerSet) (block : BlockHash) :
    (blocks.foldl (fun table block => noteIn table block peer) table)[block]? =
      if block ∈ blocks then some ((table[block]?.getD ∅).insert peer) else table[block]? := by
  induction blocks generalizing table with
  | nil => simp
  | cons first rest ih =>
    have step : (noteIn table first peer)[block]? =
        if first = block then some ((table[block]?.getD ∅).insert peer) else table[block]? := by
      rw [noteIn, Std.ExtTreeMap.getElem?_insert, Std.ExtTreeMap.getD_eq_getD_getElem?]
      by_cases here : first = block <;> simp [here]
    have twice : ((table[block]?.getD ∅).insert peer).insert peer =
        (table[block]?.getD ∅).insert peer :=
      insert_eq_self_of_mem Std.ExtTreeSet.mem_insert_self
    rw [List.foldl_cons, ih, step]
    by_cases here : first = block
    · simp [here, twice]
    · simp [here, Ne.symm here]

theorem reserve_reserve (backlog : Backlog) (blocks : List BlockHash) (peer : PeerAddress) :
    (backlog.reserve blocks peer).reserve blocks peer = backlog.reserve blocks peer := by
  refine congrArg (fun reservations => { backlog with reservations }) ?_
  refine Std.ExtTreeMap.ext_getElem? fun block => ?_
  simp only [reserve, Scheduler.getElem?_foldl_insert]
  split <;> rfl

theorem prefer_prefer (backlog : Backlog) (blocks : List BlockHash) (peer : PeerAddress) :
    (backlog.prefer blocks peer).prefer blocks peer = backlog.prefer blocks peer := by
  refine congrArg (fun preferred => { backlog with preferred }) ?_
  refine Std.ExtTreeMap.ext_getElem? fun block => ?_
  simp only [prefer, getElem?_foldl_noteIn]
  split
  · rw [Option.getD_some, insert_eq_self_of_mem Std.ExtTreeSet.mem_insert_self]
  · rfl

theorem earmark_earmark (backlog : Backlog) (request : FetchRequest) (blocks : List BlockHash) :
    (backlog.earmark request blocks).earmark request blocks = backlog.earmark request blocks := by
  unfold earmark
  cases request.exclusiveTo? with
  | none =>
    cases request.preferred? with
    | none => rfl
    | some peer => exact prefer_prefer backlog blocks peer
  | some owner =>
    have reserved := reserve_reserve backlog blocks owner
    cases request.preferred? with
    | none => exact reserved
    | some peer =>
      -- Preferences do not touch reservations, so the two kinds of marks can be told apart.
      have apart : ∀ backlog : Backlog, (backlog.prefer blocks peer).reserve blocks owner =
          (backlog.reserve blocks owner).prefer blocks peer := fun _ => rfl
      dsimp only
      rw [apart, reserved, prefer_prefer]

/-- Where blocks wait has no influence on how they are marked. -/
theorem earmark_add (backlog : Backlog) (request : FetchRequest) (blocks added : List BlockHash)
    (priority : Bool) :
    (backlog.add added priority).earmark request blocks =
      (backlog.earmark request blocks).add added priority := by
  cases priority <;> unfold earmark <;> cases request.exclusiveTo? <;>
    cases request.preferred? <;> rfl

/-- The marks of all other blocks stay as they are. -/
theorem earmark_eq (backlog : Backlog) (request : FetchRequest) (blocks : List BlockHash) :
    ∃ reservations preferred,
      backlog.earmark request blocks = { backlog with reservations, preferred } ∧
      ∀ block, block ∉ blocks → reservations[block]? = backlog.reservations[block]? ∧
        preferred[block]? = backlog.preferred[block]? := by
  have reserved : ∀ peer block, block ∉ blocks →
      (backlog.reserve blocks peer).reservations[block]? = backlog.reservations[block]? :=
    fun peer block away => (Scheduler.getElem?_foldl_insert ..).trans (if_neg away)
  have preferred : ∀ peer block, block ∉ blocks →
      (backlog.prefer blocks peer).preferred[block]? = backlog.preferred[block]? :=
    fun peer block away => (getElem?_foldl_noteIn ..).trans (if_neg away)
  unfold earmark
  cases request.exclusiveTo? with
  | none =>
    cases request.preferred? with
    | none => exact ⟨_, _, rfl, fun _ _ => ⟨rfl, rfl⟩⟩
    | some peer => exact ⟨_, _, rfl, fun block away => ⟨rfl, preferred peer block away⟩⟩
  | some owner =>
    cases request.preferred? with
    | none => exact ⟨_, _, rfl, fun block away => ⟨reserved owner block away, rfl⟩⟩
    | some peer =>
      exact ⟨_, _, rfl, fun block away =>
        ⟨reserved owner block away, preferred peer block away⟩⟩

theorem add_eq (backlog : Backlog) (blocks : List BlockHash) (priority : Bool) :
    backlog.add blocks priority =
      { backlog with queue := (backlog.add blocks priority).queue } := by
  cases priority <;> rfl

theorem add_nil (backlog : Backlog) (priority : Bool) : backlog.add [] priority = backlog := by
  cases priority <;> rfl

/-- Blocks that do not wait yet stand together at one end of the queue when they are added. -/
theorem exists_queue_add (backlog : Backlog) (distinct : backlog.queue.Nodup)
    {blocks : List BlockHash} (new : ∀ block ∈ blocks, block ∉ backlog.queue) (priority : Bool) :
    ∃ added, (backlog.add blocks priority).queue =
        (if priority then added ++ backlog.queue else backlog.queue ++ added) ∧
      added.Nodup ∧ ∀ block, block ∈ added ↔ block ∈ blocks := by
  cases priority with
  | true =>
    refine ⟨_, foldr_pushFront blocks backlog.queue, (List.nodup_dedup blocks).filter _,
      fun block => ?_⟩
    simpa using new block
  | false =>
    have once := nodup_queue_add distinct blocks false
    change (blocks.foldl pushBack backlog.queue).Nodup at once
    rw [foldl_pushBack] at once
    refine ⟨_, foldl_pushBack blocks backlog.queue, (List.nodup_append.mp once).2.1,
      fun block => ?_⟩
    simpa using new block

end Backlog

namespace Scheduler

/-- Nothing stands against a block: it is not there yet, and nobody has put an end to it or wants
to. -/
structure IsOpen (s : Scheduler) (block : BlockHash) : Prop where
  downloaded : block ∉ s.downloaded
  discarded : block ∉ s.discarded
  cancelled : block ∉ s.cancelled
  cancelling : block ∉ s.cancelling

/-- The blocks that a request brings into the queue. -/
def newcomers (s : Scheduler) (request : FetchRequest) : List BlockHash :=
  (s.accepted request).filter fun block => !s.isInFlight block && !s.backlog.contains block

variable {s t : Scheduler} {request : FetchRequest} {blocks : List BlockHash} {block : BlockHash}
  {now : Timestamp}

theorem foldl_note_eq (blocks : List BlockHash) (note : Note) (now : Timestamp) (s : Scheduler) :
    ∃ entries, blocks.foldl (fun s block => s.note block none note now) s =
        { s with journal := { s.journal with entries } } ∧
      ∀ other, other ∉ blocks → entries[other]? = s.journal.entries[other]? := by
  induction blocks generalizing s with
  | nil => exact ⟨s.journal.entries, rfl, fun _ _ => rfl⟩
  | cons first rest ih =>
    obtain ⟨early, registered, others⟩ := s.journal.register_eq first none note now
    obtain ⟨entries, shape, kept⟩ := ih (s.note first none note now)
    have noted : s.note first none note now =
        { s with journal := { s.journal with entries := early } } := by
      rw [Scheduler.note, registered]
    rw [noted] at shape kept
    refine ⟨entries, ?_, fun other away => ?_⟩
    · rw [List.foldl_cons, noted, shape]
    · have unchanged := others other (List.ne_of_not_mem_cons away)
      exact (kept other (List.not_mem_of_not_mem_cons away)).trans unchanged

theorem download_eq_earmark (s : Scheduler) (request : FetchRequest) (now : Timestamp) :
    ∃ entries, s.download request now =
        { s.reopen (s.accepted request) with
          journal := { s.journal with entries }
          backlog := (s.backlog.earmark request (s.accepted request)).add (s.newcomers request)
            request.priority } ∧
      ∀ other, other ∉ s.newcomers request → entries[other]? = s.journal.entries[other]? := by
  obtain ⟨entries, shape, kept⟩ :=
    foldl_note_eq (s.newcomers request) .queued now (s.reopen (s.accepted request))
  refine ⟨entries, ?_, kept⟩
  unfold download
  extract_lets accepted added reopened noted reserved preferred
  have step : noted = { reopened with journal := { s.journal with entries } } := shape
  have marked : preferred = s.backlog.earmark request accepted := by
    simp only [preferred, reserved, step]
    rfl
  rw [marked, step]
  rfl

/-! ## What a request leaves behind -/

/-- A step met a request, and did nothing else. -/
structure Meets (s t : Scheduler) (request : FetchRequest) : Prop where
  live : ∀ block ∈ request.blocks, request.force = true ∨ block ∉ s.downloaded →
    (t.IsAt block .backlog ∨ t.IsAt block .inFlight) ∧ t.IsOpen block
  /-- A block that is not named, or is there already and not insisted on, is left alone. -/
  spared : ∀ block, (block ∈ request.blocks → request.force = false ∧ block ∈ s.downloaded) →
    t.dossier block = s.dossier block
  queue : ∃ added, t.backlog.queue =
      (if request.priority then added ++ s.backlog.queue else s.backlog.queue ++ added) ∧
    added.Nodup ∧
    ∀ block, block ∈ added ↔ block ∈ request.blocks ∧
      (request.force = true ∨ block ∉ s.downloaded) ∧
      ¬ s.IsAt block .backlog ∧ ¬ s.IsAt block .inFlight
  peers : t.peers = s.peers
  limbo : t.limbo = s.limbo
  attempts : t.backlog.attempts = s.backlog.attempts
  announcers : t.backlog.announcers = s.backlog.announcers
  failures : t.backlog.failures = s.backlog.failures
  lastActivity : t.lastActivity = s.lastActivity
  partials : t.partials = s.partials
  outbox : t.outbox = s.outbox

theorem dossier_reopen (s : Scheduler) (blocks : List BlockHash) (block : BlockHash) :
    (s.reopen blocks).dossier block =
      if block ∈ blocks then
        { s.dossier block with
          discardedAt? := none, cancelling := false, cancelled := false, downloaded := false }
      else s.dossier block := by
  by_cases named : block ∈ blocks <;> cases kept : s.discarded[block]? <;>
    simp [dossier, reopen, BlockSet.contains_filter, named, kept]

theorem isOpen_iff :
    s.IsOpen block ↔ (s.dossier block).downloaded = false ∧ (s.dossier block).discardedAt? = none ∧
      (s.dossier block).cancelled = false ∧ (s.dossier block).cancelling = false := by
  have absent : s.discarded[block]? = none ↔ block ∉ s.discarded := by
    rw [← Std.ExtTreeMap.isSome_getElem?_iff_mem, Option.not_isSome_iff_eq_none]
  simp only [dossier, absent, ← Bool.not_eq_true, Std.ExtTreeSet.contains_iff_mem]
  constructor
  · exact fun h => ⟨h.downloaded, h.discarded, h.cancelled, h.cancelling⟩
  · rintro ⟨downloaded, discarded, cancelled, cancelling⟩
    exact ⟨downloaded, discarded, cancelled, cancelling⟩

theorem isOpen_reopen (s : Scheduler) (named : block ∈ blocks) :
    (s.reopen blocks).IsOpen block := by
  rw [isOpen_iff, dossier_reopen, if_pos named]
  exact ⟨rfl, rfl, rfl, rfl⟩

/-- An open block has no former end that it could be made to forget. -/
theorem IsOpen.dossier_eq (h : s.IsOpen block) :
    { s.dossier block with
      discardedAt? := none, cancelling := false, cancelled := false, downloaded := false } =
      s.dossier block := by
  obtain ⟨downloaded, discarded, cancelled, cancelling⟩ := isOpen_iff.mp h
  exact Dossier.ext rfl rfl rfl rfl rfl rfl discarded.symm cancelling.symm cancelled.symm
    downloaded.symm rfl rfl rfl

theorem InStage.isOpen {stage : Stage} (h : s.InStage block stage)
    (flies : s.isInFlight block = true) (wanted : block ∉ s.cancelling) : s.IsOpen block := by
  rw [h.isInFlight] at flies
  have unmarked : (s.dossier block).cancelling = false := eq_false_of_ne_true wanted
  cases stage with
  | underway =>
    exact isOpen_iff.mpr ⟨h.contains_downloaded, h.discarded, h.contains_cancelled, unmarked⟩
  | _ => exact nomatch flies

theorem dossier_download_of_not_mem (spared : block ∉ s.accepted request) (now : Timestamp) :
    (s.download request now).dossier block = s.dossier block := by
  obtain ⟨entries, shape, noted⟩ := download_eq_earmark s request now
  obtain ⟨reservations, preferred, marked, others⟩ :=
    s.backlog.earmark_eq request (s.accepted request)
  have silent : entries[block]? = s.journal.entries[block]? :=
    noted block fun member => spared (List.mem_of_mem_filter member)
  have reopened : (s.reopen (s.accepted request)).dossier block = s.dossier block :=
    (dossier_reopen ..).trans (if_neg spared)
  rw [shape, marked, Backlog.add_eq, ← reopened]
  exact Dossier.ext rfl (others block spared).1 (others block spared).2 rfl rfl rfl rfl rfl rfl rfl
    rfl rfl silent

/-- The blocks that a request brings up are those that are not there or are insisted on. -/
theorem mem_accepted_iff :
    block ∈ s.accepted request ↔
      block ∈ request.blocks ∧ (request.force = true ∨ block ∉ s.downloaded) := by
  rw [mem_accepted, ← Bool.not_eq_true, Std.ExtTreeSet.contains_iff_mem]

theorem mem_newcomers :
    block ∈ s.newcomers request ↔
      block ∈ s.accepted request ∧ ¬ s.isInFlight block = true ∧ block ∉ s.backlog.queue :=
  mem_added

theorem Staged.meets_download (staged : s.Staged) (request : FetchRequest) (now : Timestamp) :
    Meets s (s.download request now) request := by
  obtain ⟨entries, shape, -⟩ := download_eq_earmark s request now
  obtain ⟨reservations, preferred, marked, -⟩ :=
    s.backlog.earmark_eq request (s.accepted request)
  rw [marked, Backlog.add_eq] at shape
  have queue : (s.download request now).backlog.queue =
      (s.backlog.add (s.newcomers request) request.priority).queue := by
    rw [shape]
    cases request.priority <;> rfl
  constructor
  case live =>
    intro block named missing
    have accepted : block ∈ s.accepted request := mem_accepted_iff.mpr ⟨named, missing⟩
    have opened := isOpen_reopen s accepted
    refine ⟨?_, ?_⟩
    · by_cases flies : s.isInFlight block = true
      · right
        rw [shape]
        exact isInFlight_iff.mp flies
      · left
        rw [IsAt, queue, Backlog.mem_queue_add, mem_newcomers]
        by_cases queued : block ∈ s.backlog.queue
        · exact .inr queued
        · exact .inl ⟨accepted, flies, queued⟩
    · rw [shape]
      exact ⟨opened.downloaded, opened.discarded, opened.cancelled, opened.cancelling⟩
  case spared =>
    intro block unasked
    refine dossier_download_of_not_mem (fun accepted => ?_) now
    obtain ⟨named, insisted | missing⟩ := mem_accepted_iff.mp accepted
    · exact Bool.noConfusion ((unasked named).1.symm.trans insisted)
    · exact missing (unasked named).2
  case queue =>
    have new : ∀ block ∈ s.newcomers request, block ∉ s.backlog.queue :=
      fun block member => (mem_newcomers.mp member).2.2
    obtain ⟨added, whole, once, same⟩ :=
      s.backlog.exists_queue_add staged.nodup_queue new request.priority
    refine ⟨added, queue.trans whole, once, fun block => ?_⟩
    rw [same, mem_newcomers, mem_accepted_iff, isInFlight_iff]
    simp only [IsAt]
    tauto
  all_goals simp only [shape, reopen]

/-! ## The same request once more -/

theorem accepted_download (s : Scheduler) (request : FetchRequest) (now : Timestamp) :
    (s.download request now).accepted request = s.accepted request := by
  refine List.filter_congr fun block named => ?_
  rw [(isUnwanted_download s request now block).2]
  cases force : request.force with
  | true => rfl
  | false =>
    cases there : s.downloaded.contains block with
    | false => rfl
    | true =>
      have declined : (s.accepted request).contains block = false := by
        rw [← Bool.not_eq_true, List.contains_iff_mem, mem_accepted, force, there]
        simp
      rw [declined]
      rfl

/-- If a wish to cancel is all that stands against some blocks, nothing but this is taken back. -/
theorem reopen_marked {cancelling : BlockSet} (opened : ∀ block ∈ blocks, s.IsOpen block)
    (others : ∀ block, block ∉ blocks →
      cancelling.contains block = s.cancelling.contains block) :
    { s with cancelling }.reopen blocks = s := by
  refine eq_of_dossier_eq rfl rfl rfl rfl (fun block => ?_) rfl rfl rfl rfl rfl rfl rfl rfl rfl rfl
  rw [dossier_reopen]
  by_cases named : block ∈ blocks
  · rw [if_pos named]
    exact (opened block named).dossier_eq
  · rw [if_neg named]
    exact Dossier.ext rfl rfl rfl rfl rfl rfl rfl (others block named) rfl rfl rfl rfl rfl

theorem reopen_eq_self (opened : ∀ block ∈ blocks, s.IsOpen block) : s.reopen blocks = s :=
  reopen_marked opened fun _ _ => rfl

/-- A request changes nothing if its blocks are open, marked as it wants, and none is new. -/
theorem download_eq_self (opened : ∀ block ∈ s.accepted request, s.IsOpen block)
    (settled : s.newcomers request = [])
    (marked : s.backlog.earmark request (s.accepted request) = s.backlog) (now : Timestamp) :
    s.download request now = s := by
  obtain ⟨entries, shape, kept⟩ := download_eq_earmark s request now
  have silent : entries = s.journal.entries :=
    Std.ExtTreeMap.ext_getElem? fun block => kept block (by simp [settled])
  rw [shape, reopen_eq_self opened, settled, marked, Backlog.add_nil, silent]

theorem Staged.download_download (staged : s.Staged) (request : FetchRequest) (now : Timestamp) :
    (s.download request now).download request now = s.download request now := by
  have met := staged.meets_download request now
  have accepted := accepted_download s request now
  have live : ∀ block ∈ (s.download request now).accepted request, _ := fun block again =>
    have ⟨named, wanted⟩ := mem_accepted_iff.mp (accepted ▸ again)
    met.live block named wanted
  refine download_eq_self (fun block again => (live block again).2) ?_ ?_ now
  · refine List.eq_nil_iff_forall_not_mem.mpr fun block new => ?_
    obtain ⟨again, rests, away⟩ := mem_newcomers.mp new
    exact (live block again).1.elim away fun flies => rests (isInFlight_iff.mpr flies)
  · obtain ⟨entries, shape, -⟩ := download_eq_earmark s request now
    have backlog := congrArg Scheduler.backlog shape
    rw [accepted, backlog]
    exact (Backlog.earmark_add ..).trans
      (congrArg (·.add (s.newcomers request) request.priority) (Backlog.earmark_earmark ..))

/-! ## A request after a cancellation -/

/-- As long as its attempts are under way, a block that is cancelled is only marked. -/
theorem cancel_eq (flying : ∀ block ∈ blocks, s.isInFlight block = true ∧ ¬ s.isUnwanted block)
    (now : Timestamp) :
    ∃ cancelling entries,
      s.cancel blocks now = { s with cancelling, journal := { s.journal with entries } } ∧
      ∀ block, block ∉ blocks → cancelling.contains block = s.cancelling.contains block ∧
        entries[block]? = s.journal.entries[block]? := by
  unfold cancel
  induction blocks generalizing s with
  | nil => exact ⟨_, _, rfl, fun _ _ => ⟨rfl, rfl⟩⟩
  | cons first rest ih =>
    obtain ⟨⟨flies, wanted⟩, later⟩ := List.forall_mem_cons.mp flying
    obtain ⟨early, registered, others⟩ := s.journal.register_eq first none .cancelAsked now
    have step : cancelBlock now s first =
        { s with
          cancelling := s.cancelling.insert first
          journal := { s.journal with entries := early } } := by
      rw [cancelBlock, if_neg wanted, if_pos flies, note, registered]
    obtain ⟨cancelling, entries, shape, kept⟩ := ih (s := cancelBlock now s first) (step ▸ later)
    rw [step] at shape kept
    refine ⟨cancelling, entries, ?_, fun block away => ?_⟩
    · rw [List.foldl_cons, step, shape]
    · have different := List.ne_of_not_mem_cons away
      obtain ⟨marked, noted⟩ := kept block (List.not_mem_of_not_mem_cons away)
      refine ⟨marked.trans ?_, noted.trans (others block different)⟩
      rw [Std.ExtTreeSet.contains_insert]
      simp [Ne.symm different]

/-- A request for the blocks whose cancellation was asked for takes this wish back. -/
theorem Staged.download_cancel (staged : s.Staged)
    (same : ∀ block, block ∈ blocks ↔ block ∈ request.blocks)
    (flying : ∀ block ∈ blocks, s.IsAt block .inFlight ∧ block ∉ s.cancelling)
    (earlier now : Timestamp) :
    ∃ entries, (s.cancel blocks earlier).download request now =
        { s with
          journal := { s.journal with entries }
          backlog := s.backlog.earmark request request.blocks } ∧
      ∀ block, block ∉ blocks → entries[block]? = s.journal.entries[block]? := by
  have flies : ∀ block ∈ request.blocks, s.isInFlight block = true :=
    fun block named => isInFlight_iff.mpr (flying block ((same block).mpr named)).1
  have opened : ∀ block ∈ request.blocks, s.IsOpen block := fun block named =>
    have ⟨_, inStage⟩ := staged.stage block
    inStage.isOpen (flies block named) (flying block ((same block).mpr named)).2
  have wanted : ∀ block ∈ blocks, s.isInFlight block = true ∧ ¬ s.isUnwanted block := by
    intro block member
    have named := (same block).mp member
    refine ⟨flies block named, ?_⟩
    simp [isUnwanted, (opened block named).cancelled, (opened block named).downloaded]
  obtain ⟨cancelling, early, marked, others⟩ := cancel_eq wanted earlier
  rw [marked]
  generalize cancelled : { s with cancelling, journal := { s.journal with entries := early } } = t
  have accepted : t.accepted request = request.blocks := by
    refine List.filter_eq_self.mpr fun block named => ?_
    rw [Bool.or_eq_true, Bool.not_eq_true', ← Bool.not_eq_true, Std.ExtTreeSet.contains_iff_mem]
    exact .inr (cancelled ▸ (opened block named).downloaded)
  have settled : t.newcomers request = [] := by
    refine List.eq_nil_iff_forall_not_mem.mpr fun block new => ?_
    obtain ⟨member, rests, -⟩ := mem_newcomers.mp new
    exact rests (cancelled ▸ flies block (accepted ▸ member))
  have reopened : t.reopen request.blocks =
      { s with journal := { s.journal with entries := early } } := by
    have free : ∀ block ∈ request.blocks,
        IsOpen { s with journal := { s.journal with entries := early } } block :=
      fun block named => ⟨(opened block named).downloaded, (opened block named).discarded,
        (opened block named).cancelled, (opened block named).cancelling⟩
    subst cancelled
    exact reopen_marked free fun block unnamed => (others block (mt (same block).mp unnamed)).1
  obtain ⟨entries, shape, kept⟩ := download_eq_earmark t request now
  refine ⟨entries, ?_, fun block away => ?_⟩
  · rw [shape, settled, accepted, reopened, Backlog.add_nil]
    subst cancelled
    rfl
  · have silent := kept block (by simp [settled])
    rw [silent, ← cancelled]
    exact (others block away).2

/-- In every state that can be reached, a request brings its blocks into the queue or leaves them
under way, and it touches nothing else. Made again it changes nothing, and after a cancellation of
its blocks under way all is as before but for their journal and the marks that it makes. -/
theorem Reachable.meets_requests (h : s.Reachable) (request : FetchRequest) (now : Timestamp) :
    Meets s (s.apply now (.download request)) request ∧
    (s.apply now (.download request)).apply now (.download request) =
      s.apply now (.download request) ∧
    ∀ blocks earlier, (∀ block, block ∈ blocks ↔ block ∈ request.blocks) →
      (∀ block ∈ blocks, s.IsAt block .inFlight ∧ block ∉ s.cancelling) →
      ∃ entries, (s.apply earlier (.cancel blocks)).apply now (.download request) =
          { s with
            journal := { s.journal with entries }
            backlog := s.backlog.earmark request request.blocks } ∧
        ∀ block, block ∉ blocks → entries[block]? = s.journal.entries[block]? :=
  ⟨h.staged.meets_download request now, h.staged.download_download request now,
    fun _ earlier same flying => h.staged.download_cancel same flying earlier now⟩

theorem meets_requests_sending :
    sending.Reachable ∧ ones ∉ sending.downloaded ∧
      (sending.apply ⟨3⟩ (.download (.plain [.zero, ones, ones]))).IsOpen ones ∧
      sending.IsAt .zero .inFlight ∧ BlockHash.zero ∉ sending.cancelling ∧
      ∃ entries, (sending.apply ⟨3⟩ (.cancel [.zero])).apply ⟨4⟩ (.download (.plain [.zero])) =
        { sending with journal := { sending.journal with entries } } := by
  have missing : ones ∉ sending.downloaded := by decide +kernel
  have met := (reachable_sending.meets_requests (.plain [.zero, ones, ones]) ⟨3⟩).1
  have opened := (met.live ones (by simp [FetchRequest.plain]) (.inr missing)).2
  have wanted : BlockHash.zero ∉ sending.cancelling := by decide +kernel
  have flying : ∀ block ∈ [BlockHash.zero], sending.IsAt block .inFlight ∧
      block ∉ sending.cancelling := by
    simp [isAt_sending, wanted]
  obtain ⟨entries, restored, -⟩ :=
    (reachable_sending.meets_requests (.plain [.zero]) ⟨4⟩).2.2 [.zero] ⟨3⟩ (fun _ => .rfl) flying
  exact ⟨reachable_sending, missing, opened, isAt_sending, wanted, entries, restored⟩

end Scheduler
end BlockFetch
