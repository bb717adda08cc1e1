import BlockFetch.Proofs.Lifecycle.Resolution

/-!
# Requests

A request or a cancellation is about many blocks at once. This module says where it leaves each
block that it names, and that it leaves all other blocks alone.
-/
namespace BlockFetch

/-- What a request does to a block that it names. -/
inductive Demand (request : FetchRequest) : Rule where
  | queued {block stage} (rests : stage.isUnderway = false) (absent : stage.isWaiting = false)
      (due : stage = .downloaded → request.force = true) :
      Demand request block stage [] (.waiting none)
  | kept {block custody attempts cancelling} :
      Demand request block (.underway custody attempts cancelling) []
        (.underway custody attempts false)
  | waits {block attempts?} : Demand request block (.waiting attempts?) [] (.waiting attempts?)
  | spurned {block} (polite : request.force = false) : Demand request block .downloaded [] .downloaded

/-- What a cancellation does to a block that it names. -/
inductive Cancellation : Rule where
  | deferred {block custody attempts cancelling} :
      Cancellation block (.underway custody attempts cancelling) []
        (.underway custody attempts true)
  | cancelled {block stage} (rests : stage.isUnderway = false) (missing : stage ≠ .downloaded) :
      Cancellation block stage [] .cancelled
  | late {block} : Cancellation block .downloaded [] .downloaded

theorem BlockSet.nodup_toList (blocks : BlockSet) : blocks.toList.Nodup :=
  Std.ExtTreeSet.distinct_toList.imp fun h same => h (by simp [same])

theorem BlockSet.contains_filter (blocks : BlockSet) (keep : BlockHash → Bool) (block : BlockHash) :
    (Std.ExtTreeSet.filter keep blocks).contains block = (blocks.contains block && keep block) := by
  change (Std.ExtTreeMap.filter (fun block _ => keep block) blocks.inner).contains block =
    (blocks.inner.contains block && keep block)
  rw [Std.ExtTreeMap.contains_eq_isSome_getElem?, Std.ExtTreeMap.contains_eq_isSome_getElem?,
    Std.ExtTreeMap.getElem?_filter']
  cases blocks.inner[block]? <;> cases keep block <;> simp [Option.filter]

namespace Backlog

theorem nodup_queue_add {backlog : Backlog} (h : backlog.queue.Nodup) (blocks : List BlockHash)
    (priority : Bool) : (backlog.add blocks priority).queue.Nodup := by
  cases priority with
  | true => exact nodup_queue_prepend h blocks
  | false => exact nodup_queue_append h blocks

theorem mem_queue_add {backlog : Backlog} {blocks : List BlockHash} {priority : Bool}
    {block : BlockHash} :
    block ∈ (backlog.add blocks priority).queue ↔ block ∈ blocks ∨ block ∈ backlog.queue := by
  cases priority with
  | true => exact mem_queue_prepend
  | false => exact mem_queue_append.trans or_comm

/-- Each block that was added or waited before stands in the queue once. -/
theorem count_queue_add {backlog : Backlog} (h : backlog.queue.Nodup) (blocks : List BlockHash)
    (priority : Bool) (block : BlockHash) :
    (backlog.add blocks priority).queue.count block =
      if block ∈ blocks ∨ block ∈ backlog.queue then 1 else 0 := by
  rw [(nodup_queue_add h blocks priority).count]
  simp only [mem_queue_add]

theorem attempts_add (backlog : Backlog) (blocks : List BlockHash) (priority : Bool) :
    (backlog.add blocks priority).attempts = backlog.attempts := by
  cases priority <;> rfl

end Backlog

namespace Scheduler

theorem Staged.nodup_queue {s : Scheduler} (staged : s.Staged) : s.backlog.queue.Nodup := by
  rw [List.nodup_iff_count]
  intro block
  obtain ⟨stage, inStage⟩ := staged.stage block
  rw [inStage.count_queue]
  cases stage <;> simp [Stage.standing]

theorem Staged.count_queue {s : Scheduler} (staged : s.Staged) (block : BlockHash) :
    s.backlog.queue.count block = if block ∈ s.backlog.queue then 1 else 0 :=
  staged.nodup_queue.count

/-! ## Requests -/

theorem mem_accepted {s : Scheduler} {request : FetchRequest} {block : BlockHash} :
    block ∈ s.accepted request ↔
      block ∈ request.blocks ∧ (request.force = true ∨ s.downloaded.contains block = false) := by
  simp [accepted]

theorem foldl_note (blocks : List BlockHash) (note : Note) (now : Timestamp) (s : Scheduler) :
    ∃ journal, blocks.foldl (fun s block => s.note block none note now) s = { s with journal } := by
  induction blocks generalizing s with
  | nil => exact ⟨s.journal, rfl⟩
  | cons block rest ih =>
    obtain ⟨journal, same⟩ := ih (s.note block none note now)
    exact ⟨journal, same⟩

theorem standing_reopen (s : Scheduler) (blocks : List BlockHash) (block : BlockHash) :
    (s.reopen blocks).standing block =
      if block ∈ blocks then
        { s.standing block with
          discardedAt? := none, cancelling := false, cancelled := false, downloaded := false }
      else s.standing block := by
  by_cases named : block ∈ blocks <;> cases kept : s.discarded[block]? <;>
    simp [standing, reopen, blockAt?, BlockSet.contains_filter, named, kept]

theorem standing_setBacklog (s : Scheduler) (backlog : Backlog)
    (same : backlog.attempts = s.backlog.attempts) (block : BlockHash) :
    { s with backlog }.standing block =
      { s.standing block with waiting := backlog.queue.count block } := by
  simp only [standing, blockAt?, same]

/-- The blocks of a request that are queued by it. -/
theorem mem_added {s : Scheduler} {request : FetchRequest} {block : BlockHash} :
    block ∈ (s.accepted request).filter (fun block =>
        !s.isInFlight block && !s.backlog.contains block) ↔
      block ∈ s.accepted request ∧ ¬ s.isInFlight block = true ∧ block ∉ s.backlog.queue := by
  simp [Backlog.contains]

/-- Of the books a request changes those that `reopen` is about, and the queue. -/
theorem download_eq (s : Scheduler) (request : FetchRequest) (now : Timestamp) :
    ∃ backlog journal,
      s.download request now = { s.reopen (s.accepted request) with backlog, journal } ∧
        backlog.attempts = s.backlog.attempts ∧
        backlog.queue = (s.backlog.add ((s.accepted request).filter fun block =>
          !s.isInFlight block && !s.backlog.contains block) request.priority).queue := by
  unfold download
  extract_lets blocks added reopened noted reserved preferred
  obtain ⟨journal, shape⟩ : ∃ journal, noted = { reopened with journal } :=
    foldl_note added .queued now reopened
  have backlog : noted.backlog = s.backlog := by rw [shape]; rfl
  have same : preferred.queue = s.backlog.queue ∧ preferred.attempts = s.backlog.attempts := by
    rw [← backlog]
    simp only [preferred, reserved]
    split <;> split <;> exact ⟨rfl, rfl⟩
  refine ⟨preferred.add added request.priority, journal, by rw [shape], ?_, ?_⟩
  · exact (Backlog.attempts_add ..).trans same.2
  · cases request.priority
    · exact congrArg (List.foldl Backlog.pushBack · added) same.1
    · exact congrArg (List.foldr Backlog.pushFront · added) same.1

/-- A request makes an accepted block forget how it ended before, and queues it unless it waits or
is under way; it leaves all other blocks alone. -/
theorem standing_download {s : Scheduler} (staged : s.Staged) (request : FetchRequest)
    (now : Timestamp) (block : BlockHash) :
    (s.download request now).standing block =
      if block ∈ s.accepted request then
        { s.standing block with
          waiting := if s.isInFlight block ∧ block ∉ s.backlog.queue then 0 else 1
          discardedAt? := none
          cancelling := false
          cancelled := false
          downloaded := false }
      else s.standing block := by
  obtain ⟨backlog, journal, shape, attempts, queue⟩ := download_eq s request now
  have step : (s.download request now).standing block =
      { (s.reopen (s.accepted request)).standing block with
        waiting := backlog.queue.count block } := by
    rw [shape]
    exact standing_setBacklog { s.reopen (s.accepted request) with journal } backlog attempts block
  rw [step, standing_reopen, queue, Backlog.count_queue_add staged.nodup_queue]
  by_cases named : block ∈ s.accepted request
  · rw [if_pos named, if_pos named]
    by_cases underway : s.isInFlight block = true ∧ block ∉ s.backlog.queue
    · rw [if_pos underway, if_neg fun h => h.elim (fun h => (mem_added.mp h).2.1 underway.1)
        underway.2]
    · rw [if_neg underway, if_pos]
      by_cases queued : block ∈ s.backlog.queue
      · exact Or.inr queued
      · exact Or.inl (mem_added.mpr ⟨named, fun flies => underway ⟨flies, queued⟩, queued⟩)
  · rw [if_neg named, if_neg named]
    have unnamed := fun h => named (mem_added.mp h).1
    simp only [or_iff_right unnamed, ← staged.count_queue]
    rfl

theorem passes_download {s : Scheduler} (staged : s.Staged) (request : FetchRequest)
    (now : Timestamp) :
    Passes ((Demand request).limitedTo request.blocks) s (s.download request now) := by
  obtain ⟨backlog, journal, shape, _, _⟩ := download_eq s request now
  refine passes_of_outbox_eq (.of_peers_eq (by rw [shape]; rfl)) (by rw [shape]; rfl)
    (by rw [shape]; rfl) (by rw [shape]; rfl) ?_
  intro block stage h
  have told := standing_download staged request now block
  simp only [h.isInFlight, h.mem_queue, show s.standing block = _ from h] at told
  by_cases named : block ∈ s.accepted request
  · obtain ⟨member, wanted⟩ := mem_accepted.mp named
    rw [h.contains_downloaded] at wanted
    rw [if_pos named] at told
    simp only [InStage, told]
    cases stage with
    | underway custody attempts cancelling =>
      refine ⟨.underway custody attempts false, ?_, Or.inl ⟨member, .kept⟩⟩
      simp [Stage.isUnderway, Stage.isWaiting, Stage.standing]
    | waiting attempts? =>
      refine ⟨.waiting attempts?, ?_, Or.inl ⟨member, .waits⟩⟩
      simp [Stage.isUnderway, Stage.standing]
    | downloaded =>
      have insisted : request.force = true := by simpa [Stage.standing] using wanted
      refine ⟨.waiting none, ?_, Or.inl ⟨member, .queued rfl rfl fun _ => insisted⟩⟩
      simp [Stage.isUnderway, Stage.standing]
    | _ =>
      refine ⟨.waiting none, ?_, Or.inl ⟨member, .queued rfl rfl (by simp)⟩⟩
      simp [Stage.isUnderway, Stage.standing]
  · rw [if_neg named] at told
    refine ⟨stage, told, Rule.limitedTo_still fun member => ?_⟩
    rw [mem_accepted, h.contains_downloaded, not_and, not_or, Bool.not_eq_true] at named
    obtain ⟨polite, there⟩ := named member
    cases stage with
    | downloaded => exact .spurned polite
    | _ => exact absurd rfl there

/-! ## Cancellation -/

theorem passes_cancelBlock {s : Scheduler} (staged : s.Staged) (now : Timestamp)
    (block : BlockHash) : Passes (Cancellation.limitedTo [block]) s (cancelBlock now s block) := by
  obtain ⟨stage, h⟩ := staged.stage block
  unfold cancelBlock
  split
  · rename_i unwanted
    rw [isUnwanted_eq h] at unwanted
    refine ((Quiet.refl s).moves h).passes_limitedTo h ?_
    rcases unwanted with rfl | rfl
    · exact .cancelled rfl (by simp)
    · exact .late
  · rename_i wanted
    rw [isUnwanted_eq h, not_or] at wanted
    split
    · rename_i flies
      rw [h.isInFlight] at flies
      cases stage with
      | underway custody attempts cancelling =>
        have doomed := moves_insertCancelling h
        have noted : Moves s _ block [] (Stage.underway custody attempts true).standing :=
          doomed.trans_quiet (quiet_note _ block none .cancelAsked now)
        exact noted.passes_limitedTo h .deferred
      | _ => simp [Stage.isUnderway] at flies
    · rename_i rests
      rw [h.isInFlight, Bool.not_eq_true] at rests
      exact (moves_markCancelled_of_idle now h rests wanted.2).passes_limitedTo h
        (.cancelled rests wanted.2)

theorem passes_cancel {s : Scheduler} (staged : s.Staged) (blocks : List BlockHash)
    (now : Timestamp) : Passes (Cancellation.limitedTo blocks) s (s.cancel blocks now) := by
  refine passes_foldl_limitedTo Cancellation s.settings
    (fun s block staged _ => passes_cancelBlock staged now block) ?_ blocks staged rfl
  intro block before early middle late after head tail
  -- A block may be named twice; the second time finds what the first one left.
  cases head with
  | deferred =>
    cases tail with
    | deferred => exact .deferred
    | cancelled rests => simp [Stage.isUnderway] at rests
  | cancelled rests missing =>
    cases tail with
    | cancelled => exact .cancelled rests missing
  | late => exact tail

end Scheduler
end BlockFetch
