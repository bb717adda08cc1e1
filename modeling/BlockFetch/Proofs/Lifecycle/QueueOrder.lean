import BlockFetch.Proofs.Scan.Rounds
import BlockFetch.Proofs.Waiting.Order

/-!
# The order of the waiting blocks

The blocks that wait are never reordered. An operation takes some of them out of the queue, and it
puts others, none of which waited before, in front of those that stay. Only a request without
priority puts its blocks behind them instead.

That a block is not taken out and put back within one operation depends on the stages: a block is
put in front after an attempt on it or after it was put aside, and a block that waits is in neither
of these stages.
-/
namespace BlockFetch

/-- Whether an operation puts blocks behind the waiting ones. -/
def Operation.queuesBehind : Operation → Bool
  | .download request => !request.priority
  | _ => false

namespace Backlog

/-- Blocks that are put before a queue stand before all of it, but for those that wait already. -/
theorem exists_foldr_pushFront (blocks queue : List BlockHash) :
    ∃ front, blocks.foldr pushFront queue = front ++ queue ∧
      ∀ block ∈ front, block ∈ blocks ∧ block ∉ queue := by
  refine ⟨_, foldr_pushFront blocks queue, fun block member => ?_⟩
  simpa using member

/-- Blocks that are put behind a queue stand behind all of it, but for those that wait already. -/
theorem exists_foldl_pushBack (blocks queue : List BlockHash) :
    ∃ back, blocks.foldl pushBack queue = queue ++ back ∧
      ∀ block ∈ back, block ∈ blocks ∧ block ∉ queue := by
  refine ⟨_, foldl_pushBack blocks queue, fun block member => ?_⟩
  simpa using member

/-- A queue consists of blocks that waited in an earlier queue, in their order there, and of blocks
before and behind them that did not wait there. -/
structure Extends (before after front kept back : List BlockHash) : Prop where
  whole : after = front ++ kept ++ back
  kept : kept.Sublist before
  front_new : ∀ block ∈ front, block ∉ before
  back_new : ∀ block ∈ back, block ∉ before

/-- A block that did not wait earlier is not among the kept ones. -/
theorem Extends.at_end {before after front kept back : List BlockHash} {block : BlockHash}
    (h : Extends before after front kept back) (member : block ∈ after) (new : block ∉ before) :
    block ∈ front ∨ block ∈ back := by
  rw [h.whole, List.mem_append, List.mem_append] at member
  rcases member with (first | middle) | last
  · exact .inl first
  · exact absurd (h.kept.subset middle) new
  · exact .inr last

end Backlog

namespace Scheduler

/-- A step takes blocks out of the queue, and puts blocks of a kind before those that stay. -/
def LinesUp (kind : BlockHash → Prop) (s t : Scheduler) : Prop :=
  ∃ front kept, t.backlog.queue = front ++ kept ∧ kept.Sublist s.backlog.queue ∧
    ∀ block ∈ front, kind block

variable {kind : BlockHash → Prop} {s t u : Scheduler} {block : BlockHash} {now : Timestamp}

namespace LinesUp

theorem of_sublist (h : t.backlog.queue.Sublist s.backlog.queue) : LinesUp kind s t :=
  ⟨[], t.backlog.queue, rfl, h, nofun⟩

theorem of_queue_eq (h : t.backlog.queue = s.backlog.queue) : LinesUp kind s t :=
  of_sublist (h ▸ List.Sublist.refl _)

theorem of_erase (h : t.backlog.queue = s.backlog.queue.erase block) : LinesUp kind s t :=
  of_sublist (h ▸ List.erase_sublist)

theorem of_prepend (blocks : List BlockHash)
    (h : t.backlog.queue = blocks.foldr Backlog.pushFront s.backlog.queue)
    (each : ∀ block ∈ blocks, kind block) : LinesUp kind s t := by
  obtain ⟨front, whole, new⟩ := Backlog.exists_foldr_pushFront blocks s.backlog.queue
  exact ⟨front, _, h.trans whole, .refl _, fun block member => each block (new block member).1⟩

theorem refl (s : Scheduler) : LinesUp kind s s := of_queue_eq rfl

/-- What the second step takes out may have been put in by the first one. -/
theorem trans (first : LinesUp kind s t) (second : LinesUp kind t u) : LinesUp kind s u := by
  obtain ⟨front, kept, whole, stays, early⟩ := first
  obtain ⟨more, left, wholeLater, remains, late⟩ := second
  rw [whole, List.sublist_append_iff] at remains
  obtain ⟨frontLeft, keptLeft, rfl, inFront, inKept⟩ := remains
  refine ⟨more ++ frontLeft, keptLeft, ?_, inKept.trans stays, fun block member => ?_⟩
  · rw [wholeLater, List.append_assoc]
  · rcases List.mem_append.mp member with new | old
    · exact late block new
    · exact early block (inFront.subset old)

theorem foldl {α : Type} {step : Scheduler → α → Scheduler} {items : List α}
    (h : ∀ s, ∀ item ∈ items, LinesUp kind s (step s item)) (s : Scheduler) :
    LinesUp kind s (items.foldl step s) := by
  induction items generalizing s with
  | nil => exact refl s
  | cons item rest ih =>
    exact (h s item List.mem_cons_self).trans
      (ih (fun s item member => h s item (List.mem_cons_of_mem _ member)) _)

end LinesUp

/-! ## Ends of attempts -/

theorem linesUp_fail (s : Scheduler) (new : kind block) (now : Timestamp) :
    LinesUp kind s (s.fail block now) := by
  have aborted : LinesUp kind s ((s.failHolders block now).endAttempt block) :=
    .of_queue_eq (sameBooks_failHolders s block now).queue
  refine aborted.trans ?_
  unfold fail
  extract_lets ended
  split
  · exact .of_erase rfl
  · split
    · exact .of_prepend [block] rfl fun _ member => List.mem_singleton.mp member ▸ new
    · exact .of_erase rfl

theorem linesUp_succeed (s : Scheduler) (peer : PeerAddress) (header : BlockHeader)
    (size : UInt64) (now : Timestamp) : LinesUp kind s (s.succeed peer header size now) := by
  unfold succeed
  extract_lets block freed transfer? duration announced delivered
  split
  · exact .of_queue_eq (sameBooks_freeHolders s block).queue
  · have measured : LinesUp kind s (announced.recordSpeed peer transfer? size now) :=
      .of_queue_eq (quiet_recordSpeed announced peer transfer? size now).queue
    have released : LinesUp kind s delivered :=
      measured.trans (.of_queue_eq (sameBooks_freeHolders _ block).queue)
    have marked : LinesUp kind delivered (delivered.markDownloaded block) := .of_erase rfl
    exact (released.trans marked).trans (.of_queue_eq (quiet_noteDownload _ block peer now).queue)

theorem linesUp_cancelNow (s : Scheduler) (block : BlockHash) (now : Timestamp) :
    LinesUp kind s (s.cancelNow block now) := by
  have freed : LinesUp kind s (s.freeHolders block) :=
    .of_queue_eq (sameBooks_freeHolders s block).queue
  exact freed.trans (.of_erase rfl)

theorem linesUp_abandon (s : Scheduler) (block : BlockHash) (now : Timestamp) :
    LinesUp kind s (abandon now s block) := by
  unfold abandon
  extract_lets silent
  split
  · exact .of_erase rfl
  · exact .refl s

theorem linesUp_endSession (s : Scheduler) (new : ∀ block ∈ s.inFlight, kind block)
    (now : Timestamp) : LinesUp kind s (s.endSession now) := by
  have abandoned : LinesUp kind s (s.inFlight.foldl (abandon now) s) :=
    .foldl (fun s block _ => linesUp_abandon s block now) s
  unfold endSession
  extract_lets blocks ended
  refine abandoned.trans (.of_prepend (blocks.filter _) rfl fun block member => ?_)
  exact new block (List.mem_of_mem_filter member)

/-! ## Notices -/

theorem Staged.not_mem_queue_of_isInFlight (staged : s.Staged) (flies : s.isInFlight block = true) :
    block ∉ s.backlog.queue := by
  obtain ⟨stage, h⟩ := staged.stage block
  rw [h.isInFlight] at flies
  rw [h.mem_queue]
  cases stage with
  | underway => exact nofun
  | _ => exact nomatch flies

theorem queue_hearDisconnected (s : Scheduler) (peer : PeerAddress) (now : Timestamp) :
    (s.hearDisconnected peer now).backlog.queue = s.backlog.queue := by
  unfold hearDisconnected
  split
  · rfl
  · extract_lets left
    split
    · rfl
    · split <;> rfl

theorem Staged.linesUp_hear (staged : s.Staged) (event : NetworkEvent) (now : Timestamp) :
    LinesUp (· ∉ s.backlog.queue) s (s.hear event now) := by
  cases event with
  | sessionStopped =>
    exact linesUp_endSession s
      (fun block flies => staged.not_mem_queue_of_isInFlight (mem_inFlight.mp flies)) now
  | peerConnected peer => exact .of_queue_eq (quiet_hearConnected staged peer).queue
  | peerHandshaked peer => exact .of_queue_eq (quiet_hearHandshaked s peer).queue
  | peerDisconnected peer => exact .of_queue_eq (queue_hearDisconnected s peer now)
  | blocksAnnounced peer blocks => exact .of_queue_eq (quiet_hearAnnounced s peer blocks).queue
  | blocksNotFound peer blocks =>
    change LinesUp _ s (s.hearNotFound peer blocks now)
    unfold hearNotFound
    split
    · rename_i block
      split
      · rename_i holds
        have flies := isInFlight_iff.mpr (.inl ⟨peer, holds⟩)
        have noted : LinesUp (· ∉ s.backlog.queue) s (s.note block (some peer) .notFound now) :=
          .of_queue_eq rfl
        exact noted.trans (linesUp_fail _ (staged.not_mem_queue_of_isInFlight flies) now)
      · exact .refl s
    · exact .refl s
  | headerDelivered peer header size origin =>
    cases origin with
    | wire =>
      change LinesUp _ s (s.hearHeader peer header size now)
      unfold hearHeader
      extract_lets touched
      split
      · exact linesUp_succeed touched peer header size now
      · exact .of_queue_eq rfl
    | scheduler => exact .refl s
  | chunkDelivered peer block transactions origin =>
    cases origin with
    | wire =>
      change LinesUp _ s (s.hearChunk peer block transactions now)
      unfold hearChunk
      split
      · exact .refl s
      · rename_i part _
        extract_lets received touched
        split
        · exact linesUp_succeed { touched with partials := touched.partials.erase block } peer
            part.header part.size now
        · exact .of_queue_eq rfl
    | scheduler => exact .refl s
  | liteBlockDelivered peer header size =>
    change LinesUp _ s (s.hearLiteBlock peer header size now)
    unfold hearLiteBlock
    split
    · exact linesUp_succeed s peer header size now
    · extract_lets head body
      exact linesUp_succeed body peer header size now
  | rawBlockDelivered peer header size => exact linesUp_succeed s peer header size now
  | _ => exact .refl s

/-! ## Ticks -/

/-- The turns of a tick only take blocks out of the queue. -/
theorem Staged.sublist_queue_turns (staged : s.Staged) (now : Timestamp) :
    ({ s with ticks := s.ticks + 1 }.turns now).backlog.queue.Sublist s.backlog.queue := by
  have shorter : ({ s with ticks := s.ticks + 1 }.turns now).backlog.queue = _ :=
    (staged.scanned_tick now).queue
  rw [shorter]
  exact List.filter_sublist

theorem linesUp_reconcile (s : Scheduler) (new : kind block) (now : Timestamp) :
    LinesUp kind s (reconcile now s block) := by
  unfold reconcile
  split
  · exact .of_queue_eq rfl
  · split
    · exact linesUp_cancelNow s block now
    · split
      · exact linesUp_fail s new now
      · exact .refl s

/-- A block that waits before a tick is neither in limbo after the turns nor put aside when limbo is
resolved. -/
theorem Staged.not_mem_queue_of_tick (staged : s.Staged) (now : Timestamp) :
    (∀ block ∈ ({ s with ticks := s.ticks + 1 }.turns now).limbo, block ∉ s.backlog.queue) ∧
      ∀ block ∈ (({ s with ticks := s.ticks + 1 }.turns now).reconcileLimbo now).discarded,
        block ∉ s.backlog.queue := by
  have counted := quiet_setTicks s (s.ticks + 1)
  have turned := counted.trans_passes (passes_turns (counted.staged staged) now)
  have resolved := passes_reconcileLimbo (turned.staged staged) now
  obtain ⟨_, turns⟩ := turned
  obtain ⟨_, resolution⟩ := resolved
  -- A block that waits goes on waiting in the turns or is requested, and limbo is not reached.
  have each : ∀ block, block ∈ s.backlog.queue → ∃ stage,
      ({ s with ticks := s.ticks + 1 }.turns now).InStage block stage ∧
      (({ s with ticks := s.ticks + 1 }.turns now).reconcileLimbo now).InStage block stage ∧
      stage.standing.inLimbo = false ∧ stage.standing.discardedAt? = none := by
    intro block waits
    obtain ⟨before, inBefore⟩ := staged.stage block
    rw [inBefore.mem_queue] at waits
    obtain ⟨stage, inStage, milestones, turn⟩ :
        ∃ stage, InStage _ block stage ∧ ∃ milestones, Turn _ block before milestones stage :=
      (turns.course block before inBefore).imp fun _ h => ⟨h.1, _, h.2.2⟩
    obtain ⟨after, inAfter, _, resolves⟩ := resolution.course block stage inStage
    have outside : stage.standing.inLimbo = false ∧ stage.standing.discardedAt? = none := by
      cases turn with
      | requested => exact ⟨rfl, rfl⟩
      | stalled => exact nomatch waits
      | still => cases before with
        | waiting => exact ⟨rfl, rfl⟩
        | _ => exact nomatch waits
    rcases resolves with ⟨limbo, _⟩ | ⟨_, rfl⟩
    · exact nomatch outside.1.symm.trans limbo
    · exact ⟨after, inStage, inAfter, outside⟩
  constructor
  · intro block limbo waits
    obtain ⟨stage, inStage, _, outside, _⟩ := each block waits
    exact nomatch outside.symm.trans (inStage.inLimbo.mp limbo)
  · intro block aside waits
    obtain ⟨stage, _, inStage, _, kept⟩ := each block waits
    rw [← Std.ExtTreeMap.isSome_getElem?_iff_mem, inStage.discarded, kept] at aside
    exact nomatch aside

theorem Staged.linesUp_tick (staged : s.Staged) (now : Timestamp) :
    LinesUp (· ∉ s.backlog.queue) s (s.tick now) := by
  obtain ⟨fromLimbo, fromAside⟩ := staged.not_mem_queue_of_tick now
  obtain ⟨_, _, _, shape, _⟩ := tick_eq s now
  have turned : LinesUp (· ∉ s.backlog.queue) s ({ s with ticks := s.ticks + 1 }.turns now) :=
    .of_sublist (staged.sublist_queue_turns now)
  have resolved := turned.trans (.foldl (fun t block member =>
    linesUp_reconcile t (fromLimbo block (Std.ExtTreeSet.mem_toList.mp member)) now) _)
  refine resolved.trans (.of_prepend _ (by rw [shape]; rfl) fun block due => ?_)
  obtain ⟨since, found, _⟩ := mem_expired.mp due
  exact fromAside block (Std.ExtTreeMap.isSome_getElem?_iff_mem.mp (by rw [found]; rfl))

/-! ## All operations -/

theorem linesUp_cancelBlock (s : Scheduler) (block : BlockHash) (now : Timestamp) :
    LinesUp kind s (cancelBlock now s block) := by
  unfold cancelBlock
  split
  · exact .refl s
  · split
    · exact .of_queue_eq rfl
    · exact .of_erase rfl

/-- A request puts all blocks that it adds at one end of the queue. -/
theorem extends_download (s : Scheduler) (request : FetchRequest) (now : Timestamp) :
    ∃ added, (∀ block ∈ added, block ∉ s.backlog.queue) ∧
      (s.download request now).backlog.queue =
        if request.priority then added ++ s.backlog.queue else s.backlog.queue ++ added := by
  obtain ⟨backlog, journal, shape, _, queue⟩ := download_eq s request now
  rw [shape]
  dsimp only
  rw [queue]
  cases request.priority with
  | true =>
    obtain ⟨added, whole, new⟩ := Backlog.exists_foldr_pushFront _ s.backlog.queue
    exact ⟨added, fun block member => (new block member).2, whole⟩
  | false =>
    obtain ⟨added, whole, new⟩ := Backlog.exists_foldl_pushBack _ s.backlog.queue
    exact ⟨added, fun block member => (new block member).2, whole⟩

theorem extends_of_linesUp (h : LinesUp (· ∉ s.backlog.queue) s t) :
    ∃ front kept, Backlog.Extends s.backlog.queue t.backlog.queue front kept [] := by
  obtain ⟨front, kept, whole, stays, new⟩ := h
  exact ⟨front, kept, by rw [whole, List.append_nil], stays, new, nofun⟩

theorem Staged.linesUp_apply (staged : s.Staged) (now : Timestamp) {operation : Operation}
    (other : ∀ request, operation ≠ .download request) :
    LinesUp (· ∉ s.backlog.queue) s (s.apply now operation) := by
  cases operation with
  | download request => exact absurd rfl (other request)
  | cancel blocks => exact .foldl (fun t block _ => linesUp_cancelBlock t block now) s
  | pause => exact .of_queue_eq rfl
  | resume => exact .of_queue_eq rfl
  | report => exact .of_queue_eq rfl
  | hear event => exact staged.linesUp_hear event now
  | tick => exact staged.linesUp_tick now
  | transport streams => exact .of_queue_eq rfl

/-- An operation leaves the waiting blocks in their order. Blocks that it adds go before all of them,
except that a request without priority adds its blocks behind them and none before. -/
theorem Reachable.keeps_queue_order (h : s.Reachable) (now : Timestamp) (operation : Operation) :
    ∃ front kept back,
      Backlog.Extends s.backlog.queue (s.apply now operation).backlog.queue front kept back ∧
      (back ≠ [] → operation.queuesBehind = true) ∧
      (operation.queuesBehind = true → front = []) ∧
      ∀ block ∈ (s.apply now operation).backlog.queue, block ∉ s.backlog.queue →
        if operation.queuesBehind then block ∈ back else block ∈ front := by
  by_cases download : ∃ request, operation = .download request
  · obtain ⟨request, rfl⟩ := download
    obtain ⟨added, new, queue⟩ := extends_download s request now
    cases priority : request.priority with
    | true =>
      have parts : Backlog.Extends s.backlog.queue (s.download request now).backlog.queue
          added s.backlog.queue [] :=
        ⟨by rw [queue, priority, if_pos rfl, List.append_nil], .refl _, new, nofun⟩
      refine ⟨added, s.backlog.queue, [], parts, nofun, ?_, fun block member absent => ?_⟩
      · simp [Operation.queuesBehind, priority]
      · simpa [Operation.queuesBehind, priority] using parts.at_end member absent
    | false =>
      have parts : Backlog.Extends s.backlog.queue (s.download request now).backlog.queue
          [] s.backlog.queue added :=
        ⟨by simp [queue, priority], .refl _, nofun, new⟩
      refine ⟨[], s.backlog.queue, added, parts, ?_, fun _ => rfl, fun block member absent => ?_⟩
      · simp [Operation.queuesBehind, priority]
      · simpa [Operation.queuesBehind, priority] using parts.at_end member absent
  · have other : ∀ request, operation ≠ .download request :=
      fun request same => download ⟨request, same⟩
    have inFront : operation.queuesBehind = false := by
      cases operation with
      | download request => exact absurd rfl (other request)
      | _ => rfl
    obtain ⟨front, kept, parts⟩ := extends_of_linesUp (h.staged.linesUp_apply now other)
    refine ⟨front, kept, [], parts, nofun, ?_, fun block member absent => ?_⟩
    · rw [inFront]
      exact nofun
    · rw [inFront]
      exact (parts.at_end member absent).resolve_right nofun

/-- A block that its holder does not have goes before the one that waits. -/
theorem keeps_queue_order_notFound :
    let s := sending.apply ⟨3⟩ (.download (.plain [ones]))
    let operation := Operation.hear (.blocksNotFound soleSender [.zero])
    s.Reachable ∧ s.backlog.queue = [ones] ∧
      (s.apply ⟨4⟩ operation).backlog.queue = [.zero, ones] ∧
      ∃ front kept back, Backlog.Extends [ones] [.zero, ones] front kept back ∧ back = [] ∧
        .zero ∈ front := by
  intro s operation
  have reachable : s.Reachable := reachable_sending.applied _ _
  have before : s.backlog.queue = [ones] := by decide +kernel
  have after : (s.apply ⟨4⟩ operation).backlog.queue = [.zero, ones] := by decide +kernel
  obtain ⟨front, kept, back, parts, behind, _, new⟩ := reachable.keeps_queue_order ⟨4⟩ operation
  rw [before, after] at parts new
  have none : back = [] := by_contra fun some => nomatch behind some
  exact ⟨reachable, before, after, front, kept, back, parts, none,
    new .zero List.mem_cons_self (by decide)⟩

end Scheduler
end BlockFetch
