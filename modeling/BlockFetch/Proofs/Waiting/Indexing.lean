import BlockFetch.IndexedBacklog
import BlockFetch.Proofs.Waiting.Order

/-!
# The index of the backlog

The set of waiting blocks is kept in step with the queue, so a backlog with the set does and answers
the same as a backlog without it. That the queue has no duplicates is part of this: a block that is
taken out of the set has to be out of the queue.
-/
namespace BlockFetch

namespace Backlog

def apply (backlog : Backlog) : BacklogOperation → BacklogAnswer × Backlog
  | .add blocks priority => (.done, backlog.add blocks priority)
  | .remove block => (.removed (backlog.contains block), backlog.remove block)
  | .announce block peer => (.done, backlog.noteAnnouncement block peer)
  | .reserve blocks peer => (.done, backlog.reserve blocks peer)
  | .prefer blocks peer => (.done, backlog.prefer blocks peer)
  | .noteFailure block peer now => (.done, backlog.noteFailure block peer now)
  | .beginAttempt block => (.begun (backlog.attemptsOn block + 1), backlog.beginAttempt block)
  | .downloaded block | .cancelled block => (.done, backlog.forget block)
  | .discarded block => (.done, backlog.setAside block)
  | .extract inquiry =>
    let (answer, backlog) := backlog.handOut inquiry
    (.extracted answer, backlog)

def run (backlog : Backlog) (operations : List BacklogOperation) : Backlog :=
  operations.foldl (fun backlog operation => (backlog.apply operation).2) backlog

/-! ## Inquiries -/

/-- Whether the candidate of an inquiry gets a block if it waits. -/
def offers (backlog : Backlog) (inquiry : Inquiry) (block : BlockHash) : Bool :=
  (!inquiry.restricted || backlog.isBegun block) && backlog.judge inquiry block = .accepted

def refusal? (backlog : Backlog) (inquiry : Inquiry) (block : BlockHash) :
    Option (BlockHash × Refusal) :=
  match backlog.judge inquiry block with
  | .accepted => none
  | .refused reason => some (block, reason)

variable {backlog : Backlog} {inquiry : Inquiry} {block : BlockHash}

theorem find?_considered (backlog : Backlog) (inquiry : Inquiry) :
    ((backlog.considered inquiry).find? fun block =>
        backlog.judge inquiry block = .accepted) =
      backlog.queue.find? (backlog.offers inquiry) := by
  unfold considered offers
  cases inquiry.restricted with
  | true => simp [List.find?_filter]
  | false => simp

theorem handOut_of_offers {front back : List BlockHash}
    (split : backlog.queue = front ++ block :: back)
    (offered : backlog.offers inquiry block = true)
    (refused : ∀ other ∈ front, backlog.offers inquiry other = false) :
    backlog.handOut inquiry = (.assigned block, backlog.remove block) := by
  have found : backlog.queue.find? (backlog.offers inquiry) = some block := by
    rw [List.find?_eq_some_iff_append]
    exact ⟨offered, front, back, split, fun other member => by rw [refused other member]; rfl⟩
  rw [handOut, find?_considered, found]

theorem handOut_of_refuses
    (refused : ∀ other ∈ backlog.queue, backlog.offers inquiry other = false) :
    backlog.handOut inquiry = (.refused (backlog.refusals inquiry), backlog) := by
  have missing : backlog.queue.find? (backlog.offers inquiry) = none := by
    rw [List.find?_eq_none]
    intro other member
    rw [refused other member]
    exact Bool.false_ne_true
  rw [handOut, find?_considered, missing]

/-- Either there is a first block that is offered, or none is. -/
theorem exists_split_or_refuses (backlog : Backlog) (inquiry : Inquiry) :
    (∃ block front back, backlog.queue = front ++ block :: back ∧
      backlog.offers inquiry block = true ∧
      ∀ other ∈ front, backlog.offers inquiry other = false) ∨
    ∀ other ∈ backlog.queue, backlog.offers inquiry other = false := by
  cases found : backlog.queue.find? (backlog.offers inquiry) with
  | some block =>
    obtain ⟨offered, front, back, split, refused⟩ := List.find?_eq_some_iff_append.mp found
    exact .inl ⟨block, front, back, split, offered, fun other member => by
      simpa using refused other member⟩
  | none =>
    rw [List.find?_eq_none] at found
    exact .inr fun other member => by simpa using found other member

end Backlog

namespace IndexedBacklog

open Backlog

/-! ## The scan -/

section

variable {backlog : Backlog} {inquiry : Inquiry} {block : BlockHash}

/-- A block that is not offered is passed over, with the reason against it if it was considered. -/
theorem scan_cons_of_refused (refused : backlog.offers inquiry block = false)
    (rest : List BlockHash) (place : Nat) (refusals : List (BlockHash × Refusal)) :
    ∃ reasons, scan backlog inquiry (block :: rest) place refusals =
        scan backlog inquiry rest (place + 1) (refusals ++ reasons) ∧
      reasons = if inquiry.restricted && !backlog.isBegun block then []
        else (backlog.refusal? inquiry block).toList := by
  refine ⟨_, ?_, rfl⟩
  rw [scan]
  cases skipped : inquiry.restricted && !backlog.isBegun block with
  | true => simp
  | false =>
    have considered : (!inquiry.restricted || backlog.isBegun block) = true := by
      revert skipped
      cases inquiry.restricted <;> cases backlog.isBegun block <;> simp
    rw [offers, considered, Bool.true_and, decide_eq_false_iff_not] at refused
    cases verdict : backlog.judge inquiry block with
    | accepted => exact absurd verdict refused
    | refused reason => simp [refusal?, verdict]

theorem scan_of_offers {front : List BlockHash} (offered : backlog.offers inquiry block = true)
    (refused : ∀ other ∈ front, backlog.offers inquiry other = false) (back : List BlockHash)
    (place : Nat) (refusals : List (BlockHash × Refusal)) :
    ∃ reasons, scan backlog inquiry (front ++ block :: back) place refusals =
      (some (place + front.length), reasons) := by
  induction front generalizing place refusals with
  | nil =>
    rw [offers, Bool.and_eq_true, decide_eq_true_eq] at offered
    obtain ⟨considered, accepted⟩ := offered
    refine ⟨refusals, ?_⟩
    have unskipped : (inquiry.restricted && !backlog.isBegun block) = false := by
      revert considered
      cases inquiry.restricted <;> cases backlog.isBegun block <;> simp
    simp [scan, unskipped, accepted]
  | cons first rest ih =>
    obtain ⟨more, passed, -⟩ := scan_cons_of_refused (refused first List.mem_cons_self)
      (rest ++ block :: back) place refusals
    have later : ∀ other ∈ rest, backlog.offers inquiry other = false :=
      fun other member => refused other (List.mem_cons_of_mem _ member)
    obtain ⟨reasons, found⟩ := ih later (place + 1) (refusals ++ more)
    refine ⟨reasons, ?_⟩
    rw [List.cons_append, passed, found, List.length_cons, Nat.add_assoc, Nat.add_comm 1]

theorem scan_of_refuses {blocks : List BlockHash}
    (refused : ∀ other ∈ blocks, backlog.offers inquiry other = false) (place : Nat)
    (refusals : List (BlockHash × Refusal)) :
    scan backlog inquiry blocks place refusals =
      (none, refusals ++
        (if inquiry.restricted then blocks.filter backlog.isBegun else blocks).filterMap
          (backlog.refusal? inquiry)) := by
  induction blocks generalizing place refusals with
  | nil => simp [scan]
  | cons first rest ih =>
    obtain ⟨reasons, passed, reasons_eq⟩ :=
      scan_cons_of_refused (refused first List.mem_cons_self) rest place refusals
    rw [passed, ih (fun other member => refused other (List.mem_cons_of_mem _ member)), reasons_eq,
      List.append_assoc]
    congr 2
    cases inquiry.restricted with
    | true => cases begun : backlog.isBegun first <;>
        cases reason : backlog.refusal? inquiry first <;> simp [begun, reason]
    | false => cases reason : backlog.refusal? inquiry first <;> simp [reason]

end

/-! ## Index and queue in step -/

/-- A backlog with an index stands for one without: its index has the blocks of the queue, and the
queue has each of them once. -/
structure Represents (indexed : IndexedBacklog) (backlog : Backlog) : Prop where
  same : indexed.toBacklog = backlog
  distinct : backlog.queue.Nodup
  members : ∀ block, block ∈ indexed.members ↔ block ∈ backlog.queue

namespace Represents

variable {indexed : IndexedBacklog} {backlog : Backlog} (h : indexed.Represents backlog)

theorem empty : IndexedBacklog.empty.Represents Backlog.empty where
  same := rfl
  distinct := List.nodup_nil
  members block := by simp [IndexedBacklog.empty, Backlog.empty]

include h

theorem contains (block : BlockHash) : indexed.contains block = backlog.contains block := by
  rw [Bool.eq_iff_iff, IndexedBacklog.contains, Std.ExtTreeSet.contains_iff_mem, h.members,
    Backlog.contains, List.contains_iff_mem]

theorem of_queue_eq {after : Backlog} (queue : after.queue = backlog.queue) :
    Represents { indexed with toBacklog := after } after where
  same := rfl
  distinct := queue ▸ h.distinct
  members := queue ▸ h.members

theorem insert {queue : List BlockHash} {block : BlockHash} (distinct : queue.Nodup)
    (members : ∀ other, other ∈ queue ↔ other = block ∨ other ∈ backlog.queue) :
    Represents { indexed with queue := queue, members := indexed.members.insert block }
      { backlog with queue := queue } := by
  obtain rfl := h.same
  refine ⟨rfl, distinct, fun other => ?_⟩
  rw [Std.ExtTreeSet.mem_insert, h.members, members, Std.LawfulEqCmp.compare_eq_iff_eq, eq_comm]

theorem pushBack (block : BlockHash) :
    (indexed.pushBack block).Represents
      { backlog with queue := Backlog.pushBack backlog.queue block } := by
  obtain rfl := h.same
  have distinct := Backlog.nodup_pushBack h.distinct block
  unfold IndexedBacklog.pushBack
  rw [h.contains, Backlog.contains]
  rw [Backlog.pushBack] at distinct ⊢
  split
  · exact h
  · rename_i absent
    rw [if_neg absent] at distinct
    exact h.insert distinct fun other => by simp [or_comm]

theorem pushFront (block : BlockHash) :
    (indexed.pushFront block).Represents
      { backlog with queue := Backlog.pushFront block backlog.queue } := by
  obtain rfl := h.same
  have distinct := Backlog.nodup_pushFront h.distinct block
  unfold IndexedBacklog.pushFront
  rw [h.contains, Backlog.contains]
  rw [Backlog.pushFront] at distinct ⊢
  split
  · exact h
  · rename_i absent
    rw [if_neg absent] at distinct
    exact h.insert distinct fun other => List.mem_cons

theorem append (blocks : List BlockHash) :
    (blocks.foldl IndexedBacklog.pushBack indexed).Represents (backlog.append blocks) := by
  unfold Backlog.append
  induction blocks generalizing indexed backlog with
  | nil => exact h
  | cons first rest ih => exact ih (h.pushBack first)

/-- The last block is the first one that is put in front. -/
theorem prepend (blocks : List BlockHash) :
    (blocks.reverse.foldl IndexedBacklog.pushFront indexed).Represents
      (backlog.prepend blocks) := by
  rw [List.foldl_reverse]
  unfold Backlog.prepend
  induction blocks with
  | nil => exact h
  | cons first rest ih => exact ih.pushFront first

theorem add (blocks : List BlockHash) (priority : Bool) :
    (indexed.add blocks priority).Represents (backlog.add blocks priority) := by
  cases priority with
  | true => exact h.prepend blocks
  | false => exact h.append blocks

theorem remove (block : BlockHash) :
    (indexed.remove block).1 = backlog.contains block ∧
      (indexed.remove block).2.Represents (backlog.remove block) := by
  obtain rfl := h.same
  rw [← h.contains]
  cases waits : indexed.contains block with
  | true =>
    rw [IndexedBacklog.remove, if_pos waits]
    refine ⟨rfl, ?_, h.distinct.erase block, fun other => ?_⟩
    · rw [Backlog.remove, erase_eq_filter h.distinct]
    · rw [Std.ExtTreeSet.mem_erase, h.members, Backlog.remove, h.distinct.mem_erase_iff,
        Ne, Std.LawfulEqCmp.compare_eq_iff_eq, eq_comm]
  | false =>
    have away : block ∉ indexed.queue := by
      rw [← h.members, ← Std.ExtTreeSet.contains_iff_mem]
      exact Bool.eq_false_iff.mp waits
    rw [IndexedBacklog.remove, if_neg (Bool.eq_false_iff.mp waits), Backlog.remove,
      List.erase_of_not_mem away]
    exact ⟨rfl, h⟩

theorem forget (block : BlockHash) : (indexed.forget block).Represents (backlog.forget block) := by
  obtain ⟨-, same, distinct, members⟩ := h.remove block
  unfold IndexedBacklog.forget
  generalize (indexed.remove block).2 = rest at same members ⊢
  obtain ⟨tables, index⟩ := rest
  cases same
  exact ⟨rfl, distinct, members⟩

theorem setAside (block : BlockHash) :
    (indexed.setAside block).Represents (backlog.setAside block) := by
  obtain ⟨-, same, distinct, members⟩ := h.remove block
  unfold IndexedBacklog.setAside
  generalize (indexed.remove block).2 = rest at same members ⊢
  obtain ⟨tables, index⟩ := rest
  cases same
  exact ⟨rfl, distinct, members⟩

theorem contains_eq_true {block : BlockHash} (waits : block ∈ backlog.queue) :
    indexed.contains block = true := by
  rwa [h.contains, Backlog.contains, List.contains_iff_mem]

/-- The place that the scan finds is the one of the block that is handed out. -/
theorem extract_of_offers {inquiry : Backlog.Inquiry} {block : BlockHash}
    {front back : List BlockHash} (split : backlog.queue = front ++ block :: back)
    (offered : backlog.offers inquiry block = true)
    (refused : ∀ other ∈ front, backlog.offers inquiry other = false) :
    indexed.extract inquiry = (.assigned block, (indexed.remove block).2) := by
  obtain rfl := h.same
  obtain ⟨reasons, found⟩ := scan_of_offers offered refused back 0 []
  have waits : block ∈ indexed.queue := by
    rw [split]
    exact List.mem_append_right _ List.mem_cons_self
  have away : block ∉ front := fun member => by
    rw [refused block member] at offered
    exact nomatch offered
  have erased : indexed.queue.eraseIdx front.length = indexed.queue.filter (· ≠ block) := by
    rw [← erase_eq_filter h.distinct, split, List.erase_append_right _ away, List.erase_cons_head,
      List.eraseIdx_append_of_length_le (Nat.le_refl _), Nat.sub_self, List.eraseIdx_zero,
      List.tail_cons]
  have there : indexed.queue[front.length]? = some block := by
    rw [split, List.getElem?_append_right (Nat.le_refl _), Nat.sub_self, List.getElem?_cons_zero]
  rw [← split, Nat.zero_add] at found
  rw [IndexedBacklog.extract, found, IndexedBacklog.remove, if_pos (h.contains_eq_true waits)]
  simp only [Option.bind_some, there, Option.map_some, erased]

theorem extract_of_refuses {inquiry : Backlog.Inquiry}
    (refused : ∀ other ∈ backlog.queue, backlog.offers inquiry other = false) :
    indexed.extract inquiry = (.refused (backlog.refusals inquiry), indexed) := by
  obtain rfl := h.same
  rw [IndexedBacklog.extract, scan_of_refuses refused]
  rfl

theorem extract (inquiry : Backlog.Inquiry) :
    (indexed.extract inquiry).1 = (backlog.handOut inquiry).1 ∧
      (indexed.extract inquiry).2.Represents (backlog.handOut inquiry).2 := by
  rcases backlog.exists_split_or_refuses inquiry with
    ⟨block, front, back, split, offered, refused⟩ | refused
  · rw [handOut_of_offers split offered refused, h.extract_of_offers split offered refused]
    exact ⟨rfl, (h.remove block).2⟩
  · rw [handOut_of_refuses refused, h.extract_of_refuses refused]
    exact ⟨rfl, h⟩

/-- With and without an index the same is done and answered. -/
theorem apply (operation : BacklogOperation) :
    (indexed.apply operation).1 = (backlog.apply operation).1 ∧
      (indexed.apply operation).2.Represents (backlog.apply operation).2 := by
  cases operation with
  | add blocks priority => exact ⟨rfl, h.add blocks priority⟩
  | remove block =>
    obtain ⟨waited, removed⟩ := h.remove block
    exact ⟨congrArg BacklogAnswer.removed waited, removed⟩
  | beginAttempt block =>
    obtain rfl := h.same
    have number := indexed.toBacklog.attemptsOn_beginAttempt_self block
    exact ⟨congrArg BacklogAnswer.begun number, h.of_queue_eq rfl⟩
  | downloaded block => exact ⟨rfl, h.forget block⟩
  | cancelled block => exact ⟨rfl, h.forget block⟩
  | discarded block => exact ⟨rfl, h.setAside block⟩
  | extract inquiry =>
    obtain ⟨answer, rest⟩ := h.extract inquiry
    exact ⟨congrArg BacklogAnswer.extracted answer, rest⟩
  | _ =>
    obtain rfl := h.same
    exact ⟨rfl, h.of_queue_eq rfl⟩

theorem run (operations : List BacklogOperation) :
    (indexed.run operations).Represents (backlog.run operations) := by
  induction operations generalizing indexed backlog with
  | nil => exact h
  | cons first rest ih => exact ih (h.apply first).2

end Represents

end IndexedBacklog
end BlockFetch
