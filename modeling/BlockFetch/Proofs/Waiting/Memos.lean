import BlockFetch.Proofs.Contracts.Request
import BlockFetch.Proofs.Waiting.Indexing
import BlockFetch.Proofs.Waiting.Order

/-!
# Waiting blocks and what is known about them

A backlog is a list of different blocks with a memo on each block. Every operation rearranges the
list in a simple way, and it revises the memos of the blocks that it names and of no others. Whether
a block is handed out is decided by its own memo. When a block is forgotten, nothing is left that
tells whether it was ever named.
-/
namespace BlockFetch

@[ext] structure Memo where
  announcers? : Option PeerSet := none
  reservedFor? : Option PeerAddress := none
  preferred? : Option PeerSet := none
  failures? : Option (PeerMap Timestamp) := none
  attempts? : Option Nat := none

namespace Memo

/-- Whether a block is considered: in restricted mode only if it is begun. -/
def isConsidered (memo : Memo) (inquiry : Backlog.Inquiry) : Bool :=
  !inquiry.restricted || memo.attempts?.isSome

/-- The decision on a block. Of the failures only the last one of the candidate counts. -/
def verdict (memo : Memo) (inquiry : Backlog.Inquiry) : Verdict :=
  inquiry.rule.judge inquiry.candidate
    { announcers := memo.announcers?.getD ∅
      reservedFor? := memo.reservedFor?
      preferred := memo.preferred?.getD ∅
      lastFailure? := (memo.failures?.getD ∅)[inquiry.candidate]? }
    inquiry.pool inquiry.restricted inquiry.now

/-- Whether a block is handed out if it is the first one of which this is true. -/
def suits (memo : Memo) (inquiry : Backlog.Inquiry) : Bool :=
  memo.isConsidered inquiry && memo.verdict inquiry = .accepted

end Memo

namespace BacklogOperation

/-- Whether an operation is about a block. An inquiry is about no particular one. -/
def names (operation : BacklogOperation) (block : BlockHash) : Bool :=
  match operation with
  | .add blocks _ | .reserve blocks _ | .prefer blocks _ => block ∈ blocks
  | .remove named | .announce named _ | .noteFailure named _ _ | .beginAttempt named
  | .downloaded named | .cancelled named | .discarded named => named = block
  | .extract _ => false

def revise (operation : BacklogOperation) (memo : Memo) : Memo :=
  match operation with
  | .announce _ peer => { memo with announcers? := some ((memo.announcers?.getD ∅).insert peer) }
  | .reserve _ peer => { memo with reservedFor? := some peer }
  | .prefer _ peer => { memo with preferred? := some ((memo.preferred?.getD ∅).insert peer) }
  | .noteFailure _ peer now =>
    { memo with failures? := some ((memo.failures?.getD ∅).insert peer now) }
  | .beginAttempt _ => { memo with attempts? := some (memo.attempts?.getD 0 + 1) }
  | .downloaded _ | .cancelled _ => {}
  | .discarded _ => { memo with failures? := none, attempts? := none }
  | .add .. | .remove _ | .extract _ => memo

/-- What becomes of the waiting blocks, unless the operation is an inquiry. Of a block that is added
more than once the first place counts behind the waiting ones (`eraseDups`), and the last place
before them (`dedup`). -/
def arrange (operation : BacklogOperation) (queue : List BlockHash) : List BlockHash :=
  match operation with
  | .add blocks false => queue ++ blocks.eraseDups.filter (· ∉ queue)
  | .add blocks true => blocks.dedup.filter (· ∉ queue) ++ queue
  | .remove block | .downloaded block | .cancelled block | .discarded block => queue.erase block
  | _ => queue

def without (block : BlockHash) : BacklogOperation → Option BacklogOperation
  | .add blocks priority => some (.add (blocks.filter (· ≠ block)) priority)
  | .reserve blocks peer => some (.reserve (blocks.filter (· ≠ block)) peer)
  | .prefer blocks peer => some (.prefer (blocks.filter (· ≠ block)) peer)
  | .extract inquiry => some (.extract inquiry)
  | operation => if operation.names block then none else some operation

end BacklogOperation

/-- The operations that are left of some when all that is about a block is taken out, with the
inquiries that it is handed out for. -/
def IndexedBacklog.unnaming (block : BlockHash) :
    IndexedBacklog → List BacklogOperation → List BacklogOperation
  | _, [] => []
  | backlog, operation :: rest =>
    let later := unnaming block (backlog.apply operation).2 rest
    if (backlog.apply operation).1 = .extracted (.assigned block) then later
    else (operation.without block).toList ++ later

namespace Backlog

def memo (backlog : Backlog) (block : BlockHash) : Memo where
  announcers? := backlog.announcers[block]?
  reservedFor? := backlog.reservations[block]?
  preferred? := backlog.preferred[block]?
  failures? := backlog.failures[block]?
  attempts? := backlog.attempts[block]?

variable {backlog other : Backlog} {block : BlockHash}

/-- The waiting blocks and the memos are all that there is. -/
theorem eq_of_memo_eq (queue : backlog.queue = other.queue)
    (memos : ∀ block, backlog.memo block = other.memo block) : backlog = other := by
  refine Backlog.ext queue ?_ ?_ ?_ ?_ ?_ <;> refine Std.ExtTreeMap.ext_getElem? fun block => ?_
  · exact congrArg Memo.announcers? (memos block)
  · exact congrArg Memo.reservedFor? (memos block)
  · exact congrArg Memo.preferred? (memos block)
  · exact congrArg Memo.failures? (memos block)
  · exact congrArg Memo.attempts? (memos block)

theorem judge_eq_verdict (backlog : Backlog) (inquiry : Inquiry) (block : BlockHash) :
    backlog.judge inquiry block = (backlog.memo block).verdict inquiry := by
  rw [judge, claims]
  simp only [Std.ExtTreeMap.getD_eq_getD_getElem?]
  rfl

theorem offers_eq_suits (backlog : Backlog) (inquiry : Inquiry) (block : BlockHash) :
    backlog.offers inquiry block = (backlog.memo block).suits inquiry := by
  rw [offers, judge_eq_verdict, isBegun, Std.ExtTreeMap.contains_eq_isSome_getElem?]
  rfl

theorem considered_eq_filter (backlog : Backlog) (inquiry : Inquiry) :
    backlog.considered inquiry =
      backlog.queue.filter fun block => (backlog.memo block).isConsidered inquiry := by
  unfold considered Memo.isConsidered
  cases inquiry.restricted with
  | true =>
    refine List.filter_congr fun block _ => ?_
    rw [isBegun, Std.ExtTreeMap.contains_eq_isSome_getElem?]
    rfl
  | false => simp

theorem judge_of_mem_refusals {inquiry : Inquiry} {reason : Refusal}
    (member : (block, reason) ∈ backlog.refusals inquiry) :
    backlog.judge inquiry block = .refused reason := by
  obtain ⟨considered, _, found⟩ := List.mem_filterMap.mp member
  split at found
  · exact nomatch found
  · rename_i verdict
    cases found
    exact verdict

/-- If no block is handed out, there is one reason against each block that is considered. -/
theorem map_fst_refusals {inquiry : Inquiry}
    (refused : ∀ other ∈ backlog.queue, backlog.offers inquiry other = false) :
    (backlog.refusals inquiry).map Prod.fst = backlog.considered inquiry := by
  rw [refusals, List.map_filterMap]
  refine Eq.trans (List.filterMap_congr fun other member => ?_) List.filterMap_some
  rw [considered_eq_filter, List.mem_filter] at member
  have rejected := refused other member.1
  rw [offers_eq_suits, Memo.suits, member.2, Bool.true_and, decide_eq_false_iff_not,
    ← judge_eq_verdict] at rejected
  cases verdict : backlog.judge inquiry other with
  | accepted => exact absurd verdict rejected
  | refused reason => rfl

theorem memo_handOut (backlog : Backlog) (inquiry : Inquiry) (block : BlockHash) :
    (backlog.handOut inquiry).2.memo block = backlog.memo block := by
  unfold handOut
  split <;> rfl

theorem memo_forget (backlog : Backlog) (named block : BlockHash) :
    (backlog.forget named).memo block = if named = block then {} else backlog.memo block := by
  by_cases here : named = block <;>
    simp [memo, forget, Std.ExtTreeMap.getElem?_erase, here]

theorem memo_apply (backlog : Backlog) (operation : BacklogOperation) (block : BlockHash) :
    (backlog.apply operation).2.memo block =
      if operation.names block then operation.revise (backlog.memo block)
      else backlog.memo block := by
  cases operation with
  | add blocks priority =>
    rw [BacklogOperation.revise, ite_self]
    cases priority <;> rfl
  | remove named =>
    rw [BacklogOperation.revise, ite_self]
    rfl
  | extract inquiry => exact backlog.memo_handOut inquiry block
  | reserve blocks peer | prefer blocks peer =>
    by_cases named : block ∈ blocks <;>
      simp [apply, memo, reserve, prefer, BacklogOperation.names, BacklogOperation.revise,
        Scheduler.getElem?_foldl_insert, getElem?_foldl_noteIn, named]
  | announce named | noteFailure named | beginAttempt named =>
    by_cases here : named = block <;>
      simp [apply, memo, noteAnnouncement, noteIn, noteFailure, beginAttempt, attemptsOn,
        BacklogOperation.names, BacklogOperation.revise, Std.ExtTreeMap.getElem?_insert,
        Std.ExtTreeMap.getD_eq_getD_getElem?, here]
  | downloaded named | cancelled named =>
    rw [apply, memo_forget, BacklogOperation.names, BacklogOperation.revise]
    simp only [decide_eq_true_eq]
  | discarded named =>
    by_cases here : named = block <;>
      simp [apply, memo, setAside, BacklogOperation.names, BacklogOperation.revise,
        Std.ExtTreeMap.getElem?_erase, here]

theorem queue_apply (backlog : Backlog) {operation : BacklogOperation}
    (inquires : ∀ inquiry, operation ≠ .extract inquiry) :
    (backlog.apply operation).2.queue = operation.arrange backlog.queue := by
  cases operation with
  | add blocks priority =>
    cases priority with
    | true => exact foldr_pushFront blocks backlog.queue
    | false => exact foldl_pushBack blocks backlog.queue
  | extract inquiry => exact absurd rfl (inquires inquiry)
  | _ => rfl

/-! ## Counters -/

theorem attemptsOn_apply_le (backlog : Backlog) (operation : BacklogOperation)
    (block : BlockHash) :
    (backlog.apply operation).2.attemptsOn block ≤ backlog.attemptsOn block + 1 := by
  have counter : ∀ backlog : Backlog,
      backlog.attemptsOn block = (backlog.memo block).attempts?.getD 0 :=
    fun _ => Std.ExtTreeMap.getD_eq_getD_getElem?
  rw [counter, counter, memo_apply]
  split
  · cases operation <;> simp [BacklogOperation.revise]
  · exact Nat.le_succ _

theorem attemptsOn_run_le_add (backlog : Backlog) (operations : List BacklogOperation)
    (block : BlockHash) :
    (backlog.run operations).attemptsOn block ≤ backlog.attemptsOn block + operations.length := by
  induction operations generalizing backlog with
  | nil => exact Nat.le_refl _
  | cons operation rest ih =>
    have head := backlog.attemptsOn_apply_le operation block
    have tail := ih (backlog.apply operation).2
    rw [List.length_cons]
    change ((backlog.apply operation).2.run rest).attemptsOn block ≤ _
    omega

/-! ## Blocks that are forgotten -/

/-- Without the mention of a block an operation names the same other blocks. -/
theorem names_of_without {operation rest : BacklogOperation}
    (left : operation.without block = some rest) (other : BlockHash) :
    rest.names other = (operation.names other && decide (other ≠ block)) := by
  cases operation with
  | add | reserve | prefer =>
    cases left
    simp [BacklogOperation.names]
  | extract inquiry =>
    cases left
    rfl
  | _ =>
    obtain ⟨unnamed, same⟩ := Option.ite_none_left_eq_some.mp left
    cases same
    have different := fun same => unnamed (decide_eq_true same)
    by_cases here : other = block
    · subst here
      simpa [BacklogOperation.names] using different
    · simp [here]

theorem revise_of_without {operation rest : BacklogOperation}
    (left : operation.without block = some rest) : rest.revise = operation.revise := by
  cases operation with
  | add | reserve | prefer | extract =>
    cases left
    rfl
  | _ =>
    obtain ⟨_, same⟩ := Option.ite_none_left_eq_some.mp left
    cases same
    rfl

/-- An operation that is about a block only is about no other one. -/
theorem names_of_without_eq_none {operation : BacklogOperation}
    (gone : operation.without block = none) {other : BlockHash} (different : other ≠ block) :
    operation.names other = false := by
  cases operation with
  | add | reserve | prefer | extract => cases gone
  | _ =>
    simp only [BacklogOperation.without, BacklogOperation.names, ite_eq_left_iff, reduceCtorEq,
      imp_false, not_not, decide_eq_true_eq] at gone
    simp [BacklogOperation.names, gone, Ne.symm different]

/-- The memos after an operation and the loss of a block are those after the loss and what is left
of the operation. -/
theorem memo_forget_apply (backlog : Backlog) (operation : BacklogOperation)
    (block other : BlockHash) :
    ((backlog.apply operation).2.forget block).memo other =
      match operation.without block with
      | none => (backlog.forget block).memo other
      | some rest => ((backlog.forget block).apply rest).2.memo other := by
  rw [memo_forget, memo_apply]
  cases left : operation.without block with
  | none =>
    rw [memo_forget]
    by_cases here : block = other
    · simp [here]
    · simp [here, names_of_without_eq_none left (Ne.symm here)]
  | some rest =>
    simp only [memo_apply, memo_forget, names_of_without left, revise_of_without left]
    by_cases here : block = other
    · simp [here]
    · simp [here, Ne.symm here]

theorem offers_forget_of_ne {other : BlockHash} (different : other ≠ block) (inquiry : Inquiry) :
    (backlog.forget block).offers inquiry other = backlog.offers inquiry other := by
  rw [offers_eq_suits, offers_eq_suits, memo_forget, if_neg different.symm]

theorem erase_erase_self (distinct : backlog.queue.Nodup) (block : BlockHash) :
    (backlog.queue.erase block).erase block = backlog.queue.erase block :=
  List.erase_of_not_mem distinct.not_mem_erase

/-- A block that is not handed out is of no importance for the one that is. -/
theorem queue_forget_handOut (distinct : backlog.queue.Nodup) {inquiry : Inquiry}
    (other : (backlog.handOut inquiry).1 ≠ .assigned block) :
    ((backlog.handOut inquiry).2.forget block).queue =
      ((backlog.forget block).handOut inquiry).2.queue := by
  rcases backlog.exists_split_or_refuses inquiry with
    ⟨first, front, back, split, offered, refused⟩ | refused
  · rw [handOut_of_offers split offered refused] at other ⊢
    have different : first ≠ block := fun same => other (congrArg Answer.assigned same)
    have kept : (backlog.forget block).queue =
        front.filter (· ≠ block) ++ first :: back.filter (· ≠ block) := by
      change backlog.queue.erase block = _
      rw [erase_eq_filter distinct, split, List.filter_append, List.filter_cons,
        if_pos (decide_eq_true different)]
    rw [handOut_of_offers kept]
    · exact List.erase_comm first block
    · rw [offers_forget_of_ne different, offered]
    · intro other member
      obtain ⟨member, away⟩ := List.mem_filter.mp member
      rw [offers_forget_of_ne (of_decide_eq_true away), refused other member]
  · rw [handOut_of_refuses refused, handOut_of_refuses]
    intro other member
    have away : other ≠ block := by
      rintro rfl
      exact distinct.not_mem_erase member
    rw [offers_forget_of_ne away, refused other (List.mem_of_mem_erase member)]

theorem queue_forget_apply (distinct : backlog.queue.Nodup) {operation : BacklogOperation}
    (kept : (backlog.apply operation).1 ≠ .extracted (.assigned block)) :
    ((backlog.apply operation).2.forget block).queue =
      match operation.without block with
      | none => (backlog.forget block).queue
      | some rest => ((backlog.forget block).apply rest).2.queue := by
  have twice := erase_erase_self distinct block
  cases operation with
  | add blocks priority =>
    cases priority with
    | true => exact erase_foldr_pushFront blocks backlog.queue block
    | false => exact erase_foldl_pushBack blocks backlog.queue block
  | reserve | prefer => rfl
  | extract inquiry =>
    exact queue_forget_handOut distinct fun same => kept (congrArg BacklogAnswer.extracted same)
  | remove named | downloaded named | cancelled named | discarded named =>
    by_cases here : named = block
    · subst here
      simpa [apply, forget, remove, setAside, BacklogOperation.without, BacklogOperation.names]
        using twice
    · simpa [apply, forget, remove, setAside, BacklogOperation.without, BacklogOperation.names,
        here] using List.erase_comm named block
  | announce named | noteFailure named | beginAttempt named =>
    by_cases here : named = block <;>
      simp [apply, forget, noteAnnouncement, noteFailure, beginAttempt, BacklogOperation.without,
        BacklogOperation.names, here]

theorem forget_handOut (distinct : backlog.queue.Nodup) {inquiry : Inquiry}
    (handed : (backlog.handOut inquiry).1 = .assigned block) :
    (backlog.handOut inquiry).2.forget block = backlog.forget block := by
  rcases backlog.exists_split_or_refuses inquiry with
    ⟨first, front, back, split, offered, refused⟩ | refused
  · rw [handOut_of_offers split offered refused] at handed ⊢
    cases handed
    refine eq_of_memo_eq (erase_erase_self distinct block) fun other => ?_
    rw [memo_forget, memo_forget]
    rfl
  · rw [handOut_of_refuses refused] at handed
    exact nomatch handed

/-- What is done before a block is forgotten is, as far as the rest is concerned, what is left of it
without any mention of the block. -/
theorem forget_apply (distinct : backlog.queue.Nodup) (operation : BacklogOperation)
    (block : BlockHash) :
    (backlog.apply operation).2.forget block =
      if (backlog.apply operation).1 = .extracted (.assigned block) then backlog.forget block
      else match operation.without block with
        | none => backlog.forget block
        | some rest => ((backlog.forget block).apply rest).2 := by
  split
  · rename_i handed
    cases operation with
    | extract inquiry => exact forget_handOut distinct (BacklogAnswer.extracted.inj handed)
    | _ => exact nomatch handed
  · rename_i kept
    refine eq_of_memo_eq ?_ fun other => ?_
    · rw [queue_forget_apply distinct kept]
      split <;> rfl
    · rw [memo_forget_apply]
      split <;> rfl

end Backlog

namespace IndexedBacklog

variable {indexed other : IndexedBacklog} {backlog : Backlog} {block : BlockHash}

theorem Represents.unique (first : indexed.Represents backlog) (second : other.Represents backlog) :
    indexed = other := by
  obtain ⟨tables, members⟩ := indexed
  obtain ⟨sameTables, sameMembers⟩ := other
  obtain ⟨rfl, -, listed⟩ := first
  obtain ⟨rfl, -, sameListed⟩ := second
  have index : members = sameMembers := by
    refine Std.ExtTreeSet.ext_mem fun block => ?_
    rw [listed, sameListed]
  rw [index]

theorem run_append (indexed : IndexedBacklog) (early late : List BacklogOperation) :
    indexed.run (early ++ late) = (indexed.run early).run late :=
  List.foldl_append

theorem forget_run (h : indexed.Represents backlog) (operations : List BacklogOperation)
    (block : BlockHash) :
    (indexed.run operations).forget block =
      (indexed.forget block).run (indexed.unnaming block operations) := by
  induction operations generalizing indexed backlog with
  | nil => rfl
  | cons operation rest ih =>
    obtain ⟨answer, after⟩ := h.apply operation
    have forgotten := after.forget block
    rw [Backlog.forget_apply h.distinct] at forgotten
    change ((indexed.apply operation).2.run rest).forget block = _
    rw [ih after, unnaming, answer]
    split at forgotten
    · rename_i handed
      rw [if_pos handed, forgotten.unique (h.forget block)]
    · rename_i kept
      rw [if_neg kept, run_append]
      cases left : operation.without block with
      | none =>
        rw [left] at forgotten
        rw [forgotten.unique (h.forget block)]
        rfl
      | some remaining =>
        rw [left] at forgotten
        rw [forgotten.unique ((h.forget block).apply remaining).2]
        rfl

/-! ## All operations -/

/-- An indexed backlog is a list of different blocks with memos: what it holds, and what it does and
answers next. -/
structure Orderly (indexed : IndexedBacklog) : Prop where
  distinct : indexed.queue.Nodup
  members : ∀ block, block ∈ indexed.members ↔ block ∈ indexed.queue
  arranged : ∀ operation, (∀ inquiry, operation ≠ .extract inquiry) →
    (indexed.apply operation).2.queue = operation.arrange indexed.queue
  revised : ∀ operation block, (indexed.apply operation).2.memo block =
    if operation.names block then operation.revise (indexed.memo block) else indexed.memo block
  waited : ∀ block, (indexed.apply (.remove block)).1 = .removed (decide (block ∈ indexed.queue))
  begun : ∀ block, (indexed.apply (.beginAttempt block)).1 =
    .begun ((indexed.memo block).attempts?.getD 0 + 1)
  handedOut : ∀ inquiry front block back, indexed.queue = front ++ block :: back →
    (indexed.memo block).suits inquiry = true →
    (∀ other ∈ front, (indexed.memo other).suits inquiry = false) →
    indexed.apply (.extract inquiry) = (.extracted (.assigned block),
      { indexed with queue := front ++ back, members := indexed.members.erase block })
  refused : ∀ inquiry, (∀ block ∈ indexed.queue, (indexed.memo block).suits inquiry = false) →
    ∃ refusals, indexed.apply (.extract inquiry) = (.extracted (.refused refusals), indexed) ∧
      refusals.map Prod.fst =
        indexed.queue.filter (fun block => (indexed.memo block).isConsidered inquiry) ∧
      ∀ block reason, (block, reason) ∈ refusals →
        (indexed.memo block).verdict inquiry = .refused reason
  forgotten : ∀ block, ∀ operation ∈ [.downloaded block, .cancelled block],
    block ∉ (indexed.apply operation).2.queue ∧ block ∉ (indexed.apply operation).2.members ∧
      (indexed.apply operation).2.memo block = {}

theorem Represents.orderly (h : indexed.Represents backlog) : indexed.Orderly := by
  obtain rfl := h.same
  have after := fun operation => (h.apply operation).2.same
  constructor
  case distinct => exact h.distinct
  case members => exact h.members
  case arranged =>
    intro operation inquires
    rw [after, Backlog.queue_apply _ inquires]
  case revised =>
    intro operation block
    rw [after, Backlog.memo_apply]
  case waited =>
    intro block
    rw [(h.apply _).1, Backlog.apply, Backlog.contains, List.contains_eq_mem]
  case begun =>
    intro block
    rw [(h.apply _).1, Backlog.apply, Backlog.attemptsOn, Std.ExtTreeMap.getD_eq_getD_getElem?]
    rfl
  case handedOut =>
    intro inquiry front block back split suits refused
    have away : block ∉ front := by
      intro member
      rw [refused block member] at suits
      cases suits
    have waits : block ∈ indexed.queue := by
      rw [split]
      exact List.mem_append_right _ List.mem_cons_self
    have rest : indexed.queue.filter (· ≠ block) = front ++ back := by
      rw [← Backlog.erase_eq_filter h.distinct, split, List.erase_append_right _ away,
        List.erase_cons_head]
    simp only [← Backlog.offers_eq_suits] at suits refused
    rw [IndexedBacklog.apply, h.extract_of_offers split suits refused, IndexedBacklog.remove,
      if_pos (h.contains_eq_true waits)]
    simp only [rest]
  case refused =>
    intro inquiry refused
    simp only [← Backlog.offers_eq_suits] at refused
    refine ⟨indexed.toBacklog.refusals inquiry, ?_, ?_, ?_⟩
    · rw [IndexedBacklog.apply, h.extract_of_refuses refused]
    · rw [Backlog.map_fst_refusals refused, Backlog.considered_eq_filter]
    · intro block reason member
      rw [← Backlog.judge_eq_verdict]
      exact Backlog.judge_of_mem_refusals member
  case forgotten =>
    intro block operation member
    have forgotten : (indexed.forget block).Represents (indexed.toBacklog.forget block) :=
      h.forget block
    have away : block ∉ (indexed.forget block).queue := by
      rw [forgotten.same]
      exact h.distinct.not_mem_erase
    have same : (indexed.apply operation).2 = indexed.forget block := by
      simp only [List.mem_cons, List.not_mem_nil, or_false] at member
      rcases member with rfl | rfl <;> rfl
    rw [same, forgotten.members, forgotten.same, Backlog.memo_forget, if_pos rfl]
    exact ⟨h.distinct.not_mem_erase, h.distinct.not_mem_erase, rfl⟩

/-- It takes as many operations as a word of thirty-two bits can count before a counter runs over
it. -/
theorem countsFit_run (operations : List BacklogOperation)
    (few : operations.length < UInt32.size) : (empty.run operations).CountsFit := by
  intro block
  rw [(Represents.empty.run operations).same]
  refine (Backlog.empty.attemptsOn_run_le_add operations block).trans_lt ?_
  have fresh : Backlog.empty.attemptsOn block = 0 := by simp [Backlog.empty, Backlog.attemptsOn]
  rwa [fresh, Nat.zero_add]

/-- Whatever is done with a backlog from the start, it is a list of different blocks with memos, and
it does and answers what it would without its index. When a block was downloaded or cancelled, all
is as if the block had never been named. The counters are numbers, and words as long as they fit
(`countsFit_run`). -/
theorem orderly_run (operations : List BacklogOperation) :
    (empty.run operations).Orderly ∧
    ((empty.run operations).toBacklog = Backlog.empty.run operations ∧
      ∀ operation, ((empty.run operations).apply operation).1 =
        ((Backlog.empty.run operations).apply operation).1) ∧
    ∀ block, ∀ operation ∈ [.downloaded block, .cancelled block],
      ((empty.run operations).apply operation).2 = empty.run (empty.unnaming block operations) := by
  have started := Represents.empty.run operations
  refine ⟨started.orderly, ⟨started.same, fun operation => (started.apply operation).1⟩, ?_⟩
  intro block operation member
  have same : ((empty.run operations).apply operation).2 = (empty.run operations).forget block := by
    simp only [List.mem_cons, List.not_mem_nil, or_false] at member
    rcases member with rfl | rfl <;> rfl
  have unknown : Backlog.empty.forget block = Backlog.empty := by
    refine Backlog.eq_of_memo_eq rfl fun other => ?_
    rw [Backlog.memo_forget]
    split
    · simp [Backlog.memo, Backlog.empty]
    · rfl
  have still : empty.forget block = empty := by
    have forgotten := Represents.empty.forget block
    rw [unknown] at forgotten
    exact forgotten.unique .empty
  rw [same, forget_run .empty, still]

end IndexedBacklog
end BlockFetch
