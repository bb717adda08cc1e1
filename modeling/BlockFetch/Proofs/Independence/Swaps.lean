import Mathlib
import BlockFetch.Proofs.Independence.Reactions
import BlockFetch.Proofs.Workload.Counters

/-!
# Swapping steps

Deliveries, cancellations and announcements of different blocks can be swapped: what they leave
behind is the same, and only the order of what they asked of the surroundings tells which came
first. Two answers that blocks were not found cannot be swapped, since either puts its block before
all others.
-/
namespace BlockFetch

/-- The blocks that an operation is about, if it delivers whole blocks, cancels blocks, or says that
a peer has blocks or does not have them. -/
def Operation.subjects? : Operation → Option (List BlockHash)
  | .cancel blocks | .hear (.blocksAnnounced _ blocks) | .hear (.blocksNotFound _ blocks) =>
    some blocks
  | .hear (.rawBlockDelivered _ header _) | .hear (.liteBlockDelivered _ header _) =>
    some [header.hash]
  | .hear (.headerDelivered _ header _ .wire) =>
    if header.transactionCount = 0 then some [header.hash] else none
  | _ => none

def Operation.isNotFound : Operation → Bool
  | .hear (.blocksNotFound _ _) => true
  | _ => false

namespace Scheduler

def sendersOf (s : Scheduler) (blocks : List BlockHash) : Set PeerAddress :=
  fun peer => ∃ block ∈ blocks, s.blockAt? peer = some block

variable {blocks others : List BlockHash} {peers : Set PeerAddress} {s t : Scheduler}
  {deeds : Deeds}

/-- Operations do the same in all states that agree on the blocks they are about. -/
theorem tandem_apply {operation : Operation} (about : operation.subjects? = some blocks)
    (alike : Alike blocks peers s t) (now : Timestamp) :
    Tandem operation.isNotFound blocks peers s t (s.apply now operation)
      (t.apply now operation) := by
  cases operation with
  | cancel listed =>
    cases about
    exact tandem_cancel alike now fun _ => id
  | hear event =>
    cases event with
    | blocksAnnounced peer listed =>
      cases about
      exact tandem_hearAnnounced alike peer fun _ => id
    | blocksNotFound peer listed =>
      cases about
      exact tandem_hearNotFound alike now peer fun _ => id
    | rawBlockDelivered peer header size =>
      cases about
      exact tandem_succeed alike now peer List.mem_cons_self size
    | liteBlockDelivered peer header size =>
      cases about
      exact tandem_hearLiteBlock alike now peer List.mem_cons_self size
    | headerDelivered peer header size origin =>
      cases origin with
      | wire =>
        simp only [Operation.subjects?, Option.ite_none_right_eq_some, Option.some.injEq] at about
        obtain ⟨complete, rfl⟩ := about
        exact tandem_hearHeader alike now peer List.mem_cons_self size complete
      | scheduler => contradiction
    | _ => contradiction
  | _ => contradiction

/-! ## Steps seen from other blocks -/

theorem alike_self (s : Scheduler) (blocks : List BlockHash) :
    Alike blocks (s.sendersOf blocks) s s where
  background := rfl
  dossiers _ _ := rfl
  stations _ _ := rfl
  strangers _ stranger block member :=
    ⟨fun holds => stranger ⟨block, member, holds⟩, fun holds => stranger ⟨block, member, holds⟩⟩

/-- Nobody sends two blocks at once. -/
theorem not_mem_sendersOf (apart : blocks.Disjoint others) {peer : PeerAddress}
    (sends : peer ∈ s.sendersOf blocks) : peer ∉ s.sendersOf others := by
  rintro ⟨other, inOthers, holdsOther⟩
  obtain ⟨block, inBlocks, holds⟩ := sends
  have same : block = other := Option.some.inj (holds.symm.trans holdsOther)
  exact apart inBlocks (same ▸ inOthers)

/-- A step that concerns other blocks leaves the blocks and their senders alike. -/
theorem Reacts.alike (h : Reacts others (s.sendersOf others) deeds s t)
    (apart : blocks.Disjoint others) : Alike blocks (s.sendersOf blocks) s t where
  background := h.background
  dossiers block member := h.dossiers block fun inOthers => apart member inOthers
  stations peer sends := h.stations peer (not_mem_sendersOf apart sends)
  strangers peer stranger block member :=
    ⟨fun holds => stranger ⟨block, member, holds⟩,
      fun holds => stranger ⟨block, member, h.held peer block holds⟩⟩

/-! ## The swap -/

/-- Two steps change a view at their own keys only, and each does there what it would do without the
other. Then the view is the same in both orders. -/
theorem view_swap {κ α : Type} {view : Scheduler → κ → α} {mine theirs : κ → Prop}
    {one two oneTwo twoOne : Scheduler} (apart : ∀ key, mine key → ¬ theirs key)
    (first : ∀ key, ¬ mine key → view one key = view s key)
    (firstAfter : ∀ key, ¬ mine key → view twoOne key = view two key)
    (second : ∀ key, ¬ theirs key → view two key = view s key)
    (secondAfter : ∀ key, ¬ theirs key → view oneTwo key = view one key)
    (firstSame : ∀ key, mine key → view twoOne key = view one key)
    (secondSame : ∀ key, theirs key → view oneTwo key = view two key) (key : κ) :
    view oneTwo key = view twoOne key := by
  by_cases isMine : mine key
  · rw [secondAfter key (apart key isMine), firstSame key isMine]
  · rw [firstAfter key isMine]
    by_cases isTheirs : theirs key
    · exact secondSame key isTheirs
    · rw [secondAfter key isTheirs, first key isMine, second key isTheirs]

/-- Deliveries of whole blocks, cancellations, announcements and one answer that blocks were not
found, about different blocks, leave the same state in either order. Each asks the same of the
surroundings before and after the other. -/
theorem apply_swap (s : Scheduler) (now later : Timestamp) {first second : Operation}
    (about : first.subjects? = some blocks) (aboutOthers : second.subjects? = some others)
    (apart : blocks.Disjoint others)
    (single : first.isNotFound = true → second.isNotFound = false) :
    ((s.apply now first).apply later second).drained =
        ((s.apply later second).apply now first).drained ∧
      ∃ early late, (s.apply now first).outbox = s.outbox ++ early ∧
        (s.apply later second).outbox = s.outbox ++ late ∧
        ((s.apply now first).apply later second).outbox = s.outbox ++ early ++ late ∧
        ((s.apply later second).apply now first).outbox = s.outbox ++ late ++ early := by
  obtain ⟨_, _, alone, _⟩ := (tandem_apply about (alike_self s blocks) now).reacts
  obtain ⟨_, _, aloneOther, _⟩ := (tandem_apply aboutOthers (alike_self s others) later).reacts
  -- Each step leaves alone what the other one looks at, so the other one does the same after it.
  have meets := tandem_apply about (aloneOther.alike apart) now
  have meetsOther := tandem_apply aboutOthers (alone.alike apart.symm) later
  obtain ⟨early, within, before, after⟩ := meets.reacts
  obtain ⟨late, withinOther, beforeOther, afterOther⟩ := meetsOther.reacts
  have free := within.free withinOther apart single
  refine ⟨drained_eq_drained ?_ ?_ ?_ ?_ ?_, early.effects, late.effects, before.outbox,
    beforeOther.outbox, ?_, ?_⟩
  · exact (afterOther.background.trans before.background).trans
      (after.background.trans beforeOther.background).symm
  · exact view_swap (fun _ member => apart member) before.dossiers after.dossiers
      beforeOther.dossiers afterOther.dossiers meets.alike.dossiers meetsOther.alike.dossiers
  · exact view_swap (fun _ => not_mem_sendersOf apart) before.stations after.stations
      beforeOther.stations afterOther.stations meets.alike.stations meetsOther.alike.stations
  · calc ((s.apply now first).apply later second).backlog.queue
        = late.edits.foldl Edit.perform (early.edits.foldl Edit.perform s.backlog.queue) := by
          rw [afterOther.queue, before.queue]
      _ = early.edits.foldl Edit.perform (late.edits.foldl Edit.perform s.backlog.queue) :=
          Edit.foldl_perform_swap free s.backlog.queue
      _ = ((s.apply later second).apply now first).backlog.queue := by
          rw [after.queue, beforeOther.queue]
  · calc ((s.apply now first).apply later second).retries
        = s.retries + early.retries + late.retries := by rw [afterOther.retries, before.retries]
      _ = s.retries + late.retries + early.retries := Nat.add_right_comm ..
      _ = ((s.apply later second).apply now first).retries := by
          rw [after.retries, beforeOther.retries]
  · rw [afterOther.outbox, before.outbox]
  · rw [after.outbox, beforeOther.outbox]

/-- One peer sends the block of zeros, another one the block of ones. -/
def crossing : Scheduler :=
  (initial .brisk .empty).run
    [(⟨0⟩, .hear (.peerHandshaked soleSender)),
      (⟨0⟩, .hear (.peerHandshaked secondSender)), (⟨1⟩, .download (.plain [.zero, ones])),
      (⟨2⟩, .tick)]

set_option maxRecDepth 100000 in
/-- The second peer delivers the block of the first one, and does not have its own. -/
theorem apply_swap_crossing :
    let delivery : Operation :=
      .hear (.rawBlockDelivered secondSender (.untimed .zero .zero 5) 1_000)
    let answer : Operation := .hear (.blocksNotFound secondSender [ones])
    delivery.subjects? = some [.zero] ∧ answer.subjects? = some [ones] ∧
      [BlockHash.zero].Disjoint [ones] ∧
      (delivery.isNotFound = true → answer.isNotFound = false) ∧
      ((crossing.apply ⟨3⟩ delivery).apply ⟨3⟩ answer).outbox.getLast? =
        some (.resetBuffer secondSender) ∧
      ((crossing.apply ⟨3⟩ answer).apply ⟨3⟩ delivery).outbox.getLast? =
        some (.resetBuffer soleSender) ∧
      ((crossing.apply ⟨3⟩ delivery).apply ⟨3⟩ answer).drained =
        ((crossing.apply ⟨3⟩ answer).apply ⟨3⟩ delivery).drained := by
  intro delivery answer
  have apart : [BlockHash.zero].Disjoint [ones] :=
    List.disjoint_singleton.mpr fun same => absurd (List.mem_singleton.mp same) (by decide)
  have single : delivery.isNotFound = true → answer.isNotFound = false := nofun
  have swapped := apply_swap crossing ⟨3⟩ ⟨3⟩ rfl rfl apart single
  refine ⟨rfl, rfl, apart, single, ?_, ?_, swapped.1⟩ <;> cbv

set_option maxRecDepth 100000 in
-- Of two answers that a block was not found, the later one puts its block first.
example :
    let answer : Operation := .hear (.blocksNotFound soleSender [.zero])
    let later : Operation := .hear (.blocksNotFound secondSender [ones])
    ((crossing.apply ⟨3⟩ answer).apply ⟨3⟩ later).backlog.queue = [ones, .zero] ∧
      ((crossing.apply ⟨3⟩ later).apply ⟨3⟩ answer).backlog.queue = [.zero, ones] := by
  constructor <;> cbv

end Scheduler
end BlockFetch
