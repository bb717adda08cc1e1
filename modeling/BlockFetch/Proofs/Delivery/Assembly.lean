import BlockFetch.Proofs.Delivery.Parts
import BlockFetch.Proofs.Lifecycle.Arrivals
import BlockFetch.Proofs.Workload.Counters
import Mathlib

/-!
# Assembly of blocks

A block that comes in parts is put together from a header and the chunks that arrive after it, until
it is complete or the attempt on it ends. Of these the scheduler keeps the header and the number of
transactions, but not who sent what. So a block is complete as soon as enough transactions arrived
after its header, whoever sent them: what is left of a failed attempt counts for the next one, if it
arrives after the header of the next one.
-/
namespace BlockFetch

/-- A header of a block and the chunks that arrived after it, with their senders. -/
structure Assembly where
  sender : PeerAddress
  header : BlockHeader
  size : UInt64
  chunks : List (PeerAddress × UInt64)
  deriving DecidableEq

namespace Assembly

def count (assembly : Assembly) : Nat :=
  (assembly.chunks.map fun chunk => chunk.2.toNat).sum

def add (assembly : Assembly) (sender : PeerAddress) (transactions : UInt64) : Assembly :=
  { assembly with chunks := assembly.chunks ++ [(sender, transactions)] }

def isComplete (assembly : Assembly) : Bool :=
  assembly.header.transactionCount.toNat ≤ assembly.count

/-- An assembly that more is to come for. -/
def pending? (assembly : Assembly) : Option Assembly :=
  if assembly.isComplete then none else some assembly

/-- What the scheduler keeps of an assembly. -/
def part (assembly : Assembly) : PartialBlock :=
  ⟨assembly.header, assembly.size, saturate assembly.count⟩

/-- Whether all chunks came from the peer that sent the header. -/
def FromOnePeer (assembly : Assembly) : Prop :=
  ∀ chunk ∈ assembly.chunks, chunk.1 = assembly.sender

variable (assembly : Assembly) (sender : PeerAddress) (transactions : UInt64)

theorem count_add :
    (assembly.add sender transactions).count = assembly.count + transactions.toNat := by
  simp [count, add]

theorem part_add :
    (assembly.add sender transactions).part =
      { assembly.part with
        received := saturate (assembly.part.received.toNat + transactions.toNat) } := by
  have same : saturate (assembly.count + transactions.toNat) =
      saturate ((saturate assembly.count).toNat + transactions.toNat) := by
    rw [← UInt64.toNat_inj]
    simp only [toNat_saturate]
    omega
  rw [part, count_add, same]
  rfl

/-- The count of the scheduler may stop at the greatest word, but no header declares more. -/
theorem isComplete_iff :
    assembly.isComplete = true ↔ assembly.header.transactionCount ≤ assembly.part.received := by
  have bound := assembly.header.transactionCount.toNat_lt_size
  rw [isComplete, decide_eq_true_eq, UInt64.le_iff_toNat_le, part, toNat_saturate]
  omega

/-- Whether a chunk completes an assembly is decided by the count that the scheduler keeps. -/
theorem isComplete_add_iff :
    (assembly.add sender transactions).isComplete = true ↔
      assembly.header.transactionCount ≤
        saturate (assembly.part.received.toNat + transactions.toNat) := by
  rw [isComplete_iff, part_add]
  rfl

theorem pending?_add :
    (assembly.add sender transactions).pending?.map part =
      if assembly.header.transactionCount ≤
        saturate (assembly.part.received.toNat + transactions.toNat) then none
      else some { assembly.part with
        received := saturate (assembly.part.received.toNat + transactions.toNat) } := by
  have complete := assembly.isComplete_add_iff sender transactions
  rw [pending?]
  by_cases enough : (assembly.add sender transactions).isComplete = true
  · rw [if_pos enough, if_pos (complete.mp enough)]
    rfl
  · rw [if_neg enough, if_neg (mt complete.mpr enough), Option.map_some, part_add]

end Assembly

/-- What an operation makes of the assembly of a block: a header begins it, chunks are added to it
until it is complete, and it is dropped when the block arrives in one piece or the session ends. -/
def Operation.assembles (operation : Operation) (block : BlockHash) (live? : Option Assembly) :
    Option Assembly :=
  match operation with
  | .hear (.headerDelivered sender header size .wire) =>
    if header.hash = block then (Assembly.mk sender header size []).pending? else live?
  | .hear (.chunkDelivered sender other transactions .wire) =>
    if other = block then live?.bind fun assembly => (assembly.add sender transactions).pending?
    else live?
  | .hear (.liteBlockDelivered _ header _) | .hear (.rawBlockDelivered _ header _) =>
    if header.hash = block then none else live?
  | .hear .sessionStopped => none
  | _ => live?

namespace Step

/-- Whether the attempt on a block ends in a step. -/
def lands (step : Step) (block : BlockHash) : Bool :=
  step.before.isInFlight block && !step.after.isInFlight block

def events (step : Step) : List NetworkEvent :=
  step.after.events.drop step.before.events.length

end Step

/-- The live header of a block at the end of a run, with the chunks since. It is live until the
block is complete or the attempt on it ends. -/
def Scheduler.assembly? (s : Scheduler) (history : List (Timestamp × Operation))
    (block : BlockHash) : Option Assembly :=
  (s.steps history).foldl (fun live? step =>
    if step.lands block then none else step.operation.assembles block live?) none

/-! ## One step -/

namespace Scheduler

variable {s t : Scheduler} {now : Timestamp} {block : BlockHash} {live? next? : Option Assembly}

/-- After a step the scheduler keeps the next assembly of a block, unless the attempt on the block
has ended. -/
def Continues (s t : Scheduler) (block : BlockHash) (next? : Option Assembly) : Prop :=
  t.partials[block]? =
    (if s.isInFlight block && !t.isInFlight block then none else next?).map Assembly.part

theorem Continues.of_isInFlight_eq (flying : t.isInFlight block = s.isInFlight block)
    (kept : t.partials[block]? = next?.map Assembly.part) : Continues s t block next? := by
  rw [Continues, flying, Bool.and_not_self, kept]
  rfl

theorem Sheds.continues (sheds : Sheds s t) (kept : s.partials[block]? = live?.map Assembly.part) :
    Continues s t block live? := by
  rw [Continues, sheds.partials, kept]
  split <;> rfl

theorem continues_succeed (quiet : Quiet s t) (staged : s.Staged) {header : BlockHeader}
    (others : ∀ other, header.hash ≠ other → t.partials[other]? = s.partials[other]?)
    (kept : s.partials[block]? = live?.map Assembly.part) (sender : PeerAddress) (size : UInt64)
    (now : Timestamp) :
    Continues s (t.succeed sender header size now) block
      (if header.hash = block then none else live?) := by
  have erased := partials_succeed t sender header size now
  by_cases here : header.hash = block
  · subst here
    rw [Continues, erased, Std.ExtTreeMap.getElem?_erase_self, if_pos rfl, ite_self]
    rfl
  · have passes := quiet.passes_succeed staged sender header size now
    have flying := passes.isInFlight_of_not_mem staged
      fun member => here (List.mem_singleton.mp member).symm
    rw [if_neg here]
    refine .of_isInFlight_eq flying ?_
    rw [erased, Std.ExtTreeMap.getElem?_erase, if_neg (by simpa using here), others block here,
      kept]

theorem continues_hearHeader (staged : s.Staged)
    (kept : s.partials[block]? = live?.map Assembly.part) (sender : PeerAddress)
    (header : BlockHeader) (size : UInt64) (now : Timestamp) :
    Continues s (s.hearHeader sender header size now) block
      (if header.hash = block then (Assembly.mk sender header size []).pending? else live?) := by
  have heard := quiet_touch s header.hash now
  have complete : (Assembly.mk sender header size []).isComplete = true ↔
      header.transactionCount = 0 := by
    simp [Assembly.isComplete, Assembly.count, ← UInt64.toNat_inj]
  unfold hearHeader
  extract_lets touched
  rw [Assembly.pending?]
  split
  · rename_i empty
    rw [if_pos (complete.mpr empty)]
    exact continues_succeed heard staged (fun _ _ => rfl) kept sender size now
  · rename_i more
    rw [if_neg (mt complete.mp more)]
    refine .of_isInFlight_eq ((heard.trans (quiet_setPartials _ _)).isInFlight staged block) ?_
    rw [Std.ExtTreeMap.getElem?_insert]
    simp only [Std.LawfulEqCmp.compare_eq_iff_eq]
    split
    · rfl
    · exact kept

theorem continues_hearChunk {other : BlockHash} (staged : s.Staged) (named : s.PartsNamed)
    (kept : s.partials[block]? = live?.map Assembly.part) (sender : PeerAddress)
    (transactions : UInt64) (now : Timestamp) :
    Continues s (s.hearChunk sender other transactions now) block
      (if other = block then
        live?.bind fun assembly => (assembly.add sender transactions).pending?
      else live?) := by
  have heard := quiet_touch s other now
  unfold hearChunk
  split
  · rename_i unread
    refine .of_isInFlight_eq rfl ?_
    split
    · rename_i here
      rw [here, kept, Option.map_eq_none_iff] at unread
      rw [kept, unread]
      rfl
    · exact kept
  · rename_i part found
    -- What the assembly becomes, if it is the one of this block.
    have next : other = block →
        (live?.bind fun assembly => (assembly.add sender transactions).pending?).map
            Assembly.part =
          if part.header.transactionCount ≤
            saturate (part.received.toNat + transactions.toNat) then none
          else some { part with
            received := saturate (part.received.toNat + transactions.toNat) } := by
      intro here
      rw [here, kept, Option.map_eq_some_iff] at found
      obtain ⟨assembly, rfl, rfl⟩ := found
      exact assembly.pending?_add sender transactions
    extract_lets received touched
    split
    · rename_i enough
      have name : part.header.hash = other := named other part found
      have read := heard.trans (quiet_setPartials touched (touched.partials.erase other))
      have others : ∀ third, part.header.hash ≠ third →
          (touched.partials.erase other)[third]? = s.partials[third]? := by
        intro third different
        rw [Std.ExtTreeMap.getElem?_erase, if_neg (by simpa [name] using different)]
        rfl
      have delivered := continues_succeed read staged others kept sender part.size now
      rw [name] at delivered
      by_cases here : other = block
      · rw [if_pos here] at delivered ⊢
        rw [if_pos enough] at next
        rwa [Option.map_eq_none_iff.mp (next here)]
      · rwa [if_neg here] at delivered ⊢
    · rename_i more
      refine .of_isInFlight_eq ((heard.trans (quiet_setPartials _ _)).isInFlight staged block) ?_
      rw [Std.ExtTreeMap.getElem?_insert]
      simp only [Std.LawfulEqCmp.compare_eq_iff_eq]
      split
      · rename_i here
        rw [next here, if_neg more]
      · exact kept

theorem continues_hear (staged : s.Staged) (named : s.PartsNamed)
    (kept : s.partials[block]? = live?.map Assembly.part) (event : NetworkEvent)
    (now : Timestamp) :
    Continues s (s.hear event now) block (Operation.assembles (.hear event) block live?) := by
  have quiet {t : Scheduler} (quiet : Quiet s t) (same : t.partials = s.partials) :
      Continues s t block live? :=
    .of_isInFlight_eq (quiet.isInFlight staged block) (same ▸ kept)
  cases event with
  | sessionStopped =>
    have dropped : (s.endSession now).partials[block]? = none := Std.ExtTreeMap.getElem?_empty
    rw [Continues, Operation.assembles, ite_self]
    exact dropped
  | peerConnected peer => exact quiet (quiet_hearConnected staged peer) (partials_hearConnected s peer)
  | peerHandshaked peer => exact quiet (quiet_hearHandshaked s peer) rfl
  | peerDisconnected peer =>
    have same := partials_hearDisconnected s peer now
    refine .of_isInFlight_eq ?_ (same ▸ kept)
    obtain ⟨milestones, passage⟩ := passes_hearDisconnected staged peer now
    obtain ⟨before, inBefore⟩ := staged.stage block
    obtain ⟨after, inAfter, _, loss⟩ := passage.course block before inBefore
    generalize milestones block = passed at loss
    exact inAfter.isInFlight.trans (by cases loss <;> exact inBefore.isInFlight.symm)
  | blocksAnnounced peer blocks => exact quiet (quiet_hearAnnounced s peer blocks) rfl
  | blocksNotFound peer blocks => exact (sheds_hearNotFound staged peer blocks now).continues kept
  | headerDelivered sender header size origin =>
    cases origin with
    | wire => exact continues_hearHeader staged kept sender header size now
    | scheduler => exact quiet (.refl s) rfl
  | chunkDelivered sender other transactions origin =>
    cases origin with
    | wire => exact continues_hearChunk staged named kept sender transactions now
    | scheduler => exact quiet (.refl s) rfl
  | liteBlockDelivered sender header size =>
    change Continues s (s.hearLiteBlock sender header size now) block _
    unfold hearLiteBlock
    split
    · exact continues_succeed (.refl s) staged (fun _ _ => rfl) kept sender size now
    · extract_lets head body
      have first : Quiet s head := quiet_publish s fun _ => rfl
      have second : Quiet head body := quiet_publish head fun _ => rfl
      exact continues_succeed (first.trans second) staged (fun _ _ => rfl) kept sender size now
  | rawBlockDelivered sender header size =>
    exact continues_succeed (.refl s) staged (fun _ _ => rfl) kept sender size now
  | _ => exact (Sheds.of_tables rfl rfl rfl).continues kept

/-- Every operation makes of the assembly what it should, as far as the scheduler knows of it. -/
theorem continues_apply (staged : s.Staged) (named : s.PartsNamed)
    (kept : s.partials[block]? = live?.map Assembly.part) (now : Timestamp)
    (operation : Operation) :
    Continues s (s.apply now operation) block (operation.assembles block live?) := by
  cases operation with
  | download request =>
    obtain ⟨_, _, shape, _⟩ := download_eq s request now
    rw [apply, shape]
    exact (Sheds.of_tables rfl rfl rfl).continues kept
  | cancel blocks =>
    have each : ∀ s block, Sheds s (cancelBlock now s block) := by
      intro s block
      unfold cancelBlock
      split
      · exact .refl s
      · split <;> exact .of_tables rfl rfl rfl
    have all : ∀ (blocks : List BlockHash) s, Sheds s (blocks.foldl (cancelBlock now) s) := by
      intro blocks
      induction blocks with
      | nil => exact .refl
      | cons first rest ih => exact fun s => (each s first).trans (ih _)
    exact (all blocks s).continues kept
  | hear event => exact continues_hear staged named kept event now
  | tick =>
    rw [Continues, apply, partials_tick staged now block, kept]
    split <;> rfl
  | _ => exact (Sheds.of_tables rfl rfl rfl).continues kept

/-! ## Whole runs -/

theorem assembly?_concat (s : Scheduler) (history : List (Timestamp × Operation))
    (timed : Timestamp × Operation) (block : BlockHash) :
    s.assembly? (history ++ [timed]) block =
      if Step.lands ⟨s.run history, timed.1, timed.2⟩ block then none
      else timed.2.assembles block (s.assembly? history block) := by
  rw [assembly?, steps_concat, List.foldl_concat, assembly?]

/-- At any time the scheduler keeps the header and the count of the live assembly. -/
theorem Reachable.partials_run (h : s.Reachable) (unread : s.partials[block]? = none)
    (history : List (Timestamp × Operation)) :
    (s.run history).partials[block]? = (s.assembly? history block).map Assembly.part := by
  induction history using List.reverseRecOn with
  | nil => exact unread
  | append_singleton past timed ih =>
    have reached := h.run past
    rw [run_concat, assembly?_concat]
    exact continues_apply reached.staged reached.partsNamed ih timed.1 timed.2

/-! ## Completion -/

theorem Step.events_eq {step : Step} {events : List NetworkEvent}
    (said : step.after.events = step.before.events ++ events) : step.events = events := by
  rw [Step.events, said, List.drop_left]

/-- A chunk completes a block if it brings the count to what the header declares. -/
theorem downloaded_mem_hearChunk_iff {part? : Option PartialBlock}
    (kept : s.partials[block]? = part?) (named : s.PartsNamed) (now : Timestamp)
    (sender : PeerAddress) (transactions : UInt64) (peer : PeerAddress) (header : BlockHeader)
    (size : UInt64) :
    (∃ duration, NetworkEvent.blockDownloaded peer header size duration ∈
        Step.events ⟨s, now, .hear (.chunkDelivered sender block transactions .wire)⟩) ↔
      peer = sender ∧ s.isUnwanted block = false ∧
        ∃ part, part? = some part ∧ part.header = header ∧ part.size = size ∧
          header.transactionCount ≤ saturate (part.received.toNat + transactions.toNat) := by
  set step : Step := ⟨s, now, .hear (.chunkDelivered sender block transactions .wire)⟩
  have after : step.after = s.hearChunk sender block transactions now := rfl
  cases part? with
  | none =>
    have silent : step.events = [] := by
      refine Step.events_eq ?_
      rw [after, hearChunk, kept, List.append_nil]
    simp [silent]
  | some part =>
    have here : part.header.hash = block := named block part kept
    by_cases complete :
        part.header.transactionCount ≤ saturate (part.received.toNat + transactions.toNat)
    · obtain ⟨duration, freed, told⟩ := events_succeed
        { s.touch block now with partials := (s.touch block now).partials.erase block }
        sender part.header part.size now
      have said : step.events = _ := Step.events_eq (by
        rw [after, hearChunk, kept]
        simp only [ge_iff_le, complete, if_true]
        exact told)
      have same : { s.touch block now with
          partials := (s.touch block now).partials.erase block }.isUnwanted part.header.hash =
            s.isUnwanted block := by
        rw [here]
        rfl
      rw [said, same]
      cases s.isUnwanted block with
      | true => simp
      | false =>
        simp only [Bool.false_eq_true, if_false, List.singleton_append, List.mem_cons,
          NetworkEvent.blockDownloaded.injEq, List.mem_map, reduceCtorEq, and_false]
        constructor
        · rintro ⟨_, ⟨rfl, rfl, rfl, -⟩ | ⟨_, ⟨⟩⟩⟩
          exact ⟨rfl, trivial, part, rfl, rfl, rfl, complete⟩
        · rintro ⟨rfl, -, _, ⟨⟩, rfl, rfl, -⟩
          exact ⟨duration, .inl ⟨rfl, rfl, rfl, rfl⟩⟩
    · have silent : step.events = [] := by
        refine Step.events_eq ?_
        rw [after, hearChunk, kept]
        simp only [ge_iff_le, complete, if_false, List.append_nil]
        rfl
      rw [silent]
      constructor
      · rintro ⟨_, member⟩
        exact nomatch member
      · rintro ⟨-, -, _, ⟨⟩, rfl, -, enough⟩
        exact absurd enough complete

/-- In every run from usable settings: a chunk completes a block exactly if the block is wanted and,
together with the chunk, all chunks since its live header have the transactions that the header
declares. Neither the sender of the header nor those of the earlier chunks matter, and the download
is told of whoever sent the last chunk. -/
theorem chunk_completes_iff {settings : Settings} {streams : StreamTable}
    (usable : create settings streams = .ok s) (history : List (Timestamp × Operation))
    (now : Timestamp) (sender : PeerAddress) (block : BlockHash) (transactions : UInt64)
    (peer : PeerAddress) (header : BlockHeader) (size : UInt64) :
    (∃ duration, NetworkEvent.blockDownloaded peer header size duration ∈
        Step.events
          ⟨s.run history, now, .hear (.chunkDelivered sender block transactions .wire)⟩) ↔
      peer = sender ∧ (s.run history).isUnwanted block = false ∧
        ∃ assembly, s.assembly? history block = some assembly ∧ assembly.header = header ∧
          assembly.size = size ∧
          header.transactionCount.toNat ≤ (assembly.add sender transactions).count := by
  have unread : s.partials[block]? = none := by
    rw [eq_initial_of_create usable]
    exact Std.ExtTreeMap.getElem?_empty
  have reachable := Reachable.created usable
  have complete (assembly : Assembly) := assembly.isComplete_add_iff sender transactions
  rw [downloaded_mem_hearChunk_iff (reachable.partials_run unread history)
    (reachable.run history).partsNamed]
  constructor
  · rintro ⟨rfl, wanted, _, found, rfl, rfl, enough⟩
    obtain ⟨assembly, live, rfl⟩ := Option.map_eq_some_iff.mp found
    exact ⟨rfl, wanted, assembly, live, rfl, rfl, of_decide_eq_true ((complete _).mpr enough)⟩
  · rintro ⟨rfl, wanted, assembly, live, rfl, rfl, enough⟩
    refine ⟨rfl, wanted, assembly.part, ?_, rfl, rfl, (complete _).mp (decide_eq_true enough)⟩
    rw [live, Option.map_some]

/-- A peer stalls after the first chunk, the block is given to another one, and the first peer goes
on when the other one is halfway. -/
def overlap : List (Timestamp × Operation) :=
  [(⟨0⟩, .hear (.peerHandshaked soleSender)), (⟨0⟩, .hear (.peerHandshaked secondSender)),
    (⟨0⟩, .download (.plain [.zero])), (⟨0⟩, .tick),
    (⟨0⟩, .hear (.headerDelivered soleSender ⟨.zero, .zero, 0, 4⟩ 1_000 .wire)),
    (⟨0⟩, .hear (.chunkDelivered soleSender .zero 1 .wire)),
    (⟨1_500⟩, .tick), (⟨4_000⟩, .tick), (⟨4_100⟩, .tick),
    (⟨4_100⟩, .hear (.headerDelivered secondSender ⟨.zero, .zero, 0, 4⟩ 1_000 .wire)),
    (⟨4_100⟩, .hear (.chunkDelivered secondSender .zero 2 .wire))]

set_option maxRecDepth 100000 in
theorem chunk_completes_overlap :
    let s := initial .brisk .empty
    create .brisk .empty = .ok s ∧
      ∃ duration, NetworkEvent.blockDownloaded soleSender ⟨.zero, .zero, 0, 4⟩ 1_000 duration ∈
        Step.events
          ⟨s.run overlap, ⟨4_100⟩, .hear (.chunkDelivered soleSender .zero 2 .wire)⟩ := by
  intro s
  have usable : create .brisk .empty = .ok s := rfl
  have wanted : (s.run overlap).isUnwanted .zero = false := by cbv
  have live : s.assembly? overlap .zero =
      some ⟨secondSender, ⟨.zero, .zero, 0, 4⟩, 1_000, [(secondSender, 2)]⟩ := by cbv
  refine ⟨usable, (chunk_completes_iff usable overlap ..).mpr ?_⟩
  exact ⟨rfl, wanted, _, live, rfl, rfl, by decide⟩

set_option maxRecDepth 100000 in
/-- A block can be completed although no peer delivered all of it. -/
theorem exists_mixed_download :
    ∃ history now sender block transactions peer header size duration assembly,
      NetworkEvent.blockDownloaded peer header size duration ∈
        Step.events ⟨(initial .brisk .empty).run history, now,
          .hear (.chunkDelivered sender block transactions .wire)⟩ ∧
      (initial .brisk .empty).assembly? history block = some assembly ∧
      ¬ (assembly.add sender transactions).FromOnePeer := by
  have said : Step.events ⟨(initial .brisk .empty).run overlap, ⟨4_100⟩,
      .hear (.chunkDelivered soleSender .zero 2 .wire)⟩ =
        [.blockDownloaded soleSender ⟨.zero, .zero, 0, 4⟩ 1_000 0,
          .keepAlive secondSender true] := by cbv
  have live : (initial .brisk .empty).assembly? overlap .zero =
      some ⟨secondSender, ⟨.zero, .zero, 0, 4⟩, 1_000, [(secondSender, 2)]⟩ := by cbv
  refine ⟨_, _, _, _, _, _, _, _, _, _, said ▸ List.mem_cons_self, live, fun alone => ?_⟩
  exact absurd (alone (soleSender, 2) (by simp [Assembly.add])) (by decide)

end Scheduler
end BlockFetch
