import BlockFetch.Proofs.Delivery.Assembly
import BlockFetch.Proofs.Scan.Pause

/-!
# Completion of blocks

The header of a block is live from its arrival until its transactions are complete, the block
arrives in one piece, a newer header takes its place, the attempt on the block ends, or the session
does. The chunk that brings the transactions since the live header to the number that it declares
delivers the block, and no other chunk does. Without a live header chunks mean nothing.
-/
namespace BlockFetch

namespace Operation

def chunk? (operation : Operation) (block : BlockHash) : Option (PeerAddress × UInt64) :=
  match operation with
  | .hear (.chunkDelivered sender other transactions .wire) =>
    if other = block then some (sender, transactions) else none
  | _ => none

def heads (operation : Operation) (block : BlockHash) : Bool :=
  match operation with
  | .hear (.headerDelivered _ header _ .wire) => header.hash = block
  | _ => false

/-- Whether what has arrived of a block before is of no use any more: a header of it arrives, or all
of it in one piece, or the session ends. -/
def supersedes (operation : Operation) (block : BlockHash) : Bool :=
  match operation with
  | .hear (.headerDelivered _ header _ .wire) | .hear (.liteBlockDelivered _ header _)
  | .hear (.rawBlockDelivered _ header _) => header.hash = block
  | .hear .sessionStopped => true
  | _ => false

end Operation

/-- Whether an event is one by which the scheduler announces a whole block as if it came in
parts. -/
def NetworkEvent.isEcho : NetworkEvent → Bool
  | .headerDelivered _ _ _ .scheduler | .chunkDelivered _ _ _ .scheduler => true
  | _ => false

theorem NetworkEvent.isEcho_iff {event : NetworkEvent} :
    event.isEcho = true ↔
      (∃ sender header size, event = .headerDelivered sender header size .scheduler) ∨
        ∃ sender block transactions,
          event = .chunkDelivered sender block transactions .scheduler := by
  constructor
  · intro echo
    cases event with
    | headerDelivered sender header size origin =>
      cases origin with
      | wire => exact nomatch echo
      | scheduler => exact .inl ⟨sender, header, size, rfl⟩
    | chunkDelivered sender block transactions origin =>
      cases origin with
      | wire => exact nomatch echo
      | scheduler => exact .inr ⟨sender, block, transactions, rfl⟩
    | _ => exact nomatch echo
  · rintro (⟨_, _, _, rfl⟩ | ⟨_, _, _, rfl⟩) <;> rfl

/-- The chunks of a block that arrive in a run. -/
def chunksOf (block : BlockHash) (history : List (Timestamp × Operation)) :
    List (PeerAddress × UInt64) :=
  history.filterMap fun timed => timed.2.chunk? block

theorem chunksOf_concat (block : BlockHash) (history : List (Timestamp × Operation))
    (timed : Timestamp × Operation) :
    chunksOf block (history ++ [timed]) =
      chunksOf block history ++ (timed.2.chunk? block).toList := by
  rw [chunksOf, List.filterMap_append]
  cases found : timed.2.chunk? block <;> simp [chunksOf, found]

/-- Whether a step drops what has arrived of a block before it. -/
def Step.drops (step : Step) (block : BlockHash) : Bool :=
  step.lands block || step.operation.supersedes block

namespace Assembly

def opening (assembly : Assembly) : Operation :=
  .hear (.headerDelivered assembly.sender assembly.header assembly.size .wire)

/-- The transactions in all chunks, counted up to the greatest word. -/
def tally (assembly : Assembly) : UInt64 :=
  assembly.chunks.foldl (fun total chunk => saturate (total.toNat + chunk.2.toNat)) 0

def extend (assembly : Assembly) (chunk? : Option (PeerAddress × UInt64)) : Assembly :=
  { assembly with chunks := assembly.chunks ++ chunk?.toList }

/-- An operation is the arrival of the header, and nothing else of the block is there. -/
structure Opens (assembly : Assembly) (operation : Operation) (block : BlockHash) : Prop where
  named : assembly.header.hash = block
  opened : operation = assembly.opening
  fresh : assembly.chunks = []
  incomplete : assembly.tally < assembly.header.transactionCount

variable {assembly : Assembly}

theorem tally_extend (assembly : Assembly) (chunk? : Option (PeerAddress × UInt64)) :
    assembly.tally ≤ (assembly.extend chunk?).tally := by
  cases chunk? with
  | none => simp [tally, extend]
  | some chunk =>
    have bound := assembly.tally.toNat_lt_size
    have last : (assembly.extend (some chunk)).tally =
        saturate (assembly.tally.toNat + chunk.2.toNat) := by
      simp [tally, extend]
    rw [last, UInt64.le_iff_toNat_le, toNat_saturate]
    omega

theorem tally_eq (assembly : Assembly) : assembly.tally = assembly.part.received := by
  obtain ⟨sender, header, size, chunks⟩ := assembly
  induction chunks using List.reverseRecOn with
  | nil => rfl
  | append_singleton earlier last ih =>
    have shape : Assembly.mk sender header size (earlier ++ [last]) =
        (Assembly.mk sender header size earlier).add last.1 last.2 := rfl
    rw [shape, part_add, ← ih]
    simp [tally, add]

theorem isComplete_eq_false_iff :
    assembly.isComplete = false ↔ assembly.tally < assembly.header.transactionCount := by
  rw [← Bool.not_eq_true, isComplete_iff, ← tally_eq, UInt64.not_le]

theorem pending?_eq_some_iff {other : Assembly} :
    assembly.pending? = some other ↔
      other = assembly ∧ assembly.tally < assembly.header.transactionCount := by
  rw [pending?, ← isComplete_eq_false_iff]
  cases assembly.isComplete <;> simp [eq_comm]

end Assembly

namespace Scheduler

/-- A header of a block is live at the end of a run: since it arrived nothing was dropped, and the
chunks since are not complete. -/
structure Live (s : Scheduler) (history : List (Timestamp × Operation)) (block : BlockHash)
    (assembly : Assembly) : Prop where
  named : assembly.header.hash = block
  since : ∃ past time later, history = past ++ (time, assembly.opening) :: later ∧
    assembly.chunks = chunksOf block later ∧
    ∀ step ∈ (s.run (past ++ [(time, assembly.opening)])).steps later, step.drops block = false
  incomplete : assembly.tally < assembly.header.transactionCount

variable {s : Scheduler} {history : List (Timestamp × Operation)} {block : BlockHash}
  {assembly : Assembly}

theorem run_append (s : Scheduler) (early late : List (Timestamp × Operation)) :
    s.run (early ++ late) = (s.run early).run late :=
  List.foldl_append

/-- A header is live after one more step if it has just arrived, or if it was live before and the
step neither drops it nor completes it. -/
theorem live_concat_iff (timed : Timestamp × Operation) :
    s.Live (history ++ [timed]) block assembly ↔
      assembly.Opens timed.2 block ∨ Step.drops ⟨s.run history, timed.1, timed.2⟩ block = false ∧
        ∃ earlier, s.Live history block earlier ∧ earlier.extend (timed.2.chunk? block) = assembly ∧
          assembly.tally < assembly.header.transactionCount := by
  constructor
  · rintro ⟨named, ⟨past, time, later, shape, chunks, kept⟩, incomplete⟩
    rcases List.eq_nil_or_concat later with rfl | ⟨before, last, rfl⟩
    · obtain ⟨-, last⟩ := List.append_inj' shape rfl
      cases last
      exact .inl ⟨named, rfl, chunks, incomplete⟩
    · rw [List.concat_eq_append] at shape chunks kept
      rw [← List.cons_append, ← List.append_assoc] at shape
      obtain ⟨rfl, same⟩ := List.append_inj' shape rfl
      cases same
      rw [steps_concat, ← run_append, List.append_assoc, List.singleton_append] at kept
      have dropped := kept _ (List.mem_append_right _ List.mem_cons_self)
      have extended : Assembly.extend { assembly with chunks := chunksOf block before }
          (timed.2.chunk? block) = assembly := by
        rw [Assembly.extend, ← chunksOf_concat, ← chunks]
      refine .inr ⟨dropped, { assembly with chunks := chunksOf block before },
        ⟨named, ?_, ?_⟩, extended, incomplete⟩
      · exact ⟨past, time, before, rfl, rfl,
          fun step member => kept step (List.mem_append_left _ member)⟩
      · have grown := Assembly.tally_extend { assembly with chunks := chunksOf block before }
          (timed.2.chunk? block)
        rw [extended] at grown
        exact UInt64.lt_of_le_of_lt grown incomplete
  · rintro (⟨named, opened, chunks, incomplete⟩ |
      ⟨dropped, earlier, ⟨named, ⟨past, time, later, rfl, chunks, kept⟩, _⟩, rfl, incomplete⟩)
    · refine ⟨named, ⟨history, timed.1, [], ?_, chunks, ?_⟩, incomplete⟩
      · rw [← opened]
      · intro step member
        exact absurd member List.not_mem_nil
    · refine ⟨named, ⟨past, time, later ++ [timed], ?_, ?_, ?_⟩, incomplete⟩
      · rw [List.append_assoc]
        rfl
      · rw [Assembly.extend, chunks, chunksOf_concat]
      · intro step member
        have opened : (earlier.extend (timed.2.chunk? block)).opening = earlier.opening := rfl
        rw [opened, steps_concat, ← run_append, List.append_assoc, List.singleton_append] at member
        rcases List.mem_append.mp member with before | last
        · exact kept step before
        · rw [List.mem_singleton.mp last]
          exact dropped

/-! ## The live header is the one that is kept -/

theorem not_live_nil : ¬ s.Live [] block assembly := by
  rintro ⟨_, ⟨past, time, later, shape, _⟩, _⟩
  simp at shape

/-- An operation that supersedes nothing at most adds a chunk. -/
theorem assembles_of_supersedes_eq_false {operation : Operation} {live? : Option Assembly}
    (keeps : operation.supersedes block = false)
    (pending : ∀ assembly, live? = some assembly →
      assembly.tally < assembly.header.transactionCount) :
    operation.assembles block live? =
      live?.bind fun assembly => (assembly.extend (operation.chunk? block)).pending? := by
  have still : live? = live?.bind fun assembly => (assembly.extend none).pending? := by
    cases live? with
    | none => rfl
    | some assembly =>
      refine (Assembly.pending?_eq_some_iff.mpr ⟨?_, ?_⟩).symm
      · simp [Assembly.extend]
      · simpa [Assembly.extend] using pending assembly rfl
  cases operation with
  | hear event =>
    cases event with
    | sessionStopped => exact nomatch keeps
    | headerDelivered sender header size origin =>
      cases origin with
      | wire => rwa [Operation.assembles, if_neg (of_decide_eq_false keeps)]
      | scheduler => exact still
    | liteBlockDelivered sender header size =>
      rwa [Operation.assembles, if_neg (of_decide_eq_false keeps)]
    | rawBlockDelivered sender header size =>
      rwa [Operation.assembles, if_neg (of_decide_eq_false keeps)]
    | chunkDelivered sender other transactions origin =>
      cases origin with
      | wire =>
        rw [Operation.assembles, Operation.chunk?]
        split
        · rfl
        · exact still
      | scheduler => exact still
    | _ => exact still
  | _ => exact still

theorem Staged.lands_opening (staged : s.Staged) (more : assembly.header.transactionCount ≠ 0)
    (now : Timestamp) (block : BlockHash) :
    Step.lands ⟨s, now, assembly.opening⟩ block = false := by
  have heard : Quiet s (s.hearHeader assembly.sender assembly.header assembly.size now) := by
    rw [hearHeader, if_neg more]
    exact (quiet_touch s assembly.header.hash now).trans (quiet_setPartials _ _)
  have flying : (Step.after ⟨s, now, assembly.opening⟩).isInFlight block = s.isInFlight block :=
    heard.isInFlight staged block
  rw [Step.lands, flying, Bool.and_not_self]

theorem Assembly.supersedes_opening (assembly : Assembly) :
    assembly.opening.supersedes assembly.header.hash = true :=
  decide_eq_true rfl

/-- An operation that supersedes what has arrived of a block begins an assembly or leaves none. -/
theorem assembles_eq_some_iff_of_supersedes {operation : Operation} {live? : Option Assembly}
    (supersedes : operation.supersedes block = true) :
    operation.assembles block live? = some assembly ↔ assembly.Opens operation block := by
  have gone {operation : Operation} (none : operation.assembles block live? = none)
      (other : operation ≠ assembly.opening) :
      operation.assembles block live? = some assembly ↔ assembly.Opens operation block := by
    refine iff_of_false ?_ fun opens => other opens.opened
    rw [none]
    simp
  cases operation with
  | hear event =>
    cases event with
    | sessionStopped => exact gone rfl (by simp [Assembly.opening])
    | headerDelivered sender header size origin =>
      cases origin with
      | wire =>
        have here : header.hash = block := of_decide_eq_true supersedes
        rw [Operation.assembles, if_pos here, Assembly.pending?_eq_some_iff]
        constructor
        · rintro ⟨rfl, incomplete⟩
          exact ⟨here, rfl, rfl, incomplete⟩
        · rintro ⟨-, opened, chunks, incomplete⟩
          obtain ⟨_, _, _, _⟩ := assembly
          cases opened
          cases chunks
          exact ⟨rfl, incomplete⟩
      | scheduler => cases supersedes
    | liteBlockDelivered sender header size =>
      exact gone (if_pos (of_decide_eq_true supersedes)) (by simp [Assembly.opening])
    | rawBlockDelivered sender header size =>
      exact gone (if_pos (of_decide_eq_true supersedes)) (by simp [Assembly.opening])
    | chunkDelivered sender other transactions origin => cases origin <;> cases supersedes
    | _ => cases supersedes
  | _ => cases supersedes

/-- What becomes of the assembly of a block in a step. -/
theorem next_assembly_eq_some_iff (staged : s.Staged) (timed : Timestamp × Operation)
    {live? : Option Assembly}
    (pending : ∀ assembly, live? = some assembly →
      assembly.tally < assembly.header.transactionCount) :
    (if Step.lands ⟨s, timed.1, timed.2⟩ block then none else timed.2.assembles block live?) =
        some assembly ↔
      assembly.Opens timed.2 block ∨ Step.drops ⟨s, timed.1, timed.2⟩ block = false ∧
        ∃ earlier, live? = some earlier ∧ earlier.extend (timed.2.chunk? block) = assembly ∧
          assembly.tally < assembly.header.transactionCount := by
  cases superseded : timed.2.supersedes block with
  | true =>
    have dropped : Step.drops ⟨s, timed.1, timed.2⟩ block = true := by
      rw [Step.drops, superseded, Bool.or_true]
    rw [dropped, ← assembles_eq_some_iff_of_supersedes superseded]
    simp only [Bool.true_eq_false, false_and, or_false]
    constructor
    · intro next
      split at next
      · exact nomatch next
      · exact next
    · intro next
      -- A header that begins an assembly ends no attempt.
      have opens := (assembles_eq_some_iff_of_supersedes superseded).mp next
      have more : assembly.header.transactionCount ≠ 0 := by
        intro empty
        have incomplete := opens.incomplete
        rw [empty] at incomplete
        exact UInt64.not_lt_zero incomplete
      rw [if_neg, next]
      rw [opens.opened, staged.lands_opening more timed.1 block]
      exact Bool.false_ne_true
  | false =>
    have unopened : ¬ assembly.Opens timed.2 block := by
      rintro ⟨rfl, opened, -, -⟩
      rw [opened, Assembly.supersedes_opening] at superseded
      exact nomatch superseded
    rw [or_iff_right unopened, Step.drops, superseded, Bool.or_false,
      assembles_of_supersedes_eq_false superseded pending]
    cases Step.lands ⟨s, timed.1, timed.2⟩ block with
    | true => simp
    | false =>
      simp only [Bool.false_eq_true, if_false, true_and, Option.bind_eq_some_iff,
        Assembly.pending?_eq_some_iff]
      refine exists_congr fun earlier => and_congr_right fun _ => ?_
      constructor
      · rintro ⟨rfl, incomplete⟩
        exact ⟨rfl, incomplete⟩
      · rintro ⟨rfl, incomplete⟩
        exact ⟨rfl, incomplete⟩

/-- The live header and the chunks since it arrived are the assembly that the scheduler knows the
header and the count of. -/
theorem Reachable.live_iff (h : s.Reachable) :
    s.Live history block assembly ↔ s.assembly? history block = some assembly := by
  induction history using List.reverseRecOn generalizing assembly with
  | nil => exact iff_of_false not_live_nil nofun
  | append_singleton past timed ih =>
    have pending : ∀ assembly, s.assembly? past block = some assembly →
        assembly.tally < assembly.header.transactionCount :=
      fun assembly found => (ih.mpr found).incomplete
    rw [live_concat_iff, assembly?_concat,
      next_assembly_eq_some_iff (h.run past).staged timed pending]
    simp only [ih]

/-! ## Chunks -/

/-- A chunk is the one with which the transactions since the live header reach the number that it
declares. -/
structure Completes (s : Scheduler) (history : List (Timestamp × Operation)) (block : BlockHash)
    (sender : PeerAddress) (transactions : UInt64) (assembly : Assembly) : Prop where
  live : s.Live history block assembly
  enough : assembly.header.transactionCount ≤ (assembly.add sender transactions).tally

/-- What the scheduler makes of the chunks of a block that arrive at the end of a run. -/
structure CountsChunks (s : Scheduler) (history : List (Timestamp × Operation))
    (block : BlockHash) : Prop where
  /-- No more than one header is live. -/
  single : ∀ first second, s.Live history block first → s.Live history block second →
    first = second
  unread : (∀ assembly, ¬ s.Live history block assembly) → ∀ sender transactions now,
    (s.run history).hear (.chunkDelivered sender block transactions .wire) now = s.run history
  counted : ∀ assembly sender transactions now, s.Live history block assembly →
    ¬ s.Completes history block sender transactions assembly →
    (s.run history).hear (.chunkDelivered sender block transactions .wire) now =
        { (s.run history).touch block now with
          partials := (s.run history).partials.insert block
            (assembly.add sender transactions).part } ∧
      s.Live (history ++ [(now, .hear (.chunkDelivered sender block transactions .wire))]) block
        (assembly.add sender transactions)
  completed : ∀ assembly sender transactions now,
    s.Completes history block sender transactions assembly →
    (s.run history).hear (.chunkDelivered sender block transactions .wire) now =
      { (s.run history).touch block now with
        partials := (s.run history).partials.erase block }.succeed sender assembly.header
          assembly.size now
  told : ∀ sender transactions now peer header size,
    (∃ duration, NetworkEvent.blockDownloaded peer header size duration ∈
        Step.events
          ⟨s.run history, now, .hear (.chunkDelivered sender block transactions .wire)⟩) ↔
      peer = sender ∧ (s.run history).isUnwanted block = false ∧
        ∃ assembly, s.Completes history block sender transactions assembly ∧
          assembly.header = header ∧ assembly.size = size
  /-- After a block is complete its chunks mean nothing, until a header of it arrives. -/
  surplus : ∀ assembly sender transactions now later,
    s.Completes history block sender transactions assembly →
    (∀ timed ∈ later, timed.2.heads block = false) → ∀ other more time,
      let reached := s.run
        (history ++ (now, .hear (.chunkDelivered sender block transactions .wire)) :: later)
      reached.hear (.chunkDelivered other block more .wire) time = reached
  /-- What the scheduler itself announces changes nothing. -/
  echoes : ∀ event now later, event.isEcho = true →
    s.run (history ++ (now, .hear event) :: later) = s.run (history ++ later) ∧
      ∀ assembly, s.Live (history ++ (now, .hear event) :: later) block assembly ↔
        s.Live (history ++ later) block assembly

/-- Only a header makes a header live. -/
theorem not_live_append (dead : ∀ assembly, ¬ s.Live history block assembly)
    {later : List (Timestamp × Operation)} (headless : ∀ timed ∈ later, timed.2.heads block = false)
    (assembly : Assembly) : ¬ s.Live (history ++ later) block assembly := by
  induction later using List.reverseRecOn generalizing assembly with
  | nil =>
    rw [List.append_nil]
    exact dead assembly
  | append_singleton before timed ih =>
    rw [← List.append_assoc, live_concat_iff]
    rintro (⟨rfl, opened, -, -⟩ | ⟨-, earlier, live, -⟩)
    · have headed := headless timed (List.mem_append_right _ List.mem_cons_self)
      rw [opened] at headed
      exact absurd rfl (of_decide_eq_false headed)
    · exact ih (fun timed member => headless timed (List.mem_append_left _ member)) earlier live

theorem apply_of_isEcho {event : NetworkEvent} (echo : event.isEcho = true) (s : Scheduler)
    (now : Timestamp) : s.apply now (.hear event) = s := by
  obtain ⟨_, _, _, rfl⟩ | ⟨_, _, _, rfl⟩ := NetworkEvent.isEcho_iff.mp echo <;> rfl

theorem assembles_of_isEcho {event : NetworkEvent} (echo : event.isEcho = true)
    (block : BlockHash) (live? : Option Assembly) :
    Operation.assembles (.hear event) block live? = live? := by
  obtain ⟨_, _, _, rfl⟩ | ⟨_, _, _, rfl⟩ := NetworkEvent.isEcho_iff.mp echo <;> rfl

theorem assembly?_of_isEcho {event : NetworkEvent} (echo : event.isEcho = true)
    (past later : List (Timestamp × Operation)) (now : Timestamp) :
    s.assembly? (past ++ (now, .hear event) :: later) block =
      s.assembly? (past ++ later) block := by
  have stays := apply_of_isEcho echo (s.run past) now
  have landless : Step.lands ⟨s.run past, now, .hear event⟩ block = false := by
    rw [Step.lands, Step.after, stays, Bool.and_not_self]
  rw [assembly?, assembly?, steps_append, steps_append, steps, stays, List.foldl_append,
    List.foldl_append, List.foldl_cons, landless, assembles_of_isEcho echo]
  rfl

section

variable (h : s.Reachable) (unread : s.partials[block]? = none)

include h unread

theorem Reachable.partials_of_live (live : s.Live history block assembly) :
    (s.run history).partials[block]? = some assembly.part := by
  rw [h.partials_run unread, h.live_iff.mp live, Option.map_some]

theorem Reachable.hear_chunk_of_not_live (dead : ∀ assembly, ¬ s.Live history block assembly)
    (sender : PeerAddress) (transactions : UInt64) (now : Timestamp) :
    (s.run history).hear (.chunkDelivered sender block transactions .wire) now =
      s.run history := by
  have missing : (s.run history).partials[block]? = none := by
    rw [h.partials_run unread, Option.map_eq_none_iff, Option.eq_none_iff_forall_not_mem]
    intro assembly found
    exact dead assembly (h.live_iff.mpr found)
  simp only [hear, hearChunk, missing]

theorem Reachable.hear_chunk_of_live (live : s.Live history block assembly) (sender : PeerAddress)
    (transactions : UInt64) (now : Timestamp) :
    (s.run history).hear (.chunkDelivered sender block transactions .wire) now =
      if assembly.header.transactionCount ≤ (assembly.add sender transactions).tally then
        { (s.run history).touch block now with
          partials := (s.run history).partials.erase block }.succeed sender assembly.header
            assembly.size now
      else
        { (s.run history).touch block now with
          partials := (s.run history).partials.insert block
            (assembly.add sender transactions).part } := by
  rw [Assembly.tally_eq, Assembly.part_add]
  simp only [hear, hearChunk, h.partials_of_live unread live]
  rfl

/-- A chunk that leaves others to come is added to the assembly. -/
theorem Reachable.live_add (live : s.Live history block assembly) {sender : PeerAddress}
    {transactions : UInt64} {now : Timestamp}
    (few : (assembly.add sender transactions).tally < assembly.header.transactionCount) :
    s.Live (history ++ [(now, .hear (.chunkDelivered sender block transactions .wire))]) block
      (assembly.add sender transactions) := by
  have heard := h.hear_chunk_of_live unread live sender transactions now
  rw [if_neg (UInt64.not_le.mpr few)] at heard
  refine (live_concat_iff _).mpr (.inr ⟨?_, assembly, live, ?_, few⟩)
  · have flying : (Step.after ⟨s.run history, now,
        .hear (.chunkDelivered sender block transactions .wire)⟩).isInFlight block =
          (s.run history).isInFlight block := (congrArg (isInFlight · block) heard).trans rfl
    rw [Step.drops, Step.lands, flying, Bool.and_not_self]
    rfl
  · simp [Operation.chunk?, Assembly.extend, Assembly.add]

theorem Reachable.not_live_of_completes {sender : PeerAddress} {transactions : UInt64}
    (complete : s.Completes history block sender transactions assembly) (now : Timestamp)
    (next : Assembly) :
    ¬ s.Live (history ++ [(now, .hear (.chunkDelivered sender block transactions .wire))]) block
      next := by
  intro live
  have found := h.partials_of_live unread live
  rw [run_concat, apply, h.hear_chunk_of_live unread complete.live, if_pos complete.enough,
    partials_succeed, complete.live.named, Std.ExtTreeMap.getElem?_erase_self] at found
  cases found

/-- The download is told of the sender of the last chunk, with the live header. -/
theorem Reachable.downloaded_mem_iff_completes (sender : PeerAddress) (transactions : UInt64)
    (now : Timestamp) (peer : PeerAddress) (header : BlockHeader) (size : UInt64) :
    (∃ duration, NetworkEvent.blockDownloaded peer header size duration ∈
        Step.events
          ⟨s.run history, now, .hear (.chunkDelivered sender block transactions .wire)⟩) ↔
      peer = sender ∧ (s.run history).isUnwanted block = false ∧
        ∃ assembly, s.Completes history block sender transactions assembly ∧
          assembly.header = header ∧ assembly.size = size := by
  rw [downloaded_mem_hearChunk_iff (h.partials_run unread history) (h.run history).partsNamed]
  refine and_congr_right fun _ => and_congr_right fun _ => ?_
  constructor
  · rintro ⟨_, found, rfl, rfl, enough⟩
    obtain ⟨assembly, live, rfl⟩ := Option.map_eq_some_iff.mp found
    refine ⟨assembly, ⟨h.live_iff.mpr live, ?_⟩, rfl, rfl⟩
    rwa [Assembly.tally_eq, Assembly.part_add]
  · rintro ⟨assembly, ⟨live, enough⟩, rfl, rfl⟩
    rw [Assembly.tally_eq, Assembly.part_add] at enough
    exact ⟨assembly.part, congrArg _ (h.live_iff.mp live), rfl, rfl, enough⟩

end

/-- In every run from usable settings the chunks of a block are counted from its live header on, and
the one with which they are complete delivers it. -/
theorem counts_chunks {settings : Settings} {streams : StreamTable}
    (usable : create settings streams = .ok s) (history : List (Timestamp × Operation))
    (block : BlockHash) : s.CountsChunks history block := by
  have reachable := Reachable.created usable
  have unread : s.partials[block]? = none := by
    rw [eq_initial_of_create usable]
    exact Std.ExtTreeMap.getElem?_empty
  constructor
  case single =>
    intro first second live other
    rw [reachable.live_iff] at live other
    exact Option.some_inj.mp (live.symm.trans other)
  case unread =>
    intro dead sender transactions now
    exact reachable.hear_chunk_of_not_live unread dead sender transactions now
  case counted =>
    intro assembly sender transactions now live incomplete
    have few : ¬ assembly.header.transactionCount ≤ (assembly.add sender transactions).tally :=
      fun enough => incomplete ⟨live, enough⟩
    refine ⟨?_, reachable.live_add unread live (UInt64.not_le.mp few)⟩
    rw [reachable.hear_chunk_of_live unread live, if_neg few]
  case completed =>
    intro assembly sender transactions now complete
    rw [reachable.hear_chunk_of_live unread complete.live, if_pos complete.enough]
  case told =>
    intro sender transactions now peer header size
    exact reachable.downloaded_mem_iff_completes unread sender transactions now peer header size
  case surplus =>
    intro assembly sender transactions now later complete headless other more time
    refine reachable.hear_chunk_of_not_live unread ?_ other more time
    rw [← List.singleton_append, ← List.append_assoc]
    exact not_live_append (reachable.not_live_of_completes unread complete now) headless
  case echoes =>
    intro event now later echo
    constructor
    · rw [run_append, run_append, run, List.foldl_cons, apply_of_isEcho echo]
      rfl
    · intro assembly
      rw [reachable.live_iff, reachable.live_iff, assembly?_of_isEcho echo]

set_option maxRecDepth 100000 in
/-- The last chunk of the block may be followed by more of them. -/
theorem counts_chunks_overlap :
    let s := initial .brisk .empty
    let last := Operation.hear (.chunkDelivered soleSender .zero 2 .wire)
    create .brisk .empty = .ok s ∧
      s.Completes overlap .zero soleSender 2
        ⟨secondSender, ⟨.zero, .zero, 0, 4⟩, 1_000, [(secondSender, 2)]⟩ ∧
      ∀ more time, (s.run (overlap ++ [(⟨4_100⟩, last)])).hear
        (.chunkDelivered soleSender .zero more .wire) time =
          s.run (overlap ++ [(⟨4_100⟩, last)]) := by
  intro s last
  have usable : create .brisk .empty = .ok s := rfl
  have live : s.assembly? overlap .zero =
      some ⟨secondSender, ⟨.zero, .zero, 0, 4⟩, 1_000, [(secondSender, 2)]⟩ := by cbv
  have complete : s.Completes overlap .zero soleSender 2
      ⟨secondSender, ⟨.zero, .zero, 0, 4⟩, 1_000, [(secondSender, 2)]⟩ :=
    ⟨(Reachable.created usable).live_iff.mpr live, by decide⟩
  refine ⟨usable, complete, fun more time => ?_⟩
  exact (counts_chunks usable overlap .zero).surplus _ soleSender 2 ⟨4_100⟩ [] complete (by simp)
    soleSender more time

end Scheduler
end BlockFetch
