import Mathlib
import BlockFetch.Proofs.Eligibility.Deferral
import BlockFetch.Proofs.Scan.Rounds

/-!
# The scan is greedy

A tick serves the peers in a fixed order, and each of them gets the first waiting block that it may
fetch. So the requests of a tick are one particular matching of peers and blocks, and a peer that
gets nothing while there is room for a transfer was refused every block that waited at its turn.
-/
namespace BlockFetch.Scheduler

def speedAt? (s : Scheduler) (peer : PeerAddress) : Option UInt64 :=
  (s.peers[peer]?).map Peer.speed

/-- A peer goes before another one if it is faster, or as fast and at a lower address. -/
def GoesBefore (s : Scheduler) (first second : PeerAddress) : Prop :=
  ∃ speed slower, s.speedAt? first = some speed ∧ s.speedAt? second = some slower ∧
    (slower < speed ∨ slower = speed ∧ compare first second = .lt)

/-- Whether there is room for one more transfer: nothing is being transferred, or both the number of
transfers and their bytes are below their limits. -/
def HasRoom (s : Scheduler) : Prop :=
  s.transferCount = 0 ∨
    (s.transferCount < s.settings.maxTransfers.toNat ∧ s.bytesInFlight < s.settings.maxBytes)

/-- What the visit of a peer finds when some requests were made before it in the tick: the blocks of
these requests do not wait any more, their peers are busy, and what is known of the other waiting
blocks is as at the start of the tick. -/
structure Finds (s : Scheduler) (now : Timestamp) (peer : PeerAddress)
    (early : List (PeerAddress × BlockHash)) : Prop where
  queue : (s.roundAt now peer).scheduler.backlog.queue =
    s.backlog.queue.filter fun block => block ∉ early.map Prod.snd
  claims : ∀ block ∈ (s.roundAt now peer).scheduler.backlog.queue, ∀ candidate,
    (s.roundAt now peer).scheduler.backlog.claims block candidate =
      s.backlog.claims block candidate
  pool : (s.roundAt now peer).pool = (early.map Prod.fst).foldl Pool.serve s.pool

def inquiryAt (s : Scheduler) (now : Timestamp) (peer : PeerAddress) : Backlog.Inquiry :=
  ⟨s.eligibility, peer, (s.roundAt now peer).pool, false, now⟩

/-- A peer can take a block both before and after a tick. -/
def StaysAvailable (s : Scheduler) (now : Timestamp) (peer : PeerAddress) : Prop :=
  s.IsAvailableAt peer ∧ (s.tick now).IsAvailableAt peer

/-- The requests of a tick are a greedy matching, and no work is left undone without a reason. -/
structure ScansGreedily (s : Scheduler) (now : Timestamp) : Prop where
  /-- The faster peer is served first, and no peer and no block is served twice. -/
  ordered : (Step.requests ⟨s, now, .tick⟩).Pairwise fun first second =>
    s.GoesBefore first.1 second.1 ∧ first.2 ≠ second.2
  /-- Whoever is served gets the first block that it may fetch, while there is room. -/
  served : ∀ early peer block late,
    Step.requests ⟨s, now, .tick⟩ = early ++ (peer, block) :: late →
    s.IsAvailableAt peer ∧ s.Finds now peer early ∧ (s.roundAt now peer).scheduler.HasRoom ∧
      (s.roundAt now peer).scheduler.backlog.Grants (s.inquiryAt now peer)
        (s.roundAt now peer).scheduler.backlog.queue block
  /-- Whoever is not served was refused all blocks while there was room. -/
  refused : ∀ peer, s.StaysAvailable now peer → ∃ early late,
    Step.requests ⟨s, now, .tick⟩ = early ++ late ∧
    (∀ request ∈ early, s.GoesBefore request.1 peer) ∧
    (∀ request ∈ late, s.GoesBefore peer request.1) ∧ s.Finds now peer early ∧
    ((s.roundAt now peer).scheduler.HasRoom → ∃ reasons,
      (s.roundAt now peer).scheduler.backlog.Refuses (s.inquiryAt now peer)
        (s.roundAt now peer).scheduler.backlog.queue reasons ∧
      (s.tick now).refusals[peer]? = if reasons.isEmpty then none else some reasons)
  /-- Where every peer may fetch every block, no block waits that a peer left idle could fetch. -/
  unclaimed : s.settings.criteria = .anyPeer → ∀ peer, s.StaysAvailable now peer →
    (∀ block ∈ s.backlog.queue, (s.backlog.claims block peer).reservedFor? = none ∧
      (∀ other, other ∉ (s.backlog.claims block peer).preferred) ∧
      s.eligibility.coolingDown (s.backlog.claims block peer) now = false) →
    ¬ (s.roundAt now peer).scheduler.HasRoom ∨
      (s.roundAt now peer).scheduler.backlog.queue = []

variable {s : Scheduler} {now : Timestamp} {peer : PeerAddress}

/-! ## The order of the peers -/

theorem ordered_toList (peers : PeerMap Peer) :
    peers.toList.Pairwise fun first second => compare first.1 second.1 = .lt :=
  Std.ExtTreeMap.ordered_keys_toList

/-- Sorting keeps items in order that need not be exchanged. -/
theorem filter_mergeSort {α : Type} {le : α → α → Bool} {alike : α → Bool}
    (trans : ∀ a b c, le a b = true → le b c = true → le a c = true)
    (total : ∀ a b, (le a b || le b a) = true)
    (h : ∀ a b, alike a = true → alike b = true → le a b = true) (items : List α) :
    (items.mergeSort le).filter alike = items.filter alike := by
  have sorted : (items.filter alike).Pairwise fun a b => le a b = true :=
    List.pairwise_of_forall_mem_list fun a inA b inB =>
      h a b (List.mem_filter.mp inA).2 (List.mem_filter.mp inB).2
  have kept := (List.sublist_mergeSort trans total sorted List.filter_sublist).filter alike
  simp only [List.filter_filter, Bool.and_self] at kept
  have count := ((List.mergeSort_perm items le).filter alike).length_eq
  exact (kept.eq_of_length count.symm).symm

/-- Sorting by speed keeps equally fast peers in the order of their addresses. -/
theorem pairwise_goesBefore (s : Scheduler) : s.fastestFirst.Pairwise s.GoesBefore := by
  rw [fastestFirst, List.pairwise_map]
  have trans : ∀ a b c : PeerAddress × Peer, decide (b.2.speed ≤ a.2.speed) = true →
      decide (c.2.speed ≤ b.2.speed) = true → decide (c.2.speed ≤ a.2.speed) = true := by
    intro a b c first second
    simp only [decide_eq_true_eq] at first second ⊢
    exact UInt64.le_trans second first
  have total : ∀ a b : PeerAddress × Peer,
      (decide (b.2.speed ≤ a.2.speed) || decide (a.2.speed ≤ b.2.speed)) = true := by
    intro a b
    simp only [Bool.or_eq_true, decide_eq_true_eq]
    exact UInt64.le_total ..
  have sorted := List.pairwise_mergeSort trans total s.peers.toList
  refine List.pairwise_iff_forall_sublist.mpr fun {first second} pair => ?_
  have slower : second.2.speed ≤ first.2.speed :=
    of_decide_eq_true (List.pairwise_iff_forall_sublist.mp sorted pair)
  have known : ∀ entry ∈ [first, second], s.speedAt? entry.1 = some entry.2.speed := by
    intro entry member
    have listed := List.mem_mergeSort.mp (pair.subset member)
    rw [speedAt?, Std.ExtTreeMap.mem_toList_iff_getElem?_eq_some.mp listed, Option.map_some]
  refine ⟨first.2.speed, second.2.speed, known first (by simp), known second (by simp), ?_⟩
  rcases UInt64.lt_or_eq_of_le slower with less | same
  · exact .inl less
  · refine .inr ⟨same, ?_⟩
    let alike : PeerAddress × Peer → Bool := fun entry => entry.2.speed = first.2.speed
    have stable : (s.peers.toList.mergeSort fun a b => b.2.speed ≤ a.2.speed).filter alike =
        s.peers.toList.filter alike := by
      refine filter_mergeSort trans total (fun a b likeA likeB => ?_) s.peers.toList
      simp only [alike, decide_eq_true_eq] at likeA likeB ⊢
      exact likeA ▸ likeB ▸ UInt64.le_refl _
    have listed := pair.filter alike
    rw [stable, List.filter_cons_of_pos (by simp [alike]),
      List.filter_cons_of_pos (by simp [alike, same]), List.filter_nil] at listed
    exact List.pairwise_iff_forall_sublist.mp (ordered_toList s.peers)
      (listed.trans List.filter_sublist)

/-- A peer comes after those that are visited before it, and before those that are visited later. -/
theorem goesBefore_of_fastestFirst_eq {before after : List PeerAddress}
    (peers : s.fastestFirst = before ++ peer :: after) :
    (∀ other ∈ before, s.GoesBefore other peer) ∧ ∀ other ∈ after, s.GoesBefore peer other := by
  have order := s.pairwise_goesBefore
  rw [peers, List.pairwise_append, List.pairwise_cons] at order
  obtain ⟨_, ⟨precedes, _⟩, follows⟩ := order
  exact ⟨fun other member => follows other member peer List.mem_cons_self, precedes⟩

/-! ## Visits -/

theorem IsAvailableAt.mem_fastestFirst (h : s.IsAvailableAt peer) : peer ∈ s.fastestFirst := by
  obtain ⟨record, known, _⟩ := h
  exact Scheduler.mem_fastestFirst.mpr ⟨record, known⟩

theorem IsFreeAt.blockAt? (h : s.IsFreeAt peer) : s.blockAt? peer = none := by
  obtain ⟨record, known, _, none⟩ := h
  rw [Scheduler.blockAt?, known, Option.bind_some, Peer.block?, none, Option.map_none]

theorem isAvailableAt_congr {t : Scheduler} (h : t.peers[peer]? = s.peers[peer]?) :
    t.IsAvailableAt peer ↔ s.IsAvailableAt peer := by
  rw [IsAvailableAt, IsAvailableAt, h]

theorem admitsTransfer_iff : s.admitsTransfer = true ↔ s.HasRoom := by
  simp only [admitsTransfer, HasRoom, Bool.or_eq_true, Bool.and_eq_true, decide_eq_true_eq]

/-- While the scheduler is running, blocks are handed out freely if there is room. -/
theorem handOutMode?_of_isRunning (running : s.isRunning = true) :
    s.handOutMode? = if s.admitsTransfer then some false else none := by
  rw [handOutMode?, if_pos running]

/-- A peer that is asked for a block in a tick is busy with it after the tick. -/
theorem Staged.not_isAvailableAt_of_requested (staged : s.Staged) {block : BlockHash}
    (asked : (peer, block) ∈ Step.requests ⟨s, now, .tick⟩) :
    ¬ (s.tick now).IsAvailableAt peer := by
  intro available
  obtain ⟨before, inBefore⟩ := staged.stage block
  obtain ⟨milestones, after, inAfter, said, change⟩ := staged.change now .tick inBefore
  rw [mem_requests, said] at asked
  have passed := List.mem_of_mem_filter asked
  have holds : after.standing.heldBy peer := by
    cases change with
    | requested =>
      cases List.mem_singleton.mp passed
      rfl
    | failed _ failure => cases failure <;> simp at passed
    | delivered delivery => cases delivery <;> simp at passed
    | discardedAndRevived => simp at passed
    | _ => simp at passed
  rw [← inAfter.heldBy] at holds
  have free := ((passes_tick staged now).staged staged).isFreeAt available
  exact nomatch free.blockAt?.symm.trans holds

theorem Scanned.finds {before : List PeerAddress} {early : List (PeerAddress × BlockHash)}
    (h : Scanned ⟨s, s.pool⟩ before early (s.roundAt now peer)) : s.Finds now peer early where
  queue := h.queue
  claims block waits candidate := by
    rw [claims_eq_dossier, claims_eq_dossier, h.dossier block waits]
  pool := h.pool

/-- The inquiry of a visit is made with what the visit finds. -/
theorem Scanned.inquiryAt {before : List PeerAddress} {early : List (PeerAddress × BlockHash)}
    (h : Scanned ⟨s, s.pool⟩ before early (s.roundAt now peer)) :
    s.inquiryAt now peer =
      ⟨(s.roundAt now peer).scheduler.eligibility, peer, (s.roundAt now peer).pool, false,
        now⟩ := by
  rw [Scheduler.inquiryAt, eligibility, eligibility, h.settings]

/-! ## Served and refused peers -/

theorem Staged.served (staged : s.Staged) (running : s.isRunning = true)
    {early late : List (PeerAddress × BlockHash)} {block : BlockHash}
    (whole : Step.requests ⟨s, now, .tick⟩ = early ++ (peer, block) :: late) :
    s.IsAvailableAt peer ∧ s.Finds now peer early ∧ (s.roundAt now peer).scheduler.HasRoom ∧
      (s.roundAt now peer).scheduler.backlog.Grants (s.inquiryAt now peer)
        (s.roundAt now peer).scheduler.backlog.queue block := by
  obtain ⟨before, restricted, unvisited, found, available, mode, grants⟩ :=
    staged.exists_grant whole
  have untouched := (found.untouched peer unvisited).1
  rw [handOutMode?_of_isRunning (found.running.trans running)] at mode
  split at mode
  · rename_i admitted
    cases mode
    exact ⟨(isAvailableAt_congr untouched).mp available, found.finds,
      admitsTransfer_iff.mp admitted, grants _ found.inquiryAt⟩
  · exact nomatch mode

/-- A peer that stays available was visited, and made no request. -/
theorem Staged.refused (staged : s.Staged) (running : s.isRunning = true)
    (stays : s.StaysAvailable now peer) :
    ∃ early late,
      Step.requests ⟨s, now, .tick⟩ = early ++ late ∧
      (∀ request ∈ early, s.GoesBefore request.1 peer) ∧
      (∀ request ∈ late, s.GoesBefore peer request.1) ∧ s.Finds now peer early ∧
      ((s.roundAt now peer).scheduler.HasRoom → ∃ reasons,
        (s.roundAt now peer).scheduler.backlog.Refuses (s.inquiryAt now peer)
          (s.roundAt now peer).scheduler.backlog.queue reasons ∧
        (s.tick now).refusals[peer]? = if reasons.isEmpty then none else some reasons) := by
  obtain ⟨before, after, first, made, rest, next, last, peers, requests, found, visit, later,
    ended⟩ := staged.exists_visit now stays.1.mem_fastestFirst
  have distinct := s.nodup_fastestFirst
  rw [peers, List.nodup_middle, List.nodup_cons, List.mem_append, not_or] at distinct
  obtain ⟨follows, precedes⟩ := goesBefore_of_fastestFirst_eq peers
  have available := (isAvailableAt_congr (found.untouched peer distinct.1.1).1).mpr stays.1
  have kept := (later.untouched peer distinct.1.2).2
  cases visit with
  | passedBy unavailable => exact absurd available unavailable
  | dealt _ deal =>
    have silent : made = [] → Step.requests ⟨s, now, .tick⟩ = first ++ rest := by
      rintro rfl
      rw [requests, List.nil_append]
    have earlier : ∀ request ∈ first, s.GoesBefore request.1 peer := by
      intro request member
      exact follows _ (found.order.subset (List.mem_map_of_mem member))
    have rather : ∀ request ∈ rest, s.GoesBefore peer request.1 := by
      intro request member
      exact precedes _ (later.order.subset (List.mem_map_of_mem member))
    cases deal with
    | closed flag mode =>
      refine ⟨first, rest, silent rfl, earlier, rather, found.finds, fun room => ?_⟩
      rw [handOutMode?_of_isRunning (found.running.trans running), admitsTransfer_iff.mpr room]
        at mode
      exact nomatch mode
    | @refused restricted reasons flag mode refuses =>
      refine ⟨first, rest, silent rfl, earlier, rather, found.finds, fun room => ⟨reasons, ?_, ?_⟩⟩
      · rw [handOutMode?_of_isRunning (found.running.trans running), admitsTransfer_iff.mpr room]
          at mode
        cases mode
        exact refuses _ found.inquiryAt
      · rw [ended.refusals, kept, refusals_noteRefusals, if_pos rfl]
    | @granted _ block =>
      have asked : (peer, block) ∈ Step.requests ⟨s, now, .tick⟩ := by
        rw [requests]
        exact List.mem_append_right first List.mem_cons_self
      exact absurd stays.2 (staged.not_isAvailableAt_of_requested asked)

/-- A block that nobody has a claim to is refused to nobody. -/
theorem judge_eq_accepted_of_unclaimed {backlog : Backlog} {inquiry : Backlog.Inquiry}
    {block : BlockHash} (criteria : inquiry.rule.criteria = .anyPeer)
    (free : inquiry.restricted = false)
    (reserved : (backlog.claims block inquiry.candidate).reservedFor? = none)
    (preferred : ∀ other, other ∉ (backlog.claims block inquiry.candidate).preferred)
    (well : inquiry.rule.coolingDown (backlog.claims block inquiry.candidate) inquiry.now =
      false) :
    backlog.judge inquiry block = .accepted := by
  rw [Backlog.judge, free, Eligibility.judge_eq_accepted_iff well]
  refine ⟨fun owner found => ?_, .inr fun other member => absurd member (preferred other), ?_⟩
  · exact nomatch reserved.symm.trans found
  · rw [Eligibility.Admits, criteria]
    trivial

/-- In every state that can be reached, a tick of a running scheduler scans greedily. -/
theorem Reachable.scansGreedily (h : s.Reachable) (now : Timestamp) (running : s.isRunning = true) :
    s.ScansGreedily now where
  ordered := by
    have scanned := h.staged.scanned_tick now
    have peers := s.pairwise_goesBefore.sublist scanned.order
    have blocks := scanned.distinct
    rw [List.pairwise_map] at peers
    rw [List.nodup_iff_pairwise_ne, List.pairwise_map] at blocks
    exact peers.and blocks
  served _ _ _ _ whole := h.staged.served running whole
  refused _ stays := h.staged.refused running stays
  unclaimed criteria peer stays unclaimed := by
    obtain ⟨early, _, _, _, _, found, refused⟩ := h.staged.refused running stays
    by_cases room : (s.roundAt now peer).scheduler.HasRoom
    · obtain ⟨reasons, ⟨names, judged⟩, _⟩ := refused room
      refine .inr ?_
      -- A reason against a waiting block would be one against a block without claims.
      cases reasons with
      | nil => exact names.symm
      | cons reason rest =>
        have waits : reason.1 ∈ (s.roundAt now peer).scheduler.backlog.queue := by
          rw [← names]
          exact List.mem_cons_self
        have member := waits
        rw [found.queue, List.mem_filter] at member
        obtain ⟨reserved, preferred, well⟩ := unclaimed reason.1 member.1
        rw [← found.claims reason.1 waits] at reserved well
        simp only [← found.claims reason.1 waits] at preferred
        have accepted : (s.roundAt now peer).scheduler.backlog.judge (s.inquiryAt now peer)
            reason.1 = .accepted :=
          judge_eq_accepted_of_unclaimed criteria rfl reserved preferred well
        exact nomatch accepted.symm.trans (judged reason List.mem_cons_self)
    · exact .inl room

/-- Three peers are ready for two blocks. -/
def contest : List (Timestamp × Operation) :=
  [(⟨0⟩, .hear (.peerHandshaked secondSender)), (⟨0⟩, .hear (.peerHandshaked soleSender)),
    (⟨0⟩, .hear (.peerHandshaked (.v4 #v[10, 0, 0, 4] 8333))),
    (⟨1⟩, .download (.plain [ones, .zero]))]

set_option maxRecDepth 100000 in
theorem scansGreedily_contest :
    let s := (initial .brisk .empty).run contest
    s.Reachable ∧ s.isRunning = true ∧
      Step.requests ⟨s, ⟨2⟩, .tick⟩ = [(soleSender, ones), (secondSender, .zero)] ∧
      s.ScansGreedily ⟨2⟩ := by
  intro s
  have usable : create .brisk .empty = .ok (initial .brisk .empty) := rfl
  have reachable : s.Reachable := (Reachable.created usable).run contest
  have running : s.isRunning = true := by decide +kernel
  have requests : Step.requests ⟨s, ⟨2⟩, .tick⟩ = [(soleSender, ones), (secondSender, .zero)] := by
    cbv
  exact ⟨reachable, running, requests, reachable.scansGreedily ⟨2⟩ running⟩

end BlockFetch.Scheduler
