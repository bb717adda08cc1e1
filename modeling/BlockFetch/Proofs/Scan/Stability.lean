import BlockFetch.Proofs.Peers.Connections
import BlockFetch.Proofs.Scan.Greedy

/-!
# Acceptance lasts through a scan

While the peers are visited one after the other, some that could take a block become busy. Whoever
may fetch a block may still fetch it then. That is not plain from the rules one by one: a busy
announcer makes another fallback apply than an announcer that is away. But a peer which did not
announce the block is accepted only if no announcer is available, so no announcer becomes busy.
-/
namespace BlockFetch

namespace Pool

/-- Some peers that could take a block get one. -/
def occupy (pool : Pool) (peers : PeerSet) : Pool :=
  ⟨pool.available \ peers, pool.busy ∪ peers⟩

/-- Some peers cannot take a block any more, and get none. -/
def dismiss (pool : Pool) (peers : PeerSet) : Pool :=
  ⟨pool.available \ peers, pool.busy⟩

/-- No peer becomes available, and only those that were available become busy. -/
structure Narrows (before after : Pool) : Prop where
  available : ∀ peer ∈ after.available, peer ∈ before.available
  stillBusy : ∀ peer ∈ before.busy, peer ∈ after.busy
  busy : ∀ peer ∈ after.busy, peer ∈ before.busy ∨ peer ∈ before.available

variable {pool : Pool}

theorem narrows_occupy {peers : PeerSet} (idle : ∀ peer ∈ peers, peer ∈ pool.available) :
    pool.Narrows (pool.occupy peers) where
  available _ member := (Std.ExtTreeSet.mem_diff_iff.mp member).1
  stillBusy _ member := Std.ExtTreeSet.mem_union_of_left member
  busy peer member := (Std.ExtTreeSet.mem_union_iff.mp member).imp_right (idle peer)

theorem narrows_dismiss (pool : Pool) (peers : PeerSet) : pool.Narrows (pool.dismiss peers) where
  available _ member := (Std.ExtTreeSet.mem_diff_iff.mp member).1
  stillBusy _ member := member
  busy _ member := Or.inl member

theorem mem_available_foldl_serve {peers : List PeerAddress} {peer : PeerAddress} :
    peer ∈ (peers.foldl serve pool).available ↔ peer ∈ pool.available ∧ peer ∉ peers := by
  induction peers generalizing pool with
  | nil => simp
  | cons first rest ih =>
    rw [List.foldl_cons, ih, serve, Std.ExtTreeSet.mem_erase, List.mem_cons, not_or]
    have same : compare first peer ≠ .eq ↔ peer ≠ first := by
      rw [Ne, Std.LawfulEqOrd.compare_eq_iff_eq, eq_comm]
    rw [same]
    tauto

theorem mem_busy_foldl_serve {peers : List PeerAddress} {peer : PeerAddress} :
    peer ∈ (peers.foldl serve pool).busy ↔ peer ∈ pool.busy ∨ peer ∈ peers := by
  induction peers generalizing pool with
  | nil => simp
  | cons first rest ih =>
    rw [List.foldl_cons, ih, serve, Std.ExtTreeSet.mem_insert, Std.LawfulEqOrd.compare_eq_iff_eq,
      List.mem_cons, eq_comm]
    tauto

/-- Available peers that are served one after the other become busy. -/
theorem narrows_foldl_serve {peers : List PeerAddress}
    (idle : ∀ peer ∈ peers, peer ∈ pool.available) : pool.Narrows (peers.foldl serve pool) where
  available _ member := (mem_available_foldl_serve.mp member).1
  stillBusy _ member := mem_busy_foldl_serve.mpr (Or.inl member)
  busy peer member := (mem_busy_foldl_serve.mp member).imp_right (idle peer)

end Pool

namespace Eligibility

variable {rule : Eligibility} {claims : Claims} {pool after : Pool} {candidate : PeerAddress}
  {restricted : Bool} {now : Timestamp}

theorem IsFirst.of_narrows (h : IsFirst claims pool candidate) (narrows : pool.Narrows after) :
    IsFirst claims after candidate := by
  rcases h with preferred | unpreferred
  · exact Or.inl preferred
  · exact Or.inr fun other member inPool =>
      unpreferred other member (narrows.available other inPool)

/-- Who may fetch a block without having announced it may do so as long as no announcer becomes
available: then the busy announcers stay the same. -/
theorem Admits.of_narrows (h : rule.Admits claims pool candidate) (narrows : pool.Narrows after) :
    rule.Admits claims after candidate := by
  unfold Admits at h ⊢
  cases criteria : rule.criteria with
  | anyPeer => trivial
  | announcersOnly fallbacks =>
    simp only [criteria] at h ⊢
    rcases h with announced | ⟨uncontested, busy, idle⟩
    · exact Or.inl announced
    have sameBusy : ∀ other ∈ claims.announcers, other ∈ after.busy ↔ other ∈ pool.busy := by
      intro other member
      constructor
      · intro inPool
        exact (narrows.busy other inPool).resolve_right (uncontested other member)
      · exact narrows.stillBusy other
    refine Or.inr ⟨?_, ?_, ?_⟩
    · intro other member inPool
      exact uncontested other member (narrows.available other inPool)
    · rintro ⟨other, member, inPool⟩
      exact busy ⟨other, member, (sameBusy other member).mp inPool⟩
    · intro noneBusy
      refine idle fun other member inPool => noneBusy other member ?_
      exact (sameBusy other member).mpr inPool

/-- A peer that is accepted stays so when the pool narrows. -/
theorem judge_of_narrows (accepted : rule.judge candidate claims pool restricted now = .accepted)
    (narrows : pool.Narrows after) :
    rule.judge candidate claims after restricted now = .accepted := by
  have well := coolingDown_eq_false_of_accepted accepted
  cases restricted with
  | true => simp [judge, well]
  | false =>
    obtain ⟨free, first, admitted⟩ := (judge_eq_accepted_iff well).mp accepted
    exact (judge_eq_accepted_iff well).mpr
      ⟨free, first.of_narrows narrows, admitted.of_narrows narrows⟩

end Eligibility

namespace Scheduler

variable {s : Scheduler} {now : Timestamp} {peer : PeerAddress}

theorem IsAvailableAt.mem_pool (h : s.IsAvailableAt peer) : peer ∈ s.pool.available := by
  obtain ⟨record, known, available⟩ := h
  rw [pool, Std.ExtTreeSet.mem_ofList, List.contains_iff_mem, List.mem_map]
  refine ⟨(peer, record), List.mem_filter.mpr ⟨?_, available⟩, rfl⟩
  exact Std.ExtTreeMap.mem_toList_iff_getElem?_eq_some.mpr known

def Round.visit (round : Round) (now : Timestamp) (peers : List PeerAddress) : Round :=
  peers.foldl (turn now) round

/-- The requests of a tick fall into those before a stretch of the scan, those in it and those after
it. -/
theorem Staged.exists_stretch (staged : s.Staged) (now : Timestamp)
    {before between rest : List PeerAddress}
    (order : s.fastestFirst = before ++ (between ++ rest)) :
    ∃ early made late, Step.requests ⟨s, now, .tick⟩ = early ++ (made ++ late) ∧
      Scanned ⟨s, s.pool⟩ before early (s.opening.visit now before) ∧
      Scanned (s.opening.visit now before) between made
        ((s.opening.visit now before).visit now between) := by
  have opened := scanned_opening staged
  obtain ⟨early, first⟩ := scanned_foldl opened.staged now before
  obtain ⟨made, second⟩ := scanned_foldl first.staged now between
  obtain ⟨late, third⟩ := scanned_foldl second.staged now rest
  refine ⟨early, made, late, ?_, opened.trans first, second⟩
  have whole := (opened.trans first).trans (second.trans third)
  rw [← List.foldl_append, ← List.foldl_append, List.nil_append, ← order] at whole
  exact requests_of_scanned now whole

/-- In a stretch of the scan only available peers become busy: who is served in it was available
from the start and was not served before. -/
theorem Staged.narrows_stretch (staged : s.Staged) (now : Timestamp)
    {before between rest : List PeerAddress}
    (order : s.fastestFirst = before ++ (between ++ rest)) :
    (s.opening.visit now before).pool.Narrows
      ((s.opening.visit now before).visit now between).pool := by
  obtain ⟨early, made, late, requests, first, second⟩ := staged.exists_stretch now order
  rw [second.pool]
  refine Pool.narrows_foldl_serve fun peer served => ?_
  rw [first.pool, Pool.mem_available_foldl_serve]
  obtain ⟨request, member, rfl⟩ := List.mem_map.mp served
  constructor
  · have asked : request ∈ Step.requests ⟨s, now, .tick⟩ := by
      rw [requests]
      exact List.mem_append_right _ (List.mem_append_left _ member)
    exact (staged.isAvailableAt_of_requested asked).mem_pool
  · intro servedBefore
    have distinct := s.nodup_fastestFirst
    rw [order, List.nodup_append] at distinct
    exact distinct.2.2 _ (first.order.subset servedBefore) _
      (List.mem_append_left _ (second.order.subset served)) rfl

theorem Staged.judge_stretch (staged : s.Staged) (now : Timestamp)
    {before between rest : List PeerAddress}
    (order : s.fastestFirst = before ++ (between ++ rest)) {candidate : PeerAddress}
    {restricted : Bool} {block : BlockHash}
    (waits : block ∈ ((s.opening.visit now before).visit now between).scheduler.backlog.queue)
    (accepted : (s.opening.visit now before).scheduler.backlog.judge
      ⟨s.eligibility, candidate, (s.opening.visit now before).pool, restricted, now⟩ block =
        .accepted) :
    ((s.opening.visit now before).visit now between).scheduler.backlog.judge
      ⟨s.eligibility, candidate, ((s.opening.visit now before).visit now between).pool, restricted,
        now⟩ block = .accepted := by
  obtain ⟨_, _, _, _, _, second⟩ := staged.exists_stretch now order
  have known : ((s.opening.visit now before).visit now between).scheduler.backlog.claims block
      candidate = (s.opening.visit now before).scheduler.backlog.claims block candidate := by
    rw [claims_eq_dossier, claims_eq_dossier, second.dossier block waits]
  rw [Backlog.judge, known]
  exact Eligibility.judge_of_narrows accepted (staged.narrows_stretch now order)

/-- Whoever may fetch a block may still fetch it after other available peers became busy, and after
other peers left. So in the scan of a tick, whoever may fetch a block at some point may still fetch
it at every later one at which the block waits, whatever the visits in between have done. -/
theorem acceptance_lasts :
    (∀ (rule : Eligibility) (claims : Claims) (pool : Pool) (restricted : Bool) (now : Timestamp)
        (candidate : PeerAddress) (others : PeerSet),
      rule.judge candidate claims pool restricted now = .accepted →
      ((∀ peer ∈ others, peer ∈ pool.available) →
        rule.judge candidate claims (pool.occupy others) restricted now = .accepted) ∧
      rule.judge candidate claims (pool.dismiss others) restricted now = .accepted) ∧
    ∀ s : Scheduler, s.Reachable → ∀ now before between rest,
      s.fastestFirst = before ++ (between ++ rest) →
      let earlier := s.opening.visit now before
      let later := earlier.visit now between
      ∀ candidate restricted, ∀ block ∈ later.scheduler.backlog.queue,
        earlier.scheduler.backlog.judge
          ⟨earlier.scheduler.eligibility, candidate, earlier.pool, restricted, now⟩ block =
            .accepted →
        later.scheduler.backlog.judge
          ⟨later.scheduler.eligibility, candidate, later.pool, restricted, now⟩ block =
            .accepted := by
  constructor
  · intro rule claims pool restricted now candidate others accepted
    exact ⟨fun idle => Eligibility.judge_of_narrows accepted (Pool.narrows_occupy idle),
      Eligibility.judge_of_narrows accepted (pool.narrows_dismiss others)⟩
  · intro s reachable now before between rest order earlier later candidate restricted block waits
    obtain ⟨_, _, _, _, first, second⟩ := reachable.staged.exists_stretch now order
    have rule : earlier.scheduler.eligibility = s.eligibility := by
      rw [eligibility, first.settings]
      rfl
    have sameRule : later.scheduler.eligibility = s.eligibility := by
      rw [eligibility, (first.trans second).settings]
      rfl
    rw [rule, sameRule]
    exact reachable.staged.judge_stretch now order waits

/-- Nobody who announced the block is connected. One peer gets another block, and the other peer may
still fetch this one; so it is in the scan of a tick with three peers and two blocks. -/
theorem acceptance_lasts_contest :
    let rule : Eligibility := ⟨.announcersOnly ⟨.anyone, .wait⟩, 30_000⟩
    let third : PeerAddress := .v4 #v[10, 0, 0, 4] 8333
    let claims : Claims := ⟨.ofList [third], none, ∅, none⟩
    let pool : Pool := ⟨.ofList [soleSender, secondSender], ∅⟩
    let served : PeerSet := .ofList [soleSender]
    let s := (initial .brisk .empty).run contest
    let later := (s.opening.visit ⟨2⟩ []).visit ⟨2⟩ [soleSender]
    rule.judge secondSender claims pool false ⟨2⟩ = .accepted ∧
      (∀ peer ∈ served, peer ∈ pool.available) ∧
      rule.judge secondSender claims (pool.occupy served) false ⟨2⟩ = .accepted ∧
      s.Reachable ∧ s.fastestFirst = [] ++ ([soleSender] ++ [secondSender, third]) ∧
      later.scheduler.backlog.queue = [.zero] ∧
      later.scheduler.backlog.judge
        ⟨later.scheduler.eligibility, secondSender, later.pool, false, ⟨2⟩⟩ .zero = .accepted := by
  intro rule third claims pool served s later
  obtain ⟨law, scan⟩ := acceptance_lasts
  have accepted : rule.judge secondSender claims pool false ⟨2⟩ = .accepted := by decide +kernel
  have idle : ∀ peer ∈ served, peer ∈ pool.available := by
    intro peer member
    rw [Std.ExtTreeSet.mem_ofList, List.contains_iff_mem] at member ⊢
    rw [List.mem_singleton.mp member]
    exact List.mem_cons_self
  have usable : create .brisk .empty = .ok (initial .brisk .empty) := rfl
  have reachable : s.Reachable := (Reachable.created usable).run contest
  have order : s.fastestFirst = [] ++ ([soleSender] ++ [secondSender, third]) := by
    cbv
  have queue : later.scheduler.backlog.queue = [.zero] := by
    decide +kernel
  refine ⟨accepted, idle, (law _ _ _ _ _ _ _ accepted).1 idle, reachable, order, queue, ?_⟩
  refine scan s reachable ⟨2⟩ [] [soleSender] _ order secondSender false .zero ?_ ?_
  · exact queue ▸ List.mem_singleton_self _
  · decide +kernel

end Scheduler
end BlockFetch
