import BlockFetch.Proofs.Lifecycle.Places
import BlockFetch.Proofs.Workload.Outcome

/-!
# Side tables

Beside the places of blocks the scheduler keeps counters of attempts, times of activity, wishes to
cancel, and reasons of refusals. In every state that can be reached they fit the places of blocks
and the peers. So a tick that looks at the blocks in limbo finds a counter and a time for each of
them.
-/
namespace BlockFetch.Scheduler

/-- What is kept beside the places of blocks fits these places and the peers. -/
structure TablesAgree (s : Scheduler) : Prop where
  begun : ∀ block, s.isInFlight block = true → s.backlog.isBegun block = true
  counted : ∀ block, s.backlog.isBegun block = true →
    s.isInFlight block = true ∨ s.backlog.contains block = true
  watched : ∀ block, block ∈ s.lastActivity ↔ s.isInFlight block = true
  cancelling : ∀ block ∈ s.cancelling, s.isInFlight block = true
  refusals : ∀ (peer : PeerAddress) reasons, s.refusals[peer]? = some reasons → reasons ≠ [] ∧
    ∃ record : Peer, s.peers[peer]? = some record ∧
      record.connection = .handshaked ∧ record.work = .idle

/-- Refusals are kept for peers that could take a block, and for each of them there are some. -/
def RefusalsFit (s : Scheduler) : Prop :=
  ∀ (peer : PeerAddress) reasons, s.refusals[peer]? = some reasons →
    reasons ≠ [] ∧ s.IsFreeAt peer

/-- A tick that has looked at some of the blocks in limbo. -/
def midSweep (s : Scheduler) (now : Timestamp) (seen : List BlockHash) : Scheduler :=
  seen.foldl (reconcile now) ({ s with ticks := s.ticks + 1 }.turns now)

/-! ## Tables about blocks -/

section

variable {s : Scheduler} {block : BlockHash} {stage : Stage}

theorem InStage.mem_lastActivity (h : s.InStage block stage) :
    block ∈ s.lastActivity ↔ stage.isUnderway = true := by
  rw [← Std.ExtTreeMap.contains_iff_mem, h.contains_lastActivity]
  cases stage <;> simp [Stage.standing, Stage.isUnderway]

theorem InStage.isBegun_of_isUnderway (h : s.InStage block stage)
    (flies : stage.isUnderway = true) : s.backlog.isBegun block = true := by
  rw [h.isBegun]
  cases stage with
  | underway => rfl
  | _ => exact nomatch flies

theorem InStage.isUnderway_of_mem_limbo (h : s.InStage block stage) (member : block ∈ s.limbo) :
    stage.isUnderway = true := by
  rw [h.inLimbo] at member
  cases stage with
  | underway => rfl
  | _ => exact nomatch member

theorem Staged.tablesAgree (staged : s.Staged) (fits : s.RefusalsFit) : s.TablesAgree where
  begun block flies := by
    obtain ⟨stage, h⟩ := staged.stage block
    rw [h.isInFlight] at flies
    exact h.isBegun_of_isUnderway flies
  counted block begun := by
    obtain ⟨stage, h⟩ := staged.stage block
    rw [h.isBegun] at begun
    rw [h.isInFlight, Backlog.contains, List.contains_iff_mem, h.mem_queue]
    cases stage with
    | underway => exact .inl rfl
    | waiting => exact .inr rfl
    | _ => cases begun
  watched block := by
    obtain ⟨stage, h⟩ := staged.stage block
    rw [h.isInFlight, h.mem_lastActivity]
  cancelling block doomed := by
    obtain ⟨stage, h⟩ := staged.stage block
    rw [← Std.ExtTreeSet.contains_iff_mem, h.contains_cancelling] at doomed
    rw [h.isInFlight]
    cases stage with
    | underway => rfl
    | _ => cases doomed
  refusals peer reasons kept := by
    obtain ⟨some_reason, record, known, available, _⟩ := fits peer reasons kept
    simp only [Peer.isAvailable, Peer.isHandshaked, Bool.and_eq_true, decide_eq_true_eq]
      at available
    exact ⟨some_reason, record, known, available⟩

/-- No block is looked at twice, so each is found as the turns of the tick have left it. -/
theorem Staged.isUnderway_midSweep (staged : s.Staged) (now : Timestamp) {seen rest : List BlockHash}
    (limbo : (s.midSweep now []).limbo.toList = seen ++ block :: rest) :
    ∃ stage, (s.midSweep now seen).InStage block stage ∧ stage.isUnderway = true := by
  have turned : (s.midSweep now []).Staged :=
    (passes_turns ((quiet_setTicks s (s.ticks + 1)).staged staged) now).staged
      ((quiet_setTicks s (s.ticks + 1)).staged staged)
  have member : block ∈ (s.midSweep now []).limbo := by
    rw [← Std.ExtTreeSet.mem_toList, limbo]
    exact List.mem_append_right seen List.mem_cons_self
  have unseen : block ∉ seen := by
    have distinct := BlockSet.nodup_toList (s.midSweep now []).limbo
    rw [limbo, List.nodup_append] at distinct
    exact fun early => distinct.2.2 block early block List.mem_cons_self rfl
  obtain ⟨stage, before⟩ := turned.stage block
  obtain ⟨milestones, passage⟩ := passes_foldl_reconcile turned now seen
  obtain ⟨after, found, _, ⟨early, _⟩ | ⟨_, _, same⟩⟩ := passage.course block stage before
  · exact absurd early unseen
  · exact ⟨stage, same ▸ found, before.isUnderway_of_mem_limbo member⟩

end

/-! ## Refusals -/

section

variable {s t : Scheduler} {peer : PeerAddress}

theorem Spares.refusalsFit (h : Spares s t) (fits : s.RefusalsFit) : t.RefusalsFit := by
  intro peer reasons kept
  rw [h.refusals] at kept
  exact (fits peer reasons kept).imp_right (h.free peer)

/-- Whatever happens to a peer, without refusals there is nothing that it could contradict. -/
theorem RefusalsFit.forget (fits : s.RefusalsFit) (peer : PeerAddress) {change : Peer → Peer}
    (peers : t.peers = (s.modifyPeer peer change).peers)
    (refusals : t.refusals = s.refusals.erase peer) : t.RefusalsFit := by
  intro other reasons kept
  rw [refusals, Std.ExtTreeMap.getElem?_erase] at kept
  split at kept
  · exact nomatch kept
  · rename_i different
    rw [Std.LawfulEqCmp.compare_eq_iff_eq] at different
    obtain ⟨some_reason, free⟩ := fits other reasons kept
    refine ⟨some_reason, ?_⟩
    rw [IsFreeAt, peers]
    exact free.modifyPeer_of_ne different change

theorem Outcome.refusalsFit {now : Timestamp} (h : Outcome now s peer t) (staged : s.Staged)
    (fits : s.RefusalsFit) : t.RefusalsFit := by
  cases h with
  | spared spares => exact spares.refusalsFit fits
  | refused flag reasons known available =>
    intro other kept found
    have free : ({ s with bandwidthRestricted := flag }.noteRefusals peer reasons).IsFreeAt peer :=
      staged.isFreeAt ⟨_, known, available⟩
    unfold noteRefusals at found
    dsimp only at found
    split at found
    · rw [Std.ExtTreeMap.getElem?_erase] at found
      split at found
      · exact nomatch found
      · exact fits other kept found
    · rename_i some_reason
      rw [Std.ExtTreeMap.getElem?_insert] at found
      split at found
      · rename_i here
        cases Std.LawfulEqOrd.eq_of_compare here
        cases found
        exact ⟨fun none => some_reason (List.isEmpty_iff.mpr none), free⟩
      · exact fits other kept found
  | assigned => exact fits.forget peer rfl rfl

theorem RefusalsFit.tick (fits : s.RefusalsFit) (staged : s.Staged) (now : Timestamp) :
    (s.tick now).RefusalsFit := by
  have counted : RefusalsFit { s with ticks := s.ticks + 1 } := fits
  have turned : RefusalsFit ({ s with ticks := s.ticks + 1 }.turns now) :=
    ((quiet_setTicks s _).staged staged).turns_induction
      ((spares_checkBandwidth _).refusalsFit counted)
      fun _ _ _ reached fits outcome _ => outcome.refusalsFit reached fits
  exact (spares_tick_of_turns s now).refusalsFit turned

theorem RefusalsFit.hearDisconnected (fits : s.RefusalsFit) (peer : PeerAddress) (now : Timestamp) :
    (s.hearDisconnected peer now).RefusalsFit := by
  cases known : s.peers[peer]? with
  | none =>
    have unchanged : s.hearDisconnected peer now = s := by
      simp only [Scheduler.hearDisconnected, known]
    rw [unchanged]
    exact fits
  | some record =>
    have detached : (s.detachPeer peer).RefusalsFit := fits.forget peer rfl rfl
    exact (spares_hearDisconnected_of_known known now).refusalsFit detached

theorem RefusalsFit.hear (fits : s.RefusalsFit) (event : NetworkEvent) (now : Timestamp) :
    (s.hear event now).RefusalsFit := by
  by_cases ends : event = .sessionStopped
  · subst ends
    intro peer reasons kept
    exact nomatch Std.ExtTreeMap.getElem?_empty.symm.trans kept
  · by_cases lost : ∃ peer reason, event = .peerDisconnected peer reason
    · obtain ⟨peer, reason, rfl⟩ := lost
      exact fits.hearDisconnected peer now
    · have connected : ∀ peer reason, event ≠ .peerDisconnected peer reason :=
        fun peer reason same => lost ⟨peer, reason, same⟩
      exact (spares_hear s now connected ends).refusalsFit fits

theorem RefusalsFit.apply (fits : s.RefusalsFit) (staged : s.Staged) (now : Timestamp)
    (operation : Operation) : (s.apply now operation).RefusalsFit := by
  cases operation with
  | download request => exact (spares_download s request now).refusalsFit fits
  | cancel blocks => exact (Spares.foldl (spares_cancelBlock now) blocks s).refusalsFit fits
  | hear event => exact fits.hear event now
  | tick => exact fits.tick staged now
  | _ => exact fits

theorem Reachable.refusalsFit (h : s.Reachable) : s.RefusalsFit := by
  induction h with
  | created usable =>
    intro peer reasons kept
    rw [eq_initial_of_create usable] at kept
    exact nomatch Std.ExtTreeMap.getElem?_empty.symm.trans kept
  | applied now operation reachable ih => exact ih.apply reachable.staged now operation
  | drained _ ih => exact ih

end

/-! ## All tables -/

/-- In every state that can be reached the side tables fit the places of blocks and the peers. As a
consequence every block that a tick finds in limbo has a counter of attempts and a time of activity
when it is looked at. -/
theorem Reachable.tables_agree {s : Scheduler} (h : s.Reachable) :
    s.TablesAgree ∧
    ∀ now seen block rest, (s.midSweep now []).limbo.toList = seen ++ block :: rest →
      (s.midSweep now seen).backlog.isBegun block = true ∧
        block ∈ (s.midSweep now seen).lastActivity := by
  refine ⟨h.staged.tablesAgree h.refusalsFit, fun now seen block rest limbo => ?_⟩
  obtain ⟨stage, found, flies⟩ := h.staged.isUnderway_midSweep now limbo
  exact ⟨found.isBegun_of_isUnderway flies, found.mem_lastActivity.mpr flies⟩

/-- The peer that was sending a block is gone. -/
def adrift : Scheduler :=
  sending.apply ⟨3⟩ (.hear (.peerDisconnected soleSender "gone"))

theorem tables_agree_adrift :
    adrift.Reachable ∧ (adrift.midSweep ⟨4⟩ []).limbo.toList = [] ++ BlockHash.zero :: [] ∧
      (adrift.midSweep ⟨4⟩ []).backlog.isBegun .zero = true ∧
      BlockHash.zero ∈ (adrift.midSweep ⟨4⟩ []).lastActivity := by
  have reachable : adrift.Reachable := reachable_sending.applied _ _
  have limbo : (adrift.midSweep ⟨4⟩ []).limbo.toList = [] ++ BlockHash.zero :: [] := by
    decide +kernel
  exact ⟨reachable, limbo, reachable.tables_agree.2 ⟨4⟩ [] .zero [] limbo⟩

end BlockFetch.Scheduler
