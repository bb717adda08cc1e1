import BlockFetch.Proofs.Workload.Ease

/-!
# What comes of a turn

A peer that can take work is given a block or told why it gets none, or it is not asked at all; the
turn of any other peer gives no work. What is proved about the turns of a tick is proved by these
three cases.
-/
namespace BlockFetch.Scheduler

/-- What may come of the turn of a peer. Whether the peer is offered a block, and which blocks it is
offered, is decided by the state that the turn finds. -/
inductive Outcome (now : Timestamp) (s : Scheduler) (peer : PeerAddress) : Scheduler → Prop where
  | spared {t : Scheduler} (spares : Spares s t)
      (attempts : t.backlog.attempts = s.backlog.attempts)
      (running : t.isRunning = s.isRunning) : Outcome now s peer t
  | refused {record : Peer} (bandwidthRestricted : Bool) (refusals : List (BlockHash × Refusal))
      (known : s.peers[peer]? = some record) (available : record.isAvailable = true) :
      Outcome now s peer ({ s with bandwidthRestricted }.noteRefusals peer refusals)
  | assigned {record : Peer} {block : BlockHash} {restricted : Bool} (bandwidthRestricted : Bool)
      (known : s.peers[peer]? = some record) (available : record.isAvailable = true)
      (mode : s.handOutMode? = some restricted) (waits : block ∈ s.backlog.queue)
      (begun : restricted = true → s.backlog.isBegun block = true) :
      Outcome now s peer
        ({ s with bandwidthRestricted, backlog := s.backlog.remove block }.assign peer block now)

variable {s : Scheduler}

/-- Looking at the bandwidth sets a flag, on which nothing depends. -/
theorem checkBandwidth_eq (s : Scheduler) :
    ∃ bandwidthRestricted, s.checkBandwidth = { s with bandwidthRestricted } :=
  ⟨_, rfl⟩

inductive Offer (now : Timestamp) (s : Scheduler) (peer : PeerAddress) : Scheduler → Prop where
  | unasked (bandwidthRestricted : Bool) : Offer now s peer { s with bandwidthRestricted }
  | refused (bandwidthRestricted : Bool) (refusals : List (BlockHash × Refusal)) :
      Offer now s peer ({ s with bandwidthRestricted }.noteRefusals peer refusals)
  | assigned {block : BlockHash} {restricted : Bool} (bandwidthRestricted : Bool)
      (mode : s.handOutMode? = some restricted) (waits : block ∈ s.backlog.queue)
      (begun : restricted = true → s.backlog.isBegun block = true) :
      Offer now s peer
        ({ s with bandwidthRestricted, backlog := s.backlog.remove block }.assign peer block now)

theorem offer_offerBlock (round : Round) (peer : PeerAddress) (now : Timestamp) :
    Offer now round.scheduler peer (offerBlock round peer now).scheduler := by
  obtain ⟨flag, same⟩ := checkBandwidth_eq round.scheduler
  rw [offerBlock, same]
  unfold findBlock
  dsimp only
  split
  · exact .unasked flag
  · rename_i restricted mode
    split
    · rename_i refusals _ _
      exact .refused flag refusals
    · rename_i block remaining handed
      obtain ⟨waits, begun, rfl⟩ := Backlog.handOut_eq_assigned handed
      exact .assigned flag mode waits begun

theorem outcome_offerBlock (round : Round) {peer : PeerAddress} {record : Peer}
    (known : round.scheduler.peers[peer]? = some record) (available : record.isAvailable = true)
    (now : Timestamp) :
    Outcome now round.scheduler peer (offerBlock round peer now).scheduler := by
  have offered := offer_offerBlock round peer now
  generalize (offerBlock round peer now).scheduler = offer at offered ⊢
  cases offered with
  | unasked flag => exact .spared (spares_setRestricted _ flag) rfl rfl
  | refused flag refusals => exact .refused flag refusals known available
  | assigned flag mode waits begun => exact .assigned flag known available mode waits begun

theorem spares_observe {peer : PeerAddress} {record : Peer} (known : s.peers[peer]? = some record)
    (block : BlockHash) (now : Timestamp) : Spares s (s.observe peer record block now).2 := by
  unfold observe
  split
  · exact Spares.refl s
  · rename_i snapshot _
    have seen : Spares s
        { s with peers := s.peers.insert peer (record.observe snapshot now).1 } := by
      refine ⟨⟨rfl, fun other task working => ?_, rfl⟩, ?_, rfl⟩
      · simp only [taskAt?, Std.ExtTreeMap.getElem?_insert, Std.LawfulEqCmp.compare_eq_iff_eq]
          at working
        split at working
        · rename_i here
          rw [Option.bind_some, Peer.task?_observe] at working
          rw [taskAt?, ← here, known]
          exact working
        · exact working
      · rintro other ⟨before, found, free⟩
        by_cases here : peer = other
        · subst here
          rw [known] at found
          cases found
          have unseen : (record.observe snapshot now).1 = record := by rw [Peer.observe, free.2]
          refine ⟨_, Std.ExtTreeMap.getElem?_insert_self, ?_⟩
          rw [unseen]
          exact free
        · exact ⟨before, by simp [Std.ExtTreeMap.getElem?_insert, here, found], free⟩
    dsimp only
    split
    · refine seen.trans ?_
      apply Spares.of_tables <;> rfl
    · exact seen

theorem unmoved_watch (s : Scheduler) (peer : PeerAddress) (record : Peer) (transfer : Transfer)
    (now : Timestamp) :
    (s.watch peer record transfer now).backlog.attempts = s.backlog.attempts ∧
      (s.watch peer record transfer now).isRunning = s.isRunning := by
  have observed : (s.observe peer record transfer.block now).2.backlog = s.backlog ∧
      (s.observe peer record transfer.block now).2.isRunning = s.isRunning := by
    unfold observe
    split
    · exact ⟨rfl, rfl⟩
    · dsimp only
      split <;> exact ⟨rfl, rfl⟩
  have attempts := congrArg Backlog.attempts observed.1
  unfold watch
  split
  · exact ⟨rfl, rfl⟩
  · dsimp only
    split <;> exact ⟨attempts, observed.2⟩

theorem spares_watch {peer : PeerAddress} {record : Peer} (known : s.peers[peer]? = some record)
    (transfer : Transfer) (now : Timestamp) : Spares s (s.watch peer record transfer now) := by
  have observed := spares_observe known transfer.block now
  unfold watch
  split
  · exact Spares.refl s
  · dsimp only
    split
    · rename_i stall _
      exact observed.trans (spares_moveToLimbo _ peer transfer.block stall now)
    · exact observed

theorem outcome_turn (now : Timestamp) (round : Round) (peer : PeerAddress) :
    Outcome now round.scheduler peer (turn now round peer).scheduler := by
  have taken := turnTaken_turn now round peer
  generalize turn now round peer = next at taken ⊢
  cases taken with
  | offered known available => exact outcome_offerBlock round known available now
  | @watched record transfer known _ _ =>
    obtain ⟨attempts, running⟩ := unmoved_watch round.scheduler peer record transfer now
    exact .spared (spares_watch known transfer now) attempts running
  | passed => exact .spared (Spares.refl _) rfl rfl

/-- What holds before the turns of a tick and is kept by every outcome of a turn holds after
them. -/
theorem Staged.turns_induction {motive : Scheduler → Prop} {now : Timestamp} (staged : s.Staged)
    (start : motive s.checkBandwidth)
    (step : ∀ t u peer, t.Staged → motive t → Outcome now t peer u → Passes (Turn [peer]) t u →
      motive u) : motive (s.turns now) := by
  have all : ∀ (peers : List PeerAddress) (round : Round), round.scheduler.Staged →
      motive round.scheduler → motive (peers.foldl (turn now) round).scheduler := by
    intro peers
    induction peers with
    | nil => exact fun _ _ holds => holds
    | cons peer rest ih =>
      intro round staged holds
      have passed := passes_turn staged now peer
      exact ih _ (passed.staged staged)
        (step _ _ peer staged holds (outcome_turn now round peer) passed)
  exact all s.fastestFirst ⟨s.checkBandwidth, s.pool⟩ ((quiet_checkBandwidth s).staged staged) start

end BlockFetch.Scheduler
