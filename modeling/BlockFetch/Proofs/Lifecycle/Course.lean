import BlockFetch.Proofs.Lifecycle.Notices
import BlockFetch.Proofs.Lifecycle.Ticks

/-!
# The course of a block

What each operation may do to a block, and that it does nothing else. As a consequence every
operation leads from stages to stages, so in every state that can be reached all tables agree. What
can happen to a block at all is listed once more as the cases of `Change`, by which properties of
all operations are proved.
-/
namespace BlockFetch

def NetworkEvent.rule (limit : Nat) (now : Timestamp) : NetworkEvent → Rule
  | .sessionStopped => SessionEnd
  | .peerDisconnected peer _ => Loss peer
  | .blocksNotFound _ blocks => (Failure limit now).orStill.limitedTo blocks
  | .headerDelivered _ header _ .wire => Delivery.orStill.limitedTo [header.hash]
  | .chunkDelivered _ _ _ .wire => Delivery.orStill
  | .liteBlockDelivered _ header _ | .rawBlockDelivered _ header _ =>
    Delivery.limitedTo [header.hash]
  | _ => Rule.still

def Operation.rule (limit : Nat) (now : Timestamp) : Operation → Rule
  | .download request => (Demand request).limitedTo request.blocks
  | .cancel blocks => Cancellation.limitedTo blocks
  | .hear event => event.rule limit now
  | .tick => Tick limit now
  | .pause | .resume | .report | .transport _ => Rule.still

def Operation.endsSession : Operation → Bool
  | .hear .sessionStopped => true
  | _ => false

def Operation.disconnects (operation : Operation) (peer : PeerAddress) : Bool :=
  match operation with
  | .hear (.peerDisconnected other _) => other = peer
  | _ => false

/-- What can happen to a block in one operation. The rules of the operations say who causes it; most
properties of blocks do not depend on that, and are proved by these cases. -/
inductive Change (limit : Nat) (now : Timestamp) : Operation → Rule where
  | still {operation block stage} : Change limit now operation block stage [] stage
  | demanded {request block before milestones after} (named : block ∈ request.blocks)
      (demand : Demand request block before milestones after) :
      Change limit now (.download request) block before milestones after
  | cancelled {blocks block before milestones after}
      (cancellation : Cancellation block before milestones after) :
      Change limit now (.cancel blocks) block before milestones after
  | failed {operation block before milestones after} (goesOn : operation.endsSession = false)
      (failure : Failure limit now block before milestones after) :
      Change limit now operation block before milestones after
  | delivered {operation block before milestones after}
      (delivery : Delivery block before milestones after) :
      Change limit now operation block before milestones after
  | lost {operation block custody attempts cancelling} :
      Change limit now operation block (.underway custody attempts cancelling) []
        (.underway .adrift attempts cancelling)
  | abandoned {block stage} :
      Change limit now (.hear .sessionStopped) block stage [] stage.atSessionEnd
  | requested {block attempts? peer} :
      Change limit now .tick block (.waiting attempts?) [.requested peer]
        (.underway (.held peer) (attempts?.getD 0 + 1) false)
  | stalled {block peer attempts cancelling} :
      Change limit now .tick block (.underway (.held peer) attempts cancelling) []
        (.underway (.stalled peer) attempts cancelling)
  | revived {block since} : Change limit now .tick block (.discarded since) [] (.waiting none)
  | discardedAndRevived {block custody attempts} (spent : limit ≤ attempts) :
      Change limit now .tick block (.underway custody attempts false) [.discarded] (.waiting none)

section

variable {limit : Nat} {now : Timestamp} {block : BlockHash} {before after : Stage}
  {milestones : List Milestone}

theorem Change.of_still {operation : Operation} (h : Rule.still block before milestones after) :
    Change limit now operation block before milestones after := by
  obtain ⟨rfl, rfl⟩ := h
  exact .still

theorem Change.of_hear {event : NetworkEvent}
    (h : event.rule limit now block before milestones after) :
    Change limit now (.hear event) block before milestones after := by
  cases event with
  | sessionStopped =>
    obtain ⟨rfl, rfl⟩ := h
    exact .abandoned
  | peerDisconnected =>
    cases h with
    | lost => exact .lost
    | still => exact .still
  | blocksNotFound =>
    rcases h with ⟨_, failure | still⟩ | ⟨_, still⟩
    · exact .failed rfl failure
    · exact .of_still still
    · exact .of_still still
  | headerDelivered peer header size origin =>
    cases origin with
    | wire =>
      rcases h with ⟨_, delivery | still⟩ | ⟨_, still⟩
      · exact .delivered delivery
      · exact .of_still still
      · exact .of_still still
    | scheduler => exact .of_still h
  | chunkDelivered peer block transactions origin =>
    cases origin with
    | wire =>
      rcases h with delivery | still
      · exact .delivered delivery
      · exact .of_still still
    | scheduler => exact .of_still h
  | liteBlockDelivered | rawBlockDelivered =>
    rcases h with ⟨_, delivery⟩ | ⟨_, still⟩
    · exact .delivered delivery
    · exact .of_still still
  | _ => exact .of_still h

theorem Change.of_rule {operation : Operation}
    (h : operation.rule limit now block before milestones after) :
    Change limit now operation block before milestones after := by
  cases operation with
  | download request =>
    rcases h with ⟨named, demand⟩ | ⟨_, still⟩
    · exact .demanded named demand
    · exact .of_still still
  | cancel blocks =>
    rcases h with ⟨_, cancellation⟩ | ⟨_, still⟩
    · exact .cancelled cancellation
    · exact .of_still still
  | hear event => exact .of_hear h
  | tick =>
    cases h with
    | requested => exact .requested
    | stalled => exact .stalled
    | failed failure => exact .failed rfl failure
    | revived => exact .revived
    | discardedAndRevived spent => exact .discardedAndRevived spent
    | still => exact .still
  | _ => exact .of_still h

end

namespace Scheduler

variable {s : Scheduler}

theorem passes_hear (staged : s.Staged) (event : NetworkEvent) (now : Timestamp) :
    Passes (event.rule s.settings.maxAttempts.toNat now) s (s.hear event now) := by
  have unmoved : ∀ {t : Scheduler}, Quiet s t → Passes Rule.still s t :=
    fun quiet => quiet.passes fun _ _ => ⟨rfl, rfl⟩
  cases event with
  | sessionStopped => exact passes_endSession staged now
  | enoughPeers count => exact unmoved (.of_peers_eq (by apply SameBooks.of_tables <;> rfl) rfl)
  | tooFewPeers count => exact unmoved (.of_peers_eq (by apply SameBooks.of_tables <;> rfl) rfl)
  | peerConnected peer => exact unmoved (quiet_hearConnected staged peer)
  | peerHandshaked peer => exact unmoved (quiet_hearHandshaked s peer)
  | peerDisconnected peer => exact passes_hearDisconnected staged peer now
  | blocksAnnounced peer blocks =>
    exact unmoved (quiet_hearAnnounced s peer blocks)
  | blocksNotFound peer blocks => exact passes_hearNotFound staged peer blocks now
  | headerDelivered peer header size origin =>
    cases origin with
    | wire => exact passes_hearHeader staged peer header size now
    | scheduler => exact unmoved (Quiet.refl s)
  | chunkDelivered peer block transactions origin =>
    cases origin with
    | wire =>
      exact (passes_hearChunk staged peer block transactions now).mono
        fun _ _ _ _ _ allowed => allowed.elim And.right fun unnamed => Or.inr unnamed.2
    | scheduler => exact unmoved (Quiet.refl s)
  | liteBlockDelivered peer header size => exact passes_hearLiteBlock staged peer header size now
  | rawBlockDelivered peer header size => exact passes_succeed staged peer header size now
  | _ => exact unmoved (Quiet.refl s)

/-- Every operation takes each block from a stage to a stage as its rule says. -/
theorem passes_apply (staged : s.Staged) (now : Timestamp) (operation : Operation) :
    Passes (operation.rule s.settings.maxAttempts.toNat now) s (s.apply now operation) := by
  have unmoved : ∀ {t : Scheduler}, Quiet s t → Passes Rule.still s t :=
    fun quiet => quiet.passes fun _ _ => ⟨rfl, rfl⟩
  cases operation with
  | download request => exact passes_download staged request now
  | cancel blocks => exact passes_cancel staged blocks now
  | hear event => exact passes_hear staged event now
  | tick => exact passes_tick staged now
  | _ => exact unmoved (.of_peers_eq (by apply SameBooks.of_tables <;> rfl) rfl)

theorem staged_initial (settings : Settings) (streams : StreamTable) :
    (initial settings streams).Staged where
  stage block := by
    refine ⟨.unknown, ?_⟩
    simp [InStage, standing, initial, blockAt?, Stage.standing, Backlog.empty]
  linked peer record known := by simp [initial] at known

theorem Staged.drained (h : s.Staged) : s.drained.Staged :=
  ⟨h.stage, h.linked⟩

/-- The states that can be reached from usable settings by operations at any times. In between the
outbox may be emptied. -/
inductive Reachable : Scheduler → Prop where
  | created {settings : Settings} {streams : StreamTable} {s : Scheduler}
      (usable : create settings streams = .ok s) : Reachable s
  | applied {s : Scheduler} (now : Timestamp) (operation : Operation) (reachable : Reachable s) :
      Reachable (s.apply now operation)
  | drained {s : Scheduler} (reachable : Reachable s) : Reachable s.drained

theorem eq_initial_of_create {settings : Settings} {streams : StreamTable}
    (usable : create settings streams = .ok s) : s = initial settings streams := by
  unfold create at usable
  split at usable
  · cases usable
    rfl
  · exact nomatch usable

theorem Reachable.staged (h : s.Reachable) : s.Staged := by
  induction h with
  | created usable =>
    rw [eq_initial_of_create usable]
    exact staged_initial _ _
  | applied now operation _ ih => exact (passes_apply ih now operation).staged ih
  | drained _ ih => exact ih.drained

/-- The settings stay the usable ones of the start. -/
theorem Reachable.check_settings (h : s.Reachable) : s.settings.check = .ok () := by
  induction h with
  | @created settings streams s usable =>
    rw [eq_initial_of_create usable]
    unfold create at usable
    split at usable
    · assumption
    · exact nomatch usable
  | applied now operation reachable ih =>
    rw [(passes_apply reachable.staged now operation).settings]
    exact ih
  | drained _ ih => exact ih

theorem Reachable.run (h : s.Reachable) (history : List (Timestamp × Operation)) :
    (s.run history).Reachable := by
  induction history generalizing s with
  | nil => exact h
  | cons step rest ih => exact ih (h.applied step.1 step.2)

end Scheduler
end BlockFetch
