import BlockFetch.Proofs.Scan.Rounds
import BlockFetch.Proofs.Upkeep
import BlockFetch.Proofs.Workload.Counters
import BlockFetch.Proofs.Workload.Limit

/-!
# Pauses

During a pause the scheduler goes on with blocks that were requested before, and with no others. A
block whose attempts are settled during a pause, or were never begun, is not requested until the
pause is over.
-/
namespace BlockFetch

/-- What the operations of a history last said on a question. -/
def Operation.lastSaid? (says? : Operation → Option Bool)
    (history : List (Timestamp × Operation)) : Option Bool :=
  history.reverse.findSome? fun timed => says? timed.2

section

variable {limit : Nat} {now : Timestamp} {block : BlockHash} {before after : Stage}
  {milestones : List Milestone} {operation : Operation}

/-- Only a request begins the count of the attempts on a block. -/
theorem Change.attempts?_eq_none (h : Change limit now operation block before milestones after)
    (fresh : before.standing.attempts? = none)
    (unasked : ∀ peer, .requested peer ∉ milestones) : after.standing.attempts? = none := by
  cases h with
  | demanded _ demand =>
    cases demand with
    | queued => rfl
    | kept => exact nomatch fresh
    | waits => exact fresh
    | spurned => rfl
  | cancelled cancellation =>
    cases cancellation with
    | deferred => exact nomatch fresh
    | _ => rfl
  | failed _ failure => cases failure <;> exact nomatch fresh
  | delivered delivery =>
    cases delivery with
    | unwanted => exact fresh
    | downloaded => rfl
  | abandoned =>
    cases before with
    | underway => exact nomatch fresh
    | _ => exact fresh
  | requested => exact absurd List.mem_cons_self (unasked _)
  | still => exact fresh
  | revived => rfl
  | discardedAndRevived => rfl
  | _ => exact nomatch fresh

end

namespace Scheduler

variable {s : Scheduler} {now : Timestamp} {peer : PeerAddress} {block : BlockHash}

/-! ## When the scheduler is paused -/

theorem lastSaid?_concat (says? : Operation → Option Bool)
    (history : List (Timestamp × Operation)) (timed : Timestamp × Operation) :
    Operation.lastSaid? says? (history ++ [timed]) =
      (says? timed.2).or (Operation.lastSaid? says? history) := by
  rw [Operation.lastSaid?, List.reverse_append, List.reverse_singleton, List.singleton_append,
    List.findSome?_cons]
  cases says? timed.2 <;> rfl

theorem clientPaused_run (s : Scheduler) (history : List (Timestamp × Operation)) :
    (s.run history).clientPaused =
      (Operation.lastSaid? Operation.pauses? history).getD s.clientPaused := by
  induction history using List.reverseRecOn with
  | nil => rfl
  | append_singleton past timed ih =>
    rw [run_concat, clientPaused_apply, lastSaid?_concat, ih]
    cases timed.2.pauses? <;> rfl

theorem enoughPeers_run (s : Scheduler) (history : List (Timestamp × Operation)) :
    (s.run history).enoughPeers =
      (Operation.lastSaid? Operation.peersSuffice? history).getD s.enoughPeers := by
  induction history using List.reverseRecOn with
  | nil => rfl
  | append_singleton past timed ih =>
    rw [run_concat, enoughPeers_apply, lastSaid?_concat, ih]
    cases timed.2.peersSuffice? <;> rfl

/-- A scheduler is paused while the last word of the client is a pause, or the last word on the
number of peers is that there are too few. -/
theorem isRunning_run_eq_false_iff {settings : Settings} {streams : StreamTable}
    (usable : create settings streams = .ok s) (history : List (Timestamp × Operation)) :
    (s.run history).isRunning = false ↔
      Operation.lastSaid? Operation.pauses? history = some true ∨
        Operation.lastSaid? Operation.peersSuffice? history = some false := by
  have fresh := eq_initial_of_create usable
  rw [isRunning, clientPaused_run, enoughPeers_run, fresh]
  cases Operation.lastSaid? Operation.pauses? history with
  | none =>
    cases Operation.lastSaid? Operation.peersSuffice? history with
    | none => simp [initial]
    | some suffice => cases suffice <;> simp [initial]
  | some pauses =>
    cases Operation.lastSaid? Operation.peersSuffice? history with
    | none => cases pauses <;> simp [initial]
    | some suffice => cases pauses <;> cases suffice <;> simp

/-! ## One step -/

/-- A block that is requested during a pause waited and was requested before. -/
theorem Reachable.begun_of_requested (h : s.Reachable) (paused : s.isRunning = false)
    (asked : (peer, block) ∈ Step.requests ⟨s, now, .tick⟩) :
    1 ≤ s.backlog.attemptsOn block ∧ block ∈ s.backlog.queue := by
  obtain ⟨early, late, whole⟩ := List.append_of_mem asked
  obtain ⟨before, restricted, _, found, _, mode, grants⟩ := h.staged.exists_grant whole
  have still : (s.roundAt now peer).scheduler.isRunning = false := found.running.trans paused
  have only : restricted = true := by
    rw [handOutMode?, if_neg (by simp [still])] at mode
    split at mode
    · exact (Option.some_inj.mp mode).symm
    · contradiction
  obtain ⟨waits, begun⟩ := (grants _ rfl).mem
  have counted := begun only
  rw [isBegun_eq_dossier, found.dossier block waits] at counted
  obtain ⟨attempts, counter⟩ := Option.isSome_iff_exists.mp counted
  have positive : attempts ≠ 0 := by
    rintro rfl
    exact h.counted block counter
  refine ⟨?_, (found.mem_queue.mp waits).1⟩
  rw [attemptsOn_eq_dossier, counter, Option.getD_some]
  omega

theorem requests_eq_nil {operation : Operation} (untimed : operation ≠ .tick) :
    Step.requests ⟨s, now, operation⟩ = [] := by
  have said := congrArg List.length (requestLog_step ⟨s, now, operation⟩)
  rw [List.length_append, length_requestLog, length_requestLog] at said
  have same : (s.apply now operation).requestTotal = s.requestTotal :=
    (eases_apply s now untimed).requests
  change (s.apply now operation).requestTotal = s.requestTotal + _ at said
  exact List.length_eq_zero_iff.mp (by omega)

/-- A block without a counter is not requested in a step during a pause, and gets none. -/
theorem Reachable.fresh_apply (h : s.Reachable) (paused : s.isRunning = false)
    (fresh : s.backlog.attempts[block]? = none) (now : Timestamp) (operation : Operation) :
    (∀ peer, (peer, block) ∉ Step.requests ⟨s, now, operation⟩) ∧
      (s.apply now operation).backlog.attempts[block]? = none := by
  have unasked : ∀ peer, (peer, block) ∉ Step.requests ⟨s, now, operation⟩ := by
    intro peer asked
    by_cases timed : operation = .tick
    · subst timed
      have begun := (h.begun_of_requested paused asked).1
      rw [attemptsOn_eq_dossier, dossier, fresh] at begun
      exact absurd begun (by simp)
    · rw [requests_eq_nil timed] at asked
      exact List.not_mem_nil asked
  refine ⟨unasked, ?_⟩
  obtain ⟨before, inBefore⟩ := h.staged.stage block
  obtain ⟨milestones, after, inAfter, said, change⟩ := h.staged.change now operation inBefore
  rw [inBefore.attempts] at fresh
  rw [inAfter.attempts]
  refine change.attempts?_eq_none fresh fun peer passed => unasked peer ?_
  rw [mem_requests, said]
  exact List.mem_filter.mpr ⟨passed, by simp⟩

/-! ## A whole pause -/

theorem Reachable.fresh_run (h : s.Reachable) (fresh : s.backlog.attempts[block]? = none)
    (stretch : List (Timestamp × Operation))
    (paused : ∀ step ∈ s.steps stretch, step.before.isRunning = false) :
    ∀ step ∈ s.steps stretch, ∀ peer, (peer, block) ∉ step.requests := by
  induction stretch generalizing s with
  | nil => exact fun _ member => nomatch member
  | cons timed rest ih =>
    obtain ⟨now, others⟩ := List.forall_mem_cons.mp paused
    obtain ⟨unasked, still⟩ := h.fresh_apply now fresh timed.1 timed.2
    exact List.forall_mem_cons.mpr ⟨unasked, ih (h.applied timed.1 timed.2) still others⟩

theorem steps_append (s : Scheduler) (early late : List (Timestamp × Operation)) :
    s.steps (early ++ late) = s.steps early ++ (s.run early).steps late := by
  induction early generalizing s with
  | nil => rfl
  | cons timed rest ih => exact congrArg (List.cons _) (ih _)

/-- In every run from usable settings: while the scheduler is paused, that is, while the client's
last word is a pause or there are too few peers, a tick requests only blocks that wait and were
requested before. So in a stretch of the run that is one pause, a block that has no counter of
attempts at some point is not requested any more. -/
theorem pause_starts_nothing {settings : Settings} {streams : StreamTable}
    (usable : create settings streams = .ok s) (history : List (Timestamp × Operation)) :
    ((s.run history).isRunning = false ↔
      Operation.lastSaid? Operation.pauses? history = some true ∨
        Operation.lastSaid? Operation.peersSuffice? history = some false) ∧
    ((s.run history).isRunning = false → ∀ now peer block,
      (peer, block) ∈ Step.requests ⟨s.run history, now, .tick⟩ →
      1 ≤ (s.run history).backlog.attemptsOn block ∧
        block ∈ (s.run history).backlog.queue) ∧
    ∀ early late,
      (∀ step ∈ (s.run history).steps (early ++ late), step.before.isRunning = false) →
      ∀ block, ((s.run history).run early).backlog.attempts[block]? = none →
        ∀ step ∈ ((s.run history).run early).steps late, ∀ peer, (peer, block) ∉ step.requests := by
  have reachable := (Reachable.created usable).run history
  refine ⟨isRunning_run_eq_false_iff usable history, fun paused now peer block asked => ?_, ?_⟩
  · exact reachable.begun_of_requested paused asked
  · intro early late paused block fresh
    refine (reachable.run early).fresh_run fresh late fun step member => paused step ?_
    rw [steps_append]
    exact List.mem_append_right _ member

/-- A peer does not have a block; then another block is asked for, and the client asks for a
pause. -/
def interlude : List (Timestamp × Operation) :=
  [(⟨0⟩, .hear (.peerHandshaked soleSender)), (⟨1⟩, .download (.plain [.zero])), (⟨2⟩, .tick),
    (⟨3⟩, .hear (.blocksNotFound soleSender [.zero])), (⟨4⟩, .download (.plain [ones])),
    (⟨5⟩, .pause)]

theorem pause_starts_nothing_interlude :
    let s := initial .brisk .empty
    create .brisk .empty = .ok s ∧
      (s.run interlude).isRunning = false ∧
      (soleSender, .zero) ∈ Step.requests ⟨s.run interlude, ⟨4_000⟩, .tick⟩ ∧
      1 ≤ (s.run interlude).backlog.attemptsOn .zero ∧
      ∀ step ∈ ((s.run interlude).run [(⟨4_000⟩, .tick)]).steps [(⟨5_000⟩, .tick)],
        ∀ peer, (peer, ones) ∉ step.requests := by
  intro s
  have usable : create .brisk .empty = .ok s := rfl
  have asked : (soleSender, .zero) ∈ Step.requests ⟨s.run interlude, ⟨4_000⟩, .tick⟩ := by
    decide +kernel
  obtain ⟨paused_iff, continues, stretch⟩ := pause_starts_nothing usable interlude
  have idle : (s.run interlude).isRunning = false := paused_iff.mpr (.inl rfl)
  refine ⟨usable, idle, asked, (continues idle _ _ _ asked).1, ?_⟩
  have paused : ∀ step ∈ (s.run interlude).steps ([(⟨4_000⟩, .tick)] ++ [(⟨5_000⟩, .tick)]),
      step.before.isRunning = false := by
    decide +kernel
  have fresh : ((s.run interlude).run [(⟨4_000⟩, .tick)]).backlog.attempts[ones]? = none := by
    decide +kernel
  exact stretch _ _ paused ones fresh

end Scheduler
end BlockFetch
