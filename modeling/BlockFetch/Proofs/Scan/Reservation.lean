import BlockFetch.Proofs.Lifecycle.Arrivals
import BlockFetch.Proofs.Scan.Greedy
import BlockFetch.Proofs.Upkeep
import BlockFetch.Proofs.Workload.Counters

/-!
# Reservations

A block that a client wants from one peer only is requested from that peer only, however long the
block takes and whatever happens to it on its way. The reservation ends when the block is downloaded
or cancelled, and is replaced by a later one.
-/
namespace BlockFetch

namespace Step

/-- Whether a block becomes downloaded or cancelled in a step. -/
def settles (step : Step) (block : BlockHash) : Bool :=
  step.acquires block || step.newlyCancels block

/-- The peer that a block is reserved for in a step: a client asks for it from this peer only, and
the block is not passed over because it is there already. -/
def reserves? (step : Step) (block : BlockHash) : Option PeerAddress :=
  match step.operation with
  | .download request =>
    if block ∈ step.before.accepted request then request.exclusiveTo? else none
  | _ => none

end Step

/-- The peer that a block was last reserved for in a run, since it was last settled. -/
def Scheduler.owner? (s : Scheduler) (history : List (Timestamp × Operation))
    (block : BlockHash) : Option PeerAddress :=
  ((s.steps history).rtakeWhile fun step => !step.settles block).reverse.findSome?
    fun step => step.reserves? block

/-! ## Amendments honour reservations -/

namespace Dossier

/-- A block that is settled stays so, and a reservation lasts until the block is settled. -/
structure Honours (before after : Dossier) : Prop where
  cancelled : before.cancelled = true → after.cancelled = true
  downloaded : before.downloaded = true → after.downloaded = true
  reservation :
    (after.reservedFor? = before.reservedFor? ∧ after.cancelled = before.cancelled ∧
        after.downloaded = before.downloaded) ∨
      (after.reservedFor? = none ∧ (after.cancelled || after.downloaded) = true)

variable {first second third : Dossier}

theorem Honours.trans (head : Honours first second) (tail : Honours second third) :
    Honours first third where
  cancelled settled := tail.cancelled (head.cancelled settled)
  downloaded settled := tail.downloaded (head.downloaded settled)
  reservation := by
    rcases tail.reservation with ⟨reserved, cancelled, downloaded⟩ | settled
    · rcases head.reservation with
        ⟨before, cancelledBefore, downloadedBefore⟩ | ⟨none_left, settled⟩
      · exact .inl ⟨reserved.trans before, cancelled.trans cancelledBefore,
          downloaded.trans downloadedBefore⟩
      · exact .inr ⟨reserved.trans none_left, by rw [cancelled, downloaded, settled]⟩
    · exact .inr settled

theorem Amended.honours (h : Amended first second) : Honours first second := by
  cases h with
  | givenUp => exact ⟨fun _ => rfl, id, .inr ⟨rfl, rfl⟩⟩
  | delivered => exact ⟨id, fun _ => rfl, .inr ⟨rfl, Bool.or_true _⟩⟩
  | _ => exact ⟨id, id, .inl ⟨rfl, rfl, rfl⟩⟩

theorem Amendments.honours (h : Amendments first second) : Honours first second := by
  induction h with
  | refl => exact ⟨id, id, .inl ⟨rfl, rfl, rfl⟩⟩
  | tail _ step ih => exact ih.trans step.honours

end Dossier

namespace Scheduler

variable {s : Scheduler} {now : Timestamp} {peer : PeerAddress} {block : BlockHash}

/-! ## One step -/

theorem getElem?_foldl_insert (blocks : List BlockHash) (peer : PeerAddress)
    (table : BlockMap PeerAddress) (block : BlockHash) :
    (blocks.foldl (fun table block => table.insert block peer) table)[block]? =
      if block ∈ blocks then some peer else table[block]? := by
  induction blocks generalizing table with
  | nil => simp
  | cons first rest ih =>
    rw [List.foldl_cons, ih, Std.ExtTreeMap.getElem?_insert]
    by_cases later : block ∈ rest
    · simp [later]
    · by_cases here : first = block
      · simp [here]
      · simp [later, here, Ne.symm here]

theorem reservations_download (s : Scheduler) (request : FetchRequest) (now : Timestamp)
    (block : BlockHash) :
    (s.download request now).backlog.reservations[block]? =
      (if block ∈ s.accepted request then request.exclusiveTo? else none).or
        s.backlog.reservations[block]? := by
  unfold download
  extract_lets blocks added reopened noted reserved preferred
  have backlog : noted.backlog = s.backlog := by
    obtain ⟨journal, shape⟩ : ∃ journal, noted = { reopened with journal } :=
      foldl_note added .queued now reopened
    rw [shape]
    rfl
  have queued : (preferred.add added request.priority).reservations = reserved.reservations := by
    have kept : preferred.reservations = reserved.reservations := by
      simp only [preferred]
      split <;> rfl
    cases request.priority <;> exact kept
  change (preferred.add added request.priority).reservations[block]? = _
  rw [queued]
  simp only [reserved, backlog]
  cases request.exclusiveTo? with
  | none => simp
  | some owner =>
    simp only [Backlog.reserve, getElem?_foldl_insert, blocks]
    by_cases accepted : block ∈ s.accepted request <;> simp [accepted]

def SettledFree (s : Scheduler) : Prop :=
  ∀ block, s.isUnwanted block = true → s.backlog.reservations[block]? = none

/-- A request for blocks settles none of them, and reopens those that it accepts. -/
theorem isUnwanted_download (s : Scheduler) (request : FetchRequest) (now : Timestamp)
    (block : BlockHash) :
    (s.download request now).cancelled.contains block =
        (s.cancelled.contains block && !(s.accepted request).contains block) ∧
      (s.download request now).downloaded.contains block =
        (s.downloaded.contains block && !(s.accepted request).contains block) := by
  obtain ⟨backlog, journal, shape, _⟩ := download_eq s request now
  rw [shape]
  exact ⟨BlockSet.contains_filter .., BlockSet.contains_filter ..⟩

theorem Honours.reservation_eq {before after : Dossier} (h : before.Honours after)
    (free : (before.cancelled || before.downloaded) = true → before.reservedFor? = none) :
    after.reservedFor? =
      if (!before.downloaded && after.downloaded || !before.cancelled && after.cancelled) = true
      then none else before.reservedFor? := by
  obtain ⟨cancelled, downloaded, ⟨same, cancelledSame, downloadedSame⟩ | ⟨none_left, settled⟩⟩ := h
  · rw [same, cancelledSame, downloadedSame]
    simp
  · rw [none_left]
    cases wanted : before.cancelled || before.downloaded with
    | true => rw [free wanted, ite_self]
    | false =>
      rw [Bool.or_eq_false_iff] at wanted
      rw [wanted.1, wanted.2, Bool.not_false, Bool.true_and, Bool.true_and, Bool.or_comm, settled,
        if_pos rfl]

/-- What a step does to the reservation of a block. -/
theorem SettledFree.reservations_apply (free : s.SettledFree) (now : Timestamp)
    (operation : Operation) (block : BlockHash) :
    (s.apply now operation).backlog.reservations[block]? =
      if Step.settles ⟨s, now, operation⟩ block then none
      else (Step.reserves? ⟨s, now, operation⟩ block).or s.backlog.reservations[block]? := by
  by_cases asked : ∃ request, operation = .download request
  · obtain ⟨request, rfl⟩ := asked
    obtain ⟨cancelled, downloaded⟩ := isUnwanted_download s request now block
    have unsettled : Step.settles ⟨s, now, .download request⟩ block = false := by
      rw [Step.settles, Step.acquires, Step.newlyCancels, Step.after]
      change (!s.downloaded.contains block && (s.download request now).downloaded.contains block ||
        !s.cancelled.contains block && (s.download request now).cancelled.contains block) = false
      rw [cancelled, downloaded]
      cases s.downloaded.contains block <;> cases s.cancelled.contains block <;> rfl
    rw [unsettled, if_neg Bool.false_ne_true]
    exact reservations_download s request now block
  · have own : ∀ request, operation ≠ .download request := fun request same => asked ⟨request, same⟩
    have unreserved : Step.reserves? ⟨s, now, operation⟩ block = none := by
      cases operation with
      | download request => exact absurd rfl (own request)
      | _ => rfl
    rw [unreserved, Option.none_or]
    exact Honours.reservation_eq (amendments_apply s now own block).honours (free block)

theorem SettledFree.apply (free : s.SettledFree) (now : Timestamp) (operation : Operation) :
    (s.apply now operation).SettledFree := by
  intro block unwanted
  rw [free.reservations_apply]
  split
  · rfl
  · rename_i unsettled
    rw [Bool.not_eq_true, Step.settles, Step.acquires, Step.newlyCancels, Step.after] at unsettled
    dsimp only at unsettled
    rw [isUnwanted] at unwanted
    have before : s.isUnwanted block = true := by
      rw [isUnwanted]
      revert unsettled unwanted
      cases s.cancelled.contains block <;> cases s.downloaded.contains block <;>
        cases (s.apply now operation).cancelled.contains block <;>
        cases (s.apply now operation).downloaded.contains block <;> decide
    have unreserved : Step.reserves? ⟨s, now, operation⟩ block = none := by
      cases operation with
      | download request =>
        obtain ⟨cancelled, downloaded⟩ := isUnwanted_download s request now block
        rw [Scheduler.apply, cancelled, downloaded, ← Bool.and_or_distrib_right,
          Bool.and_eq_true] at unwanted
        have passedOver : block ∉ s.accepted request := by simpa using unwanted.2
        rw [Step.reserves?]
        exact if_neg passedOver
      | _ => rfl
    rw [unreserved, Option.none_or, free block before]

theorem Reachable.settledFree (h : s.Reachable) : s.SettledFree := by
  induction h with
  | created usable =>
    intro block _
    rw [eq_initial_of_create usable]
    exact Std.ExtTreeMap.getElem?_empty
  | applied now operation _ ih => exact ih.apply now operation
  | drained _ ih => exact ih

/-! ## Whole runs -/

theorem owner?_concat (s : Scheduler) (history : List (Timestamp × Operation))
    (timed : Timestamp × Operation) (block : BlockHash) :
    s.owner? (history ++ [timed]) block =
      if Step.settles ⟨s.run history, timed.1, timed.2⟩ block then none
      else (Step.reserves? ⟨s.run history, timed.1, timed.2⟩ block).or
        (s.owner? history block) :=
  s.lastSince?_concat history timed (Step.settles · block) (Step.reserves? · block)

/-- The table of reservations holds the last reservation since the block was settled. -/
theorem reservations_run {settings : Settings} {streams : StreamTable}
    (usable : create settings streams = .ok s) (history : List (Timestamp × Operation))
    (block : BlockHash) :
    (s.run history).backlog.reservations[block]? = s.owner? history block := by
  induction history using List.reverseRecOn with
  | nil =>
    rw [eq_initial_of_create usable]
    exact Std.ExtTreeMap.getElem?_empty
  | append_singleton past timed ih =>
    have reachable := (Reachable.created usable).run past
    rw [run_concat, reachable.settledFree.reservations_apply, owner?_concat, ih]

/-- A peer that is given a block is not kept away from it by a reservation. -/
theorem isFreeFor_of_accepted {rule : Eligibility} {claims : Claims} {pool : Pool}
    {candidate : PeerAddress}
    (accepted : rule.judge candidate claims pool false now = .accepted) :
    Eligibility.IsFreeFor claims candidate := by
  have well := Eligibility.coolingDown_eq_false_of_accepted accepted
  exact ((Eligibility.judge_eq_accepted_iff well).mp accepted).1

theorem Staged.eq_owner_of_requested (staged : s.Staged) (running : s.isRunning = true)
    {owner : PeerAddress} (reserved : s.backlog.reservations[block]? = some owner)
    (asked : (peer, block) ∈ Step.requests ⟨s, now, .tick⟩) : peer = owner := by
  obtain ⟨early, late, whole⟩ := List.append_of_mem asked
  obtain ⟨_, found, _, passed, rest, queue, _, accepted⟩ := staged.served running whole
  have waits : block ∈ (s.roundAt now peer).scheduler.backlog.queue := by
    rw [queue]
    simp
  have free := isFreeFor_of_accepted accepted
  rw [found.claims block waits] at free
  exact (free owner reserved).symm

/-- In every run from usable settings: while a block is reserved for a peer, a tick of a running
scheduler requests it from that peer only. A reservation is there from the request of the client
until the block is downloaded or cancelled, or until a later request reserves it for another peer;
no other step touches it. -/
theorem reservation_upheld {settings : Settings} {streams : StreamTable}
    (usable : create settings streams = .ok s) (history : List (Timestamp × Operation))
    {owner : PeerAddress} (reserved : s.owner? history block = some owner) :
    ((s.run history).isRunning = true → ∀ now peer,
      (peer, block) ∈ Step.requests ⟨s.run history, now, .tick⟩ → peer = owner) ∧
    ∀ now operation, Step.settles ⟨s.run history, now, operation⟩ block = false →
      Step.reserves? ⟨s.run history, now, operation⟩ block = none →
      s.owner? (history ++ [(now, operation)]) block = some owner ∧
        ((s.run history).apply now operation).backlog.reservations[block]? = some owner := by
  have reachable := (Reachable.created usable).run history
  have kept : (s.run history).backlog.reservations[block]? = some owner :=
    (reservations_run usable history block).trans reserved
  refine ⟨fun running now peer asked => ?_, fun now operation unsettled unreserved => ?_⟩
  · exact reachable.staged.eq_owner_of_requested running kept asked
  · rw [owner?_concat, reachable.settledFree.reservations_apply, unsettled, unreserved, reserved,
      kept]
    exact ⟨rfl, rfl⟩

/-- A block is reserved for one of two peers, which does not have it when it is asked first; then a
client asks for the block without a reservation. -/
def holdout : List (Timestamp × Operation) :=
  [(⟨0⟩, .hear (.peerHandshaked soleSender)), (⟨0⟩, .hear (.peerHandshaked secondSender)),
    (⟨1⟩, .download { FetchRequest.plain [.zero] with exclusiveTo? := some secondSender }),
    (⟨2⟩, .tick), (⟨3⟩, .hear (.blocksNotFound secondSender [.zero])),
    (⟨4⟩, .download (.plain [.zero]))]

set_option maxRecDepth 100000 in
theorem reservation_upheld_holdout :
    let s := initial .brisk .empty
    create .brisk .empty = .ok s ∧ s.owner? holdout .zero = some secondSender ∧
      (s.run holdout).isRunning = true ∧
      Step.requests ⟨s.run holdout, ⟨4_000⟩, .tick⟩ = [(secondSender, .zero)] ∧
      ∀ now peer, (peer, .zero) ∈ Step.requests ⟨s.run holdout, now, .tick⟩ →
        peer = secondSender := by
  intro s
  have usable : create .brisk .empty = .ok s := rfl
  have reserved : s.owner? holdout .zero = some secondSender := by cbv
  have running : (s.run holdout).isRunning = true := by cbv
  have requests : Step.requests ⟨s.run holdout, ⟨4_000⟩, .tick⟩ = [(secondSender, .zero)] := by cbv
  exact ⟨usable, reserved, running, requests,
    (reservation_upheld usable holdout reserved).1 running⟩

end Scheduler
end BlockFetch
