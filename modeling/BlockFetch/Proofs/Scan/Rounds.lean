import BlockFetch.Proofs.Deadlines.Watch
import BlockFetch.Proofs.Dossier
import BlockFetch.Proofs.Lifecycle.Ledger

/-!
# Rounds

In a tick the peers are visited one after the other. A visit makes at most one request, and it
leaves alone what is known of the blocks that go on waiting and the peers that are still to come. So
what the visit of a peer finds is told by the start of the tick and the requests made since.
-/
namespace BlockFetch

def NetworkEvent.request? : NetworkEvent → Option (PeerAddress × BlockHash)
  | .blockRequested peer block => some (peer, block)
  | _ => none

def Step.requests (step : Step) : List (PeerAddress × BlockHash) :=
  (step.after.events.drop step.before.events.length).filterMap NetworkEvent.request?

/-- A peer is given a block: it was available and is busy now. -/
def Pool.serve (pool : Pool) (peer : PeerAddress) : Pool :=
  ⟨pool.available.erase peer, pool.busy.insert peer⟩

namespace Backlog

/-- Of some blocks this is the first one that a peer gets. -/
def Grants (backlog : Backlog) (inquiry : Inquiry) (blocks : List BlockHash)
    (block : BlockHash) : Prop :=
  ∃ passed rest, blocks = passed ++ block :: rest ∧
    (∀ other ∈ passed, backlog.judge inquiry other ≠ .accepted) ∧
    backlog.judge inquiry block = .accepted

/-- A peer gets none of some blocks, for these reasons. -/
def Refuses (backlog : Backlog) (inquiry : Inquiry) (blocks : List BlockHash)
    (reasons : List (BlockHash × Refusal)) : Prop :=
  reasons.map Prod.fst = blocks ∧
    ∀ reason ∈ reasons, backlog.judge inquiry reason.1 = .refused reason.2

variable {backlog remaining : Backlog} {inquiry : Inquiry}

theorem grants_of_handOut {block : BlockHash}
    (h : backlog.handOut inquiry = (.assigned block, remaining)) :
    backlog.Grants inquiry (backlog.considered inquiry) block := by
  unfold handOut at h
  split at h
  · rename_i first found
    cases (Prod.mk.inj h).1
    obtain ⟨accepted, passed, rest, whole, refused⟩ := List.find?_eq_some_iff_append.mp found
    refine ⟨passed, rest, whole, fun other member => ?_, of_decide_eq_true accepted⟩
    simpa using refused other member
  · exact nomatch (Prod.mk.inj h).1

theorem refuses_of_handOut {reasons : List (BlockHash × Refusal)}
    (h : backlog.handOut inquiry = (.refused reasons, remaining)) :
    backlog.Refuses inquiry (backlog.considered inquiry) reasons := by
  unfold handOut at h
  split at h
  · exact nomatch (Prod.mk.inj h).1
  · rename_i none_accepted
    cases (Prod.mk.inj h).1
    unfold Backlog.refusals
    rw [List.find?_eq_none] at none_accepted
    generalize backlog.considered inquiry = blocks at none_accepted
    induction blocks with
    | nil => exact ⟨rfl, fun _ member => nomatch member⟩
    | cons first rest ih =>
      obtain ⟨unaccepted, others⟩ := List.forall_mem_cons.mp none_accepted
      obtain ⟨names, judged⟩ := ih others
      cases verdict : backlog.judge inquiry first with
      | accepted => exact absurd (decide_eq_true verdict) unaccepted
      | refused reason =>
        rw [List.filterMap_cons, verdict]
        refine ⟨congrArg (List.cons first) names, fun entry member => ?_⟩
        rcases List.mem_cons.mp member with rfl | later
        · exact verdict
        · exact judged entry later

/-- A block that a peer gets waits, and it has been begun if only such blocks are handed out. -/
theorem Grants.mem {block : BlockHash}
    (h : backlog.Grants inquiry (backlog.considered inquiry) block) :
    block ∈ backlog.queue ∧ (inquiry.restricted = true → backlog.isBegun block = true) := by
  obtain ⟨passed, rest, whole, _, _⟩ := h
  have member : block ∈ backlog.considered inquiry := by simp [whole]
  unfold considered at member
  split at member
  · obtain ⟨waits, begun⟩ := List.mem_filter.mp member
    exact ⟨waits, fun _ => begun⟩
  · rename_i unrestricted
    exact ⟨member, fun restricted => absurd restricted unrestricted⟩

end Backlog

namespace Scheduler

def requestLog (s : Scheduler) : List (PeerAddress × BlockHash) :=
  s.events.filterMap NetworkEvent.request?

/-- What the visit of a peer that can take a block leads to, and the requests that it makes. -/
inductive Deal (now : Timestamp) (round : Round) (peer : PeerAddress) :
    List (PeerAddress × BlockHash) → Round → Prop where
  | closed (bandwidthRestricted : Bool) (mode : round.scheduler.handOutMode? = none) :
      Deal now round peer []
        { round with scheduler := { round.scheduler with bandwidthRestricted } }
  | refused {restricted : Bool} {reasons : List (BlockHash × Refusal)}
      (bandwidthRestricted : Bool) (mode : round.scheduler.handOutMode? = some restricted)
      (refuses : ∀ inquiry : Backlog.Inquiry,
        inquiry = ⟨round.scheduler.eligibility, peer, round.pool, restricted, now⟩ →
        round.scheduler.backlog.Refuses inquiry (round.scheduler.backlog.considered inquiry)
          reasons) :
      Deal now round peer []
        { round with
          scheduler := { round.scheduler with bandwidthRestricted }.noteRefusals peer reasons }
  | granted {restricted : Bool} {block : BlockHash}
      (bandwidthRestricted : Bool) (mode : round.scheduler.handOutMode? = some restricted)
      (grants : ∀ inquiry : Backlog.Inquiry,
        inquiry = ⟨round.scheduler.eligibility, peer, round.pool, restricted, now⟩ →
        round.scheduler.backlog.Grants inquiry (round.scheduler.backlog.considered inquiry)
          block) :
      Deal now round peer [(peer, block)]
        { scheduler := { round.scheduler with
            bandwidthRestricted, backlog := round.scheduler.backlog.remove block }.assign
              peer block now
          pool := round.pool.serve peer }

variable {s t : Scheduler} {round next : Round} {now : Timestamp} {peer : PeerAddress}

theorem deal_offerBlock (round : Round) (peer : PeerAddress) (now : Timestamp) :
    ∃ made, Deal now round peer made (offerBlock round peer now) := by
  obtain ⟨flag, same⟩ := checkBandwidth_eq round.scheduler
  rw [offerBlock, same]
  unfold findBlock
  dsimp only
  split
  · rename_i mode
    exact ⟨_, .closed flag mode⟩
  · rename_i restricted mode
    split
    · rename_i reasons _ handed
      exact ⟨_, .refused flag mode fun _ same => same ▸ Backlog.refuses_of_handOut handed⟩
    · rename_i block remaining handed
      obtain ⟨_, _, rfl⟩ := Backlog.handOut_eq_assigned handed
      exact ⟨_, .granted flag mode fun _ same => same ▸ Backlog.grants_of_handOut handed⟩

/-! ## What the visits of some peers do -/

/-- What the visits of some peers have done, and the requests that they made. -/
structure Scanned (start : Round) (done : List PeerAddress)
    (made : List (PeerAddress × BlockHash)) (round : Round) : Prop where
  staged : round.scheduler.Staged
  settings : round.scheduler.settings = start.scheduler.settings
  running : round.scheduler.isRunning = start.scheduler.isRunning
  log : round.scheduler.requestLog = start.scheduler.requestLog ++ made
  pool : round.pool = (made.map Prod.fst).foldl Pool.serve start.pool
  queue : round.scheduler.backlog.queue =
    start.scheduler.backlog.queue.filter fun block => block ∉ made.map Prod.snd
  /-- Nothing is learnt of a block that goes on waiting. -/
  dossier : ∀ block ∈ round.scheduler.backlog.queue,
    round.scheduler.dossier block = start.scheduler.dossier block
  untouched : ∀ peer ∉ done, round.scheduler.peers[peer]? = start.scheduler.peers[peer]? ∧
    round.scheduler.refusals[peer]? = start.scheduler.refusals[peer]?
  order : (made.map Prod.fst).Sublist done
  waited : ∀ request ∈ made, request.2 ∈ start.scheduler.backlog.queue
  distinct : (made.map Prod.snd).Nodup

namespace Scanned

variable {start middle : Round} {done later : List PeerAddress}
  {made more : List (PeerAddress × BlockHash)}

theorem refl (staged : round.scheduler.Staged) : Scanned round [] [] round where
  staged := staged
  settings := rfl
  running := rfl
  log := (List.append_nil _).symm
  pool := rfl
  queue := by simp
  dossier _ _ := rfl
  untouched _ _ := ⟨rfl, rfl⟩
  order := List.Sublist.refl _
  waited _ member := nomatch member
  distinct := List.nodup_nil

theorem mem_queue (h : Scanned start done made round) {block : BlockHash} :
    block ∈ round.scheduler.backlog.queue ↔
      block ∈ start.scheduler.backlog.queue ∧ block ∉ made.map Prod.snd := by
  rw [h.queue, List.mem_filter, decide_eq_true_eq]

theorem trans (first : Scanned start done made middle) (second : Scanned middle later more round) :
    Scanned start (done ++ later) (made ++ more) round where
  staged := second.staged
  settings := second.settings.trans first.settings
  running := second.running.trans first.running
  log := by rw [second.log, first.log, List.append_assoc]
  pool := by rw [second.pool, first.pool, List.map_append, List.foldl_append]
  queue := by
    rw [second.queue, first.queue, List.filter_filter]
    refine List.filter_congr fun block _ => ?_
    rw [List.map_append, Bool.eq_iff_iff, Bool.and_eq_true]
    simp only [decide_eq_true_eq, List.mem_append, not_or]
    exact and_comm
  dossier block waits :=
    (second.dossier block waits).trans (first.dossier block (second.mem_queue.mp waits).1)
  untouched peer absent := by
    rw [List.mem_append, not_or] at absent
    obtain ⟨record, refusals⟩ := first.untouched peer absent.1
    obtain ⟨recordLater, refusalsLater⟩ := second.untouched peer absent.2
    exact ⟨recordLater.trans record, refusalsLater.trans refusals⟩
  order := by
    rw [List.map_append]
    exact first.order.append second.order
  waited request member := by
    rcases List.mem_append.mp member with early | late
    · exact first.waited request early
    · exact (first.mem_queue.mp (second.waited request late)).1
  distinct := by
    rw [List.map_append, List.nodup_append]
    refine ⟨first.distinct, second.distinct, ?_⟩
    rintro block early other late rfl
    obtain ⟨request, member, rfl⟩ := List.mem_map.mp late
    exact (first.mem_queue.mp (second.waited request member)).2 early

theorem of_queue_eq {t : Scheduler} (staged : t.Staged)
    (settings : t.settings = round.scheduler.settings)
    (running : t.isRunning = round.scheduler.isRunning)
    (outbox : t.outbox = round.scheduler.outbox)
    (queue : t.backlog.queue = round.scheduler.backlog.queue)
    (dossier : ∀ block ∈ round.scheduler.backlog.queue,
      t.dossier block = round.scheduler.dossier block)
    (untouched : ∀ other, peer ≠ other → t.peers[other]? = round.scheduler.peers[other]? ∧
      t.refusals[other]? = round.scheduler.refusals[other]?) :
    Scanned round [peer] [] { round with scheduler := t } where
  staged := staged
  settings := settings
  running := running
  log := by rw [requestLog, events, outbox, List.append_nil]; rfl
  pool := rfl
  queue := by simpa using queue
  dossier block waits := dossier block (queue ▸ waits)
  untouched other absent := untouched other fun same => absent (same ▸ List.mem_singleton_self peer)
  order := List.nil_sublist _
  waited _ member := nomatch member
  distinct := List.nodup_nil

end Scanned

/-! ## One visit -/

theorem requestLog_publish (s : Scheduler) (event : NetworkEvent) :
    (s.publish event).requestLog = s.requestLog ++ event.request?.toList := by
  unfold requestLog events publish
  rw [List.filterMap_append, List.filterMap_append]
  cases asks : event.request? <;> simp [Effect.event?, asks]

theorem requestLog_assign (s : Scheduler) (peer : PeerAddress) (block : BlockHash)
    (now : Timestamp) : (s.assign peer block now).requestLog = s.requestLog ++ [(peer, block)] := by
  have told : ∀ t : Scheduler, (((t.publish (.blockRequested peer block)).publish
      (.keepAlive peer false)).growBuffer peer).requestLog = t.requestLog ++ [(peer, block)] := by
    intro t
    have grown : ∀ u : Scheduler, (u.growBuffer peer).requestLog = u.requestLog := by
      intro u
      simp [requestLog, events, growBuffer, Effect.event?]
    rw [grown, requestLog_publish, requestLog_publish]
    simp [NetworkEvent.request?]
  exact told _

theorem refusals_noteRefusals (s : Scheduler) (peer other : PeerAddress)
    (reasons : List (BlockHash × Refusal)) :
    (s.noteRefusals peer reasons).refusals[other]? =
      if peer = other then if reasons.isEmpty then none else some reasons
      else s.refusals[other]? := by
  unfold noteRefusals
  dsimp only
  by_cases none_given : reasons.isEmpty = true
  · simp [none_given, Std.ExtTreeMap.getElem?_erase]
  · simp [none_given, Std.ExtTreeMap.getElem?_insert]

theorem scanned_granted {block : BlockHash} (bandwidthRestricted : Bool)
    (before : round.scheduler.Staged) (waits : block ∈ round.scheduler.backlog.queue)
    (after : ({ round.scheduler with
      bandwidthRestricted, backlog := round.scheduler.backlog.remove block }.assign peer block
        now).Staged) :
    Scanned round [peer] [(peer, block)]
      { scheduler := { round.scheduler with
          bandwidthRestricted, backlog := round.scheduler.backlog.remove block }.assign
            peer block now
        pool := round.pool.serve peer } := by
  let taken : Scheduler :=
    { round.scheduler with
      bandwidthRestricted, backlog := round.scheduler.backlog.remove block }
  have revised : Revises block _ taken (taken.assign peer block now) :=
    revises_assign taken block now peer
  have left : (taken.assign peer block now).backlog.queue =
      round.scheduler.backlog.queue.filter fun other => other ∉ [block] := by
    change round.scheduler.backlog.queue.erase block = _
    rw [before.nodup_queue.erase_eq_filter]
    refine List.filter_congr fun other _ => ?_
    rw [Bool.eq_iff_iff]
    simp
  refine ⟨after, rfl, rfl, requestLog_assign taken peer block now, rfl, left, ?dossier,
    ?untouched, List.Sublist.refl _, ?waited, List.nodup_singleton block⟩
  case dossier =>
    intro other member
    have different : block ≠ other := by
      rintro rfl
      change block ∈ (taken.assign peer block now).backlog.queue at member
      simp [left] at member
    exact revised.of_ne different
  case untouched =>
    intro other absent
    have different : peer ≠ other := fun same => absent (same ▸ List.mem_singleton_self peer)
    constructor
    · change (round.scheduler.peers.modify peer _)[other]? = _
      simp [Std.ExtTreeMap.getElem?_modify, different]
    · change (round.scheduler.refusals.erase peer)[other]? = _
      simp [Std.ExtTreeMap.getElem?_erase, different]
  case waited =>
    intro request member
    cases List.mem_singleton.mp member
    exact waits

theorem scanned_deal {made : List (PeerAddress × BlockHash)} (h : Deal now round peer made next)
    (before : round.scheduler.Staged) (after : next.scheduler.Staged) :
    Scanned round [peer] made next := by
  cases h with
  | closed flag =>
    exact .of_queue_eq after rfl rfl rfl rfl (fun _ _ => rfl) fun _ _ => ⟨rfl, rfl⟩
  | refused flag =>
    refine .of_queue_eq after rfl rfl rfl rfl (fun _ _ => rfl) fun other different => ⟨rfl, ?_⟩
    rw [refusals_noteRefusals, if_neg different]
  | granted flag mode grants => exact scanned_granted flag before (grants _ rfl).mem.1 after

/-- The block that a peer sends is held, so it is not among the waiting ones. -/
theorem Staged.sent_ne_of_waits (staged : s.Staged) {record : Peer} {transfer : Transfer}
    (known : s.peers[peer]? = some record) (sends : record.transfer? = some transfer)
    {block : BlockHash} (waits : block ∈ s.backlog.queue) : transfer.block ≠ block := by
  rintro rfl
  obtain ⟨stage, h⟩ := staged.stage transfer.block
  have holds : s.blockAt? peer = some transfer.block := by
    rw [blockAt?, known, Option.bind_some, Peer.block?, sends, Option.map_some]
  rw [h.mem_queue] at waits
  rw [h.heldBy] at holds
  cases stage with
  | waiting => exact holds
  | _ => contradiction

/-- A look at a transfer tells nothing of the blocks that wait. -/
theorem scanned_watch {record : Peer} {transfer : Transfer} (staged : round.scheduler.Staged)
    (known : round.scheduler.peers[peer]? = some record)
    (sends : record.transfer? = some transfer) (now : Timestamp)
    (after : (round.scheduler.watch peer record transfer now).Staged) :
    Scanned round [peer] []
      { round with scheduler := round.scheduler.watch peer record transfer now } := by
  obtain ⟨seen, _, lastActivity, looked, _, _, _, _, activity⟩ := observe_eq known sends now
  have elsewhere : ∀ block ∈ round.scheduler.backlog.queue, transfer.block ≠ block :=
    fun _ => staged.sent_ne_of_waits known sends
  let shown : Scheduler :=
    { round.scheduler with peers := round.scheduler.peers.insert peer seen, lastActivity }
  have same : ∀ block ∈ round.scheduler.backlog.queue,
      shown.dossier block = round.scheduler.dossier block := by
    intro block waits
    ext1 <;> first | rfl | exact activity block (elsewhere block waits)
  have untouched : ∀ other, peer ≠ other →
      shown.peers[other]? = round.scheduler.peers[other]? ∧
        shown.refusals[other]? = round.scheduler.refusals[other]? := by
    intro other different
    refine ⟨?_, rfl⟩
    simp [shown, Std.ExtTreeMap.getElem?_insert, different]
  revert after
  unfold watch
  split
  · intro after
    exact .of_queue_eq after rfl rfl rfl rfl (fun _ _ => rfl) fun _ _ => ⟨rfl, rfl⟩
  · rw [looked]
    dsimp only
    split
    · rename_i stall _
      intro after
      refine .of_queue_eq after rfl rfl rfl rfl (fun block waits => ?_) untouched
      rw [← same block waits]
      exact (revises_moveToLimbo shown transfer.block now peer stall).of_ne (elsewhere block waits)
    · exact fun after => .of_queue_eq after rfl rfl rfl rfl same untouched

/-- What the visit of a peer finds: a peer that can take a block is dealt with, and any other one
makes no request. -/
inductive Visit (now : Timestamp) (round : Round) (peer : PeerAddress) :
    List (PeerAddress × BlockHash) → Round → Prop where
  | dealt {made : List (PeerAddress × BlockHash)} {next : Round}
      (available : round.scheduler.IsAvailableAt peer) (deal : Deal now round peer made next) :
      Visit now round peer made next
  | passedBy {next : Round} (unavailable : ¬ round.scheduler.IsAvailableAt peer) :
      Visit now round peer [] next

theorem scanned_turn (staged : round.scheduler.Staged) (now : Timestamp) (peer : PeerAddress) :
    ∃ made, Visit now round peer made (turn now round peer) ∧
      Scanned round [peer] made (turn now round peer) := by
  have after := (passes_turn staged now peer).staged staged
  have idle : Scanned round [peer] [] round :=
    .of_queue_eq staged rfl rfl rfl rfl (fun _ _ => rfl) fun _ _ => ⟨rfl, rfl⟩
  have taken := turnTaken_turn now round peer
  generalize turn now round peer = next at after taken ⊢
  cases taken with
  | @offered record known available =>
    obtain ⟨made, deal⟩ := deal_offerBlock round peer now
    exact ⟨made, .dealt ⟨record, known, available⟩ deal, scanned_deal deal staged after⟩
  | @watched record transfer known unavailable sends =>
    refine ⟨[], .passedBy ?_, scanned_watch staged known sends now after⟩
    rintro ⟨other, found, available⟩
    cases known.symm.trans found
    exact unavailable available
  | passed rests =>
    refine ⟨[], .passedBy ?_, idle⟩
    rintro ⟨record, known, available⟩
    exact (rests record known).1 available

theorem scanned_foldl (staged : round.scheduler.Staged) (now : Timestamp)
    (peers : List PeerAddress) :
    ∃ made, Scanned round peers made (peers.foldl (turn now) round) := by
  induction peers generalizing round with
  | nil => exact ⟨[], .refl staged⟩
  | cons peer rest ih =>
    obtain ⟨first, _, visited⟩ := scanned_turn staged now peer
    obtain ⟨others, scanned⟩ := ih visited.staged
    exact ⟨first ++ others, visited.trans scanned⟩

/-! ## A whole tick -/

theorem length_requestLog (s : Scheduler) : s.requestLog.length = s.requestTotal := by
  rw [requestLog, requestTotal, List.length_filterMap_eq_countP]
  refine List.countP_congr fun event _ => ?_
  cases event <;> simp [NetworkEvent.request?, NetworkEvent.isRequest]

theorem Elements.events_grow {change : Peer → Peer → Prop} (h : Elements change s t) :
    s.events <+: t.events :=
  h.outbox_grows.filterMap _

/-- After the turns a tick makes no more requests. -/
theorem requestLog_tick (s : Scheduler) (now : Timestamp) :
    (s.tick now).requestLog = ({ s with ticks := s.ticks + 1 }.turns now).requestLog := by
  have more := (elements_tick_of_turns s now).events_grow.filterMap NetworkEvent.request?
  refine (more.eq_of_length ?_).symm
  have same := (spares_tick_of_turns s now).requests
  rw [← length_requestLog, ← length_requestLog] at same
  exact same.symm

theorem events_step (step : Step) :
    step.after.events = step.before.events ++ step.after.events.drop step.before.events.length := by
  obtain ⟨more, whole⟩ := (elements_apply step.before step.now step.operation).events_grow
  have said : step.after.events = step.before.events ++ more := whole.symm
  rw [said, List.drop_left]

theorem requestLog_step (step : Step) :
    step.after.requestLog = step.before.requestLog ++ step.requests := by
  rw [requestLog, events_step step, List.filterMap_append]
  rfl

/-- A request is what the story of the block says about it. -/
theorem mem_requests {step : Step} {peer : PeerAddress} {block : BlockHash} :
    (peer, block) ∈ step.requests ↔ .requested peer ∈ step.said block := by
  have told : step.said block = (step.after.events.drop step.before.events.length).filterMap
      (NetworkEvent.milestone? block) := by
    have whole : step.after.story block = step.before.story block ++
        (step.after.events.drop step.before.events.length).filterMap
          (NetworkEvent.milestone? block) :=
      (congrArg _ (events_step step)).trans List.filterMap_append
    rw [Step.said, whole, List.drop_left]
  rw [told, Step.requests, List.mem_filterMap, List.mem_filterMap]
  refine exists_congr fun event => and_congr_right fun _ => ?_
  cases event <;> simp [NetworkEvent.request?, NetworkEvent.milestone?, and_comm]

def opening (s : Scheduler) : Round :=
  ⟨{ s with ticks := s.ticks + 1 }.checkBandwidth, s.pool⟩

def roundAt (s : Scheduler) (now : Timestamp) (peer : PeerAddress) : Round :=
  (s.fastestFirst.takeWhile (· ≠ peer)).foldl (turn now) s.opening

theorem scanned_opening (staged : s.Staged) : Scanned ⟨s, s.pool⟩ [] [] s.opening := by
  obtain ⟨flag, same⟩ := checkBandwidth_eq { s with ticks := s.ticks + 1 }
  rw [opening, same]
  have counted : Quiet s { s with ticks := s.ticks + 1, bandwidthRestricted := flag } :=
    .of_peers_eq (by apply SameBooks.of_tables <;> rfl) rfl
  have here : Scanned ⟨s, s.pool⟩ [] [] ⟨s, s.pool⟩ := .refl staged
  exact { here with staged := counted.staged staged, .. }

theorem exists_takeWhile {peers : List PeerAddress} {peer : PeerAddress} (member : peer ∈ peers) :
    ∃ rest, peers = peers.takeWhile (· ≠ peer) ++ peer :: rest := by
  obtain ⟨early, rest, whole, absent⟩ := List.eq_append_cons_of_mem member
  refine ⟨rest, ?_⟩
  have before : ∀ other ∈ early, decide (other ≠ peer) = true := by
    rintro other among
    exact decide_eq_true fun same => absent (same ▸ among)
  rw [whole, List.takeWhile_append_of_pos before, List.takeWhile_cons_of_neg (by simp),
    List.append_nil]

theorem requests_of_scanned {made : List (PeerAddress × BlockHash)} (now : Timestamp)
    (h : Scanned ⟨s, s.pool⟩ s.fastestFirst made (s.fastestFirst.foldl (turn now) s.opening)) :
    Step.requests ⟨s, now, .tick⟩ = made := by
  have said := requestLog_step ⟨s, now, .tick⟩
  have ended : (s.tick now).requestLog = s.requestLog ++ made := (requestLog_tick s now).trans h.log
  exact List.append_cancel_left (said.symm.trans ended)

theorem Staged.scanned_tick (staged : s.Staged) (now : Timestamp) :
    Scanned ⟨s, s.pool⟩ s.fastestFirst (Step.requests ⟨s, now, .tick⟩)
      (s.fastestFirst.foldl (turn now) s.opening) := by
  have opened := scanned_opening staged
  obtain ⟨made, all⟩ := scanned_foldl opened.staged now s.fastestFirst
  have whole := opened.trans all
  rw [requests_of_scanned now whole]
  exact whole

/-- The visit of a peer in a tick, with what happens before and after it. -/
theorem Staged.exists_visit (staged : s.Staged) (now : Timestamp) {peer : PeerAddress}
    (member : peer ∈ s.fastestFirst) :
    ∃ before after early made late next last,
      s.fastestFirst = before ++ peer :: after ∧
      Step.requests ⟨s, now, .tick⟩ = early ++ (made ++ late) ∧
      Scanned ⟨s, s.pool⟩ before early (s.roundAt now peer) ∧
      Visit now (s.roundAt now peer) peer made next ∧
      Scanned next after late last ∧
      Spares last.scheduler (s.tick now) := by
  obtain ⟨after, whole⟩ := exists_takeWhile member
  have opened := scanned_opening staged
  obtain ⟨early, before⟩ := scanned_foldl opened.staged now (s.fastestFirst.takeWhile (· ≠ peer))
  have found : Scanned ⟨s, s.pool⟩ (s.fastestFirst.takeWhile (· ≠ peer)) early
      (s.roundAt now peer) := opened.trans before
  obtain ⟨made, visit, visited⟩ := scanned_turn found.staged now peer
  obtain ⟨late, rest⟩ := scanned_foldl visited.staged now after
  have last : s.fastestFirst.foldl (turn now) s.opening =
      after.foldl (turn now) (turn now (s.roundAt now peer) peer) := by
    rw [whole, List.foldl_append, List.foldl_cons]
    rfl
  refine ⟨_, after, early, made, late, _, _, whole, ?_, found, visit, rest, ?_⟩
  · have all := found.trans (visited.trans rest)
    rw [List.singleton_append, ← whole, ← last] at all
    exact requests_of_scanned now all
  · rw [← last]
    exact spares_tick_of_turns s now

/-- A request of a tick is made at the visit of its peer, which finds what the earlier requests have
left. -/
theorem Staged.exists_grant (staged : s.Staged) {early late : List (PeerAddress × BlockHash)}
    {block : BlockHash} (whole : Step.requests ⟨s, now, .tick⟩ = early ++ (peer, block) :: late) :
    ∃ before restricted,
      peer ∉ before ∧
      Scanned ⟨s, s.pool⟩ before early (s.roundAt now peer) ∧
      (s.roundAt now peer).scheduler.IsAvailableAt peer ∧
      (s.roundAt now peer).scheduler.handOutMode? = some restricted ∧
      ∀ inquiry : Backlog.Inquiry,
        inquiry = ⟨(s.roundAt now peer).scheduler.eligibility, peer, (s.roundAt now peer).pool,
          restricted, now⟩ →
        (s.roundAt now peer).scheduler.backlog.Grants inquiry
          ((s.roundAt now peer).scheduler.backlog.considered inquiry) block := by
  have order := (staged.scanned_tick now).order
  rw [whole] at order
  have member : peer ∈ s.fastestFirst := order.subset (by simp)
  obtain ⟨before, after, first, made, rest, next, last, peers, requests, found, visit, later, _⟩ :=
    staged.exists_visit now member
  have distinct := s.nodup_fastestFirst
  rw [peers, List.nodup_middle, List.nodup_cons, List.mem_append, not_or] at distinct
  have unservedBefore : (peer, block) ∉ first := fun among =>
    distinct.1.1 (found.order.subset (List.mem_map_of_mem among))
  have unservedAfter : (peer, block) ∉ rest := fun among =>
    distinct.1.2 (later.order.subset (List.mem_map_of_mem among))
  rw [whole] at requests
  have among : (peer, block) ∈ first ++ (made ++ rest) := requests ▸ by simp
  have asked : (peer, block) ∈ made := by simpa [unservedBefore, unservedAfter] using among
  cases visit with
  | passedBy => exact nomatch asked
  | dealt available deal =>
    cases deal with
    | closed => exact nomatch asked
    | refused => exact nomatch asked
    | @granted restricted given flag mode grants =>
      cases List.mem_singleton.mp asked
      obtain ⟨rfl, _, rfl⟩ :=
        (List.append_cons_inj_of_notMem unservedBefore unservedAfter).mp requests.symm
      exact ⟨before, restricted, distinct.1.1, found, available, mode, grants⟩

end Scheduler
end BlockFetch
