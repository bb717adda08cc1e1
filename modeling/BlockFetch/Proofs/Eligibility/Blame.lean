import BlockFetch.Proofs.Lifecycle.Course
import BlockFetch.Proofs.Dossier

/-!
# Blame

Outside the turns of a tick, a peer loses its block when the attempt fails, when it disconnects, or
when the attempts on the block are settled. In the first two cases the backlog notes the peer and
the time, and it notes nobody else. All operations but the end of a session are shown to do so, one
function at a time.
-/
namespace BlockFetch

namespace Dossier

def failedAt? (dossier : Dossier) (peer : PeerAddress) : Option Timestamp :=
  (dossier.failures?.getD ∅)[peer]?

/-- The attempts on the block are settled, or nothing happens to what is known of them. -/
def GoesOn (before after : Dossier) : Prop :=
  after.attempts? = none ∨
    (after.attempts? = before.attempts? ∧ after.failures? = before.failures?)

theorem GoesOn.refl (dossier : Dossier) : GoesOn dossier dossier := .inr ⟨rfl, rfl⟩

theorem failedAt?_failedBy (dossier : Dossier) (peer other : PeerAddress) (now : Timestamp) :
    (dossier.failedBy peer now).failedAt? other =
      if peer = other then some now else dossier.failedAt? other := by
  simp [failedAt?, failedBy, Std.ExtTreeMap.getElem?_insert]

theorem attempts?_noted (recording : Bool) (entry : JournalEntry) (dossier : Dossier) :
    (dossier.noted recording entry).attempts? = dossier.attempts? := by
  cases recording <;> rfl

theorem failedAt?_noted (recording : Bool) (entry : JournalEntry) (dossier : Dossier)
    (peer : PeerAddress) :
    (dossier.noted recording entry).failedAt? peer = dossier.failedAt? peer := by
  cases recording <;> rfl

theorem goesOn_noted (recording : Bool) (entry : JournalEntry) (dossier : Dossier) :
    GoesOn dossier (dossier.noted recording entry) := by
  unfold noted
  split <;> exact .inr ⟨rfl, rfl⟩

end Dossier

namespace Scheduler

/-- A step blames the peers that lose a block while the attempts on it go on, and nobody else. It
gives nobody a block. -/
structure Blames (now : Timestamp) (s t : Scheduler) : Prop where
  unbegun : ∀ block, (s.dossier block).attempts? = none → (t.dossier block).attempts? = none
  held : ∀ peer block, t.blockAt? peer = some block → s.blockAt? peer = some block
  failures : ∀ block, (t.dossier block).attempts? = none ∨ ∀ peer,
    (t.dossier block).failedAt? peer =
      if s.blockAt? peer = some block ∧ t.blockAt? peer ≠ some block then some now
      else (s.dossier block).failedAt? peer

variable {s t u : Scheduler} {now : Timestamp} {block : BlockHash}

namespace Blames

theorem of_goesOn (held : ∀ peer, t.blockAt? peer = s.blockAt? peer)
    (goesOn : ∀ block, (s.dossier block).GoesOn (t.dossier block)) : Blames now s t where
  unbegun block fresh := (goesOn block).elim id fun same => same.1.trans fresh
  held peer block holds := (held peer).symm.trans holds
  failures block := by
    refine (goesOn block).imp_right fun same peer => ?_
    have kept : ¬ (s.blockAt? peer = some block ∧ t.blockAt? peer ≠ some block) := by
      rw [held]
      exact fun lost => lost.2 lost.1
    rw [if_neg kept, Dossier.failedAt?, Dossier.failedAt?, same.2]

theorem of_revises {revision : Dossier → Dossier} (revises : Revises block revision s t)
    (peers : t.peers = s.peers) (goesOn : ∀ dossier, Dossier.GoesOn dossier (revision dossier)) :
    Blames now s t := by
  refine of_goesOn (blockAt?_congr peers) fun other => ?_
  rw [revises other]
  split
  · exact goesOn _
  · exact .refl _

theorem of_tables (peers : t.peers = s.peers) (backlog : t.backlog = s.backlog) :
    Blames now s t := by
  refine of_goesOn (blockAt?_congr peers) fun block => .inr ⟨?_, ?_⟩ <;>
    simp only [dossier, backlog]

theorem of_forget
    (freed : ∀ peer, t.blockAt? peer =
      if s.blockAt? peer = some block then none else s.blockAt? peer)
    (backlog : t.backlog = s.backlog.forget block) : Blames now s t := by
  have settled : (t.dossier block).attempts? = none := by
    simp [dossier, backlog, Backlog.forget]
  have others : ∀ other, block ≠ other →
      (t.dossier other).attempts? = (s.dossier other).attempts? ∧
        (t.dossier other).failures? = (s.dossier other).failures? := by
    intro other different
    simp [dossier, backlog, Backlog.forget, Std.ExtTreeMap.getElem?_erase, different]
  refine ⟨fun other fresh => ?_, fun peer other holds => ?_, fun other => ?_⟩
  · by_cases same : block = other
    · exact same ▸ settled
    · exact (others other same).1.trans fresh
  · rw [freed] at holds
    split at holds
    · contradiction
    · exact holds
  · by_cases same : block = other
    · exact .inl (same ▸ settled)
    · refine .inr fun peer => ?_
      have spared : ¬ (s.blockAt? peer = some other ∧ t.blockAt? peer ≠ some other) := by
        rintro ⟨holds, lost⟩
        rw [freed, holds, if_neg fun here => same (Option.some_inj.mp here).symm] at lost
        exact lost rfl
      rw [if_neg spared, Dossier.failedAt?, Dossier.failedAt?, (others other same).2]

theorem of_lost {peer : PeerAddress} {left : Scheduler} {revision : Dossier → Dossier}
    (holds : s.blockAt? peer = some block)
    (detached : ∀ other, left.blockAt? other = if peer = other then none else s.blockAt? other)
    (dossiers : ∀ other, left.dossier other = s.dossier other) (peers : t.peers = left.peers)
    (revises : Revises block revision left t)
    (attempts : ∀ dossier, (revision dossier).attempts? = dossier.attempts?)
    (noted : ∀ dossier other, (revision dossier).failedAt? other =
      if peer = other then some now else dossier.failedAt? other) : Blames now s t := by
  have held : ∀ other, t.blockAt? other = if peer = other then none else s.blockAt? other :=
    fun other => (blockAt?_congr peers other).trans (detached other)
  refine ⟨fun other fresh => ?_, fun other sent holds => ?_, fun other => .inr fun candidate => ?_⟩
  · rw [revises other, dossiers]
    split
    · exact (attempts _).trans fresh
    · exact fresh
  · rw [held] at holds
    split at holds
    · contradiction
    · exact holds
  · rw [revises other, dossiers, held]
    by_cases same : block = other
    · by_cases here : peer = candidate
      · subst same here
        simp [noted, holds]
      · simp [same, noted, here]
    · by_cases here : peer = candidate
      · subst here
        simp [holds, same]
      · simp [same, here]

theorem refl (s : Scheduler) : Blames now s s := of_tables rfl rfl

/-- Nobody gets a block, so what a peer holds in the end it held all the time. -/
theorem trans (first : Blames now s t) (second : Blames now t u) : Blames now s u where
  unbegun block fresh := second.unbegun block (first.unbegun block fresh)
  held peer block holds := first.held peer block (second.held peer block holds)
  failures block := by
    rcases first.failures block with settled | early
    · exact .inl (second.unbegun block settled)
    · refine (second.failures block).imp_right fun late peer => ?_
      rw [late, early]
      by_cases before : s.blockAt? peer = some block
      · by_cases after : u.blockAt? peer = some block
        · simp [after, second.held peer block after]
        · by_cases between : t.blockAt? peer = some block <;> simp [before, between, after]
      · have never : t.blockAt? peer ≠ some block := fun holds =>
          before (first.held peer block holds)
        simp [before, never]

theorem foldl {α : Type} {step : Scheduler → α → Scheduler} (h : ∀ s a, Blames now s (step s a))
    (items : List α) (s : Scheduler) : Blames now s (items.foldl step s) := by
  induction items generalizing s with
  | nil => exact refl s
  | cons item rest ih => exact (h s item).trans (ih (step s item))

end Blames

/-! ## Ends of attempts -/

/-- The peers that fail a block are noted, whether they were noted before or not. -/
theorem dossier_foldl_failHolder (s : Scheduler) (block : BlockHash) (now : Timestamp)
    (peers : List PeerAddress) (other : BlockHash) :
    ((peers.foldl (fun s peer => s.failHolder block now peer) s).dossier other).attempts? =
        (s.dossier other).attempts? ∧
      ∀ peer, ((peers.foldl (fun s peer => s.failHolder block now peer) s).dossier
          other).failedAt? peer =
        if block = other ∧ peer ∈ peers then some now else (s.dossier other).failedAt? peer := by
  induction peers generalizing s with
  | nil => simp
  | cons first rest ih =>
    have revised : Revises block (Dossier.failedBy first now) s (s.failHolder block now first) :=
      revises_noteFailure (s.modifyPeer first Peer.fail) block now first
    obtain ⟨attempts, failures⟩ := ih (s.failHolder block now first)
    rw [List.foldl_cons]
    refine ⟨attempts.trans ?_, fun peer => (failures peer).trans ?_⟩
    · rw [revised other]
      split <;> rfl
    · rw [revised other]
      by_cases same : block = other
      · rw [if_pos same, Dossier.failedAt?_failedBy]
        by_cases here : first = peer
        · simp [same, here]
        · simp [same, here, Ne.symm here]
      · simp [same]

theorem blames_failHolders (s : Scheduler) (block : BlockHash) (now : Timestamp) :
    Blames now s (s.failHolders block now) := by
  have tables := dossier_foldl_failHolder s block now (s.holders block)
  have freed := blockAt?_failHolders s block now
  refine ⟨fun other fresh => (tables other).1.trans fresh, fun peer other holds => ?_,
    fun other => .inr fun peer => ((tables other).2 peer).trans ?_⟩
  · rw [freed] at holds
    split at holds
    · contradiction
    · exact holds
  · rw [freed]
    simp only [mem_holders]
    by_cases here : s.blockAt? peer = some block
    · by_cases same : block = other
      · simp [here, same]
      · simp [here, same]
    · simp [here]

theorem blames_endAttempt (s : Scheduler) (block : BlockHash) :
    Blames now s (s.endAttempt block) :=
  .of_tables rfl rfl

theorem blames_note (s : Scheduler) (block : BlockHash) (peer? : Option PeerAddress) (note : Note) :
    Blames now s (s.note block peer? note now) :=
  .of_tables rfl rfl

theorem blames_markCancelled (s : Scheduler) (block : BlockHash) (now : Timestamp) :
    Blames now s (s.markCancelled block now) := by
  refine .of_revises (revises_markCancelled s block now) rfl fun dossier => .inl ?_
  rw [Function.comp_apply, Dossier.noted]
  split <;> rfl

theorem blames_discardBlock (s : Scheduler) (block : BlockHash) (now : Timestamp) :
    Blames now s (s.discardBlock block now) := by
  refine .of_revises (revises_discardBlock s block now) rfl fun dossier => .inl ?_
  rw [Function.comp_apply, Dossier.noted]
  split <;> rfl

theorem blames_requeue (s : Scheduler) (block : BlockHash) (now : Timestamp) :
    Blames now s (s.requeue block now) :=
  .of_revises (revises_requeue s block now) rfl (Dossier.goesOn_noted _ _)

theorem blames_fail (s : Scheduler) (block : BlockHash) (now : Timestamp) :
    Blames now s (s.fail block now) := by
  have aborted := (blames_failHolders s block now).trans (blames_endAttempt _ block)
  refine aborted.trans ?_
  unfold fail
  extract_lets ended
  split
  · have spared : Blames now ended { ended with cancelling := ended.cancelling.erase block } :=
      .of_tables rfl rfl
    exact spared.trans (blames_markCancelled _ block now)
  · split
    · exact blames_requeue ended block now
    · exact blames_discardBlock ended block now

theorem blames_cancelNow (s : Scheduler) (block : BlockHash) (now : Timestamp) :
    Blames now s (s.cancelNow block now) :=
  .of_forget (blockAt?_freeHolders s block)
    (congrArg (Backlog.forget · block) (backlog_freeHolders s block))

/-- A block that is wanted is forgotten when it is delivered; nobody holds one that is not. -/
theorem blames_succeed (staged : s.Staged) (peer : PeerAddress) (header : BlockHeader)
    (size : UInt64) (now : Timestamp) : Blames now s (s.succeed peer header size now) := by
  obtain ⟨stage, inStage⟩ := staged.stage header.hash
  by_cases unwanted : stage = .cancelled ∨ stage = .downloaded
  · have quiet := quiet_succeed peer size now inStage unwanted
    have backlog : (s.succeed peer header size now).backlog = s.backlog := by
      unfold succeed
      simp only [(isUnwanted_eq inStage).mpr unwanted, if_true]
      exact backlog_freeHolders s header.hash
    refine .of_goesOn quiet.held fun other => .inr ⟨?_, ?_⟩ <;> simp only [dossier, backlog]
  · have wanted : ¬ s.isUnwanted header.hash = true := by rwa [isUnwanted_eq inStage]
    unfold succeed
    extract_lets block freed transfer? duration announced delivered
    rw [if_neg wanted]
    have measured : (announced.recordSpeed peer transfer? size now).backlog = s.backlog := by
      cases transfer? <;> rfl
    have held : ∀ other, (announced.recordSpeed peer transfer? size now).blockAt? other =
        s.blockAt? other := (quiet_recordSpeed announced peer transfer? size now).held
    have noted : ∀ t : Scheduler, (t.noteDownload block peer now).backlog = t.backlog ∧
        (t.noteDownload block peer now).peers = t.peers := by
      intro t
      unfold noteDownload
      split <;> exact ⟨rfl, rfl⟩
    have freed : ∀ other, ((delivered.markDownloaded block).noteDownload block peer now).blockAt?
        other = if s.blockAt? other = some block then none else s.blockAt? other := by
      intro other
      rw [blockAt?_congr (noted _).2, ← held]
      exact blockAt?_freeHolders (announced.recordSpeed peer transfer? size now) block other
    refine .of_forget freed ?_
    rw [(noted _).1]
    exact congrArg (Backlog.forget · block) ((backlog_freeHolders _ block).trans measured)

theorem blames_abandon (now : Timestamp) (s : Scheduler) (block : BlockHash) :
    Blames now s (abandon now s block) := by
  unfold abandon
  extract_lets left
  split
  · have spared : Blames now s { left with cancelling := left.cancelling.erase block } :=
      .of_tables rfl rfl
    exact spared.trans (blames_markCancelled _ block now)
  · exact .of_tables rfl rfl

/-! ## Notices -/

theorem blockAt?_hearDisconnected (s : Scheduler) (peer : PeerAddress) (now : Timestamp) :
    (s.hearDisconnected peer now).blockAt? peer = none := by
  have detached : (s.detachPeer peer).blockAt? peer = none := by
    rw [blockAt?_detachPeer, if_pos rfl]
  unfold hearDisconnected
  split
  · rename_i unknown
    rw [blockAt?, unknown, Option.bind_none]
  · split
    · exact detached
    · extract_lets left
      split <;> exact detached

/-- A peer whose transfer is cut off is noted as the last one to fail its block. -/
theorem blames_hearDisconnected (s : Scheduler) (peer : PeerAddress) (now : Timestamp) :
    Blames now s (s.hearDisconnected peer now) := by
  unfold hearDisconnected
  split
  · exact .refl s
  · rename_i record known
    have holds : s.blockAt? peer = record.block? := by rw [blockAt?, known, Option.bind_some]
    have detached := blockAt?_detachPeer s peer
    split
    · rename_i idle
      have left := quiet_of_blockAt?_eq_none (sameBooks_detachPeer s peer) (holds.trans idle)
        detached
      exact .of_goesOn left.held fun _ => .refl _
    · rename_i block sends
      rw [sends] at holds
      extract_lets left
      split
      · exact .of_lost holds detached (fun _ => rfl) rfl
          (revises_noteFailure left block now peer) (fun _ => rfl)
          fun dossier other => dossier.failedAt?_failedBy peer other now
      · refine .of_lost holds detached (fun _ => rfl) rfl
          (revises_moveToLimbo left block now peer .disconnected)
          (fun dossier => ?_) fun dossier other => ?_
        · exact (Dossier.attempts?_noted ..).trans rfl
        · exact (Dossier.failedAt?_noted ..).trans ((dossier.stalled now).failedAt?_failedBy ..)

theorem failures_hearAnnounced (s : Scheduler) (peer : PeerAddress) (blocks : List BlockHash) :
    (s.hearAnnounced peer blocks).backlog.failures = s.backlog.failures := by
  unfold hearAnnounced
  dsimp only
  generalize s.backlog = backlog
  induction blocks generalizing backlog with
  | nil => rfl
  | cons block rest ih => exact ih (backlog.noteAnnouncement block peer)

theorem blames_hearNotFound (s : Scheduler) (peer : PeerAddress) (blocks : List BlockHash)
    (now : Timestamp) : Blames now s (s.hearNotFound peer blocks now) := by
  unfold hearNotFound
  split
  · rename_i block
    split
    · exact (blames_note s block (some peer) .notFound).trans (blames_fail _ block now)
    · exact .refl s
  · exact .refl s

theorem blames_hearHeader (staged : s.Staged) (peer : PeerAddress) (header : BlockHeader)
    (size : UInt64) (now : Timestamp) : Blames now s (s.hearHeader peer header size now) := by
  have heard : Blames now s (s.touch header.hash now) := .of_tables rfl rfl
  have touched := (quiet_touch s header.hash now).staged staged
  unfold hearHeader
  extract_lets
  split
  · exact heard.trans (blames_succeed touched peer header size now)
  · exact .of_tables rfl rfl

theorem blames_hearChunk (staged : s.Staged) (peer : PeerAddress) (block : BlockHash)
    (transactions : UInt64) (now : Timestamp) :
    Blames now s (s.hearChunk peer block transactions now) := by
  have touched := (quiet_touch s block now).staged staged
  unfold hearChunk
  split
  · exact .refl s
  · rename_i part _
    extract_lets received heard
    split
    · have read : Blames now s { heard with partials := heard.partials.erase block } :=
        .of_tables rfl rfl
      have left := (quiet_setPartials heard (heard.partials.erase block)).staged touched
      exact read.trans (blames_succeed left peer part.header part.size now)
    · exact .of_tables rfl rfl

theorem blames_hearLiteBlock (staged : s.Staged) (peer : PeerAddress) (header : BlockHeader)
    (size : UInt64) (now : Timestamp) : Blames now s (s.hearLiteBlock peer header size now) := by
  unfold hearLiteBlock
  split
  · exact blames_succeed staged peer header size now
  · extract_lets head body
    have told : Blames now s body := .of_tables rfl rfl
    have split_up : body.Staged := by
      have first : Quiet s head := quiet_publish s fun _ => rfl
      have second : Quiet head body := quiet_publish head fun _ => rfl
      exact (first.trans second).staged staged
    exact told.trans (blames_succeed split_up peer header size now)

/-- No event but the end of the session takes a block from a peer without blaming the peer for it or
settling the attempts. -/
theorem blames_hear (staged : s.Staged) {event : NetworkEvent} (goesOn : event ≠ .sessionStopped)
    (now : Timestamp) : Blames now s (s.hear event now) := by
  cases event with
  | sessionStopped => exact absurd rfl goesOn
  | peerConnected peer =>
    have quiet := quiet_hearConnected staged peer
    refine .of_goesOn quiet.held fun block => .inr ?_
    change (s.hearConnected peer).backlog.attempts[block]? = _ ∧
      (s.hearConnected peer).backlog.failures[block]? = _
    unfold hearConnected
    split
    · exact ⟨rfl, rfl⟩
    · split <;> exact ⟨rfl, rfl⟩
  | peerHandshaked peer => exact .of_goesOn (quiet_hearHandshaked s peer).held fun _ => .refl _
  | peerDisconnected peer => exact blames_hearDisconnected s peer now
  | blocksAnnounced peer blocks =>
    have quiet := quiet_hearAnnounced s peer blocks
    refine .of_goesOn quiet.held fun block => .inr ⟨?_, ?_⟩
    · exact congrArg (·[block]?) quiet.attempts
    · exact congrArg (·[block]?) (failures_hearAnnounced s peer blocks)
  | blocksNotFound peer blocks => exact blames_hearNotFound s peer blocks now
  | headerDelivered peer header size origin =>
    cases origin with
    | wire => exact blames_hearHeader staged peer header size now
    | scheduler => exact .refl s
  | chunkDelivered peer block transactions origin =>
    cases origin with
    | wire => exact blames_hearChunk staged peer block transactions now
    | scheduler => exact .refl s
  | liteBlockDelivered peer header size => exact blames_hearLiteBlock staged peer header size now
  | rawBlockDelivered peer header size => exact blames_succeed staged peer header size now
  | enoughPeers => exact .of_tables rfl rfl
  | tooFewPeers => exact .of_tables rfl rfl
  | _ => exact .refl s

/-! ## Clients and ticks -/

theorem failures_download (s : Scheduler) (request : FetchRequest) (now : Timestamp) :
    (s.download request now).backlog.failures = s.backlog.failures := by
  unfold download
  extract_lets blocks added reopened noted reserved preferred
  have backlog : noted.backlog = s.backlog := by
    obtain ⟨journal, shape⟩ : ∃ journal, noted = { reopened with journal } :=
      foldl_note added .queued now reopened
    rw [shape]
    rfl
  have kept : preferred.failures = s.backlog.failures := by
    rw [← backlog]
    simp only [preferred, reserved]
    split <;> split <;> rfl
  cases request.priority <;> exact kept

theorem blames_download (s : Scheduler) (request : FetchRequest) (now : Timestamp) :
    Blames now s (s.download request now) := by
  obtain ⟨backlog, journal, shape, attempts, _⟩ := download_eq s request now
  have failures := failures_download s request now
  rw [shape] at failures ⊢
  refine .of_goesOn (fun _ => rfl) fun block => .inr ⟨?_, ?_⟩
  · exact congrArg (·[block]?) attempts
  · exact congrArg (·[block]?) failures

theorem blames_cancelBlock (now : Timestamp) (s : Scheduler) (block : BlockHash) :
    Blames now s (cancelBlock now s block) := by
  unfold cancelBlock
  split
  · exact .refl s
  · split
    · exact .of_tables rfl rfl
    · exact blames_markCancelled s block now

theorem blames_reconcile (now : Timestamp) (s : Scheduler) (block : BlockHash) :
    Blames now s (reconcile now s block) := by
  unfold reconcile
  split
  · exact .of_tables rfl rfl
  · split
    · exact blames_cancelNow s block now
    · split
      · exact blames_fail s block now
      · exact .refl s

theorem blames_tick_of_turns (s : Scheduler) (now : Timestamp) :
    Blames now ({ s with ticks := s.ticks + 1 }.turns now) (s.tick now) := by
  have resolved : ∀ t : Scheduler, Blames now t (t.reconcileLimbo now) :=
    fun t => Blames.foldl (blames_reconcile now) t.limbo.toList t
  obtain ⟨_, _, _, shape, _⟩ := tick_eq s now
  rw [shape]
  exact (resolved _).trans (.of_goesOn (fun _ => rfl) fun _ => .inr ⟨rfl, rfl⟩)

/-- Outside ticks, and while the session goes on, a peer that loses a block is blamed for it unless
the attempts on the block are settled, and nobody else is blamed. -/
theorem blames_apply (staged : s.Staged) (now : Timestamp) {operation : Operation}
    (untimed : operation ≠ .tick) (goesOn : operation.endsSession = false) :
    Blames now s (s.apply now operation) := by
  cases operation with
  | download request => exact blames_download s request now
  | cancel blocks => exact Blames.foldl (blames_cancelBlock now) blocks s
  | hear event =>
    refine blames_hear staged ?_ now
    rintro rfl
    exact nomatch goesOn
  | tick => exact absurd rfl untimed
  | _ => exact .of_tables rfl rfl

end Scheduler
end BlockFetch
