import BlockFetch.Proofs.Independence.Overlooking

/-!
# Buffers that are not changed

A stream can refuse to have its buffer grown or reset, and a peer may have no stream. The scheduler
asks and goes on. Whoever refuses, an operation leaves the same state behind, the outbox included,
and only the streams can differ: growing a buffer does not show in the view of its stream, and in
one operation nothing is read from the streams once a buffer was reset.
-/
namespace BlockFetch

namespace StreamTable

variable (table : StreamTable) (peer : PeerAddress)

/-- A request fails for the peers whose streams refuse and for those without a stream. -/
theorem exists_request_eq_error_iff (change : Stream → Stream) :
    (∃ error, table.request peer change = .error error) ↔
      peer ∈ table.refusing ∨ peer ∉ table.streams := by
  unfold request
  by_cases refused : peer ∈ table.refusing
  · simp [refused]
  · by_cases known : peer ∈ table.streams
    · simp [refused, known]
    · simp [refused, known]

theorem snapshot?_growBuffer (other : PeerAddress) :
    (table.orUnchanged (table.growBuffer peer)).snapshot? other = table.snapshot? other := by
  unfold growBuffer request
  split
  · rfl
  · split
    · simp only [orUnchanged_ok, snapshot?, modify, Std.ExtTreeMap.getElem?_modify]
      split
      · rename_i same
        rw [Std.LawfulEqCmp.compare_eq_iff_eq] at same
        subst same
        cases table.streams[peer]? <;> rfl
      · rfl
    · rfl

end StreamTable

namespace Scheduler

def AgreesButStreams (s t : Scheduler) : Prop :=
  ∃ streams, t = { s with streams }

/-- Two schedulers differ at most in their streams, and see the same of them. -/
def AgreesInView (s t : Scheduler) : Prop :=
  ∃ streams : StreamTable, t = { s with streams } ∧
    ∀ peer, streams.snapshot? peer = s.streams.snapshot? peer

theorem AgreesInView.agreesButStreams {s t : Scheduler} (h : AgreesInView s t) :
    AgreesButStreams s t := by
  obtain ⟨streams, rfl, -⟩ := h
  exact ⟨streams, rfl⟩

/-- A step that overlooks the background neither reads nor changes the streams. -/
theorem apply_with_streams_of_comm {step : Scheduler → Scheduler}
    (h : ∀ s backdrop, step (s.withBackdrop backdrop) = (step s).withBackdrop backdrop)
    (s : Scheduler) (streams : StreamTable) :
    step { s with streams } = { step s with streams } := by
  have kept := backdrop_of_comm h s
  have settings : (step s).settings.journal = s.settings.journal :=
    congrArg Backdrop.journalSettings kept
  have journal : (step s).journal = s.journal := congrArg Backdrop.journal kept
  have gauge : (step s).busyPercentage = s.busyPercentage := congrArg Backdrop.busyPercentage kept
  calc
    step { s with streams } = (step s).withBackdrop { s.backdrop with streams } :=
      h s { s.backdrop with streams }
    _ = { step s with streams } := by
      simp only [withBackdrop, backdrop, ← settings, ← journal, ← gauge]

theorem overlooksAtEnds_agreesButStreams : OverlooksAtEnds AgreesButStreams where
  differ := by
    rintro s _ ⟨streams, rfl⟩
    exact ⟨{ s.backdrop with streams }, rfl⟩
  comm := by
    rintro step h s _ ⟨streams, rfl⟩
    exact ⟨streams, apply_with_streams_of_comm h s streams⟩
  note := by
    rintro block peer? entry now s _ ⟨streams, rfl⟩
    exact ⟨streams, rfl⟩
  growBuffer := by
    rintro peer s _ ⟨streams, rfl⟩
    exact ⟨_, rfl⟩
  resetBuffer := by
    rintro peer s _ ⟨streams, rfl⟩
    exact ⟨_, rfl⟩
  noteDownload := by
    rintro block peer now s _ ⟨streams, rfl⟩
    refine ⟨streams, ?_⟩
    dsimp only [noteDownload]
    split <;> rfl

theorem overlooksInTurns_agreesInView : OverlooksInTurns AgreesInView where
  differ := by
    rintro s _ ⟨streams, rfl, -⟩
    exact ⟨{ s.backdrop with streams }, rfl⟩
  comm := by
    rintro step h s _ ⟨streams, rfl, same⟩
    have kept : (step s).streams = s.streams := congrArg Backdrop.streams (backdrop_of_comm h s)
    refine ⟨streams, apply_with_streams_of_comm h s streams, fun peer => ?_⟩
    rw [kept, same peer]
  note := by
    rintro block peer? entry now s _ ⟨streams, rfl, same⟩
    exact ⟨streams, rfl, same⟩
  growBuffer := by
    rintro peer s _ ⟨streams, rfl, same⟩
    refine ⟨_, rfl, fun other => ?_⟩
    simp only [Scheduler.growBuffer, StreamTable.snapshot?_growBuffer, same other]
  sees := by
    rintro s _ ⟨streams, rfl, same⟩ peer
    exact same peer

variable {s t : Scheduler} (now : Timestamp)

/-- The turns come first in a tick, and they reset no buffer. What comes after them reads no
stream. -/
theorem AgreesInView.tick (h : AgreesInView s t) : AgreesButStreams (s.tick now) (t.tick now) := by
  have counted : Respects AgreesInView fun s => { s with ticks := s.ticks + 1 } :=
    overlooksInTurns_agreesInView.comm fun _ _ => rfl
  have turned := counted.comp (overlooksInTurns_agreesInView.turns now) s t h
  have gauged : Respects AgreesButStreams Scheduler.gaugeBusy := by
    rintro s _ ⟨streams, rfl⟩
    exact ⟨streams, rfl⟩
  have purged : Respects AgreesButStreams fun s => s.purgeJournal now := by
    rintro s _ ⟨streams, rfl⟩
    refine ⟨streams, ?_⟩
    dsimp only [purgeJournal]
    split <;> rfl
  have resolved := (((overlooksAtEnds_agreesButStreams.reconcileLimbo now).comp
    (overlooksAtEnds_agreesButStreams.reviveDiscarded now)).comp gauged).comp purged
  exact resolved _ _ turned.agreesButStreams

theorem AgreesInView.apply (h : AgreesInView s t) (operation : Operation) :
    AgreesButStreams (s.apply now operation) (t.apply now operation) := by
  have agree := h.agreesButStreams
  cases operation with
  | download request => exact overlooksAtEnds_agreesButStreams.download now request s t agree
  | cancel blocks => exact overlooksAtEnds_agreesButStreams.cancel now blocks s t agree
  | hear event => exact overlooksAtEnds_agreesButStreams.hear now event s t agree
  | tick => exact h.tick now
  | _ =>
    obtain ⟨streams, rfl⟩ := agree
    exact ⟨_, rfl⟩

/-- Refused buffers go unnoticed. Of the same streams first some and then some other peers refuse to
have their buffers grown or reset, beside those that have no stream. An operation leaves the
scheduler and its outbox the same both times; only the streams may differ. -/
theorem apply_refusing (s : Scheduler) (table : StreamTable) (first second : PeerSet)
    (now : Timestamp) (operation : Operation) :
    let among (refusing : PeerSet) : StreamTable := { table with refusing }
    let outcome (refusing : PeerSet) : Scheduler :=
      { s with streams := among refusing }.apply now operation
    (∀ refusing peer,
      ((∃ error, (among refusing).growBuffer peer = .error error) ↔
        peer ∈ refusing ∨ peer ∉ table.streams) ∧
      ((∃ error, (among refusing).resetBuffer peer = .error error) ↔
        peer ∈ refusing ∨ peer ∉ table.streams)) ∧
    outcome second = { outcome first with streams := (outcome second).streams } := by
  intro among outcome
  constructor
  · intro refusing peer
    exact ⟨(among refusing).exists_request_eq_error_iff peer _,
      (among refusing).exists_request_eq_error_iff peer _⟩
  · have agree :
        AgreesInView { s with streams := among first } { s with streams := among second } :=
      ⟨among second, rfl, fun _ => rfl⟩
    obtain ⟨streams, same⟩ := agree.apply now operation
    have left : (outcome second).streams = streams := congrArg Scheduler.streams same
    rw [left]
    exact same

end Scheduler
end BlockFetch
