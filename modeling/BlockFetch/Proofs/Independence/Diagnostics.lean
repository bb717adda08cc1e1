import BlockFetch.Proofs.Independence.Overlooking
import BlockFetch.Proofs.Lifecycle.Places

/-!
# Looking on

The journal with its settings, and the gauge of busy peers, are there for those who look on. No step
of the scheduler reads them but to keep them: two schedulers that differ in nothing else do the same
in every step, and differ in nothing else afterwards. So whoever looks on, by taking reports or by
asking about blocks and peers, does not change what is asked of the surroundings.
-/
namespace BlockFetch

/-- What a scheduler keeps for those who look on. -/
structure Diagnostics where
  settings : JournalSettings
  journal : Journal
  busyPercentage : Nat

namespace Scheduler

def diagnostics (s : Scheduler) : Diagnostics :=
  ⟨s.settings.journal, s.journal, s.busyPercentage⟩

def withDiagnostics (s : Scheduler) (diagnostics : Diagnostics) : Scheduler :=
  { s with
    settings := { s.settings with journal := diagnostics.settings }
    journal := diagnostics.journal
    busyPercentage := diagnostics.busyPercentage }

/-- Two schedulers differ at most in what they keep for those who look on. -/
def Twin (s t : Scheduler) : Prop :=
  ∃ diagnostics, t = s.withDiagnostics diagnostics

namespace Twin

variable {s t u : Scheduler}

theorem refl (s : Scheduler) : Twin s s := ⟨s.diagnostics, rfl⟩

theorem symm (h : Twin s t) : Twin t s := by
  obtain ⟨diagnostics, rfl⟩ := h
  exact ⟨s.diagnostics, rfl⟩

theorem trans (first : Twin s t) (second : Twin t u) : Twin s u := by
  obtain ⟨_, rfl⟩ := first
  obtain ⟨diagnostics, rfl⟩ := second
  exact ⟨diagnostics, rfl⟩

theorem events (h : Twin s t) : t.events = s.events := by
  obtain ⟨_, rfl⟩ := h
  rfl

theorem report (h : Twin s t) :
    { t.report with busyPercentage := 0 } = { s.report with busyPercentage := 0 } := by
  obtain ⟨_, rfl⟩ := h
  rfl

end Twin

/-! ## Steps that do not look at diagnostics -/

/-- A step takes twins to twins. -/
def Blind (step : Scheduler → Scheduler) : Prop :=
  ∀ s t, Twin s t → Twin (step s) (step t)

namespace Blind

variable {step : Scheduler → Scheduler}

theorem of_comm
    (h : ∀ s diagnostics,
      step (s.withDiagnostics diagnostics) = (step s).withDiagnostics diagnostics) :
    Blind step := by
  rintro s t ⟨diagnostics, rfl⟩
  exact ⟨diagnostics, h s diagnostics⟩

theorem of_inert (h : ∀ s, Twin s (step s)) : Blind step :=
  fun s t twins => ((h s).symm.trans twins).trans (h t)

/-- A step that overlooks the streams as well leaves them as they are. -/
theorem of_comm_withBackdrop
    (h : ∀ s backdrop, step (s.withBackdrop backdrop) = (step s).withBackdrop backdrop) :
    Blind step := by
  refine of_comm fun s diagnostics => ?_
  have streams : (step s).streams = s.streams := congrArg Backdrop.streams (backdrop_of_comm h s)
  let backdrop : Backdrop :=
    ⟨s.streams, diagnostics.settings, diagnostics.journal, diagnostics.busyPercentage⟩
  calc
    step (s.withDiagnostics diagnostics) = (step s).withBackdrop backdrop := h s backdrop
    _ = (step s).withDiagnostics diagnostics := by
      simp only [withBackdrop, withDiagnostics, backdrop, ← streams]

end Blind

variable (block : BlockHash) (peer : PeerAddress) (now : Timestamp)

theorem twin_note (s : Scheduler) (peer? : Option PeerAddress) (note : Note) :
    Twin s (s.note block peer? note now) :=
  ⟨⟨s.settings.journal, _, s.busyPercentage⟩, rfl⟩

/-- Where an entry on a download is made or the entries are dropped, only the journal changes. -/
theorem twin_noteDownload (s : Scheduler) : Twin s (s.noteDownload block peer now) := by
  unfold noteDownload
  split
  · exact ⟨⟨s.settings.journal, _, s.busyPercentage⟩, rfl⟩
  · exact twin_note block now s _ _

theorem overlooks_twin : Overlooks Twin where
  differ := by
    rintro s _ ⟨diagnostics, rfl⟩
    exact ⟨⟨s.streams, diagnostics.settings, diagnostics.journal, diagnostics.busyPercentage⟩, rfl⟩
  comm := Blind.of_comm_withBackdrop
  note block peer? entry now := Blind.of_inert fun s => twin_note block now s peer? entry
  growBuffer _ := Blind.of_comm fun _ _ => rfl

theorem overlooksInTurns_twin : OverlooksInTurns Twin where
  toOverlooks := overlooks_twin
  sees := by
    rintro s _ ⟨diagnostics, rfl⟩ peer
    rfl

theorem overlooksAtEnds_twin : OverlooksAtEnds Twin where
  toOverlooks := overlooks_twin
  resetBuffer _ := Blind.of_comm fun _ _ => rfl
  noteDownload block peer now := Blind.of_inert (twin_noteDownload block peer now)

theorem twin_gaugeBusy (s : Scheduler) : Twin s s.gaugeBusy :=
  ⟨⟨s.settings.journal, s.journal, _⟩, rfl⟩

theorem twin_purgeJournal (s : Scheduler) : Twin s (s.purgeJournal now) := by
  unfold purgeJournal
  split
  · exact ⟨⟨s.settings.journal, _, s.busyPercentage⟩, rfl⟩
  · exact .refl s

theorem blind_tick : Blind fun s => s.tick now := by
  have counted : Respects Twin fun s => { s with ticks := s.ticks + 1 } :=
    Blind.of_comm fun _ _ => rfl
  have turned := counted.comp (overlooksInTurns_twin.turns now)
  have resolved := (turned.comp (overlooksAtEnds_twin.reconcileLimbo now)).comp
    (overlooksAtEnds_twin.reviveDiscarded now)
  exact (resolved.comp (Blind.of_inert twin_gaugeBusy)).comp
    (Blind.of_inert (twin_purgeJournal now))

theorem twin_reported (s : Scheduler) : Twin s s.reported :=
  ⟨⟨s.settings.journal, s.journal, 0⟩, rfl⟩

/-- No operation looks at what is kept for those who look on. -/
theorem blind_apply (operation : Operation) : Blind fun s => s.apply now operation := by
  cases operation with
  | download request => exact overlooksAtEnds_twin.download now request
  | cancel blocks => exact overlooksAtEnds_twin.cancel now blocks
  | pause => exact .of_comm fun _ _ => rfl
  | resume => exact .of_comm fun _ _ => rfl
  | report => exact .of_inert twin_reported
  | hear event => exact overlooksAtEnds_twin.hear now event
  | tick => exact blind_tick now
  | transport streams => exact .of_comm fun _ _ => rfl

end Scheduler

/-! ## Whole runs -/

/-- What the owner of a scheduler can do with it. -/
inductive Call where
  | operate (now : Timestamp) (operation : Operation)
  | drain
  | history (block : BlockHash)
  | attempts (block : BlockHash)
  | peer (address : PeerAddress)

inductive Reply where
  | done
  | events (said : List NetworkEvent)
  | report (report : Report)
  | history (entries : List JournalEntry)
  | attempts (count : Nat)
  | peer (record? : Option Peer)

def Reply.events? : Reply → Option (List NetworkEvent)
  | .events said => some said
  | _ => none

def Call.looksOn : Call → Bool
  | .operate _ .report | .history _ | .attempts _ | .peer _ => true
  | _ => false

/-- What is left of a sequence of calls without those that only look on. -/
def Call.deeds (calls : List Call) : List Call :=
  calls.filter fun call => !call.looksOn

namespace Scheduler

def reply (s : Scheduler) : Call → Reply
  | .operate _ .report => .report s.report
  | .operate _ _ => .done
  | .drain => .events s.events
  | .history block => .history (s.journal.entriesOf block)
  | .attempts block => .attempts (s.backlog.attemptsOn block)
  | .peer address => .peer s.peers[address]?

def afterCall (s : Scheduler) : Call → Scheduler
  | .operate now operation => s.apply now operation
  | .drain => s.drained
  | .history _ | .attempts _ | .peer _ => s

def afterCalls (s : Scheduler) (calls : List Call) : Scheduler :=
  calls.foldl afterCall s

def replies (s : Scheduler) : List Call → List Reply
  | [] => []
  | call :: rest => s.reply call :: (s.afterCall call).replies rest

/-- The events that a sequence of calls takes out, drain by drain. -/
def drains (s : Scheduler) (calls : List Call) : List (List NetworkEvent) :=
  (s.replies calls).filterMap Reply.events?

theorem twin_of_looksOn (s : Scheduler) {call : Call} (h : call.looksOn = true) :
    Twin s (s.afterCall call) := by
  cases call with
  | operate now operation => cases operation with
    | report => exact twin_reported s
    | _ => contradiction
  | drain => contradiction
  | _ => exact .refl s

theorem events?_of_looksOn (s : Scheduler) {call : Call} (h : call.looksOn = true) :
    (s.reply call).events? = none := by
  cases call with
  | operate now operation => cases operation with
    | report => rfl
    | _ => contradiction
  | drain => contradiction
  | _ => rfl

theorem blind_afterCall (call : Call) : Blind fun s => s.afterCall call := by
  cases call with
  | operate now operation => exact blind_apply now operation
  | drain => exact .of_comm fun _ _ => rfl
  | _ => exact .of_comm fun _ _ => rfl

theorem Twin.events?_reply {s t : Scheduler} (h : Twin s t) (call : Call) :
    (t.reply call).events? = (s.reply call).events? := by
  cases call with
  | operate now operation => cases operation <;> rfl
  | drain => exact congrArg some h.events
  | _ => rfl

/-- Calls that only look on can be left out: what is drained stays the same, and the scheduler ends
up the same but for what it keeps for those who look on. -/
theorem Twin.deeds {s t : Scheduler} (h : Twin s t) (calls : List Call) :
    Twin (s.afterCalls (Call.deeds calls)) (t.afterCalls calls) ∧
      t.drains calls = s.drains (Call.deeds calls) := by
  induction calls generalizing s t with
  | nil => exact ⟨h, rfl⟩
  | cons call rest ih =>
    cases looks : call.looksOn with
    | true =>
      have skipped : Call.deeds (call :: rest) = Call.deeds rest := by
        simp [Call.deeds, looks]
      have silent : t.drains (call :: rest) = (t.afterCall call).drains rest := by
        rw [drains, replies, List.filterMap_cons, events?_of_looksOn t looks]
        rfl
      rw [skipped, silent]
      exact ih (h.trans (twin_of_looksOn t looks))
    | false =>
      have kept : Call.deeds (call :: rest) = call :: Call.deeds rest := by
        simp [Call.deeds, looks]
      obtain ⟨twins, same⟩ := ih (blind_afterCall call s t h)
      rw [kept]
      refine ⟨twins, ?_⟩
      rw [drains, replies, List.filterMap_cons, h.events?_reply call, drains, replies,
        List.filterMap_cons, ← drains, ← drains, same]

/-- Looking on has no influence. Two schedulers are started with settings that differ at most in
those of the journal, and two sequences of calls differ at most in calls that only look on. Then the
drains give the same events, and after calls up to corresponding points the reports differ at most
in the gauge of busy peers. -/
theorem drains_eq_of_deeds_eq {first second : Settings} {streams : StreamTable} {s t : Scheduler}
    (same : { first with journal := second.journal } = second)
    (begun : create first streams = .ok s) (begunToo : create second streams = .ok t)
    {calls others : List Call} (deeds : Call.deeds calls = Call.deeds others) :
    s.drains calls = t.drains others ∧
      ∀ early earlier, early <+: calls → earlier <+: others →
        Call.deeds early = Call.deeds earlier →
        { (s.afterCalls early).report with busyPercentage := 0 } =
          { (t.afterCalls earlier).report with busyPercentage := 0 } := by
  have fresh : Twin s t := by
    rw [eq_initial_of_create begun, eq_initial_of_create begunToo, ← same]
    exact ⟨⟨second.journal, _, 0⟩, rfl⟩
  constructor
  · rw [((Twin.refl s).deeds calls).2, (fresh.deeds others).2, deeds]
  · intro early earlier _ _ corresponding
    have left := ((Twin.refl s).deeds early).1
    have right := (fresh.deeds earlier).1
    rw [← corresponding] at right
    exact (left.symm.trans right).report.symm

/-- One client looks on while a block is requested and the journal is on; the other does not, and
the journal is off. -/
theorem drains_eq_sending :
    let second := { Settings.brisk with
      journal := { enabled := false, retention := 0, purgeEvery := 1, clearOnSuccess := true } }
    let acts : List Call := [.operate ⟨0⟩ (.hear (.peerHandshaked soleSender)),
      .operate ⟨1⟩ (.download (.plain [.zero])), .operate ⟨2⟩ .tick]
    let looks : List Call := [.operate ⟨3⟩ .report, .history .zero, .attempts .zero]
    create .brisk .empty = .ok (initial .brisk .empty) ∧
      create second .empty = .ok (initial second .empty) ∧
      (initial .brisk .empty).drains (acts ++ looks ++ [.drain]) =
        [[.blockRequested soleSender .zero, .keepAlive soleSender false]] ∧
      (initial second .empty).drains (acts ++ [.drain]) =
        [[.blockRequested soleSender .zero, .keepAlive soleSender false]] := by
  intro second acts looks
  have drained : (initial .brisk .empty).drains (acts ++ looks ++ [.drain]) =
      [[.blockRequested soleSender .zero, .keepAlive soleSender false]] := by decide +kernel
  have begun : create .brisk .empty = .ok (initial .brisk .empty) := rfl
  have begunToo : create second .empty = .ok (initial second .empty) := rfl
  have similar : { Settings.brisk with journal := second.journal } = second := rfl
  have deeds : Call.deeds (acts ++ looks ++ [.drain]) = Call.deeds (acts ++ [.drain]) := rfl
  obtain ⟨same, _⟩ := drains_eq_of_deeds_eq similar begun begunToo deeds
  exact ⟨begun, begunToo, drained, same.symm.trans drained⟩

end Scheduler
end BlockFetch
