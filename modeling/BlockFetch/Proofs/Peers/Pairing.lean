import BlockFetch.Proofs.Peers.Connections

/-!
# Paired signals

A peer is signalled to be taken and to be freed by turns; only when it is cut off does nothing more
follow. The last signal tells whether the peer is at work. This holds of the keep-alives and of the
receive buffers alike, and a run says the same by both.
-/
namespace BlockFetch

namespace Signal

/-- Whether a signal may come directly after another one, or first. -/
def mayFollow (signal : Signal) (previous? : Option Signal) : Prop :=
  match signal with
  | .taken => previous? ≠ some .taken
  | .freed => previous? = some .taken
  | .cut => True

/-- Signals of which each may come directly after the one before it. -/
def Paired (signals : List Signal) : Prop :=
  ∀ early signal late, signals = early ++ signal :: late → signal.mayFollow early.getLast?

variable {past : List Signal} {signal : Signal}

theorem paired_nil : Paired [] :=
  fun _ _ _ whole => absurd whole (by simp)

theorem Paired.concat (h : Paired past) (next : signal.mayFollow past.getLast?) :
    Paired (past ++ [signal]) := by
  intro early other late whole
  obtain rfl | ⟨middle, last, rfl⟩ := late.eq_nil_or_concat'
  · obtain ⟨rfl, same⟩ := List.append_inj' whole rfl
    cases same
    exact next
  · have split : past ++ [signal] = (early ++ other :: middle) ++ [last] := by
      rw [whole, List.append_assoc, List.cons_append]
    exact h early other middle (List.append_inj' split rfl).1

end Signal

/-! ## One step -/

/-- The signals to a peer so far are paired, and they tell whether it is at work. -/
structure Tells (signals : List Signal) (footing? : Option Footing) : Prop where
  paired : Signal.Paired signals
  last : signals.getLast? = some .taken ↔ footing?.map Footing.work = some .transferring

namespace Tells

variable {past signals : List Signal} {before after : Option Footing}

theorem shift (h : Tells past before) (shifts : Shifts before signals after) :
    Tells (past ++ signals) after := by
  induction shifts generalizing past with
  | stays => rwa [List.append_nil]
  | taken =>
    have idle : past.getLast? ≠ some .taken := fun busy => nomatch h.last.mp busy
    exact ⟨h.paired.concat idle, by simp⟩
  | freed ends =>
    have busy : past.getLast? = some .taken := h.last.mpr rfl
    exact ⟨h.paired.concat busy, by simp [ends]⟩
  | trans _ _ head tail =>
    rw [← List.append_assoc]
    exact tail (head h)

theorem cut (h : Tells past before) (idle : after.map Footing.work ≠ some .transferring) :
    Tells (past ++ [.cut]) after :=
  ⟨h.paired.concat trivial, by simp [idle]⟩

theorem keep (h : Tells past before)
    (same : after.map Footing.work = some .transferring ↔
      before.map Footing.work = some .transferring) : Tells past after :=
  ⟨h.paired, h.last.trans same.symm⟩

end Tells

namespace Footing

theorem work_connected (footing? : Option Footing) :
    (connected footing?).work = .transferring ↔ footing?.map work = some .transferring := by
  cases footing? with
  | none => simp [connected]
  | some footing =>
    rw [connected]
    split
    · rename_i gone
      simp [gone.1]
    · simp

theorem work_handshaked (footing? : Option Footing) :
    (handshaked footing?).work = .transferring ↔ footing?.map work = some .transferring := by
  cases footing? with
  | none => simp [handshaked]
  | some footing =>
    rw [handshaked]
    split <;> simp

theorem work_disconnected (footing : Footing) : footing.disconnected.work ≠ .transferring := by
  rw [disconnected]
  split <;> exact Work.noConfusion

end Footing

namespace Step

def effects (step : Step) : List Effect :=
  step.after.outbox.drop step.before.outbox.length

/-- What a step signals about a peer, as seen by one kind of signals; a peer is cut off before
anything follows from it. -/
def signals (step : Step) (view : Effect → Option Signal) (peer : PeerAddress) : List Signal :=
  (if step.operation.cuts peer then [.cut] else []) ++ step.effects.filterMap view

variable {step : Step} {effects : List Effect}

theorem effects_eq (outbox : step.after.outbox = step.before.outbox ++ effects) :
    step.effects = effects := by
  rw [Step.effects, outbox, List.drop_left]

theorem signals_of_silent {peer : PeerAddress} (view : Effect → Option Signal)
    (outbox : step.after.outbox = step.before.outbox) :
    step.signals view peer = if step.operation.cuts peer then [.cut] else [] := by
  rw [signals, effects_eq (outbox.trans (List.append_nil _).symm), List.filterMap_nil,
    List.append_nil]

end Step

namespace Scheduler

variable {s : Scheduler} {past : List Signal} {peer : PeerAddress}

/-- Every step goes on as the signals so far tell it to, and says the same in both ways. -/
theorem tells_apply (staged : s.Staged) (h : Tells past (s.footingAt? peer)) (now : Timestamp)
    (operation : Operation) :
    let step : Step := ⟨s, now, operation⟩
    step.signals (Effect.buffer? peer) peer = step.signals (Effect.keepAlive? peer) peer ∧
      Tells (past ++ step.signals (Effect.keepAlive? peer) peer)
        ((s.apply now operation).footingAt? peer) := by
  intro step
  have quiet : (s.apply now operation).outbox = s.outbox →
      step.signals (Effect.buffer? peer) peer = step.signals (Effect.keepAlive? peer) peer ∧
        step.signals (Effect.keepAlive? peer) peer =
          if operation.cuts peer then [.cut] else [] := by
    intro outbox
    exact ⟨(step.signals_of_silent _ outbox).trans (step.signals_of_silent _ outbox).symm,
      step.signals_of_silent _ outbox⟩
  cases treats_apply staged now operation peer with
  | engages _ _ uncut engages =>
    obtain ⟨effects, signals, outbox, keepAlives, buffers, shifts⟩ :=
      engages.shifts staged.linked
    have asked : step.effects = effects := Step.effects_eq outbox
    have whole : ∀ view, step.signals view peer = effects.filterMap view := by
      intro view
      rw [Step.signals, asked, uncut]
      rfl
    rw [whole, whole, keepAlives, buffers]
    exact ⟨rfl, h.shift shifts⟩
  | connected connects outbox footing =>
    obtain ⟨same, none⟩ := quiet outbox
    refine ⟨same, ?_⟩
    rw [none, Operation.cuts_of_connects connects, footing]
    exact (List.append_nil past).symm ▸ h.keep (by simp [Footing.work_connected])
  | handshaked greets outbox footing =>
    obtain ⟨same, none⟩ := quiet outbox
    refine ⟨same, ?_⟩
    rw [none, Operation.cuts_of_greets greets, footing]
    exact (List.append_nil past).symm ▸ h.keep (by simp [Footing.work_handshaked])
  | disconnected disconnects outbox footing =>
    obtain ⟨same, cut⟩ := quiet outbox
    refine ⟨same, ?_⟩
    rw [cut, Operation.cuts_of_disconnects disconnects, footing]
    exact h.cut (by simp [Footing.work_disconnected])
  | forgotten ends outbox footing =>
    obtain ⟨same, cut⟩ := quiet outbox
    refine ⟨same, ?_⟩
    rw [cut, Operation.cuts_of_endsSession ends, footing]
    exact h.cut (by simp)

/-! ## Whole runs -/

/-- What a run signals about a peer, as seen by one kind of signals. -/
def signals (s : Scheduler) (history : List (Timestamp × Operation))
    (view : Effect → Option Signal) (peer : PeerAddress) : List Signal :=
  (s.steps history).flatMap fun step => step.signals view peer

theorem signals_concat (s : Scheduler) (history : List (Timestamp × Operation))
    (timed : Timestamp × Operation) (view : Effect → Option Signal) (peer : PeerAddress) :
    s.signals (history ++ [timed]) view peer =
      s.signals history view peer ++
        Step.signals ⟨s.run history, timed.1, timed.2⟩ view peer := by
  rw [signals, steps_concat, List.flatMap_append, List.flatMap_singleton, signals]

theorem Reachable.tells_run (reachable : s.Reachable) (h : Tells [] (s.footingAt? peer))
    (history : List (Timestamp × Operation)) :
    s.signals history (Effect.buffer? peer) peer =
        s.signals history (Effect.keepAlive? peer) peer ∧
      Tells (s.signals history (Effect.keepAlive? peer) peer)
        ((s.run history).footingAt? peer) := by
  induction history using List.reverseRecOn with
  | nil => exact ⟨rfl, h⟩
  | append_singleton past timed ih =>
    obtain ⟨same, tells⟩ := ih
    obtain ⟨sameStep, tellsStep⟩ :=
      tells_apply (reachable.run past).staged tells timed.1 timed.2
    rw [signals_concat, signals_concat, run_concat, same, sameStep]
    exact ⟨rfl, tellsStep⟩

/-- In every run from usable settings and for every peer, the keep-alives of the peer are paired: it
is never taken twice without being freed or cut off in between, it is freed only directly after it
was taken, and it is at work exactly if the last signal took it. The receive buffer of the peer
grows and is reset in the same order. -/
theorem signals_paired {settings : Settings} {streams : StreamTable}
    (usable : create settings streams = .ok s) (history : List (Timestamp × Operation))
    (peer : PeerAddress) :
    let keepAlives := s.signals history (Effect.keepAlive? peer) peer
    Signal.Paired keepAlives ∧
      ((∃ record, (s.run history).peers[peer]? = some record ∧
        record.work = .transferring) ↔ keepAlives.getLast? = some .taken) ∧
      s.signals history (Effect.buffer? peer) peer = keepAlives := by
  intro keepAlives
  have unknown : s.footingAt? peer = none := by
    rw [eq_initial_of_create usable]
    exact congrArg (Option.map _) Std.ExtTreeMap.getElem?_empty
  have start : Tells [] (s.footingAt? peer) := by
    rw [unknown]
    exact ⟨Signal.paired_nil, by simp⟩
  obtain ⟨same, paired, last⟩ := (Reachable.created usable).tells_run start history
  refine ⟨paired, ?_, same⟩
  rw [last, footingAt?, Option.map_map, Option.map_eq_some_iff]
  rfl

/-- A peer does not find a block, leaves, comes back and is asked again. -/
def comeback : List (Timestamp × Operation) :=
  [(⟨0⟩, .hear (.peerHandshaked soleSender)), (⟨1⟩, .download (.plain [.zero])), (⟨2⟩, .tick),
    (⟨3⟩, .hear (.blocksNotFound soleSender [.zero])),
    (⟨4⟩, .hear (.peerDisconnected soleSender "")),
    (⟨5⟩, .hear (.peerHandshaked soleSender)), (⟨4_000⟩, .tick)]

set_option maxRecDepth 100000 in
theorem signals_paired_comeback :
    let s := initial .brisk .empty
    create .brisk .empty = .ok s ∧
      s.signals comeback (Effect.keepAlive? soleSender) soleSender =
        [.taken, .freed, .cut, .taken] ∧
      Signal.Paired [.taken, .freed, .cut, .taken] ∧
      s.signals comeback (Effect.buffer? soleSender) soleSender =
        [.taken, .freed, .cut, .taken] := by
  intro s
  have usable : create .brisk .empty = .ok s := rfl
  have told : s.signals comeback (Effect.keepAlive? soleSender) soleSender =
      [.taken, .freed, .cut, .taken] := by
    decide +kernel
  have paired := signals_paired usable comeback soleSender
  dsimp only at paired
  rw [told] at paired
  exact ⟨usable, told, paired.1, paired.2.2⟩

end Scheduler
end BlockFetch
