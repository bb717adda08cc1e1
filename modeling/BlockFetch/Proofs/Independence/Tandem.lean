import Mathlib.Data.List.Sort
import BlockFetch.Proofs.Dossier
import BlockFetch.Proofs.Lifecycle.SmallSteps
import BlockFetch.Proofs.Waiting.Order

/-!
# Steps in tandem

A step about some blocks looks only at their dossiers and at the peers that hold them. In two states
that agree there it does the same, whatever else the states are like, and what else there is stays
as it was.
-/
namespace BlockFetch

/-- A change of the order of the waiting blocks. -/
inductive Edit where
  | take (block : BlockHash)
  | push (block : BlockHash)

namespace Edit

def block : Edit → BlockHash
  | take block | push block => block

def isPush : Edit → Bool
  | take _ => false
  | push _ => true

def perform (queue : List BlockHash) : Edit → List BlockHash
  | take block => queue.erase block
  | push block => Backlog.pushFront block queue

/-- Edits that can be swapped: they move different blocks, and at most one of them pushes. -/
def Free (first second : Edit) : Prop :=
  first.block ≠ second.block ∧ (first.isPush = true → second.isPush = false)

theorem Free.perform_comm {first second : Edit} (free : first.Free second)
    (queue : List BlockHash) :
    second.perform (first.perform queue) = first.perform (second.perform queue) := by
  obtain ⟨different, single⟩ := free
  cases first with
  | take block =>
    cases second with
    | take other => exact List.erase_comm block other
    | push other => exact Backlog.pushFront_erase different.symm queue
  | push block =>
    cases second with
    | take other => exact (Backlog.pushFront_erase different queue).symm
    | push other => exact nomatch single rfl

theorem foldl_perform_comm {first : Edit} {edits : List Edit}
    (free : ∀ edit ∈ edits, first.Free edit) (queue : List BlockHash) :
    edits.foldl perform (first.perform queue) = first.perform (edits.foldl perform queue) := by
  induction edits generalizing queue with
  | nil => rfl
  | cons edit rest ih =>
    rw [List.foldl_cons, List.foldl_cons, (free edit List.mem_cons_self).perform_comm]
    exact ih (fun edit member => free edit (List.mem_cons_of_mem _ member)) _

theorem foldl_perform_swap {early late : List Edit}
    (free : ∀ first ∈ early, ∀ second ∈ late, first.Free second) (queue : List BlockHash) :
    late.foldl perform (early.foldl perform queue) =
      early.foldl perform (late.foldl perform queue) := by
  induction early generalizing queue with
  | nil => rfl
  | cons first rest ih =>
    rw [List.foldl_cons, List.foldl_cons, ← foldl_perform_comm (free first List.mem_cons_self)]
    exact ih (fun first member => free first (List.mem_cons_of_mem _ member)) _

end Edit

/-- What a step does that belongs to no block and no peer alone. -/
structure Deeds where
  edits : List Edit
  retries : Nat
  effects : List Effect

namespace Deeds

def none : Deeds := ⟨[], 0, []⟩

def followedBy (first second : Deeds) : Deeds :=
  ⟨first.edits ++ second.edits, first.retries + second.retries, first.effects ++ second.effects⟩

/-- The edits move no other blocks, and push a block only where that is allowed. -/
def Within (deeds : Deeds) (pushes : Bool) (blocks : List BlockHash) : Prop :=
  ∀ edit ∈ deeds.edits, edit.block ∈ blocks ∧ (edit.isPush = true → pushes = true)

theorem within_of_edits_eq_nil {deeds : Deeds} {pushes : Bool} {blocks : List BlockHash}
    (h : deeds.edits = []) : deeds.Within pushes blocks := by
  intro edit member
  rw [h] at member
  contradiction

theorem within_take {block : BlockHash} {pushes : Bool} {blocks : List BlockHash}
    (member : block ∈ blocks) : (Deeds.mk [.take block] 0 []).Within pushes blocks := by
  intro edit listed
  rw [List.mem_singleton.mp listed]
  exact ⟨member, nofun⟩

/-- What is done about different blocks can be swapped, if only one side may push. -/
theorem Within.free {early late : Deeds} {pushes pushesToo : Bool} {blocks others : List BlockHash}
    (within : early.Within pushes blocks) (withinOthers : late.Within pushesToo others)
    (apart : blocks.Disjoint others) (single : pushes = true → pushesToo = false) :
    ∀ edit ∈ early.edits, ∀ other ∈ late.edits, edit.Free other := by
  intro edit inEarly other inLate
  obtain ⟨listed, allowed⟩ := within edit inEarly
  obtain ⟨listedOther, allowedOther⟩ := withinOthers other inLate
  refine ⟨fun same => apart listed (same ▸ listedOther), fun push => ?_⟩
  rw [Bool.eq_false_iff]
  intro pushOther
  have both := allowedOther pushOther
  rw [single (allowed push)] at both
  contradiction

end Deeds

/-- What no delivery, cancellation or answer of a peer changes. -/
structure Background where
  settings : Settings
  refusing : PeerSet
  recording : Bool
  retention : Duration
  clientPaused : Bool
  enoughPeers : Bool
  busyPercentage : Nat
  bandwidthRestricted : Bool
  refusals : PeerMap (List (BlockHash × Refusal))
  ticks : UInt64

namespace Scheduler

def background (s : Scheduler) : Background where
  settings := s.settings
  refusing := s.streams.refusing
  recording := s.journal.enabled
  retention := s.journal.retention
  clientPaused := s.clientPaused
  enoughPeers := s.enoughPeers
  busyPercentage := s.busyPercentage
  bandwidthRestricted := s.bandwidthRestricted
  refusals := s.refusals
  ticks := s.ticks

/-- The record and the stream of a peer. -/
def station (s : Scheduler) (peer : PeerAddress) : Option Peer × Option Stream :=
  (s.peers[peer]?, s.streams.streams[peer]?)

/-- Two states that differ at most in the outbox: they have the same dossiers, stations, background
and retries, and the blocks wait in the same order. -/
theorem drained_eq_drained {s t : Scheduler} (background : t.background = s.background)
    (dossiers : ∀ block, t.dossier block = s.dossier block)
    (stations : ∀ peer, t.station peer = s.station peer)
    (queue : t.backlog.queue = s.backlog.queue) (retries : t.retries = s.retries) :
    t.drained = s.drained := by
  simp only [Scheduler.background, Background.mk.injEq] at background
  obtain ⟨settings, refusing, recording, retention, clientPaused, enoughPeers, busyPercentage,
    bandwidthRestricted, refusals, ticks⟩ := background
  have peers : t.peers = s.peers :=
    Std.ExtTreeMap.ext_getElem? fun peer => congrArg Prod.fst (stations peer)
  have streams : t.streams.streams = s.streams.streams :=
    Std.ExtTreeMap.ext_getElem? fun peer => congrArg Prod.snd (stations peer)
  exact eq_of_dossier_eq settings (StreamTable.ext streams refusing) peers queue dossiers recording
    retention clientPaused enoughPeers retries busyPercentage bandwidthRestricted refusals ticks rfl

/-- Two states agree on blocks and on peers, and the blocks are held by none but these peers. -/
structure Alike (blocks : List BlockHash) (peers : Set PeerAddress) (s t : Scheduler) : Prop where
  background : t.background = s.background
  dossiers : ∀ block ∈ blocks, t.dossier block = s.dossier block
  stations : ∀ peer ∈ peers, t.station peer = s.station peer
  strangers : ∀ peer, peer ∉ peers → ∀ block ∈ blocks,
    s.blockAt? peer ≠ some block ∧ t.blockAt? peer ≠ some block

/-- A step concerns nothing but some blocks and peers, apart from its deeds. -/
structure Reacts (blocks : List BlockHash) (peers : Set PeerAddress) (deeds : Deeds)
    (s t : Scheduler) : Prop where
  background : t.background = s.background
  dossiers : ∀ block, block ∉ blocks → t.dossier block = s.dossier block
  stations : ∀ peer, peer ∉ peers → t.station peer = s.station peer
  /-- No peer is given a block. -/
  held : ∀ peer block, t.blockAt? peer = some block → s.blockAt? peer = some block
  queue : t.backlog.queue = deeds.edits.foldl Edit.perform s.backlog.queue
  retries : t.retries = s.retries + deeds.retries
  outbox : t.outbox = s.outbox ++ deeds.effects

/-- From two states that agree, two steps do the same and lead to states that agree. -/
structure Tandem (pushes : Bool) (blocks : List BlockHash) (peers : Set PeerAddress)
    (s t s' t' : Scheduler) : Prop where
  alike : Alike blocks peers s' t'
  reacts : ∃ deeds : Deeds, deeds.Within pushes blocks ∧ Reacts blocks peers deeds s s' ∧
    Reacts blocks peers deeds t t'

variable {pushes : Bool} {blocks : List BlockHash} {peers : Set PeerAddress}
  {s t s' t' s'' t'' : Scheduler} {block : BlockHash} {peer : PeerAddress} {deeds : Deeds}

/-! ## Chains of steps -/

theorem Reacts.refl (s : Scheduler) : Reacts blocks peers .none s s where
  background := rfl
  dossiers _ _ := rfl
  stations _ _ := rfl
  held _ _ holds := holds
  queue := rfl
  retries := rfl
  outbox := (List.append_nil _).symm

theorem Reacts.trans {later : Deeds} (head : Reacts blocks peers deeds s s')
    (tail : Reacts blocks peers later s' s'') :
    Reacts blocks peers (deeds.followedBy later) s s'' where
  background := tail.background.trans head.background
  dossiers block other := (tail.dossiers block other).trans (head.dossiers block other)
  stations peer other := (tail.stations peer other).trans (head.stations peer other)
  held peer block holds := head.held peer block (tail.held peer block holds)
  queue := by rw [tail.queue, head.queue, Deeds.followedBy, List.foldl_append]
  retries := by rw [tail.retries, head.retries, Deeds.followedBy, Nat.add_assoc]
  outbox := by rw [tail.outbox, head.outbox, Deeds.followedBy, List.append_assoc]

theorem Tandem.refl (alike : Alike blocks peers s t) : Tandem pushes blocks peers s t s t where
  alike := alike
  reacts := ⟨.none, Deeds.within_of_edits_eq_nil rfl, .refl s, .refl t⟩

theorem Tandem.andThen (head : Tandem pushes blocks peers s t s' t')
    (next : Alike blocks peers s' t' → Tandem pushes blocks peers s' t' s'' t'') :
    Tandem pushes blocks peers s t s'' t'' where
  alike := (next head.alike).alike
  reacts := by
    obtain ⟨early, earlyWithin, left, right⟩ := head.reacts
    obtain ⟨late, lateWithin, leftAfter, rightAfter⟩ := (next head.alike).reacts
    refine ⟨early.followedBy late, ?_, left.trans leftAfter, right.trans rightAfter⟩
    intro edit member
    rcases List.mem_append.mp member with inEarly | inLate
    · exact earlyWithin edit inEarly
    · exact lateWithin edit inLate

theorem Tandem.foldl {α : Type} {step : Scheduler → α → Scheduler} {items : List α}
    (h : ∀ item ∈ items, ∀ s t, Alike blocks peers s t →
      Tandem pushes blocks peers s t (step s item) (step t item))
    (alike : Alike blocks peers s t) :
    Tandem pushes blocks peers s t (items.foldl step s) (items.foldl step t) := by
  induction items generalizing s t with
  | nil => exact .refl alike
  | cons item rest ih =>
    exact (h item List.mem_cons_self s t alike).andThen
      (ih fun item member => h item (List.mem_cons_of_mem _ member))

/-- Two steps that do the same are in tandem when they leave the blocks and peers alike. -/
theorem Tandem.intro (alike : Alike blocks peers s t) (within : deeds.Within pushes blocks)
    (left : Reacts blocks peers deeds s s') (right : Reacts blocks peers deeds t t')
    (dossiers : ∀ block ∈ blocks, t'.dossier block = s'.dossier block)
    (stations : ∀ peer ∈ peers, t'.station peer = s'.station peer) :
    Tandem pushes blocks peers s t s' t' where
  alike := {
    background := by rw [right.background, alike.background, left.background]
    dossiers := dossiers
    stations := stations
    strangers := fun peer stranger block member =>
      have idle := alike.strangers peer stranger block member
      ⟨fun holds => idle.1 (left.held peer block holds),
        fun holds => idle.2 (right.held peer block holds)⟩ }
  reacts := ⟨deeds, within, left, right⟩

theorem Tandem.ite {c d : Prop} [Decidable c] [Decidable d] (same : d ↔ c)
    (yes : c → Tandem pushes blocks peers s t s' t')
    (no : ¬ c → Tandem pushes blocks peers s t s'' t'') :
    Tandem pushes blocks peers s t (if c then s' else s'') (if d then t' else t'') := by
  by_cases holds : c
  · rw [if_pos holds, if_pos (same.mpr holds)]
    exact yes holds
  · rw [if_neg holds, if_neg (mt same.mp holds)]
    exact no holds

/-! ## What states that agree have in common -/

namespace Alike

variable (h : Alike blocks peers s t)

include h

theorem settings : t.settings = s.settings :=
  congrArg Background.settings h.background

theorem refusing : t.streams.refusing = s.streams.refusing :=
  congrArg Background.refusing h.background

theorem recording : t.journal.enabled = s.journal.enabled :=
  congrArg Background.recording h.background

theorem mem_of_blockAt? (member : block ∈ blocks) (holds : s.blockAt? peer = some block) :
    peer ∈ peers := by
  by_contra stranger
  exact (h.strangers peer stranger block member).1 holds

theorem blockAt?_iff (member : block ∈ blocks) :
    t.blockAt? peer = some block ↔ s.blockAt? peer = some block := by
  by_cases known : peer ∈ peers
  · have same : t.peers[peer]? = s.peers[peer]? := congrArg Prod.fst (h.stations peer known)
    rw [blockAt?, blockAt?, same]
  · have idle := h.strangers peer known block member
    exact iff_of_false idle.2 idle.1

end Alike

/-- A peer that holds no block or another one has no transfer of a block. -/
theorem transferOf?_eq_none (idle : s.blockAt? peer ≠ some block) :
    s.transferOf? peer block = none := by
  rw [transferOf?, Option.filter_eq_none_iff]
  intro transfer found sends
  rw [blockAt?] at idle
  refine idle ?_
  obtain ⟨record, known, sending⟩ := Option.bind_eq_some_iff.mp found
  rw [known, Option.bind_some, Peer.block?, sending, Option.map_some, of_decide_eq_true sends]

theorem pairwise_holders (s : Scheduler) (block : BlockHash) :
    (s.holders block).Pairwise fun first second => compare first second = .lt := by
  rw [holders, List.pairwise_map]
  exact Std.ExtTreeMap.ordered_keys_toList.filter _

theorem holders_congr
    (same : ∀ peer, t.blockAt? peer = some block ↔ s.blockAt? peer = some block) :
    t.holders block = s.holders block := by
  have irreflexive : Std.Irrefl fun first second : PeerAddress => compare first second = .lt :=
    ⟨fun peer => by simp⟩
  have asymmetric : Std.Antisymm fun first second : PeerAddress => compare first second = .lt :=
    ⟨fun first second less more => by
      rw [Std.OrientedCmp.gt_of_lt less] at more
      contradiction⟩
  refine (pairwise_holders t block).eq_of_mem_iff (pairwise_holders s block) fun peer => ?_
  rw [mem_holders, mem_holders, same]

namespace Alike

variable (h : Alike blocks peers s t) (member : block ∈ blocks)

include h member

theorem holders : t.holders block = s.holders block :=
  holders_congr fun _ => h.blockAt?_iff member

theorem isInFlight : t.isInFlight block = s.isInFlight block := by
  have limbo : t.limbo.contains block = s.limbo.contains block :=
    congrArg Dossier.inLimbo (h.dossiers block member)
  have held : t.isHeld block = s.isHeld block := by
    rw [Bool.eq_iff_iff, isHeld_iff, isHeld_iff]
    simp only [h.blockAt?_iff member]
  rw [Scheduler.isInFlight, Scheduler.isInFlight, limbo, held]

theorem isUnwanted : t.isUnwanted block = s.isUnwanted block := by
  rw [isUnwanted_eq_dossier, isUnwanted_eq_dossier, h.dossiers block member]

theorem attemptsOn : t.backlog.attemptsOn block = s.backlog.attemptsOn block := by
  rw [attemptsOn_eq_dossier, attemptsOn_eq_dossier, h.dossiers block member]

theorem cancelling : t.cancelling.contains block = s.cancelling.contains block :=
  congrArg Dossier.cancelling (h.dossiers block member)

theorem mem_of_mem_holders (holder : peer ∈ s.holders block) : peer ∈ peers :=
  h.mem_of_blockAt? member (mem_holders.mp holder)

theorem mem_of_transferOf? {transfer : Transfer}
    (sends : s.transferOf? peer block = some transfer) : peer ∈ peers := by
  refine h.mem_of_blockAt? member ?_
  by_contra idle
  rw [transferOf?_eq_none idle] at sends
  contradiction

theorem transferOf? (peer : PeerAddress) : t.transferOf? peer block = s.transferOf? peer block := by
  by_cases known : peer ∈ peers
  · have same : t.peers[peer]? = s.peers[peer]? := congrArg Prod.fst (h.stations peer known)
    rw [Scheduler.transferOf?, Scheduler.transferOf?, same]
  · have idle := h.strangers peer known block member
    rw [transferOf?_eq_none idle.1, transferOf?_eq_none idle.2]

end Alike

/-! ## Single changes -/

/-- What there is in a state beside the dossiers of the blocks. -/
structure Frame where
  background : Background
  peers : PeerMap Peer
  streams : StreamTable
  queue : List BlockHash
  retries : Nat
  outbox : List Effect

def frame (s : Scheduler) : Frame where
  background := s.background
  peers := s.peers
  streams := s.streams
  queue := s.backlog.queue
  retries := s.retries
  outbox := s.outbox

def Frame.edited (frame : Frame) (edits : List Edit) (retries : Nat) : Frame :=
  { frame with queue := edits.foldl Edit.perform frame.queue, retries := frame.retries + retries }

section

variable {edits : List Edit} {retries : Nat} (h : t.frame = s.frame.edited edits retries)

include h

theorem station_of_frame (peer : PeerAddress) : t.station peer = s.station peer := by
  have peers : t.peers = s.peers := congrArg Frame.peers h
  have streams : t.streams = s.streams := congrArg Frame.streams h
  rw [station, station, peers, streams]

/-- A revision of a dossier, with edits of the queue. -/
theorem reacts_of_frame (member : block ∈ blocks) {revision : Dossier → Dossier}
    (revises : Revises block revision s t) : Reacts blocks peers ⟨edits, retries, []⟩ s t where
  background := congrArg Frame.background h
  dossiers _ outside := revises.of_ne fun same => outside (same ▸ member)
  stations peer _ := station_of_frame h peer
  held peer _ holds := (blockAt?_congr (congrArg Frame.peers h) peer).symm.trans holds
  queue := congrArg Frame.queue h
  retries := congrArg Frame.retries h
  outbox := (congrArg Frame.outbox h).trans (List.append_nil _).symm

end

theorem frame_note (s : Scheduler) (block : BlockHash) (peer? : Option PeerAddress) (note : Note)
    (now : Timestamp) : (s.note block peer? note now).frame = s.frame := by
  unfold Scheduler.note Journal.register
  split <;> rfl

theorem station_modifyPeer (s : Scheduler) (peer other : PeerAddress) (change : Peer → Peer) :
    (s.modifyPeer peer change).station other =
      if peer = other then ((s.station other).1.map change, (s.station other).2)
      else s.station other := by
  simp only [station, modifyPeer, Std.ExtTreeMap.getElem?_modify,
    Std.LawfulEqCmp.compare_eq_iff_eq]
  split
  · rename_i same
    rw [same]
  · rfl

theorem station_resetBuffer (s : Scheduler) (peer other : PeerAddress) :
    (s.resetBuffer peer).station other =
      if peer = other ∧ s.streams.refusing.contains peer = false then
        ((s.station other).1, (s.station other).2.map fun _ => .opened)
      else s.station other := by
  unfold resetBuffer StreamTable.resetBuffer StreamTable.request
  cases refusing : s.streams.refusing.contains peer with
  | true => simp [station]
  | false =>
    by_cases known : peer ∈ s.streams.streams
    · by_cases same : peer = other
      · subst same
        simp [station, known, StreamTable.modify]
      · simp [station, known, same, StreamTable.modify, Std.ExtTreeMap.getElem?_modify]
    · by_cases same : peer = other
      · subst same
        simp [station, known]
      · simp [station, known, same]

variable (alike : Alike blocks peers s t)

include alike

/-- The same revision of a dossier, with the same edits of the queue. -/
theorem tandem_of_revises (member : block ∈ blocks) {edits : List Edit} {retries : Nat}
    {revision : Dossier → Dossier} (within : (Deeds.mk edits retries []).Within pushes blocks)
    (left : Revises block revision s s') (right : Revises block revision t t')
    (leftFrame : s'.frame = s.frame.edited edits retries)
    (rightFrame : t'.frame = t.frame.edited edits retries) :
    Tandem pushes blocks peers s t s' t' := by
  refine .intro alike within (reacts_of_frame leftFrame member left)
    (reacts_of_frame rightFrame member right) ?_ ?_
  · intro other known
    rw [left other, right other, alike.dossiers other known]
  · intro peer known
    rw [station_of_frame leftFrame, station_of_frame rightFrame, alike.stations peer known]

theorem tandem_of_tables (member : block ∈ blocks) {revision : Dossier → Dossier}
    (left : Revises block revision s s') (right : Revises block revision t t')
    (leftFrame : s'.frame = s.frame) (rightFrame : t'.frame = t.frame) :
    Tandem pushes blocks peers s t s' t' := by
  have leftEdited : s'.frame = s.frame.edited [] 0 := leftFrame
  have rightEdited : t'.frame = t.frame.edited [] 0 := rightFrame
  exact tandem_of_revises alike member (Deeds.within_of_edits_eq_nil rfl) left right leftEdited
    rightEdited

theorem tandem_publish (event : NetworkEvent) :
    Tandem pushes blocks peers s t (s.publish event) (t.publish event) := by
  have reacts : ∀ s : Scheduler,
      Reacts blocks peers ⟨[], 0, [.publish event]⟩ s (s.publish event) := fun s =>
    ⟨rfl, fun _ _ => rfl, fun _ _ => rfl, fun _ _ holds => holds, rfl, rfl, rfl⟩
  exact .intro alike (Deeds.within_of_edits_eq_nil rfl) (reacts s) (reacts t) alike.dossiers
    alike.stations

/-- A change of a record that gives the peer no block. -/
theorem tandem_modifyPeer (member : peer ∈ peers) {change : Peer → Peer}
    (keeps : ∀ record block, (change record).block? = some block → record.block? = some block) :
    Tandem pushes blocks peers s t (s.modifyPeer peer change) (t.modifyPeer peer change) := by
  have reacts : ∀ s : Scheduler, Reacts blocks peers .none s (s.modifyPeer peer change) := by
    intro s
    refine ⟨rfl, fun _ _ => rfl, fun other stranger => ?_, fun other block holds => ?_, rfl, rfl,
      (List.append_nil _).symm⟩
    · have different : peer ≠ other := fun same => stranger (same ▸ member)
      rw [station_modifyPeer, if_neg different]
    · rw [blockAt?_modifyPeer] at holds
      split at holds
      · obtain ⟨record, known, sends⟩ := Option.bind_eq_some_iff.mp holds
        exact Option.bind_eq_some_iff.mpr ⟨record, known, keeps record block sends⟩
      · exact holds
  refine .intro alike (Deeds.within_of_edits_eq_nil rfl) (reacts s) (reacts t) alike.dossiers ?_
  intro other known
  rw [station_modifyPeer, station_modifyPeer, alike.stations other known]

theorem tandem_resetBuffer (member : peer ∈ peers) :
    Tandem pushes blocks peers s t (s.resetBuffer peer) (t.resetBuffer peer) := by
  have unrefused : ∀ s : Scheduler, (s.resetBuffer peer).background = s.background := by
    intro s
    unfold resetBuffer StreamTable.resetBuffer StreamTable.request
    split
    · rfl
    · split <;> rfl
  have reacts : ∀ s : Scheduler,
      Reacts blocks peers ⟨[], 0, [.resetBuffer peer]⟩ s (s.resetBuffer peer) := by
    intro s
    refine ⟨unrefused s, fun _ _ => rfl, fun other stranger => ?_, fun _ _ holds => holds, rfl,
      rfl, rfl⟩
    have different : peer ≠ other := fun same => stranger (same ▸ member)
    rw [station_resetBuffer, if_neg fun both => different both.1]
  refine .intro alike (Deeds.within_of_edits_eq_nil rfl) (reacts s) (reacts t) alike.dossiers ?_
  intro other known
  rw [station_resetBuffer, station_resetBuffer, alike.stations other known, alike.refusing]

end Scheduler
end BlockFetch
