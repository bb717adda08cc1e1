import BlockFetch.Backlog

/-!
# Deferral between peers

A peer can be refused a block in favour of another available peer: because that peer is preferred,
or because it announced the block. The two rules do not look at each other. When the preferred
peer is not the announcer, each of them waits for the other, and nobody gets the block while both
stay idle. A reservation can leave a block without a taker in the same way. This module says
exactly when a deferral has a beneficiary.
-/
namespace BlockFetch

namespace Eligibility

/-- Whether the rule of the settings lets a peer take a block: every peer may, or the peer
announced the block, or no announcer is available and the fallback that applies lets anyone. -/
def Admits (rule : Eligibility) (claims : Claims) (pool : Pool) (peer : PeerAddress) : Prop :=
  match rule.criteria with
  | .anyPeer => True
  | .announcersOnly fallbacks =>
    peer ∈ claims.announcers ∨
      ((∀ other ∈ claims.announcers, other ∉ pool.available) ∧
        ((∃ other ∈ claims.announcers, other ∈ pool.busy) → fallbacks.ifBusy = .anyone) ∧
        ((∀ other ∈ claims.announcers, other ∉ pool.busy) → fallbacks.ifNone = .anyone))

/-- Whether no reservation of the block stands in the way of a peer. -/
def IsFreeFor (claims : Claims) (peer : PeerAddress) : Prop :=
  ∀ owner, claims.reservedFor? = some owner → owner = peer

/-- Whether no preferred peer goes before a peer. -/
def IsFirst (claims : Claims) (pool : Pool) (peer : PeerAddress) : Prop :=
  peer ∈ claims.preferred ∨ ∀ other ∈ claims.preferred, other ∉ pool.available

theorem otherIn_eq_true_iff {candidate : PeerAddress} {peers pool : PeerSet}
    (outside : candidate ∉ peers) :
    otherIn candidate peers pool = true ↔ ∃ other ∈ peers, other ∈ pool := by
  simp only [otherIn, List.any_eq_true, Std.ExtTreeSet.mem_toList, Bool.and_eq_true,
    decide_eq_true_eq, Std.ExtTreeSet.contains_iff_mem]
  constructor
  · rintro ⟨other, member, _, inPool⟩
    exact ⟨other, member, inPool⟩
  · rintro ⟨other, member, inPool⟩
    exact ⟨other, member, fun same => outside (same ▸ member), inPool⟩

variable {rule : Eligibility} {claims : Claims} {pool : Pool} {now : Timestamp}
  {candidate : PeerAddress}

theorem judgeAnnouncers_eq_accepted_iff {fallbacks : AnnouncerFallbacks}
    (criteria : rule.criteria = .announcersOnly fallbacks) :
    judgeAnnouncers fallbacks candidate claims.announcers pool = .accepted ↔
      rule.Admits claims pool candidate := by
  unfold judgeAnnouncers Admits
  simp only [criteria, Std.ExtTreeSet.contains_iff_mem]
  by_cases announced : candidate ∈ claims.announcers
  · simp [announced]
  rw [if_neg announced, or_iff_right announced]
  by_cases contested : otherIn candidate claims.announcers pool.available = true
  · rw [if_pos contested]
    obtain ⟨other, member, inPool⟩ := (otherIn_eq_true_iff announced).mp contested
    exact ⟨(nomatch ·), fun h => absurd inPool (h.1 other member)⟩
  have uncontested : ∀ other ∈ claims.announcers, other ∉ pool.available :=
    fun other member inPool => contested ((otherIn_eq_true_iff announced).mpr ⟨other, member, inPool⟩)
  rw [if_neg contested]
  by_cases sending : otherIn candidate claims.announcers pool.busy = true
  · have someBusy := (otherIn_eq_true_iff announced).mp sending
    have notIdle : ¬ ∀ other ∈ claims.announcers, other ∉ pool.busy := by
      intro idle
      obtain ⟨other, member, inPool⟩ := someBusy
      exact idle other member inPool
    rw [if_pos sending]
    cases fallbacks.ifBusy with
    | anyone =>
      exact ⟨fun _ => ⟨uncontested, fun _ => rfl, fun idle => absurd idle notIdle⟩, fun _ => rfl⟩
    | wait => exact ⟨(nomatch ·), fun h => nomatch h.2.1 someBusy⟩
  · have idle : ∀ other ∈ claims.announcers, other ∉ pool.busy := fun other member inPool =>
      sending ((otherIn_eq_true_iff announced).mpr ⟨other, member, inPool⟩)
    have noneBusy : ¬ ∃ other ∈ claims.announcers, other ∈ pool.busy := by
      rintro ⟨other, member, inPool⟩
      exact idle other member inPool
    rw [if_neg sending]
    cases fallbacks.ifNone with
    | anyone =>
      exact ⟨fun _ => ⟨uncontested, fun busy => absurd busy noneBusy, fun _ => rfl⟩, fun _ => rfl⟩
    | wait => exact ⟨(nomatch ·), fun h => nomatch h.2.2 idle⟩

theorem reserved_eq_false_iff :
    claims.reservedFor?.any (· ≠ candidate) = false ↔ IsFreeFor claims candidate := by
  cases reserved : claims.reservedFor? with
  | none => simp [IsFreeFor, reserved]
  | some owner => simp [IsFreeFor, reserved]

theorem preceded_eq_false_iff :
    (!claims.preferred.contains candidate
      && otherIn candidate claims.preferred pool.available) = false ↔
      IsFirst claims pool candidate := by
  by_cases preferred : candidate ∈ claims.preferred
  · have member := Std.ExtTreeSet.contains_iff_mem.mpr preferred
    simp [IsFirst, preferred, member]
  · have stranger : claims.preferred.contains candidate = false :=
      Bool.eq_false_iff.mpr fun member => preferred (Std.ExtTreeSet.contains_iff_mem.mp member)
    rw [IsFirst, or_iff_right preferred, stranger, Bool.not_false, Bool.true_and,
      Bool.eq_false_iff, Ne, otherIn_eq_true_iff preferred]
    simp

/-- A peer that is not cooling down gets the block if no reservation, no preferred peer and no
rule on announcers stands in the way. -/
theorem judge_eq_accepted_iff (well : rule.coolingDown claims now = false) :
    rule.judge candidate claims pool false now = .accepted ↔
      IsFreeFor claims candidate ∧ IsFirst claims pool candidate ∧
        rule.Admits claims pool candidate := by
  rw [← reserved_eq_false_iff, ← preceded_eq_false_iff]
  unfold judge
  rw [well]
  cases claims.reservedFor?.any (· ≠ candidate) with
  | true => simp
  | false =>
    cases !claims.preferred.contains candidate
        && otherIn candidate claims.preferred pool.available with
    | true => simp
    | false =>
      cases criteria : rule.criteria with
      | anyPeer => simp [Admits, criteria]
      | announcersOnly fallbacks => simp [judgeAnnouncers_eq_accepted_iff criteria]

theorem coolingDown_eq_false_of_accepted {restricted : Bool}
    (accepted : rule.judge candidate claims pool restricted now = .accepted) :
    rule.coolingDown claims now = false := by
  rw [← Bool.not_eq_true]
  intro cooling
  rw [judge, if_pos cooling] at accepted
  contradiction

/-- Who is refused in favour of an available preferred peer, or of an announcer, is not kept away
by a reservation. -/
theorem isFreeFor_of_judge_eq (h : rule.judge candidate claims pool false now =
      .refused .otherPreferred ∨
    rule.judge candidate claims pool false now = .refused .otherAnnouncer) :
    IsFreeFor claims candidate := by
  rw [← reserved_eq_false_iff]
  unfold judge at h
  cases reserved : claims.reservedFor?.any (· ≠ candidate) with
  | false => rfl
  | true =>
    rw [reserved] at h
    cases cooling : rule.coolingDown claims now <;> simp [cooling] at h

theorem judgeAnnouncers_ne_otherPreferred (fallbacks : AnnouncerFallbacks)
    (candidate : PeerAddress) (announcers : PeerSet) (pool : Pool) :
    judgeAnnouncers fallbacks candidate announcers pool ≠ .refused .otherPreferred := by
  unfold judgeAnnouncers
  split
  · simp
  · split
    · simp
    · split
      · cases fallbacks.ifBusy <;> simp
      · cases fallbacks.ifNone <;> simp

theorem not_isFirst_of_judge_eq
    (h : rule.judge candidate claims pool false now = .refused .otherPreferred) :
    ¬ IsFirst claims pool candidate := by
  rw [← preceded_eq_false_iff]
  intro first
  unfold judge at h
  rw [first] at h
  generalize rule.coolingDown claims now = cooling at h
  generalize claims.reservedFor?.any (· ≠ candidate) = reserved at h
  cases cooling <;> cases reserved <;> simp only [Bool.false_eq_true, if_true, if_false] at h
  · split at h
    · exact nomatch h
    · exact judgeAnnouncers_ne_otherPreferred _ _ _ _ h
  all_goals exact nomatch h

theorem admits_of_mem (announced : candidate ∈ claims.announcers) :
    rule.Admits claims pool candidate := by
  unfold Admits
  cases rule.criteria with
  | anyPeer => trivial
  | announcersOnly => exact Or.inl announced

end Eligibility

namespace Backlog

/-- A peer is refused a block in favour of another one that is available: one that is preferred, or
one that announced the block. -/
def Defers (backlog : Backlog) (inquiry : Inquiry) (block : BlockHash) : Prop :=
  backlog.judge inquiry block = .refused .otherPreferred ∨
    (backlog.judge inquiry block = .refused .otherAnnouncer ∧
      ∃ other ∈ backlog.announcers.getD block ∅,
        other ≠ inquiry.candidate ∧ other ∈ inquiry.pool.available)

variable {backlog : Backlog} {rule : Eligibility} {pool : Pool} {now : Timestamp}
  {candidate : PeerAddress} {block : BlockHash}

/-- A block for which some peer is deferred goes to another available peer exactly if it is
not reserved and, when preferred peers are available, one of them is admitted by the rule of the
settings. -/
theorem exists_accepted_iff_of_defers
    (well : ∀ peer, rule.coolingDown (backlog.claims block peer) now = false)
    (defers : backlog.Defers ⟨rule, candidate, pool, false, now⟩ block) :
    (∃ peer ∈ pool.available,
      backlog.judge ⟨rule, peer, pool, false, now⟩ block = .accepted) ↔
      backlog.reservations[block]? = none ∧
        ((∀ peer ∈ backlog.preferred.getD block ∅, peer ∉ pool.available) ∨
          ∃ peer ∈ backlog.preferred.getD block ∅, peer ∈ pool.available ∧
            rule.Admits (backlog.claims block peer) pool peer) := by
  have accepted : ∀ peer, backlog.judge ⟨rule, peer, pool, false, now⟩ block = .accepted ↔ _ :=
    fun peer => Eligibility.judge_eq_accepted_iff (well peer)
  constructor
  · rintro ⟨peer, inPool, taken⟩
    obtain ⟨free, first, admitted⟩ := (accepted peer).mp taken
    refine ⟨?_, ?_⟩
    · cases reserved : backlog.reservations[block]? with
      | none => rfl
      | some owner =>
        -- The reservation would be for both peers, but only one of them is accepted.
        have kept : Eligibility.IsFreeFor (backlog.claims block candidate) candidate :=
          Eligibility.isFreeFor_of_judge_eq (defers.imp_right And.left)
        have same : peer = candidate := (free owner reserved).symm.trans (kept owner reserved)
        rw [same] at taken
        rcases defers with refused | ⟨refused, _⟩
        · exact nomatch taken.symm.trans refused
        · exact nomatch taken.symm.trans refused
    · rcases first with preferred | none
      · exact Or.inr ⟨peer, preferred, inPool, admitted⟩
      · exact Or.inl none
  · rintro ⟨unreserved, none | ⟨peer, preferred, inPool, admitted⟩⟩
    · rcases defers with refused | ⟨_, other, announced, _, inPool⟩
      · exact absurd (Or.inr none) (Eligibility.not_isFirst_of_judge_eq refused)
      · refine ⟨other, inPool, (accepted other).mpr ⟨?_, Or.inr none, ?_⟩⟩
        · exact fun owner reserved => nomatch unreserved.symm.trans reserved
        · exact Eligibility.admits_of_mem announced
    · refine ⟨peer, inPool, (accepted peer).mpr ⟨?_, Or.inl preferred, admitted⟩⟩
      exact fun owner reserved => nomatch unreserved.symm.trans reserved

/-- A block that one peer announced and that another one is preferred for. -/
def contested (announcer preferred : PeerAddress) : Backlog :=
  ((empty.append [.zero]).noteAnnouncement .zero announcer).prefer [.zero] preferred

theorem coolingDown_contested (rule : Eligibility) (announcer preferred peer : PeerAddress)
    (block : BlockHash) (now : Timestamp) :
    rule.coolingDown ((contested announcer preferred).claims block peer) now = false := by
  have unfailed : ((contested announcer preferred).claims block peer).lastFailure? = none := by
    simp [claims, contested, prefer, noteAnnouncement, append, empty]
  rw [Eligibility.coolingDown, unfailed]
  rfl

theorem exists_accepted_contested :
    let announcer : PeerAddress := .v4 #v[10, 0, 0, 1] 8333
    let preferred : PeerAddress := .v4 #v[10, 0, 0, 2] 8333
    let pool : Pool := ⟨.ofList [announcer, preferred], ∅⟩
    (contested announcer preferred).Defers ⟨⟨.anyPeer, 30_000⟩, announcer, pool, false, ⟨0⟩⟩ .zero ∧
      ∃ peer ∈ pool.available,
        (contested announcer preferred).judge ⟨⟨.anyPeer, 30_000⟩, peer, pool, false, ⟨0⟩⟩ .zero =
          .accepted := by
  intro announcer preferred pool
  have defers : (contested announcer preferred).Defers
      ⟨⟨.anyPeer, 30_000⟩, announcer, pool, false, ⟨0⟩⟩ .zero := Or.inl (by decide +kernel)
  refine ⟨defers, (exists_accepted_iff_of_defers
    (fun peer => coolingDown_contested _ announcer preferred peer .zero ⟨0⟩) defers).mpr ?_⟩
  exact ⟨by decide +kernel, Or.inr ⟨preferred, by decide +kernel, by decide +kernel, trivial⟩⟩

/-- Two peers can wait for each other: the announcer for the preferred peer, and the preferred peer
for the announcer. -/
theorem exists_mutual_deferral :
    ¬ ∀ (backlog : Backlog) (rule : Eligibility) (pool : Pool) (block : BlockHash)
        (candidate : PeerAddress) (now : Timestamp),
      (∀ peer, rule.coolingDown (backlog.claims block peer) now = false) →
      candidate ∈ pool.available →
      backlog.Defers ⟨rule, candidate, pool, false, now⟩ block →
      ∃ peer ∈ pool.available,
        backlog.judge ⟨rule, peer, pool, false, now⟩ block = .accepted := by
  intro everyone
  let announcer : PeerAddress := .v4 #v[10, 0, 0, 1] 8333
  let preferred : PeerAddress := .v4 #v[10, 0, 0, 2] 8333
  let rule : Eligibility := ⟨.announcersOnly ⟨.wait, .wait⟩, 30_000⟩
  let pool : Pool := ⟨.ofList [announcer, preferred], ∅⟩
  have someone := everyone (contested announcer preferred) rule pool .zero announcer ⟨0⟩
    (fun peer => coolingDown_contested rule announcer preferred peer .zero ⟨0⟩)
    (by decide +kernel) (Or.inl (by decide +kernel))
  obtain ⟨peer, inPool, accepted⟩ := someone
  have nobody : ∀ peer ∈ pool.available.toList,
      (contested announcer preferred).judge ⟨rule, peer, pool, false, ⟨0⟩⟩ .zero ≠ .accepted := by
    decide +kernel
  exact nobody peer (Std.ExtTreeSet.mem_toList.mpr inPool) accepted

end Backlog
end BlockFetch
