import BlockFetch.Proofs.Scan.Greedy
import Mathlib.Data.Finset.Max

/-!
# The speed of a peer

The first delivery of a peer sets its speed, and every later one is taken in as the sum of two
halves, each rounded down. Two halves of words always fit into a word. Rounding may lose one, but
the losses do not add up: the half of a speed and the half of a delivery that are at worst one below
a bound make at worst one below it again. So a speed stays between the slowest delivery, less one,
and the fastest. Unless a delivery was as fast as the greatest word, it is then never again the speed
of a peer without deliveries.
-/
namespace BlockFetch

/-- A completed transfer: its bytes, and the time that it took. -/
structure Receipt where
  bytes : UInt64
  elapsed : Duration
  deriving DecidableEq

namespace Receipt

def sample (receipt : Receipt) : UInt64 :=
  Peer.deliverySpeed receipt.bytes receipt.elapsed

def IsSlowestOf (receipt : Receipt) (receipts : List Receipt) : Prop :=
  receipt ∈ receipts ∧ ∀ other ∈ receipts, receipt.sample.toNat ≤ other.sample.toNat

def IsFastestOf (receipt : Receipt) (receipts : List Receipt) : Prop :=
  receipt ∈ receipts ∧ ∀ other ∈ receipts, other.sample.toNat ≤ receipt.sample.toNat

theorem toNat_sample (receipt : Receipt) :
    receipt.sample.toNat =
      min (receipt.bytes.toNat * 1000) (2 ^ 64 - 1) / max receipt.elapsed.toNat 1 := by
  rw [sample, Peer.deliverySpeed, UInt64.toNat_div, toNat_saturate, UInt64.toNat_max]
  rfl

end Receipt

namespace Peer

def recordAll (peer : Peer) (receipts : List Receipt) : Peer :=
  receipts.foldl (fun peer receipt => peer.recordSpeed receipt.bytes receipt.elapsed) peer

/-- The halves of two words fit into a word. -/
theorem halves_lt (first second : UInt64) : first.toNat / 2 + second.toNat / 2 < 2 ^ 64 := by
  have small := first.toNat_lt
  have smallToo := second.toNat_lt
  omega

theorem toNat_halves (first second : UInt64) :
    (first / 2 + second / 2).toNat = first.toNat / 2 + second.toNat / 2 := by
  rw [UInt64.toNat_add, UInt64.toNat_div, UInt64.toNat_div]
  exact Nat.mod_eq_of_lt (halves_lt first second)

theorem toNat_speed_recordSpeed (peer : Peer) (receipt : Receipt) :
    (peer.recordSpeed receipt.bytes receipt.elapsed).speed.toNat =
      if peer.speed = unmeasuredSpeed then receipt.sample.toNat
      else peer.speed.toNat / 2 + receipt.sample.toNat / 2 := by
  rw [recordSpeed]
  dsimp only
  split
  · rfl
  · exact toNat_halves ..

/-- Two halves lose no more than one together: the half of an odd bound loses it, and then one
below the bound is even. -/
theorem sub_one_le_halves {low speed sample : Nat} (above : low - 1 ≤ speed)
    (least : low ≤ sample) : low - 1 ≤ speed / 2 + sample / 2 := by
  obtain ⟨half, rfl | rfl⟩ := Nat.even_or_odd' low
  · have fromSpeed : half - 1 ≤ speed / 2 := by omega
    have fromSample : half ≤ sample / 2 := by omega
    omega
  · have fromSpeed : half ≤ speed / 2 := by omega
    have fromSample : half ≤ sample / 2 := by omega
    omega

/-- A speed is at most one below the slowest delivery and not above the fastest. -/
structure Averages (low high : Nat) (speed : UInt64) : Prop where
  above : low - 1 ≤ speed.toNat
  below : speed.toNat ≤ high

variable {peer : Peer} {receipt : Receipt} {receipts : List Receipt} {low high : Nat}

/-- A delivery within the bounds keeps the speed within them, whether it is the first one or not. -/
theorem Averages.recordSpeed (h : peer.speed = unmeasuredSpeed ∨ Averages low high peer.speed)
    (least : low ≤ receipt.sample.toNat) (greatest : receipt.sample.toNat ≤ high) :
    Averages low high (peer.recordSpeed receipt.bytes receipt.elapsed).speed := by
  have speed := peer.toNat_speed_recordSpeed receipt
  split at speed
  · constructor <;> omega
  · rename_i measured
    obtain ⟨above, below⟩ := h.resolve_left measured
    constructor
    · rw [speed]
      exact sub_one_le_halves above least
    · omega

theorem Averages.recordAll (h : Averages low high peer.speed)
    (within : ∀ receipt ∈ receipts, low ≤ receipt.sample.toNat ∧ receipt.sample.toNat ≤ high) :
    Averages low high (peer.recordAll receipts).speed := by
  induction receipts generalizing peer with
  | nil => exact h
  | cons first later ih =>
    obtain ⟨⟨least, greatest⟩, others⟩ := List.forall_mem_cons.mp within
    exact ih (.recordSpeed (.inr h) least greatest) others

/-- After at least one delivery a fresh peer has a speed within the bounds of its deliveries. -/
theorem averages_recordAll_fresh (delivered : receipts ≠ [])
    (within : ∀ receipt ∈ receipts, low ≤ receipt.sample.toNat ∧ receipt.sample.toNat ≤ high) :
    Averages low high (fresh.recordAll receipts).speed := by
  cases receipts with
  | nil => contradiction
  | cons first later =>
    obtain ⟨⟨least, greatest⟩, others⟩ := List.forall_mem_cons.mp within
    have started : Averages low high (fresh.recordSpeed first.bytes first.elapsed).speed :=
      .recordSpeed (.inl rfl) least greatest
    exact started.recordAll others

theorem exists_isSlowestOf (delivered : receipts ≠ []) :
    ∃ slowest : Receipt, slowest.IsSlowestOf receipts := by
  have nonempty : receipts.toFinset.Nonempty := (List.toFinset_nonempty_iff _).mpr delivered
  obtain ⟨slowest, member, least⟩ :=
    receipts.toFinset.exists_min_image (fun receipt => receipt.sample.toNat) nonempty
  exact ⟨slowest, List.mem_toFinset.mp member, fun other listed =>
    least other (List.mem_toFinset.mpr listed)⟩

theorem exists_isFastestOf (delivered : receipts ≠ []) :
    ∃ fastest : Receipt, fastest.IsFastestOf receipts := by
  have nonempty : receipts.toFinset.Nonempty := (List.toFinset_nonempty_iff _).mpr delivered
  obtain ⟨fastest, member, greatest⟩ :=
    receipts.toFinset.exists_max_image (fun receipt => receipt.sample.toNat) nonempty
  exact ⟨fastest, List.mem_toFinset.mp member, fun other listed =>
    greatest other (List.mem_toFinset.mpr listed)⟩

/-- A peer is not visited before one that is faster. -/
theorem not_sublist_of_speedAt?_lt {s : Scheduler} {first second : PeerAddress}
    {speed faster : UInt64} (known : s.speedAt? first = some speed)
    (knownToo : s.speedAt? second = some faster) (slower : speed.toNat < faster.toNat) :
    ¬ [first, second].Sublist s.fastestFirst := by
  intro visited
  obtain ⟨_, _, found, foundToo, order⟩ :=
    List.pairwise_iff_forall_sublist.mp s.pairwise_goesBefore visited
  cases known.symm.trans found
  cases knownToo.symm.trans foundToo
  rcases order with less | ⟨same, _⟩
  · exact Nat.lt_asymm slower (UInt64.lt_iff_toNat_lt.mp less)
  · exact Nat.ne_of_gt slower (congrArg UInt64.toNat same)

/-- No delivery makes the average of a peer overflow. Unless a delivery was as fast as the greatest
word, the speed of a peer that delivered lies between the slowest delivery, less one, and the fastest
one: it counts as measured, and a peer that is faster than its fastest delivery is visited before
it. -/
theorem speed_within_deliveries (receipts : List Receipt) (delivered : receipts ≠ []) :
    let speed := (fresh.recordAll receipts).speed
    (∀ receipt : Receipt, receipt.sample.toNat =
      min (receipt.bytes.toNat * 1000) (2 ^ 64 - 1) / max receipt.elapsed.toNat 1) ∧
    (∀ (earlier later : List Receipt) (receipt : Receipt),
      receipts = earlier ++ receipt :: later →
      let before := (fresh.recordAll earlier).speed
      before.toNat / 2 + receipt.sample.toNat / 2 < 2 ^ 64 ∧
        (fresh.recordAll (earlier ++ [receipt])).speed.toNat =
          if before = unmeasuredSpeed then receipt.sample.toNat
          else before.toNat / 2 + receipt.sample.toNat / 2) ∧
    ((∀ receipt ∈ receipts, receipt.sample.toNat < 2 ^ 64 - 1) →
      ∃ slowest fastest : Receipt,
        slowest.IsSlowestOf receipts ∧ fastest.IsFastestOf receipts ∧
        slowest.sample.toNat - 1 ≤ speed.toNat ∧ speed.toNat ≤ fastest.sample.toNat ∧
        (fresh.recordAll receipts).measuredSpeed? = some speed ∧
        ∀ (s : Scheduler) (peer other : PeerAddress) (faster : UInt64),
          s.speedAt? peer = some speed → s.speedAt? other = some faster →
          fastest.sample.toNat < faster.toNat → ¬ [peer, other].Sublist s.fastestFirst) := by
  intro speed
  refine ⟨Receipt.toNat_sample, fun earlier later receipt _ => ?_, fun below => ?_⟩
  · refine ⟨halves_lt .., ?_⟩
    rw [recordAll, List.foldl_append]
    exact toNat_speed_recordSpeed ..
  obtain ⟨slowest, slow⟩ := exists_isSlowestOf delivered
  obtain ⟨fastest, fast⟩ := exists_isFastestOf delivered
  have average : Averages slowest.sample.toNat fastest.sample.toNat speed :=
    averages_recordAll_fresh delivered fun receipt member =>
      ⟨slow.2 receipt member, fast.2 receipt member⟩
  have measured : speed ≠ unmeasuredSpeed := by
    intro unmeasured
    have sentinel : speed.toNat = 2 ^ 64 - 1 := congrArg UInt64.toNat unmeasured
    have under := below fastest fast.1
    have bound := average.below
    omega
  refine ⟨slowest, fastest, slow, fast, average.above, average.below, if_neg measured, ?_⟩
  intro s peer other faster known knownToo exceeds
  exact not_sublist_of_speedAt?_lt known knownToo (Nat.lt_of_le_of_lt average.below exceeds)

/-- Two equal deliveries of an odd speed: the average is one below. -/
theorem speed_within_deliveries_odd :
    let receipts : List Receipt := [⟨3, 1_000⟩, ⟨3, 1_000⟩]
    receipts ≠ [] ∧ (∀ receipt ∈ receipts, receipt.sample = 3) ∧
      (fresh.recordAll receipts).speed = 2 ∧ (fresh.recordAll receipts).measuredSpeed? = some 2 ∧
      ∃ slowest : Receipt, slowest.IsSlowestOf receipts ∧
        slowest.sample.toNat - 1 ≤ (fresh.recordAll receipts).speed.toNat := by
  intro receipts
  have delivered : receipts ≠ [] := by decide
  have below : ∀ receipt ∈ receipts, receipt.sample.toNat < 2 ^ 64 - 1 := by decide
  have average : (fresh.recordAll receipts).speed = 2 := by decide
  have equal : ∀ receipt ∈ receipts, receipt.sample = 3 := by decide
  obtain ⟨_, _, bounds⟩ := speed_within_deliveries receipts delivered
  obtain ⟨slowest, _, slow, _, above, _, measured, _⟩ := bounds below
  rw [average] at measured
  exact ⟨delivered, equal, average, measured, slowest, slow, above⟩

end Peer
end BlockFetch
