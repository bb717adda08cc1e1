/-!
# Words that do not overflow

Sums and products of sixty-four bit words stop at the greatest word, differences stop at zero.
-/
namespace BlockFetch

def maxWord : UInt64 := 0xFFFFFFFFFFFFFFFF

/-- The word nearest to a natural number. -/
def saturate (n : Nat) : UInt64 :=
  if n < UInt64.size then n.toUInt64 else maxWord

/-- A difference that stops at zero. -/
def gap (later earlier : UInt64) : UInt64 :=
  if earlier ≤ later then later - earlier else 0

@[simp] theorem toNat_saturate (n : Nat) : (saturate n).toNat = min n (UInt64.size - 1) := by
  unfold saturate
  split
  · simp only [Nat.toUInt64, UInt64.toNat_ofNat', UInt64.size] at *
    omega
  · simp only [maxWord, UInt64.size, UInt64.reduceToNat] at *
    omega

@[simp] theorem toNat_gap (later earlier : UInt64) :
    (gap later earlier).toNat = later.toNat - earlier.toNat := by
  unfold gap
  split
  · rename_i h
    rw [UInt64.toNat_sub_of_le _ _ h]
  · rename_i h
    have : later.toNat < earlier.toNat := by
      simpa [UInt64.le_iff_toNat_le] using h
    simp
    omega

end BlockFetch
