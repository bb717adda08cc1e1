import BlockFetch.Saturation

/-!
# Times

A time is a number of milliseconds since the start of 1970, and a duration is a number of
milliseconds. Neither the time between two moments nor a moment moved forward leaves the range.
A clock that is set by hand wraps around instead, as a counter does.
-/
namespace BlockFetch

/-- A length of time in milliseconds. -/
abbrev Duration := UInt64

/-- A moment, in milliseconds since the start of 1970. -/
structure Timestamp where
  millis : UInt64
  deriving DecidableEq, Repr, Inhabited

namespace Timestamp

/-- The time that passed from an earlier moment; zero if that moment lies ahead. -/
def since (now earlier : Timestamp) : Duration :=
  gap now.millis earlier.millis

/-- The moment a number of milliseconds later, or the last moment. -/
def plus (moment : Timestamp) (millis : Nat) : Timestamp :=
  ⟨saturate (moment.millis.toNat + millis)⟩

@[simp] theorem toNat_since (now earlier : Timestamp) :
    (now.since earlier).toNat = now.millis.toNat - earlier.millis.toNat :=
  toNat_gap ..

end Timestamp

/-- A clock that moves only when it is told to. -/
structure Clock where
  now : Timestamp
  deriving DecidableEq, Repr, Inhabited

namespace Clock

def startingAt (millis : UInt64) : Clock := ⟨⟨millis⟩⟩

/-- Moves the clock forward by a number of microseconds; what is left of a millisecond is dropped,
and a step longer than the greatest word is cut to it. -/
def advanceMicros (clock : Clock) (micros : Nat) : Clock :=
  ⟨⟨clock.now.millis + saturate (micros / 1000)⟩⟩

def advance (clock : Clock) (millis : Nat) : Clock :=
  clock.advanceMicros (millis * 1000)

end Clock
end BlockFetch
