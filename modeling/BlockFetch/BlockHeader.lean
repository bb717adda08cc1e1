import BlockFetch.BlockHash

/-!
# Block headers

A header names a block and its parent and says how many transactions the body holds.
-/
namespace BlockFetch

/-- What a peer declares about a block before or with its body. -/
structure BlockHeader where
  hash : BlockHash
  parent : BlockHash
  /-- Seconds since the start of 1970, as the header states them. -/
  time : UInt64
  transactionCount : UInt64
  deriving DecidableEq, Inhabited

def BlockHeader.untimed (hash parent : BlockHash) (transactionCount : UInt64) : BlockHeader :=
  { hash, parent, time := 0, transactionCount }

end BlockFetch
