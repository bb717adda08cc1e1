import BlockFetch.BlockHash
import BlockFetch.PeerAddress

/-!
# Fetch requests

A client asks for blocks in a given order. It may want them before all waiting blocks, once more
although they are there already, from one peer only, or from one peer rather than others.
-/
namespace BlockFetch

/-- A request for blocks. -/
structure FetchRequest where
  blocks : List BlockHash
  /-- Whether the blocks go before all waiting ones. -/
  priority : Bool
  /-- Whether downloaded blocks are fetched again. -/
  force : Bool
  /-- The only peer that may deliver the blocks. -/
  exclusiveTo? : Option PeerAddress
  /-- A peer that gets the blocks before others if it is available. -/
  preferred? : Option PeerAddress
  deriving DecidableEq

def FetchRequest.plain (blocks : List BlockHash) : FetchRequest where
  blocks := blocks
  priority := false
  force := false
  exclusiveTo? := none
  preferred? := none

end BlockFetch
