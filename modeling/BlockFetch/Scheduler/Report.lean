import BlockFetch.Scheduler.Basic

/-!
# Reports

A report shows the state of the scheduler to a client. Taking one sets the gauge of busy peers back
to zero and changes nothing else.
-/
namespace BlockFetch

/-- Whether new blocks are handed out. -/
inductive Activity where
  | running
  | paused
  deriving DecidableEq, Repr

/-- The state of the scheduler as a client sees it; blocks and peers are in ascending order where
nothing else is said. -/
structure Report where
  activity : Activity
  clientPaused : Bool
  enoughPeers : Bool
  /-- The waiting blocks, the next one first. -/
  waiting : List BlockHash
  downloaded : List BlockHash
  discarded : List BlockHash
  cancelled : List BlockHash
  cancelling : List BlockHash
  limbo : List BlockHash
  peers : List (PeerAddress × Peer)
  retries : Nat
  busyPercentage : Nat
  bandwidthRestricted : Bool
  bytesInFlight : UInt64
  refusals : List (PeerAddress × List (BlockHash × Refusal))
  deriving DecidableEq

namespace Report

/-- The blocks that peers hold, in the order of the peers. -/
def held (report : Report) : List BlockHash :=
  report.peers.filterMap fun entry => entry.2.block?

end Report

namespace Scheduler

def activity (s : Scheduler) : Activity :=
  if s.isRunning then .running else .paused

def report (s : Scheduler) : Report where
  activity := s.activity
  clientPaused := s.clientPaused
  enoughPeers := s.enoughPeers
  waiting := s.backlog.queue
  downloaded := s.downloaded.toList
  discarded := s.discarded.keys
  cancelled := s.cancelled.toList
  cancelling := s.cancelling.toList
  limbo := s.limbo.toList
  peers := s.peers.toList
  retries := s.retries
  busyPercentage := s.busyPercentage
  bandwidthRestricted := s.bandwidthRestricted
  bytesInFlight := s.bytesInFlight
  refusals := s.refusals.toList

/-- The scheduler after a report was taken. -/
def reported (s : Scheduler) : Scheduler :=
  { s with busyPercentage := 0 }

end Scheduler
end BlockFetch
