import BlockFetch.Scheduler.Notices
import BlockFetch.Scheduler.Report
import BlockFetch.Scheduler.Requests
import BlockFetch.Scheduler.Tick

/-!
# Operations

All that can happen to a scheduler, as data, so that a history is a list of timed operations.
Between operations the transport may change the streams at will.
-/
namespace BlockFetch

/-- Something that happens to a scheduler. -/
inductive Operation where
  | download (request : FetchRequest)
  | cancel (blocks : List BlockHash)
  | pause
  | resume
  | report
  | hear (event : NetworkEvent)
  | tick
  /-- The transport brings the streams into a new state. -/
  | transport (streams : StreamTable)

namespace Scheduler

def apply (s : Scheduler) (now : Timestamp) : Operation → Scheduler
  | .download request => s.download request now
  | .cancel blocks => s.cancel blocks now
  | .pause => s.pause
  | .resume => s.resume
  | .report => s.reported
  | .hear event => s.hear event now
  | .tick => s.tick now
  | .transport streams => { s with streams }

def run (s : Scheduler) (history : List (Timestamp × Operation)) : Scheduler :=
  history.foldl (fun s step => s.apply step.1 step.2) s

end Scheduler
end BlockFetch
