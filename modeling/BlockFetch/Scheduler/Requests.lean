import BlockFetch.Scheduler.Resolution

/-!
# What clients ask for

Clients queue blocks, cancel blocks, and pause and resume the handing out of new blocks. A block
whose attempt is under way is cancelled when the attempt ends.
-/
namespace BlockFetch.Scheduler

/-- The blocks of a request that are to be fetched: all but those that are there already, unless
the request insists on them. -/
def accepted (s : Scheduler) (request : FetchRequest) : List BlockHash :=
  request.blocks.filter fun block => request.force || !s.downloaded.contains block

/-- Makes blocks forget that they were downloaded, cancelled or discarded. -/
def reopen (s : Scheduler) (blocks : List BlockHash) : Scheduler :=
  { s with
    downloaded := s.downloaded.filter fun block => !blocks.contains block
    cancelled := s.cancelled.filter fun block => !blocks.contains block
    cancelling := s.cancelling.filter fun block => !blocks.contains block
    discarded := s.discarded.filter fun block _ => !blocks.contains block }

/-- Queues the blocks of a request that neither wait already nor are being fetched. -/
def download (s : Scheduler) (request : FetchRequest) (now : Timestamp) : Scheduler :=
  let blocks := s.accepted request
  let added := blocks.filter fun block => !s.isInFlight block && !s.backlog.contains block
  let s := s.reopen blocks
  let s := added.foldl (fun s block => s.note block none .queued now) s
  let backlog := match request.exclusiveTo? with
    | some peer => s.backlog.reserve blocks peer
    | none => s.backlog
  let backlog := match request.preferred? with
    | some peer => backlog.prefer blocks peer
    | none => backlog
  { s with backlog := backlog.add added request.priority }

def cancelBlock (now : Timestamp) (s : Scheduler) (block : BlockHash) : Scheduler :=
  if s.isUnwanted block then s
  else if s.isInFlight block then
    { s with cancelling := s.cancelling.insert block }.note block none .cancelAsked now
  else s.markCancelled block now

def cancel (s : Scheduler) (blocks : List BlockHash) (now : Timestamp) : Scheduler :=
  blocks.foldl (cancelBlock now) s

/-- Stops the handing out of new blocks; attempts under way go on. -/
def pause (s : Scheduler) : Scheduler :=
  { s with clientPaused := true }

def resume (s : Scheduler) : Scheduler :=
  { s with clientPaused := false }

end BlockFetch.Scheduler
