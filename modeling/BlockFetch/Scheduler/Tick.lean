import BlockFetch.Scheduler.Resolution

/-!
# Ticks

At every tick each peer gets a turn, the fastest first: an idle peer is offered a block, and the
transfer of a busy peer is looked at. Then blocks in limbo are resolved, blocks that were put aside
long enough wait again, and from time to time the journal is purged.
-/
namespace BlockFetch.Scheduler

/-! ## Handing out blocks -/

/-- The number of busy peers. -/
def transferCount (s : Scheduler) : Nat :=
  (s.peers.toList.filter fun entry => entry.2.isBusy).length

def checkBandwidth (s : Scheduler) : Scheduler :=
  { s with bandwidthRestricted := s.bytesInFlight ≥ s.settings.maxBytes }

/-- Whether one more transfer may start: always when there is none, and else while both the number
of transfers and their bytes are below their limits. -/
def admitsTransfer (s : Scheduler) : Bool :=
  s.transferCount = 0 ||
    (s.transferCount < s.settings.maxTransfers.toNat && s.bytesInFlight < s.settings.maxBytes)

def assign (s : Scheduler) (peer : PeerAddress) (block : BlockHash) (now : Timestamp) :
    Scheduler :=
  let s := { s with backlog := s.backlog.beginAttempt block }
  let attempt := s.backlog.attemptsOn block
  let s := s.modifyPeer peer fun record => record.start block attempt now
  let s := { s with
    lastActivity := s.lastActivity.insert block now
    refusals := s.refusals.erase peer }
  let s := s.publish (.blockRequested peer block)
  let s := (s.publish (.keepAlive peer false)).growBuffer peer
  s.note block (some peer) (.requested attempt) now

def noteRefusals (s : Scheduler) (peer : PeerAddress) (refusals : List (BlockHash × Refusal)) :
    Scheduler :=
  { s with
    refusals := if refusals.isEmpty then s.refusals.erase peer
      else s.refusals.insert peer refusals }

/-- Whether blocks can be handed out now, and if so whether only begun ones: those go on during a
pause, and new ones need room for a transfer. -/
def handOutMode? (s : Scheduler) : Option Bool :=
  if s.isRunning then if s.admitsTransfer then some false else none
  else if s.backlog.hasBegun then some true else none

/-- The scheduler in the middle of a tick, with the peers that the next turns compete with. -/
structure Round where
  scheduler : Scheduler
  pool : Pool

def findBlock (round : Round) (peer : PeerAddress) (now : Timestamp) : Round :=
  let s := round.scheduler
  match s.handOutMode? with
  | none => round
  | some restricted =>
    match s.backlog.handOut ⟨s.eligibility, peer, round.pool, restricted, now⟩ with
    | (.refused refusals, _) => { round with scheduler := s.noteRefusals peer refusals }
    | (.assigned block, backlog) =>
      { scheduler := { s with backlog }.assign peer block now
        pool := ⟨round.pool.available.erase peer, round.pool.busy.insert peer⟩ }

def offerBlock (round : Round) (peer : PeerAddress) (now : Timestamp) : Round :=
  findBlock { round with scheduler := round.scheduler.checkBandwidth } peer now

/-! ## Watching transfers -/

/-- Why a transfer no longer makes progress, if it does not. -/
def stall? (s : Scheduler) (record : Peer) (transfer : Transfer) (now : Timestamp) :
    Option Stall :=
  if transfer.corrupted then some .corrupted
  else if transfer.idleFor now > s.settings.maxIdle then some .idle
  else if transfer.elapsed now > s.settings.maxTransferTime then some .tooLong
  else if record.connection = .disconnected then some .disconnected
  else none

/-- Brings the transfer of a peer up to date with its stream. -/
def observe (s : Scheduler) (peer : PeerAddress) (record : Peer) (block : BlockHash)
    (now : Timestamp) : Peer × Scheduler :=
  match s.streams.snapshot? peer with
  | none => (record, s)
  | some snapshot =>
    let (record, moved) := record.observe snapshot now
    let s := { s with peers := s.peers.insert peer record }
    (record, if moved then { s with lastActivity := s.lastActivity.insert block now } else s)

/-- Looks at the transfer of a busy peer, and puts its block in limbo when it has stalled. A block
that is in limbo already is left alone. -/
def watch (s : Scheduler) (peer : PeerAddress) (record : Peer) (transfer : Transfer)
    (now : Timestamp) : Scheduler :=
  if s.limbo.contains transfer.block then s
  else
    let (record, s) := s.observe peer record transfer.block now
    match record.transfer?.bind fun transfer => s.stall? record transfer now with
    | some stall => s.moveToLimbo peer transfer.block stall now
    | none => s

/-! ## Turns -/

/-- All peers, the fastest first, and of equally fast ones the one with the lower address. -/
def fastestFirst (s : Scheduler) : List PeerAddress :=
  (s.peers.toList.mergeSort fun a b => b.2.speed ≤ a.2.speed).map Prod.fst

def pool (s : Scheduler) : Pool where
  available := .ofList ((s.peers.toList.filter fun entry => entry.2.isAvailable).map Prod.fst)
  busy := .ofList ((s.peers.toList.filter fun entry =>
    entry.2.isHandshaked && entry.2.isBusy).map Prod.fst)

def turn (now : Timestamp) (round : Round) (peer : PeerAddress) : Round :=
  match round.scheduler.peers[peer]? with
  | none => round
  | some record =>
    if record.isAvailable then offerBlock round peer now
    else if record.isBusy then
      match record.transfer? with
      | some transfer =>
        { round with scheduler := round.scheduler.watch peer record transfer now }
      | none => round
    else round

def turns (s : Scheduler) (now : Timestamp) : Scheduler :=
  (s.fastestFirst.foldl (turn now) ⟨s.checkBandwidth, s.pool⟩).scheduler

/-! ## Limbo and discarded blocks -/

/-- Resolves a block in limbo: it is cancelled if the client asked for it, and its attempt has
failed when nothing was heard of it for too long. -/
def reconcile (now : Timestamp) (s : Scheduler) (block : BlockHash) : Scheduler :=
  if !s.backlog.isBegun block then
    { s with limbo := s.limbo.erase block, lastActivity := s.lastActivity.erase block }
  else if s.cancelling.contains block then s.cancelNow block now
  else if now.since ((s.lastActivity[block]?).getD now) > s.settings.limboTimeout then
    s.fail block now
  else s

/-- Resolves the blocks in limbo, in ascending order. -/
def reconcileLimbo (s : Scheduler) (now : Timestamp) : Scheduler :=
  s.limbo.toList.foldl (reconcile now) s

/-- The blocks that were put aside long enough, in ascending order. -/
def expired (s : Scheduler) (now : Timestamp) : List BlockHash :=
  (s.discarded.toList.filter fun entry => now.since entry.2 ≥ s.settings.discardTimeout).map
    Prod.fst

/-- Lets the blocks that were put aside long enough wait again, before all others. -/
def reviveDiscarded (s : Scheduler) (now : Timestamp) : Scheduler :=
  let blocks := s.expired now
  let s := blocks.foldl (fun s block =>
    { s with discarded := s.discarded.erase block }.note block none .revived now) s
  { s with backlog := s.backlog.prepend blocks }

/-! ## The whole tick -/

/-- Raises the share of busy peers to what it is now, if that is more. -/
def gaugeBusy (s : Scheduler) : Scheduler :=
  let handshaked := (s.peers.toList.map Prod.snd).filter Peer.isHandshaked
  let busy := handshaked.filter Peer.isBusy
  { s with busyPercentage := max s.busyPercentage (busy.length * 100 / handshaked.length) }

def purgeJournal (s : Scheduler) (now : Timestamp) : Scheduler :=
  if s.ticks % s.settings.journal.purgeEvery = 0 then
    { s with journal := s.journal.purge now }
  else s

/-- One round of work. The count of rounds wraps around. -/
def tick (s : Scheduler) (now : Timestamp) : Scheduler :=
  let s := { s with ticks := s.ticks + 1 }.turns now
  let s := (s.reconcileLimbo now).reviveDiscarded now
  s.gaugeBusy.purgeJournal now

end BlockFetch.Scheduler
