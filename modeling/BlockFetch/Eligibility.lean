import BlockFetch.PeerAddress
import BlockFetch.Settings

/-!
# Which peer may fetch which block

The rules are tried in a fixed order: a peer that failed the block recently is refused; then, when
only begun blocks are handed out, everybody else is accepted; then come reservations, preferred
peers, and the rule of the settings on announcers.
-/
namespace BlockFetch

/-- Why a peer does not get a block. -/
inductive Refusal where
  | recentFailure
  | reservedForOther
  | otherPreferred
  | otherAnnouncer
  | noAnnouncer
  deriving DecidableEq, Repr

/-- Whether a peer gets a block. -/
inductive Verdict where
  | accepted
  | refused (reason : Refusal)
  deriving DecidableEq, Repr

/-- What is known of a block when a peer is considered for it. -/
structure Claims where
  announcers : PeerSet
  /-- The only peer that may fetch the block. -/
  reservedFor? : Option PeerAddress
  preferred : PeerSet
  /-- When the considered peer last failed the block. -/
  lastFailure? : Option Timestamp

/-- The handshaked peers: those that could take a block now, and those that are sending one. -/
structure Pool where
  available : PeerSet
  busy : PeerSet

/-- The rule that decides on peers. -/
structure Eligibility where
  criteria : Criteria
  cooldown : Duration
  deriving DecidableEq, Repr

namespace Eligibility

/-- Whether a set of peers has a member other than the candidate in a second set. -/
def otherIn (candidate : PeerAddress) (peers pool : PeerSet) : Bool :=
  peers.toList.any fun peer => peer ≠ candidate && pool.contains peer

def judgeAnnouncers (fallbacks : AnnouncerFallbacks) (candidate : PeerAddress)
    (announcers : PeerSet) (pool : Pool) : Verdict :=
  if announcers.contains candidate then .accepted
  else if otherIn candidate announcers pool.available then .refused .otherAnnouncer
  else if otherIn candidate announcers pool.busy then
    match fallbacks.ifBusy with
    | .anyone => .accepted
    | .wait => .refused .otherAnnouncer
  else
    match fallbacks.ifNone with
    | .anyone => .accepted
    | .wait => .refused .noAnnouncer

/-- Whether the candidate failed the block so recently that it has to wait. -/
def coolingDown (rule : Eligibility) (claims : Claims) (now : Timestamp) : Bool :=
  claims.lastFailure?.any fun failedAt => now.since failedAt < rule.cooldown

/-- Decides whether a candidate gets a block. In restricted mode only begun blocks are handed
out, and any peer that has not just failed may continue them. -/
def judge (rule : Eligibility) (candidate : PeerAddress) (claims : Claims) (pool : Pool)
    (restricted : Bool) (now : Timestamp) : Verdict :=
  if rule.coolingDown claims now then .refused .recentFailure
  else if restricted then .accepted
  else if claims.reservedFor?.any (· ≠ candidate) then .refused .reservedForOther
  else if !claims.preferred.contains candidate
      && otherIn candidate claims.preferred pool.available then .refused .otherPreferred
  else
    match rule.criteria with
    | .anyPeer => .accepted
    | .announcersOnly fallbacks => judgeAnnouncers fallbacks candidate claims.announcers pool

end Eligibility
end BlockFetch
