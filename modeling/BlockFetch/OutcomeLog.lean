import BlockFetch.EventBus

/-!
# The log of outcomes

Downloaded and discarded blocks get a line each in the log; other events get none.
-/
namespace BlockFetch

def NetworkEvent.outcomeLine? : NetworkEvent → Option String
  | blockDownloaded peer header size duration =>
    some s!"Block downloaded: {header.hash.toHex} from {peer.toText}, {size.toNat} bytes in {duration.toNat} ms"
  | blockDiscarded block reason => some s!"Block discarded: {block.toHex}, {reason}"
  | _ => none

namespace OutcomeLog

def listenerName : String := "outcomes"

def topics : EventFilter := ⟨[.outcomes]⟩

def takeLines (bus : EventBus) (name : String) : List String × EventBus :=
  match bus.drain? name with
  | some (events, bus) => (events.filterMap NetworkEvent.outcomeLine?, bus)
  | none => ([], bus)

end OutcomeLog
end BlockFetch
