import BlockFetch.Document.Event
import BlockFetch.FetchRequest

/-!
# Documents of fetch requests

A request is a record; the two peers in it may be missing or null.
-/
namespace BlockFetch.FetchRequest

def toDocument (request : FetchRequest) : Document :=
  .record [
    ("hashes", .list (request.blocks.map BlockHash.toDocument)),
    ("priority", .bool request.priority),
    ("force_download", .bool request.force),
    ("exclusive_to_peer", .ofOption PeerAddress.toDocument request.exclusiveTo?),
    ("preferred_peer", .ofOption PeerAddress.toDocument request.preferred?)]

def ofDocument? (document : Document) : Option FetchRequest := do
  let fields ← document.fields?
    ["hashes", "priority", "force_download", "exclusive_to_peer", "preferred_peer"]
  return {
    blocks := ← fields.required? "hashes" (Document.list? BlockHash.ofDocument?)
    priority := ← fields.required? "priority" Document.bool?
    force := ← fields.required? "force_download" Document.bool?
    exclusiveTo? := ← fields.optional? "exclusive_to_peer" PeerAddress.ofDocument?
    preferred? := ← fields.optional? "preferred_peer" PeerAddress.ofDocument? }

end BlockFetch.FetchRequest
