import BlockFetch.Document
import BlockFetch.StreamTable

/-!
# Documents of streams

The view of a stream is a record; the message it is receiving may be missing or null.
-/
namespace BlockFetch

namespace MessageHeader

def toDocument (header : MessageHeader) : Document :=
  .record [("command", .text header.command), ("length", .ofUInt64 header.length)]

def ofDocument? (document : Document) : Option MessageHeader := do
  let fields ← document.fields? ["command", "length"]
  return {
    command := ← fields.required? "command" Document.text?
    length := ← fields.required? "length" Document.uint64? }

end MessageHeader

namespace StreamPhase

def name : StreamPhase → String
  | seekingBody => "SeekingBody"
  | readingBody => "DeserializingBody"
  | corrupted => "Corrupted"

def byName : List (String × StreamPhase) :=
  [seekingBody, readingBody, corrupted].map fun phase => (phase.name, phase)

def toDocument (phase : StreamPhase) : Document := .text phase.name

def ofDocument? : Document → Option StreamPhase :=
  Document.choice? Document.isNull byName

end StreamPhase

namespace StreamSnapshot

def toDocument (snapshot : StreamSnapshot) : Document :=
  .record [
    ("current_message", .ofOption MessageHeader.toDocument snapshot.message?),
    ("bytes_received", .ofUInt64 snapshot.bytesReceived),
    ("state", snapshot.phase.toDocument)]

def ofDocument? (document : Document) : Option StreamSnapshot := do
  let fields ← document.fields? ["current_message", "bytes_received", "state"]
  return {
    message? := ← fields.optional? "current_message" MessageHeader.ofDocument?
    bytesReceived := ← fields.required? "bytes_received" Document.uint64?
    phase := ← fields.required? "state" StreamPhase.ofDocument? }

end StreamSnapshot
end BlockFetch
