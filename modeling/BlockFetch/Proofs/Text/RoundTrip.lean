import BlockFetch.Proofs.Text.Documents

/-!
# Messages and settings survive their JSON text

Events, requests, streams and settings are sent and stored as JSON text. A text is decoded in two
steps, first to a document and then to a value, and encoding takes the same steps back. Both
directions are put together here: encoding loses nothing, and what was decoded from a foreign text,
with its own blanks, escapes and order of keys, is the same after it was encoded once more.
-/
namespace BlockFetch

open Document

/-- What is taken of a text format: a document is read back from its text, as long as its numbers
have the width of a word and not too much is nested in it. -/
structure TextFormat (write : Document → String) (read? : String → Option Document)
    (levels : Nat) : Prop where
  restores : ∀ document, Writable levels document → read? (write document) = some document

theorem Document.textFormat_json : TextFormat toJson ofJson? Json.maxLevels :=
  ⟨fun _ => ofJson?_toJson⟩

structure Codec (α : Type) where
  write : α → Document
  read? : Document → Option α

namespace Codec

variable {α : Type} {codec : Codec α}

def encode (codec : Codec α) (value : α) : String := (codec.write value).toJson

def decode? (codec : Codec α) (text : String) : Option α := (ofJson? text).bind codec.read?

structure RoundTrips (codec : Codec α) : Prop where
  restored : ∀ value, codec.decode? (codec.encode value) = some value
  stable : ∀ text value, codec.decode? text = some value →
    codec.decode? (codec.encode value) = some value

/-- The text gives back the document, and the document gives back the value. -/
theorem roundTrips_of (writable : ∀ value, Writable Json.maxLevels (codec.write value))
    (reads : ∀ value, codec.read? (codec.write value) = some value) : codec.RoundTrips := by
  have restored : ∀ value, codec.decode? (codec.encode value) = some value := fun value => by
    rw [decode?, encode, textFormat_json.restores _ (writable value), Option.bind_some, reads]
  exact ⟨restored, fun _ value _ => restored value⟩

end Codec

def NetworkEvent.codec : Codec NetworkEvent := ⟨toDocument, ofDocument?⟩

def FetchRequest.codec : Codec FetchRequest := ⟨toDocument, ofDocument?⟩

def StreamSnapshot.codec : Codec StreamSnapshot := ⟨toDocument, ofDocument?⟩

def Settings.codec : Codec Settings := ⟨toDocument, ofDocument?⟩

def NodeSettings.codec : Codec NodeSettings := ⟨toDocument, ofDocument?⟩

/-- Events of every kind, requests, streams and the settings of the scheduler and of the node come
back from their text as they were. -/
theorem json_round_trips :
    NetworkEvent.codec.RoundTrips ∧ FetchRequest.codec.RoundTrips ∧
      StreamSnapshot.codec.RoundTrips ∧ Settings.codec.RoundTrips ∧
      NodeSettings.codec.RoundTrips :=
  ⟨Codec.roundTrips_of NetworkEvent.writable_toDocument NetworkEvent.ofDocument?_toDocument,
    Codec.roundTrips_of FetchRequest.writable_toDocument FetchRequest.ofDocument?_toDocument,
    Codec.roundTrips_of StreamSnapshot.writable_toDocument StreamSnapshot.ofDocument?_toDocument,
    Codec.roundTrips_of Settings.writable_toDocument Settings.ofDocument?_toDocument,
    Codec.roundTrips_of NodeSettings.writable_toDocument NodeSettings.ofDocument?_toDocument⟩

/-- Keys in another order, blanks and an escape are read, and a peer that is not named is none. -/
example : FetchRequest.codec.decode?
    " \x7b\"force_download\":false, \"priority\":false, \"hash\\u0065s\":[]\x7d" =
      some (FetchRequest.plain []) := by
  decide +kernel

end BlockFetch
