import BlockFetch.Document.Event
import BlockFetch.Document.Request
import BlockFetch.Document.Stream
import BlockFetch.NodeSettings
import BlockFetch.Proofs.Text.Addresses
import BlockFetch.Proofs.Text.Hashes
import BlockFetch.Proofs.Text.Json

/-!
# The documents of messages and settings

A document that was made from a value can be written, and the value is read back from it. Records
are made with all their keys, each once, so a reader finds every entry under its own key.
-/
namespace BlockFetch

/-! ## Records -/

namespace Document

theorem known?_of_sublist {names : List String} {fields : List (String × Document)}
    (keys : (fields.map Prod.fst).Sublist names) (distinct : names.Nodup) :
    known? names fields = some fields := by
  have all : (fields.filter fun field => names.contains field.1) = fields :=
    List.filter_eq_self.mpr fun field member =>
      List.contains_iff_mem.mpr (keys.subset (List.mem_map_of_mem member))
  rw [known?, all]
  exact if_pos (keys.nodup distinct)

theorem known?_of_keys {names : List String} {fields : List (String × Document)}
    (keys : fields.map Prod.fst = names) (distinct : names.Nodup) :
    known? names fields = some fields :=
  known?_of_sublist (keys ▸ .refl _) distinct

theorem fields?_record {names : List String} {fields : List (String × Document)}
    (keys : fields.map Prod.fst = names) (distinct : names.Nodup) :
    fields? names (.record fields) = some fields :=
  known?_of_keys keys distinct

theorem partialFields?_record {names : List String} {fields : List (String × Document)}
    (keys : fields.map Prod.fst = names) (distinct : names.Nodup) :
    partialFields? names (.record fields) = some fields :=
  known?_of_keys keys distinct

namespace Fields

variable {α : Type} {name key : String} {content : Document} {rest : Fields}
  {read : Document → Option α}

theorem required?_cons :
    required? ((key, content) :: rest) name read =
      if name = key then read content else required? rest name read := by
  by_cases same : name = key
  · simp [required?, same]
  · simp [required?, List.lookup_cons, beq_false_of_ne same, same]

theorem optional?_cons :
    optional? ((key, content) :: rest) name read =
      if name = key then content.nullable? read else optional? rest name read := by
  by_cases same : name = key
  · simp [optional?, same]
  · simp [optional?, List.lookup_cons, beq_false_of_ne same, same]

theorem orDefault?_cons {default : α} :
    orDefault? ((key, content) :: rest) name default read =
      if name = key then read content else orDefault? rest name default read := by
  by_cases same : name = key
  · simp [orDefault?, same]
  · simp [orDefault?, List.lookup_cons, beq_false_of_ne same, same]

end Fields
end Document

open Document

variable {levels : Nat}

/-! ## Names -/

namespace BlockHash

theorem ofDocument?_toDocument (hash : BlockHash) : ofDocument? hash.toDocument = some hash := by
  rw [ofDocument?, toDocument, text?, Option.bind_some, ofHex_toHex]
  rfl

@[simp] theorem writable_toDocument (hash : BlockHash) : Writable levels hash.toDocument :=
  .text hash.toHex

theorem list?_toDocument (hashes : List BlockHash) :
    (Document.list (hashes.map toDocument)).list? ofDocument? = some hashes :=
  list?_map fun hash _ => hash.ofDocument?_toDocument

@[simp] theorem writable_list (hashes : List BlockHash) :
    Writable (levels + 1) (.list (hashes.map toDocument)) :=
  writable_list_map writable_toDocument hashes

end BlockHash

namespace PeerAddress

theorem ofDocument?_toDocument (address : PeerAddress) :
    ofDocument? address.toDocument = some address := by
  rw [ofDocument?, toDocument, text?, Option.bind_some, ofText?_toText]

@[simp] theorem writable_toDocument (address : PeerAddress) : Writable levels address.toDocument :=
  .text address.toText

theorem nullable?_toDocument (address? : Option PeerAddress) :
    (ofOption toDocument address?).nullable? ofDocument? = some address? :=
  nullable?_ofOption ofDocument?_toDocument (fun _ => nofun) address?

end PeerAddress

/-! ## Events -/

namespace BlockHeader

theorem ofDocument?_toDocument (header : BlockHeader) :
    ofDocument? header.toDocument = some header := by
  rw [ofDocument?, toDocument, fields?_record (by rfl) (by simp)]
  simp [Fields.required?_cons, BlockHash.ofDocument?_toDocument]

@[simp] theorem writable_toDocument (header : BlockHeader) :
    Writable (levels + 1) header.toDocument := by
  simp [toDocument]

end BlockHeader

namespace Origin

theorem ofDocument?_toDocument (origin : Origin) :
    ofDocument? origin.toDocument = some origin := by
  cases origin <;> rfl

@[simp] theorem writable_toDocument (origin : Origin) : Writable levels origin.toDocument :=
  .text origin.name

end Origin

namespace NetworkEvent

theorem nodup_keysOf (kind : String) : (keysOf kind).Nodup := by
  unfold keysOf
  split <;> simp

/-- The data of an event are read as its kind has them. -/
theorem ofDocument?_tagged {kind : String} {fields : Fields}
    (keys : fields.map Prod.fst = keysOf kind) :
    ofDocument? (tagged kind fields) = ofFields? kind fields := by
  have named : choice? isNull plainByName (.record [(kind, .record fields)]) = none := rfl
  have read : fields? (keysOf kind) (.record fields) = some fields :=
    fields?_record keys (nodup_keysOf kind)
  unfold ofDocument?
  simp only [tagged, named, read, Option.bind_some]

theorem hashesOfDocument?_hashesToDocument (hashes : List BlockHash) :
    hashesOfDocument? (hashesToDocument hashes) = some hashes :=
  BlockHash.list?_toDocument hashes

theorem ofDocument?_toDocument (event : NetworkEvent) :
    ofDocument? event.toDocument = some event := by
  cases event with
  | sessionStarted => rfl
  | sessionStopped => rfl
  | _ =>
    rw [toDocument, ofDocument?_tagged (by rfl), ofFields?]
    simp [Fields.required?_cons, PeerAddress.ofDocument?_toDocument,
      BlockHash.ofDocument?_toDocument, BlockHeader.ofDocument?_toDocument,
      Origin.ofDocument?_toDocument, hashesOfDocument?_hashesToDocument, text?, bool?]

theorem writable_toDocument (event : NetworkEvent) : Writable (levels + 3) event.toDocument := by
  cases event <;> simp [toDocument, tagged, hashesToDocument]

end NetworkEvent

/-! ## Requests and streams -/

namespace FetchRequest

theorem ofDocument?_toDocument (request : FetchRequest) :
    ofDocument? request.toDocument = some request := by
  rw [ofDocument?, toDocument, fields?_record (by rfl) (by simp)]
  simp [Fields.required?_cons, Fields.optional?_cons, BlockHash.list?_toDocument,
    PeerAddress.nullable?_toDocument, bool?]

theorem writable_toDocument (request : FetchRequest) :
    Writable (levels + 2) request.toDocument := by
  simp [toDocument, writable_ofOption]

end FetchRequest

namespace MessageHeader

theorem ofDocument?_toDocument (header : MessageHeader) :
    ofDocument? header.toDocument = some header := by
  rw [ofDocument?, toDocument, fields?_record (by rfl) (by simp)]
  simp [Fields.required?_cons, text?]

@[simp] theorem writable_toDocument (header : MessageHeader) :
    Writable (levels + 1) header.toDocument := by
  simp [toDocument]

end MessageHeader

namespace StreamPhase

theorem ofDocument?_toDocument (phase : StreamPhase) :
    ofDocument? phase.toDocument = some phase := by
  cases phase <;> rfl

@[simp] theorem writable_toDocument (phase : StreamPhase) : Writable levels phase.toDocument :=
  .text phase.name

end StreamPhase

namespace StreamSnapshot

theorem ofDocument?_toDocument (snapshot : StreamSnapshot) :
    ofDocument? snapshot.toDocument = some snapshot := by
  have message := nullable?_ofOption MessageHeader.ofDocument?_toDocument fun _ => nofun
  rw [ofDocument?, toDocument, fields?_record (by rfl) (by simp)]
  simp [Fields.required?_cons, Fields.optional?_cons, message, StreamPhase.ofDocument?_toDocument]

theorem writable_toDocument (snapshot : StreamSnapshot) :
    Writable (levels + 2) snapshot.toDocument := by
  simp [toDocument, writable_ofOption]

end StreamSnapshot

/-! ## Settings -/

namespace Criteria

theorem ofDocument?_toDocument (criteria : Criteria) :
    ofDocument? criteria.toDocument = some criteria := by
  rcases criteria with _ | ⟨_ | _, _ | _⟩ <;> rfl

@[simp] theorem writable_toDocument (criteria : Criteria) :
    Writable (levels + 1) criteria.toDocument := by
  cases criteria <;> simp [toDocument, Fallback.toDocument]

end Criteria

namespace JournalSettings

theorem ofDocument?_toDocument (settings : JournalSettings) :
    ofDocument? settings.toDocument = some settings := by
  rw [ofDocument?, read?, toDocument, partialFields?_record (by rfl) (by simp)]
  simp [Fields.orDefault?_cons, bool?]

@[simp] theorem writable_toDocument (settings : JournalSettings) :
    Writable (levels + 1) settings.toDocument := by
  simp [toDocument]

end JournalSettings

namespace Settings

theorem ofDocument?_toDocument (settings : Settings) :
    ofDocument? settings.toDocument = some settings := by
  have journal : JournalSettings.read? partialFields? settings.journal.toDocument =
      some settings.journal := JournalSettings.ofDocument?_toDocument _
  rw [ofDocument?, read?, toDocument, partialFields?_record (by rfl) (by simp [keys])]
  simp [Fields.orDefault?_cons, Criteria.ofDocument?_toDocument, journal]

@[simp] theorem writable_toDocument (settings : Settings) :
    Writable (levels + 2) settings.toDocument := by
  simp [toDocument]

end Settings

namespace NodeSettings

theorem ofDocument?_toDocument (settings : NodeSettings) :
    ofDocument? settings.toDocument = some settings := by
  have scheduler : Settings.read? partialFields? settings.scheduler.toDocument =
      some settings.scheduler := Settings.ofDocument?_toDocument _
  rw [ofDocument?, read?, toDocument, partialFields?_record (by rfl) (by simp)]
  simp [Fields.orDefault?_cons, text?, BlockHash.list?_toDocument, scheduler]

theorem writable_toDocument (settings : NodeSettings) :
    Writable (levels + 3) settings.toDocument := by
  simp [toDocument]

end NodeSettings
end BlockFetch
