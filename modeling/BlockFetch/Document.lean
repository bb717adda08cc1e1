/-!
# Documents

The common data model of messages and configuration files: a document is read from text once, and
typed values are then read from the document. Records keep the order of their entries and may
repeat a key; it is for the reader of a type to refuse that.
-/
namespace BlockFetch

/-- Data as messages and configuration files write it. -/
inductive Document where
  | null
  | bool (value : Bool)
  | integer (value : Int)
  /-- A number that is written with a fraction or an exponent, or is too long for sixty-four
  bits. No type of this library reads one, so only its spelling is kept. -/
  | decimal (literal : String)
  | text (value : String)
  | list (items : List Document)
  | record (fields : List (String × Document))
  /-- Something that is written correctly and yet denotes nothing: a text with half of a surrogate
  pair, a record with such a key, a decimal out of range, or what is nested too deep. It may stand
  where nobody reads it. -/
  | unreadable
  deriving BEq, Repr, Inhabited

namespace Document

/-! ## Plain values -/

def bool? : Document → Option Bool
  | bool value => some value
  | _ => none

def below? (bound : Nat) : Document → Option Nat
  | integer (Int.ofNat value) => if value < bound then some value else none
  | _ => none

def uint64? (document : Document) : Option UInt64 :=
  (document.below? UInt64.size).map Nat.toUInt64

def uint32? (document : Document) : Option UInt32 :=
  (document.below? UInt32.size).map Nat.toUInt32

def text? : Document → Option String
  | text value => some value
  | _ => none

/-- Reads a list, item by item. -/
def list? (read : Document → Option α) : Document → Option (List α)
  | list items => items.mapM read
  | _ => none

def nullable? (read : Document → Option α) : Document → Option (Option α)
  | null => some none
  | document => (read document).map some

def ofOption (write : α → Document) : Option α → Document
  | none => null
  | some value => write value

def ofUInt64 (value : UInt64) : Document := integer value.toNat

def ofUInt32 (value : UInt32) : Document := integer value.toNat

def ofNat (value : Nat) : Document := integer value

@[simp] theorem uint64?_ofUInt64 (value : UInt64) : (ofUInt64 value).uint64? = some value := by
  simp [ofUInt64, uint64?, below?, value.toNat_lt_size]

@[simp] theorem uint32?_ofUInt32 (value : UInt32) : (ofUInt32 value).uint32? = some value := by
  simp [ofUInt32, uint32?, below?, value.toNat_lt_size]

/-- A list is read again if its items are. -/
theorem list?_map {read : Document → Option α} {write : α → Document} {items : List α}
    (h : ∀ item ∈ items, read (write item) = some item) :
    (list (items.map write)).list? read = some items := by
  induction items with
  | nil => rfl
  | cons first rest ih =>
    have readFirst := h first (List.mem_cons_self ..)
    have readRest := ih fun item member => h item (List.mem_cons_of_mem first member)
    simp only [list?, List.map_cons, List.mapM_cons] at readRest ⊢
    rw [readFirst, readRest]
    rfl

/-- A value that may be missing is read again if it is never written as null. -/
theorem nullable?_ofOption {read : Document → Option α} {write : α → Document}
    (h : ∀ value, read (write value) = some value) (distinct : ∀ value, write value ≠ null)
    (value? : Option α) : (ofOption write value?).nullable? read = some value? := by
  cases value? with
  | none => rfl
  | some value =>
    have found := h value
    have notNull := distinct value
    cases written : write value <;> simp_all [ofOption, nullable?]

/-! ## Records -/

/-- The entries of a record that a type knows, each key at most once. -/
abbrev Fields := List (String × Document)

/-- The known entries of a record; a known key may not be repeated. -/
def known? (names : List String) (fields : List (String × Document)) : Option Fields :=
  let found := fields.filter fun field => names.contains field.1
  if (found.map Prod.fst).Nodup then some found else none

/-- Reads a record with the given keys. It may also be written as the list of all its values, in
the order of the keys. -/
def fields? (names : List String) : Document → Option Fields
  | record fields => known? names fields
  | list items => if items.length = names.length then some (names.zip items) else none
  | _ => none

/-- Reads a record whose entries all have default values: as a list it may stop early. -/
def partialFields? (names : List String) : Document → Option Fields
  | record fields => known? names fields
  | list items => if items.length ≤ names.length then some (names.zip items) else none
  | _ => none

/-- Reads a record whose entries all have default values, and of a list as many items as there are
keys: it may stop early, and nobody looks at what comes after the last key. -/
def leadingFields? (names : List String) : Document → Option Fields
  | record fields => known? names fields
  | list items => some (names.zip items)
  | _ => none

namespace Fields

def required? (fields : Fields) (name : String) (read : Document → Option α) : Option α :=
  (fields.lookup name).bind read

/-- Reads an entry that may be missing or null. -/
def optional? (fields : Fields) (name : String) (read : Document → Option α) :
    Option (Option α) :=
  match fields.lookup name with
  | none => some none
  | some document => document.nullable? read

/-- Reads an entry that keeps its default value when it is missing. -/
def orDefault? (fields : Fields) (name : String) (default : α) (read : Document → Option α) :
    Option α :=
  match fields.lookup name with
  | none => some default
  | some document => read document

end Fields

/-! ## Choices -/

/-- Reads one of several names, written as a text or as a record with that single key and no
data. `isEmpty` tells which documents count as no data. -/
def choice? (isEmpty : Document → Bool) (names : List (String × α)) : Document → Option α
  | text name => names.lookup name
  | record [(name, content)] => if isEmpty content then names.lookup name else none
  | _ => none

def isNull : Document → Bool
  | null => true
  | _ => false

/-- Whether a document is null or a record without entries. -/
def isVoid : Document → Bool
  | null => true
  | record [] => true
  | _ => false

mutual

/-- Whether everything in a document can be read. -/
def isReadable : Document → Bool
  | unreadable => false
  | list items => allReadable items
  | record fields => fieldsReadable fields
  | _ => true

def allReadable : List Document → Bool
  | [] => true
  | item :: rest => isReadable item && allReadable rest

def fieldsReadable : List (String × Document) → Bool
  | [] => true
  | (_, content) :: rest => isReadable content && fieldsReadable rest

end

end Document
end BlockFetch
