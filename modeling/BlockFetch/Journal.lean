import BlockFetch.BlockHash
import BlockFetch.PeerAddress
import BlockFetch.Settings

/-!
# The journal of blocks

For each block a list of what happened to it, oldest first, kept for diagnosis. Entries beyond the
retention time are purged, and a block without entries has no place in the journal. A journal that
is switched off records nothing.
-/
namespace BlockFetch

/-- Why a transfer no longer makes progress. -/
inductive Stall where
  | corrupted
  | idle
  | tooLong
  | disconnected
  deriving DecidableEq, Repr

def Stall.text : Stall → String
  | .corrupted => "stream corrupted"
  | .idle => "idle timeout"
  | .tooLong => "download timeout"
  | .disconnected => "peer disconnected"

def discardReason (attempts : Nat) : String :=
  s!"{attempts} download attempts failed"

/-- Something that happened to a block. -/
inductive Note where
  | queued
  | requested (attempt : Nat)
  | notFound
  | stalled (stall : Stall)
  | queuedAgain
  | discarded (attempts : Nat)
  | revived
  | cancelAsked
  | cancelled
  | downloaded
  | remark (text : String)
  deriving DecidableEq, Repr

def Note.text : Note → String
  | .queued => "download requested"
  | .requested attempt => s!"requested, attempt {attempt}"
  | .notFound => "peer answered not found"
  | .stalled stall => "moved to limbo: " ++ stall.text
  | .queuedAgain => "queued again after failure"
  | .discarded attempts => "discarded: " ++ discardReason attempts
  | .revived => "discard cooldown over, queued again"
  | .cancelAsked => "cancel requested while in flight"
  | .cancelled => "cancelled"
  | .downloaded => "downloaded"
  | .remark text => text

/-- A note with its time and the peer it concerns. -/
structure JournalEntry where
  time : Timestamp
  peer? : Option PeerAddress
  note : Note
  deriving DecidableEq

/-- The entries of all blocks. -/
structure Journal where
  enabled : Bool
  retention : Duration
  /-- The entries of the blocks that have any, oldest first. -/
  entries : BlockMap (List JournalEntry)

namespace Journal

def blank (enabled : Bool) (retention : Duration) : Journal := ⟨enabled, retention, ∅⟩

instance : Inhabited Journal := ⟨blank true 0⟩

/-- The entries of a block, oldest first. -/
def entriesOf (journal : Journal) (block : BlockHash) : List JournalEntry :=
  journal.entries.getD block []

def register (journal : Journal) (block : BlockHash) (peer? : Option PeerAddress) (note : Note)
    (now : Timestamp) : Journal :=
  if journal.enabled then
    { journal with
      entries := journal.entries.insert block (journal.entriesOf block ++ [⟨now, peer?, note⟩]) }
  else journal

/-- A note on a block is the last entry of that block. -/
theorem entriesOf_register_self (journal : Journal) (h : journal.enabled = true)
    (block : BlockHash) (peer? : Option PeerAddress) (note : Note) (now : Timestamp) :
    (journal.register block peer? note now).entriesOf block =
      journal.entriesOf block ++ [⟨now, peer?, note⟩] := by
  rw [register, if_pos h]
  exact Std.ExtTreeMap.getD_insert_self

theorem entriesOf_register_of_ne (journal : Journal) {block other : BlockHash}
    (h : other ≠ block) (peer? : Option PeerAddress) (note : Note) (now : Timestamp) :
    (journal.register block peer? note now).entriesOf other = journal.entriesOf other := by
  unfold register
  split
  · unfold entriesOf
    rw [Std.ExtTreeMap.getD_insert,
      if_neg fun same => h (Std.LawfulEqOrd.eq_of_compare same).symm]
  · rfl

def blockCount (journal : Journal) : Nat :=
  journal.entries.size

def entryCount (journal : Journal) : Nat :=
  journal.entries.toList.foldr (fun entry total => entry.2.length + total) 0

/-- Whether an entry is still within the retention time. -/
def isKept (journal : Journal) (now : Timestamp) (entry : JournalEntry) : Bool :=
  now.since entry.time ≤ journal.retention

/-- A purge on its way through the blocks. -/
structure Purge where
  /-- The number of entries that were dropped so far. -/
  removed : Nat
  entries : BlockMap (List JournalEntry)

/-- Drops the entries of one block that are not kept, and the block if it is left without any. -/
def Purge.visit (kept : JournalEntry → Bool) (purge : Purge)
    (record : BlockHash × List JournalEntry) : Purge where
  removed := purge.removed + (record.2.length - (record.2.filter kept).length)
  entries :=
    if (record.2.filter kept).isEmpty then purge.entries.erase record.1
    else purge.entries.insert record.1 (record.2.filter kept)

/-- Goes through all blocks once and drops the entries beyond the retention time. -/
def sweep (journal : Journal) (now : Timestamp) : Purge :=
  journal.entries.toList.foldl (Purge.visit (journal.isKept now)) ⟨0, journal.entries⟩

def purge (journal : Journal) (now : Timestamp) : Journal :=
  { journal with entries := (journal.sweep now).entries }

/-- The number of entries that a purge drops. -/
def purgeCount (journal : Journal) (now : Timestamp) : Nat :=
  (journal.sweep now).removed

namespace Purge

variable {kept : JournalEntry → Bool} {block : BlockHash} {entries : List JournalEntry}

theorem getElem?_visit (purge : Purge) (record : BlockHash × List JournalEntry) :
    (purge.visit kept record).entries[block]? =
      if record.1 = block then
        if (record.2.filter kept).isEmpty then none else some (record.2.filter kept)
      else purge.entries[block]? := by
  rw [visit]
  by_cases same : record.1 = block
  · split <;> simp [same]
  · split <;> simp [same, Std.ExtTreeMap.getElem?_erase, Std.ExtTreeMap.getElem?_insert]

/-- Blocks that are not visited keep what they have. -/
theorem getElem?_foldl_of_not_mem {records : List (BlockHash × List JournalEntry)}
    (absent : block ∉ records.map Prod.fst) (purge : Purge) :
    (records.foldl (visit kept) purge).entries[block]? = purge.entries[block]? := by
  induction records generalizing purge with
  | nil => rfl
  | cons first rest ih =>
    rw [List.map_cons, List.mem_cons, not_or] at absent
    rw [List.foldl_cons, ih absent.2, getElem?_visit, if_neg (Ne.symm absent.1)]

/-- A block that is visited once keeps what passes. -/
theorem getElem?_foldl_of_mem {records : List (BlockHash × List JournalEntry)}
    (distinct : (records.map Prod.fst).Nodup) (listed : (block, entries) ∈ records)
    (purge : Purge) :
    (records.foldl (visit kept) purge).entries[block]? =
      if (entries.filter kept).isEmpty then none else some (entries.filter kept) := by
  induction records generalizing purge with
  | nil => exact nomatch listed
  | cons first rest ih =>
    rw [List.map_cons, List.nodup_cons] at distinct
    rw [List.foldl_cons]
    rcases List.mem_cons.mp listed with rfl | later
    · rw [getElem?_foldl_of_not_mem distinct.1, getElem?_visit, if_pos rfl]
    · exact ih distinct.2 later _

end Purge

theorem getElem?_purge (journal : Journal) (now : Timestamp) (block : BlockHash) :
    (journal.purge now).entries[block]? =
      (journal.entries[block]?).bind fun entries =>
        if (entries.filter (journal.isKept now)).isEmpty then none
        else some (entries.filter (journal.isKept now)) := by
  have keys : journal.entries.toList.map Prod.fst = journal.entries.keys :=
    Std.ExtTreeMap.map_fst_toList_eq_keys
  cases found : journal.entries[block]? with
  | none =>
    have absent : block ∉ journal.entries.toList.map Prod.fst := by
      rw [keys, Std.ExtTreeMap.mem_keys, Std.ExtTreeMap.mem_iff_isSome_getElem?, found]
      exact Bool.false_ne_true
    exact (Purge.getElem?_foldl_of_not_mem absent _).trans found
  | some entries =>
    have distinct : (journal.entries.toList.map Prod.fst).Nodup := by
      rw [keys]
      exact Std.ExtTreeMap.nodup_keys
    have listed := Std.ExtTreeMap.mem_toList_iff_getElem?_eq_some.mpr found
    exact Purge.getElem?_foldl_of_mem distinct listed _

/-- A purge leaves exactly the entries that are within the retention time, in their order. -/
theorem entriesOf_purge (journal : Journal) (now : Timestamp) (block : BlockHash) :
    (journal.purge now).entriesOf block =
      (journal.entriesOf block).filter (journal.isKept now) := by
  rw [entriesOf, entriesOf, Std.ExtTreeMap.getD_eq_getD_getElem?, getElem?_purge,
    Std.ExtTreeMap.getD_eq_getD_getElem?]
  cases journal.entries[block]? with
  | none => rfl
  | some entries =>
    rw [Option.bind_some, Option.getD_some]
    cases entries.filter (journal.isKept now) <;> rfl

def clear (journal : Journal) (block : BlockHash) : Journal :=
  { journal with entries := journal.entries.erase block }

@[simp] theorem entriesOf_clear_self (journal : Journal) (block : BlockHash) :
    (journal.clear block).entriesOf block = [] :=
  Std.ExtTreeMap.getD_erase_self

end Journal
end BlockFetch
