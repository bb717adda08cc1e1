import Mathlib
import BlockFetch.Journal

/-!
# What a journal retains

Entries leave a journal when their block is cleared or when a purge finds them too old. The times of
purges and entries need not be in order: an entry whose time lies ahead of a purge has no age, and
an entry that is exactly as old as the retention time stays. So what a journal holds in the end is
told by the list of everything that was done with it, without a look at the tables in between.
-/
namespace BlockFetch.Journal

/-- Something that is done with a journal. -/
inductive Edit where
  | register (block : BlockHash) (entry : JournalEntry)
  | purge (now : Timestamp)
  | clear (block : BlockHash)

def edit (journal : Journal) : Edit → Journal
  | .register block entry => journal.register block entry.peer? entry.note entry.time
  | .purge now => journal.purge now
  | .clear block => journal.clear block

def after (journal : Journal) (edits : List Edit) : Journal :=
  edits.foldl edit journal

/-- Whether more than the retention time has passed since an entry. -/
def isOutdated (retention : Duration) (now : Timestamp) (entry : JournalEntry) : Bool :=
  retention.toNat < now.millis.toNat - entry.time.millis.toNat

namespace Edit

def entered? : Edit → Option (BlockHash × JournalEntry)
  | register block entry => some (block, entry)
  | _ => none

/-- Whether an entry that was made before is taken out. -/
def removes (retention : Duration) (record : BlockHash × JournalEntry) : Edit → Bool
  | register .. => false
  | purge now => isOutdated retention now record.2
  | clear block => record.1 = block

end Edit

/-- The entries that are made and not taken out later, with their blocks, in the order in which they
are made. -/
def remaining (retention : Duration) : List Edit → List (BlockHash × JournalEntry)
  | [] => []
  | edit :: later =>
    (edit.entered?.filter fun record => !later.any (Edit.removes retention record)).toList ++
      remaining retention later

def entriesIn (records : List (BlockHash × JournalEntry)) (block : BlockHash) :
    List JournalEntry :=
  (records.filter fun record => record.1 = block).map Prod.snd

/-- A journal holds these entries, and has no place for a block without any. -/
structure Keeps (journal : Journal) (records : List (BlockHash × JournalEntry)) : Prop where
  entries : ∀ block, journal.entriesOf block = entriesIn records block
  occupied : ∀ block ∈ journal.entries, journal.entriesOf block ≠ []

variable {journal other : Journal} {records : List (BlockHash × JournalEntry)}
  {retention : Duration} {block : BlockHash} {now : Timestamp}

/-! ## What one edit takes out and enters -/

/-- The last edit takes out what it removes of what was there, and its own entry comes last. -/
theorem remaining_concat (past : List Edit) (edit : Edit) :
    remaining retention (past ++ [edit]) =
      ((remaining retention past).filter fun record => !edit.removes retention record) ++
        edit.entered?.toList := by
  induction past with
  | nil => cases edit <;> rfl
  | cons first later ih =>
    rw [List.cons_append, remaining, remaining, ih, List.filter_append, ← List.append_assoc]
    congr 2
    cases first.entered? with
    | none => rfl
    | some record =>
      cases gone : later.any (Edit.removes retention record) <;>
        cases removed : edit.removes retention record <;> simp [Option.filter, gone, removed]

theorem entriesIn_append (first second : List (BlockHash × JournalEntry)) (block : BlockHash) :
    entriesIn (first ++ second) block = entriesIn first block ++ entriesIn second block := by
  rw [entriesIn, List.filter_append, List.map_append]
  rfl

/-- To filter the entries of all blocks by a test on entries is to filter those of each block. -/
theorem entriesIn_filter_snd (test : JournalEntry → Bool) (block : BlockHash) :
    entriesIn (records.filter fun record => test record.2) block =
      (entriesIn records block).filter test := by
  rw [entriesIn, entriesIn, List.filter_map, List.filter_filter, List.filter_filter]
  congr 1
  exact List.filter_congr fun record _ => Bool.and_comm ..

theorem entriesIn_filter_ne (block : BlockHash) {kept : BlockHash} (h : kept ≠ block) :
    entriesIn (records.filter fun record => record.1 ≠ block) kept = entriesIn records kept := by
  rw [entriesIn, entriesIn, List.filter_filter]
  congr 1
  refine List.filter_congr fun record _ => ?_
  by_cases same : record.1 = kept
  · simp [same, h]
  · simp [same]

theorem entriesIn_filter_ne_self (block : BlockHash) :
    entriesIn (records.filter fun record => record.1 ≠ block) block = [] := by
  rw [entriesIn, List.filter_filter, List.map_eq_nil_iff, List.filter_eq_nil_iff]
  intro record _
  simp

/-- As many entries belong to a block as are listed under its name. -/
theorem length_entriesIn (records : List (BlockHash × JournalEntry)) (block : BlockHash) :
    (entriesIn records block).length = (records.map Prod.fst).count block := by
  rw [entriesIn, List.length_map, List.count, List.countP_map, List.countP_eq_length_filter]
  congr 2

/-! ## Purges -/

theorem isKept_eq (journal : Journal) (now : Timestamp) (entry : JournalEntry) :
    journal.isKept now entry = !isOutdated journal.retention now entry := by
  rw [isKept, isOutdated, Bool.eq_iff_iff]
  simp only [decide_eq_true_eq, Bool.not_eq_true', decide_eq_false_iff_not, UInt64.le_iff_toNat_le,
    Timestamp.toNat_since]
  omega

/-- What is not too old was not too old before. -/
theorem isOutdated_of_le {earlier : Timestamp} (order : earlier.millis ≤ now.millis)
    {entry : JournalEntry} (h : isOutdated retention now entry = false) :
    isOutdated retention earlier entry = false := by
  rw [UInt64.le_iff_toNat_le] at order
  simp only [isOutdated, decide_eq_false_iff_not] at h ⊢
  omega

/-! ## What every edit keeps -/

theorem enabled_edit (journal : Journal) (edit : Edit) :
    (journal.edit edit).enabled = journal.enabled := by
  cases edit with
  | register =>
    rw [Journal.edit, register]
    split <;> rfl
  | purge => rfl
  | clear => rfl

theorem retention_edit (journal : Journal) (edit : Edit) :
    (journal.edit edit).retention = journal.retention := by
  cases edit with
  | register =>
    rw [Journal.edit, register]
    split <;> rfl
  | purge => rfl
  | clear => rfl

theorem entriesOf_of_getElem?_eq_some {entries : List JournalEntry}
    (found : journal.entries[block]? = some entries) : journal.entriesOf block = entries := by
  rw [entriesOf, Std.ExtTreeMap.getD_eq_getD_getElem?, found, Option.getD_some]

theorem entriesOf_of_not_mem (h : block ∉ journal.entries) : journal.entriesOf block = [] :=
  Std.ExtTreeMap.getD_eq_fallback h

theorem entriesOf_clear_of_ne (journal : Journal) {kept : BlockHash} (h : kept ≠ block) :
    (journal.clear block).entriesOf kept = journal.entriesOf kept := by
  unfold clear entriesOf
  rw [Std.ExtTreeMap.getD_erase, if_neg fun same => h (Std.LawfulEqOrd.eq_of_compare same).symm]

theorem keeps_blank (enabled : Bool) (retention : Duration) :
    (blank enabled retention).Keeps [] where
  entries _ := rfl
  occupied _ member := nomatch Std.ExtTreeMap.not_mem_empty member

namespace Keeps

theorem register (h : journal.Keeps records) (enabled : journal.enabled = true)
    (block : BlockHash) (entry : JournalEntry) :
    (journal.edit (.register block entry)).Keeps (records ++ [(block, entry)]) := by
  have own : (journal.edit (.register block entry)).entriesOf block =
      entriesIn records block ++ [entry] := by
    rw [edit, entriesOf_register_self _ enabled, h.entries]
  constructor
  case entries =>
    intro kept
    rw [entriesIn_append]
    by_cases same : kept = block
    · subst same
      simpa [entriesIn] using own
    · rw [edit, entriesOf_register_of_ne _ same, h.entries]
      simp [entriesIn, Ne.symm same]
  case occupied =>
    intro kept member
    by_cases same : kept = block
    · subst same
      rw [own]
      exact List.append_ne_nil_of_right_ne_nil _ (List.cons_ne_nil entry [])
    · rw [edit, Journal.register, if_pos enabled, Std.ExtTreeMap.mem_insert] at member
      rw [edit, entriesOf_register_of_ne _ same]
      rcases member with named | there
      · exact absurd (Std.LawfulEqOrd.eq_of_compare named).symm same
      · exact h.occupied kept there

theorem purge (h : journal.Keeps records) (now : Timestamp) :
    (journal.purge now).Keeps
      (records.filter fun record => !isOutdated journal.retention now record.2) := by
  have whole : ∀ block, (journal.purge now).entriesOf block =
      entriesIn (records.filter fun record => !isOutdated journal.retention now record.2)
        block := by
    intro block
    rw [entriesOf_purge, h.entries,
      entriesIn_filter_snd fun entry => !isOutdated journal.retention now entry]
    exact List.filter_congr fun entry _ => isKept_eq ..
  refine ⟨whole, fun block member none_left => ?_⟩
  rw [entriesOf_purge] at none_left
  rw [Std.ExtTreeMap.mem_iff_isSome_getElem?, getElem?_purge] at member
  cases found : journal.entries[block]? with
  | none => simp [found] at member
  | some entries =>
    rw [entriesOf_of_getElem?_eq_some found] at none_left
    rw [found, Option.bind_some, none_left] at member
    exact Bool.false_ne_true member

theorem clear (h : journal.Keeps records) (block : BlockHash) :
    (journal.clear block).Keeps (records.filter fun record => record.1 ≠ block) := by
  constructor
  case entries =>
    intro kept
    by_cases same : kept = block
    · subst same
      rw [entriesOf_clear_self, entriesIn_filter_ne_self]
    · rw [entriesOf_clear_of_ne _ same, h.entries, entriesIn_filter_ne _ same]
  case occupied =>
    intro kept member
    rw [Journal.clear, Std.ExtTreeMap.mem_erase] at member
    obtain ⟨different, there⟩ := member
    have other : kept ≠ block := by
      rintro rfl
      exact different Std.ReflCmp.compare_self
    rw [entriesOf_clear_of_ne _ other]
    exact h.occupied kept there

/-- One edit changes what is kept by what it takes out and enters. -/
theorem edit (h : journal.Keeps records) (enabled : journal.enabled = true) (edit : Edit) :
    (journal.edit edit).Keeps
      ((records.filter fun record => !edit.removes journal.retention record) ++
        edit.entered?.toList) := by
  cases edit with
  | register block entry => simpa [Edit.removes, Edit.entered?] using h.register enabled block entry
  | purge now => simpa [Edit.removes, Edit.entered?, Journal.edit] using h.purge now
  | clear block => simpa [Edit.removes, Edit.entered?, Journal.edit] using h.clear block

end Keeps

theorem enabled_after (journal : Journal) (edits : List Edit) :
    (journal.after edits).enabled = journal.enabled := by
  induction edits generalizing journal with
  | nil => rfl
  | cons edit later ih => exact (ih _).trans (enabled_edit journal edit)

theorem retention_after (journal : Journal) (edits : List Edit) :
    (journal.after edits).retention = journal.retention := by
  induction edits generalizing journal with
  | nil => rfl
  | cons edit later ih => exact (ih _).trans (retention_edit journal edit)

/-- A journal keeps what was entered and not taken out since. -/
theorem keeps_after (retention : Duration) (edits : List Edit) :
    ((blank true retention).after edits).Keeps (remaining retention edits) := by
  induction edits using List.reverseRecOn with
  | nil => exact keeps_blank true retention
  | append_singleton past edit ih =>
    have next := ih.edit (enabled_after ..) edit
    rw [retention_after] at next
    rw [remaining_concat, after, List.foldl_append]
    exact next

/-! ## Counting -/

theorem entryCount_eq_sum (journal : Journal) :
    journal.entryCount = (journal.entries.toList.map fun entry => entry.2.length).sum := by
  rw [entryCount, List.sum, List.foldr_map]

theorem Purge.removed_foldl {kept : JournalEntry → Bool}
    (records : List (BlockHash × List JournalEntry)) (purge : Purge) :
    (records.foldl (visit kept) purge).removed =
      purge.removed +
        (records.map fun record => record.2.length - (record.2.filter kept).length).sum := by
  induction records generalizing purge with
  | nil => rfl
  | cons first rest ih =>
    rw [List.foldl_cons, ih, visit, List.map_cons, List.sum_cons, Nat.add_assoc]

/-- The count of a purge adds up what every block loses. -/
theorem purgeCount_eq_sum (journal : Journal) (now : Timestamp) :
    journal.purgeCount now = (journal.entries.toList.map fun entry =>
      entry.2.length - (entry.2.filter (journal.isKept now)).length).sum :=
  (Purge.removed_foldl _ _).trans (Nat.zero_add _)

theorem entries_purge (journal : Journal) (now : Timestamp) :
    (journal.purge now).entries = journal.entries.filterMap fun _ entries =>
      if (entries.filter (journal.isKept now)).isEmpty then none
      else some (entries.filter (journal.isKept now)) := by
  refine Std.ExtTreeMap.ext_getElem? fun block => ?_
  rw [getElem?_purge, Std.ExtTreeMap.getElem?_filterMap]
  cases journal.entries[block]? <;> rfl

theorem entryCount_purge (journal : Journal) (now : Timestamp) :
    (journal.purge now).entryCount =
      (journal.entries.toList.map fun entry => (entry.2.filter (journal.isKept now)).length).sum := by
  rw [entryCount_eq_sum, entries_purge, Std.ExtTreeMap.toList_filterMap]
  induction journal.entries.toList with
  | nil => rfl
  | cons entry rest ih =>
    rw [List.filterMap_cons, List.map_cons, List.sum_cons, ← ih]
    cases entry.2.filter (journal.isKept now) with
    | nil => exact (Nat.zero_add _).symm
    | cons first more => rfl

/-- What a purge counts and what it leaves is all there was. -/
theorem purgeCount_add_entryCount (journal : Journal) (now : Timestamp) :
    journal.purgeCount now + (journal.purge now).entryCount = journal.entryCount := by
  rw [purgeCount_eq_sum, entryCount_purge, entryCount_eq_sum, ← List.sum_map_add]
  congr 1
  exact List.map_congr_left fun entry _ => Nat.sub_add_cancel (List.length_filter_le ..)

/-- A purge that removes no entry leaves the entries of every block as they are. -/
theorem entriesOf_purge_of_purgeCount_eq_zero {journal : Journal} {now : Timestamp}
    (h : journal.purgeCount now = 0) (block : BlockHash) :
    (journal.purge now).entriesOf block = journal.entriesOf block := by
  rw [purgeCount_eq_sum, List.sum_eq_zero_iff] at h
  rw [entriesOf_purge]
  by_cases there : block ∈ journal.entries
  · have found := Std.ExtTreeMap.getElem?_eq_some_getElem there
    rw [entriesOf_of_getElem?_eq_some found]
    have listed := Std.ExtTreeMap.mem_toList_iff_getElem?_eq_some.mpr found
    have loss := h _ (List.mem_map_of_mem listed)
    exact List.filter_sublist.eq_of_length_le (Nat.sub_eq_zero_iff_le.mp loss)
  · rw [entriesOf_of_not_mem there, List.filter_nil]

namespace Keeps

/-- The blocks that have a place in the journal are those of the entries. -/
theorem keys_perm (h : journal.Keeps records) :
    journal.entries.keys.Perm (records.map Prod.fst).dedup := by
  rw [List.perm_ext_iff_of_nodup Std.ExtTreeMap.nodup_keys (List.nodup_dedup _)]
  intro block
  rw [Std.ExtTreeMap.mem_keys, List.mem_dedup, ← List.count_pos_iff, ← length_entriesIn,
    List.length_pos_iff, ← h.entries]
  constructor
  · exact h.occupied block
  · intro some_left
    by_contra absent
    exact some_left (entriesOf_of_not_mem absent)

theorem blockCount_eq (h : journal.Keeps records) :
    journal.blockCount = (records.map Prod.fst).dedup.length := by
  rw [blockCount, ← Std.ExtTreeMap.length_keys]
  exact h.keys_perm.length_eq

theorem entryCount_eq (h : journal.Keeps records) : journal.entryCount = records.length := by
  have listed : journal.entries.toList.map (fun entry => entry.2.length) =
      journal.entries.keys.map fun block => (records.map Prod.fst).count block := by
    rw [← Std.ExtTreeMap.map_fst_toList_eq_keys, List.map_map]
    refine List.map_congr_left fun entry member => ?_
    have own : journal.entriesOf entry.1 = entry.2 :=
      entriesOf_of_getElem?_eq_some (Std.ExtTreeMap.mem_toList_iff_getElem?_eq_some.mp member)
    rw [Function.comp_apply, ← length_entriesIn, ← h.entries, own]
  rw [entryCount_eq_sum, listed, (h.keys_perm.map _).sum_eq, List.sum_map_count_dedup_eq_length,
    List.length_map]

/-- A purge removes the entries that are too old, of all blocks together. -/
theorem purgeCount_eq (h : journal.Keeps records) (now : Timestamp) :
    journal.purgeCount now =
      records.countP fun record => isOutdated journal.retention now record.2 := by
  have split := List.length_eq_length_filter_add (l := records)
    fun record => isOutdated journal.retention now record.2
  have whole := journal.purgeCount_add_entryCount now
  rw [h.entryCount_eq, (h.purge now).entryCount_eq] at whole
  rw [List.countP_eq_length_filter]
  omega

theorem getElem?_entries (h : journal.Keeps records) (block : BlockHash) :
    journal.entries[block]? =
      if entriesIn records block = [] then none else some (entriesIn records block) := by
  rw [← h.entries]
  by_cases there : block ∈ journal.entries
  · have found := Std.ExtTreeMap.getElem?_eq_some_getElem there
    rw [if_neg (h.occupied block there), entriesOf_of_getElem?_eq_some found, found]
  · rw [if_pos (entriesOf_of_not_mem there), Std.ExtTreeMap.getElem?_eq_none there]

/-- What a journal keeps determines its table. -/
theorem unique (first : journal.Keeps records) (second : other.Keeps records)
    (enabled : journal.enabled = other.enabled) (retention : journal.retention = other.retention) :
    journal = other := by
  have tables : journal.entries = other.entries := by
    refine Std.ExtTreeMap.ext_getElem? fun block => ?_
    rw [first.getElem?_entries, second.getElem?_entries]
  cases journal
  cases other
  simp_all

end Keeps

/-- What a purge leaves, a purge for the same or an earlier time leaves as well. -/
theorem Keeps.purge_purge (h : journal.Keeps records) {earlier : Timestamp}
    (order : earlier.millis ≤ now.millis) :
    (journal.purge now).purgeCount earlier = 0 ∧
      (journal.purge now).purge earlier = journal.purge now := by
  have purged := h.purge now
  have young : ∀ record ∈ records.filter fun record =>
      !isOutdated journal.retention now record.2,
      isOutdated journal.retention earlier record.2 = false := by
    intro record member
    have kept := (List.mem_filter.mp member).2
    exact isOutdated_of_le order (by simpa using kept)
  constructor
  · rw [purged.purgeCount_eq, List.countP_eq_zero]
    intro record member
    exact Bool.eq_false_iff.mp (young record member)
  · have again := purged.purge earlier
    rw [List.filter_eq_self.mpr] at again
    · exact again.unique purged rfl rfl
    · intro record member
      exact congrArg not (young record member)

/-- In whatever order entries are made, blocks cleared and purges run, and at whatever times: a block
has the entries that were made since it was last cleared, in their order, without those that a later
purge found older than the retention time. A purge counts the entries that it removes from all
blocks, the blocks with entries are counted, and a purge for a time that was purged before removes
nothing. -/
theorem retains (retention : Duration) (edits : List Edit) :
    let journal := (blank true retention).after edits
    let records := remaining retention edits
    (∀ block, journal.entriesOf block = entriesIn records block) ∧
    (∀ now, journal.purgeCount now =
        (records.countP fun record => isOutdated retention now record.2) ∧
      journal.purgeCount now + (remaining retention (edits ++ [.purge now])).length =
        records.length) ∧
    journal.blockCount = (records.map Prod.fst).dedup.length ∧
    ∀ now earlier, earlier.millis ≤ now.millis →
      (journal.purge now).purgeCount earlier = 0 ∧
        (journal.purge now).purge earlier = journal.purge now := by
  intro journal records
  have keeps : journal.Keeps records := keeps_after retention edits
  have kept : journal.retention = retention := retention_after _ edits
  refine ⟨keeps.entries, fun now => ?_, keeps.blockCount_eq, fun now earlier => keeps.purge_purge⟩
  have removed := keeps.purgeCount_eq now
  rw [kept] at removed
  have split := List.length_eq_length_filter_add (l := records)
    fun record => isOutdated retention now record.2
  have left : remaining retention (edits ++ [.purge now]) =
      records.filter fun record => !isOutdated retention now record.2 := by
    rw [remaining_concat]
    exact List.append_nil _
  rw [left, removed, List.countP_eq_length_filter]
  exact ⟨rfl, split.symm⟩

/-- An entry that is exactly as old as the retention time stays, and so does one whose time lies ahead
of the purge. A purge for an earlier time finds nothing then. -/
theorem retains_boundary :
    let entry (time : UInt64) : JournalEntry := ⟨⟨time⟩, none, .queued⟩
    let edits : List Edit := [.register .zero (entry 0), .register .zero (entry 1),
      .register .zero (entry 90_000), .purge ⟨10_001⟩]
    let journal := (blank true 10_000).after edits
    let earlier : Timestamp := ⟨9_000⟩
    let now : Timestamp := ⟨10_001⟩
    journal.entriesOf .zero = [entry 1, entry 90_000] ∧ journal.blockCount = 1 ∧
      earlier.millis ≤ now.millis ∧ (journal.purge now).purgeCount earlier = 0 := by
  intro entry edits journal earlier now
  obtain ⟨entries, _, blocks, again⟩ := retains 10_000 edits
  have order : earlier.millis ≤ now.millis := by decide
  have left : entriesIn (remaining 10_000 edits) .zero = [entry 1, entry 90_000] := by
    decide +kernel
  have one : ((remaining 10_000 edits).map Prod.fst).dedup.length = 1 := by decide +kernel
  exact ⟨(entries .zero).trans left, blocks.trans one, order, (again now earlier order).1⟩

end BlockFetch.Journal
