import BlockFetch.Document.Toml
import Mathlib.Data.List.Nodup

/-!
# The tables of a configuration file

A key gets a value once, whether by a header, by an assignment or by the dots of a longer key. So in
the document of a file no record has a key twice, on any level, and whoever reads a table finds the
entries that he knows.
-/
namespace BlockFetch.Document

/-- No record in a document has a key twice. -/
inductive KeysDiffer : Document → Prop
  | null : KeysDiffer null
  | bool (value : Bool) : KeysDiffer (bool value)
  | integer (value : Int) : KeysDiffer (integer value)
  | decimal (literal : String) : KeysDiffer (decimal literal)
  | text (value : String) : KeysDiffer (text value)
  | list {items : List Document} (each : ∀ item ∈ items, KeysDiffer item) : KeysDiffer (list items)
  | record {fields : List (String × Document)} (distinct : (fields.map Prod.fst).Nodup)
    (each : ∀ field ∈ fields, KeysDiffer field.2) : KeysDiffer (record fields)
  | unreadable : KeysDiffer unreadable

namespace Toml

inductive Item.KeysDiffer : Item → Prop
  | value {document : Document} (h : document.KeysDiffer) : KeysDiffer (.value document)
  | table {kind : TableKind} {entries : Entries} (distinct : (entries.map Prod.fst).Nodup)
    (each : ∀ entry ∈ entries, KeysDiffer entry.2) : KeysDiffer (.table kind entries)
  | tables {elements : List Entries}
    (distinct : ∀ entries ∈ elements, (entries.map Prod.fst).Nodup)
    (each : ∀ entries ∈ elements, ∀ entry ∈ entries, KeysDiffer entry.2) :
    KeysDiffer (.tables elements)

/-- Neither a table nor anything in it has a key twice. -/
structure Sound (entries : Entries) : Prop where
  distinct : (entries.map Prod.fst).Nodup
  each : ∀ entry ∈ entries, entry.2.KeysDiffer

def KeepsSound (change : Entries → Option Entries) : Prop :=
  ∀ entries changed, Sound entries → change entries = some changed → Sound changed

variable {entries inner changed : Entries} {elements : List Entries} {key : String} {item : Item}
  {kind : TableKind} {change : Entries → Option Entries}

/-! ## Changes of a table -/

theorem sound_nil : Sound [] := ⟨List.nodup_nil, nofun⟩

theorem Item.keysDiffer_table_iff : (Item.table kind entries).KeysDiffer ↔ Sound entries :=
  ⟨fun | .table distinct each => ⟨distinct, each⟩, fun h => .table h.distinct h.each⟩

theorem Item.keysDiffer_tables_iff :
    (Item.tables elements).KeysDiffer ↔ ∀ entries ∈ elements, Sound entries :=
  ⟨fun | .tables distinct each => fun entries member =>
      ⟨distinct entries member, each entries member⟩,
    fun h => .tables (fun entries member => (h entries member).distinct)
      fun entries member => (h entries member).each⟩

namespace Sound

theorem of_lookup (h : Sound entries) (found : entries.lookup key = some item) :
    item.KeysDiffer := by
  obtain ⟨before, after, split, -⟩ := List.lookup_eq_some_iff.mp found
  exact h.each (key, item) (split ▸ List.mem_append_right _ List.mem_cons_self)

theorem append (h : Sound entries) (fresh : entries.lookup key = none) (new : item.KeysDiffer) :
    Sound (entries ++ [(key, item)]) := by
  have absent : key ∉ entries.map Prod.fst := by
    intro member
    obtain ⟨⟨_, content⟩, known, rfl⟩ := List.mem_map.mp member
    have other := List.lookup_eq_none_iff.mp fresh _ known
    simp at other
  constructor
  · rw [List.map_append, List.map_singleton]
    exact h.distinct.append (List.nodup_singleton _) (List.disjoint_singleton.mpr absent)
  · intro entry member
    rcases List.mem_append.mp member with old | last
    · exact h.each entry old
    · rw [List.mem_singleton.mp last]
      exact new

theorem replace (h : Sound entries) (new : item.KeysDiffer) :
    Sound (replace entries key item) := by
  have keys : (Toml.replace entries key item).map Prod.fst = entries.map Prod.fst := by
    rw [Toml.replace, List.map_map]
    refine List.map_congr_left fun entry _ => ?_
    by_cases here : entry.1 = key <;> simp [here]
  refine ⟨keys ▸ h.distinct, fun entry member => ?_⟩
  obtain ⟨old, known, same⟩ := List.mem_map.mp member
  split at same
  · rw [← same]
    exact new
  · rw [← same]
    exact h.each old known

theorem replace_table (h : Sound entries) (keeps : KeepsSound change)
    (found : entries.lookup key = some (.table kind inner)) {newKind : TableKind}
    (done : ((change inner).bind fun after =>
      some (Toml.replace entries key (.table newKind after))) = some changed) : Sound changed := by
  obtain ⟨after, done, same⟩ := Option.bind_eq_some_iff.mp done
  have differ := Item.keysDiffer_table_iff.mp (h.of_lookup found)
  exact Option.some_inj.mp same ▸
    h.replace (Item.keysDiffer_table_iff.mpr (keeps inner after differ done))

/-- Of a list of tables the last one is changed. -/
theorem replace_tables (h : Sound entries) (keeps : KeepsSound change)
    (found : entries.lookup key = some (.tables elements))
    (done : ((changeLast? elements change).bind fun after =>
      some (Toml.replace entries key (.tables after))) = some changed) : Sound changed := by
  have all := Item.keysDiffer_tables_iff.mp (h.of_lookup found)
  simp only [changeLast?, Option.bind_eq_bind, Option.bind_eq_some_iff, Option.pure_def,
    Option.some_inj] at done
  obtain ⟨_, ⟨last, final, after, done, rfl⟩, rfl⟩ := done
  refine h.replace (Item.keysDiffer_tables_iff.mpr fun entries member => ?_)
  rcases List.mem_append.mp member with early | late
  · exact all entries (List.dropLast_subset _ early)
  · rw [List.mem_singleton.mp late]
    exact keeps last after (all last (List.mem_of_getLast? final)) done

end Sound

/-! ## Paths -/

theorem sound_of_ite {condition : Prop} [Decidable condition]
    (done : (if condition then some inner else none) = some changed)
    (sound : condition → Sound inner) : Sound changed := by
  obtain ⟨holds, same⟩ := Option.ite_none_right_eq_some.mp done
  exact Option.some_inj.mp same ▸ sound holds

theorem keepsSound_assign? {value : Document} (differ : value.KeysDiffer) (path : Path)
    (extensible : Bool) : KeepsSound (assign? value path extensible) := by
  induction path generalizing extensible with
  | nil => exact fun _ _ _ done => nomatch done
  | cons key rest ih =>
    intro entries changed sound done
    cases rest with
    | nil =>
      refine sound_of_ite done fun free => ?_
      rw [Bool.and_eq_true, Option.isNone_iff_eq_none] at free
      exact sound.append free.2 (.value differ)
    | cons next rest =>
      simp only [assign?, Option.bind_eq_bind, Option.pure_def] at done
      split at done
      · rename_i fresh
        obtain ⟨made, done, same⟩ := Option.bind_eq_some_iff.mp done
        have new := ih true [] made sound_nil done
        exact Option.some_inj.mp same ▸ sound.append fresh (Item.keysDiffer_table_iff.mpr new)
      · rename_i kind inner found
        split at done
        · exact nomatch done
        · exact sound.replace_table (ih _) found done
      · rename_i elements found
        exact sound.replace_tables (ih false) found done
      · exact nomatch done

theorem keepsSound_defineTable (key : String) :
    KeepsSound fun entries => defineTable entries key := by
  intro entries changed sound done
  simp only [defineTable] at done
  split at done
  · rename_i fresh
    exact Option.some_inj.mp done ▸
      sound.append fresh (Item.keysDiffer_table_iff.mpr sound_nil)
  · rename_i inner found
    have differ := Item.keysDiffer_table_iff.mp (sound.of_lookup found)
    exact Option.some_inj.mp done ▸ sound.replace (Item.keysDiffer_table_iff.mpr differ)
  · exact nomatch done

theorem keepsSound_addTable (key : String) : KeepsSound fun entries => addTable entries key := by
  intro entries changed sound done
  simp only [addTable] at done
  split at done
  · rename_i fresh
    have new : ∀ entries ∈ [([] : Entries)], Sound entries := by simp [sound_nil]
    exact Option.some_inj.mp done ▸ sound.append fresh (Item.keysDiffer_tables_iff.mpr new)
  · rename_i elements found
    have all := Item.keysDiffer_tables_iff.mp (sound.of_lookup found)
    refine Option.some_inj.mp done ▸ sound.replace (Item.keysDiffer_tables_iff.mpr ?_)
    exact List.forall_mem_append.mpr ⟨all, by simp [sound_nil]⟩
  · exact nomatch done

theorem keepsSound_declare? {define : Entries → String → Option Entries}
    (keeps : ∀ key, KeepsSound fun entries => define entries key) (path : Path) :
    KeepsSound (declare? define path) := by
  induction path with
  | nil => exact fun _ _ _ done => nomatch done
  | cons key rest ih =>
    intro entries changed sound done
    cases rest with
    | nil => exact keeps key entries changed sound done
    | cons next rest =>
      simp only [declare?, Option.bind_eq_bind, Option.pure_def] at done
      split at done
      · rename_i fresh
        obtain ⟨made, done, same⟩ := Option.bind_eq_some_iff.mp done
        have new := ih [] made sound_nil done
        exact Option.some_inj.mp same ▸ sound.append fresh (Item.keysDiffer_table_iff.mpr new)
      · rename_i kind inner found
        exact sound.replace_table ih found done
      · rename_i elements found
        exact sound.replace_tables ih found done
      · exact nomatch done

theorem keepsSound_within? (keeps : KeepsSound change) (path : Path) :
    KeepsSound (within? change path) := by
  induction path with
  | nil => exact keeps
  | cons key rest ih =>
    intro entries changed sound done
    simp only [within?, Option.bind_eq_bind, Option.pure_def] at done
    split at done
    · rename_i kind inner found
      exact sound.replace_table ih found done
    · rename_i elements found
      exact sound.replace_tables ih found done
    · exact nomatch done

/-! ## Documents of tables -/

theorem entriesToFields_eq_map (entries : Entries) :
    entriesToFields entries = entries.map fun entry => (entry.1, entry.2.toDocument) := by
  induction entries with
  | nil => rfl
  | cons entry rest ih => rw [entriesToFields, ih, List.map_cons]

theorem elementsToDocuments_eq_map (elements : List Entries) :
    elementsToDocuments elements =
      elements.map fun entries => .record (entriesToFields entries) := by
  induction elements with
  | nil => rfl
  | cons entries rest ih => rw [elementsToDocuments, ih, List.map_cons]

theorem keysDiffer_record (distinct : (entries.map Prod.fst).Nodup)
    (each : ∀ entry ∈ entries, entry.2.toDocument.KeysDiffer) :
    (record (entriesToFields entries)).KeysDiffer := by
  rw [entriesToFields_eq_map]
  refine .record ?_ (List.forall_mem_map.mpr each)
  rw [List.map_map]
  exact distinct

theorem Item.KeysDiffer.toDocument (h : item.KeysDiffer) : item.toDocument.KeysDiffer := by
  induction h with
  | value h => exact h
  | table distinct _ ih => exact keysDiffer_record distinct ih
  | tables distinct _ ih =>
    rw [Item.toDocument, elementsToDocuments_eq_map]
    exact .list (List.forall_mem_map.mpr fun entries member =>
      keysDiffer_record (distinct entries member) (ih entries member))

theorem Sound.toDocument (h : Sound entries) : (record (entriesToFields entries)).KeysDiffer :=
  keysDiffer_record h.distinct fun entry member => (h.each entry member).toDocument

theorem foldlM_induction {α σ : Type} {motive : σ → Prop} {step : σ → α → Option σ}
    {items : List α} {before after : σ} (start : motive before)
    (keeps : ∀ item ∈ items, ∀ before after, motive before → step before item = some after →
      motive after)
    (done : items.foldlM step before = some after) : motive after := by
  induction items generalizing before with
  | nil => exact Option.some_inj.mp done ▸ start
  | cons item rest ih =>
    obtain ⟨first, others⟩ := List.forall_mem_cons.mp keeps
    rw [List.foldlM_cons] at done
    obtain ⟨next, stepped, done⟩ := Option.bind_eq_some_iff.mp done
    exact ih (first before next start stepped) others done

theorem keysDiffer_inlineTable? {assignments : List (Path × Document)} {document : Document}
    (each : ∀ assignment ∈ assignments, assignment.2.KeysDiffer)
    (made : inlineTable? assignments = some document) : document.KeysDiffer := by
  obtain ⟨entries, built, same⟩ := Option.bind_eq_some_iff.mp made
  have sound : Sound entries := foldlM_induction sound_nil
    (fun assignment member before after sound assigned =>
      keepsSound_assign? (each assignment member) _ true before after sound assigned) built
  exact Option.some_inj.mp same ▸ sound.toDocument

/-! ## Values -/

theorem keysDiffer_date? {input rest : List Char} {document : Document}
    (read : date? input = some (document, rest)) : document.KeysDiffer := by
  obtain ⟨left, _, same⟩ := Option.bind_eq_some_iff.mp read
  rw [← (Prod.mk.inj (Option.some_inj.mp same)).1]
  exact .record (List.nodup_singleton _) (by simp [KeysDiffer.text])

theorem keysDiffer_finite? {negative : Bool} {whole fraction exponent : List Char}
    {document : Document} (read : finite? negative whole fraction exponent = some document) :
    document.KeysDiffer := by
  obtain ⟨_, same⟩ := Option.ite_none_left_eq_some.mp read
  exact Option.some_inj.mp same ▸ .decimal _

theorem keysDiffer_decimal? {input rest : List Char} {document : Document}
    (read : decimal? input = some (document, rest)) : document.KeysDiffer := by
  simp only [decimal?, Option.bind_eq_bind, Option.pure_def] at read
  split at read
  · cases read
    exact .decimal _
  · cases read
    exact .decimal _
  · obtain ⟨_, _, read⟩ := Option.bind_eq_some_iff.mp read
    split at read
    · obtain ⟨_, finite, same⟩ := Option.bind_eq_some_iff.mp read
      cases same
      exact keysDiffer_finite? finite
    · obtain ⟨_, _, read⟩ := Option.bind_eq_some_iff.mp read
      obtain ⟨_, _, read⟩ := Option.bind_eq_some_iff.mp read
      obtain ⟨_, finite, same⟩ := Option.bind_eq_some_iff.mp read
      cases same
      exact keysDiffer_finite? finite

theorem keysDiffer_signed? {negative : Bool} {value : Nat} {document : Document}
    (read : signed? negative value = some document) : document.KeysDiffer := by
  unfold signed? at read
  split at read <;> obtain ⟨_, same⟩ := Option.ite_none_right_eq_some.mp read <;>
    exact Option.some_inj.mp same ▸ .integer _

theorem keysDiffer_radixInteger? {radix : Nat} {input rest : List Char} {document : Document}
    (read : radixInteger? radix input = some (document, rest)) : document.KeysDiffer := by
  obtain ⟨_, _, read⟩ := Option.bind_eq_some_iff.mp read
  obtain ⟨_, signed, same⟩ := Option.bind_eq_some_iff.mp read
  cases same
  exact keysDiffer_signed? signed

theorem keysDiffer_integer? {input rest : List Char} {document : Document}
    (read : integer? input = some (document, rest)) : document.KeysDiffer := by
  unfold integer? at read
  split at read
  · exact keysDiffer_radixInteger? read
  · exact keysDiffer_radixInteger? read
  · exact keysDiffer_radixInteger? read
  · obtain ⟨_, _, read⟩ := Option.bind_eq_some_iff.mp read
    obtain ⟨_, signed, same⟩ := Option.bind_eq_some_iff.mp read
    cases same
    exact keysDiffer_signed? signed

theorem keysDiffer_scalar? {input rest : List Char} {document : Document}
    (read : scalar? input = some (document, rest)) : document.KeysDiffer := by
  unfold scalar? at read
  split at read
  · cases read
    exact .bool true
  · cases read
    exact .bool false
  · simp only [Option.orElse_eq_orElse, Option.orElse_eq_or, Option.or_eq_some_iff] at read
    rcases read with date | ⟨_, decimal | ⟨_, integer⟩⟩
    · exact keysDiffer_date? date
    · exact keysDiffer_decimal? decimal
    · exact keysDiffer_integer? integer

/-- The readers of values, of the items of a list and of the assignments of a table call each other
with less fuel. -/
theorem keysDiffer_values (fuel : Nat) :
    (∀ levels input value rest, value? fuel levels input = some (value, rest) →
      value.KeysDiffer) ∧
    (∀ levels input items rest, items? fuel levels input = some (items, rest) →
      ∀ item ∈ items, item.KeysDiffer) ∧
    ∀ levels input assignments rest, assignments? fuel levels input = some (assignments, rest) →
      ∀ assignment ∈ assignments, assignment.2.KeysDiffer := by
  induction fuel with
  | zero =>
    refine ⟨fun _ _ _ _ read => ?_, fun _ _ _ _ read => ?_, fun _ _ _ _ read => ?_⟩
    · simp [value?] at read
    · simp [items?] at read
    · simp [assignments?] at read
  | succ fuel ih =>
    obtain ⟨values, items, assignments⟩ := ih
    refine ⟨fun levels input value rest read => ?_, fun levels input found rest read => ?_,
      fun levels input found rest read => ?_⟩
    · simp only [value?, Option.bind_eq_bind, Option.pure_def] at read
      split at read
      · exact nomatch read
      · exact nomatch read
      · obtain ⟨_, inside, same⟩ := Option.bind_eq_some_iff.mp read
        cases same
        exact .list (items _ _ _ _ inside)
      · split at read
        · cases read
          exact .record List.nodup_nil nofun
        · obtain ⟨_, inside, read⟩ := Option.bind_eq_some_iff.mp read
          obtain ⟨_, made, same⟩ := Option.bind_eq_some_iff.mp read
          cases same
          exact keysDiffer_inlineTable? (assignments _ _ _ _ inside) made
      · obtain ⟨_, _, same⟩ := Option.map_eq_some_iff.mp read
        cases same
        exact .text _
      · obtain ⟨_, _, same⟩ := Option.map_eq_some_iff.mp read
        cases same
        exact .text _
      · exact keysDiffer_scalar? read
    · simp only [items?, Option.bind_eq_bind, Option.pure_def] at read
      split at read
      · cases read
        exact nofun
      · obtain ⟨_, first, read⟩ := Option.bind_eq_some_iff.mp read
        split at read
        · cases read
          exact List.forall_mem_singleton.mpr (values _ _ _ _ first)
        · obtain ⟨_, others, same⟩ := Option.bind_eq_some_iff.mp read
          cases same
          exact List.forall_mem_cons.mpr ⟨values _ _ _ _ first, items _ _ _ _ others⟩
        · exact nomatch read
    · simp only [assignments?, Option.bind_eq_bind, Option.pure_def] at read
      obtain ⟨_, _, read⟩ := Option.bind_eq_some_iff.mp read
      obtain ⟨_, _, read⟩ := Option.bind_eq_some_iff.mp read
      obtain ⟨_, first, read⟩ := Option.bind_eq_some_iff.mp read
      split at read
      · cases read
        exact List.forall_mem_singleton.mpr (values _ _ _ _ first)
      · obtain ⟨_, others, same⟩ := Option.bind_eq_some_iff.mp read
        cases same
        exact List.forall_mem_cons.mpr ⟨values _ _ _ _ first, assignments _ _ _ _ others⟩
      · exact nomatch read

/-! ## Lines -/

def Statement.KeysDiffer : Statement → Prop
  | .assignment _ value => value.KeysDiffer
  | _ => True

theorem Sound.add? {before after : Build} {statement : Statement} (sound : Sound before.root)
    (differ : statement.KeysDiffer) (added : before.add? statement = some after) :
    Sound after.root := by
  cases statement with
  | header path =>
    obtain ⟨root, done, same⟩ := Option.bind_eq_some_iff.mp added
    cases same
    exact keepsSound_declare? keepsSound_defineTable path _ _ sound done
  | elementHeader path =>
    obtain ⟨root, done, same⟩ := Option.bind_eq_some_iff.mp added
    cases same
    exact keepsSound_declare? keepsSound_addTable path _ _ sound done
  | assignment path value =>
    obtain ⟨root, done, same⟩ := Option.bind_eq_some_iff.mp added
    cases same
    exact keepsSound_within? (keepsSound_assign? differ path true) _ _ _ sound done

theorem keysDiffer_statement? {input rest : List Char} {statement : Statement}
    (read : statement? input = some (statement, rest)) : statement.KeysDiffer := by
  simp only [statement?, Option.bind_eq_bind, Option.pure_def] at read
  split at read
  · obtain ⟨_, _, read⟩ := Option.bind_eq_some_iff.mp read
    simp only [Option.bind_eq_some_iff, Option.some_inj] at read
    obtain ⟨_, _, _, _, _, _, same⟩ := read
    cases same
    trivial
  · simp only [Option.bind_eq_some_iff, Option.some_inj] at read
    obtain ⟨_, _, _, _, _, _, same⟩ := read
    cases same
    trivial
  · simp only [Option.bind_eq_some_iff, Option.some_inj] at read
    obtain ⟨_, _, _, _, _, value, _, _, same⟩ := read
    cases same
    exact (keysDiffer_values _).1 _ _ _ _ value

theorem keysDiffer_statements? {fuel : Nat} {input : List Char} {statements : List Statement}
    (read : statements? fuel input = some statements) :
    ∀ statement ∈ statements, statement.KeysDiffer := by
  induction fuel generalizing input statements with
  | zero => exact nomatch read
  | succ fuel ih =>
    simp only [statements?, Option.bind_eq_bind, Option.pure_def] at read
    split at read
    · cases read
      exact nofun
    · obtain ⟨_, first, read⟩ := Option.bind_eq_some_iff.mp read
      obtain ⟨_, others, same⟩ := Option.bind_eq_some_iff.mp read
      cases same
      exact List.forall_mem_cons.mpr ⟨keysDiffer_statement? first, ih others⟩

end Toml

/-! ## Files -/

/-- What the readers of settings take from the format of files: a file is a table, and no table in
it has a key twice. -/
structure FileFormat (read? : String → Option Document) : Prop where
  table : ∀ text document, read? text = some document → ∃ fields, document = .record fields
  differ : ∀ text document, read? text = some document → document.KeysDiffer

theorem fileFormat_toml : FileFormat ofToml? := by
  have built : ∀ text document, ofToml? text = some document →
      ∃ root, Toml.Sound root ∧ document = .record (Toml.entriesToFields root) := by
    intro text document read
    obtain ⟨statements, read, made⟩ := Option.bind_eq_some_iff.mp read
    obtain ⟨build, added, same⟩ := Option.bind_eq_some_iff.mp made
    have sound : Toml.Sound build.root :=
      Toml.foldlM_induction (motive := fun build => Toml.Sound build.root) Toml.sound_nil
        (fun statement member _ _ sound added =>
          sound.add? (Toml.keysDiffer_statements? read statement member) added) added
    exact ⟨build.root, sound, (Option.some_inj.mp same).symm⟩
  constructor
  · intro text document read
    obtain ⟨root, _, same⟩ := built text document read
    exact ⟨_, same⟩
  · intro text document read
    obtain ⟨root, sound, same⟩ := built text document read
    exact same ▸ sound.toDocument

theorem Fields.lookup_eq_some_iff_mem {fields : Fields} (distinct : (fields.map Prod.fst).Nodup)
    {name : String} {content : Document} :
    fields.lookup name = some content ↔ (name, content) ∈ fields := by
  induction fields with
  | nil => simp
  | cons field rest ih =>
    obtain ⟨key, value⟩ := field
    obtain ⟨absent, distinct⟩ := List.nodup_cons.mp distinct
    by_cases here : name = key
    · subst here
      have nowhere : (name, content) ∉ rest := fun member =>
        absent (List.mem_map.mpr ⟨_, member, rfl⟩)
      simp [nowhere, eq_comm]
    · simp [List.lookup_cons, beq_false_of_ne here, here, ih distinct]

/-- Of the entries that somebody knows all are found in a table, and each has the one content that
the table gives it. -/
theorem KeysDiffer.exists_known?_eq {fields : Fields}
    (h : KeysDiffer (.record fields)) (names : List String) :
    ∃ found, known? names fields = some found ∧
      ∀ name ∈ names, ∀ content, found.lookup name = some content ↔ (name, content) ∈ fields := by
  cases h with
  | record distinct each =>
    have once := distinct.sublist
      ((List.filter_sublist (p := fun field => names.contains field.1)).map Prod.fst)
    refine ⟨_, if_pos once, fun name known content => ?_⟩
    rw [Fields.lookup_eq_some_iff_mem once, List.mem_filter]
    simp [known]

/-- So no file is refused because something stands in it twice. -/
theorem FileFormat.exists_leadingFields?_eq {read? : String → Option Document}
    (format : FileFormat read?) {text : String} {document : Document}
    (read : read? text = some document) (names : List String) :
    ∃ fields found, document = .record fields ∧ leadingFields? names document = some found ∧
      ∀ name ∈ names, ∀ content, found.lookup name = some content ↔ (name, content) ∈ fields := by
  obtain ⟨fields, rfl⟩ := format.table text document read
  obtain ⟨found, known, same⟩ := (format.differ text _ read).exists_known?_eq names
  exact ⟨fields, found, rfl, known, same⟩

end BlockFetch.Document
