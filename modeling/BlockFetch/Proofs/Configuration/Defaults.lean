import BlockFetch.Proofs.Text.Documents

/-!
# Settings that a document leaves out

A configuration document need not have all its entries: what it leaves out keeps its standard value,
in the table of the node, in the one of the scheduler and in the one of the journal. The order of
the entries means nothing, and entries that nobody knows are passed over. The rule on announcers is
no such table: it is left out as a whole or not at all, though its entries, too, stand in any order.
-/
namespace BlockFetch

open Document (Fields known?)

/-! ## Layouts -/

/-- What a reader looks for in a document: a value as a whole, a record as a whole whose entries
stand in any order, or a table with known keys, each with a layout of its own. -/
inductive Layout where
  | value
  | record
  | table (known : List String) (inner : String → Layout)

/-- Tells of the path of an entry whether the entry was deleted. -/
abbrev Deletion := List String → Bool

namespace Deletion

def below (deleted : Deletion) (key : String) : Deletion :=
  fun path => deleted (key :: path)

end Deletion

namespace Layout

/-- A document without the entries that were deleted from its tables. -/
def prune : Layout → Deletion → Document → Document
  | table _ inner, deleted, .record fields =>
    .record ((fields.filter fun field => !deleted [field.1]).map fun field =>
      (field.1, (inner field.1).prune (deleted.below field.1) field.2))
  | _, _, document => document

/-- One document becomes another when entries change places and when entries are added that their
tables do not know. -/
inductive Rearranges : Layout → Document → Document → Prop
  | refl (layout : Layout) (document : Document) : Rearranges layout document document
  | trans {layout : Layout} {first second third : Document} (left : Rearranges layout first second)
    (right : Rearranges layout second third) : Rearranges layout first third
  | shuffle {fields others : Fields} (perm : fields.Perm others) :
    Rearranges record (.record fields) (.record others)
  | reorder {known : List String} {inner : String → Layout} {fields others : Fields}
    (perm : fields.Perm others) : Rearranges (table known inner) (.record fields) (.record others)
  | unknown {known : List String} {inner : String → Layout} {fields : Fields} {key : String}
    (content : Document) (unknown : key ∉ known) :
    Rearranges (table known inner) (.record fields) (.record ((key, content) :: fields))
  | inside {known : List String} {inner : String → Layout} {key : String} {first second : Document}
    (before after : Fields) (part : Rearranges (inner key) first second) :
    Rearranges (table known inner) (.record (before ++ (key, first) :: after))
      (.record (before ++ (key, second) :: after))

end Layout

/-! ## The order of entries -/

namespace Document.Fields

variable {α : Type} {fields others : Fields} {name : String}

/-- With no key twice, the order of the entries does not matter. -/
theorem lookup_perm (perm : fields.Perm others) (distinct : (fields.map Prod.fst).Nodup) :
    fields.lookup name = others.lookup name := by
  induction perm with
  | nil => rfl
  | cons field _ ih =>
    obtain ⟨key, content⟩ := field
    simp only [List.lookup_cons, ih (List.nodup_cons.mp distinct).2]
  | swap first second rest =>
    obtain ⟨key, content⟩ := first
    obtain ⟨other, contents⟩ := second
    have different : other ≠ key := by
      simp only [List.map_cons, List.nodup_cons, List.mem_cons, not_or] at distinct
      exact distinct.1.1
    by_cases here : name = key
    · have notThere : (name == other) = false := beq_false_of_ne fun same =>
        different (same.symm.trans here)
      simp [List.lookup_cons, here, here ▸ notThere]
    · simp [List.lookup_cons, beq_false_of_ne here]
  | trans first _ ihFirst ihSecond =>
    have distinctToo := (first.map Prod.fst).nodup_iff.mp distinct
    exact (ihFirst distinct).trans (ihSecond distinctToo)

theorem required?_congr (same : ∀ name, fields.lookup name = others.lookup name) (name : String)
    (read : Document → Option α) : fields.required? name read = others.required? name read := by
  rw [required?, required?, same]

theorem orDefault?_congr {related : Document → Document → Prop} {read : Document → Option α}
    (same : ∀ first second, related first second → read first = read second)
    (h : Option.Rel related (fields.lookup name) (others.lookup name)) (default : α) :
    fields.orDefault? name default read = others.orDefault? name default read := by
  unfold orDefault?
  generalize fields.lookup name = left at h
  generalize others.lookup name = right at h
  cases h with
  | none => rfl
  | some alike => exact same _ _ alike

end Document.Fields

namespace Document

variable {fields others : Fields}

/-- In whatever order the entries stand, the known ones are found or none are. -/
theorem known?_perm (names : List String) (perm : fields.Perm others) :
    Option.Rel (fun first second => ∀ name, first.lookup name = second.lookup name)
      (known? names fields) (known? names others) := by
  have found := perm.filter fun field => names.contains field.1
  have keys := (found.map Prod.fst).nodup_iff
  unfold known?
  by_cases distinct : ((fields.filter fun field => names.contains field.1).map Prod.fst).Nodup
  · rw [if_pos distinct, if_pos (keys.mp distinct)]
    exact .some fun _ => Fields.lookup_perm found distinct
  · rw [if_neg distinct, if_neg fun other => distinct (keys.mpr other)]
    exact .none

theorem fieldsReadable_eq_all (fields : Fields) :
    fieldsReadable fields = fields.all fun field => field.2.isReadable := by
  induction fields with
  | nil => rfl
  | cons field rest ih => simp [fieldsReadable, ih]

end Document

namespace AnnouncerFallbacks

theorem ofContent?_perm {fields others : Fields} (perm : fields.Perm others) :
    ofContent? (.record fields) = ofContent? (.record others) := by
  have found := Document.known?_perm ["if_no_announcer", "if_announcer_busy"] perm
  simp only [ofContent?, read?, Document.fields?]
  generalize known? ["if_no_announcer", "if_announcer_busy"] fields = left at found ⊢
  generalize known? ["if_no_announcer", "if_announcer_busy"] others = right at found ⊢
  cases found with
  | none => rfl
  | some same => simp [Fields.required?_congr same]

end AnnouncerFallbacks

namespace Criteria

theorem ofContent?_perm {fields others : Fields} (perm : fields.Perm others) (kind : String) :
    ofContent? kind (.record fields) = ofContent? kind (.record others) := by
  unfold ofContent?
  split
  · rfl
  · rw [AnnouncerFallbacks.ofContent?_perm perm]
  · rfl

/-- The kind of a rule may stand anywhere among its entries. -/
theorem ofDocument?_perm {fields others : Fields} (perm : fields.Perm others) :
    ofDocument? (.record fields) = ofDocument? (.record others) := by
  have readable : Document.isReadable (.record fields) = Document.isReadable (.record others) := by
    simp only [Document.isReadable, Document.fieldsReadable_eq_all, perm.all_eq]
  have beside := perm.filter (not ∘ fun field => decide (field.1 = "kind"))
  have kinds := perm.filter fun field => decide (field.1 = "kind")
  simp only [ofDocument?, readable, List.partition_eq_filter_filter]
  generalize fields.filter (fun field => decide (field.1 = "kind")) = first at kinds ⊢
  generalize others.filter (fun field => decide (field.1 = "kind")) = second at kinds ⊢
  match first, kinds with
  | [], kinds =>
    obtain rfl := kinds.nil_eq
    rfl
  | [(key, content)], kinds =>
    obtain rfl := List.singleton_perm.mp kinds
    cases content with
    | text kind => simp only [ofContent?_perm beside kind]
    | _ => rfl
  | _ :: _ :: _, kinds =>
    match second, kinds.length_eq with
    | _ :: _ :: _, _ => simp only

end Criteria

/-! ## Reading what is left -/

namespace Layout

variable {known : List String} {inner : String → Layout} {deleted : Deletion}

/-- Under every name two records have contents of which one is the other rearranged. -/
def Agree (inner : String → Layout) (fields others : Fields) : Prop :=
  ∀ name, Option.Rel (inner name).Rearranges (fields.lookup name) (others.lookup name)

theorem agree_of_lookup_eq {fields others : Fields}
    (same : ∀ name, fields.lookup name = others.lookup name) : Agree inner fields others := by
  intro name
  rw [same name]
  cases others.lookup name with
  | none => exact .none
  | some content => exact .some (.refl _ content)

theorem Agree.trans {first second third : Fields} (left : Agree inner first second)
    (right : Agree inner second third) : Agree inner first third := by
  intro name
  have before := left name
  have after := right name
  generalize first.lookup name = content at before ⊢
  generalize second.lookup name = between at before after
  generalize third.lookup name = last at after ⊢
  cases before with
  | none => exact after
  | some alike =>
    cases after with
    | some alikeToo => exact .some (alike.trans alikeToo)

theorem agree_inside {key : String} {first second : Document}
    (part : Rearranges (inner key) first second) (before after : Fields) :
    Agree inner (before ++ (key, first) :: after) (before ++ (key, second) :: after) := by
  intro name
  rw [List.lookup_append, List.lookup_append]
  cases before.lookup name with
  | some content => exact .some (.refl _ content)
  | none =>
    by_cases here : name = key
    · subst here
      simpa using Option.Rel.some part
    · simp only [Option.none_or, List.lookup_cons, beq_false_of_ne here]
      exact agree_of_lookup_eq (fun _ => rfl) name

/-- Two documents are the same, or they are records of which both or neither can be read, and then
with contents that agree. -/
def Match (known : List String) (inner : String → Layout) (first second : Document) : Prop :=
  first = second ∨ ∃ fields others : Fields, first = .record fields ∧ second = .record others ∧
    Option.Rel (Agree inner) (known? known fields) (known? known others)

theorem Match.trans {first second third : Document} (left : Match known inner first second)
    (right : Match known inner second third) : Match known inner first third := by
  rcases left with rfl | ⟨fields, others, rfl, rfl, before⟩
  · exact right
  · rcases right with rfl | ⟨_, last, same, rfl, after⟩
    · exact Or.inr ⟨fields, others, rfl, rfl, before⟩
    · obtain rfl := Document.record.inj same
      refine Or.inr ⟨fields, last, rfl, rfl, ?_⟩
      generalize known? known fields = found at before ⊢
      generalize known? known others = between at before after
      generalize known? known last = foundLast at after ⊢
      cases before with
      | none => exact after
      | some agree =>
        cases after with
        | some agreeToo => exact .some (agree.trans agreeToo)

theorem match_reorder {fields others : Fields} (perm : fields.Perm others) :
    Match known inner (.record fields) (.record others) := by
  refine Or.inr ⟨fields, others, rfl, rfl, ?_⟩
  have found := Document.known?_perm known perm
  generalize known? known fields = left at found ⊢
  generalize known? known others = right at found ⊢
  cases found with
  | none => exact .none
  | some same => exact .some (agree_of_lookup_eq same)

theorem match_unknown {fields : Fields} {key : String} (content : Document)
    (unknown : key ∉ known) :
    Match known inner (.record fields) (.record ((key, content) :: fields)) := by
  refine Or.inr ⟨fields, _, rfl, rfl, ?_⟩
  have same : known? known ((key, content) :: fields) = known? known fields := by
    simp [Document.known?, unknown]
  rw [same]
  cases known? known fields with
  | none => exact .none
  | some found => exact .some (agree_of_lookup_eq fun _ => rfl)

theorem match_inside {key : String} {first second : Document}
    (part : Rearranges (inner key) first second) (before after : Fields) :
    Match known inner (.record (before ++ (key, first) :: after))
      (.record (before ++ (key, second) :: after)) := by
  refine Or.inr ⟨_, _, rfl, rfl, ?_⟩
  unfold Document.known?
  simp only [List.filter_append, List.filter_cons]
  by_cases here : known.contains key = true
  · simp only [here, if_true, List.map_append, List.map_cons]
    split
    · exact .some (agree_inside part _ _)
    · exact .none
  · simp only [here, if_false, Bool.false_eq_true]
    split
    · exact .some (agree_of_lookup_eq fun _ => rfl)
    · exact .none

theorem Rearranges.match {first second : Document}
    (h : Rearranges (table known inner) first second) : Match known inner first second := by
  generalize shape : table known inner = layout at h
  induction h with
  | refl => exact Or.inl rfl
  | trans _ _ left right => exact (left shape).trans (right shape)
  | shuffle => contradiction
  | reorder perm =>
    obtain ⟨rfl, rfl⟩ := Layout.table.inj shape
    exact match_reorder perm
  | unknown content unknown =>
    obtain ⟨rfl, rfl⟩ := Layout.table.inj shape
    exact match_unknown content unknown
  | inside before after part _ =>
    obtain ⟨rfl, rfl⟩ := Layout.table.inj shape
    exact match_inside part before after

theorem Rearranges.eq_of_value {first second : Document} (h : Rearranges value first second) :
    first = second := by
  generalize shape : value = layout at h
  induction h with
  | refl => rfl
  | trans _ _ left right => exact (left shape).trans (right shape)
  | shuffle => contradiction
  | reorder => contradiction
  | unknown => contradiction
  | inside => contradiction

theorem Rearranges.criteria_eq {first second : Document} (h : Rearranges record first second) :
    Criteria.ofDocument? first = Criteria.ofDocument? second := by
  generalize shape : record = layout at h
  induction h with
  | refl => rfl
  | trans _ _ left right => exact (left shape).trans (right shape)
  | shuffle perm => exact Criteria.ofDocument?_perm perm
  | reorder => contradiction
  | unknown => contradiction
  | inside => contradiction

/-! ## Tables with defaults -/

variable {α : Type} {entries? : List String → Document → Option Fields}

/-- A reader of entries takes the known entries of a record. -/
def TakesKnown (entries? : List String → Document → Option Fields) : Prop :=
  ∀ names fields, entries? names (.record fields) = known? names fields

/-- What depends on the known entries only is the same for a document and one that is rearranged. -/
theorem Rearranges.bind_eq (takes : TakesKnown entries?) {first second : Document}
    (h : Rearranges (table known inner) first second) {body : Fields → Option α}
    (reads : ∀ fields others, Agree inner fields others → body fields = body others) :
    (entries? known first).bind body = (entries? known second).bind body := by
  rcases h.match with rfl | ⟨fields, others, rfl, rfl, found⟩
  · rfl
  · rw [takes, takes]
    generalize known? known fields = left at found ⊢
    generalize known? known others = right at found ⊢
    cases found with
    | none => rfl
    | some agree => exact reads _ _ agree

/-- An entry is read from both of two records that agree, if rearranging it does not change what is
read from it. -/
theorem Agree.orDefault?_eq {fields others : Fields} (h : Agree inner fields others) (name : String)
    (default : α) {read : Document → Option α}
    (same : ∀ first second, (inner name).Rearranges first second → read first = read second) :
    fields.orDefault? name default read = others.orDefault? name default read :=
  Fields.orDefault?_congr same (h name) default

theorem Agree.orDefault?_value {fields others : Fields} (h : Agree inner fields others)
    {name : String} (plain : inner name = value) (default : α) (read : Document → Option α) :
    fields.orDefault? name default read = others.orDefault? name default read :=
  h.orDefault?_eq name default fun _ _ same =>
    congrArg read (Rearranges.eq_of_value (plain ▸ same))

def pruned (inner : String → Layout) (deleted : Deletion) (fields : Fields) : Fields :=
  (fields.filter fun field => !deleted [field.1]).map fun field =>
    (field.1, (inner field.1).prune (deleted.below field.1) field.2)

theorem lookup_pruned (fields : Fields) (name : String) :
    (pruned inner deleted fields).lookup name =
      if deleted [name] then none
      else (fields.lookup name).map ((inner name).prune (deleted.below name)) := by
  unfold pruned
  induction fields with
  | nil => simp
  | cons field rest ih =>
    obtain ⟨key, content⟩ := field
    by_cases here : name = key
    · subst here
      by_cases gone : deleted [name] = true
      · simpa [gone] using ih
      · simp [gone]
    · by_cases gone : deleted [key] = true
      · simpa [gone, List.lookup_cons, beq_false_of_ne here] using ih
      · simpa [gone, List.lookup_cons, beq_false_of_ne here] using ih

theorem orDefault?_pruned (fields : Fields) (name : String) (default : α)
    (read : Document → Option α) :
    (pruned inner deleted fields).orDefault? name default read =
      if deleted [name] then some default
      else fields.orDefault? name default fun content =>
        read ((inner name).prune (deleted.below name) content) := by
  unfold Fields.orDefault?
  rw [lookup_pruned]
  by_cases gone : deleted [name] = true
  · simp [gone]
  · simp only [gone, if_false, Bool.false_eq_true]
    cases fields.lookup name <;> rfl

/-- Of a record that had the known keys, each once, all entries that are left are found. -/
theorem entries?_prune (takes : TakesKnown entries?) {fields : Fields}
    (keys : fields.map Prod.fst = known) (distinct : known.Nodup) :
    entries? known ((table known inner).prune deleted (.record fields)) =
      some (pruned inner deleted fields) := by
  have names : (pruned inner deleted fields).map Prod.fst =
      (fields.filter fun field => !deleted [field.1]).map Prod.fst := by
    simp [pruned]
  have fewer : ((fields.filter fun field => !deleted [field.1]).map Prod.fst).Sublist known :=
    keys ▸ List.filter_sublist.map Prod.fst
  rw [prune, takes]
  exact Document.known?_of_sublist (names ▸ fewer) distinct

end Layout

/-! ## The journal -/

namespace JournalSettings

def keys : List String :=
  ["enabled", "retention_ms", "cleanup_every_ticks", "clean_on_success"]

def layout : Layout := .table keys fun _ => .value

/-- The settings with standard values where an entry was deleted. -/
def defaulted (settings : JournalSettings) (deleted : Deletion) : JournalSettings where
  enabled := if deleted ["enabled"] then standard.enabled else settings.enabled
  retention := if deleted ["retention_ms"] then standard.retention else settings.retention
  purgeEvery := if deleted ["cleanup_every_ticks"] then standard.purgeEvery else settings.purgeEvery
  clearOnSuccess :=
    if deleted ["clean_on_success"] then standard.clearOnSuccess else settings.clearOnSuccess

variable {entries? : List String → Document → Option Fields} (takes : Layout.TakesKnown entries?)

include takes

theorem read?_prune (settings : JournalSettings) (deleted : Deletion) :
    read? entries? (layout.prune deleted settings.toDocument) =
      some (settings.defaulted deleted) := by
  rw [read?, layout, toDocument, ← keys, Layout.entries?_prune takes (by rfl) (by simp [keys])]
  simp [Layout.orDefault?_pruned, Fields.orDefault?_cons, Layout.prune, defaulted, Document.bool?,
    ← apply_ite some]

theorem read?_eq_of_rearranges {first second : Document} (h : layout.Rearranges first second) :
    read? entries? first = read? entries? second := by
  refine h.bind_eq takes fun fields others agree => ?_
  have same {α : Type} (name : String) (default : α) (read : Document → Option α) :
      fields.orDefault? name default read = others.orDefault? name default read :=
    agree.orDefault?_value rfl default read
  simp only [same]

end JournalSettings

/-! ## The scheduler -/

namespace Settings

def layout : Layout := .table keys fun key =>
  if key = "history" then JournalSettings.layout else if key = "criteria" then .record else .value

def defaulted (settings : Settings) (deleted : Deletion) : Settings where
  tickInterval :=
    if deleted ["tick_interval_ms"] then standard.tickInterval else settings.tickInterval
  maxTransfers :=
    if deleted ["max_peers_downloading"] then standard.maxTransfers else settings.maxTransfers
  maxMegabytes :=
    if deleted ["max_mb_in_parallel"] then standard.maxMegabytes else settings.maxMegabytes
  maxIdle := if deleted ["max_idle_timeout_ms"] then standard.maxIdle else settings.maxIdle
  maxTransferTime :=
    if deleted ["max_download_timeout_ms"] then standard.maxTransferTime
    else settings.maxTransferTime
  maxAttempts :=
    if deleted ["max_download_attempts"] then standard.maxAttempts else settings.maxAttempts
  limboTimeout :=
    if deleted ["inactivity_timeout_to_fail_ms"] then standard.limboTimeout
    else settings.limboTimeout
  discardTimeout :=
    if deleted ["retry_discarded_blocks_timeout_ms"] then standard.discardTimeout
    else settings.discardTimeout
  failureCooldown :=
    if deleted ["failure_cooldown_ms"] then standard.failureCooldown else settings.failureCooldown
  criteria := if deleted ["criteria"] then standard.criteria else settings.criteria
  journal :=
    if deleted ["history"] then standard.journal
    else settings.journal.defaulted (deleted.below "history")

variable {entries? : List String → Document → Option Fields} (takes : Layout.TakesKnown entries?)

include takes

theorem read?_prune (settings : Settings) (deleted : Deletion) :
    read? entries? (layout.prune deleted settings.toDocument) =
      some (settings.defaulted deleted) := by
  rw [read?, layout, toDocument, Layout.entries?_prune takes (by rfl) (by simp [keys])]
  simp [Layout.orDefault?_pruned, Fields.orDefault?_cons, Layout.prune, defaulted,
    Criteria.ofDocument?_toDocument, JournalSettings.read?_prune takes, ← apply_ite some]

theorem read?_eq_of_rearranges {first second : Document} (h : layout.Rearranges first second) :
    read? entries? first = read? entries? second := by
  refine h.bind_eq takes fun fields others agree => ?_
  have criteria : fields.orDefault? "criteria" standard.criteria Criteria.ofDocument? =
      others.orDefault? "criteria" standard.criteria Criteria.ofDocument? :=
    agree.orDefault?_eq "criteria" _ fun _ _ same => Layout.Rearranges.criteria_eq same
  have journal : fields.orDefault? "history" standard.journal (JournalSettings.read? entries?) =
      others.orDefault? "history" standard.journal (JournalSettings.read? entries?) :=
    agree.orDefault?_eq "history" _ fun _ _ => JournalSettings.read?_eq_of_rearranges takes
  simp (disch := simp) only [agree.orDefault?_value, criteria, journal]

end Settings

/-! ## The node -/

namespace NodeSettings

def layout : Layout :=
  .table ["log_level", "state_log_interval_secs", "initial_blocks", "download"] fun key =>
    if key = "download" then Settings.layout else .value

def defaulted (settings : NodeSettings) (deleted : Deletion) : NodeSettings where
  logLevel := if deleted ["log_level"] then standard.logLevel else settings.logLevel
  reportInterval :=
    if deleted ["state_log_interval_secs"] then standard.reportInterval
    else settings.reportInterval
  initialBlocks :=
    if deleted ["initial_blocks"] then standard.initialBlocks else settings.initialBlocks
  scheduler :=
    if deleted ["download"] then standard.scheduler
    else settings.scheduler.defaulted (deleted.below "download")

variable {entries? : List String → Document → Option Fields} (takes : Layout.TakesKnown entries?)

include takes

theorem read?_prune (settings : NodeSettings) (deleted : Deletion) :
    read? entries? (layout.prune deleted settings.toDocument) =
      some (settings.defaulted deleted) := by
  rw [read?, layout, toDocument, Layout.entries?_prune takes (by rfl) (by simp)]
  simp [Layout.orDefault?_pruned, Fields.orDefault?_cons, Layout.prune, defaulted, Document.text?,
    BlockHash.list?_toDocument, Settings.read?_prune takes, ← apply_ite some]

theorem read?_eq_of_rearranges {first second : Document} (h : layout.Rearranges first second) :
    read? entries? first = read? entries? second := by
  refine h.bind_eq takes fun fields others agree => ?_
  have scheduler : fields.orDefault? "download" standard.scheduler (Settings.read? entries?) =
      others.orDefault? "download" standard.scheduler (Settings.read? entries?) :=
    agree.orDefault?_eq "download" _ fun _ _ => Settings.read?_eq_of_rearranges takes
  simp (disch := simp) only [agree.orDefault?_value, scheduler]

end NodeSettings

/-! ## Partial documents -/

theorem takesKnown_partialFields : Layout.TakesKnown Document.partialFields? := fun _ _ => rfl

theorem takesKnown_leadingFields : Layout.TakesKnown Document.leadingFields? := fun _ _ => rfl

theorem Settings.read?_eq_defaulted {entries? : List String → Document → Option Fields}
    (takes : Layout.TakesKnown entries?) {deleted : Deletion} {document : Document}
    {settings : Settings}
    (h : layout.Rearranges (layout.prune deleted settings.toDocument) document) :
    read? entries? document = some (settings.defaulted deleted) :=
  (read?_eq_of_rearranges takes h).symm.trans (settings.read?_prune takes deleted)

theorem NodeSettings.read?_eq_defaulted {entries? : List String → Document → Option Fields}
    (takes : Layout.TakesKnown entries?) {deleted : Deletion} {document : Document}
    {settings : NodeSettings}
    (h : layout.Rearranges (layout.prune deleted settings.toDocument) document) :
    read? entries? document = some (settings.defaulted deleted) :=
  (read?_eq_of_rearranges takes h).symm.trans (settings.read?_prune takes deleted)

/-- Whatever entries are deleted from the document of settings, in whatever order the others stand
and whatever unknown entries are added, the document is read as the settings with standard values
for what was deleted: by the reader of messages, by the one of files, and as a text that is such a
document. -/
theorem partial_documents (deleted : Deletion) (document : Document) :
    (∀ settings : Settings,
      Settings.layout.Rearranges (Settings.layout.prune deleted settings.toDocument) document →
        Settings.ofDocument? document = some (settings.defaulted deleted) ∧
        Settings.ofFile? document = some (settings.defaulted deleted)) ∧
    ∀ settings : NodeSettings,
      NodeSettings.layout.Rearranges (NodeSettings.layout.prune deleted settings.toDocument)
          document →
        NodeSettings.ofDocument? document = some (settings.defaulted deleted) ∧
        NodeSettings.ofFile? document = some (settings.defaulted deleted) ∧
        ∀ text, Document.ofToml? text = some document →
          NodeSettings.ofToml text = .ok (settings.defaulted deleted) := by
  refine ⟨fun settings h => ⟨?_, ?_⟩, fun settings h => ?_⟩
  · exact Settings.read?_eq_defaulted takesKnown_partialFields h
  · exact Settings.read?_eq_defaulted takesKnown_leadingFields h
  · have file : NodeSettings.ofFile? document = some (settings.defaulted deleted) :=
      NodeSettings.read?_eq_defaulted takesKnown_leadingFields h
    refine ⟨NodeSettings.read?_eq_defaulted takesKnown_partialFields h, file, fun text found => ?_⟩
    rw [NodeSettings.ofToml, found, Option.bind_some, file]

/-- Two entries are left, one of them in the table of the scheduler; they have changed places, and
an entry that nobody knows stands before them. -/
theorem partial_documents_two_entries :
    NodeSettings.ofFile? (.record [
      ("color", .text "blue"),
      ("download", .record [("max_peers_downloading", .integer 8)]),
      ("log_level", .text "debug")]) =
        some { NodeSettings.standard with
          logLevel := "debug"
          scheduler := { Settings.standard with maxTransfers := 8 } } := by
  let settings : NodeSettings := { NodeSettings.standard with
    logLevel := "debug"
    scheduler := { Settings.brisk with maxTransfers := 8 } }
  let deleted : Deletion := fun path =>
    path ∉ [["log_level"], ["download"], ["download", "max_peers_downloading"]]
  have rearranged : NodeSettings.layout.Rearranges
      (NodeSettings.layout.prune deleted settings.toDocument) (.record [
        ("color", .text "blue"),
        ("download", .record [("max_peers_downloading", .integer 8)]),
        ("log_level", .text "debug")]) :=
    .trans (.reorder (.swap _ _ _)) (.unknown _ (by simp))
  exact ((partial_documents deleted _).2 settings rearranged).2.1

end BlockFetch
