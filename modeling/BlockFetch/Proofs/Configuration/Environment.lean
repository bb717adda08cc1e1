import BlockFetch.NodeSettings
import BlockFetch.Proofs.Text.Numerals
import BlockFetch.Scheduler.Basic

/-!
# Settings from the environment

Six settings of a node can be replaced by variables of its environment, each by its own. What a
variable says counts if it can be read as a value of the setting, and nothing else changes. The
limits are checked after that, so a variable can break the limits of a file as well as mend them.
-/
namespace BlockFetch

/-! ## Limits that cannot be used -/

namespace Settings

/-- The first rule that settings break: a limit that has to be positive is zero and no earlier one
is, or no limit is zero and a transfer is idle later than too long. -/
inductive Breaks (settings : Settings) : Error → Prop
  | zero {before after : List (String × Nat)} {field : String}
    (limits : settings.positiveLimits = before ++ (field, 0) :: after)
    (first : ∀ limit ∈ before, limit.2 ≠ 0) : Breaks settings (.mustBePositive field)
  | idle (positive : ∀ limit ∈ settings.positiveLimits, limit.2 ≠ 0)
    (longer : settings.maxTransferTime < settings.maxIdle) :
    Breaks settings (.inconsistent
      s!"max_idle_timeout_ms ({settings.maxIdle.toNat}) exceeds max_download_timeout_ms ({settings.maxTransferTime.toNat})")

def IsUsable (settings : Settings) : Prop :=
  (∀ limit ∈ settings.positiveLimits, limit.2 ≠ 0) ∧ settings.maxIdle ≤ settings.maxTransferTime

theorem Breaks.check_eq {settings : Settings} {error : Error} (h : settings.Breaks error) :
    settings.check = .error error := by
  cases h with
  | zero limits first =>
    have found : settings.positiveLimits.find? (fun limit => limit.2 = 0) = some (_, 0) :=
      List.find?_eq_some_iff_append.mpr ⟨rfl, _, _, limits, by simpa using first⟩
    rw [check, found]
  | idle positive longer =>
    have none_found : settings.positiveLimits.find? (fun limit => limit.2 = 0) = none :=
      List.find?_eq_none.mpr (by simpa using positive)
    rw [check, none_found]
    exact if_pos longer

/-- What the check reports is the first rule that is broken. -/
theorem check_eq_error_iff {settings : Settings} {error : Error} :
    settings.check = .error error ↔ settings.Breaks error := by
  refine ⟨fun rejected => ?_, Breaks.check_eq⟩
  unfold check at rejected
  split at rejected
  · rename_i field value found
    obtain ⟨zero, before, after, limits, first⟩ := List.find?_eq_some_iff_append.mp found
    obtain rfl : value = 0 := of_decide_eq_true zero
    cases rejected
    exact .zero limits (by simpa using first)
  · rename_i none_found
    have positive := List.find?_eq_none.mp none_found
    split at rejected
    · rename_i longer
      cases rejected
      exact .idle (by simpa using positive) longer
    · cases rejected

end Settings

namespace NodeSettings

/-! ## Numbers -/

/-- A text spells a number in decimal digits, with or without a plus sign before them. -/
def Spells (text : String) (n : Nat) : Prop :=
  ∃ digits : List Nat, digits ≠ [] ∧ (∀ digit ∈ digits, digit < 10) ∧
    (text.toList = digits.map Nat.digitChar ∨ text.toList = '+' :: digits.map Nat.digitChar) ∧
    n = Nat.ofDigits 10 digits.reverse

def unsigned : List Char → List Char
  | '+' :: rest => rest
  | chars => chars

theorem unsigned_map_digitChar {digits : List Nat} (small : ∀ digit ∈ digits, digit < 10) :
    unsigned (digits.map Nat.digitChar) = digits.map Nat.digitChar := by
  unfold unsigned
  split
  · rename_i rest same
    have digit : Reading.isDigit 10 '+' = true :=
      List.all_eq_true.mp (Reading.all_isDigit_iff.mpr ⟨digits, small, rfl⟩) '+' (by simp [same])
    exact absurd digit (by decide)
  · rfl

theorem eq_unsigned (chars : List Char) :
    chars = unsigned chars ∨ chars = '+' :: unsigned chars := by
  unfold unsigned
  split
  · exact Or.inr rfl
  · exact Or.inl rfl

theorem spells_iff {text : String} {n : Nat} :
    Spells text n ↔ unsigned text.toList ≠ [] ∧
      (unsigned text.toList).all (Reading.isDigit 10) = true ∧
      n = Reading.numeral 10 (unsigned text.toList) := by
  constructor
  · rintro ⟨digits, some_digit, small, written, rfl⟩
    have left : unsigned text.toList = digits.map Nat.digitChar := by
      rcases written with plain | signed
      · rw [plain, unsigned_map_digitChar small]
      · rw [signed, unsigned]
    rw [left]
    exact ⟨by simpa using some_digit, Reading.all_isDigit_iff.mpr ⟨digits, small, rfl⟩,
      (Reading.numeral_map_digitChar small).symm⟩
  · rintro ⟨some_digit, all, rfl⟩
    obtain ⟨digits, small, same⟩ := Reading.all_isDigit_iff.mp all
    refine ⟨digits, ?_, small, ?_, ?_⟩
    · rintro rfl
      exact some_digit same
    · rw [← same]
      exact eq_unsigned text.toList
    · rw [same, Reading.numeral_map_digitChar small]

/-- A number is read if it is spelled and below the bound. -/
theorem number?_eq_some_iff {bound n : Nat} {text : String} :
    number? bound text = some n ↔ Spells text n ∧ n < bound := by
  have read : number? bound text =
      if !(unsigned text.toList).isEmpty && (unsigned text.toList).all (Reading.isDigit 10) &&
        Reading.numeral 10 (unsigned text.toList) < bound
      then some (Reading.numeral 10 (unsigned text.toList)) else none := rfl
  rw [read, spells_iff, Option.ite_none_right_eq_some, Option.some_inj]
  simp only [Bool.and_eq_true, Bool.not_eq_true', decide_eq_true_eq, ne_eq,
    List.isEmpty_eq_false_iff]
  constructor
  · rintro ⟨⟨⟨some_digit, all⟩, fits⟩, rfl⟩
    exact ⟨⟨some_digit, all, rfl⟩, fits⟩
  · rintro ⟨⟨some_digit, all, rfl⟩, fits⟩
    exact ⟨⟨⟨some_digit, all⟩, fits⟩, rfl⟩

/-! ## What variables replace -/

/-- The settings that variables of the environment can replace. -/
inductive Replaceable where
  | logLevel
  | reportInterval
  | tickInterval
  | maxTransfers
  | maxMegabytes
  | maxAttempts
  deriving DecidableEq

namespace Replaceable

def variableName : Replaceable → String
  | logLevel => "QC_LOG_LEVEL"
  | reportInterval => "QC_STATE_LOG_INTERVAL_SECS"
  | tickInterval => "QC_TICK_INTERVAL_MS"
  | maxTransfers => "QC_MAX_PEERS_DOWNLOADING"
  | maxMegabytes => "QC_MAX_MB_IN_PARALLEL"
  | maxAttempts => "QC_MAX_DOWNLOAD_ATTEMPTS"

def value (settings : NodeSettings) : Replaceable → Document
  | logLevel => .text settings.logLevel
  | reportInterval => .ofUInt64 settings.reportInterval
  | tickInterval => .ofUInt64 settings.scheduler.tickInterval
  | maxTransfers => .ofUInt64 settings.scheduler.maxTransfers
  | maxMegabytes => .ofUInt64 settings.scheduler.maxMegabytes
  | maxAttempts => .ofUInt32 settings.scheduler.maxAttempts

/-- A text gives a setting a value: the level is the text itself, and a number has to be in the
range of its type. -/
def Gives (text : String) : Replaceable → Document → Prop
  | logLevel, value => value = .text text
  | maxAttempts, value => ∃ n < UInt32.size, Spells text n ∧ value = .ofNat n
  | _, value => ∃ n < UInt64.size, Spells text n ∧ value = .ofNat n

def given? (text : String) : Replaceable → Option Document
  | logLevel => some (.text text)
  | maxAttempts => (number? UInt32.size text).map .ofNat
  | _ => (number? UInt64.size text).map .ofNat

theorem map_number?_eq_some_iff {bound : Nat} {text : String} {value : Document} :
    (number? bound text).map .ofNat = some value ↔
      ∃ n < bound, Spells text n ∧ value = .ofNat n := by
  simp only [Option.map_eq_some_iff, number?_eq_some_iff]
  constructor
  · rintro ⟨n, ⟨spelled, fits⟩, rfl⟩
    exact ⟨n, fits, spelled, rfl⟩
  · rintro ⟨n, fits, spelled, rfl⟩
    exact ⟨n, ⟨spelled, fits⟩, rfl⟩

theorem given?_eq_some_iff {text : String} {value : Document} (field : Replaceable) :
    field.given? text = some value ↔ field.Gives text value := by
  cases field with
  | logLevel => exact Option.some_inj.trans eq_comm
  | _ => exact map_number?_eq_some_iff

end Replaceable

/-- A number that is read replaces the old value, as a value of any type that holds the numbers
below the bound. -/
theorem write_getD {α : Type} {bound : Nat} (hold : Nat → α) (write : α → Document)
    (holds : ∀ n < bound, write (hold n) = .ofNat n) (text? : Option String) (old : α) :
    write (((text?.bind (number? bound)).map hold).getD old) =
      (text?.bind fun text => (number? bound text).map .ofNat).getD (write old) := by
  cases text? with
  | none => rfl
  | some text =>
    rw [Option.bind_some, Option.bind_some]
    cases found : number? bound text with
    | none => rfl
    | some n => exact holds n (number?_eq_some_iff.mp found).2

theorem ofUInt64_toUInt64 (n : Nat) (fits : n < UInt64.size) :
    Document.ofUInt64 n.toUInt64 = .ofNat n :=
  congrArg Document.ofNat (UInt64.toNat_ofNat_of_lt' fits)

theorem ofUInt32_toUInt32 (n : Nat) (fits : n < UInt32.size) :
    Document.ofUInt32 n.toUInt32 = .ofNat n :=
  congrArg Document.ofNat (UInt32.toNat_ofNat_of_lt' fits)

theorem getD_getD {α : Type} (given? : Option α) (old : α) :
    given?.getD (given?.getD old) = given?.getD old := by
  cases given? <;> rfl

/-- The new value is what the variable gives, or else the old one. -/
theorem value_override (settings : NodeSettings) (lookup : String → Option String)
    (field : Replaceable) :
    field.value (settings.override lookup) =
      ((lookup field.variableName).bind fun text => field.given? text).getD
        (field.value settings) := by
  cases field with
  | logLevel =>
    simp only [Replaceable.value, override, Replaceable.variableName]
    cases lookup "QC_LOG_LEVEL" <;> rfl
  | maxAttempts => exact write_getD _ _ ofUInt32_toUInt32 _ _
  | _ => exact write_getD _ _ ofUInt64_toUInt64 _ _

theorem override_override (settings : NodeSettings) (lookup : String → Option String) :
    (settings.override lookup).override lookup = settings.override lookup := by
  simp only [override, overrideUInt64, overrideUInt32, getD_getD]

/-- Settings with older values of what variables can replace. -/
def restore (settings old : NodeSettings) : NodeSettings :=
  { settings with
    logLevel := old.logLevel
    reportInterval := old.reportInterval
    scheduler := { settings.scheduler with
      tickInterval := old.scheduler.tickInterval
      maxTransfers := old.scheduler.maxTransfers
      maxMegabytes := old.scheduler.maxMegabytes
      maxAttempts := old.scheduler.maxAttempts } }

def configured (lookup readFile : String → Option String) : Except NodeError NodeSettings :=
  match lookup pathVariable with
  | none => .ok standard
  | some path =>
    match readFile path with
    | none => .error (.fileUnreadable path)
    | some text => ofToml text

/-- The limits are checked once, after the variables were looked up. -/
theorem load_eq (lookup readFile : String → Option String) :
    load lookup readFile = (configured lookup readFile).bind fun loaded =>
      match (loaded.override lookup).scheduler.check with
      | .ok () => .ok (loaded.override lookup)
      | .error cause => .error (.settingsRejected cause) := by
  unfold load configured
  cases lookup pathVariable with
  | none => rfl
  | some path =>
    dsimp only
    cases readFile path <;> rfl

theorem load_eq_ok {lookup readFile : String → Option String} {loaded : NodeSettings}
    (found : configured lookup readFile = .ok loaded)
    (accepted : (loaded.override lookup).scheduler.check = .ok ()) :
    load lookup readFile = .ok (loaded.override lookup) := by
  rw [load_eq, found, Except.bind, accepted]

theorem load_eq_error {lookup readFile : String → Option String} {loaded : NodeSettings}
    {cause : Settings.Error} (found : configured lookup readFile = .ok loaded)
    (rejected : (loaded.override lookup).scheduler.check = .error cause) :
    load lookup readFile = .error (.settingsRejected cause) := by
  rw [load_eq, found, Except.bind, rejected]

theorem check_of_load {lookup readFile : String → Option String} {settings : NodeSettings}
    (accepted : load lookup readFile = .ok settings) : settings.scheduler.check = .ok () := by
  rw [load_eq] at accepted
  cases found : configured lookup readFile with
  | error error =>
    rw [found] at accepted
    cases accepted
  | ok loaded =>
    rw [found, Except.bind] at accepted
    cases checked : (loaded.override lookup).scheduler.check with
    | error cause =>
      rw [checked] at accepted
      cases accepted
    | ok =>
      rw [checked] at accepted
      exact Except.ok.inj accepted ▸ checked

/-- Variables replace the settings they are made for, if they can be read, and nothing else, and to
look them up again changes nothing. A node never starts with limits that its scheduler refuses.
Limits that can be used after the variables were looked up are accepted, and others are always
reported, by the first rule that they break. -/
theorem replaces_and_checks (lookup readFile : String → Option String) :
    (∀ settings : NodeSettings,
      (settings.override lookup).restore settings = settings ∧
      (settings.override lookup).override lookup = settings.override lookup ∧
      ∀ field : Replaceable,
        (∀ text value, lookup field.variableName = some text → field.Gives text value →
          field.value (settings.override lookup) = value) ∧
        ((∀ text value, lookup field.variableName = some text → ¬field.Gives text value) →
          field.value (settings.override lookup) = field.value settings) ∧
        ∀ (other : String → Option String) (others : NodeSettings),
          other field.variableName = lookup field.variableName →
          field.value others = field.value settings →
            field.value (others.override other) = field.value (settings.override lookup)) ∧
    (∀ settings : NodeSettings, load lookup readFile = .ok settings →
      settings.scheduler.IsUsable ∧
      ∀ streams, Scheduler.create settings.scheduler streams =
        .ok (.initial settings.scheduler streams)) ∧
    ∀ loaded : NodeSettings, configured lookup readFile = .ok loaded →
      ((loaded.override lookup).scheduler.IsUsable →
        load lookup readFile = .ok (loaded.override lookup)) ∧
      (¬(loaded.override lookup).scheduler.IsUsable →
        ∃ cause, (loaded.override lookup).scheduler.Breaks cause ∧
          load lookup readFile = .error (.settingsRejected cause)) := by
  refine ⟨fun settings => ⟨rfl, override_override settings lookup, fun field => ⟨?_, ?_, ?_⟩⟩,
    fun settings accepted => ?_, fun loaded found => ⟨fun usable => ?_, fun broken => ?_⟩⟩
  · intro text value present given
    rw [value_override, present, Option.bind_some, field.given?_eq_some_iff.mpr given,
      Option.getD_some]
  · intro useless
    have nothing : ((lookup field.variableName).bind fun text => field.given? text) = none :=
      Option.eq_none_iff_forall_ne_some.mpr fun value given => by
        obtain ⟨text, present, gives⟩ := Option.bind_eq_some_iff.mp given
        exact useless text value present (field.given?_eq_some_iff.mp gives)
    rw [value_override, nothing, Option.getD_none]
  · intro other others sameVariable sameOld
    rw [value_override, value_override, sameVariable, sameOld]
  · have checked := check_of_load accepted
    exact ⟨settings.scheduler.check_eq_ok_iff.mp checked, fun streams => by
      rw [Scheduler.create, checked]⟩
  · exact load_eq_ok found ((Settings.check_eq_ok_iff _).mpr usable)
  · cases checked : (loaded.override lookup).scheduler.check with
    | ok => exact absurd ((Settings.check_eq_ok_iff _).mp checked) broken
    | error cause =>
      exact ⟨cause, Settings.check_eq_error_iff.mp checked, load_eq_error found checked⟩

example :
    load (fun name => if name = "QC_TICK_INTERVAL_MS" then some "+0" else none) (fun _ => none) =
      .error (.settingsRejected (.mustBePositive "tick_interval_ms")) := by
  rfl

end NodeSettings
end BlockFetch
