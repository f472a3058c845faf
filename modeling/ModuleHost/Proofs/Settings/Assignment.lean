import Mathlib.Data.List.TakeDrop
import Mathlib.Data.List.TakeWhile
import ModuleHost.Settings

namespace ModuleHost
namespace Settings

/-!
# What a token assigns

A token assigns to a key if it is the name of the key, an equals sign and any text; every
other token is idle.  The text is read for its key: a number for four of them, a threshold for
the last.  An assignment changes the value of its key and nothing else, or it is refused with
the key and the text as they stand.  All this holds whatever names thresholds go by.
-/

/-- What a key is set to. -/
inductive Value
  | number (number : Nat)
  | threshold (threshold : Threshold)

/-- The value that a text has for a key. -/
def Key.read? [LevelNames] : Key → List Char → Option Value
  | .threshold, text => (threshold? text).map .threshold
  | _, text => (number? text).map .number

/-- The value of a key in the settings. -/
def value (settings : Settings) : Key → Value
  | .textBase => .number settings.text.base
  | .textSize => .number settings.text.size
  | .dataBase => .number settings.data.base
  | .dataSize => .number settings.data.size
  | .threshold => .threshold settings.threshold

/-- The settings afterwards have a value for a key, and all else from the settings before. -/
structure Sets (before : Settings) (key : Key) (value : Value) (after : Settings) : Prop where
  here : after.value key = value
  others : ∀ other, other ≠ key → after.value other = before.value other
  machine : after.machine = before.machine

/-- The token that assigns a text to a key. -/
def Key.token (key : Key) (text : List Char) : List Char :=
  key.name.toList ++ '=' :: text

/-- A token that assigns to none of the keys: it has no equals sign, or another name before
the first one. -/
def Idle (token : List Char) : Prop :=
  '=' ∉ token ∨ ∃ name text, token = name ++ '=' :: text ∧ '=' ∉ name ∧
    ∀ key : Key, name ≠ key.name.toList

variable {settings middle after : Settings} {key : Key} {text : List Char}

/-! ## Values -/

/-- The settings are the values of the keys and the machine. -/
theorem ext_values {first second : Settings} (values : ∀ key, first.value key = second.value key)
    (machine : first.machine = second.machine) : first = second := by
  have textBase := Value.number.inj (values .textBase)
  have textSize := Value.number.inj (values .textSize)
  have dataBase := Value.number.inj (values .dataBase)
  have dataSize := Value.number.inj (values .dataSize)
  have threshold := Value.threshold.inj (values .threshold)
  rcases first with ⟨⟨_, _⟩, ⟨_, _⟩, _, _⟩
  rcases second with ⟨⟨_, _⟩, ⟨_, _⟩, _, _⟩
  simp only at textBase textSize dataBase dataSize threshold machine
  subst textBase textSize dataBase dataSize threshold machine
  rfl

theorem Sets.unique {value : Value} {other : Settings} (sets : Sets settings key value after)
    (sets' : Sets settings key value other) : after = other := by
  refine ext_values (fun chosen => ?_) (sets.machine.trans sets'.machine.symm)
  by_cases same : chosen = key
  · rw [same, sets.here, sets'.here]
  · rw [sets.others chosen same, sets'.others chosen same]

/-- Assignments to different keys commute. -/
theorem Sets.comm {first second : Value} {key' : Key} {middle' other : Settings}
    (different : key ≠ key')
    (sets : Sets settings key first middle) (then_sets : Sets middle key' second after)
    (sets' : Sets settings key' second middle') (then_sets' : Sets middle' key first other) :
    after = other := by
  refine ext_values (fun chosen => ?_) ?_
  · by_cases here : chosen = key
    · rw [here, then_sets.others key different, sets.here, then_sets'.here]
    · by_cases there : chosen = key'
      · rw [there, then_sets.here, then_sets'.others key' (Ne.symm different), sets'.here]
      · rw [then_sets.others chosen there, sets.others chosen here,
          then_sets'.others chosen here, sets'.others chosen there]
  · rw [then_sets.machine, sets.machine, then_sets'.machine, sets'.machine]

section
variable [LevelNames]

/-- An assignment that is admitted sets its key. -/
theorem assign?_eq_some (assigned : settings.assign? key text = some after) :
    ∃ value, key.read? text = some value ∧ Sets settings key value after := by
  cases key <;>
  · rcases Option.map_eq_some_iff.mp assigned with ⟨value, read, rfl⟩
    refine ⟨_, Option.map_eq_some_iff.mpr ⟨value, read, rfl⟩, rfl, fun other different => ?_, rfl⟩
    cases other <;> first | rfl | exact absurd rfl different

theorem assign?_eq_none_iff : settings.assign? key text = none ↔ key.read? text = none := by
  cases key <;> simp only [assign?, Key.read?, Option.map_eq_none_iff]

/-- Whether an assignment is admitted depends on its text only. -/
theorem exists_assign? (settings : Settings) {value : Value} (read : key.read? text = some value) :
    ∃ after, settings.assign? key text = some after ∧ Sets settings key value after := by
  cases assigned : settings.assign? key text with
  | none =>
      rw [assign?_eq_none_iff.mp assigned] at read
      cases read
  | some after =>
      rcases assign?_eq_some assigned with ⟨value', read', sets⟩
      rw [Option.some.inj (read'.symm.trans read)] at sets
      exact ⟨after, rfl, sets⟩

end

/-! ## Tokens -/

theorem ne_equals_of_plain {text : List Char} (plain : '=' ∉ text) :
    ∀ char ∈ text, decide (char ≠ '=') = true := by
  intro char listed
  rw [decide_eq_true_eq]
  rintro rfl
  exact plain listed

/-- The first equals sign ends the name. -/
theorem assignment?_eq_some {name : List Char} (plain : '=' ∉ name) (text : List Char) :
    assignment? (name ++ '=' :: text) = some (name, text) := by
  have letters := ne_equals_of_plain plain
  rw [assignment?, List.span_eq_takeWhile_dropWhile, List.takeWhile_append_of_pos letters,
    List.dropWhile_append_of_pos letters]
  simp

theorem assignment?_eq_none {token : List Char} (plain : '=' ∉ token) :
    assignment? token = none := by
  rw [assignment?, List.span_eq_takeWhile_dropWhile,
    List.dropWhile_eq_nil_iff.mpr (ne_equals_of_plain plain)]

theorem Key.plain_name (key : Key) : '=' ∉ key.name.toList := by
  cases key <;> decide

theorem Key.ofName?_eq_some_iff {name : List Char} :
    Key.ofName? name = some key ↔ name = key.name.toList := by
  constructor
  · intro found
    have named := List.find?_some found
    exact of_decide_eq_true named
  · rintro rfl
    cases key <;> decide

theorem Key.ofName?_eq_none {name : List Char} (unknown : ∀ key : Key, name ≠ key.name.toList) :
    Key.ofName? name = none := by
  cases found : Key.ofName? name with
  | none => rfl
  | some key => exact absurd (Key.ofName?_eq_some_iff.mp found) (unknown key)

/-- Every token is idle or assigns to a key. -/
theorem idle_or_assigns (token : List Char) :
    Idle token ∨ ∃ key text, token = Key.token key text := by
  by_cases present : '=' ∈ token
  · rcases List.eq_append_cons_of_mem present with ⟨name, text, rfl, plain⟩
    by_cases known : ∃ key : Key, name = key.name.toList
    · rcases known with ⟨key, rfl⟩
      exact Or.inr ⟨key, text, rfl⟩
    · exact Or.inl (Or.inr ⟨name, text, rfl, plain, fun key named => known ⟨key, named⟩⟩)
  · exact Or.inl (Or.inl present)

/-! ## Applying a token -/

variable [LevelNames]

theorem Idle.applyToken {token : List Char} (idle : Idle token) (settings : Settings) :
    settings.applyToken token = .ok settings := by
  rcases idle with plain | ⟨name, text, rfl, plain, unknown⟩
  · rw [Settings.applyToken, assignment?_eq_none plain]
  · rw [Settings.applyToken, assignment?_eq_some plain]
    simp only [Key.ofName?_eq_none unknown]

theorem applyToken_token (settings : Settings) (key : Key) (text : List Char) :
    settings.applyToken (key.token text) =
      (settings.assign? key text).elim (.error ⟨key.name, String.ofList text⟩) .ok := by
  have named : Key.ofName? key.name.toList = some key := Key.ofName?_eq_some_iff.mpr rfl
  unfold applyToken Key.token
  simp only [assignment?_eq_some key.plain_name, named, String.ofList_toList]
  cases settings.assign? key text <;> rfl

/-- A text that has a value for its key is assigned. -/
theorem exists_applyToken (settings : Settings) {value : Value}
    (read : key.read? text = some value) :
    ∃ after, settings.applyToken (key.token text) = .ok after ∧ Sets settings key value after := by
  rcases settings.exists_assign? read with ⟨after, assigned, sets⟩
  rw [applyToken_token, assigned, Option.elim_some]
  exact ⟨after, rfl, sets⟩

/-- A text that has no value for its key is refused. -/
theorem applyToken_of_unread (settings : Settings) (unread : key.read? text = none) :
    settings.applyToken (key.token text) = .error ⟨key.name, String.ofList text⟩ := by
  rw [applyToken_token, assign?_eq_none_iff.mpr unread, Option.elim_none]

/-- A token is passed if it is idle or sets its key. -/
theorem applyToken_eq_ok_iff {token : List Char} :
    settings.applyToken token = .ok after ↔
      (Idle token ∧ after = settings) ∨
        ∃ key text value, token = Key.token key text ∧ key.read? text = some value ∧
          Sets settings key value after := by
  constructor
  · intro applied
    rcases idle_or_assigns token with idle | ⟨key, text, rfl⟩
    · rw [idle.applyToken] at applied
      exact Or.inl ⟨idle, (Except.ok.inj applied).symm⟩
    · cases read : key.read? text with
      | none =>
          rw [settings.applyToken_of_unread read] at applied
          cases applied
      | some value =>
          rcases settings.exists_applyToken read with ⟨other, applied', sets⟩
          rw [Except.ok.inj (applied.symm.trans applied')]
          exact Or.inr ⟨key, text, value, rfl, read, sets⟩
  · rintro (⟨idle, rfl⟩ | ⟨key, text, value, rfl, read, sets⟩)
    · exact idle.applyToken after
    · rcases settings.exists_applyToken read with ⟨other, applied, sets'⟩
      rw [applied, sets.unique sets']

/-- A token is refused if the text that it assigns has no value for its key. -/
theorem applyToken_eq_error_iff {token : List Char} {error : InvalidValue} :
    settings.applyToken token = .error error ↔
      ∃ key text, token = Key.token key text ∧ key.read? text = none ∧
        error = ⟨key.name, String.ofList text⟩ := by
  constructor
  · intro refused
    rcases idle_or_assigns token with idle | ⟨key, text, rfl⟩
    · rw [idle.applyToken] at refused
      cases refused
    · cases read : key.read? text with
      | none =>
          rw [settings.applyToken_of_unread read] at refused
          exact ⟨key, text, rfl, read, (Except.error.inj refused).symm⟩
      | some value =>
          rcases settings.exists_applyToken read with ⟨after, applied, _⟩
          rw [applied] at refused
          cases refused
  · rintro ⟨key, text, rfl, unread, rfl⟩
    exact settings.applyToken_of_unread unread

end Settings
end ModuleHost
