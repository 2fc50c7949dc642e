import Mathlib.Logic.Function.Basic
import Mathlib.Data.List.Infix

/-!
# Migrating the settings

The settings are kept by `QSettings`, of which no more is taken for granted than is documented: a key is the list of its parts between slashes, a value that is set is the one that is read, and a setting that is removed takes the settings below it with it. So the keys that migration leaves alone are those that are neither a legacy key nor below one.
-/

namespace EmojiPalette

namespace Ui

/-- A `QVariant` as far as it matters here: the integer it is read as, and the variant of an integer. -/
class Variant (α : Type) where
  toInt : α → Int32
  ofInt : Int32 → α
  toInt_ofInt : ∀ value, toInt (ofInt value) = value

instance : Variant Int32 := ⟨id, id, fun _ => rfl⟩

abbrev SettingsKey := List String

/-- `QSettings` with its states and the variants that it holds; there is no value where a key does not exist. -/
structure QSettings (σ α : Type) where
  value : SettingsKey → σ → Option α
  setValue : SettingsKey → α → σ → σ
  remove : SettingsKey → σ → σ
  value_setValue : ∀ key held settings other,
    value other (setValue key held settings) = if other = key then some held else value other settings
  value_remove : ∀ key settings other,
    value other (remove key settings) = if key <+: other then none else value other settings

namespace QSettings

variable {σ α : Type}

def contains (qsettings : QSettings σ α) (key : SettingsKey) (settings : σ) : Bool :=
  (qsettings.value key settings).isSome

/-- A map does as is documented. -/
def map : QSettings (SettingsKey → Option α) α where
  value key settings := settings key
  setValue key held settings := Function.update settings key (some held)
  remove key settings other := if key <+: other then none else settings other
  value_setValue key held settings other := Function.update_apply settings key (some held) other
  value_remove _ _ _ := rfl

end QSettings

section Migration

variable {σ α : Type} [Variant α] (qsettings : QSettings σ α)

def schemaVersionKey : SettingsKey := ["SchemaVersion"]

def migratedKeys : List (SettingsKey × SettingsKey) :=
  [(["cellSize"], ["Ui", "CellSize"]), (["columns"], ["Ui", "Columns"]), (["rows"], ["Ui", "Rows"])]

def schemaVersion (settings : σ) : Int32 := ((qsettings.value schemaVersionKey settings).map Variant.toInt).getD 0

/-- One turn of the loop. -/
def migrateKey (settings : σ) (keys : SettingsKey × SettingsKey) : σ :=
  let (oldKey, newKey) := keys
  let settings :=
    match qsettings.value oldKey settings with
    | some held => if !qsettings.contains newKey settings then qsettings.setValue newKey held settings else settings
    | none => settings
  qsettings.remove oldKey settings

def migrateSettings (settings : σ) : σ :=
  if schemaVersion qsettings settings ≠ 0 then settings
  else qsettings.setValue schemaVersionKey (Variant.ofInt 1) (migratedKeys.foldl (migrateKey qsettings) settings)

/-! ### One key and its replacement -/

variable {qsettings}

omit [Variant α] in
/-- What a key holds after one turn: nothing at the legacy key or below it, and at the new key the old value only if it had none of its own. -/
theorem migrateKey_value (settings : σ) (keys : SettingsKey × SettingsKey) (key : SettingsKey) :
    qsettings.value key (migrateKey qsettings settings keys) =
      if keys.1 <+: key then none
      else if key = keys.2 then (qsettings.value keys.2 settings).or (qsettings.value keys.1 settings)
      else qsettings.value key settings := by
  obtain ⟨oldKey, newKey⟩ := keys
  rw [migrateKey]
  dsimp only
  rw [qsettings.value_remove]
  refine if_congr Iff.rfl rfl ?_
  cases hold : qsettings.value oldKey settings with
  | none =>
      dsimp only
      split
      · rename_i hkey
        rw [hkey, Option.or_none]
      · rfl
  | some held =>
      dsimp only
      cases hnew : qsettings.value newKey settings with
      | none =>
          rw [QSettings.contains, hnew, Option.isSome_none, Bool.not_false, if_pos rfl, qsettings.value_setValue]
          rfl
      | some other =>
          rw [QSettings.contains, hnew, Option.isSome_some, Bool.not_true, if_neg Bool.false_ne_true]
          split
          · rename_i hkey
            rw [hkey, hnew]
            rfl
          · rfl

/-! ### All the keys -/

/-- What a turn does to these keys is nothing to the others. -/
structure Apart (keys others : SettingsKey × SettingsKey) : Prop where
  old : ¬ keys.1 <+: others.1
  new : ¬ keys.1 <+: others.2
  oldNew : others.1 ≠ keys.2
  newNew : others.2 ≠ keys.2

/-- Each pair stands apart from those after it, and no new key is a legacy key or below one. -/
structure Separate (pairs : List (SettingsKey × SettingsKey)) : Prop where
  apart : pairs.Pairwise Apart
  replaced : ∀ keys ∈ pairs, ∀ others ∈ pairs, ¬ keys.1 <+: others.2

theorem separate_migratedKeys : Separate migratedKeys where
  apart := by
    simp only [migratedKeys, List.pairwise_cons, List.Pairwise.nil, List.forall_mem_cons, List.not_mem_nil,
      false_imp_iff, implies_true, and_true]
    exact ⟨⟨by constructor <;> decide, by constructor <;> decide⟩, by constructor <;> decide⟩
  replaced := by decide

theorem Separate.tail {keys : SettingsKey × SettingsKey} {rest : List (SettingsKey × SettingsKey)}
    (h : Separate (keys :: rest)) : Separate rest :=
  ⟨h.apart.of_cons, fun _ hkeys _ hothers =>
    h.replaced _ (List.mem_cons_of_mem _ hkeys) _ (List.mem_cons_of_mem _ hothers)⟩

variable {pairs : List (SettingsKey × SettingsKey)}

omit [Variant α] in
/-- The turns leave a key that replaces none alone, unless it is a legacy key or below one. -/
theorem foldl_migrateKey_of_ne (settings : σ) {key : SettingsKey} (h : ∀ keys ∈ pairs, key ≠ keys.2) :
    qsettings.value key (pairs.foldl (migrateKey qsettings) settings) =
      if ∃ keys ∈ pairs, keys.1 <+: key then none else qsettings.value key settings := by
  induction pairs generalizing settings with
  | nil => simp
  | cons keys rest ih =>
      obtain ⟨hkeys, hrest⟩ := List.forall_mem_cons.mp h
      rw [List.foldl_cons, ih _ hrest, migrateKey_value, if_neg hkeys]
      by_cases hbelow : keys.1 <+: key
      · rw [if_pos hbelow, ite_self, if_pos ⟨keys, List.mem_cons_self, hbelow⟩]
      · rw [if_neg hbelow]
        refine if_congr ?_ rfl rfl
        simp only [List.mem_cons, or_and_right, exists_or, exists_eq_left, hbelow, false_or]

omit [Variant α] in
/-- A key that replaces another takes over its value, unless it has one. -/
theorem foldl_migrateKey_of_mem (hpairs : Separate pairs) (settings : σ) {keys : SettingsKey × SettingsKey}
    (hmem : keys ∈ pairs) :
    qsettings.value keys.2 (pairs.foldl (migrateKey qsettings) settings) =
      (qsettings.value keys.2 settings).or (qsettings.value keys.1 settings) := by
  induction pairs generalizing settings with
  | nil => cases hmem
  | cons head rest ih =>
      have hreplaced := hpairs.replaced
      have hapart := List.pairwise_cons.mp hpairs.apart
      rw [List.foldl_cons]
      obtain rfl | hmem := List.mem_cons.mp hmem
      · have hbelow : ¬ ∃ others ∈ rest, others.1 <+: keys.2 := fun h => by
          obtain ⟨others, hothers, hbelow⟩ := h
          exact hreplaced others (List.mem_cons_of_mem _ hothers) keys List.mem_cons_self hbelow
        rw [foldl_migrateKey_of_ne _ fun others hothers => (hapart.1 others hothers).newNew.symm, if_neg hbelow,
          migrateKey_value, if_neg (hreplaced keys List.mem_cons_self keys List.mem_cons_self), if_pos rfl]
      · have hothers := hapart.1 keys hmem
        rw [ih hpairs.tail _ hmem, migrateKey_value, migrateKey_value, if_neg hothers.new, if_neg hothers.newNew,
          if_neg hothers.old, if_neg hothers.oldNew]

/-! ### The migration -/

theorem migrateSettings_of_ne {settings : σ} (h : schemaVersion qsettings settings ≠ 0) :
    migrateSettings qsettings settings = settings :=
  if_pos h

theorem migrateSettings_value {settings : σ} (h : schemaVersion qsettings settings = 0) {key : SettingsKey}
    (hkey : key ≠ schemaVersionKey) :
    qsettings.value key (migrateSettings qsettings settings) =
      qsettings.value key (migratedKeys.foldl (migrateKey qsettings) settings) := by
  rw [migrateSettings, if_neg (by simpa using h), qsettings.value_setValue, if_neg hkey]

theorem migrateSettings_version {settings : σ} (h : schemaVersion qsettings settings = 0) :
    qsettings.value schemaVersionKey (migrateSettings qsettings settings) = some (Variant.ofInt 1) := by
  rw [migrateSettings, if_neg (by simpa using h), qsettings.value_setValue, if_pos rfl]

theorem migrateSettings_of_version {settings later : σ}
    (h : qsettings.value schemaVersionKey later =
      qsettings.value schemaVersionKey (migrateSettings qsettings settings)) :
    migrateSettings qsettings later = later := by
  apply migrateSettings_of_ne
  rw [schemaVersion, h]
  by_cases hversion : schemaVersion qsettings settings = 0
  · rw [migrateSettings_version hversion, Option.map_some, Option.getD_some, Variant.toInt_ofInt]
    decide
  · rw [migrateSettings_of_ne hversion]
    exact hversion

/-- From version 0 each new key holds the value it had, else the legacy key's; the legacy keys and what stands below them are gone; the version is 1; and nothing else has changed. At any other version nothing changes at all, and once migrated, settings stay as later edits leave them for as long as these leave the version alone. -/
theorem migrateSettings_lossless (qsettings : QSettings σ α) (settings : σ) :
    (schemaVersion qsettings settings = 0 →
      (∀ keys ∈ migratedKeys, qsettings.value keys.2 (migrateSettings qsettings settings) =
        (qsettings.value keys.2 settings).or (qsettings.value keys.1 settings)) ∧
      (∀ keys ∈ migratedKeys, ∀ key, keys.1 <+: key →
        qsettings.value key (migrateSettings qsettings settings) = none) ∧
      schemaVersion qsettings (migrateSettings qsettings settings) = 1 ∧
      ∀ key, key ≠ schemaVersionKey → (∀ keys ∈ migratedKeys, key ≠ keys.2 ∧ ¬ keys.1 <+: key) →
        qsettings.value key (migrateSettings qsettings settings) = qsettings.value key settings) ∧
      (schemaVersion qsettings settings ≠ 0 → migrateSettings qsettings settings = settings) ∧
      migrateSettings qsettings (migrateSettings qsettings settings) = migrateSettings qsettings settings ∧
      ∀ later : σ, qsettings.value schemaVersionKey later =
          qsettings.value schemaVersionKey (migrateSettings qsettings settings) →
        migrateSettings qsettings later = later := by
  refine ⟨fun hversion => ⟨fun keys hkeys => ?_, fun keys hkeys key hbelow => ?_, ?_, fun key hkey hothers => ?_⟩,
    migrateSettings_of_ne, migrateSettings_of_version rfl, fun later => migrateSettings_of_version⟩
  · have hkey : ∀ keys ∈ migratedKeys, keys.2 ≠ schemaVersionKey := by decide
    rw [migrateSettings_value hversion (hkey keys hkeys), foldl_migrateKey_of_mem separate_migratedKeys settings hkeys]
  · have hversionKey : ∀ keys ∈ migratedKeys, ¬ keys.1 <+: schemaVersionKey := by decide
    have hreplaced : ∀ others ∈ migratedKeys, key ≠ others.2 := by
      rintro others hothers rfl
      exact separate_migratedKeys.replaced keys hkeys others hothers hbelow
    have hkey : key ≠ schemaVersionKey := by
      rintro rfl
      exact hversionKey keys hkeys hbelow
    rw [migrateSettings_value hversion hkey, foldl_migrateKey_of_ne settings hreplaced, if_pos ⟨keys, hkeys, hbelow⟩]
  · rw [schemaVersion, migrateSettings_version hversion]
    exact Variant.toInt_ofInt 1
  · rw [migrateSettings_value hversion hkey, foldl_migrateKey_of_ne settings fun keys hkeys => (hothers keys hkeys).1]
    refine if_neg fun h => ?_
    obtain ⟨keys, hkeys, hbelow⟩ := h
    exact (hothers keys hkeys).2 hbelow

/-- A cell size under its legacy name, and the rows under both. -/
def legacySettings : SettingsKey → Option Int32 := fun key =>
  if key = ["cellSize"] then some 44
  else if key = ["rows"] then some 5
  else if key = ["Ui", "Rows"] then some 8
  else if key = ["Window", "Theme"] then some 2
  else none

/-- The cell size moves, the rows stay as they were set last, and the theme is left alone. -/
theorem migrateSettings_lossless_legacy :
    let migrated := migrateSettings .map legacySettings
    migrated ["Ui", "CellSize"] = some 44 ∧ migrated ["Ui", "Rows"] = some 8 ∧ migrated ["cellSize"] = none ∧
      schemaVersion .map migrated = 1 ∧ migrated ["Window", "Theme"] = some 2 ∧
      migrateSettings .map migrated = migrated := by
  intro migrated
  obtain ⟨hmigrates, -, hidempotent, -⟩ := migrateSettings_lossless .map legacySettings
  obtain ⟨hnew, hold, hversion, hothers⟩ := hmigrates (by decide)
  exact ⟨hnew (["cellSize"], ["Ui", "CellSize"]) (by decide), hnew (["rows"], ["Ui", "Rows"]) (by decide),
    hold (["cellSize"], ["Ui", "CellSize"]) (by decide) ["cellSize"] (List.prefix_refl _), hversion,
    hothers ["Window", "Theme"] (by decide) (by decide), hidempotent⟩

/-- A setting below a legacy key is none of the keys that are migrated, and it is lost. -/
theorem migrateSettings_loses_below :
    ¬ ∀ settings : SettingsKey → Option Int32, schemaVersion .map settings = 0 → ∀ key, key ≠ schemaVersionKey →
      (∀ keys ∈ migratedKeys, key ≠ keys.1 ∧ key ≠ keys.2) →
      migrateSettings .map settings key = settings key := by
  intro h
  have hlost := h (fun key => if key = ["columns", "width"] then some 5 else none) (by decide) ["columns", "width"]
    (by decide) (by decide)
  exact absurd hlost (by decide)

end Migration

end Ui

end EmojiPalette
