import SkyClaw.Config

/-!
# Secrets of the configuration

What the loops over the keyring do to each key, and from it what becomes of a secret of the TOML
file: `kept_or_refused` says when it is lost.
-/

namespace SkyClaw.Config

open PartialMap

/-! ## The loops, key by key -/

section Loops

variable (str : Toml → String)

/-- What a turn of the migration does to the entries of its key. -/
def migrateEntry (failures : Failures) (key : String) :
    Option Toml × Option String → Option Toml × Option String
  | (value, password) =>
      match stored failures.get key password with
      | some found => (some (.string found), password)
      | none =>
          match value.filter Toml.truthy with
          | some plaintext =>
              (value, if failures.set key then password else some (plaintext.toText str))
          | none => (value, password)

/-- A turn of the migration moves the value of its key, or finds it moved. -/
def Migrates (failures : Failures) (key : String) : Option Toml × Option String → Prop
  | (value, password) => ∃ plaintext, value.filter Toml.truthy = some plaintext ∧
      match stored failures.get key password with
      | some found => plaintext = .string found
      | none => failures.set key = false

def entries (s : Migration) (key : String) : Option Toml × Option String :=
  (s.data key, s.keyring key)

theorem migrateKey_other (failures : Failures) (s : Migration) (key other : String)
    (h : other ≠ key) : entries (migrateKey str failures s key) other = entries s other := by
  unfold migrateKey entries
  split
  · simp [Function.update_of_ne h]
  · split
    · split
      · rfl
      · simp [setPassword, Function.update_of_ne h]
    · rfl

theorem migrateKey_own (failures : Failures) (s : Migration) (key : String) :
    entries (migrateKey str failures s key) key =
      migrateEntry str failures key (entries s key) := by
  unfold migrateKey migrateEntry entries Data.value
  cases hstored : stored failures.get key (s.keyring key) with
  | some password => simp [hstored]
  | none =>
      cases hvalue : (s.data key).filter Toml.truthy with
      | none => simp [hstored, hvalue]
      | some plaintext =>
          by_cases hset : failures.set key = true
          · simp [hstored, hvalue, hset]
          · simp [hstored, hvalue, hset, setPassword]

theorem migrateKey_migrated (failures : Failures) (s : Migration) (key : String) :
    (migrateKey str failures s key).migrated = true ↔
      s.migrated = true ∨ Migrates failures key (entries s key) := by
  unfold migrateKey Migrates entries Data.value
  cases hstored : stored failures.get key (s.keyring key) with
  | some password =>
      simp only [hstored, Bool.or_eq_true, Option.any_eq_true, Toml.isText_iff]
  | none =>
      cases hvalue : (s.data key).filter Toml.truthy with
      | none => simp [hstored, hvalue]
      | some plaintext =>
          by_cases hset : failures.set key = true
          · simp [hstored, hvalue, hset]
          · simp [hstored, hvalue, hset]

theorem sensitiveKeys_nodup : sensitiveKeys.Nodup := by decide

theorem savedKeys_nodup : savedKeys.Nodup := by decide

variable (failures : Failures) (data : Data) (keyring : String → Option String)

/-- **The migration of a key.** -/
theorem migrate_of_mem {key : String} (h : key ∈ sensitiveKeys) :
    entries (migrate str failures data keyring) key =
      migrateEntry str failures key (data key, keyring key) :=
  foldl_view_of_mem (migrateKey_other str failures) (migrateKey_own str failures)
    sensitiveKeys_nodup h ⟨data, keyring, false⟩

theorem migrate_of_not_mem {key : String} (h : key ∉ sensitiveKeys) :
    entries (migrate str failures data keyring) key = (data key, keyring key) :=
  foldl_view_of_not_mem (migrateKey_other str failures) h ⟨data, keyring, false⟩

theorem migrated_iff :
    (migrate str failures data keyring).migrated = true ↔
      ∃ key ∈ sensitiveKeys, Migrates failures key (data key, keyring key) := by
  have hflag := foldl_flag_iff (migrateKey_other str failures) (migrateKey_migrated str failures)
    sensitiveKeys_nodup ⟨data, keyring, false⟩
  exact hflag.trans (or_iff_right Bool.false_ne_true)

/-- What a turn of `save` does to the password of its key. -/
def saveEntry (fails : String → Bool) (key : String) (password : Option String) : Option String :=
  if fails key then password else ((data.value key).map (Toml.toText str)).or password

def password (keyring : String → Option String) (key : String) : Option String := keyring key

theorem saveKey_other (fails : String → Bool) (keyring : String → Option String)
    (key other : String) (h : other ≠ key) :
    password (saveKey str fails data keyring key) other = password keyring other := by
  unfold saveKey setPassword password
  cases data.value key with
  | none => rfl
  | some value =>
      by_cases hfails : fails key = true
      · simp [hfails]
      · simp [hfails, Function.update_of_ne h]

theorem saveKey_own (fails : String → Bool) (keyring : String → Option String) (key : String) :
    password (saveKey str fails data keyring key) key =
      saveEntry str data fails key (password keyring key) := by
  unfold saveKey setPassword saveEntry password
  cases hvalue : data.value key with
  | none => simp
  | some value =>
      by_cases hfails : fails key = true
      · simp [hfails]
      · simp [hfails]

/-- **What `save` leaves in the keyring.** -/
theorem save_keyring (fails : String → Bool) (world : World) (key : String) :
    (save str fails data world).keyring key =
      if key ∈ savedKeys then saveEntry str data fails key (world.keyring key)
      else world.keyring key := by
  by_cases hkey : key ∈ savedKeys
  · rw [if_pos hkey]
    exact foldl_view_of_mem (saveKey_other str data fails) (saveKey_own str data fails)
      savedKeys_nodup hkey world.keyring
  · rw [if_neg hkey]
    exact foldl_view_of_not_mem (saveKey_other str data fails) hkey world.keyring

end Loops

/-! ## The places of secrets -/

/-- `data[section][name]`, of a section that is a table. -/
def Data.nested (data : Data) (sectionName name : String) : Option Toml :=
  match data sectionName with
  | some (.table entries) => entries.lookup name
  | _ => none

theorem nested_of_ok {data : Data} {sectionName name : String} {value : Toml}
    (hsection : data sectionName = some value) {found : Option Toml}
    (hfield : value.field name = .ok found) : data.nested sectionName name = found := by
  unfold Data.nested
  rw [hsection]
  cases value with
  | table entries => exact Except.ok.inj hfield
  | string | array =>
      rw [Toml.field] at hfield
      split at hfield
      · cases hfield
      · exact Except.ok.inj hfield
  | integer | float | boolean | datetime => cases hfield

/-- A place of a secret in the file. -/
inductive Place where
  | top (key : String)
  | telegramToken
  | nexusApiKey

/-- The key that a place is read for. -/
def Place.key : Place → String
  | top key => key
  | telegramToken => "telegram_bot_token"
  | nexusApiKey => "nexus_api_key"

def Place.secret (data : Data) : Place → Option Toml
  | top key => data.value key
  | telegramToken => (data.nested "telegram" "token").filter Toml.truthy
  | nexusApiKey => (data.nested "nexus" "api_key").filter Toml.truthy

/-- The places that `_load_from_file` knows. -/
def secretPlaces : List Place := sensitiveKeys.map .top ++ [.telegramToken, .nexusApiKey]

/-- The places that `save` writes again. -/
def writtenPlaces : List Place := [.top "ws_auth_token", .telegramToken, .nexusApiKey]

/-- What `save` writes to the file. -/
def saved (data : Data) : Data := fun key => if key ∈ savedKeys then none else data key

theorem saved_of_mem {data : Data} {key : String} (h : key ∈ savedKeys) : saved data key = none :=
  if_pos h

theorem saved_of_not_mem {data : Data} {key : String} (h : key ∉ savedKeys) :
    saved data key = data key := if_neg h

theorem secret_top_saved {data : Data} {key : String} (h : key ∈ savedKeys) :
    Place.secret (saved data) (.top key) = none := by
  show ((saved data) key).filter Toml.truthy = none
  rw [saved, if_pos h]
  rfl

/-- **What `save` leaves in the file**: nothing under its own keys, everything elsewhere. -/
theorem secret_saved {data : Data} {place : Place} (hplace : place ∈ writtenPlaces) :
    place.secret (saved data) = place.secret data := by
  simp only [writtenPlaces, List.mem_cons, List.not_mem_nil, or_false] at hplace
  have hnested : ∀ sectionName name, sectionName ∉ savedKeys →
      (saved data).nested sectionName name = data.nested sectionName name := by
    intro sectionName name h
    unfold Data.nested
    rw [saved_of_not_mem h]
  rcases hplace with rfl | rfl | rfl
  · show ((saved data) "ws_auth_token").filter _ = _
    rw [saved_of_not_mem (by decide)]
    rfl
  · show ((saved data).nested "telegram" "token").filter _ = _
    rw [hnested _ _ (by decide)]
    rfl
  · show ((saved data).nested "nexus" "api_key").filter _ = _
    rw [hnested _ _ (by decide)]
    rfl

theorem mem_secretPlaces {place : Place} :
    place ∈ secretPlaces ↔ place ∈ savedKeys.map .top ∨ place ∈ writtenPlaces := by
  simp [secretPlaces, sensitiveKeys, savedKeys, writtenPlaces]
  tauto

/-! ## What is kept -/

section Kept

variable (str : Toml → String) (moddingRoot : String) (failures : Failures)
  (later : List (String → Bool)) (world : World)

/-- Calls of `save`, each with the calls of the keyring that fail in it. -/
def saves (data : Data) (calls : List (String → Bool)) (world : World) : World :=
  calls.foldl (fun world fails => save str fails data world) world

/-- The file and the keyring after `Config(config_path)` and later saves. -/
def afterwards : World :=
  match init str moddingRoot failures world with
  | .error () => world
  | .ok (data, world) => saves str data later world

/-- The saves that are made: the one of the migration, if something is migrated, and the later
ones. -/
def savesMade : List (String → Bool) :=
  match loadFromFile (defaults moddingRoot) world.file with
  | .error () => []
  | .ok data =>
      (if (migrate str failures data world.keyring).migrated then [failures.save] else []) ++ later

/-- The file holds a secret at a place. -/
def Held (world : World) (place : Place) (value : Toml) : Prop :=
  ∃ file, world.file = some file ∧ place.secret file = some value

/-- The keyring has no value for a key. -/
def Unknown (world : World) (key : String) : Prop := (world.keyring key).filter (· ≠ "") = none

/-- **No secret is lost**: what the file held for a key that the keyring did not know is in the
keyring or still in the file. -/
def LosesNoSecret : Prop :=
  ∀ place ∈ secretPlaces, ∀ value, Held world place value → Unknown world place.key →
    (afterwards str moddingRoot failures later world).keyring place.key =
        some (value.toText str) ∨
      Held (afterwards str moddingRoot failures later world) place value

/-- The keyring refuses a key in the migration and in every save, and a save is made. -/
def Refused (key : String) : Prop :=
  failures.set key = true ∧ savesMade str moddingRoot failures later world ≠ [] ∧
    ∀ fails ∈ savesMade str moddingRoot failures later world, fails key = true

/-- **No secret is lost unless it is refused**: `save` leaves its own keys out of the file, also
where the keyring does not take them. -/
def LosesOnlyRefused : Prop :=
  ∀ place ∈ secretPlaces, ∀ value, Held world place value → Unknown world place.key →
    (afterwards str moddingRoot failures later world).keyring place.key =
        some (value.toText str) ∨
      Held (afterwards str moddingRoot failures later world) place value ∨
      place ∈ savedKeys.map .top ∧ Refused str moddingRoot failures later world place.key

theorem saves_file (data : Data) (calls : List (String → Bool)) (world : World) :
    (saves str data calls world).file =
      if calls = [] then world.file else some (saved data) := by
  induction calls generalizing world with
  | nil => rfl
  | cons fails rest ih =>
      show (saves str data rest (save str fails data world)).file = _
      rw [ih, if_neg (List.cons_ne_nil fails rest)]
      split
      · rfl
      · rfl

theorem saves_keeps {data : Data} {key : String} {value : Toml}
    (hvalue : data.value key = some value) (calls : List (String → Bool)) {world : World}
    (hstored : world.keyring key = some (value.toText str)) :
    (saves str data calls world).keyring key = some (value.toText str) := by
  induction calls generalizing world with
  | nil => exact hstored
  | cons fails rest ih =>
      refine ih ?_
      rw [save_keyring, saveEntry, hvalue, hstored]
      simp

theorem saves_stores {data : Data} {key : String} {value : Toml}
    (hvalue : data.value key = some value) (hkey : key ∈ savedKeys)
    {calls : List (String → Bool)} (htakes : ∃ fails ∈ calls, fails key = false)
    (world : World) : (saves str data calls world).keyring key = some (value.toText str) := by
  induction calls generalizing world with
  | nil =>
      obtain ⟨fails, hmem, _⟩ := htakes
      cases hmem
  | cons fails rest ih =>
      by_cases hfails : fails key = true
      · obtain ⟨taking, hmem, htaking⟩ := htakes
        refine ih ⟨taking, ?_, htaking⟩ _
        rcases List.mem_cons.mp hmem with rfl | hmem
        · rw [hfails] at htaking
          cases htaking
        · exact hmem
      · refine saves_keeps str hvalue rest ?_
        rw [save_keyring, saveEntry, if_pos hkey, if_neg hfails, hvalue]
        rfl

theorem afterwards_eq {data : Data}
    (hload : loadFromFile (defaults moddingRoot) world.file = .ok data) :
    afterwards str moddingRoot failures later world =
      saves str (migrate str failures data world.keyring).data
        (savesMade str moddingRoot failures later world)
        { world with keyring := (migrate str failures data world.keyring).keyring } := by
  unfold afterwards init savesMade loadFromKeyring
  simp only [hload]
  split
  · rfl
  · rfl

variable {str moddingRoot failures later world}

variable {base file : Data}

theorem load_of_file {data : Data} (hload : loadFromFile base (some file) = .ok data)
    {key : String} {value : Toml} (h : file key = some value) : data key = some value := by
  unfold loadFromFile at hload
  dsimp only at hload
  split at hload
  · cases hload
  · cases hload
    show (file key).or _ = _
    rw [h]
    rfl

theorem value_of_file {data : Data} (hload : loadFromFile base (some file) = .ok data)
    {key : String} {value : Toml} (h : file.value key = some value) :
    data.value key = some value := by
  obtain ⟨hfile, htruthy⟩ := Option.filter_eq_some_iff.mp h
  exact Option.filter_eq_some_iff.mpr ⟨load_of_file hload hfile, htruthy⟩

theorem stored_of_unknown {key : String} (h : Unknown world key) :
    stored failures.get key (world.keyring key) = none := by
  unfold stored
  split
  · rfl
  · exact h

theorem migrate_of_unknown {data : Data} {key : String} {value : Toml} (hkey : key ∈ sensitiveKeys)
    (hvalue : data.value key = some value) (h : Unknown world key) :
    (migrate str failures data world.keyring).data.value key = some value ∧
      (failures.set key = false →
        (migrate str failures data world.keyring).keyring key = some (value.toText str)) := by
  have hentry := migrate_of_mem str failures data world.keyring hkey
  unfold Data.value at hvalue
  simp only [migrateEntry, stored_of_unknown h, hvalue, entries, Prod.mk.injEq] at hentry
  obtain ⟨hdata, hkeyring⟩ := hentry
  constructor
  · rw [Data.value, hdata, hvalue]
  · intro hset
    rw [hkeyring, hset]
    rfl

theorem nested_migrated {data : Data} (hload : loadFromFile base (some file) = .ok data)
    {sectionName name : String} {value : Toml} (hsection : sectionName ∉ sensitiveKeys)
    (h : file.nested sectionName name = some value) :
    (migrate str failures data world.keyring).data.nested sectionName name = some value := by
  have hentry := migrate_of_not_mem str failures data world.keyring hsection
  have hdata : (migrate str failures data world.keyring).data sectionName = data sectionName :=
    congrArg Prod.fst hentry
  unfold Data.nested at h ⊢
  cases hfile : file sectionName with
  | none =>
      rw [hfile] at h
      cases h
  | some table =>
      rw [hdata, load_of_file hload hfile, ← hfile]
      exact h

theorem secret_migrated {data : Data} (hload : loadFromFile base (some file) = .ok data)
    {place : Place} {value : Toml} (hplace : place ∈ writtenPlaces)
    (h : place.secret file = some value) (hunknown : Unknown world place.key) :
    place.secret (migrate str failures data world.keyring).data = some value := by
  simp only [writtenPlaces, List.mem_cons, List.not_mem_nil, or_false] at hplace
  rcases hplace with rfl | rfl | rfl
  · have hvalue : data.value "ws_auth_token" = some value := value_of_file hload h
    exact (migrate_of_unknown (by decide) hvalue hunknown).1
  · obtain ⟨hfile, htruthy⟩ := Option.filter_eq_some_iff.mp h
    exact Option.filter_eq_some_iff.mpr ⟨nested_migrated hload (by decide) hfile, htruthy⟩
  · obtain ⟨hfile, htruthy⟩ := Option.filter_eq_some_iff.mp h
    exact Option.filter_eq_some_iff.mpr ⟨nested_migrated hload (by decide) hfile, htruthy⟩

/-- A secret under a key of `save`: one write that the keyring takes is enough. -/
theorem stored_or_refused {data : Data} {key : String} {value : Toml}
    (hload : loadFromFile (defaults moddingRoot) (some file) = .ok data) (hkey : key ∈ savedKeys)
    (hvalue : file.value key = some value) (hunknown : Unknown world key)
    (hcalls : savesMade str moddingRoot failures later world ≠ []) :
    (saves str (migrate str failures data world.keyring).data
        (savesMade str moddingRoot failures later world)
        { world with keyring := (migrate str failures data world.keyring).keyring }).keyring key =
          some (value.toText str) ∨
      Refused str moddingRoot failures later world key := by
  have hsensitive : key ∈ sensitiveKeys := (by decide : savedKeys ⊆ sensitiveKeys) hkey
  have hloaded : data.value key = some value := value_of_file hload hvalue
  obtain ⟨hmigrated, hset⟩ :
      (migrate str failures data world.keyring).data.value key = some value ∧ _ :=
    migrate_of_unknown hsensitive hloaded hunknown
  by_cases hrefused : failures.set key = true
  · by_cases htakes : ∃ fails ∈ savesMade str moddingRoot failures later world, fails key = false
    · exact .inl (saves_stores str hmigrated hkey htakes _)
    · refine .inr ⟨hrefused, hcalls, fun fails hmem => ?_⟩
      by_contra hfails
      exact htakes ⟨fails, hmem, Bool.eq_false_iff.mpr hfails⟩
  · exact .inl (saves_keeps str hmigrated _ (hset (Bool.eq_false_iff.mpr hrefused)))

end Kept

/-- Two secrets, of which the keyring takes the first only. -/
def halfMigrated : World where
  file := some fun key =>
    if key = "llm_api_key" then some (.string "sk-1")
    else if key = "nexus_api_key" then some (.string "nx-2")
    else none
  keyring _ := none

/-- A keyring that refuses a key. -/
def refusing (refused : String) : Failures where
  get _ := false
  set key := key = refused
  save key := key = refused

end SkyClaw.Config
