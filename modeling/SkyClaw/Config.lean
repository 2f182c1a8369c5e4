import SkyClaw.Lib.PartialMap
import Mathlib.Data.List.Infix

/-!
# The configuration file

`Config`: the TOML file, the keyring, and what loading and saving do to both.  The file is what
`tomllib` reads from it and `tomli_w` writes to it.
-/

namespace SkyClaw.Config

/-! ## Values -/

/-- A value of a TOML document. -/
inductive Toml where
  | string (text : String)
  | integer (value : Int)
  | float (literal : String) (isZero : Bool)
  | boolean (value : Bool)
  | datetime (literal : String)
  | array (items : List Toml)
  | table (entries : List (String × Toml))

namespace Toml

/-- `bool(value)`. -/
def truthy : Toml → Bool
  | string text => text ≠ ""
  | integer value => value ≠ 0
  | float _ isZero => !isZero
  | boolean value => value
  | datetime _ => true
  | array items => !items.isEmpty
  | table entries => !entries.isEmpty

/-- `value == text`. -/
def isText (text : String) : Toml → Bool
  | string text' => text' = text
  | _ => false

/-- `str(value)`; that of a value other than a text is a parameter. -/
def toText (str : Toml → String) : Toml → String
  | string text => text
  | value => str value

/-- `value[name]` behind `name in value`; the error is the `TypeError`. -/
def field (name : String) : Toml → Except Unit (Option Toml)
  | table entries => .ok (entries.lookup name)
  | string text => if name.toList <:+: text.toList then .error () else .ok none
  | array items => if items.any (isText name) then .error () else .ok none
  | _ => .error ()

theorem isText_iff {text : String} {value : Toml} :
    value.isText text = true ↔ value = .string text := by
  cases value <;> simp [isText]

end Toml

/-- A dict of values by their keys. -/
abbrev Data := String → Option Toml

/-- `data.get(key)`, if it is a true value. -/
def Data.value (data : Data) (key : String) : Option Toml := (data key).filter Toml.truthy

/-- The sensitive keys of `_load_from_keyring`. -/
def sensitiveKeys : List String :=
  ["llm_api_key", "openai_api_key", "anthropic_api_key", "deepseek_api_key", "nexus_api_key",
    "telegram_bot_token", "ws_auth_token"]

/-- The sensitive keys of `save`. -/
def savedKeys : List String :=
  ["llm_api_key", "openai_api_key", "anthropic_api_key", "deepseek_api_key", "nexus_api_key",
    "telegram_bot_token"]

/-- The texts of `_load_defaults`. -/
def defaultTexts (moddingRoot : String) : List (String × String) :=
  [("mo2_root", ""), ("install_dir", moddingRoot), ("loot_exe", ""), ("xedit_exe", ""),
    ("pandora_exe", ""), ("bodyslide_exe", ""), ("skyrim_path", ""), ("llm_provider", "deepseek"),
    ("llm_model", ""), ("llm_api_key", ""), ("openai_api_key", ""), ("anthropic_api_key", ""),
    ("deepseek_api_key", ""), ("nexus_api_key", ""), ("telegram_bot_token", ""),
    ("telegram_chat_id", "")]

/-- `_load_defaults`. -/
def defaults (moddingRoot : String) : Data := fun key =>
  if key = "first_run" then some (.boolean true)
  else ((defaultTexts moddingRoot).lookup key).map Toml.string

/-- The fields of the sections that `_load_from_file` knows, and the keys that they set. -/
def sectionFields : List (String × String × String) :=
  [("telegram", "token", "telegram_bot_token"), ("telegram", "chat_id", "telegram_chat_id"),
    ("nexus", "api_key", "nexus_api_key"), ("paths", "mo2_path", "mo2_root"),
    ("paths", "skyrim_path", "skyrim_path")]

/-- Set a key from the field of a section, if the file has it. -/
def loadField (fileData data : Data) (sectionField : String × String × String) :
    Except Unit Data :=
  match fileData sectionField.1 with
  | none => .ok data
  | some value =>
      match value.field sectionField.2.1 with
      -- the section is no table; the error is not among those that are caught
      | .error () => .error ()
      | .ok none => .ok data
      | .ok (some found) => .ok (Function.update data sectionField.2.2 (some found))

/-- `_load_from_file`: the sections, and the top level over them. -/
def loadFromFile (data : Data) : Option Data → Except Unit Data
  | none => .ok data
  | some fileData =>
      match sectionFields.foldlM (loadField fileData) data with
      | .error () => .error ()
      | .ok data => .ok fun key => (fileData key).or (data key)

/-! ## The keyring -/

/-- The file, and the passwords of the service `sky_claw`. -/
structure World where
  file : Option Data
  keyring : String → Option String

/-- Which calls of the keyring fail during construction: those of `get_password`, and those of
`set_password` in the migration and in the `save` after it. -/
structure Failures where
  get : String → Bool
  set : String → Bool
  save : String → Bool

section Keyring

variable (str : Toml → String)

/-- `set_password`, with a call that may fail. -/
def setPassword (fails : Bool) (keyring : String → Option String) (key : String) (value : Toml) :
    String → Option String :=
  if fails then keyring else Function.update keyring key (some (value.toText str))

/-- The password that `get_password` gives for a key, if it is a true one. -/
def stored (getFails : String → Bool) (key : String) (password : Option String) : Option String :=
  if getFails key then none else password.filter (· ≠ "")

/-- What the loop of `_load_from_keyring` changes. -/
structure Migration where
  data : Data
  keyring : String → Option String
  migrated : Bool

/-- A turn of the loop. -/
def migrateKey (failures : Failures) (s : Migration) (key : String) : Migration :=
  match stored failures.get key (s.keyring key) with
  | some password =>
      -- a value of the file that the keyring has is left over from an earlier migration
      { s with
        data := Function.update s.data key (some (.string password))
        migrated := s.migrated || (s.data.value key).any (Toml.isText password) }
  | none =>
      match s.data.value key with
      | some plaintext =>
          -- what the keyring refuses stays in the data
          if failures.set key then s
          else { s with keyring := setPassword str false s.keyring key plaintext, migrated := true }
      | none => s

/-- The loop of `_load_from_keyring`. -/
def migrate (failures : Failures) (data : Data) (keyring : String → Option String) : Migration :=
  sensitiveKeys.foldl (migrateKey str failures) ⟨data, keyring, false⟩

/-- A turn of the loop of `save`. -/
def saveKey (fails : String → Bool) (data : Data) (keyring : String → Option String)
    (key : String) : String → Option String :=
  match data.value key with
  | some value => setPassword str (fails key) keyring key value
  | none => keyring

def save (fails : String → Bool) (data : Data) (world : World) : World where
  file := some fun key => if key ∈ savedKeys then none else data key
  keyring := savedKeys.foldl (saveKey str fails data) world.keyring

/-- `_load_from_keyring`, and the `save` that scrubs the file. -/
def loadFromKeyring (failures : Failures) (data : Data) (world : World) : Data × World :=
  let s := migrate str failures data world.keyring
  let world := { world with keyring := s.keyring }
  if s.migrated then (s.data, save str failures.save s.data world) else (s.data, world)

/-- `Config(config_path)`; an error leaves the file and the keyring as they are. -/
def init (moddingRoot : String) (failures : Failures) (world : World) :
    Except Unit (Data × World) :=
  match loadFromFile (defaults moddingRoot) world.file with
  | .error () => .error ()
  | .ok data => .ok (loadFromKeyring str failures data world)

end Keyring

end SkyClaw.Config
