import SkyClaw.ConfigReload
import SkyClaw.Lib.Checks
import SkyClaw.Lib.Json
import SkyClaw.Lib.PyRe

/-!
# UPDATE_CONFIG

`FrontendBridge._handle_update_config`: an update goes to the keyring, to the configuration in memory
and to the file, one after another, and nothing is taken back if a later step fails.  `atomic_iff`
says when the reply tells the truth.
-/

namespace SkyClaw.Comms.UpdateConfig

open Checks
open PartialMap (IsLast put)
open Config (Data Failures Loadable Toml World saved savedKeys)

/-! ## The message -/

def validProviders : List String := ["deepseek", "anthropic", "ollama"]

def providerKeyMap : List (String × String) :=
  [("deepseek", "deepseek_api_key"), ("anthropic", "anthropic_api_key")]

/-- What the handler computes with. -/
structure Env where
  text : UnicodeText
  /-- `str` of a value that is no text -/
  str : Toml → String
  capitalize : String → String
  /-- `", ".join(VALID_PROVIDERS)`, in the order of the set -/
  options : String

def maxKeyLen : Nat := 512

def maxChatidLen : Nat := 32

def internalError : String := "Error interno al guardar configuracion."

/-- The fields of an update, without blanks around them; an empty one changes nothing. -/
structure Update where
  llmProvider : String
  llmApiKey : String
  nexusApiKey : String
  telegramToken : String
  telegramChatId : String

/-- `content.get(name, "").strip()` -/
def stripped (content : Json) (name : String) : Except String String :=
  match content.get name (.str "") with
  | .ok (.str text) => .ok (PyStr.strip text)
  | _ => .error internalError

/-- `len(value)` -/
def pyLen : Json → Option Nat
  | .str text => some text.length
  | .arr items => some items.length
  | .obj fields => some fields.length
  | _ => none

/-- A key is not too long. -/
def checkLength (content : Json) (field : String) : Except String Unit :=
  match content.get field (.str "") with
  | .ok value =>
      if value.truthy then
        match pyLen value with
        | some length =>
            raiseIf (maxKeyLen < length)
              ("El campo '" ++ field ++ "' excede el largo maximo permitido.")
        | none => .error internalError
      else .ok ()
  | .error _ => .error internalError

def lower (u : UnicodeText) (text : String) : String := String.ofList (u.lower text.toList)

/-- The validation phase and the reading of the keys. -/
def readUpdate (env : Env) (content : Json) : Except String Update := do
  let llmProvider := lower env.text (← stripped content "llm_provider")
  raiseIf (llmProvider ≠ "" && llmProvider ∉ validProviders)
    ("Proveedor LLM inválido: '" ++ llmProvider ++ "'. Opciones: " ++ env.options)
  ["llm_api_key", "nexus_api_key", "telegram_bot_token"].forM (checkLength content)
  let telegramToken ← stripped content "telegram_bot_token"
  raiseIf (telegramToken ≠ "" && !telegramToken.toList.contains ':')
    "El token de Telegram no tiene el formato correcto (debe contener ':')."
  let telegramChatId ← stripped content "telegram_chat_id"
  raiseIf (telegramChatId ≠ "" && maxChatidLen < telegramChatId.length)
    "El Chat ID es demasiado largo."
  raiseIf (telegramChatId ≠ "" && (PyStr.int telegramChatId).isNone)
    "El Chat ID de Telegram debe ser numérico."
  let llmApiKey ← stripped content "llm_api_key"
  let nexusApiKey ← stripped content "nexus_api_key"
  return ⟨llmProvider, llmApiKey, nexusApiKey, telegramToken, telegramChatId⟩

namespace Update

variable (update : Update)

/-- The secrets of an update. -/
def secrets : List (String × String) :=
  [("llm_api_key", update.llmApiKey), ("nexus_api_key", update.nexusApiKey),
    ("telegram_bot_token", update.telegramToken)].filter (·.2 ≠ "")

def plainFields : List (String × String) :=
  [("llm_provider", update.llmProvider), ("telegram_chat_id", update.telegramChatId)].filter
    (·.2 ≠ "")

/-- All fields that are not empty, in the order in which they are set in memory. -/
def fields : List (String × String) := update.plainFields ++ update.secrets

/-- The calls of `_set_keyring`. -/
def keyringWrites : List (String × String) :=
  (if update.llmApiKey ≠ "" then
    ("llm_api_key", update.llmApiKey) ::
      ((providerKeyMap.lookup update.llmProvider).map fun key => (key, update.llmApiKey)).toList
  else []) ++
    [("nexus_api_key", update.nexusApiKey), ("telegram_bot_token", update.telegramToken)].filter
      (·.2 ≠ "")

end Update

/-! ## The three stores -/

/-- The configuration in memory: the sections of its file could be read. -/
@[ext] structure Settings where
  data : Data
  loadable : Loadable data

/-- How `keyring.set_password` ends in `save`: the errors of the keyring are caught there. -/
inductive PasswordCall where
  | stored
  | refused
  | raised
deriving DecidableEq

/-- How the file is written. -/
inductive FileWrite where
  | written
  | notOpened
  /-- what can be read of a file whose writing breaks off -/
  | brokenOff (left : Option Data)

/-- How the calls of a message end. -/
structure Answers where
  /-- a call of `_set_keyring` fails -/
  setFails : String → Bool
  /-- the directory of the file cannot be made -/
  directoryFails : Bool
  saveCall : String → PasswordCall
  fileWrite : FileWrite
  getFails : String → Bool
  /-- the new provider is built and swapped in -/
  swaps : Bool
  telegramReloads : Bool

structure State where
  settings : Settings
  world : World

/-- The updates of `config._data`. -/
def setFields (data : Data) (fields : List (String × String)) : Data :=
  (fields.map fun field => (field.1, Toml.string field.2)).foldl put data

variable (env : Env) (answers : Answers)

/-- The passwords that the loop of `save` stores, and whether it comes to its end. -/
def savedPasswords (data : Data) : List String → List (String × String) × Bool
  | [] => ([], true)
  | key :: keys =>
      match data.value key with
      | none => savedPasswords data keys
      | some value =>
          match answers.saveCall key with
          | .stored =>
              ((key, value.toText env.str) :: (savedPasswords data keys).1,
                (savedPasswords data keys).2)
          | .refused => savedPasswords data keys
          | .raised => ([], false)

/-- `save`, and whether it returns. -/
def save (data : Data) (world : World) : World × Bool :=
  if answers.directoryFails then (world, false)
  else
    let keyring := (savedPasswords env answers data savedKeys).1.foldl put world.keyring
    if (savedPasswords env answers data savedKeys).2 then
      match answers.fileWrite with
      | .written => (⟨some (saved data), keyring⟩, true)
      | .notOpened => (⟨world.file, keyring⟩, false)
      | .brokenOff left => (⟨left, keyring⟩, false)
    else (⟨world.file, keyring⟩, false)

section

variable (keyring : String → Option String)

def getKeyring (key : String) : String :=
  if answers.getFails key then "" else (keyring key).getD ""

/-- `create_provider` returns. -/
def createsProvider (target : Toml) (key : String) : Bool :=
  match target with
  | .string name =>
      name = "" || (["anthropic", "deepseek"].contains (lower env.text name) && key ≠ "") ||
        lower env.text name = "ollama"
  -- a value that is no text has no `lower`; a false one is not looked at
  | value => !value.truthy

/-- The key for a provider that is named. -/
def providerKey (update : Update) : String :=
  let key := getKeyring answers keyring
    ((providerKeyMap.lookup update.llmProvider).getD "llm_api_key")
  if update.llmApiKey ≠ "" then update.llmApiKey
  else if key = "" ∧ update.llmProvider ≠ "ollama" then getKeyring answers keyring "llm_api_key"
  else key

def doLlmReload (update : Update) (target : Toml) : Bool :=
  let key := providerKey answers keyring update
  if key = "" ∧ update.llmProvider ≠ "ollama" then false
  else createsProvider env target key && answers.swaps

/-- `llm_provider or getattr(self.config, "llm_provider", "deepseek")` -/
def targetProvider (data : Data) (update : Update) : Toml :=
  if update.llmProvider ≠ "" then .string update.llmProvider
  else (data "llm_provider").getD (.string "deepseek")

/-- The message about the provider; what is no text has no `capitalize`. -/
def llmMessages (data : Data) (keyring : String → Option String) (update : Update) :
    Except Unit (List String) :=
  if update.llmProvider ≠ "" ∨ update.llmApiKey ≠ "" then
    let target := targetProvider data update
    if doLlmReload env answers keyring update target then
      match target with
      | .string name => .ok ["LLM cambiado a " ++ env.capitalize name]
      | _ => .error ()
    else
      .ok ["LLM: no se pudo cambiar a " ++ target.toText env.str ++ " (verifica la API key)"]
  else .ok []

/-- The message about Telegram. -/
def telegramMessages (update : Update) : List String :=
  if update.telegramToken = "" then []
  else if answers.telegramReloads then ["Telegram reconectado"]
  else ["Telegram: token guardado, reinicia para activar"]

/-! ## The handler -/

/-- `CONFIG_UPDATED` -/
structure Reply where
  id : Json
  success : Bool
  message : String

def statusMessage (reloads : List String) : String :=
  if reloads = [] then "Configuración guardada."
  else "Configuración guardada. " ++ " | ".intercalate reloads ++ "."

/-- The keyring behind the calls of `_set_keyring`; one that fails is passed over. -/
def setKeyring (update : Update) : String → Option String :=
  (update.keyringWrites.filter fun entry => !answers.setFails entry.1).foldl put keyring

end

def fieldKeys : List String :=
  ["llm_provider", "telegram_chat_id", "llm_api_key", "nexus_api_key", "telegram_bot_token"]

theorem keys_sublist (update : Update) : (update.fields.map Prod.fst).Sublist fieldKeys := by
  unfold Update.fields
  rw [List.map_append]
  exact List.Sublist.append ((List.filter_sublist).map Prod.fst) ((List.filter_sublist).map Prod.fst)

theorem keys_setFields (fields : List (String × String)) :
    (fields.map fun field => (field.1, Toml.string field.2)).map Prod.fst = fields.map Prod.fst := by
  rw [List.map_map]
  rfl

theorem setFields_of_not_mem {fields : List (String × String)} {key : String}
    (h : key ∉ fields.map Prod.fst) (data : Data) : setFields data fields key = data key :=
  PartialMap.foldl_put_of_not_mem (by rw [keys_setFields]; exact h) data

open Config

theorem section_not_field (update : Update) :
    ∀ sectionField ∈ sectionFields, sectionField.1 ∉ update.fields.map Prod.fst := by
  intro sectionField hmem hfield
  have hkey : ∀ sectionField ∈ sectionFields, sectionField.1 ∉ fieldKeys := by decide
  exact hkey sectionField hmem ((keys_sublist update).subset hfield)

theorem loadable_setFields {data : Data} (h : Loadable data) (update : Update) :
    Loadable (setFields data update.fields) := by
  intro sectionField hmem value hvalue
  rw [setFields_of_not_mem (section_not_field update sectionField hmem)] at hvalue
  exact h sectionField hmem value hvalue

/-- The configuration in memory with an update. -/
def Settings.withUpdate (settings : Settings) (update : Update) : Settings :=
  ⟨setFields settings.data update.fields, loadable_setFields settings.loadable update⟩

/-- The persistence phase, and whether `save` returns. -/
def persist (s : State) (update : Update) : State × Bool :=
  let settings := s.settings.withUpdate update
  let done := save env answers settings.data
    ⟨s.world.file, setKeyring answers s.world.keyring update⟩
  (⟨settings, done.1⟩, done.2)

/-- `_handle_update_config`, for the identifier of a message and its content. -/
def handleUpdateConfig (s : State) (id content : Json) : State × Reply :=
  match readUpdate env content with
  | .error message => (s, ⟨id, false, message⟩)
  | .ok update =>
      let done := persist env answers s update
      if done.2 then
        match llmMessages env answers done.1.settings.data done.1.world.keyring update with
        | .ok reloads =>
            (done.1, ⟨id, true, statusMessage (reloads ++ telegramMessages answers update)⟩)
        | .error () => (done.1, ⟨id, false, internalError⟩)
      else (done.1, ⟨id, false, internalError⟩)

/-- A `Config` that is constructed with a keyring that can be read has all the fields. -/
def Yields (moddingRoot : String) (world : World) (fields : List (String × String)) : Prop :=
  ∀ failures : Failures, failures.get = (fun _ => false) →
    ∃ data world', init env.str moddingRoot failures world = .ok (data, world') ∧
      ∀ field ∈ fields, data field.1 = some (.string field.2)

/-- **A message is handled as a whole or not at all**, and the reply says which. -/
def Atomic (moddingRoot : String) (s : State) (id content : Json) : Prop :=
  let (t, reply) := handleUpdateConfig env answers s id content
  (reply.success = false → t = s) ∧
    (reply.success = true → ∀ update, readUpdate env content = .ok update →
      Yields env moddingRoot t.world update.fields)

/-- A call of the loop of `save` raises. -/
def CallRaises (data : Data) : Prop :=
  ∃ key ∈ savedKeys, data.value key ≠ none ∧ answers.saveCall key = .raised

/-- `save` returns. -/
def SaveReturns (data : Data) : Prop :=
  answers.directoryFails = false ∧ ¬ CallRaises answers data ∧ answers.fileWrite = .written

/-- The hot reload raises: the provider that is configured is a false value that is no text. -/
def ReloadRaises (data : Data) (update : Update) : Prop :=
  update.llmProvider = "" ∧ update.llmApiKey ≠ "" ∧ answers.swaps = true ∧
    ∃ value ∈ data "llm_provider", value.truthy = false ∧ ∀ text, value ≠ .string text

/-- No step of an update fails as a whole. -/
def Completes (s : State) (update : Update) : Prop :=
  SaveReturns answers (setFields s.settings.data update.fields) ∧
    ¬ ReloadRaises answers s.settings.data update

/-- Every secret is stored by one of its two calls, or is known already. -/
def KeepsSecrets (s : State) (update : Update) : Prop :=
  ∀ secret ∈ update.secrets, answers.setFails secret.1 = false ∨
    answers.saveCall secret.1 = .stored ∨ s.world.keyring secret.1 = some secret.2 ∨
    (s.world.keyring secret.1).filter (· ≠ "") = none ∧
      s.settings.data.sectionValue secret.1 = some (.string secret.2)

/-- The passwords that an update stores, one after another. -/
def writes (s : State) (update : Update) : List (String × String) :=
  (update.keyringWrites.filter fun entry => !answers.setFails entry.1) ++
    if answers.directoryFails then []
    else (savedPasswords env answers (setFields s.settings.data update.fields) savedKeys).1

/-- The file is not written, or is left as it was. -/
def KeepsFile (s : State) (update : Update) : Prop :=
  answers.directoryFails = true ∨ CallRaises answers (setFields s.settings.data update.fields) ∨
    match answers.fileWrite with
    | .written => some (saved (setFields s.settings.data update.fields)) = s.world.file
    | .notOpened => True
    | .brokenOff left => left = s.world.file

/-- An update brings nothing new to any of the stores. -/
structure BringsNothing (s : State) (update : Update) : Prop where
  memory : ∀ field ∈ update.fields, s.settings.data field.1 = some (.string field.2)
  keyring : ∀ key value, IsLast (writes env answers s update) key value →
    s.world.keyring key = some value
  file : KeepsFile answers s update

/-! ## What `save` does -/

variable {keys : List String}

theorem savedPasswords_snd_iff {data : Data} :
    (savedPasswords env answers data keys).2 = true ↔
      ¬ ∃ key ∈ keys, data.value key ≠ none ∧ answers.saveCall key = .raised := by
  induction keys with
  | nil => exact iff_of_true rfl fun ⟨_, hmem, _⟩ => List.not_mem_nil hmem
  | cons key keys ih =>
      rw [List.exists_mem_cons_iff]
      unfold savedPasswords
      cases hvalue : data.value key with
      | none =>
          rw [or_iff_right fun h => h.1 rfl]
          exact ih
      | some value =>
          dsimp only
          cases hcall : answers.saveCall key with
          | stored | refused =>
              rw [or_iff_right fun h => by cases h.2]
              exact ih
          | raised =>
              refine iff_of_false Bool.false_ne_true (not_not.mpr (.inl ⟨?_, rfl⟩))
              exact nofun

/-- What a loop that comes to its end stores for a key. -/
theorem mem_savedPasswords_iff {data : Data}
    (h : (savedPasswords env answers data keys).2 = true) {key password : String} :
    (key, password) ∈ (savedPasswords env answers data keys).1 ↔
      key ∈ keys ∧ answers.saveCall key = .stored ∧
        ∃ value, data.value key = some value ∧ value.toText env.str = password := by
  induction keys with
  | nil => exact iff_of_false List.not_mem_nil fun h => List.not_mem_nil h.1
  | cons first keys ih =>
      unfold savedPasswords at h ⊢
      rw [List.mem_cons]
      cases hvalue : data.value first with
      | none =>
          simp only [hvalue] at h
          rw [ih h]
          refine and_congr_left fun hstored => (or_iff_right ?_).symm
          rintro rfl
          obtain ⟨_, value, hsome, _⟩ := hstored
          rw [hvalue] at hsome
          cases hsome
      | some value =>
          simp only [hvalue] at h
          dsimp only
          cases hcall : answers.saveCall first with
          | stored =>
              simp only [hcall] at h
              dsimp only
              rw [List.mem_cons, ih h, Prod.mk.injEq]
              constructor
              · rintro (⟨rfl, rfl⟩ | ⟨hmem, hstored⟩)
                · exact ⟨.inl rfl, hcall, value, hvalue, rfl⟩
                · exact ⟨.inr hmem, hstored⟩
              · rintro ⟨rfl | hmem, hstored⟩
                · obtain ⟨_, found, hfound, rfl⟩ := hstored
                  cases hvalue.symm.trans hfound
                  exact .inl ⟨rfl, rfl⟩
                · exact .inr ⟨hmem, hstored⟩
          | refused =>
              simp only [hcall] at h
              dsimp only
              rw [ih h]
              refine and_congr_left fun hstored => (or_iff_right ?_).symm
              rintro rfl
              rw [hcall] at hstored
              cases hstored.1
          | raised =>
              simp only [hcall] at h
              cases h

theorem savedPasswords_sublist (data : Data) (keys : List String) :
    ((savedPasswords env answers data keys).1.map Prod.fst).Sublist keys := by
  induction keys with
  | nil => exact List.Sublist.refl []
  | cons key keys ih =>
      unfold savedPasswords
      cases data.value key with
      | none => exact ih.cons key
      | some value =>
          dsimp only
          cases answers.saveCall key with
          | stored => exact ih.cons_cons key
          | refused => exact ih.cons key
          | raised => exact List.nil_sublist _

/-- A loop that comes to its end does what the loop of `Config.save` does. -/
theorem foldl_savedPasswords {data : Data}
    (h : (savedPasswords env answers data keys).2 = true) (keyring : String → Option String) :
    (savedPasswords env answers data keys).1.foldl put keyring =
      keys.foldl (saveKey env.str (fun key => answers.saveCall key = .refused) data)
        keyring := by
  induction keys generalizing keyring with
  | nil => rfl
  | cons key keys ih =>
      unfold savedPasswords at h ⊢
      rw [List.foldl_cons]
      unfold saveKey
      cases hvalue : data.value key with
      | none =>
          simp only [hvalue] at h
          exact ih h keyring
      | some value =>
          simp only [hvalue] at h
          dsimp only
          cases hcall : answers.saveCall key with
          | stored =>
              simp only [hcall] at h
              exact ih h _
          | refused =>
              simp only [hcall] at h
              exact ih h keyring
          | raised =>
              simp only [hcall] at h
              cases h

theorem save_snd_iff {data : Data} {world : World} :
    (save env answers data world).2 = true ↔ SaveReturns answers data := by
  have hloop : (savedPasswords env answers data savedKeys).2 = true ↔
      ¬ ∃ key ∈ savedKeys, data.value key ≠ none ∧ answers.saveCall key = .raised :=
    savedPasswords_snd_iff env answers
  unfold save SaveReturns CallRaises
  rw [← hloop]
  cases answers.directoryFails with
  | true => exact iff_of_false Bool.false_ne_true fun h => Bool.noConfusion h.1
  | false =>
      simp only [Bool.false_eq_true, if_false, true_and]
      cases (savedPasswords env answers data savedKeys).2 with
      | false => exact iff_of_false Bool.false_ne_true fun h => Bool.false_ne_true h.1
      | true =>
          simp only [if_true, true_and]
          cases answers.fileWrite with
          | written => exact iff_of_true rfl rfl
          | notOpened | brokenOff => exact iff_of_false Bool.false_ne_true nofun

theorem save_eq {data : Data} (h : SaveReturns answers data) (world : World) :
    save env answers data world =
      (Config.save env.str (fun key => answers.saveCall key = .refused) data world, true) := by
  obtain ⟨hdirectory, hcalls, hfile⟩ := h
  have hloop := (savedPasswords_snd_iff env answers).mpr hcalls
  unfold save
  rw [hdirectory, hloop, hfile, foldl_savedPasswords env answers hloop]
  rfl

theorem save_keyring (data : Data) (world : World) :
    (save env answers data world).1.keyring =
      (if answers.directoryFails then [] else (savedPasswords env answers data savedKeys).1).foldl put
        world.keyring := by
  unfold save
  cases answers.directoryFails with
  | true => rfl
  | false =>
      simp only [Bool.false_eq_true, if_false]
      cases (savedPasswords env answers data savedKeys).2 with
      | false => rfl
      | true => cases answers.fileWrite <;> rfl

theorem save_file_iff (data : Data) (world : World) :
    (save env answers data world).1.file = world.file ↔
      answers.directoryFails = true ∨ CallRaises answers data ∨
        match answers.fileWrite with
        | .written => some (saved data) = world.file
        | .notOpened => True
        | .brokenOff left => left = world.file := by
  have hloop : (savedPasswords env answers data savedKeys).2 = true ↔
      ¬ ∃ key ∈ savedKeys, data.value key ≠ none ∧ answers.saveCall key = .raised :=
    savedPasswords_snd_iff env answers
  unfold save CallRaises
  cases answers.directoryFails with
  | true => exact iff_of_true rfl (.inl rfl)
  | false =>
      simp only [Bool.false_eq_true, if_false, false_or]
      cases hend : (savedPasswords env answers data savedKeys).2 with
      | false =>
          refine iff_of_true rfl (.inl ?_)
          by_contra hnone
          rw [hloop.mpr hnone] at hend
          cases hend
      | true =>
          rw [or_iff_right (hloop.mp hend)]
          cases answers.fileWrite with
          | written | brokenOff => exact Iff.rfl
          | notOpened => exact iff_of_true rfl trivial

theorem doLlmReload_of_key {update : Update} (h : update.llmApiKey ≠ "") (target : Toml)
    (keyring : String → Option String) :
    doLlmReload env answers keyring update target =
      (createsProvider env target update.llmApiKey && answers.swaps) := by
  have hkey : providerKey answers keyring update = update.llmApiKey := if_pos h
  unfold doLlmReload
  rw [hkey]
  exact if_neg fun hempty => h hempty.1

theorem createsProvider_of_not_text {target : Toml} (h : ∀ text, target ≠ .string text)
    (key : String) : createsProvider env target key = !target.truthy := by
  cases target with
  | string text => exact absurd rfl (h text)
  | integer | float | boolean | datetime | array | table => rfl

theorem llmMessages_eq_error_iff {before data : Data} {keyring : String → Option String}
    {update : Update} (hkept : update.llmProvider = "" → data "llm_provider" = before "llm_provider") :
    llmMessages env answers data keyring update = .error () ↔
      ReloadRaises answers before update := by
  unfold llmMessages ReloadRaises targetProvider
  by_cases hprovider : update.llmProvider = ""
  · by_cases hkey : update.llmApiKey = ""
    · rw [if_neg (not_or.mpr ⟨not_not.mpr hprovider, not_not.mpr hkey⟩)]
      exact iff_of_false nofun fun h => h.2.1 hkey
    · rw [if_pos (.inr hkey), if_neg (not_not.mpr hprovider), hkept hprovider]
      dsimp only
      rw [doLlmReload_of_key env answers hkey]
      by_cases htext : ∃ text, (before "llm_provider").getD (.string "deepseek") = .string text
      · obtain ⟨text, htext⟩ := htext
        rw [htext]
        refine iff_of_false (fun h => ?_) ?_
        · split at h
          · cases h
          · cases h
        · rintro ⟨_, _, _, value, hvalue, _, hnot⟩
          rw [Option.mem_def.mp hvalue] at htext
          exact hnot text htext
      · obtain ⟨value, hvalue, hnot⟩ : ∃ value, before "llm_provider" = some value ∧
            ∀ text, value ≠ .string text := by
          cases hvalue : before "llm_provider" with
          | none =>
              rw [hvalue] at htext
              exact absurd ⟨"deepseek", rfl⟩ htext
          | some value =>
              rw [hvalue] at htext
              exact ⟨value, rfl, not_exists.mp htext⟩
        rw [hvalue, Option.getD_some, createsProvider_of_not_text env hnot]
        constructor
        · intro h
          split at h
          · next hswaps =>
              rw [Bool.and_eq_true, Bool.not_eq_true'] at hswaps
              exact ⟨hprovider, hkey, hswaps.2, value, rfl, hswaps.1, hnot⟩
          · cases h
        · rintro ⟨_, _, hswaps, found, hfound, hfalse, _⟩
          cases hfound
          rw [hfalse, hswaps, if_pos (show (!false && true) = true from rfl)]
          split
          · exact absurd rfl (hnot _)
          · rfl
  · rw [if_pos (.inl hprovider)]
    dsimp only
    rw [if_pos hprovider]
    refine iff_of_false (fun h => ?_) fun h => hprovider h.1
    split at h
    · cases h
    · cases h

/-! ## The verdict -/

theorem keys_nodup (update : Update) : (update.fields.map Prod.fst).Nodup :=
  (keys_sublist update).nodup (by decide)

theorem isLast_of_mem {entries : List (String × Toml)} (hnodup : (entries.map Prod.fst).Nodup)
    {key : String} {value : Toml} : IsLast entries key value ↔ (key, value) ∈ entries := by
  constructor
  · rintro ⟨before, after, rfl, _⟩
    exact List.mem_append_right _ List.mem_cons_self
  · intro hmem
    obtain ⟨before, after, rfl⟩ := List.append_of_mem hmem
    refine ⟨before, after, rfl, ?_⟩
    rw [List.map_append, List.map_cons, List.nodup_append, List.nodup_cons] at hnodup
    exact hnodup.2.1.1

theorem setFields_eq_self_iff {data : Data} {update : Update} :
    setFields data update.fields = data ↔
      ∀ field ∈ update.fields, data field.1 = some (.string field.2) := by
  have hnodup : ((update.fields.map fun field => (field.1, Toml.string field.2)).map
      Prod.fst).Nodup := by
    rw [keys_setFields]
    exact keys_nodup update
  unfold setFields
  rw [PartialMap.foldl_put_eq_self_iff]
  constructor
  · intro h field hfield
    exact h field.1 _ ((isLast_of_mem hnodup).mpr (List.mem_map.mpr ⟨field, hfield, rfl⟩))
  · intro h key value hlast
    obtain ⟨field, hfield, heq⟩ := List.mem_map.mp ((isLast_of_mem hnodup).mp hlast)
    cases heq
    exact h field hfield

theorem persist_keyring (s : State) (update : Update) :
    (persist env answers s update).1.world.keyring =
      (writes env answers s update).foldl put s.world.keyring := by
  unfold writes
  rw [List.foldl_append]
  exact save_keyring env answers _ _

variable {s : State}

theorem persist_eq_self_iff {update : Update} :
    (persist env answers s update).1 = s ↔ BringsNothing env answers s update := by
  have hmemory : (persist env answers s update).1.settings = s.settings ↔
      ∀ field ∈ update.fields, s.settings.data field.1 = some (.string field.2) := by
    rw [Settings.ext_iff]
    exact setFields_eq_self_iff
  have hkeyring : (persist env answers s update).1.world.keyring = s.world.keyring ↔
      ∀ key value, IsLast (writes env answers s update) key value →
        s.world.keyring key = some value := by
    rw [persist_keyring]
    exact PartialMap.foldl_put_eq_self_iff
  have hfile : (persist env answers s update).1.world.file = s.world.file ↔
      KeepsFile answers s update := save_file_iff env answers _ _
  constructor
  · intro heq
    exact ⟨hmemory.mp (by rw [heq]), hkeyring.mp (by rw [heq]), hfile.mp (by rw [heq])⟩
  · rintro ⟨h1, h2, h3⟩
    rcases hdone : (persist env answers s update).1 with ⟨settings, file, keyring⟩
    rw [hdone] at hmemory hkeyring hfile
    obtain ⟨settings', file', keyring'⟩ := s
    obtain rfl := hmemory.mpr h1
    obtain rfl := hkeyring.mpr h2
    obtain rfl := hfile.mpr h3
    rfl

/-! ### What is yielded afterwards -/

/-- The keys of the keyring that an update may set. -/
theorem keyringWrites_sublist (update : Update) : ∃ provider ∈ ["deepseek_api_key", "anthropic_api_key"],
    (update.keyringWrites.map Prod.fst).Sublist
      ["llm_api_key", provider, "nexus_api_key", "telegram_bot_token"] := by
  have hlookup : ∃ provider ∈ ["deepseek_api_key", "anthropic_api_key"],
      (((providerKeyMap.lookup update.llmProvider).map fun key =>
        (key, update.llmApiKey)).toList.map Prod.fst).Sublist [provider] := by
    cases hfound : providerKeyMap.lookup update.llmProvider with
    | none => exact ⟨_, List.mem_cons_self, List.nil_sublist _⟩
    | some key =>
        refine ⟨key, ?_, List.Sublist.refl _⟩
        obtain ⟨before, after, heq, _⟩ := List.lookup_eq_some_iff.mp hfound
        have hentry : (update.llmProvider, key) ∈ providerKeyMap := by
          rw [heq]
          exact List.mem_append_right _ List.mem_cons_self
        exact List.mem_map_of_mem (f := Prod.snd) hentry
  obtain ⟨provider, hmem, hprovider⟩ := hlookup
  have hrest : (([("nexus_api_key", update.nexusApiKey),
      ("telegram_bot_token", update.telegramToken)].filter (·.2 ≠ "")).map Prod.fst).Sublist
        ["nexus_api_key", "telegram_bot_token"] := (List.filter_sublist).map Prod.fst
  refine ⟨provider, hmem, ?_⟩
  unfold Update.keyringWrites
  rw [List.map_append]
  have hfirst : ((if update.llmApiKey ≠ "" then
      ("llm_api_key", update.llmApiKey) ::
        ((providerKeyMap.lookup update.llmProvider).map fun key => (key, update.llmApiKey)).toList
      else []).map Prod.fst).Sublist ["llm_api_key", provider] := by
    by_cases hkey : update.llmApiKey ≠ ""
    · rw [if_pos hkey]
      exact hprovider.cons_cons "llm_api_key"
    · rw [if_neg hkey]
      exact List.nil_sublist _
  exact hfirst.append hrest

theorem keyringWrites_nodup (update : Update) : (update.keyringWrites.map Prod.fst).Nodup := by
  obtain ⟨provider, hmem, hsublist⟩ := keyringWrites_sublist update
  refine hsublist.nodup ?_
  exact (show ∀ provider ∈ ["deepseek_api_key", "anthropic_api_key"],
    ["llm_api_key", provider, "nexus_api_key", "telegram_bot_token"].Nodup by decide) provider hmem

theorem secret_mem_keyringWrites {update : Update} {secret : String × String}
    (h : secret ∈ update.secrets) : secret ∈ update.keyringWrites := by
  obtain ⟨hmem, hne⟩ := List.mem_filter.mp h
  have hne : secret.2 ≠ "" := of_decide_eq_true hne
  unfold Update.keyringWrites
  simp only [List.mem_cons, List.not_mem_nil, or_false] at hmem
  rcases hmem with rfl | hmem
  · rw [if_pos hne]
    exact List.mem_append_left _ List.mem_cons_self
  · refine List.mem_append_right _ (List.mem_filter.mpr ⟨?_, decide_eq_true hne⟩)
    simpa only [List.mem_cons, List.not_mem_nil, or_false] using hmem

theorem secret_key {update : Update} {secret : String × String} (h : secret ∈ update.secrets) :
    secret.1 ∈ ["llm_api_key", "nexus_api_key", "telegram_bot_token"] := by
  have hsublist : (update.secrets.map Prod.fst).Sublist
      ["llm_api_key", "nexus_api_key", "telegram_bot_token"] := (List.filter_sublist).map Prod.fst
  exact hsublist.subset (List.mem_map_of_mem h)

theorem plainField_key {update : Update} {field : String × String} (h : field ∈ update.plainFields) :
    field.1 ∈ ["llm_provider", "telegram_chat_id"] := by
  have hsublist : (update.plainFields.map Prod.fst).Sublist ["llm_provider", "telegram_chat_id"] :=
    (List.filter_sublist).map Prod.fst
  exact hsublist.subset (List.mem_map_of_mem h)

theorem setFields_of_mem {update : Update} {field : String × String} (h : field ∈ update.fields)
    (data : Data) : setFields data update.fields field.1 = some (.string field.2) := by
  have hnodup : ((update.fields.map fun field => (field.1, Toml.string field.2)).map
      Prod.fst).Nodup := by
    rw [keys_setFields]
    exact keys_nodup update
  exact PartialMap.foldl_put_of_mem hnodup (List.mem_map.mpr ⟨field, h, rfl⟩) data

theorem secret_ne_empty {update : Update} {secret : String × String} (h : secret ∈ update.secrets) :
    secret.2 ≠ "" := of_decide_eq_true (List.mem_filter.mp h).2

/-- A secret in the keyring: stored by one of its calls, or what was there. -/
theorem keyring_secret {update : Update} {secret : String × String}
    (hmem : secret ∈ update.secrets)
    (h : SaveReturns answers (setFields s.settings.data update.fields)) :
    (persist env answers s update).1.world.keyring secret.1 =
      if answers.setFails secret.1 = false ∨ answers.saveCall secret.1 = .stored then some secret.2
      else s.world.keyring secret.1 := by
  obtain ⟨hdirectory, hcalls, _⟩ := h
  have hloop := (savedPasswords_snd_iff env answers).mpr hcalls
  have hvalue : (setFields s.settings.data update.fields).value secret.1 =
      some (.string secret.2) := by
    unfold Data.value
    rw [setFields_of_mem (List.mem_append_right _ hmem)]
    exact if_pos (decide_eq_true (secret_ne_empty hmem))
  have hkey : secret.1 ∈ savedKeys :=
    (show ∀ key ∈ ["llm_api_key", "nexus_api_key", "telegram_bot_token"], key ∈ savedKeys by
      decide) _ (secret_key hmem)
  rw [persist_keyring, writes, hdirectory, List.foldl_append]
  simp only [Bool.false_eq_true, if_false]
  by_cases hstored : answers.saveCall secret.1 = .stored
  · rw [if_pos (.inr hstored)]
    refine PartialMap.foldl_put_of_mem ?_ ?_ _
    · exact (savedPasswords_sublist env answers _ savedKeys).nodup savedKeys_nodup
    · exact (mem_savedPasswords_iff env answers hloop).mpr ⟨hkey, hstored, _, hvalue, rfl⟩
  · have hnone : secret.1 ∉ (savedPasswords env answers (setFields s.settings.data update.fields)
        savedKeys).1.map Prod.fst := by
      intro hsaved
      obtain ⟨entry, hentry, heq⟩ := List.mem_map.mp hsaved
      have hcall := ((mem_savedPasswords_iff env answers hloop).mp hentry).2.1
      rw [heq] at hcall
      exact hstored hcall
    rw [PartialMap.foldl_put_of_not_mem hnone]
    have hsublist : (update.keyringWrites.filter fun entry => !answers.setFails entry.1).Sublist
      update.keyringWrites := List.filter_sublist
    by_cases hset : answers.setFails secret.1 = false
    · rw [if_pos (.inl hset)]
      refine PartialMap.foldl_put_of_mem ((hsublist.map Prod.fst).nodup
        (keyringWrites_nodup update)) ?_ _
      exact List.mem_filter.mpr ⟨secret_mem_keyringWrites hmem, by rw [hset]; rfl⟩
    · rw [if_neg (not_or.mpr ⟨hset, hstored⟩)]
      refine PartialMap.foldl_put_of_not_mem (fun hwritten => ?_) _
      obtain ⟨entry, hentry, heq⟩ := List.mem_map.mp hwritten
      have hfails := (List.mem_filter.mp hentry).2
      rw [heq] at hfails
      exact hset (by simpa using hfails)

theorem saved_setFields_section (data : Data) (update : Update) :
    ∀ sectionField ∈ sectionFields,
      saved (setFields data update.fields) sectionField.1 = data sectionField.1 := by
  intro sectionField hmem
  rw [saved_of_not_mem (section_not_key sectionField hmem).2.1,
    setFields_of_not_mem (section_not_field update sectionField hmem)]

theorem sectionValue_saved (data : Data) (update : Update) (key : String) :
    (saved (setFields data update.fields)).sectionValue key = data.sectionValue key := by
  unfold Data.sectionValue
  cases hfind : sectionFields.find? (·.2.2 = key) with
  | none => rfl
  | some sectionField =>
      rw [Option.bind_some, Option.bind_some]
      unfold Data.nested
      rw [saved_setFields_section data update sectionField (List.mem_of_find?_eq_some hfind)]

/-- What is yielded for a secret: the password, or else what a section of the file has. -/
theorem yielded_secret_iff (moddingRoot : String) {data : Data} {update : Update}
    {secret : String × String} (hmem : secret ∈ update.secrets) (keyring : String → Option String) :
    yielded moddingRoot (saved (setFields data update.fields)) keyring secret.1 =
        some (.string secret.2) ↔
      keyring secret.1 = some secret.2 ∨ (keyring secret.1).filter (· ≠ "") = none ∧
        data.sectionValue secret.1 = some (.string secret.2) := by
  have hne := secret_ne_empty hmem
  obtain ⟨hsensitive, hsaved, hdefault⟩ := (show ∀ key ∈ ["llm_api_key", "nexus_api_key",
    "telegram_bot_token"], key ∈ sensitiveKeys ∧ key ∈ savedKeys ∧
      key ≠ "first_run" ∧ (defaultTexts moddingRoot).lookup key = some "" by
        simp [sensitiveKeys, savedKeys, defaultTexts, List.lookup_cons]) _
          (secret_key hmem)
  have hbase : defaults moddingRoot secret.1 = some (.string "") := by
    unfold defaults
    rw [if_neg hdefault.1, hdefault.2]
    rfl
  unfold yielded Data.over
  rw [if_pos hsensitive, saved_of_mem hsaved, Option.none_or, sectionValue_saved, hbase]
  cases hkeyring : (keyring secret.1).filter (· ≠ "") with
  | some password =>
      obtain ⟨hpassword, _⟩ := Option.filter_eq_some_iff.mp hkeyring
      rw [hpassword, Option.map_some, Option.some_or, Option.some.injEq, Toml.string.injEq,
        Option.some.injEq]
      exact ⟨.inl, fun h => h.elim id fun h => by cases h.1⟩
  | none =>
      have hother : keyring secret.1 ≠ some secret.2 := by
        intro hsome
        exact Option.filter_eq_none_iff.mp hkeyring secret.2 hsome (decide_eq_true hne)
      rw [Option.map_none, Option.none_or, or_iff_right hother]
      cases data.sectionValue secret.1 with
      | none =>
          refine iff_of_false (fun h => ?_) fun h => by cases h.2
          exact hne (Toml.string.inj (Option.some.inj h)).symm
      | some value => exact ⟨fun h => ⟨rfl, h⟩, fun h => h.2⟩

theorem yielded_plainField (moddingRoot : String) (data : Data) {update : Update}
    {field : String × String} (hmem : field ∈ update.plainFields)
    (keyring : String → Option String) :
    yielded moddingRoot (saved (setFields data update.fields)) keyring field.1 =
      some (.string field.2) := by
  have hkey := plainField_key hmem
  have hsensitive : field.1 ∉ sensitiveKeys :=
    (show ∀ key ∈ ["llm_provider", "telegram_chat_id"], key ∉ sensitiveKeys by decide) _ hkey
  have hsaved : field.1 ∉ savedKeys :=
    (show ∀ key ∈ ["llm_provider", "telegram_chat_id"], key ∉ savedKeys by decide) _ hkey
  unfold yielded Data.over
  rw [if_neg hsensitive, saved_of_not_mem hsaved,
    setFields_of_mem (List.mem_append_left _ hmem), Option.some_or]

theorem persist_file {update : Update}
    (h : SaveReturns answers (setFields s.settings.data update.fields)) :
    (persist env answers s update).1.world.file =
      some (saved (setFields s.settings.data update.fields)) := by
  unfold persist
  dsimp only
  rw [show (s.settings.withUpdate update).data = setFields s.settings.data update.fields from rfl,
    save_eq env answers h]
  rfl

theorem loadable_saved (settings : Settings) (update : Update) :
    Loadable (saved (setFields settings.data update.fields)) := by
  intro sectionField hmem value hvalue
  rw [saved_setFields_section settings.data update sectionField hmem] at hvalue
  exact settings.loadable sectionField hmem value hvalue

theorem yielded_persist_iff (moddingRoot : String) {update : Update}
    (h : SaveReturns answers (setFields s.settings.data update.fields))
    {secret : String × String} (hmem : secret ∈ update.secrets) :
    yielded moddingRoot (saved (setFields s.settings.data update.fields))
        (persist env answers s update).1.world.keyring secret.1 = some (.string secret.2) ↔
      answers.setFails secret.1 = false ∨ answers.saveCall secret.1 = .stored ∨
        s.world.keyring secret.1 = some secret.2 ∨
        (s.world.keyring secret.1).filter (· ≠ "") = none ∧
          s.settings.data.sectionValue secret.1 = some (.string secret.2) := by
  rw [yielded_secret_iff moddingRoot hmem, keyring_secret env answers hmem h, ← or_assoc]
  by_cases hstored : answers.setFails secret.1 = false ∨ answers.saveCall secret.1 = .stored
  · rw [if_pos hstored]
    exact iff_of_true (.inl rfl) (.inl hstored)
  · rw [if_neg hstored, or_iff_right hstored]

theorem yields_iff (moddingRoot : String) {update : Update}
    (h : SaveReturns answers (setFields s.settings.data update.fields)) :
    Yields env moddingRoot (persist env answers s update).1.world update.fields ↔
      KeepsSecrets answers s update := by
  have hworld : (persist env answers s update).1.world =
      ⟨some (saved (setFields s.settings.data update.fields)),
        (persist env answers s update).1.world.keyring⟩ := by
    rw [← persist_file env answers h]
  unfold Yields
  rw [hworld]
  have hinit : ∀ failures : Failures, failures.get = (fun _ => false) →
      ∃ world, init env.str moddingRoot failures
        ⟨some (saved (setFields s.settings.data update.fields)),
          (persist env answers s update).1.world.keyring⟩ =
        .ok (yielded moddingRoot (saved (setFields s.settings.data update.fields))
          (persist env answers s update).1.world.keyring, world) := fun failures hget =>
    init_eq env.str moddingRoot hget (loadable_saved s.settings update) _
  constructor
  · intro hyields secret hmem
    obtain ⟨data, world', hok, hfields⟩ :=
      hyields ⟨fun _ => false, fun _ => false, fun _ => false⟩ rfl
    obtain ⟨world'', heq⟩ := hinit ⟨fun _ => false, fun _ => false, fun _ => false⟩ rfl
    rw [heq] at hok
    cases hok
    exact (yielded_persist_iff env answers moddingRoot h hmem).mp
      (hfields secret (List.mem_append_right _ hmem))
  · intro hkeeps failures hget
    obtain ⟨world', heq⟩ := hinit failures hget
    refine ⟨_, world', heq, fun field hfield => ?_⟩
    rcases List.mem_append.mp hfield with hplain | hsecret
    · exact yielded_plainField moddingRoot s.settings.data hplain _
    · exact (yielded_persist_iff env answers moddingRoot h hsecret).mpr (hkeeps field hsecret)

/-! ### The two ends of an update -/

variable {answers env}

theorem persist_provider {update : Update} (h : update.llmProvider = "") :
    (persist env answers s update).1.settings.data "llm_provider" =
      s.settings.data "llm_provider" := by
  refine setFields_of_not_mem (fun hmem => ?_) _
  obtain ⟨field, hfield, hkey⟩ := List.mem_map.mp hmem
  rcases List.mem_append.mp hfield with hplain | hsecret
  · obtain ⟨hin, hne⟩ := List.mem_filter.mp hplain
    simp only [List.mem_cons, List.not_mem_nil, or_false] at hin
    rcases hin with rfl | rfl
    · exact of_decide_eq_true hne h
    · exact absurd (show "telegram_chat_id" = "llm_provider" from hkey) (by decide)
  · have hother : ∀ key ∈ ["llm_api_key", "nexus_api_key", "telegram_bot_token"],
        key ≠ "llm_provider" := by decide
    exact hother _ (secret_key hsecret) hkey

theorem persist_snd_iff {update : Update} :
    (persist env answers s update).2 = true ↔
      SaveReturns answers (setFields s.settings.data update.fields) :=
  save_snd_iff env answers

theorem handle_of_completes {id content : Json} {update : Update}
    (hread : readUpdate env content = .ok update) (h : Completes answers s update) :
    ∃ message, handleUpdateConfig env answers s id content =
      ((persist env answers s update).1, ⟨id, true, message⟩) := by
  unfold handleUpdateConfig
  rw [hread]
  dsimp only
  rw [if_pos (persist_snd_iff.mpr h.1)]
  cases hreload : llmMessages env answers (persist env answers s update).1.settings.data
      (persist env answers s update).1.world.keyring update with
  | ok reloads => exact ⟨_, rfl⟩
  | error e =>
      exact absurd ((llmMessages_eq_error_iff env answers persist_provider).mp hreload) h.2

theorem handle_of_not_completes {id content : Json} {update : Update}
    (hread : readUpdate env content = .ok update) (h : ¬ Completes answers s update) :
    handleUpdateConfig env answers s id content =
      ((persist env answers s update).1, ⟨id, false, internalError⟩) := by
  unfold handleUpdateConfig
  rw [hread]
  dsimp only
  by_cases hsave : SaveReturns answers (setFields s.settings.data update.fields)
  · have hreload : ReloadRaises answers s.settings.data update :=
      not_not.mp fun hnot => h ⟨hsave, hnot⟩
    rw [if_pos (persist_snd_iff.mpr hsave),
      (llmMessages_eq_error_iff env answers persist_provider).mpr hreload]
  · rw [if_neg fun hreturns => hsave (persist_snd_iff.mp hreturns)]

/-- An update that completes has to keep its secrets, one that does not has to bring nothing. -/
theorem atomic_iff (env : Env) (answers : Answers) (moddingRoot : String) (s : State)
    (id content : Json) :
    Atomic env answers moddingRoot s id content ↔
      ∀ update, readUpdate env content = .ok update →
        (Completes answers s update → KeepsSecrets answers s update) ∧
          (¬ Completes answers s update → BringsNothing env answers s update) := by
  unfold Atomic
  cases hread : readUpdate env content with
  | error message =>
      unfold handleUpdateConfig
      rw [hread]
      exact iff_of_true ⟨fun _ => rfl, fun h => Bool.noConfusion h⟩ fun update h => by cases h
  | ok update =>
      by_cases hcompletes : Completes answers s update
      · obtain ⟨message, hhandle⟩ := handle_of_completes hread hcompletes
        rw [hhandle]
        dsimp only
        constructor
        · rintro ⟨_, hyields⟩ update' hupdate
          cases hupdate
          exact ⟨fun _ => (yields_iff env answers moddingRoot hcompletes.1).mp
            (hyields rfl update rfl), fun hnot => absurd hcompletes hnot⟩
        · intro hcondition
          refine ⟨fun h => Bool.noConfusion h, fun _ update' hupdate => ?_⟩
          cases hupdate
          exact (yields_iff env answers moddingRoot hcompletes.1).mpr
            ((hcondition update rfl).1 hcompletes)
      · rw [handle_of_not_completes hread hcompletes]
        dsimp only
        constructor
        · rintro ⟨hsame, _⟩ update' hupdate
          cases hupdate
          exact ⟨fun h => absurd h hcompletes, fun _ =>
            (persist_eq_self_iff env answers).mp (hsame rfl)⟩
        · intro hcondition
          refine ⟨fun _ => ?_, fun h => Bool.noConfusion h⟩
          exact (persist_eq_self_iff env answers).mpr ((hcondition update rfl).2 hcompletes)

/-- A configuration without a file, and a keyring without passwords. -/
def fresh : State where
  settings := ⟨defaults "", fun sectionField hmem value hvalue => by
    rw [defaults_section "" sectionField hmem] at hvalue
    cases hvalue⟩
  world := ⟨none, fun _ => none⟩

/-- Every call succeeds but the one that opens the file. -/
def readOnly : Answers where
  setFails := fun _ => false
  directoryFails := false
  saveCall := fun _ => .stored
  fileWrite := .notOpened
  getFails := fun _ => false
  swaps := true
  telegramReloads := true

/-- The file cannot be opened: the update is reported as failed, and its key is in the keyring. -/
theorem atomic_counterexample :
    ¬ Atomic ⟨.basic, fun _ => "", id, "deepseek, anthropic, ollama"⟩ readOnly "" fresh (.str "1")
      (.obj [("nexus_api_key", .str "k")]) := by
  rintro ⟨hfailed, _⟩
  have hkeyring := congrArg (fun t => t.world.keyring "nexus_api_key") (hfailed (by decide +kernel))
  exact absurd hkeyring (by decide +kernel)

end SkyClaw.Comms.UpdateConfig
