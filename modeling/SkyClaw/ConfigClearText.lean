import SkyClaw.ConfigSecrets
import SkyClaw.Lib.Runs

/-!
# Secrets in clear text

Runs of a configuration: it is loaded, values are set, and it is saved.  `neverInClear_iff` says
in which runs no secret stands in the file after the load and after any step.
-/

namespace SkyClaw.Config

/-! ## What is loaded -/

section Load

variable {moddingRoot : String} {file data : Data}

theorem loadField_key {before after : Data} {sectionField : String × String × String}
    (h : loadField file before sectionField = .ok after) (key : String) :
    after key = before key ∨ key = sectionField.2.2 ∧
      ∃ found, file.nested sectionField.1 sectionField.2.1 = some found ∧
        after key = some found := by
  unfold loadField at h
  split at h
  · cases h
    exact .inl rfl
  · next value hsection =>
      split at h
      · cases h
      · cases h
        exact .inl rfl
      · next found hfield =>
          cases h
          by_cases hkey : key = sectionField.2.2
          · refine .inr ⟨hkey, found, nested_of_ok hsection hfield, ?_⟩
            rw [hkey, Function.update_self]
          · exact .inl (Function.update_of_ne hkey _ _)

/-- What the sections bring. -/
theorem loadFields_key {fields : List (String × String × String)} {before after : Data}
    (h : fields.foldlM (loadField file) before = .ok after) (key : String) :
    after key = before key ∨ ∃ sectionField ∈ fields, key = sectionField.2.2 ∧
      ∃ found, file.nested sectionField.1 sectionField.2.1 = some found ∧
        after key = some found := by
  induction fields generalizing before with
  | nil =>
      cases h
      exact .inl rfl
  | cons first rest ih =>
      rw [List.foldlM_cons] at h
      cases hfirst : loadField file before first with
      | error =>
          rw [hfirst] at h
          cases h
      | ok between =>
          rw [hfirst] at h
          rcases ih h with hkey | ⟨sectionField, hmem, hfound⟩
          · rw [hkey]
            rcases loadField_key hfirst key with hkey | hfound
            · exact .inl hkey
            · exact .inr ⟨first, List.mem_cons_self, hfound⟩
          · exact .inr ⟨sectionField, List.mem_cons_of_mem first hmem, hfound⟩

theorem load_key (hload : loadFromFile (defaults moddingRoot) (some file) = .ok data)
    (key : String) :
    data key = (file key).or (defaults moddingRoot key) ∨
      ∃ sectionField ∈ sectionFields, key = sectionField.2.2 ∧
        ∃ found, file.nested sectionField.1 sectionField.2.1 = some found ∧
          data key = (file key).or (some found) := by
  unfold loadFromFile at hload
  dsimp only at hload
  split at hload
  · cases hload
  · next loaded hfields =>
      cases hload
      rcases loadFields_key hfields key with hkey | ⟨sectionField, hmem, hkey, found, hfound⟩
      · exact .inl (congrArg (file key).or hkey)
      · obtain ⟨hnested, hloaded⟩ := hfound
        exact .inr ⟨sectionField, hmem, hkey, found, hnested, congrArg (file key).or hloaded⟩

theorem load_key_of_not_target (hload : loadFromFile (defaults moddingRoot) (some file) = .ok data)
    {key : String} (hkey : key ∉ sectionFields.map (·.2.2)) :
    data key = (file key).or (defaults moddingRoot key) := by
  rcases load_key hload key with h | ⟨sectionField, hmem, heq, _⟩
  · exact h
  · exact absurd (List.mem_map.mpr ⟨sectionField, hmem, heq.symm⟩) hkey

theorem defaults_value {key : String} (h : key ∈ sensitiveKeys) :
    (defaults moddingRoot).value key = none := by
  simp only [sensitiveKeys, List.mem_cons, List.not_mem_nil, or_false] at h
  rcases h with rfl | rfl | rfl | rfl | rfl | rfl | rfl <;> rfl

end Load

/-- A secret stands in a file. -/
def InClear (file : Data) : Prop := ∃ place ∈ secretPlaces, place.secret file ≠ none

/-- A secret stands where `save` writes it again. -/
def WritesSecret (data : Data) : Prop := ∃ place ∈ writtenPlaces, place.secret data ≠ none

/-- The file, if there is one, has no secret. -/
def World.Clean (world : World) : Prop := ∀ file, world.file = some file → ¬InClear file

theorem inClear_iff {file : Data} :
    InClear file ↔ (∃ key ∈ savedKeys, file.value key ≠ none) ∨ WritesSecret file := by
  unfold InClear WritesSecret
  constructor
  · rintro ⟨place, hplace, hsecret⟩
    rcases mem_secretPlaces.mp hplace with hplace | hplace
    · obtain ⟨key, hkey, rfl⟩ := List.mem_map.mp hplace
      exact .inl ⟨key, hkey, hsecret⟩
    · exact .inr ⟨place, hplace, hsecret⟩
  · rintro (⟨key, hkey, hsecret⟩ | ⟨place, hplace, hsecret⟩)
    · exact ⟨.top key, mem_secretPlaces.mpr (.inl (List.mem_map_of_mem hkey)), hsecret⟩
    · exact ⟨place, mem_secretPlaces.mpr (.inr hplace), hsecret⟩

theorem inClear_of_value {file : Data} {key : String} (hkey : key ∈ sensitiveKeys)
    (h : file.value key ≠ none) : InClear file :=
  ⟨.top key, List.mem_append_left _ (List.mem_map_of_mem hkey), h⟩

/-- **What `save` writes is clean** exactly if no secret stands in the places of its own. -/
theorem inClear_saved_iff {data : Data} : InClear (saved data) ↔ WritesSecret data := by
  rw [inClear_iff, or_iff_right]
  · exact exists_congr fun place => and_congr_right fun hplace => by rw [secret_saved hplace]
  · rintro ⟨key, hkey, hvalue⟩
    exact hvalue (secret_top_saved hkey)

theorem writesSecret_iff {data : Data} :
    WritesSecret data ↔ data.value "ws_auth_token" ≠ none ∨
      (data.nested "telegram" "token").filter Toml.truthy ≠ none ∨
      (data.nested "nexus" "api_key").filter Toml.truthy ≠ none := by
  simp only [WritesSecret, writtenPlaces, List.mem_cons, List.not_mem_nil, or_false,
    exists_eq_or_imp, exists_eq_left]
  rfl

/-! ## After the load -/

section AfterLoad

variable {str : Toml → String} {moddingRoot : String} {getFails : String → Bool} {file data : Data}
  {keyring : String → Option String}

/-- A secret that is loaded is one of the file. -/
theorem value_of_load (hload : loadFromFile (defaults moddingRoot) (some file) = .ok data)
    {key : String} (hkey : key ∈ sensitiveKeys) (hwrites : ¬WritesSecret file) :
    data.value key = file.value key := by
  unfold Data.value
  rcases load_key hload key with h | ⟨sectionField, hmem, rfl, found, hnested, h⟩
  · rw [h]
    cases hfile : file key with
    | some value => rfl
    | none => exact defaults_value hkey
  · rw [h]
    cases hfile : file sectionField.2.2 with
    | some value => rfl
    | none =>
        -- the field of the section has no value, or it would be written
        simp only [writesSecret_iff, not_or, not_not] at hwrites
        simp only [sectionFields, List.mem_cons, List.not_mem_nil, or_false] at hmem
        rcases hmem with rfl | rfl | rfl | rfl | rfl
        · rw [hnested] at hwrites
          exact hwrites.2.1
        · exact absurd hkey (by decide)
        · rw [hnested] at hwrites
          exact hwrites.2.2
        · exact absurd hkey (by decide)
        · exact absurd hkey (by decide)

/-- The keyring calls of a load in which the keyring takes every write. -/
def takingAll (getFails : String → Bool) : Failures := ⟨getFails, fun _ => false, fun _ => false⟩

theorem migrates_iff {key : String} {value : Option Toml} {password : Option String} :
    Migrates (takingAll getFails) key (value, password) ↔
      ∃ plaintext, value.filter Toml.truthy = some plaintext ∧
        ∀ found, stored getFails key password = some found → plaintext = .string found := by
  refine exists_congr fun plaintext => and_congr_right fun _ => ?_
  have hget : (takingAll getFails).get = getFails := rfl
  have hset : (takingAll getFails).set key = false := rfl
  rw [hget, hset]
  cases stored getFails key password with
  | some | none => simp

theorem stored_ne_empty {key found : String} {password : Option String}
    (h : stored getFails key password = some found) : found ≠ "" := by
  unfold stored at h
  split at h
  · cases h
  · exact of_decide_eq_true (Option.filter_eq_some_iff.mp h).2

theorem nested_loaded (hload : loadFromFile (defaults moddingRoot) (some file) = .ok data)
    {sectionName name : String} (hsensitive : sectionName ∉ sensitiveKeys)
    (htarget : sectionName ∉ sectionFields.map (·.2.2))
    (hdefault : defaults moddingRoot sectionName = none) :
    (migrate str (takingAll getFails) data keyring).data.nested sectionName name =
      file.nested sectionName name := by
  have hmigrated : (migrate str (takingAll getFails) data keyring).data sectionName =
      data sectionName :=
    congrArg Prod.fst (migrate_of_not_mem str (takingAll getFails) data keyring hsensitive)
  unfold Data.nested
  rw [hmigrated, load_key_of_not_target hload htarget, hdefault, Option.or_none]

theorem token_migrated (hload : loadFromFile (defaults moddingRoot) (some file) = .ok data) :
    (migrate str (takingAll getFails) data keyring).data "ws_auth_token" =
      ((stored getFails "ws_auth_token" (keyring "ws_auth_token")).map Toml.string).or
        (file "ws_auth_token") := by
  have hentry := congrArg Prod.fst (migrate_of_mem str (takingAll getFails) data keyring
    (by decide : "ws_auth_token" ∈ sensitiveKeys))
  have hdefault : defaults moddingRoot "ws_auth_token" = none := rfl
  have htoken : data "ws_auth_token" = file "ws_auth_token" := by
    rw [load_key_of_not_target hload (by decide), hdefault, Option.or_none]
  refine hentry.trans ?_
  rw [← htoken]
  simp only [migrateEntry, takingAll]
  cases stored getFails "ws_auth_token" (keyring "ws_auth_token") with
  | some found => rfl
  | none =>
      simp only
      split <;> rfl

/-- The secrets that a `save` after the migration writes: those of the file, and the token that
the keyring gives. -/
theorem writesSecret_migrated (hload : loadFromFile (defaults moddingRoot) (some file) = .ok data) :
    WritesSecret (migrate str (takingAll getFails) data keyring).data ↔
      WritesSecret file ∨ stored getFails "ws_auth_token" (keyring "ws_auth_token") ≠ none := by
  rw [writesSecret_iff, writesSecret_iff, nested_loaded hload (by decide) (by decide) rfl,
    nested_loaded hload (by decide) (by decide) rfl]
  unfold Data.value
  rw [token_migrated hload]
  cases hstored : stored getFails "ws_auth_token" (keyring "ws_auth_token") with
  | some found =>
      have htruthy : (Toml.string found).truthy = true := decide_eq_true (stored_ne_empty hstored)
      simp [Option.filter, htruthy]
  | none => simp

/-- The load leaves no secret in the file: there is none, or none where `save` writes it again,
the keyring gives no token for `ws_auth_token`, and for one of the secrets it has no other value. -/
def LoadScrubs (getFails : String → Bool) (world : World) : Prop :=
  ∀ file, world.file = some file → InClear file →
    ¬WritesSecret file ∧
      stored getFails "ws_auth_token" (world.keyring "ws_auth_token") = none ∧
      ∃ key ∈ sensitiveKeys, ∃ plaintext, file.value key = some plaintext ∧
        ∀ found, stored getFails key (world.keyring key) = some found →
          plaintext = .string found

theorem migrated_takingAll_iff :
    (migrate str (takingAll getFails) data keyring).migrated = true ↔
      ∃ key ∈ sensitiveKeys, ∃ plaintext, data.value key = some plaintext ∧
        ∀ found, stored getFails key (keyring key) = some found → plaintext = .string found := by
  rw [migrated_iff]
  exact exists_congr fun key => and_congr_right fun _ => migrates_iff

theorem loadFromKeyring_file (failures : Failures) (world : World) :
    (loadFromKeyring str failures data world).2.file =
      if (migrate str failures data world.keyring).migrated = true then
        some (saved (migrate str failures data world.keyring).data)
      else world.file := by
  unfold loadFromKeyring
  dsimp only
  split
  · rfl
  · rfl

theorem not_migrated_defaults :
    ¬(migrate str (takingAll getFails) (defaults moddingRoot) keyring).migrated = true := by
  rw [migrated_takingAll_iff]
  rintro ⟨key, hkey, plaintext, hvalue, _⟩
  rw [defaults_value hkey] at hvalue
  cases hvalue

theorem migrated_iff_of_not_written
    (hload : loadFromFile (defaults moddingRoot) (some file) = .ok data)
    (hwrites : ¬WritesSecret file) :
    (migrate str (takingAll getFails) data keyring).migrated = true ↔
      ∃ key ∈ sensitiveKeys, ∃ plaintext, file.value key = some plaintext ∧
        ∀ found, stored getFails key (keyring key) = some found → plaintext = .string found := by
  rw [migrated_takingAll_iff]
  refine exists_congr fun key => and_congr_right fun hkey => ?_
  rw [value_of_load hload hkey hwrites]

/-- **After the load** the file is clean exactly if the load scrubs it. -/
theorem clean_loaded_iff {world : World}
    (hload : loadFromFile (defaults moddingRoot) world.file = .ok data) :
    (loadFromKeyring str (takingAll getFails) data world).2.Clean ↔ LoadScrubs getFails world := by
  unfold World.Clean LoadScrubs
  rw [loadFromKeyring_file]
  cases hfile : world.file with
  | none =>
      rw [hfile] at hload
      cases hload
      rw [if_neg not_migrated_defaults]
      exact iff_of_true nofun nofun
  | some file =>
      rw [hfile] at hload
      by_cases hmigrated : (migrate str (takingAll getFails) data world.keyring).migrated = true
      · rw [if_pos hmigrated]
        simp only [Option.some.injEq, forall_eq', inClear_saved_iff,
          writesSecret_migrated hload, not_or, not_not]
        constructor
        · rintro ⟨hwrites, hstored⟩ _
          exact ⟨hwrites, hstored, (migrated_iff_of_not_written hload hwrites).mp hmigrated⟩
        · intro hscrubs
          by_cases hclear : InClear file
          · exact ⟨(hscrubs hclear).1, (hscrubs hclear).2.1⟩
          · -- what is migrated stands in the file
            have hwrites : ¬WritesSecret file := fun h => hclear (inClear_iff.mpr (.inr h))
            obtain ⟨key, hkey, plaintext, hvalue, _⟩ :=
              (migrated_iff_of_not_written hload hwrites).mp hmigrated
            refine absurd (inClear_of_value hkey ?_) hclear
            rw [hvalue]
            exact Option.some_ne_none plaintext
      · rw [if_neg hmigrated]
        simp only [Option.some.injEq, forall_eq']
        constructor
        · intro hclean hclear
          exact absurd hclear hclean
        · intro hscrubs hclear
          obtain ⟨hwrites, _, hmoved⟩ := hscrubs hclear
          exact hmigrated ((migrated_iff_of_not_written hload hwrites).mpr hmoved)

end AfterLoad

/-! ## Runs -/

/-- A configuration, with the file and the keyring. -/
structure State where
  data : Data
  world : World

/-- What is done with a configuration. -/
inductive Op where
  | set (key : String) (value : Toml)
  | save

/-- A step; the keyring takes every write. -/
def step (str : Toml → String) (s : State) : Op → Option State
  | .set key value => some { s with data := Function.update s.data key (some value) }
  | .save => some { s with world := save str (fun _ => false) s.data s.world }

/-- **No secret stands in the file** after the load and after any step of a run. -/
def NeverInClear (str : Toml → String) (moddingRoot : String) (getFails : String → Bool)
    (world : World) (ops : List Op) : Prop :=
  ∀ data loaded, init str moddingRoot (takingAll getFails) world = .ok (data, loaded) →
    Runs.Throughout (step str) (fun s => s.world.Clean) ⟨data, loaded⟩ ops

/-- A step writes no secret: a configuration that is saved has none where `save` writes it. -/
def SavesClean (s : State) (op : Op) (_ : State) : Prop :=
  match op with
  | .set _ _ => True
  | .save => ¬WritesSecret s.data

theorem clean_step_iff {str : Toml → String} {s t : State} {op : Op} (hclean : s.world.Clean)
    (hstep : step str s op = some t) : t.world.Clean ↔ SavesClean s op t := by
  cases op with
  | set key value =>
      cases hstep
      exact iff_of_true hclean trivial
  | save =>
      cases hstep
      show (∀ file, some (saved s.data) = some file → ¬InClear file) ↔ ¬WritesSecret s.data
      rw [← inClear_saved_iff]
      simp only [Option.some.injEq, forall_eq']

/-- **In which runs no secret stands in clear**: exactly in those whose load scrubs the file and
whose saves write no secret. -/
theorem neverInClear_iff (str : Toml → String) (moddingRoot : String) (getFails : String → Bool)
    (world : World) (ops : List Op) :
    NeverInClear str moddingRoot getFails world ops ↔
      ∀ data loaded, init str moddingRoot (takingAll getFails) world = .ok (data, loaded) →
        LoadScrubs getFails world ∧ Runs.Always (step str) SavesClean ⟨data, loaded⟩ ops := by
  refine forall_congr' fun data => forall_congr' fun loaded => forall_congr' fun hinit => ?_
  have hloaded : loaded.Clean ↔ LoadScrubs getFails world := by
    unfold init at hinit
    split at hinit
    · cases hinit
    · next base hload =>
        have hpair := Except.ok.inj hinit
        rw [← clean_loaded_iff hload, hpair]
  unfold Runs.Throughout
  rw [← hloaded]
  refine and_congr_right fun hclean => ?_
  exact Runs.always_iff_of_guarded (I := fun s => s.world.Clean)
    (fun s op t hs hstep hsaves => (clean_step_iff hs hstep).mpr hsaves)
    (fun s op t hs hstep => clean_step_iff hs hstep) hclean ops

/-- A token for the web socket in the file, and an empty keyring. -/
def tokenInFile : World where
  file := some fun key => if key = "ws_auth_token" then some (.string "f00d") else none
  keyring _ := none

/-- The token is migrated, and `save` writes it back. -/
theorem neverInClear_counterexample :
    ¬NeverInClear (fun _ => "") "/mnt/c/Modding" (fun _ => false) tokenInFile [] := by
  intro hnever
  obtain ⟨hclean, _⟩ := hnever _ _ rfl
  refine hclean _ rfl ⟨.top "ws_auth_token", by simp [secretPlaces, sensitiveKeys], fun hnone => ?_⟩
  exact absurd (congrArg Option.isSome hnone) (by decide)

end SkyClaw.Config
