import SkyClaw.ConfigSecrets

/-!
# What a configuration yields

A `Config` that is constructed from a file and a keyring that can be read: the value of each of its
keys.
-/

namespace SkyClaw.Config

open PartialMap

/-- Nothing about the sections of a file raises. -/
def Loadable (data : Data) : Prop :=
  ∀ sectionField ∈ sectionFields, ∀ value ∈ data sectionField.1,
    value.field sectionField.2.1 ≠ .error ()

/-- The field of a section that is read for a key. -/
def Data.sectionValue (data : Data) (key : String) : Option Toml :=
  (sectionFields.find? (·.2.2 = key)).bind fun sectionField =>
    data.nested sectionField.1 sectionField.2.1

/-- Set a key from the field of a section, if it is there. -/
def setNested (file : Data) (data : Data) (sectionField : String × String × String) : Data :=
  match file.nested sectionField.1 sectionField.2.1 with
  | some found => Function.update data sectionField.2.2 (some found)
  | none => data

variable {file : Data}

/-- A section that does not raise sets its key. -/
theorem loadField_eq_ok_iff {data after : Data} {sectionField : String × String × String} :
    loadField file data sectionField = .ok after ↔
      (∀ value ∈ file sectionField.1, value.field sectionField.2.1 ≠ .error ()) ∧
        after = setNested file data sectionField := by
  unfold loadField setNested
  cases hsection : file sectionField.1 with
  | none =>
      have hnested : file.nested sectionField.1 sectionField.2.1 = none := by
        unfold Data.nested
        rw [hsection]
      simp only [hnested, Except.ok.injEq]
      exact ⟨fun h => ⟨fun value hvalue => (by cases hvalue), h.symm⟩, fun h => h.2.symm⟩
  | some value =>
      cases hfield : value.field sectionField.2.1 with
      | error e =>
          refine iff_of_false (fun h => ?_) fun h => h.1 value rfl hfield
          simp only [hfield] at h
          cases h
      | ok found =>
          have hnested := nested_of_ok hsection hfield
          have hfine : ∀ other ∈ some value, other.field sectionField.2.1 ≠ .error () := by
            intro other hother
            rw [← Option.some.inj hother, hfield]
            exact nofun
          cases found with
          | none | some =>
              simp only [hfield, hnested, Except.ok.injEq]
              exact ⟨fun h => ⟨hfine, h.symm⟩, fun h => h.2.symm⟩

theorem loadFields_eq_ok_iff {data after : Data}
    {fields : List (String × String × String)} :
    fields.foldlM (loadField file) data = .ok after ↔
      (∀ sectionField ∈ fields, ∀ value ∈ file sectionField.1,
        value.field sectionField.2.1 ≠ .error ()) ∧
        after = fields.foldl (setNested file) data := by
  induction fields generalizing data with
  | nil =>
      constructor
      · intro h
        exact ⟨List.forall_mem_nil _, (Except.ok.inj h).symm⟩
      · rintro ⟨_, rfl⟩
        rfl
  | cons first rest ih =>
      rw [List.foldlM_cons, List.foldl_cons, List.forall_mem_cons]
      constructor
      · intro h
        cases hfirst : loadField file data first with
        | error e =>
            rw [hfirst] at h
            cases h
        | ok between =>
            rw [hfirst] at h
            obtain ⟨hfine, rfl⟩ := loadField_eq_ok_iff.mp hfirst
            obtain ⟨hrest, rfl⟩ := ih.mp h
            exact ⟨⟨hfine, hrest⟩, rfl⟩
      · rintro ⟨⟨hfine, hrest⟩, rfl⟩
        rw [loadField_eq_ok_iff.mpr ⟨hfine, rfl⟩]
        exact ih.mpr ⟨hrest, rfl⟩

theorem setNested_other (file data : Data) (sectionField : String × String × String) {key : String}
    (h : key ≠ sectionField.2.2) : setNested file data sectionField key = data key := by
  unfold setNested
  cases file.nested sectionField.1 sectionField.2.1 with
  | some found => exact Function.update_of_ne h _ _
  | none => rfl

theorem setNested_own (file data : Data) (sectionField : String × String × String) :
    setNested file data sectionField sectionField.2.2 =
      (file.nested sectionField.1 sectionField.2.1).or (data sectionField.2.2) := by
  unfold setNested
  cases file.nested sectionField.1 sectionField.2.1 with
  | some found => exact Function.update_self _ _ _
  | none => rfl

theorem foldl_setNested {fields : List (String × String × String)}
    (hnodup : (fields.map (·.2.2)).Nodup) (file data : Data) (key : String) :
    fields.foldl (setNested file) data key =
      ((fields.find? (·.2.2 = key)).bind fun sectionField =>
        file.nested sectionField.1 sectionField.2.1).or (data key) := by
  induction fields generalizing data with
  | nil => rfl
  | cons first rest ih =>
      rw [List.map_cons, List.nodup_cons] at hnodup
      rw [List.foldl_cons, ih hnodup.2]
      by_cases hkey : first.2.2 = key
      · have hnone : rest.find? (·.2.2 = key) = none := by
          refine List.find?_eq_none.mpr fun other hother => ?_
          rw [decide_eq_true_eq]
          exact fun heq => hnodup.1 (List.mem_map.mpr ⟨other, hother, heq.trans hkey.symm⟩)
        rw [hnone, List.find?_cons_of_pos (by simpa using hkey), ← hkey, setNested_own]
        rfl
      · rw [List.find?_cons_of_neg (by simpa using hkey),
          setNested_other file data first fun heq => hkey heq.symm]

theorem sectionKeys_nodup : (sectionFields.map (·.2.2)).Nodup := by decide

/-- The file over the sections over what was there. -/
def Data.over (file base : Data) : Data := fun key =>
  (file key).or ((file.sectionValue key).or (base key))

/-- **What is loaded.** -/
theorem loadFromFile_eq_ok_iff {base data : Data} :
    loadFromFile base (some file) = .ok data ↔ Loadable file ∧ data = file.over base := by
  unfold loadFromFile
  dsimp only
  cases hfields : sectionFields.foldlM (loadField file) base with
  | error e =>
      refine iff_of_false nofun fun h => ?_
      have hok := loadFields_eq_ok_iff.mpr (And.intro h.1
        (Eq.refl (sectionFields.foldl (setNested file) base)))
      rw [hfields] at hok
      cases hok
  | ok between =>
      obtain ⟨hfine, rfl⟩ := loadFields_eq_ok_iff.mp hfields
      have hdata : sectionFields.foldl (setNested file) base = fun key =>
          (file.sectionValue key).or (base key) :=
        funext fun key => foldl_setNested sectionKeys_nodup file base key
      rw [hdata, Except.ok.injEq]
      exact ⟨fun h => ⟨hfine, h.symm⟩, fun h => h.2.symm⟩

/-- The values of a `Config` that is constructed from a file: what the keyring has goes before. -/
def yielded (moddingRoot : String) (file : Data) (keyring : String → Option String) : Data :=
  fun key =>
    if key ∈ sensitiveKeys then
      (((keyring key).filter (· ≠ "")).map Toml.string).or (file.over (defaults moddingRoot) key)
    else file.over (defaults moddingRoot) key

variable {failures : Failures}

/-- The migration of a key whose password can be read. -/
theorem migrate_data {str : Toml → String} (hget : failures.get = fun _ => false)
    (data : Data) (keyring : String → Option String) (key : String) :
    (migrate str failures data keyring).data key =
      if key ∈ sensitiveKeys then
        (((keyring key).filter (· ≠ "")).map Toml.string).or (data key)
      else data key := by
  by_cases hkey : key ∈ sensitiveKeys
  · rw [if_pos hkey]
    have hentry := congrArg Prod.fst (migrate_of_mem str failures data keyring hkey)
    refine hentry.trans ?_
    have hstored : stored failures.get key (keyring key) = (keyring key).filter (· ≠ "") := by
      rw [stored, hget]
      rfl
    unfold migrateEntry
    dsimp only
    rw [hstored]
    cases (keyring key).filter (· ≠ "") with
    | some found => rfl
    | none =>
        dsimp only
        split <;> rfl
  · rw [if_neg hkey]
    exact congrArg Prod.fst (migrate_of_not_mem str failures data keyring hkey)

/-- **Construction from a file**, when every password can be read. -/
theorem init_eq (str : Toml → String) (moddingRoot : String)
    (hget : failures.get = fun _ => false) (hloadable : Loadable file)
    (keyring : String → Option String) :
    ∃ world, init str moddingRoot failures ⟨some file, keyring⟩ =
      .ok (yielded moddingRoot file keyring, world) := by
  have hload : loadFromFile (defaults moddingRoot) (some file) =
      .ok (file.over (defaults moddingRoot)) := loadFromFile_eq_ok_iff.mpr ⟨hloadable, rfl⟩
  have hdata : (migrate str failures (file.over (defaults moddingRoot)) keyring).data =
      yielded moddingRoot file keyring := funext fun key => migrate_data hget _ keyring key
  unfold init loadFromKeyring
  dsimp only
  rw [hload]
  dsimp only
  rw [hdata]
  split
  · exact ⟨_, rfl⟩
  · exact ⟨_, rfl⟩

theorem section_not_key : ∀ sectionField ∈ sectionFields, sectionField.1 ∉ sensitiveKeys ∧
    sectionField.1 ∉ savedKeys ∧ sectionFields.find? (·.2.2 = sectionField.1) = none := by
  decide

theorem defaults_section (moddingRoot : String) :
    ∀ sectionField ∈ sectionFields, defaults moddingRoot sectionField.1 = none := by
  intro sectionField hmem
  simp only [sectionFields, List.mem_cons, List.not_mem_nil, or_false] at hmem
  rcases hmem with rfl | rfl | rfl | rfl | rfl <;> rfl

end SkyClaw.Config
