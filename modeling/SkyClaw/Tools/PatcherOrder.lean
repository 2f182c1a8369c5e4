import SkyClaw.Lib.JsonIndented
import SkyClaw.Lib.StableSort
import SkyClaw.Tools.PatcherPipeline

/-!
# Saving the patcher pipeline, and its order of execution

`to_json` writes the patchers as they are executed, so a pipeline that is loaded again stands in another
dict order.  `savesOrder`: at first nothing shows, and later only between patchers of equal orders.
-/

namespace SkyClaw.Tools.PatcherPipeline

open KeyedTable StableSort
open scoped List

variable (F : JsonText.FloatText)

/-- A `PatcherDefinition` with the values that its annotations say. -/
structure Patcher where
  patcherId : String
  enabled : Bool := true
  order : Int := 0
  config : List (String × Json) := []
  notBlank : PyStr.strip patcherId ≠ ""
  wellFormed : JsonText.WellFormed F (.obj config)

abbrev Pipeline := KeyedTable (@Patcher.patcherId F)

inductive Operation
  | addPatcher (patcher : Patcher F)
  | removePatcher (patcherId : String)
  | enablePatcher (patcherId : String)
  | disablePatcher (patcherId : String)
  | setPatcherOrder (patcherId : String) (newOrder : Int)

variable {F}

section

variable (pipeline : Pipeline F)

def Operation.apply : Operation F → Pipeline F
  | addPatcher patcher => pipeline.setItem patcher
  | removePatcher patcherId => pipeline.deleteWhere fun patcher => patcher.patcherId = patcherId
  | enablePatcher patcherId =>
      match pipeline.lookup patcherId with
      | none => pipeline
      | some patcher =>
          if patcher.enabled then pipeline else pipeline.setItem { patcher with enabled := true }
  | disablePatcher patcherId =>
      match pipeline.lookup patcherId with
      | none => pipeline
      | some patcher =>
          if patcher.enabled then pipeline.setItem { patcher with enabled := false } else pipeline
  | setPatcherOrder patcherId newOrder =>
      match pipeline.lookup patcherId with
      | none => pipeline
      | some patcher => pipeline.setItem { patcher with order := newOrder }

def after (operations : List (Operation F)) : Pipeline F :=
  operations.foldl Operation.apply pipeline

/-! ## What is read off a pipeline -/

def getAllPatchers : List (Patcher F) := sortBy Patcher.order pipeline.rows

def getEnabledPatchers : List (Patcher F) :=
  sortBy Patcher.order (pipeline.rows.filter Patcher.enabled)

/-- What the Synthesis CLI is given. -/
structure Serialized where
  patchers : List String
  patcherConfigs : List (String × List (String × Json))
  totalEnabled : Nat
  totalDisabled : Nat

def serializeForSynthesis : Serialized :=
  let enabledPatchers := getEnabledPatchers pipeline
  { patchers := enabledPatchers.map Patcher.patcherId
    patcherConfigs := (enabledPatchers.filter fun patcher => !patcher.config.isEmpty).map fun patcher =>
      (patcher.patcherId, patcher.config)
    totalEnabled := enabledPatchers.length
    totalDisabled := pipeline.rows.length - enabledPatchers.length }

def Patcher.toDict (patcher : Patcher F) : Json :=
  .obj [("patcher_id", .str patcher.patcherId), ("enabled", .bool patcher.enabled),
    ("order", .int patcher.order), ("config", .obj patcher.config)]

def toDict (pipeline : Pipeline F) : Json :=
  .obj [("version", .int 1), ("patchers", .arr ((getAllPatchers pipeline).map Patcher.toDict))]

/-- Text mode, where a line may end with a carriage return. -/
def translated (crlf : Bool) (text : List Char) : List Char :=
  if crlf then text.flatMap fun c => if c = '\n' then ['\r', '\n'] else [c] else text

/-- What `to_json` leaves at the path, if the limits of the interpreter let it. -/
def toJson (python : Interpreter) (crlf : Bool) (pipeline : Pipeline python.floats) :
    Option ByteArray :=
  let text := JsonText.Indented.dumps python.floats (toDict pipeline)
  if python.within text then some (String.ofList (translated crlf text.toList)).toUTF8 else none

/-- The definition as it is loaded. -/
def Patcher.loaded (patcher : Patcher F) : PatcherDefinition :=
  ⟨patcher.patcherId, .bool patcher.enabled, .int patcher.order, .obj patcher.config,
    patcher.notBlank⟩

/-- The pipeline as it is loaded. -/
def reloaded : Pipeline F :=
  ⟨getAllPatchers pipeline,
    ((perm_sortBy _ _).map _).nodup_iff.mpr pipeline.nodup⟩

/-- **The pipelines agree** on the order of execution. -/
structure Agree (pipeline other : Pipeline F) : Prop where
  all : getAllPatchers pipeline = getAllPatchers other
  enabled : getEnabledPatchers pipeline = getEnabledPatchers other
  serialized : serializeForSynthesis pipeline = serializeForSynthesis other

/-- No two patchers that are kept get equal orders, if saving has changed their places. -/
def NoTie (operations : List (Operation F)) : Prop :=
  ∀ first second, [first, second] <+ pipeline.rows → second.order < first.order →
    .removePatcher first.patcherId ∉ operations → .removePatcher second.patcherId ∉ operations →
      ∀ first' second', (after pipeline operations).lookup first.patcherId = some first' →
        (after pipeline operations).lookup second.patcherId = some second' →
          first'.order ≠ second'.order

/-! ## The file -/

theorem newlines_translated (crlf : Bool) {text : List Char} (h : '\r' ∉ text) :
    newlines (translated crlf text) = text := by
  unfold translated
  induction text with
  | nil => cases crlf <;> rfl
  | cons c text ih =>
      obtain ⟨hc, hrest⟩ := not_or.mp (List.mem_cons.not.mp h)
      have hplain : ∀ more, newlines (c :: more) = c :: newlines more := by
        intro more
        rw [newlines]
        · exact fun rest hreturn => absurd hreturn.symm hc
        · exact fun hreturn => hc hreturn.symm
      cases crlf with
      | false => exact (hplain text).trans (congrArg (c :: ·) (ih hrest))
      | true =>
          have hcrlf := ih hrest
          simp only [if_true, List.flatMap_cons] at hcrlf ⊢
          split_ifs with hline
          · subst hline
            exact congrArg ('\n' :: ·) hcrlf
          · exact (hplain _).trans (congrArg (c :: ·) hcrlf)

theorem wellFormed_toDict : JsonText.WellFormed F (toDict pipeline) := by
  have hpatcher : ∀ patcher : Patcher F, JsonText.WellFormed F patcher.toDict := by
    intro patcher
    refine .obj (by simp) ?_
    simp only [List.forall_mem_cons, List.not_mem_nil, false_implies, implies_true, and_true]
    exact ⟨.str _, .bool _, .int _, patcher.wellFormed⟩
  refine .obj (by simp) ?_
  simp only [List.forall_mem_cons, List.not_mem_nil, false_implies, implies_true, and_true]
  refine ⟨.int _, .arr fun item hitem => ?_⟩
  obtain ⟨patcher, -, rfl⟩ := List.mem_map.mp hitem
  exact hpatcher patcher

end

variable {python : Interpreter} {crlf : Bool} {bytes : ByteArray}

theorem jsonLoad_toJson {pipeline : Pipeline python.floats} (h : toJson python crlf pipeline = some bytes) :
    jsonLoad python bytes = .ok (toDict pipeline) := by
  obtain ⟨hwithin, hbytes⟩ := Option.ite_none_right_eq_some.mp h
  cases hbytes
  have hreturn : '\r' ∉ (JsonText.Indented.dumps python.floats (toDict pipeline)).toList := by
    rw [JsonText.Indented.dumps, String.toList_ofList]
    exact JsonText.Indented.return_not_mem_write (wellFormed_toDict pipeline)
  have hbytes : ∀ s : String, String.fromUTF8? s.toUTF8 = some s := by
    intro s
    simp only [String.fromUTF8?, Option.dite_none_right_eq_some, Option.some.injEq]
    exact ⟨s.isValidUTF8, rfl⟩
  unfold jsonLoad
  rw [hbytes]
  dsimp only
  rw [String.toList_ofList, newlines_translated crlf hreturn, String.ofList_toList, if_pos hwithin,
    JsonText.Indented.loads_dumps (wellFormed_toDict pipeline)]

/-- **What is saved is loaded**, in the order of execution. -/
theorem fromJson_toJson {pipeline : Pipeline python.floats} (h : toJson python crlf pipeline = some bytes) :
    ∃ patchers, fromJson python (.content bytes) = .ok patchers ∧
      patchers.rows = (reloaded pipeline).rows.map Patcher.loaded := by
  have hentries : List.Forall₂ Entry ((getAllPatchers pipeline).map Patcher.toDict)
      ((getAllPatchers pipeline).map Patcher.loaded) := by
    rw [List.forall₂_map_left_iff, List.forall₂_map_right_iff, List.forall₂_same]
    exact fun patcher _ => ⟨_, rfl, rfl, rfl, rfl, rfl⟩
  refine ⟨_, rfl, ?_⟩
  show (loadFromPath python (.content bytes)).1.rows = _
  simp only [loadFromPath, jsonLoad_toJson h, toDict]
  show (loadEntries _ ((getAllPatchers pipeline).map Patcher.toDict)).1.rows = _
  rw [loadEntries_of_forall₂ hentries]
  refine (rows_foldl_setItem _ _).trans (foldl_setRow ?_)
  show (((getAllPatchers pipeline).map Patcher.loaded).map _).Nodup
  rw [List.map_map]
  exact (reloaded pipeline).nodup

/-! ## Later operations -/

def ids (pipeline : Pipeline F) : List String := pipeline.rows.map Patcher.patcherId

/-- Whether an operation leaves one id before another is up to what it does to the ids. -/
def Operation.moved (ids : List String) : Operation F → List String
  | addPatcher patcher => if patcher.patcherId ∈ ids then ids else ids ++ [patcher.patcherId]
  | removePatcher patcherId => ids.filter (· ≠ patcherId)
  | _ => ids

variable {pipeline other : Pipeline F} {x y : String}

theorem mem_ids_iff : x ∈ ids pipeline ↔ ∃ patcher, pipeline.lookup x = some patcher := by
  simp only [ids, List.mem_map, lookup_eq_some_iff]

theorem ids_setItem (pipeline : Pipeline F) (patcher : Patcher F) : ids (pipeline.setItem patcher) =
    if patcher.patcherId ∈ ids pipeline then ids pipeline else ids pipeline ++ [patcher.patcherId] :=
  (congrArg _ (rows_setItem_eq _ _)).trans (keys_setRow _ _)

theorem ids_setItem_of_lookup {patcher new : Patcher F} (h : pipeline.lookup x = some patcher)
    (hid : new.patcherId = patcher.patcherId) : ids (pipeline.setItem new) = ids pipeline := by
  have hx : new.patcherId = x := hid.trans (key_of_lookup h)
  exact (ids_setItem pipeline new).trans (if_pos (hx ▸ mem_ids_iff.mpr ⟨patcher, h⟩))

theorem ids_apply (pipeline : Pipeline F) (operation : Operation F) :
    ids (operation.apply pipeline) = operation.moved (ids pipeline) := by
  cases operation with
  | addPatcher patcher => exact ids_setItem pipeline patcher
  | removePatcher patcherId =>
      simp only [Operation.apply, Operation.moved, ids, deleteWhere, List.filter_map]
      congr 2
      funext patcher
      simp
  | enablePatcher patcherId | disablePatcher patcherId | setPatcherOrder patcherId _ =>
      simp only [Operation.apply]
      repeat' split
      all_goals first | rfl | (rename lookup _ _ = some _ => h; exact ids_setItem_of_lookup h rfl)

theorem lookup_apply (h : pipeline.lookup = other.lookup) (operation : Operation F) :
    (operation.apply pipeline).lookup = (operation.apply other).lookup := by
  have hset : ∀ patcher, (pipeline.setItem patcher).lookup = (other.setItem patcher).lookup := by
    intro patcher
    funext patcherId
    rw [lookup_setItem, lookup_setItem, h]
  cases operation with
  | addPatcher patcher => exact hset patcher
  | removePatcher patcherId =>
      funext other
      simp only [Operation.apply, lookup_deleteWhere, h]
  | enablePatcher patcherId | disablePatcher patcherId | setPatcherOrder patcherId _ =>
      simp only [Operation.apply, h]
      repeat' split
      all_goals first | exact h | exact hset _

theorem lookup_after (h : pipeline.lookup = other.lookup) (operations : List (Operation F)) :
    (after pipeline operations).lookup = (after other operations).lookup := by
  induction operations generalizing pipeline other with
  | nil => exact h
  | cons operation operations ih => exact ih (lookup_apply h operation)

theorem pair_moved_iff {ids others : List String} {operation : Operation F}
    (hids : ∀ z, z ∈ ids ↔ z ∈ others) (h : [x, y] <+ ids ↔ [x, y] <+ others) :
    [x, y] <+ operation.moved ids ↔ [x, y] <+ operation.moved others := by
  cases operation with
  | addPatcher patcher =>
      simp only [Operation.moved, hids]
      split_ifs
      · exact h
      · rw [pair_append_iff, pair_append_iff, h, hids]
  | removePatcher patcherId => simp only [Operation.moved, pair_filter_iff, h]
  | _ => exact h

variable {operations : List (Operation F)}

/-- Ids that stand alike, or of which one is removed, stand alike in the end. -/
theorem pair_after_iff (hlookup : pipeline.lookup = other.lookup)
    (h : ([x, y] <+ ids pipeline ↔ [x, y] <+ ids other) ∨
      .removePatcher x ∈ operations ∨ .removePatcher y ∈ operations) :
    [x, y] <+ ids (after pipeline operations) ↔ [x, y] <+ ids (after other operations) := by
  induction operations generalizing pipeline other with
  | nil => exact h.resolve_right (by simp)
  | cons operation operations ih =>
      refine ih (lookup_apply hlookup operation) ?_
      rw [ids_apply, ids_apply]
      rcases h with h | h
      · refine .inl (pair_moved_iff (fun z => ?_) h)
        rw [mem_ids_iff, mem_ids_iff, hlookup]
      · simp only [List.mem_cons, eq_comm (b := operation)] at h
        rcases h with (rfl | h) | (rfl | h)
        · exact .inl (by simp [Operation.moved, pair_filter_iff])
        · exact .inr (.inl h)
        · exact .inl (by simp [Operation.moved, pair_filter_iff])
        · exact .inr (.inr h)

/-- Ids that are kept stand as they stood. -/
theorem pair_after_kept (hx : x ∈ ids pipeline) (hy : y ∈ ids pipeline)
    (hkeptx : .removePatcher x ∉ operations) (hkepty : .removePatcher y ∉ operations) :
    [x, y] <+ ids (after pipeline operations) ↔ [x, y] <+ ids pipeline := by
  induction operations generalizing pipeline with
  | nil => rfl
  | cons operation operations ih =>
      obtain ⟨hx', hkeptx⟩ := not_or.mp (List.mem_cons.not.mp hkeptx)
      obtain ⟨hy', hkepty⟩ := not_or.mp (List.mem_cons.not.mp hkepty)
      have hstays : ∀ z, z ∈ ids pipeline → .removePatcher z ≠ operation →
          z ∈ ids (operation.apply pipeline) := by
        intro z hz hne
        rw [ids_apply]
        cases operation with
        | addPatcher patcher =>
            simp only [Operation.moved]
            split_ifs
            · exact hz
            · exact List.mem_append_left _ hz
        | removePatcher patcherId =>
            refine List.mem_filter.mpr ⟨hz, ?_⟩
            simpa using fun h => hne (congrArg _ h)
        | _ => exact hz
      refine (ih (hstays x hx hx') (hstays y hy hy') hkeptx hkepty).trans ?_
      rw [ids_apply]
      cases operation with
      | addPatcher patcher =>
          simp only [Operation.moved]
          split_ifs with hnew
          · rfl
          · exact pair_append_iff.trans (or_iff_left fun h => hnew (h.2 ▸ hy))
      | removePatcher patcherId =>
          refine pair_filter_iff.trans (and_iff_left ?_)
          simpa using ⟨fun h => hx' (congrArg _ h), fun h => hy' (congrArg _ h)⟩
      | _ => rfl

/-! ## The order of execution -/

theorem pair_rows_iff {a b : Patcher F} (ha : a ∈ pipeline.rows) (hb : b ∈ pipeline.rows) :
    [a.patcherId, b.patcherId] <+ ids pipeline ↔ [a, b] <+ pipeline.rows := by
  refine ⟨fun h => ?_, fun h => h.map Patcher.patcherId⟩
  have hne : a ≠ b := by
    rintro rfl
    exact not_pair_swap pipeline.nodup h h
  refine (pair_or_swap hne ha hb).resolve_right fun hswap => ?_
  exact not_pair_swap pipeline.nodup h (hswap.map Patcher.patcherId)

theorem perm_rows (h : pipeline.lookup = other.lookup) : pipeline.rows.Perm other.rows := by
  refine (List.perm_ext_iff_of_nodup (pipeline.nodup.of_map _) (other.nodup.of_map _)).mpr fun patcher => ?_
  have hiff : ∀ table : Pipeline F, patcher ∈ table.rows ↔ table.lookup patcher.patcherId = some patcher :=
    fun table => by rw [lookup_eq_some_iff, and_iff_left rfl]
  rw [hiff, hiff, h]

/-- Pipelines of the same patchers agree if patchers of equal orders stand alike. -/
theorem agree_iff (h : pipeline.lookup = other.lookup) :
    Agree pipeline other ↔ ∀ a b, a.order = b.order → [a, b] <+ pipeline.rows → [a, b] <+ other.rows := by
  rw [← sortBy_eq_iff (pipeline.nodup.of_map _) (perm_rows h)]
  refine ⟨Agree.all, fun hall => ?_⟩
  have henabled : getEnabledPatchers pipeline = getEnabledPatchers other := by
    simp only [getEnabledPatchers, ← filter_sortBy, hall]
  refine ⟨hall, henabled, ?_⟩
  simp only [serializeForSynthesis, henabled, (perm_rows h).length_eq]

theorem lookup_reloaded (pipeline : Pipeline F) : (reloaded pipeline).lookup = pipeline.lookup := by
  funext patcherId
  refine lookup_eq_of_mem_iff fun patcher => ?_
  rw [lookup_eq_some_iff]
  exact and_congr_left' (perm_sortBy _ _).mem_iff

theorem agree_after_reloaded_iff (pipeline : Pipeline F) (operations : List (Operation F)) :
    Agree (after pipeline operations) (after (reloaded pipeline) operations) ↔
      NoTie pipeline operations := by
  have hlookup := (lookup_reloaded pipeline).symm
  have hafter := lookup_after hlookup operations
  rw [agree_iff hafter]
  constructor
  · intro h first second hpair horder hfirst hsecond first' second' hfirst' hsecond' htie
    have hmem : ∀ patcher ∈ [first, second], patcher.patcherId ∈ ids pipeline := fun patcher hmem =>
      List.mem_map_of_mem (hpair.subset hmem)
    have hswap : [second, first] <+ (reloaded pipeline).rows := by
      have hsorted := (perm_sortBy Patcher.order pipeline.rows).symm.subset
      have hne : first ≠ second := fun heq => horder.ne (congrArg _ heq.symm)
      refine (pair_or_swap hne (hsorted (hpair.subset (by simp)))
        (hsorted (hpair.subset (by simp)))).resolve_left fun hback => horder.not_ge ?_
      exact List.pairwise_iff_forall_sublist.mp (pairwise_sortBy _) hback
    have hstand := (pair_after_kept (hmem _ (by simp)) (hmem _ (by simp)) hfirst hsecond).mpr
      (hpair.map Patcher.patcherId)
    have hstand' := (pair_after_kept (List.mem_map_of_mem (hswap.subset (by simp)))
      (List.mem_map_of_mem (hswap.subset (by simp))) hsecond hfirst).mpr (hswap.map Patcher.patcherId)
    obtain ⟨hmem₁, hid₁⟩ := lookup_eq_some_iff.mp hfirst'
    obtain ⟨hmem₂, hid₂⟩ := lookup_eq_some_iff.mp hsecond'
    rw [← hid₁, ← hid₂] at hstand hstand'
    exact not_pair_swap (after (reloaded pipeline) operations).nodup hstand'
      ((h first' second' htie ((pair_rows_iff hmem₁ hmem₂).mp hstand)).map Patcher.patcherId)
  · intro h a b htie hpair
    have hmem : ∀ patcher ∈ [a, b], patcher ∈ (after pipeline operations).rows := fun patcher hmem =>
      hpair.subset hmem
    have hmem' : ∀ patcher ∈ [a, b], patcher ∈ (after (reloaded pipeline) operations).rows :=
      fun patcher hpatcher => (perm_rows hafter).subset (hmem patcher hpatcher)
    refine (pair_rows_iff (hmem' a (by simp)) (hmem' b (by simp))).mp ?_
    refine (pair_after_iff hlookup ?_).mp (hpair.map Patcher.patcherId)
    by_contra hkept
    obtain ⟨hstands, hkept⟩ := not_or.mp hkept
    obtain ⟨hkepta, hkeptb⟩ := not_or.mp hkept
    by_cases hold : a.patcherId ∈ ids pipeline ∧ b.patcherId ∈ ids pipeline
    · have hstand := (pair_after_kept hold.1 hold.2 hkepta hkeptb).mp (hpair.map Patcher.patcherId)
      obtain ⟨⟨first, hfirst, hid₁⟩, second, hsecond, hid₂⟩ := hold.imp List.mem_map.mp List.mem_map.mp
      rw [← hid₁] at hkepta
      rw [← hid₂] at hkeptb
      rw [← hid₁, ← hid₂] at hstand hstands
      have hrows := (pair_rows_iff hfirst hsecond).mp hstand
      have hle : first.order ≤ second.order := not_lt.mp fun hlt =>
        h first second hrows hlt hkepta hkeptb a b
          (lookup_eq_some_iff.mpr ⟨hmem a (by simp), hid₁.symm⟩)
          (lookup_eq_some_iff.mpr ⟨hmem b (by simp), hid₂.symm⟩) htie
      exact hstands (iff_of_true hstand ((pair_sortBy hle hrows).map Patcher.patcherId))
    · have hgone : ∀ table : Pipeline F, table.lookup = pipeline.lookup →
          ¬ [a.patcherId, b.patcherId] <+ ids table := by
        intro table heq hstand
        refine hold ⟨mem_ids_iff.mpr ?_, mem_ids_iff.mpr ?_⟩
        · exact heq ▸ mem_ids_iff.mp (hstand.subset (by simp))
        · exact heq ▸ mem_ids_iff.mp (hstand.subset (by simp))
      exact hstands (iff_of_false (hgone _ rfl) (hgone _ hlookup.symm))

/-- **What saving keeps**: what is loaded are the patchers that were saved, in the order of execution;
later operations leave the same patchers in both, and the same orders just if there is no tie. -/
def SavesOrder (python : Interpreter) (crlf : Bool) (pipeline : Pipeline python.floats) : Prop :=
  ∀ bytes, toJson python crlf pipeline = some bytes →
    (∃ patchers, fromJson python (.content bytes) = .ok patchers ∧
      patchers.rows = (reloaded pipeline).rows.map Patcher.loaded) ∧
    Agree pipeline (reloaded pipeline) ∧
    ∀ operations, (after pipeline operations).lookup = (after (reloaded pipeline) operations).lookup ∧
      (Agree (after pipeline operations) (after (reloaded pipeline) operations) ↔
        NoTie pipeline operations)

theorem savesOrder (python : Interpreter) (crlf : Bool) (pipeline : Pipeline python.floats) :
    SavesOrder python crlf pipeline := by
  intro bytes h
  have hagree : Agree pipeline (reloaded pipeline) := by
    refine (agree_iff (lookup_reloaded pipeline).symm).mpr fun a b htie hpair => ?_
    exact pair_sortBy htie.le hpair
  exact ⟨fromJson_toJson h, hagree, fun operations =>
    ⟨lookup_after (lookup_reloaded pipeline).symm operations, agree_after_reloaded_iff pipeline operations⟩⟩

def unlimited : Interpreter := ⟨.integral, fun _ => true⟩

/-- Two patchers, the second of which is executed first. -/
def tied : Pipeline unlimited.floats :=
  after (.empty _) [.addPatcher ⟨"A", true, 2, [], by decide, .obj (by simp) (by simp)⟩,
    .addPatcher ⟨"B", true, 1, [], by decide, .obj (by simp) (by simp)⟩]

/-- Given equal orders, they are executed as they were added, or as they were saved. -/
theorem not_agree_tied : ∃ bytes, toJson unlimited false tied = some bytes ∧
    ¬ Agree (after tied [.setPatcherOrder "A" 1]) (after (reloaded tied) [.setPatcherOrder "A" 1]) := by
  refine ⟨_, rfl, fun h => ?_⟩
  exact absurd (congrArg (List.map Patcher.patcherId) h.all) (by decide +kernel)

end SkyClaw.Tools.PatcherPipeline
