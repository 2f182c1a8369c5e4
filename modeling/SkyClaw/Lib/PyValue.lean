import Mathlib.Data.List.Sort
import Mathlib.Data.String.Basic
import SkyClaw.Lib.JsonTree

/-!
# Python values and their JSON documents

`json.dumps(value, sort_keys=True, default=str)`, which writes more values than JSON has, and the
value that `json.loads` makes of a document.

* `pyEq_decode_iff`: a value comes back equal exactly if JSON has it;
* `encode_eq_iff`: of such values the documents agree exactly if the values do, whatever the order
  of their keys.

Values are finite trees; the limit of the interpreter on their depth is left out.
-/

/-- The number of a float that is one. -/
def PyFloat.rat? : PyFloat → Option ℚ
  | .finite value => some value
  | .negZero => some 0
  | .inf _ => none
  | .nan => none

/-- `==` -/
def PyFloat.pyEq (a b : PyFloat) : Bool :=
  match a, b with
  | .inf negative, .inf negative' => negative = negative'
  | a, b =>
      match a.rat?, b.rat? with
      | some q, some q' => q = q'
      | _, _ => false

/-- `<` -/
def PyFloat.pyLt (a b : PyFloat) : Bool :=
  match a, b with
  | .nan, _ => false
  | _, .nan => false
  | .inf negative, .inf negative' => negative && !negative'
  | .inf negative, _ => negative
  | _, .inf negative => !negative
  | a, b => (a.rat?.getD 0) < (b.rat?.getD 0)

theorem PyFloat.pyEq_self_iff (f : PyFloat) : f.pyEq f = true ↔ f ≠ .nan := by
  cases f with
  | finite value => simp [PyFloat.pyEq, PyFloat.rat?]
  | negZero | nan => decide
  | inf negative => simp [PyFloat.pyEq]

/-- A value; those of classes derived from the ones here count as theirs. -/
inductive PyValue
  | null
  | bool (value : Bool)
  | int (value : Int)
  | float (value : PyFloat)
  | str (value : String)
  | list (items : List PyValue)
  | tuple (items : List PyValue)
  | dict (entries : List (PyValue × PyValue))
  /-- An object of another class, with its `str()` unless that raises. -/
  | other (identity : Nat) (text : Option String)

namespace PyValue

open JsonText

def number? : PyValue → Option PyFloat
  | .bool value => some (.finite (if value then 1 else 0))
  | .int value => some (.finite value)
  | .float value => some value
  | _ => none

mutual

/-- `==` -/
def pyEq : PyValue → PyValue → Bool
  | .null, .null => true
  | .str s, .str s' => s = s'
  | .list items, .list items' => pyEqItems items items'
  | .tuple items, .tuple items' => pyEqItems items items'
  | .dict entries, .dict entries' =>
      entries.length = entries'.length && pyEqEntries entries entries'
  | .other identity _, .other identity' _ => identity = identity'
  | .bool b, value => value.number?.any ((PyFloat.finite (if b then 1 else 0)).pyEq ·)
  | .int n, value => value.number?.any ((PyFloat.finite n).pyEq ·)
  | .float f, value => value.number?.any (f.pyEq ·)
  | _, _ => false

def pyEqItems : List PyValue → List PyValue → Bool
  | [], [] => true
  | item :: items, item' :: items' => pyEq item item' && pyEqItems items items'
  | _, _ => false

/-- Every entry has its like among the others. -/
def pyEqEntries : List (PyValue × PyValue) → List (PyValue × PyValue) → Bool
  | [], _ => true
  | (key, value) :: entries, others =>
      others.any (fun other => pyEq key other.1 && pyEq value other.2) &&
        pyEqEntries entries others

end

/-- A value that can be built: no two keys of a dict are equal. -/
inductive Valid : PyValue → Prop
  | null : Valid .null
  | bool (value : Bool) : Valid (.bool value)
  | int (value : Int) : Valid (.int value)
  | float (value : PyFloat) : Valid (.float value)
  | str (value : String) : Valid (.str value)
  | list {items : List PyValue} (h : ∀ item ∈ items, Valid item) : Valid (.list items)
  | tuple {items : List PyValue} (h : ∀ item ∈ items, Valid item) : Valid (.tuple items)
  | dict {entries : List (PyValue × PyValue)}
      (hkeys : entries.Pairwise fun a b => a.1.pyEq b.1 = false)
      (h : ∀ entry ∈ entries, Valid entry.2) : Valid (.dict entries)
  | other (identity : Nat) (text : Option String) : Valid (.other identity text)

inductive IsJson : PyValue → Prop
  | null : IsJson .null
  | bool (value : Bool) : IsJson (.bool value)
  | int (value : Int) : IsJson (.int value)
  | float {value : PyFloat} (h : value ≠ .nan) : IsJson (.float value)
  | str (value : String) : IsJson (.str value)
  | list {items : List PyValue} (h : ∀ item ∈ items, IsJson item) : IsJson (.list items)
  | dict {entries : List (PyValue × PyValue)} (hkeys : ∀ entry ∈ entries, ∃ s, entry.1 = .str s)
      (h : ∀ entry ∈ entries, IsJson entry.2) : IsJson (.dict entries)

/-! ## `json.dumps` -/

/-- `sys.int_info.default_max_str_digits` -/
def maxStrDigits : Nat := 4300

/-- `int.__repr__` does not raise. -/
def hasRepr (n : Int) : Bool := (Nat.toDigits 10 n.natAbs).length ≤ maxStrDigits

/-- The text of a key; `none` for a `TypeError` or a `ValueError`. -/
def keyText (F : PyFloatText) : PyValue → Option String
  | .str s => some s
  | .null => some "null"
  | .bool true => some "true"
  | .bool false => some "false"
  | .int n => if hasRepr n then some (String.ofList (Numeral.ofInt n).text) else none
  | .float f => some (String.ofList (floatText F f))
  | _ => none

/-- `key < other`, for keys that can be compared. -/
def keyLt (key other : PyValue) : Bool :=
  match key, other with
  | .str s, .str s' => s < s'
  | key, other =>
      match key.number?, other.number? with
      | some f, some f' => f.pyLt f'
      | _, _ => false

def isStr : PyValue → Bool
  | .str _ => true
  | _ => false

/-- Sorting the keys compares strings with strings only, or numbers with numbers. -/
def sortable (keys : List PyValue) : Bool :=
  keys.length ≤ 1 || keys.all isStr || keys.all fun key => key.number?.isSome

/-- `sorted(dct.items())`; no two keys are equal, so values are not compared. -/
def sortEntries (entries : List (PyValue × String × JsonTree)) :
    List (PyValue × String × JsonTree) :=
  entries.insertionSort fun a b => keyLt b.1 a.1 = false

section Encode

variable (F : PyFloatText)

mutual

/-- `json.dumps(value, sort_keys=True, default=str)`; `none` where it raises. -/
def encode : PyValue → Option JsonTree
  | .null => some .null
  | .bool value => some (.bool value)
  | .int value => if hasRepr value then some (.int value) else none
  | .float value => some (.float value)
  | .str value => some (.str value)
  | .list items => (encodeItems items).map .arr
  | .tuple items => (encodeItems items).map .arr
  | .dict entries =>
      if sortable (entries.map Prod.fst) then
        (encodeEntries entries).map fun fields => .obj ((sortEntries fields).map Prod.snd)
      else none
  | .other _ text => text.map .str

def encodeItems : List PyValue → Option (List JsonTree)
  | [] => some []
  | item :: items => (encode item).bind fun t => (encodeItems items).map (t :: ·)

/-- The entries with their keys, by which they are sorted. -/
def encodeEntries : List (PyValue × PyValue) → Option (List (PyValue × String × JsonTree))
  | [] => some []
  | (key, value) :: entries =>
      (keyText F key).bind fun text =>
        (encode value).bind fun t => (encodeEntries entries).map ((key, text, t) :: ·)

end

end Encode

/-- `d[key] = value`. -/
def setField (fields : List (String × PyValue)) (field : String × PyValue) :
    List (String × PyValue) :=
  if field.1 ∈ fields.map Prod.fst then
    fields.map fun old => if old.1 = field.1 then field else old
  else fields ++ [field]

/-- `dict(pairs)`: for a repeated key the last value. -/
def lastWins (pairs : List (String × PyValue)) : List (String × PyValue) := pairs.foldl setField []

/-- A dict whose keys are strings. -/
def ofFields (fields : List (String × PyValue)) : PyValue :=
  .dict (fields.map fun field => (.str field.1, field.2))

mutual

/-- `json.loads` -/
def decode : JsonTree → PyValue
  | .null => .null
  | .bool value => .bool value
  | .int value => .int value
  | .float value => .float value
  | .str value => .str value
  | .arr items => .list (decodeItems items)
  | .obj fields => ofFields (lastWins (decodeFields fields))

def decodeItems : List JsonTree → List PyValue
  | [] => []
  | item :: items => decode item :: decodeItems items

def decodeFields : List (String × JsonTree) → List (String × PyValue)
  | [] => []
  | (key, value) :: fields => (key, decode value) :: decodeFields fields

end

variable {others : List (PyValue × PyValue)}

theorem pyEqEntries_iff {entries : List (PyValue × PyValue)} :
    pyEqEntries entries others = true ↔ ∀ entry ∈ entries, ∃ other ∈ others,
      entry.1.pyEq other.1 = true ∧ entry.2.pyEq other.2 = true := by
  induction entries with
  | nil => simp [pyEqEntries]
  | cons entry entries ih =>
      obtain ⟨key, value⟩ := entry
      simp only [pyEqEntries, Bool.and_eq_true, List.any_eq_true, ih, List.forall_mem_cons]

variable {s : String}

theorem eq_str_of_pyEq {value : PyValue} (h : value.pyEq (.str s) = true) :
    value = .str s := by
  cases value with
  | str s' => exact congrArg PyValue.str (of_decide_eq_true h)
  | _ => cases h

theorem pyEq_str (s : String) : (PyValue.str s).pyEq (.str s) = true := by
  simp [pyEq]

section Related

variable {α β : Type} {R : α → β → Prop} {as : List α} {bs : List β}

theorem exists_right_of_mem (h : List.Forall₂ R as bs) {a : α} (ha : a ∈ as) :
    ∃ b ∈ bs, R a b := by
  induction h with
  | nil => cases ha
  | @cons a' b as bs hab _ ih =>
      rcases List.mem_cons.mp ha with rfl | hmem
      · exact ⟨b, List.mem_cons_self, hab⟩
      · obtain ⟨b', hb', hrel⟩ := ih hmem
        exact ⟨b', List.mem_cons_of_mem b hb', hrel⟩

theorem exists_left_of_mem (h : List.Forall₂ R as bs) {b : β} (hb : b ∈ bs) :
    ∃ a ∈ as, R a b := exists_right_of_mem (R := fun b a => R a b) h.flip hb

end Related

/-! ## The entries of a dict that is written -/

section Fields

variable {F : PyFloatText}

/-- The field that an entry becomes. -/
def IsFieldOf (F : PyFloatText) (entry : PyValue × PyValue)
    (field : PyValue × String × JsonTree) : Prop :=
  field.1 = entry.1 ∧ keyText F entry.1 = some field.2.1 ∧ encode F entry.2 = some field.2.2

theorem encodeItems_eq_some {items : List PyValue} {ts : List JsonTree} :
    encodeItems F items = some ts ↔ List.Forall₂ (fun item t => encode F item = some t) items ts := by
  induction items generalizing ts with
  | nil => simp [encodeItems, eq_comm]
  | cons item items ih =>
      simp only [encodeItems, Option.bind_eq_some_iff, Option.map_eq_some_iff, ih,
        List.forall₂_cons_left_iff]
      constructor
      · rintro ⟨t, ht, ts, hts, rfl⟩
        exact ⟨t, ts, ht, hts, rfl⟩
      · rintro ⟨t, ts, ht, hts, rfl⟩
        exact ⟨t, ht, ts, hts, rfl⟩

theorem encodeEntries_eq_some {entries : List (PyValue × PyValue)}
    {fields : List (PyValue × String × JsonTree)} :
    encodeEntries F entries = some fields ↔ List.Forall₂ (IsFieldOf F) entries fields := by
  induction entries generalizing fields with
  | nil => simp [encodeEntries, eq_comm]
  | cons entry entries ih =>
      obtain ⟨key, value⟩ := entry
      simp only [encodeEntries, Option.bind_eq_some_iff, Option.map_eq_some_iff, ih,
        List.forall₂_cons_left_iff]
      constructor
      · rintro ⟨text, htext, t, ht, fields, hfields, rfl⟩
        exact ⟨(key, text, t), fields, ⟨rfl, htext, ht⟩, hfields, rfl⟩
      · rintro ⟨⟨key', text, t⟩, fields, ⟨rfl, htext, ht⟩, hfields, rfl⟩
        exact ⟨text, htext, t, ht, fields, hfields, rfl⟩

theorem encode_dict_eq_some {entries : List (PyValue × PyValue)} {t : JsonTree} :
    encode F (.dict entries) = some t ↔ sortable (entries.map Prod.fst) = true ∧
      ∃ fields, List.Forall₂ (IsFieldOf F) entries fields ∧
        t = .obj ((sortEntries fields).map Prod.snd) := by
  rw [encode]
  by_cases hsort : sortable (entries.map Prod.fst) = true
  · simp only [hsort, if_true, Option.map_eq_some_iff, encodeEntries_eq_some, true_and]
    constructor
    · rintro ⟨fields, hfields, rfl⟩
      exact ⟨fields, hfields, rfl⟩
    · rintro ⟨fields, hfields, rfl⟩
      exact ⟨fields, hfields, rfl⟩
  · simp [hsort]

theorem perm_sortEntries (fields : List (PyValue × String × JsonTree)) :
    (sortEntries fields).Perm fields := List.perm_insertionSort _ fields

end Fields

theorem decodeFields_eq (fields : List (String × JsonTree)) :
    decodeFields fields = fields.map (Prod.map id decode) := by
  induction fields with
  | nil => rfl
  | cons field fields ih =>
      obtain ⟨key, value⟩ := field
      rw [decodeFields, ih, List.map_cons]
      rfl

variable {pairs : List (String × PyValue)}

theorem lastWins_of_nodup (h : (pairs.map Prod.fst).Nodup) : lastWins pairs = pairs :=
  @KeyedTable.foldl_setRow _ _ _ Prod.fst [] pairs h

theorem mem_of_mem_lastWins {field : String × PyValue} (h : field ∈ lastWins pairs) : field ∈ pairs :=
  (@KeyedTable.mem_foldl_setRow _ _ _ Prod.fst [] pairs field h).resolve_left List.not_mem_nil

/-! ## The round trip -/

variable {F : PyFloatText}

theorem pyEq_number_iff {value : PyValue} {f : PyFloat} (h : value.number? = some f) :
    value.pyEq value = f.pyEq f := by
  cases value with
  | bool | int | float =>
      cases h
      rfl
  | _ => cases h

theorem mem_fields {fields : List (PyValue × String × JsonTree)} {field : String × PyValue}
    (h : field ∈ lastWins (decodeFields ((sortEntries fields).map Prod.snd))) :
    ∃ source ∈ fields, field = (source.2.1, decode source.2.2) := by
  have hmem := mem_of_mem_lastWins h
  rw [decodeFields_eq, List.map_map] at hmem
  obtain ⟨source, hsource, rfl⟩ := List.mem_map.mp hmem
  exact ⟨source, (perm_sortEntries fields).mem_iff.mp hsource, rfl⟩

theorem perm_fields {fields : List (PyValue × String × JsonTree)}
    (h : (fields.map fun field => field.2.1).Nodup) :
    (lastWins (decodeFields ((sortEntries fields).map Prod.snd))).Perm
      (fields.map fun field => (field.2.1, decode field.2.2)) := by
  have hmap : decodeFields ((sortEntries fields).map Prod.snd) =
      (sortEntries fields).map fun field => (field.2.1, decode field.2.2) := by
    rw [decodeFields_eq, List.map_map]
    rfl
  have hperm := (perm_sortEntries fields).map fun field => (field.2.1, decode field.2.2)
  have hkeys : (((sortEntries fields).map fun field => (field.2.1, decode field.2.2)).map
      Prod.fst).Nodup := by
    refine ((hperm.map Prod.fst).nodup_iff).mpr ?_
    rw [List.map_map]
    exact h
  rw [hmap, lastWins_of_nodup hkeys]
  exact hperm

variable {entry : PyValue × PyValue}

theorem key_of_isFieldOf {field : PyValue × String × JsonTree}
    (h : IsFieldOf F entry field) (hkey : entry.1 = .str s) : field.2.1 = s := by
  have htext := h.2.1
  rw [hkey] at htext
  exact (Option.some.inj htext).symm

theorem nodup_keys {entries : List (PyValue × PyValue)}
    {fields : List (PyValue × String × JsonTree)}
    (hkeys : entries.Pairwise fun a b => a.1.pyEq b.1 = false)
    (hstr : ∀ entry ∈ entries, ∃ s, entry.1 = .str s)
    (h : List.Forall₂ (IsFieldOf F) entries fields) :
    (fields.map fun field => field.2.1).Nodup := by
  induction h with
  | nil => exact List.nodup_nil
  | @cons entry field entries fields hfield hfields ih =>
      obtain ⟨hfirst, hrest⟩ := List.pairwise_cons.mp hkeys
      rw [List.map_cons, List.nodup_cons]
      refine ⟨?_, ih hrest fun other hother => hstr other (List.mem_cons_of_mem _ hother)⟩
      intro hmem
      obtain ⟨other, hother, heq⟩ := List.mem_map.mp hmem
      obtain ⟨source, hsource, hof⟩ := exists_left_of_mem hfields hother
      obtain ⟨s, hs⟩ := hstr entry List.mem_cons_self
      obtain ⟨s', hs'⟩ := hstr source (List.mem_cons_of_mem _ hsource)
      have hsame : s' = s := by
        rw [← key_of_isFieldOf hof hs', ← key_of_isFieldOf hfield hs, heq]
      have hdiffer := hfirst source hsource
      rw [hs, hs', hsame, pyEq_str] at hdiffer
      cases hdiffer

variable {ts : List JsonTree}

theorem pyEqItems_decode_iff {items : List PyValue}
    (h : List.Forall₂ (fun item t => encode F item = some t) items ts)
    (hitems : ∀ item ∈ items, ∀ t, encode F item = some t →
      (item.pyEq (decode t) = true ↔ IsJson item)) :
    pyEqItems items (decodeItems ts) = true ↔ ∀ item ∈ items, IsJson item := by
  induction h with
  | nil => simp [decodeItems, pyEqItems]
  | @cons item t items ts hitem _ ih =>
      rw [decodeItems, pyEqItems, Bool.and_eq_true, List.forall_mem_cons,
        hitems item List.mem_cons_self t hitem,
        ih fun other hother => hitems other (List.mem_cons_of_mem item hother)]

theorem entry_unique {entries : List (PyValue × PyValue)} {other : PyValue × PyValue}
    (hkeys : entries.Pairwise fun a b => a.1.pyEq b.1 = false) (hentry : entry ∈ entries)
    (hother : other ∈ entries) (hs : entry.1 = .str s) (hs' : other.1 = .str s) :
    entry = other := by
  induction entries with
  | nil => cases hentry
  | cons first entries ih =>
      obtain ⟨hfirst, hrest⟩ := List.pairwise_cons.mp hkeys
      rcases List.mem_cons.mp hentry with rfl | hentry'
      · rcases List.mem_cons.mp hother with rfl | hother'
        · rfl
        · have hdiffer := hfirst other hother'
          rw [hs, hs', pyEq_str] at hdiffer
          cases hdiffer
      · rcases List.mem_cons.mp hother with rfl | hother'
        · have hdiffer := hfirst entry hentry'
          rw [hs, hs', pyEq_str] at hdiffer
          cases hdiffer
        · exact ih hrest hentry' hother'

/-- An entry that is found again has a string as its key, and is not another entry. -/
theorem entry_of_pyEq {entries : List (PyValue × PyValue)}
    {fields : List (PyValue × String × JsonTree)}
    (hkeys : entries.Pairwise fun a b => a.1.pyEq b.1 = false)
    (hfields : List.Forall₂ (IsFieldOf F) entries fields)
    (hequal : pyEqEntries entries
      ((lastWins (decodeFields ((sortEntries fields).map Prod.snd))).map
        fun field => (.str field.1, field.2)) = true) :
    ∀ entry ∈ entries, (∃ s, entry.1 = .str s) ∧
      ∃ t, encode F entry.2 = some t ∧ entry.2.pyEq (decode t) = true := by
  have hfound : ∀ entry ∈ entries, ∃ field ∈ fields,
      entry.1 = .str field.2.1 ∧ entry.2.pyEq (decode field.2.2) = true := by
    intro entry hentry
    obtain ⟨other, hother, hkey, hvalue⟩ := pyEqEntries_iff.mp hequal entry hentry
    obtain ⟨field, hfield, rfl⟩ := List.mem_map.mp hother
    obtain ⟨source, hsource, rfl⟩ := mem_fields hfield
    exact ⟨source, hsource, eq_str_of_pyEq hkey, hvalue⟩
  intro entry hentry
  obtain ⟨field, hfield, hkey, hvalue⟩ := hfound entry hentry
  obtain ⟨source, hsource, hof⟩ := exists_left_of_mem hfields hfield
  -- The field may be that of another entry, but then both have the key of the field.
  obtain ⟨field', _, hkey', _⟩ := hfound source hsource
  have hsame : source.1 = entry.1 := by
    rw [hkey, key_of_isFieldOf hof hkey', hkey']
  have hentry' : source = entry := entry_unique hkeys hsource hentry hkey' (hsame ▸ hkey')
  rw [← hentry'] at hvalue ⊢
  exact ⟨⟨_, hkey'⟩, field.2.2, hof.2.2, hvalue⟩

/-- Entries with strings as keys are found again. -/
theorem pyEqEntries_of_isJson {entries : List (PyValue × PyValue)}
    {fields : List (PyValue × String × JsonTree)}
    (hkeys : entries.Pairwise fun a b => a.1.pyEq b.1 = false)
    (hstr : ∀ entry ∈ entries, ∃ s, entry.1 = .str s)
    (hfields : List.Forall₂ (IsFieldOf F) entries fields)
    (hvalues : ∀ entry ∈ entries, ∀ t, encode F entry.2 = some t →
      entry.2.pyEq (decode t) = true) :
    PyValue.pyEq (.dict entries) (decode (.obj ((sortEntries fields).map Prod.snd))) = true := by
  have hperm := perm_fields (nodup_keys hkeys hstr hfields)
  simp only [decode, ofFields, pyEq, Bool.and_eq_true, decide_eq_true_eq]
  constructor
  · rw [List.length_map, hperm.length_eq, List.length_map, hfields.length_eq]
  · refine pyEqEntries_iff.mpr fun entry hentry => ?_
    obtain ⟨field, hfield, hof⟩ := exists_right_of_mem hfields hentry
    obtain ⟨s, hs⟩ := hstr entry hentry
    refine ⟨(.str s, decode field.2.2), ?_, ?_, hvalues entry hentry field.2.2 hof.2.2⟩
    · refine List.mem_map.mpr ⟨(s, decode field.2.2), ?_, rfl⟩
      rw [hperm.mem_iff, List.mem_map]
      exact ⟨field, hfield, by rw [key_of_isFieldOf hof hs]⟩
    · rw [hs]
      exact pyEq_str s

variable {t : JsonTree}

/-- **What comes back equal**: a value that is written is equal to what is read exactly if it
is a value that JSON has. -/
theorem pyEq_decode_iff {value : PyValue} (hvalid : Valid value)
    (h : encode F value = some t) : value.pyEq (decode t) = true ↔ IsJson value := by
  induction hvalid generalizing t with
  | null =>
      cases h
      exact iff_of_true rfl .null
  | bool b =>
      cases h
      refine iff_of_true ?_ (.bool b)
      exact (pyEq_number_iff rfl).trans ((PyFloat.pyEq_self_iff _).mpr nofun)
  | int n =>
      rw [encode] at h
      split_ifs at h
      cases h
      refine iff_of_true ?_ (.int n)
      exact (pyEq_number_iff rfl).trans ((PyFloat.pyEq_self_iff _).mpr nofun)
  | float f =>
      cases h
      have hself : (PyValue.float f).pyEq (.float f) = f.pyEq f := pyEq_number_iff rfl
      show (PyValue.float f).pyEq (.float f) = true ↔ _
      rw [hself, PyFloat.pyEq_self_iff]
      constructor
      · exact IsJson.float
      · intro hjson
        cases hjson with
        | float hnan => exact hnan
  | str s =>
      cases h
      exact iff_of_true (pyEq_str s) (.str s)
  | @list items _ ih =>
      obtain ⟨ts, hts, rfl⟩ := Option.map_eq_some_iff.mp h
      show pyEqItems items (decodeItems ts) = true ↔ _
      rw [pyEqItems_decode_iff (encodeItems_eq_some.mp hts) fun item hitem t => ih item hitem]
      constructor
      · exact IsJson.list
      · intro hjson
        cases hjson with
        | list hitems => exact hitems
  | @tuple items _ _ =>
      -- A tuple comes back as a list.
      obtain ⟨ts, _, rfl⟩ := Option.map_eq_some_iff.mp h
      exact iff_of_false nofun nofun
  | @dict entries hkeys _ ih =>
      obtain ⟨_, fields, hfields, rfl⟩ := encode_dict_eq_some.mp h
      constructor
      · intro hequal
        simp only [decode, ofFields, pyEq, Bool.and_eq_true] at hequal
        have hentries := entry_of_pyEq hkeys hfields hequal.2
        refine .dict (fun entry hentry => (hentries entry hentry).1) fun entry hentry => ?_
        obtain ⟨_, t, ht, hvalue⟩ := hentries entry hentry
        exact (ih entry hentry ht).mp hvalue
      · intro hjson
        cases hjson with
        | dict hstr hvalues =>
            exact pyEqEntries_of_isJson hkeys hstr hfields fun entry hentry t ht =>
              (ih entry hentry ht).mpr (hvalues entry hentry)
  | other identity text =>
      obtain ⟨s, _, rfl⟩ := Option.map_eq_some_iff.mp h
      exact iff_of_false nofun nofun

/-! ## Documents that can be written -/

/-- A value whose floats exist, but for those among the keys, which become texts. -/
inductive HasFloats (F : PyFloatText) : PyValue → Prop
  | null : HasFloats F .null
  | bool (value : Bool) : HasFloats F (.bool value)
  | int (value : Int) : HasFloats F (.int value)
  | float {value : PyFloat} (h : ∀ q, value = .finite q → F.IsFloat q) :
      HasFloats F (.float value)
  | str (value : String) : HasFloats F (.str value)
  | list {items : List PyValue} (h : ∀ item ∈ items, HasFloats F item) :
      HasFloats F (.list items)
  | tuple {items : List PyValue} (h : ∀ item ∈ items, HasFloats F item) :
      HasFloats F (.tuple items)
  | dict {entries : List (PyValue × PyValue)} (h : ∀ entry ∈ entries, HasFloats F entry.2) :
      HasFloats F (.dict entries)
  | other (identity : Nat) (text : Option String) : HasFloats F (.other identity text)

theorem wellFormed_encode {value : PyValue} (hfloats : HasFloats F value)
    (h : encode F value = some t) : t.WellFormed F := by
  have harr : ∀ {items : List PyValue} {ts : List JsonTree}, encodeItems F items = some ts →
      (∀ item ∈ items, ∀ {t : JsonTree}, encode F item = some t → t.WellFormed F) →
      (JsonTree.arr ts).WellFormed F := by
    intro items ts hts hitems
    refine .arr fun t ht => ?_
    obtain ⟨item, hitem, hof⟩ := exists_left_of_mem (encodeItems_eq_some.mp hts) ht
    exact hitems item hitem hof
  induction hfloats generalizing t with
  | null =>
      cases h
      exact .null
  | bool value =>
      cases h
      exact .bool value
  | int value =>
      rw [encode] at h
      split_ifs at h
      cases h
      exact .int value
  | float hfloat =>
      cases h
      exact .float hfloat
  | str value =>
      cases h
      exact .str value
  | list _ ih | tuple _ ih =>
      obtain ⟨ts, hts, rfl⟩ := Option.map_eq_some_iff.mp h
      exact harr hts ih
  | dict _ ih =>
      obtain ⟨_, fields, hfields, rfl⟩ := encode_dict_eq_some.mp h
      refine .obj fun field hfield => ?_
      obtain ⟨source, hsource, rfl⟩ := List.mem_map.mp hfield
      obtain ⟨entry, hentry, hof⟩ :=
        exists_left_of_mem hfields ((perm_sortEntries fields).mem_iff.mp hsource)
      exact ih entry hentry hof.2.2
  | other identity text =>
      obtain ⟨s, _, rfl⟩ := Option.map_eq_some_iff.mp h
      exact .str s

/-! ## Values with one document -/

mutual

/-- The same value of JSON: the keys may stand in another order, but an integer is not a float. -/
def sameJson : PyValue → PyValue → Bool
  | .null, .null => true
  | .bool b, .bool b' => b = b'
  | .int n, .int n' => n = n'
  | .float f, .float f' => f = f'
  | .str s, .str s' => s = s'
  | .list items, .list items' => sameJsonItems items items'
  | .dict entries, .dict entries' =>
      entries.length = entries'.length && sameJsonEntries entries entries'
  | _, _ => false

def sameJsonItems : List PyValue → List PyValue → Bool
  | [], [] => true
  | item :: items, item' :: items' => sameJson item item' && sameJsonItems items items'
  | _, _ => false

/-- Every entry has its like among the others. -/
def sameJsonEntries : List (PyValue × PyValue) → List (PyValue × PyValue) → Bool
  | [], _ => true
  | (key, value) :: entries, others =>
      others.any (fun other => sameJson key other.1 && sameJson value other.2) &&
        sameJsonEntries entries others

end

theorem sameJsonEntries_iff {entries : List (PyValue × PyValue)} :
    sameJsonEntries entries others = true ↔ ∀ entry ∈ entries, ∃ other ∈ others,
      entry.1.sameJson other.1 = true ∧ entry.2.sameJson other.2 = true := by
  induction entries with
  | nil => simp [sameJsonEntries]
  | cons entry entries ih =>
      obtain ⟨key, value⟩ := entry
      simp only [sameJsonEntries, Bool.and_eq_true, List.any_eq_true, ih, List.forall_mem_cons]

/-- What a value that JSON has is written as. -/
inductive Encoded (F : PyFloatText) : PyValue → JsonTree → Prop
  | null : Encoded F .null .null
  | bool (b : Bool) : Encoded F (.bool b) (.bool b)
  | int (n : Int) : Encoded F (.int n) (.int n)
  | float (f : PyFloat) : Encoded F (.float f) (.float f)
  | str (s : String) : Encoded F (.str s) (.str s)
  | list {items : List PyValue} {ts : List JsonTree}
      (h : List.Forall₂ (fun item t => encode F item = some t) items ts) :
      Encoded F (.list items) (.arr ts)
  | dict {entries : List (PyValue × PyValue)} {fields : List (PyValue × String × JsonTree)}
      (h : List.Forall₂ (IsFieldOf F) entries fields) :
      Encoded F (.dict entries) (.obj ((sortEntries fields).map Prod.snd))

theorem encoded_of_isJson {value : PyValue} (hjson : IsJson value)
    (h : encode F value = some t) : Encoded F value t := by
  cases hjson with
  | null =>
      cases h
      exact .null
  | bool b =>
      cases h
      exact .bool b
  | int n =>
      rw [encode] at h
      split_ifs at h
      cases h
      exact .int n
  | @float f _ =>
      cases h
      exact .float f
  | str s =>
      cases h
      exact .str s
  | list _ =>
      obtain ⟨ts, hts, rfl⟩ := Option.map_eq_some_iff.mp h
      exact .list (encodeItems_eq_some.mp hts)
  | dict _ _ =>
      obtain ⟨_, fields, hfields, rfl⟩ := encode_dict_eq_some.mp h
      exact .dict hfields

theorem str_of_fields {entries : List (PyValue × PyValue)}
    {fields : List (PyValue × String × JsonTree)}
    (hstr : ∀ entry ∈ entries, ∃ s, entry.1 = .str s)
    (h : List.Forall₂ (IsFieldOf F) entries fields) :
    ∀ field ∈ fields, field.1 = .str field.2.1 := by
  intro field hfield
  obtain ⟨entry, hentry, hof⟩ := exists_left_of_mem h hfield
  obtain ⟨s, hs⟩ := hstr entry hentry
  rw [hof.1, hs, key_of_isFieldOf hof hs]

theorem map_sortEntries {fields : List (PyValue × String × JsonTree)}
    (hstr : ∀ field ∈ fields, field.1 = .str field.2.1) :
    (sortEntries fields).map Prod.snd =
      (fields.map Prod.snd).insertionSort fun a b => a.1 ≤ b.1 := by
  refine List.map_insertionSort _ _ _ _ fun a ha b hb => ?_
  rw [hstr a ha, hstr b hb]
  show decide (b.2.1 < a.2.1) = false ↔ a.2.1 ≤ b.2.1
  rw [decide_eq_false_iff_not, not_lt]

/-- **Sorting forgets the order**, and nothing else. -/
theorem map_sortEntries_eq_iff {fields others : List (PyValue × String × JsonTree)}
    (hstr : ∀ field ∈ fields, field.1 = .str field.2.1)
    (hstr' : ∀ other ∈ others, other.1 = .str other.2.1)
    (hkeys : (fields.map fun field => field.2.1).Nodup) :
    (sortEntries fields).map Prod.snd = (sortEntries others).map Prod.snd ↔
      (fields.map Prod.snd).Perm (others.map Prod.snd) := by
  constructor
  · intro heq
    have hperm := (perm_sortEntries others).map Prod.snd
    rw [← heq] at hperm
    exact ((perm_sortEntries fields).map Prod.snd).symm.trans hperm
  · intro hperm
    have htotal : Std.Total fun a b : String × JsonTree => a.1 ≤ b.1 :=
      ⟨fun a b => le_total a.1 b.1⟩
    have htrans : IsTrans (String × JsonTree) fun a b => a.1 ≤ b.1 :=
      ⟨fun _ _ _ hab hbc => le_trans hab hbc⟩
    rw [map_sortEntries hstr, map_sortEntries hstr']
    refine List.Perm.eq_of_pairwise (fun a b ha hb hab hba => ?_)
      (List.pairwise_insertionSort _ _) (List.pairwise_insertionSort _ _)
      ((List.perm_insertionSort _ _).trans (hperm.trans (List.perm_insertionSort _ _).symm))
    -- Two fields with one key are one field.
    have ha' := (List.mem_insertionSort _).mp ha
    have hb' := hperm.mem_iff.mpr ((List.mem_insertionSort _).mp hb)
    have hnodup : ((fields.map Prod.snd).map Prod.fst).Nodup := by
      rw [List.map_map]
      exact hkeys
    exact List.inj_on_of_nodup_map hnodup ha' hb' (le_antisymm hab hba)

theorem eq_iff_sameJsonItems {items items' : List PyValue} {us : List JsonTree}
    (h : List.Forall₂ (fun item t => encode F item = some t) items ts)
    (h' : List.Forall₂ (fun item t => encode F item = some t) items' us)
    (hitems : ∀ item ∈ items, ∀ item' ∈ items', ∀ t u, encode F item = some t →
      encode F item' = some u → (t = u ↔ item.sameJson item' = true)) :
    ts = us ↔ sameJsonItems items items' = true := by
  induction h generalizing items' us with
  | nil =>
      cases h' with
      | nil => exact iff_of_true rfl rfl
      | cons => exact iff_of_false nofun nofun
  | @cons item t items ts hitem _ ih =>
      cases h' with
      | nil => exact iff_of_false nofun nofun
      | @cons item' u items' us hitem' hrest' =>
          have hfirst := hitems item List.mem_cons_self item' List.mem_cons_self t u hitem hitem'
          have hrest := ih hrest' fun other hother other' hother' =>
            hitems other (List.mem_cons_of_mem item hother) other'
              (List.mem_cons_of_mem item' hother')
          rw [List.cons.injEq, hfirst, hrest, sameJsonItems, Bool.and_eq_true]

/-- The fields of two dicts are the same, in whatever order, if every entry has its like. -/
theorem perm_iff_sameJsonEntries {entries : List (PyValue × PyValue)}
    {fields fields' : List (PyValue × String × JsonTree)}
    (hfields : List.Forall₂ (IsFieldOf F) entries fields)
    (hfields' : List.Forall₂ (IsFieldOf F) others fields')
    (hstr : ∀ entry ∈ entries, ∃ s, entry.1 = .str s)
    (hstr' : ∀ other ∈ others, ∃ s, other.1 = .str s)
    (hkeys : (fields.map fun field => field.2.1).Nodup)
    (hvalues : ∀ entry ∈ entries, ∀ other ∈ others, ∀ t u, encode F entry.2 = some t →
      encode F other.2 = some u → (t = u ↔ entry.2.sameJson other.2 = true)) :
    (fields.map Prod.snd).Perm (fields'.map Prod.snd) ↔
      (PyValue.dict entries).sameJson (.dict others) = true := by
  have hlength : (fields.map Prod.snd).length = entries.length := by
    rw [List.length_map, hfields.length_eq]
  have hlength' : (fields'.map Prod.snd).length = others.length := by
    rw [List.length_map, hfields'.length_eq]
  simp only [sameJson, Bool.and_eq_true, decide_eq_true_eq]
  rw [sameJsonEntries_iff]
  constructor
  · intro hperm
    refine ⟨hlength ▸ hlength' ▸ hperm.length_eq, fun entry hentry => ?_⟩
    obtain ⟨field, hfield, hof⟩ := exists_right_of_mem hfields hentry
    obtain ⟨field', hfield', heq⟩ :=
      List.mem_map.mp (hperm.mem_iff.mp (List.mem_map_of_mem hfield))
    obtain ⟨other, hother, hof'⟩ := exists_left_of_mem hfields' hfield'
    obtain ⟨s, hs⟩ := hstr entry hentry
    obtain ⟨s', hs'⟩ := hstr' other hother
    have hsame : s = s' := by
      rw [← key_of_isFieldOf hof hs, ← key_of_isFieldOf hof' hs', heq]
    refine ⟨other, hother, ?_, ?_⟩
    · rw [hs, hs', hsame]
      exact decide_eq_true rfl
    · refine (hvalues entry hentry other hother _ _ hof.2.2 hof'.2.2).mp ?_
      rw [heq]
  · rintro ⟨hlen, hlike⟩
    have hnodup : (fields.map Prod.snd).Nodup := by
      refine List.Nodup.of_map Prod.fst ?_
      rw [List.map_map]
      exact hkeys
    have hsubset : fields.map Prod.snd ⊆ fields'.map Prod.snd := by
      intro pair hpair
      obtain ⟨field, hfield, rfl⟩ := List.mem_map.mp hpair
      obtain ⟨entry, hentry, hof⟩ := exists_left_of_mem hfields hfield
      obtain ⟨other, hother, hkey, hvalue⟩ := hlike entry hentry
      obtain ⟨field', hfield', hof'⟩ := exists_right_of_mem hfields' hother
      obtain ⟨s, hs⟩ := hstr entry hentry
      obtain ⟨s', hs'⟩ := hstr' other hother
      rw [hs, hs'] at hkey
      have hsame : s = s' := of_decide_eq_true hkey
      have hvalue' := (hvalues entry hentry other hother _ _ hof.2.2 hof'.2.2).mpr hvalue
      have heq : field.2 = field'.2 := by
        refine Prod.ext ?_ hvalue'
        rw [key_of_isFieldOf hof hs, key_of_isFieldOf hof' hs', hsame]
      rw [heq]
      exact List.mem_map_of_mem hfield'
    refine (List.subperm_of_subset hnodup hsubset).perm_of_length_le ?_
    rw [hlength, hlength', hlen]

/-- **The same document**: values that JSON has are written as one document exactly if they are
the same value of JSON. -/
theorem encode_eq_iff {a b : PyValue} (ha : Valid a) (hb : Valid b) (hjson : IsJson a)
    (hjson' : IsJson b) {u : JsonTree} (ht : encode F a = some t) (hu : encode F b = some u) :
    t = u ↔ a.sameJson b = true := by
  induction hjson generalizing b t u with
  | null =>
      cases encoded_of_isJson .null ht
      cases encoded_of_isJson hjson' hu with
      | null => exact iff_of_true rfl rfl
      | _ => exact iff_of_false nofun nofun
  | bool value =>
      cases encoded_of_isJson (.bool value) ht
      cases encoded_of_isJson hjson' hu with
      | bool => simp [sameJson]
      | _ => exact iff_of_false nofun nofun
  | int value =>
      cases encoded_of_isJson (.int value) ht
      cases encoded_of_isJson hjson' hu with
      | int => simp [sameJson]
      | _ => exact iff_of_false nofun nofun
  | @float value hvalue =>
      cases encoded_of_isJson (.float hvalue) ht
      cases encoded_of_isJson hjson' hu with
      | float => simp [sameJson]
      | _ => exact iff_of_false nofun nofun
  | str value =>
      cases encoded_of_isJson (.str value) ht
      cases encoded_of_isJson hjson' hu with
      | str => simp [sameJson]
      | _ => exact iff_of_false nofun nofun
  | @list items hitems ih =>
      cases encoded_of_isJson (.list hitems) ht with
      | list hts =>
          cases encoded_of_isJson hjson' hu with
          | list hus =>
              cases ha with
              | list hvalid =>
                  cases hb with
                  | list hvalid' =>
                      cases hjson' with
                      | list hitems' =>
                          have hsame := eq_iff_sameJsonItems hts hus
                            fun item hitem item' hitem' t u => ih item hitem (hvalid item hitem)
                              (hvalid' item' hitem') (hitems' item' hitem')
                          rw [JsonTree.arr.injEq, hsame]
                          rfl
          | _ => exact iff_of_false nofun nofun
  | @dict entries hstr hentries ih =>
      cases encoded_of_isJson (.dict hstr hentries) ht with
      | dict hfields =>
          cases encoded_of_isJson hjson' hu with
          | dict hfields' =>
              cases ha with
              | dict hkeys hvalid =>
                  cases hb with
                  | dict hkeys' hvalid' =>
                      cases hjson' with
                      | dict hstr' hentries' =>
                          have hperm := perm_iff_sameJsonEntries hfields hfields' hstr hstr'
                            (nodup_keys hkeys hstr hfields) fun entry hentry other hother t u =>
                              ih entry hentry (hvalid entry hentry) (hvalid' other hother)
                                (hentries' other hother)
                          rw [JsonTree.obj.injEq, ← hperm]
                          exact map_sortEntries_eq_iff (str_of_fields hstr hfields)
                            (str_of_fields hstr' hfields') (nodup_keys hkeys hstr hfields)
          | _ => exact iff_of_false nofun nofun

/-- Keys are sorted, and a tuple is written as a list. -/
example : encode PyFloatText.integral (.dict [(.str "b", .tuple [.int 1]), (.str "a", .null)]) =
    some (.obj [("a", .null), ("b", .arr [.int 1])]) := rfl

end PyValue
