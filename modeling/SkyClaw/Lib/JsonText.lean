import SkyClaw.Lib.Json
import SkyClaw.Lib.JsonLexemes
import SkyClaw.Lib.KeyedTable

/-!
# JSON as text

`json.dumps` with its default separators, and `json.loads`.  What is written is read back
(`loads_dumps`).

The limits of the interpreter on the digits of an integer and on the depth of a value are left out.
-/

namespace JsonText

/-! ## Lists in brackets -/

/-- `WHITESPACE` -/
def isSpace (c : Char) : Bool := c = ' ' || c = '\t' || c = '\n' || c = '\r'

def skipSpace (text : List Char) : List Char := text.dropWhile isSpace

/-- `', '.join(texts)`. -/
def joined : List (List Char) → List Char
  | [] => []
  | [text] => text
  | text :: more :: rest => text ++ ',' :: ' ' :: joined (more :: rest)

section Brackets

variable {α : Type} (read : List Char → Option (α × List Char)) (close : Char)

/-- Items up to the closing bracket. -/
def readItems : Nat → List Char → Option (List α × List Char)
  | 0, _ => none
  | fuel + 1, text =>
      (read text).bind fun (item, rest) =>
        match skipSpace rest with
        | [] => none
        | c :: rest =>
            if c = close then some ([item], rest)
            else if c = ',' then
              (readItems fuel (skipSpace rest)).map (Prod.map (item :: ·) id)
            else none

/-- After an opening bracket. -/
def readBracket (text : List Char) : Option (List α × List Char) :=
  match skipSpace text with
  | [] => none
  | c :: rest =>
      if c = close then some ([], rest) else readItems read close (rest.length + 1) (c :: rest)

variable {read close}

theorem skipSpace_cons {c : Char} (h : isSpace c = false) (rest : List Char) :
    skipSpace (c :: rest) = c :: rest := by
  simp [skipSpace, h]

def StartsItem (close : Char) (text : List Char) : Prop :=
  ∃ c rest, text = c :: rest ∧ isSpace c = false ∧ c ≠ close

theorem StartsItem.append {text : List Char} (h : StartsItem close text) (rest : List Char) :
    StartsItem close (text ++ rest) := by
  obtain ⟨c, tail, rfl, hspace, hclose⟩ := h
  exact ⟨c, tail ++ rest, rfl, hspace, hclose⟩

theorem StartsItem.skipSpace {text : List Char} (h : StartsItem close text) :
    skipSpace text = text := by
  obtain ⟨c, rest, rfl, hspace, _⟩ := h
  exact skipSpace_cons hspace rest

/-- The texts, with this behind each comma. -/
def spread (gap : List Char) : List (List Char) → List Char
  | [] => []
  | [text] => text
  | text :: more :: rest => text ++ ',' :: (gap ++ spread gap (more :: rest))

theorem joined_eq (texts : List (List Char)) : joined texts = spread [' '] texts := by
  fun_induction joined texts with
  | case1 | case2 => rfl
  | case3 text more rest ih =>
      rw [ih]
      rfl

theorem length_le_spread (gap : List Char) {text : List Char} {texts : List (List Char)}
    (h : text ∈ texts) : text.length ≤ (spread gap texts).length := by
  induction texts with
  | nil => cases h
  | cons first rest ih =>
      cases rest with
      | nil =>
          obtain rfl := List.mem_singleton.mp h
          exact le_rfl
      | cons more rest =>
          simp only [spread, List.length_append, List.length_cons]
          rcases List.mem_cons.mp h with rfl | hrest
          · omega
          · have hle := ih hrest
            omega

theorem length_le_joined {text : List Char} {texts : List (List Char)} (h : text ∈ texts) :
    text.length ≤ (joined texts).length := by
  rw [joined_eq]
  exact length_le_spread _ h

theorem length_le_length_spread (gap : List Char) {texts : List (List Char)}
    (h : ∀ text ∈ texts, text ≠ []) : texts.length ≤ (spread gap texts).length := by
  induction texts with
  | nil => exact le_rfl
  | cons first rest ih =>
      have hfirst : 0 < first.length := List.length_pos_iff.mpr (h first List.mem_cons_self)
      cases rest with
      | nil => exact hfirst
      | cons more rest =>
          have hle := ih fun text htext => h text (List.mem_cons_of_mem _ htext)
          simp only [spread, List.length_append, List.length_cons] at hle ⊢
          omega

theorem skipSpace_append {gap text : List Char} (hgap : ∀ c ∈ gap, isSpace c = true)
    (h : StartsItem close text) : skipSpace (gap ++ text) = text := by
  unfold skipSpace
  rw [List.dropWhile_append_of_pos hgap]
  exact h.skipSpace

theorem startsItem_spread {text : List Char} (h : StartsItem close text)
    (gap : List Char) (texts : List (List Char)) : StartsItem close (spread gap (text :: texts)) := by
  cases texts with
  | nil => exact h
  | cons => exact h.append _

/-- A bracket closes a list behind blanks. -/
theorem endsNumber_close {last : List Char} (hclose : close = ']' ∨ close = '}')
    (hlast : ∀ c ∈ last, isSpace c = true) (rest : List Char) :
    EndsNumber (last ++ close :: rest) := by
  cases last with
  | nil =>
      intro c hc
      cases hc
      rcases hclose with rfl | rfl
      · decide
      · decide
  | cons space last =>
      intro c hc
      cases hc
      have hspace := hlast space List.mem_cons_self
      simp only [isSpace, Bool.or_eq_true, decide_eq_true_eq] at hspace
      rcases hspace with ((rfl | rfl) | rfl) | rfl <;> decide

theorem skipSpace_close {last : List Char} (hclose : close = ']' ∨ close = '}')
    (hlast : ∀ c ∈ last, isSpace c = true) (rest : List Char) :
    skipSpace (last ++ close :: rest) = close :: rest := by
  unfold skipSpace
  rw [List.dropWhile_append_of_pos hlast]
  rcases hclose with rfl | rfl
  · rfl
  · rfl

variable {gap last : List Char}

/-- **Items are read back**, if each of them is. -/
theorem readItems_spread {texts : α → List Char} {items : List α} (hne : items ≠ [])
    (hclose : close = ']' ∨ close = '}') (hgap : ∀ c ∈ gap, isSpace c = true)
    (hlast : ∀ c ∈ last, isSpace c = true)
    (hread : ∀ item ∈ items, ∀ rest, EndsNumber rest → read (texts item ++ rest) = some (item, rest))
    (hstart : ∀ item ∈ items, StartsItem close (texts item)) {fuel : Nat}
    (hfuel : items.length ≤ fuel) (rest : List Char) :
    readItems read close fuel (spread gap (items.map texts) ++ (last ++ close :: rest)) =
      some (items, rest) := by
  have hcomma : ',' ≠ close := by
    rcases hclose with rfl | rfl
    · decide
    · decide
  induction items generalizing fuel with
  | nil => exact absurd rfl hne
  | cons item items ih =>
      obtain ⟨fuel, rfl⟩ : ∃ n, fuel = n + 1 := ⟨fuel - 1, by simp at hfuel; omega⟩
      have hitem := hread item List.mem_cons_self
      cases items with
      | nil =>
          show (read (texts item ++ (last ++ close :: rest))).bind _ = _
          rw [hitem _ (endsNumber_close hclose hlast rest), Option.bind_some]
          simp only [skipSpace_close hclose hlast, if_true]
      | cons next items =>
          have hskip := skipSpace_append hgap
            ((startsItem_spread (hstart next (by simp)) gap (items.map texts)).append (last ++ close :: rest))
          have hrest := ih (by simp) (fun i hi => hread i (List.mem_cons_of_mem _ hi))
            (fun i hi => hstart i (List.mem_cons_of_mem _ hi)) (by simpa using hfuel)
          have hnext : ∀ more, EndsNumber (',' :: more) := by
            intro more c hc
            cases hc
            decide
          rw [List.map_cons, List.map_cons, spread, List.append_assoc, List.cons_append,
            List.append_assoc, ← List.map_cons]
          show (read (texts item ++ _)).bind _ = _
          rw [hitem _ (hnext _), Option.bind_some]
          simp only [skipSpace_cons (show isSpace ',' = false from rfl), if_neg hcomma, if_true]
          rw [List.map_cons, hskip, ← List.map_cons, hrest]
          rfl

theorem readBracket_spread {texts : α → List Char} {items : List α} {lead : List Char}
    (hclose : close = ']' ∨ close = '}') (hlead : ∀ c ∈ lead, isSpace c = true)
    (hgap : ∀ c ∈ gap, isSpace c = true) (hlast : ∀ c ∈ last, isSpace c = true)
    (hread : ∀ item ∈ items, ∀ rest, EndsNumber rest → read (texts item ++ rest) = some (item, rest))
    (hstart : ∀ item ∈ items, StartsItem close (texts item)) (rest : List Char) :
    readBracket read close (lead ++ (spread gap (items.map texts) ++ (last ++ close :: rest))) =
      some (items, rest) := by
  unfold readBracket
  cases items with
  | nil =>
      have hblank : ∀ c ∈ lead ++ last, isSpace c = true := by
        intro c hc
        rcases List.mem_append.mp hc with hc | hc
        · exact hlead c hc
        · exact hlast c hc
      show (match skipSpace (lead ++ (last ++ close :: rest)) with | [] => _ | c :: rest => _) = _
      rw [← List.append_assoc, skipSpace_close hclose hblank]
      simp
  | cons item items =>
      have hfirst : StartsItem close (spread gap ((item :: items).map texts)) :=
        startsItem_spread (hstart item List.mem_cons_self) gap _
      have hlength : (item :: items).length ≤ (spread gap ((item :: items).map texts)).length := by
        refine (List.length_map texts).symm.le.trans (length_le_length_spread gap ?_)
        intro text htext
        obtain ⟨i, hi, rfl⟩ := List.mem_map.mp htext
        obtain ⟨c, tail, htail, _⟩ := hstart i hi
        rw [htail]
        exact List.cons_ne_nil _ _
      rw [skipSpace_append hlead (hfirst.append _)]
      obtain ⟨c, tail, htail, hspace, hne⟩ := hfirst
      have hfuel : (item :: items).length ≤ (tail ++ (last ++ close :: rest)).length + 1 := by
        rw [htail] at hlength
        simp only [List.length_cons, List.length_append] at hlength ⊢
        omega
      have hitems := readItems_spread (List.cons_ne_nil item items) hclose hgap hlast hread hstart
        hfuel rest
      rw [htail] at hitems ⊢
      simp only [List.cons_append, if_neg hne]
      exact hitems

theorem readBracket_joined {texts : α → List Char} {items : List α}
    (hclose : close = ']' ∨ close = '}')
    (hread : ∀ item ∈ items, ∀ rest, EndsNumber rest → read (texts item ++ rest) = some (item, rest))
    (hstart : ∀ item ∈ items, StartsItem close (texts item)) (rest : List Char) :
    readBracket read close (joined (items.map texts) ++ close :: rest) = some (items, rest) := by
  rw [joined_eq]
  exact @readBracket_spread _ _ _ [' '] [] _ _ [] hclose (by simp) (by simp [isSpace]) (by simp) hread
    hstart rest

theorem forall_of_readItems {P : α → Prop}
    (hread : ∀ text item rest, read text = some (item, rest) → P item) {fuel : Nat}
    {text rest : List Char} {items : List α} (h : readItems read close fuel text = some (items, rest)) :
    ∀ item ∈ items, P item := by
  induction fuel generalizing text items rest with
  | zero => cases h
  | succ fuel ih =>
      obtain ⟨⟨first, more⟩, hfirst, h⟩ := Option.bind_eq_some_iff.mp h
      have hP : P first := hread _ _ _ hfirst
      simp only at h
      split at h
      · cases h
      · split_ifs at h with hclose hcomma
        · cases h
          simpa using hP
        · obtain ⟨⟨others, tail⟩, hothers, heq⟩ := Option.map_eq_some_iff.mp h
          cases heq
          intro item hitem
          rcases List.mem_cons.mp hitem with rfl | hrest
          · exact hP
          · exact ih hothers item hrest

theorem forall_of_readBracket {P : α → Prop}
    (hread : ∀ text item rest, read text = some (item, rest) → P item)
    {text rest : List Char} {items : List α} (h : readBracket read close text = some (items, rest)) :
    ∀ item ∈ items, P item := by
  unfold readBracket at h
  split at h
  · cases h
  · split_ifs at h
    · cases h
      intro item hitem
      cases hitem
    · exact forall_of_readItems hread h

end Brackets

/-! ## Values -/

/-- `d[key] = value`. -/
def setField (fields : List (String × Json)) (field : String × Json) : List (String × Json) :=
  if field.1 ∈ fields.map Prod.fst then
    fields.map fun old => if old.1 = field.1 then field else old
  else fields ++ [field]

/-- `dict(pairs)`: for a repeated key the last value, in the place of the first. -/
def dict (pairs : List (String × Json)) : List (String × Json) := pairs.foldl setField []

def quote (s : List Char) : List Char := '"' :: (s.flatMap escape ++ ['"'])

section Values

variable (F : FloatText)

mutual

/-- `json.dumps` -/
def write : Json → List Char
  | .null => ['n', 'u', 'l', 'l']
  | .bool true => ['t', 'r', 'u', 'e']
  | .bool false => ['f', 'a', 'l', 's', 'e']
  | .int value => (Numeral.ofInt value).text
  | .float none => ['N', 'a', 'N']
  | .float (some value) => (F.repr value).text
  | .str value => quote value.toList
  | .arr items => '[' :: (joined (writeItems items) ++ [']'])
  | .obj fields => '{' :: (joined (writeFields fields) ++ ['}'])

def writeItems : List Json → List (List Char)
  | [] => []
  | item :: items => write item :: writeItems items

def writeFields : List (String × Json) → List (List Char)
  | [] => []
  | (key, value) :: fields =>
      (quote key.toList ++ ':' :: ' ' :: write value) :: writeFields fields

end

/-- `null`, `true` and the others. -/
def readWord (text : List Char) : Option (Json × List Char) :=
  [("null", Json.null), ("true", .bool true), ("false", .bool false), ("NaN", .float none),
    ("Infinity", .float none), ("-Infinity", .float none)].findSome? fun (word, value) =>
      if word.toList.isPrefixOf text then some (value, text.drop word.length) else none

/-- `int()` or `float()` of a numeral. -/
def ofNumeral (n : Numeral) : Json := if n.isInt then .int n.toInt else .float (F.parse n)

def readField (read : List Char → Option (Json × List Char)) :
    List Char → Option ((String × Json) × List Char)
  | '"' :: text =>
      (readString (text.length + 1) text).bind fun (key, rest) =>
        match skipSpace rest with
        | ':' :: rest => (read (skipSpace rest)).map (Prod.map (String.ofList key, ·) id)
        | _ => none
  | _ => none

/-- `scan_once` -/
def readValue : Nat → List Char → Option (Json × List Char)
  | 0, _ => none
  | _ + 1, [] => none
  | fuel + 1, c :: rest =>
      if c = '"' then
        (readString (rest.length + 1) rest).map (Prod.map (fun s => .str (String.ofList s)) id)
      else if c = '{' then
        (readBracket (readField (readValue fuel)) '}' rest).map
          (Prod.map (fun pairs => .obj (dict pairs)) id)
      else if c = '[' then (readBracket (readValue fuel) ']' rest).map (Prod.map .arr id)
      else
        match readNumber (c :: rest) with
        | some (n, rest) => some (ofNumeral F n, rest)
        | none => readWord (c :: rest)

def dumps (value : Json) : String := String.ofList (write F value)

/-- `json.loads`; `none` for a `JSONDecodeError`. -/
def loads (text : String) : Option Json :=
  match readValue F (text.toList.length + 1) (skipSpace text.toList) with
  | none => none
  | some (value, rest) => if skipSpace rest = [] then some value else none

/-- Values that Python has: its floats, and dicts with different keys. -/
inductive WellFormed : Json → Prop
  | null : WellFormed .null
  | bool (value : Bool) : WellFormed (.bool value)
  | int (value : Int) : WellFormed (.int value)
  | notFinite : WellFormed (.float none)
  | float {value : ℚ} (h : F.IsFloat value) : WellFormed (.float (some value))
  | str (value : String) : WellFormed (.str value)
  | arr {items : List Json} (h : ∀ item ∈ items, WellFormed item) : WellFormed (.arr items)
  | obj {fields : List (String × Json)} (hkeys : (fields.map Prod.fst).Nodup)
      (h : ∀ field ∈ fields, WellFormed field.2) : WellFormed (.obj fields)

variable {F}

variable {pairs : List (String × Json)}

theorem dict_of_nodup (h : (pairs.map Prod.fst).Nodup) : dict pairs = pairs :=
  @KeyedTable.foldl_setRow _ _ _ Prod.fst [] pairs h

theorem writeItems_eq (items : List Json) : writeItems F items = items.map (write F) := by
  induction items with
  | nil => rfl
  | cons item items ih => rw [writeItems, ih, List.map_cons]

theorem writeFields_eq (fields : List (String × Json)) :
    writeFields F fields =
      fields.map fun field => quote field.1.toList ++ ':' :: ' ' :: write F field.2 := by
  induction fields with
  | nil => rfl
  | cons field fields ih => rw [writeFields, ih, List.map_cons]

theorem head_text (n : Numeral) :
    ∃ c tail, n.text = c :: tail ∧ (c = '-' ∨ c.isDigit = true) := by
  unfold Numeral.text
  cases hdigits : Nat.toDigits 10 n.whole with
  | nil => exact absurd hdigits Nat.toDigits_ne_nil
  | cons c tail =>
      have hc : c.isDigit = true := isDigit_of_mem_toDigits (n := n.whole) (by simp [hdigits])
      cases n.negative with
      | true => exact ⟨'-', _, rfl, .inl rfl⟩
      | false => exact ⟨c, _, rfl, .inr hc⟩

theorem startsItem_text (n : Numeral) {close : Char} (hclose : close = ']' ∨ close = '}') :
    StartsItem close n.text := by
  obtain ⟨c, tail, htext, hc⟩ := head_text n
  refine ⟨c, tail, htext, ?_, ?_⟩
  · rcases hc with rfl | hc
    · rfl
    · unfold isSpace
      simp only [Bool.or_eq_false_iff, decide_eq_false_iff_not]
      refine ⟨⟨⟨?_, ?_⟩, ?_⟩, ?_⟩ <;> (rintro rfl; cases hc)
  · rintro rfl
    rcases hc with rfl | hc
    · rcases hclose with h | h <;> cases h
    · rcases hclose with rfl | rfl <;> cases hc

theorem startsItem_cons {c close : Char} (hspace : isSpace c = false) (hc : c ≠ close)
    (rest : List Char) : StartsItem close (c :: rest) := ⟨c, rest, rfl, hspace, hc⟩

theorem startsItem_plain {c close : Char} (h : isSpace c = false ∧ c ≠ ']' ∧ c ≠ '}')
    (hclose : close = ']' ∨ close = '}') (rest : List Char) : StartsItem close (c :: rest) := by
  refine startsItem_cons h.1 ?_ rest
  rcases hclose with rfl | rfl
  · exact h.2.1
  · exact h.2.2

/-- No value starts with a space or a closing bracket. -/
theorem startsItem_write (value : Json) {close : Char} (hclose : close = ']' ∨ close = '}') :
    StartsItem close (write F value) := by
  cases value with
  | null | str | arr | obj => exact startsItem_plain (by decide) hclose _
  | bool value =>
      cases value with
      | true | false => exact startsItem_plain (by decide) hclose _
  | int value => exact startsItem_text _ hclose
  | float value =>
      cases value with
      | none => exact startsItem_plain (by decide) hclose _
      | some value => exact startsItem_text _ hclose

theorem readString_quote (s : List Char) (rest : List Char) :
    readString ((s.flatMap escape ++ '"' :: rest).length + 1) (s.flatMap escape ++ '"' :: rest) =
      some (s, rest) := escapes_escape.readString_quote s rest

theorem readField_quote {esc : Char → List Char} (hesc : Escapes esc) (key : String) {value : Json}
    {read : List Char → Option (Json × List Char)} {text rest : List Char}
    (hstart : StartsItem ']' text) (hread : read (text ++ rest) = some (value, rest)) :
    readField read ('"' :: (key.toList.flatMap esc ++ '"' :: (':' :: ' ' :: (text ++ rest)))) =
      some ((key, value), rest) := by
  have hskip : skipSpace (' ' :: (text ++ rest)) = text ++ rest := (hstart.append rest).skipSpace
  simp only [readField, hesc.readString_quote, Option.bind_some,
    skipSpace_cons (show isSpace ':' = false from rfl), hskip, hread, Option.map_some,
    Prod.map, String.ofList_toList, id]

theorem readField_write {read : List Char → Option (Json × List Char)} {key : String}
    {value : Json} (hread : ∀ rest, EndsNumber rest → read (write F value ++ rest) = some (value, rest))
    {rest : List Char} (h : EndsNumber rest) :
    readField read (quote key.toList ++ ':' :: ' ' :: write F value ++ rest) =
      some ((key, value), rest) := by
  have hquote : quote key.toList ++ ':' :: ' ' :: write F value ++ rest =
      '"' :: (key.toList.flatMap escape ++ '"' :: (':' :: ' ' :: (write F value ++ rest))) := by
    simp [quote]
  rw [hquote]
  exact readField_quote escapes_escape key (startsItem_write value (.inl rfl)) (hread rest h)

theorem readValue_text {n : Numeral} (hn : n.Valid) (fuel : Nat) {rest : List Char}
    (h : EndsNumber rest) : readValue F (fuel + 1) (n.text ++ rest) = some (ofNumeral F n, rest) := by
  have hread := readNumber_text hn h
  obtain ⟨c, tail, htext, hc⟩ := head_text n
  rw [htext, List.cons_append] at hread ⊢
  have hplain : c ≠ '"' ∧ c ≠ '{' ∧ c ≠ '[' := by
    rcases hc with rfl | hc
    · decide
    · refine ⟨?_, ?_, ?_⟩ <;> (rintro rfl; cases hc)
  simp only [readValue, if_neg hplain.1, if_neg hplain.2.1, if_neg hplain.2.2, hread]

theorem ofInt_valid (value : Int) : (Numeral.ofInt value).Valid := by
  constructor
  · simp [Numeral.ofInt]
  · simp [Numeral.ofInt]

theorem toInt_ofInt (value : Int) : (Numeral.ofInt value).toInt = value := by
  unfold Numeral.ofInt Numeral.toInt
  by_cases hneg : value < 0
  · simp only [hneg, decide_true, if_true]
    omega
  · simp only [hneg, decide_false, Bool.false_eq_true, if_false]
    omega

theorem exists_succ_of_length_write_le {value : Json} {n : Nat}
    (h : (write F value).length ≤ n) : ∃ m, n = m + 1 := by
  obtain ⟨c, tail, htext, _⟩ := startsItem_write (F := F) value (.inl rfl)
  rw [htext, List.length_cons] at h
  exact ⟨n - 1, by omega⟩

theorem length_item {item : Json} {items : List Json} (h : item ∈ items) :
    (write F item).length < (write F (.arr items)).length := by
  have hmem : write F item ∈ writeItems F items := by
    rw [writeItems_eq]
    exact List.mem_map_of_mem h
  have hle := length_le_joined hmem
  rw [write, List.length_cons, List.length_append]
  omega

theorem length_field {field : String × Json} {fields : List (String × Json)} (h : field ∈ fields) :
    (write F field.2).length < (write F (.obj fields)).length := by
  have hmem : quote field.1.toList ++ ':' :: ' ' :: write F field.2 ∈ writeFields F fields := by
    rw [writeFields_eq]
    exact List.mem_map.mpr ⟨field, h, rfl⟩
  have hle := length_le_joined hmem
  simp only [List.length_append, List.length_cons] at hle
  rw [write, List.length_cons, List.length_append]
  omega

variable {fuel : Nat}

theorem readValue_arr {items : List Json}
    (hread : ∀ item ∈ items, ∀ rest, EndsNumber rest →
      readValue F fuel (write F item ++ rest) = some (item, rest)) (rest : List Char) :
    readValue F (fuel + 1) (write F (.arr items) ++ rest) = some (.arr items, rest) := by
  have htext : write F (.arr items) ++ rest =
      '[' :: (joined (items.map (write F)) ++ ']' :: rest) := by
    simp [write, writeItems_eq]
  have hitems := readBracket_joined (.inl rfl) hread
    (fun item _ => startsItem_write item (.inl rfl)) rest
  rw [htext]
  simp only [readValue, show ('[' : Char) ≠ '"' by decide, show ('[' : Char) ≠ '{' by decide,
    if_false, if_true, hitems, Option.map_some, Prod.map, id]

theorem readValue_obj {fields : List (String × Json)}
    (hkeys : (fields.map Prod.fst).Nodup)
    (hread : ∀ field ∈ fields, ∀ rest, EndsNumber rest →
      readValue F fuel (write F field.2 ++ rest) = some (field.2, rest)) (rest : List Char) :
    readValue F (fuel + 1) (write F (.obj fields) ++ rest) = some (.obj fields, rest) := by
  have htext : write F (.obj fields) ++ rest =
      '{' :: (joined (fields.map fun field =>
        quote field.1.toList ++ ':' :: ' ' :: write F field.2) ++ '}' :: rest) := by
    simp [write, writeFields_eq]
  have hfield : ∀ field ∈ fields, ∀ rest, EndsNumber rest →
      readField (readValue F fuel) (quote field.1.toList ++ ':' :: ' ' :: write F field.2 ++ rest) =
        some (field, rest) := fun field hmem rest hrest =>
    readField_write (hread field hmem) hrest
  have hfields := readBracket_joined (.inr rfl) hfield
    (fun field _ => startsItem_cons rfl (by decide) _) rest
  rw [htext]
  simp only [readValue, show ('{' : Char) ≠ '"' by decide, if_false, if_true, hfields,
    Option.map_some, Prod.map, id, dict_of_nodup hkeys]

/-- **A value is read back** from its text, up to where the text ends. -/
theorem readValue_write {value : Json} (hvalue : WellFormed F value)
    (hfuel : (write F value).length ≤ fuel) {rest : List Char} (h : EndsNumber rest) :
    readValue F fuel (write F value ++ rest) = some (value, rest) := by
  obtain ⟨n, rfl⟩ := exists_succ_of_length_write_le hfuel
  induction hvalue generalizing n rest with
  | null | notFinite => rfl
  | bool value =>
      cases value with
      | true | false => rfl
  | int value =>
      rw [write, readValue_text (ofInt_valid value) n h, ofNumeral, toInt_ofInt]
      rfl
  | @float value hfloat =>
      rw [write, readValue_text (F.repr_valid value) n h, ofNumeral, F.repr_isInt,
        F.parse_repr value hfloat]
      rfl
  | str value =>
      have hquote : write F (.str value) ++ rest =
          '"' :: (value.toList.flatMap escape ++ '"' :: rest) := by
        simp [write, quote]
      rw [hquote]
      simp only [readValue, if_true, readString_quote, Option.map_some, Prod.map,
        String.ofList_toList, id]
  | arr _ ih =>
      refine readValue_arr (fun item hitem more hmore => ?_) rest
      have hle : (write F item).length ≤ n := Nat.lt_succ_iff.mp ((length_item hitem).trans_le hfuel)
      obtain ⟨m, rfl⟩ := exists_succ_of_length_write_le hle
      exact ih item hitem hmore m hle
  | obj hkeys _ ih =>
      refine readValue_obj hkeys (fun field hfield more hmore => ?_) rest
      have hle : (write F field.2).length ≤ n :=
        Nat.lt_succ_iff.mp ((length_field hfield).trans_le hfuel)
      obtain ⟨m, rfl⟩ := exists_succ_of_length_write_le hle
      exact ih field hfield hmore m hle

/-- **What `dumps` writes `loads` reads.** -/
theorem loads_dumps {value : Json} (h : WellFormed F value) :
    loads F (dumps F value) = some value := by
  have hskip : skipSpace (write F value) = write F value :=
    (startsItem_write value (.inl rfl)).skipSpace
  have hends : EndsNumber [] := by
    intro c hc
    cases hc
  have hread := readValue_write h (Nat.le_succ _) hends
  rw [List.append_nil] at hread
  unfold loads dumps
  rw [String.toList_ofList, hskip, hread]
  rfl

theorem dict_nodup (pairs : List (String × Json)) : ((dict pairs).map Prod.fst).Nodup :=
  @KeyedTable.nodup_foldl_setRow _ _ _ Prod.fst [] pairs List.nodup_nil

theorem mem_dict {field : String × Json} (h : field ∈ dict pairs) : field ∈ pairs :=
  (@KeyedTable.mem_foldl_setRow _ _ _ Prod.fst [] pairs field h).resolve_left List.not_mem_nil

theorem wellFormed_ofNumeral (n : Numeral) : WellFormed F (ofNumeral F n) := by
  unfold ofNumeral
  split_ifs
  · exact .int _
  · cases hparse : F.parse n with
    | none => exact .notFinite
    | some value => exact .float (F.isFloat_parse n value hparse)

theorem wellFormed_of_readWord {text rest : List Char} {value : Json}
    (h : readWord text = some (value, rest)) : WellFormed F value := by
  obtain ⟨⟨word, result⟩, hmem, h⟩ := List.exists_of_findSome?_eq_some h
  simp only at h
  split_ifs at h
  cases h
  simp only [List.mem_cons, Prod.mk.injEq, List.not_mem_nil, or_false] at hmem
  rcases hmem with ⟨-, rfl⟩ | ⟨-, rfl⟩ | ⟨-, rfl⟩ | ⟨-, rfl⟩ | ⟨-, rfl⟩ | ⟨-, rfl⟩
  · exact .null
  · exact .bool _
  · exact .bool _
  · exact .notFinite
  · exact .notFinite
  · exact .notFinite

/-- What is read is a value. -/
theorem wellFormed_of_readValue {text rest : List Char} {value : Json}
    (h : readValue F fuel text = some (value, rest)) : WellFormed F value := by
  induction fuel generalizing text value rest with
  | zero => cases h
  | succ fuel ih =>
      cases text with
      | nil => cases h
      | cons c text =>
          simp only [readValue] at h
          split_ifs at h with hquote hbrace hbracket
          · obtain ⟨⟨s, _⟩, -, heq⟩ := Option.map_eq_some_iff.mp h
            cases heq
            exact .str _
          · obtain ⟨⟨pairs, _⟩, hpairs, heq⟩ := Option.map_eq_some_iff.mp h
            cases heq
            refine .obj (dict_nodup pairs) fun field hfield => ?_
            refine forall_of_readBracket (P := fun field => WellFormed F field.2) ?_ hpairs field
              (mem_dict hfield)
            intro text field rest hread
            unfold readField at hread
            split at hread
            · obtain ⟨⟨key, _⟩, -, hread⟩ := Option.bind_eq_some_iff.mp hread
              simp only at hread
              split at hread
              · obtain ⟨⟨_, _⟩, hvalue, heq⟩ := Option.map_eq_some_iff.mp hread
                cases heq
                exact ih hvalue
              · cases hread
            · cases hread
          · obtain ⟨⟨items, _⟩, hitems, heq⟩ := Option.map_eq_some_iff.mp h
            cases heq
            exact .arr (forall_of_readBracket (fun _ _ _ hread => ih hread) hitems)
          · split at h
            · cases h
              exact wellFormed_ofNumeral _
            · exact wellFormed_of_readWord h

/-- **What `loads` gives is a value.** -/
theorem wellFormed_of_loads {text : String} {value : Json} (h : loads F text = some value) :
    WellFormed F value := by
  unfold loads at h
  split at h
  · cases h
  · next hread =>
      split_ifs at h
      cases h
      exact wellFormed_of_readValue hread

end Values

end JsonText
