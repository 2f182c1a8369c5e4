import SkyClaw.Lib.JsonText

/-!
# Indented JSON

`json.dump` with `indent=2` and `ensure_ascii=False`.  `loads_dumps`: `json.loads` reads it back.
-/

namespace JsonText

/-- A character inside a string, as `py_encode_basestring` writes it. -/
def escapeRaw (c : Char) : List Char :=
  if c = '"' ∨ c = '\\' ∨ c.toNat < 32 then escape c else [c]

theorem escapes_escapeRaw : Escapes escapeRaw := by
  constructor
  · intro c
    unfold escapeRaw
    split_ifs
    · exact escape_ne_nil c
    · exact List.cons_ne_nil _ _
  · intro c fuel rest
    unfold escapeRaw
    split_ifs with hspecial
    · exact readString_escape c fuel rest
    · obtain ⟨hquote, hbackslash, hcontrol⟩ := by simpa only [not_or] using hspecial
      simp only [List.singleton_append, readString, if_neg hquote, if_neg hbackslash, if_neg hcontrol]

namespace Indented

/-- A line end with the indent of a depth. -/
def newline (depth : Nat) : List Char := '\n' :: List.replicate (2 * depth) ' '

def quote (s : List Char) : List Char := '"' :: (s.flatMap escapeRaw ++ ['"'])

/-- The items of a container, each on lines of its own. -/
def block (opening closing : Char) (depth : Nat) (texts : List (List Char)) : List Char :=
  if texts = [] then [opening, closing]
  else
    opening :: (newline (depth + 1) ++
      (spread (newline (depth + 1)) texts ++ (newline depth ++ [closing])))

variable (F : FloatText)

mutual

/-- `_iterencode` -/
def write : Json → Nat → List Char
  | .str value, _ => quote value.toList
  | .arr items, depth => block '[' ']' depth (writeItems items (depth + 1))
  | .obj fields, depth => block '{' '}' depth (writeFields fields (depth + 1))
  | value, _ => JsonText.write F value

def writeItems : List Json → Nat → List (List Char)
  | [], _ => []
  | item :: items, depth => write item depth :: writeItems items depth

def writeFields : List (String × Json) → Nat → List (List Char)
  | [], _ => []
  | (key, value) :: fields, depth =>
      (quote key.toList ++ ':' :: ' ' :: write value depth) :: writeFields fields depth

end

def dumps (value : Json) : String := String.ofList (write F value 0)

/-! ## What is written is read back -/

variable {F} {depth fuel : Nat}

theorem writeItems_eq (items : List Json) (depth : Nat) :
    writeItems F items depth = items.map fun item => write F item depth := by
  induction items with
  | nil => rfl
  | cons item items ih => rw [writeItems, ih, List.map_cons]

theorem writeFields_eq (fields : List (String × Json)) (depth : Nat) :
    writeFields F fields depth =
      fields.map fun field => quote field.1.toList ++ ':' :: ' ' :: write F field.2 depth := by
  induction fields with
  | nil => rfl
  | cons field fields ih => rw [writeFields, ih, List.map_cons]

theorem isSpace_of_mem_newline : ∀ c ∈ newline depth, isSpace c = true := by
  intro c hc
  rcases List.mem_cons.mp hc with rfl | hc
  · rfl
  · rw [List.eq_of_mem_replicate hc]
    rfl

variable {opening : Char}

theorem startsItem_block (h : isSpace opening = false ∧ opening ≠ ']' ∧ opening ≠ '}')
    (closing : Char) (depth : Nat) (texts : List (List Char)) {close : Char}
    (hclose : close = ']' ∨ close = '}') : StartsItem close (block opening closing depth texts) := by
  unfold block
  split_ifs
  · exact startsItem_plain h hclose _
  · exact startsItem_plain h hclose _

theorem startsItem_write (value : Json) (depth : Nat) {close : Char} (hclose : close = ']' ∨ close = '}') :
    StartsItem close (write F value depth) := by
  cases value with
  | arr | obj => exact startsItem_block (by decide) _ _ _ hclose
  | str value => exact startsItem_plain (by decide) hclose _
  | null | bool | int | float => exact JsonText.startsItem_write _ hclose

variable {closing : Char}

theorem length_lt_block {text : List Char} {texts : List (List Char)}
    (h : text ∈ texts) : text.length < (block opening closing depth texts).length := by
  have hle := length_le_spread (newline (depth + 1)) h
  rw [block, if_neg (List.ne_nil_of_mem h)]
  simp only [List.length_cons, List.length_append]
  omega

/-- A container is read back, if its items are. -/
theorem readBracket_block {α : Type} {read : List Char → Option (α × List Char)} {close : Char}
    {texts : α → List Char} {items : List α} (hclose : close = ']' ∨ close = '}') (opening : Char)
    (hread : ∀ item ∈ items, ∀ rest, EndsNumber rest → read (texts item ++ rest) = some (item, rest))
    (hstart : ∀ item ∈ items, StartsItem close (texts item)) (rest : List Char) :
    ∃ more, block opening close depth (items.map texts) ++ rest = opening :: more ∧
      readBracket read close more = some (items, rest) := by
  have hspread := fun {lead last} hlead hlast => @readBracket_spread _ read close
    (newline (depth + 1)) last texts items lead hclose hlead isSpace_of_mem_newline hlast hread hstart rest
  unfold block
  split_ifs with hempty
  · rw [hempty] at hspread
    exact ⟨close :: rest, rfl, @hspread [] [] (by simp) (by simp)⟩
  · refine ⟨_, List.cons_append, ?_⟩
    simpa only [List.append_assoc, List.singleton_append] using
      @hspread (newline (depth + 1)) (newline depth) isSpace_of_mem_newline isSpace_of_mem_newline

theorem exists_succ_of_length_write_le {value : Json} (h : (write F value depth).length ≤ fuel) :
    ∃ n, fuel = n + 1 := by
  obtain ⟨c, tail, htext, -⟩ := @startsItem_write F value depth _ (.inl rfl)
  rw [htext, List.length_cons] at h
  exact ⟨fuel - 1, by omega⟩

/-- **A value is read back** from its text, up to where the text ends. -/
theorem readValue_write {value : Json} (hvalue : WellFormed F value)
    (hfuel : (write F value depth).length ≤ fuel) {rest : List Char} (h : EndsNumber rest) :
    readValue F fuel (write F value depth ++ rest) = some (value, rest) := by
  induction hvalue generalizing fuel depth rest with
  | null | bool | int | notFinite | float =>
      exact JsonText.readValue_write (by constructor <;> assumption) hfuel h
  | str value =>
      obtain ⟨n, rfl⟩ := exists_succ_of_length_write_le hfuel
      have hquote : write F (.str value) depth ++ rest =
          '"' :: (value.toList.flatMap escapeRaw ++ '"' :: rest) := by
        simp [write, quote]
      rw [hquote]
      simp only [readValue, if_true, escapes_escapeRaw.readString_quote, Option.map_some, Prod.map,
        String.ofList_toList, id]
  | @arr items _ ih =>
      obtain ⟨n, rfl⟩ := exists_succ_of_length_write_le hfuel
      rw [write, writeItems_eq] at hfuel ⊢
      have hread : ∀ item ∈ items, ∀ rest, EndsNumber rest →
          readValue F n (write F item (depth + 1) ++ rest) = some (item, rest) :=
        fun item hitem rest hrest => ih item hitem
          (Nat.lt_succ_iff.mp ((length_lt_block (List.mem_map_of_mem hitem)).trans_le hfuel)) hrest
      obtain ⟨more, hmore, hitems⟩ := @readBracket_block depth _ _ _ _ _ (.inl rfl) '[' hread
        (fun item _ => startsItem_write item (depth + 1) (.inl rfl)) rest
      rw [hmore]
      simp only [readValue, show ('[' : Char) ≠ '"' by decide, show ('[' : Char) ≠ '{' by decide,
        if_false, if_true, hitems, Option.map_some, Prod.map, id]
  | @obj fields hkeys _ ih =>
      obtain ⟨n, rfl⟩ := exists_succ_of_length_write_le hfuel
      rw [write, writeFields_eq] at hfuel ⊢
      have hread : ∀ field ∈ fields, ∀ rest, EndsNumber rest → readField (readValue F n)
          (quote field.1.toList ++ ':' :: ' ' :: write F field.2 (depth + 1) ++ rest) =
            some (field, rest) := by
        intro field hfield rest hrest
        have hlt := (length_lt_block (List.mem_map_of_mem hfield)).trans_le hfuel
        have htext : quote field.1.toList ++ ':' :: ' ' :: write F field.2 (depth + 1) ++ rest =
            '"' :: (field.1.toList.flatMap escapeRaw ++
              '"' :: (':' :: ' ' :: (write F field.2 (depth + 1) ++ rest))) := by
          simp [quote]
        simp only [List.length_append, List.length_cons] at hlt
        rw [htext]
        exact readField_quote escapes_escapeRaw field.1 (startsItem_write _ _ (.inl rfl))
          (ih field hfield (by omega) hrest)
      obtain ⟨more, hmore, hitems⟩ := @readBracket_block depth _ _ _ _ _ (.inr rfl) '{' hread
        (fun field _ => startsItem_cons rfl (by decide) _) rest
      rw [hmore]
      simp only [readValue, show ('{' : Char) ≠ '"' by decide, if_false, if_true, hitems,
        Option.map_some, Prod.map, id, dict_of_nodup hkeys]

/-- **What is dumped is loaded.** -/
theorem loads_dumps {value : Json} (h : WellFormed F value) : loads F (dumps F value) = some value := by
  have hskip : skipSpace (write F value 0) = write F value 0 :=
    (startsItem_write value 0 (.inl rfl)).skipSpace
  have hread := @readValue_write F 0 _ value h (Nat.le_succ _) [] (by intro c hc; cases hc)
  rw [List.append_nil] at hread
  unfold loads dumps
  rw [String.toList_ofList, hskip, hread]
  rfl

/-! ## No carriage return -/

theorem return_not_mem_escapeRaw (c : Char) : '\r' ∉ escapeRaw c := by
  have hall : ∀ d < 16, '\r' ≠ Nat.digitChar d := by decide
  have hhex : ∀ n, '\r' ∉ hex4 n := by
    intro n hmem
    have hdigit : ∀ k, '\r' ≠ hexDigit k := fun k => hall (k % 16) (Nat.mod_lt k (by omega))
    simp [hex4, hdigit] at hmem
  by_cases hc : c = '\r'
  · subst hc
    decide
  · have hne : '\r' ≠ c := Ne.symm hc
    unfold escapeRaw escape
    split_ifs <;> simp [hhex, hne]

theorem return_not_mem_spread {gap : List Char} {texts : List (List Char)} (hgap : '\r' ∉ gap)
    (h : ∀ text ∈ texts, '\r' ∉ text) : '\r' ∉ spread gap texts := by
  induction texts with
  | nil => exact List.not_mem_nil
  | cons text texts ih =>
      have htext := h text List.mem_cons_self
      cases texts with
      | nil => exact htext
      | cons more texts =>
          have hrest := ih fun other hother => h other (List.mem_cons_of_mem _ hother)
          simp [spread, htext, hgap, hrest]

theorem return_not_mem_newline : '\r' ∉ newline depth := by
  simp [newline, List.mem_replicate]

theorem return_not_mem_block {texts : List (List Char)}
    (hbrackets : opening ≠ '\r' ∧ closing ≠ '\r') (h : ∀ text ∈ texts, '\r' ∉ text) :
    '\r' ∉ block opening closing depth texts := by
  have hspread := @return_not_mem_spread (newline (depth + 1)) _ return_not_mem_newline h
  unfold block
  split_ifs
  · simp [hbrackets.1.symm, hbrackets.2.symm]
  · simp [hbrackets.1.symm, hbrackets.2.symm, hspread, return_not_mem_newline]

theorem return_not_mem_quote (s : List Char) : '\r' ∉ quote s := by
  simp [quote, return_not_mem_escapeRaw]

theorem return_not_mem_text {n : Numeral} (hn : n.Valid) : '\r' ∉ n.text := by
  intro hmem
  rcases mem_text hn hmem with hdigit | hmark
  · cases hdigit
  · revert hmark
    decide

/-- Control characters are escaped, so none is a carriage return. -/
theorem return_not_mem_write {value : Json} (hvalue : WellFormed F value) :
    '\r' ∉ write F value depth := by
  induction hvalue generalizing depth with
  | null | notFinite => simp [write, JsonText.write]
  | bool value => cases value <;> simp [write, JsonText.write]
  | int value => exact return_not_mem_text (ofInt_valid value)
  | @float value _ => exact return_not_mem_text (F.repr_valid value)
  | str value => exact return_not_mem_quote value.toList
  | arr _ ih =>
      rw [write, writeItems_eq]
      refine return_not_mem_block (by decide) ?_
      intro text htext
      obtain ⟨item, hitem, rfl⟩ := List.mem_map.mp htext
      exact ih item hitem
  | obj _ _ ih =>
      rw [write, writeFields_eq]
      refine return_not_mem_block (by decide) ?_
      intro text htext
      obtain ⟨field, hfield, rfl⟩ := List.mem_map.mp htext
      simp [return_not_mem_quote, ih field hfield]

end Indented
end JsonText
