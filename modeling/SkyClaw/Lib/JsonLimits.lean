import SkyClaw.Lib.PyValue

/-!
# `json.loads` within the limits of the interpreter

An integer of too many digits raises a `ValueError` and brackets too deep in one another raise a
`RecursionError`, each where the scanner meets it.  Within the limits it reads as `loads` does
(`agrees_loadsWithin`), and what is written is read back (`loadsWithin_dumps`).
-/

namespace JsonText

inductive LoadError
  /-- `JSONDecodeError` -/
  | decode
  /-- `ValueError: Exceeds the limit (4300 digits) for integer string conversion` -/
  | intDigits
  /-- `RecursionError` -/
  | recursion
deriving DecidableEq, Repr

/-! ## Lists in brackets -/

section Brackets

variable {α : Type} (scan : List Char → Except LoadError (α × List Char)) (close : Char)

/-- Items up to the closing bracket. -/
def scanItems : Nat → List Char → Except LoadError (List α × List Char)
  | 0, _ => .error .decode
  | fuel + 1, text =>
      match scan text with
      | .error e => .error e
      | .ok (item, rest) =>
          match skipSpace rest with
          | [] => .error .decode
          | c :: rest =>
              if c = close then .ok ([item], rest)
              else if c = ',' then
                (scanItems fuel (skipSpace rest)).map (Prod.map (item :: ·) id)
              else .error .decode

/-- After an opening bracket. -/
def scanBracket (text : List Char) : Except LoadError (List α × List Char) :=
  match skipSpace text with
  | [] => .error .decode
  | c :: rest =>
      if c = close then .ok ([], rest) else scanItems scan close (rest.length + 1) (c :: rest)

variable {scan close}

theorem toOption_map {β γ : Type} (f : β → γ) (e : Except LoadError β) :
    (e.map f).toOption = e.toOption.map f := by
  cases e with
  | error | ok => rfl

/-- What scans is what a reader without errors reads. -/
theorem toOption_scanItems (fuel : Nat) (text : List Char) :
    (scanItems scan close fuel text).toOption =
      readItems (fun text => (scan text).toOption) close fuel text := by
  induction fuel generalizing text with
  | zero => rfl
  | succ fuel ih =>
      rw [scanItems, readItems]
      cases scan text with
      | error e => rfl
      | ok read =>
          obtain ⟨item, rest⟩ := read
          rw [show (Except.ok (item, rest) : Except LoadError _).toOption = some (item, rest) from rfl,
            Option.bind_some]
          simp only
          cases skipSpace rest with
          | nil => rfl
          | cons c rest =>
              simp only
              split_ifs
              · rfl
              · rw [← ih]
                exact toOption_map _ _
              · rfl

theorem toOption_scanBracket (text : List Char) :
    (scanBracket scan close text).toOption =
      readBracket (fun text => (scan text).toOption) close text := by
  unfold scanBracket readBracket
  cases skipSpace text with
  | nil => rfl
  | cons c rest =>
      simp only
      split_ifs
      · rfl
      · exact toOption_scanItems _ _

/-- A reading within limits, and one without: they differ only where a limit is met. -/
def Agrees {β : Type} (e : Except LoadError β) (o : Option β) : Prop :=
  match e with
  | .ok b => o = some b
  | .error .decode => o = none
  | .error _ => True

theorem Agrees.map {β γ : Type} {e : Except LoadError β} {o : Option β} (f : β → γ)
    (h : Agrees e o) : Agrees (e.map f) (o.map f) := by
  cases e with
  | ok b => exact congrArg (Option.map f) h
  | error e =>
      cases e with
      | decode => exact congrArg (Option.map f) h
      | intDigits | recursion => trivial

theorem agrees_scanItems {read : List Char → Option (α × List Char)}
    (h : ∀ text, Agrees (scan text) (read text)) (fuel : Nat) (text : List Char) :
    Agrees (scanItems scan close fuel text) (readItems read close fuel text) := by
  induction fuel generalizing text with
  | zero => rfl
  | succ fuel ih =>
      have hfirst := h text
      rw [scanItems, readItems]
      cases hscan : scan text with
      | error e =>
          rw [hscan] at hfirst
          cases e with
          | decode =>
              rw [show read text = none from hfirst]
              rfl
          | intDigits | recursion => trivial
      | ok first =>
          obtain ⟨item, rest⟩ := first
          rw [hscan] at hfirst
          rw [show read text = some (item, rest) from hfirst]
          simp only [Option.bind_some]
          cases skipSpace rest with
          | nil => rfl
          | cons c rest =>
              simp only
              split_ifs
              · rfl
              · exact (ih (skipSpace rest)).map _
              · rfl

theorem agrees_scanBracket {read : List Char → Option (α × List Char)}
    (h : ∀ text, Agrees (scan text) (read text)) (text : List Char) :
    Agrees (scanBracket scan close text) (readBracket read close text) := by
  unfold scanBracket readBracket
  cases skipSpace text with
  | nil => rfl
  | cons c rest =>
      simp only
      split_ifs
      · rfl
      · exact agrees_scanItems h _ _

end Brackets

/-! ## Values -/

section Values

variable (F : FloatText)

/-- A value that has no brackets. -/
def scanScalar : List Char → Except LoadError (Json × List Char)
  | '"' :: rest =>
      match readString (rest.length + 1) rest with
      | some (s, rest) => .ok (.str (String.ofList s), rest)
      | none => .error .decode
  | text =>
      match readNumber text with
      | some (n, rest) =>
          if n.isInt = true ∧ PyValue.hasRepr n.toInt = false then .error .intDigits
          else .ok (ofNumeral F n, rest)
      | none =>
          match readWord text with
          | some read => .ok read
          | none => .error .decode

/-- A key, and the text from its value on. -/
def fieldKey : List Char → Option (String × List Char)
  | '"' :: text =>
      (readString (text.length + 1) text).bind fun (key, rest) =>
        match skipSpace rest with
        | ':' :: rest => some (String.ofList key, skipSpace rest)
        | _ => none
  | _ => none

def scanField (scan : List Char → Except LoadError (Json × List Char)) (text : List Char) :
    Except LoadError ((String × Json) × List Char) :=
  match fieldKey text with
  | none => .error .decode
  | some (key, rest) => (scan rest).map (Prod.map (key, ·) id)

/-- One bracket deeper. -/
def enter {β : Type} (inner : Nat → Except LoadError β) : Nat → Except LoadError β
  | 0 => .error .recursion
  | depth + 1 => inner depth

/-- `scan_once`, with so many brackets that may be opened in one another. -/
def scanValue : Nat → Nat → List Char → Except LoadError (Json × List Char)
  | 0, _, _ => .error .decode
  | _ + 1, _, [] => .error .decode
  | fuel + 1, depth, c :: rest =>
      if c = '{' then
        (enter (fun depth => scanBracket (scanField (scanValue fuel depth)) '}' rest) depth).map
          (Prod.map (fun pairs => .obj (dict pairs)) id)
      else if c = '[' then
        (enter (fun depth => scanBracket (scanValue fuel depth) ']' rest) depth).map
          (Prod.map .arr id)
      else scanScalar F (c :: rest)

/-- `json.loads` -/
def loadsWithin (depth : Nat) (text : String) : Except LoadError Json :=
  match scanValue F (text.toList.length + 1) depth (skipSpace text.toList) with
  | .error e => .error e
  | .ok (value, rest) => if skipSpace rest = [] then .ok value else .error .decode

/-- A value within the limits. -/
inductive Fits : Nat → Json → Prop
  | null {depth : Nat} : Fits depth .null
  | bool {depth : Nat} (value : Bool) : Fits depth (.bool value)
  | int {depth : Nat} {value : Int} (h : PyValue.hasRepr value = true) : Fits depth (.int value)
  | float {depth : Nat} (value : Option ℚ) : Fits depth (.float value)
  | str {depth : Nat} (value : String) : Fits depth (.str value)
  | arr {depth : Nat} {items : List Json} (h : ∀ item ∈ items, Fits depth item) :
      Fits (depth + 1) (.arr items)
  | obj {depth : Nat} {fields : List (String × Json)} (h : ∀ field ∈ fields, Fits depth field.2) :
      Fits (depth + 1) (.obj fields)

variable {F}

/-! ## With the limits and without -/

theorem agrees_scanScalar {c : Char} (hc : c ≠ '{' ∧ c ≠ '[') (rest : List Char) (fuel : Nat) :
    Agrees (scanScalar F (c :: rest)) (readValue F (fuel + 1) (c :: rest)) := by
  rw [readValue]
  by_cases hquote : c = '"'
  · subst hquote
    rw [if_pos rfl, scanScalar]
    cases readString (rest.length + 1) rest with
    | none | some => rfl
  · rw [if_neg hquote, if_neg hc.1, if_neg hc.2]
    unfold scanScalar
    split
    · next heq => exact absurd (List.cons.inj heq).1 hquote
    · cases readNumber (c :: rest) with
      | some read =>
          obtain ⟨n, rest⟩ := read
          simp only
          split_ifs
          · trivial
          · rfl
      | none =>
          cases readWord (c :: rest) with
          | some | none => rfl

theorem readField_eq (read : List Char → Option (Json × List Char)) (text : List Char) :
    readField read text =
      (fieldKey text).bind fun field => (read field.2).map (Prod.map (field.1, ·) id) := by
  unfold readField
  split
  · rw [fieldKey, Option.bind_assoc]
    congr 1
    funext field
    obtain ⟨key, rest⟩ := field
    simp only
    split
    · next more hmore => simp only [hmore, Option.bind_some]
    · simp
  · next hquote =>
      unfold fieldKey
      split
      · next tail => exact absurd rfl (hquote tail)
      · rfl

theorem agrees_scanField {scan : List Char → Except LoadError (Json × List Char)}
    {read : List Char → Option (Json × List Char)} (h : ∀ text, Agrees (scan text) (read text))
    (text : List Char) : Agrees (scanField scan text) (readField read text) := by
  rw [readField_eq, scanField]
  cases fieldKey text with
  | none => rfl
  | some field => exact (h field.2).map _

theorem Agrees.enter {β : Type} {inner : Nat → Except LoadError β} {o : Option β}
    (h : ∀ depth, Agrees (inner depth) o) (depth : Nat) : Agrees (enter inner depth) o := by
  cases depth with
  | zero => trivial
  | succ depth => exact h depth

/-- **The two readings differ only where a limit is met.** -/
theorem agrees_scanValue (fuel depth : Nat) (text : List Char) :
    Agrees (scanValue F fuel depth text) (readValue F fuel text) := by
  induction fuel generalizing depth text with
  | zero => rfl
  | succ fuel ih =>
      cases text with
      | nil => rfl
      | cons c rest =>
          rw [scanValue]
          split_ifs with hbrace hbracket
          · subst hbrace
            exact (Agrees.enter (fun depth =>
              agrees_scanBracket (agrees_scanField (ih depth)) rest) depth).map _
          · subst hbracket
            exact (Agrees.enter (fun depth => agrees_scanBracket (ih depth) rest) depth).map _
          · exact agrees_scanScalar ⟨hbrace, hbracket⟩ rest fuel

theorem agrees_loadsWithin (depth : Nat) (text : String) :
    Agrees (loadsWithin F depth text) (loads F text) := by
  have hvalue := agrees_scanValue (F := F) (text.toList.length + 1) depth (skipSpace text.toList)
  unfold loadsWithin loads
  cases hscan : scanValue F (text.toList.length + 1) depth (skipSpace text.toList) with
  | error e =>
      rw [hscan] at hvalue
      cases e with
      | decode =>
          rw [show readValue F _ _ = none from hvalue]
          rfl
      | intDigits | recursion => trivial
  | ok read =>
      rw [hscan] at hvalue
      rw [show readValue F _ _ = some read from hvalue]
      simp only
      split_ifs
      · rfl
      · rfl

/-! ## What is written is read back -/

theorem toOption_scanField {scan : List Char → Except LoadError (Json × List Char)}
    (text : List Char) :
    (scanField scan text).toOption = readField (fun text => (scan text).toOption) text := by
  rw [readField_eq, scanField]
  cases fieldKey text with
  | none => rfl
  | some field => exact toOption_map _ _

theorem scanField_eq_ok {scan : List Char → Except LoadError (Json × List Char)}
    {text rest : List Char} {field : String × Json} (h : scanField scan text = .ok (field, rest)) :
    ∃ more, scan more = .ok (field.2, rest) := by
  unfold scanField at h
  split at h
  · cases h
  · next key more _ =>
      cases hscan : scan more with
      | error e =>
          rw [hscan] at h
          cases h
      | ok read =>
          rw [hscan] at h
          cases h
          exact ⟨more, hscan⟩

theorem eq_ok_of_toOption {β : Type} {e : Except LoadError β} {b : β} (h : e.toOption = some b) :
    e = .ok b := by
  cases e with
  | error e => cases h
  | ok b' => exact congrArg Except.ok (Option.some.inj h)

theorem scanBracket_joined {α : Type} {scan : List Char → Except LoadError (α × List Char)}
    {texts : α → List Char} {items : List α} {close : Char} (hclose : close = ']' ∨ close = '}')
    (hscan : ∀ item ∈ items, ∀ rest, EndsNumber rest →
      (scan (texts item ++ rest)).toOption = some (item, rest))
    (hstart : ∀ item ∈ items, StartsItem close (texts item)) (rest : List Char) :
    scanBracket scan close (joined (items.map texts) ++ close :: rest) = .ok (items, rest) := by
  refine eq_ok_of_toOption ?_
  rw [toOption_scanBracket]
  exact readBracket_joined hclose hscan hstart rest

theorem scanScalar_text {n : Numeral} (hn : n.Valid)
    (hfits : n.isInt = true → PyValue.hasRepr n.toInt = true) (fuel depth : Nat) {rest : List Char}
    (h : EndsNumber rest) :
    scanValue F (fuel + 1) depth (n.text ++ rest) = .ok (ofNumeral F n, rest) := by
  have hread := readNumber_text hn h
  obtain ⟨c, tail, htext, hc⟩ := head_text n
  rw [htext, List.cons_append] at hread ⊢
  have hplain : c ≠ '"' ∧ c ≠ '{' ∧ c ≠ '[' := by
    rcases hc with rfl | hc
    · decide
    · refine ⟨?_, ?_, ?_⟩ <;> (rintro rfl; cases hc)
  have hlimit : ¬(n.isInt = true ∧ PyValue.hasRepr n.toInt = false) := by
    rintro ⟨hint, hlong⟩
    rw [hfits hint] at hlong
    cases hlong
  rw [scanValue, if_neg hplain.2.1, if_neg hplain.2.2]
  unfold scanScalar
  split
  · next heq => exact absurd (List.cons.inj heq).1 hplain.1
  · simp only [hread, if_neg hlimit]

variable {depth : Nat}

variable {fuel : Nat}

/-- **A value within the limits is read back.** -/
theorem scanValue_write {value : Json} (hvalue : WellFormed F value)
    (hfits : Fits depth value) (hfuel : (write F value).length ≤ fuel) {rest : List Char}
    (h : EndsNumber rest) : scanValue F fuel depth (write F value ++ rest) = .ok (value, rest) := by
  obtain ⟨n, rfl⟩ := exists_succ_of_length_write_le hfuel
  induction hvalue generalizing n depth rest with
  | null | notFinite => rfl
  | bool value =>
      cases value with
      | true | false => rfl
  | int value =>
      cases hfits with
      | int hrepr =>
          rw [write, scanScalar_text (ofInt_valid value) (fun _ => by rwa [toInt_ofInt]) n depth h,
            ofNumeral, toInt_ofInt]
          rfl
  | @float value hfloat =>
      have hnot : (F.repr value).isInt = true → PyValue.hasRepr (F.repr value).toInt = true := by
        intro hint
        rw [F.repr_isInt] at hint
        cases hint
      rw [write, scanScalar_text (F.repr_valid value) hnot n depth h, ofNumeral, F.repr_isInt,
        F.parse_repr value hfloat]
      rfl
  | str value =>
      have hquote : write F (.str value) ++ rest =
          '"' :: (value.toList.flatMap escape ++ '"' :: rest) := by
        simp [write, quote]
      rw [hquote, scanValue, if_neg (by decide), if_neg (by decide), scanScalar, readString_quote]
      simp only [String.ofList_toList]
  | @arr items _ ih =>
      cases hfits with
      | @arr depth _ hitems =>
          have htext : write F (.arr items) ++ rest =
              '[' :: (joined (items.map (write F)) ++ ']' :: rest) := by
            simp [write, writeItems_eq]
          have hitem : ∀ item ∈ items, ∀ more, EndsNumber more →
              (scanValue F n depth (write F item ++ more)).toOption = some (item, more) := by
            intro item hitem more hmore
            have hle : (write F item).length ≤ n :=
              Nat.lt_succ_iff.mp ((length_item hitem).trans_le hfuel)
            obtain ⟨m, rfl⟩ := exists_succ_of_length_write_le hle
            rw [ih item hitem (hitems item hitem) hmore m hle]
            rfl
          have hscan := scanBracket_joined (.inl rfl) hitem
            (fun item _ => startsItem_write item (.inl rfl)) rest
          rw [htext, scanValue, if_neg (by decide), if_pos rfl, enter, hscan]
          rfl
  | @obj fields hkeys _ ih =>
      cases hfits with
      | @obj depth _ hfields =>
          have htext : write F (.obj fields) ++ rest =
              '{' :: (joined (fields.map fun field =>
                quote field.1.toList ++ ':' :: ' ' :: write F field.2) ++ '}' :: rest) := by
            simp [write, writeFields_eq]
          have hfield : ∀ field ∈ fields, ∀ more, EndsNumber more →
              (scanField (scanValue F n depth)
                (quote field.1.toList ++ ':' :: ' ' :: write F field.2 ++ more)).toOption =
                  some (field, more) := by
            intro field hfield more hmore
            have hle : (write F field.2).length ≤ n :=
              Nat.lt_succ_iff.mp ((length_field hfield).trans_le hfuel)
            obtain ⟨m, rfl⟩ := exists_succ_of_length_write_le hle
            rw [toOption_scanField]
            refine readField_write (fun tail htail => ?_) hmore
            rw [ih field hfield (hfields field hfield) htail m hle]
            rfl
          have hscan := scanBracket_joined (.inr rfl) hfield
            (fun field _ => startsItem_cons rfl (by decide) _) rest
          rw [htext, scanValue, if_pos rfl, enter, hscan]
          simp only [Except.map, Prod.map, dict_of_nodup hkeys, id]

/-- **What `dumps` writes is read back**, within the limits. -/
theorem loadsWithin_dumps {value : Json} (h : WellFormed F value)
    (hfits : Fits depth value) : loadsWithin F depth (dumps F value) = .ok value := by
  have hskip : skipSpace (write F value) = write F value :=
    (startsItem_write value (.inl rfl)).skipSpace
  have hends : EndsNumber [] := by
    intro c hc
    cases hc
  have hread := scanValue_write h hfits (Nat.le_succ _) hends
  rw [List.append_nil] at hread
  unfold loadsWithin dumps
  rw [String.toList_ofList, hskip, hread]
  rfl

/-! ## What is read is within the limits -/

theorem map_eq_ok {β γ : Type} {f : β → γ} {e : Except LoadError β} {c : γ} (h : e.map f = .ok c) :
    ∃ b, e = .ok b ∧ f b = c := by
  cases e with
  | error e => cases h
  | ok b => exact ⟨b, rfl, Except.ok.inj h⟩

theorem fits_of_scanScalar {text rest : List Char} {value : Json}
    (h : scanScalar F text = .ok (value, rest)) : Fits depth value := by
  unfold scanScalar at h
  split at h
  · split at h
    · cases h
      exact .str _
    · cases h
  · split at h
    · next n rest _ =>
        split_ifs at h with hlimit
        cases h
        rw [ofNumeral]
        split_ifs with hint
        · exact .int (Bool.not_eq_false _ ▸ fun hlong => hlimit ⟨hint, hlong⟩)
        · exact .float _
    · split at h
      · next read hread =>
          cases h
          obtain ⟨⟨word, value'⟩, hmem, hword⟩ := List.exists_of_findSome?_eq_some hread
          simp only [Option.ite_none_right_eq_some, Option.some.injEq, Prod.mk.injEq] at hword
          obtain ⟨-, rfl, -⟩ := hword
          simp only [List.mem_cons, List.not_mem_nil, or_false, Prod.mk.injEq] at hmem
          rcases hmem with ⟨-, rfl⟩ | ⟨-, rfl⟩ | ⟨-, rfl⟩ | ⟨-, rfl⟩ | ⟨-, rfl⟩ | ⟨-, rfl⟩
          · exact .null
          · exact .bool true
          · exact .bool false
          · exact .float none
          · exact .float none
          · exact .float none
      · cases h

/-- **A value that is read is within the limits.** -/
theorem fits_of_scanValue {text rest : List Char} {value : Json}
    (h : scanValue F fuel depth text = .ok (value, rest)) : Fits depth value := by
  induction fuel generalizing depth text rest value with
  | zero => cases h
  | succ fuel ih =>
      cases text with
      | nil => cases h
      | cons c text =>
          rw [scanValue] at h
          split_ifs at h
          · obtain ⟨⟨pairs, tail⟩, hscan, heq⟩ := map_eq_ok h
            cases heq
            cases depth with
            | zero => cases hscan
            | succ depth =>
                have hread : (scanBracket (scanField (scanValue F fuel depth)) '}' text).toOption =
                    _ := toOption_scanBracket text
                rw [show scanBracket _ '}' text = .ok (pairs, tail) from hscan] at hread
                have hfields := forall_of_readBracket (P := fun field => Fits depth field.2)
                  (fun text field rest hfield => by
                    obtain ⟨key, hvalue⟩ := scanField_eq_ok (eq_ok_of_toOption hfield)
                    exact ih hvalue) hread.symm
                exact .obj fun field hfield => hfields field (mem_dict hfield)
          · obtain ⟨⟨items, tail⟩, hscan, heq⟩ := map_eq_ok h
            cases heq
            cases depth with
            | zero => cases hscan
            | succ depth =>
                have hread : (scanBracket (scanValue F fuel depth) ']' text).toOption = _ :=
                  toOption_scanBracket text
                rw [show scanBracket _ ']' text = .ok (items, tail) from hscan] at hread
                exact .arr (forall_of_readBracket
                  (fun text item rest hitem => ih (eq_ok_of_toOption hitem)) hread.symm)
          · exact fits_of_scanScalar h

theorem fits_of_loadsWithin {text : String} {value : Json}
    (h : loadsWithin F depth text = .ok value) : Fits depth value := by
  unfold loadsWithin at h
  split at h
  · cases h
  · next hscan =>
      split_ifs at h
      cases h
      exact fits_of_scanValue hscan

end Values

end JsonText
