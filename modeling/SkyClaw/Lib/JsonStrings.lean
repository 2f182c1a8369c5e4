import SkyClaw.Lib.JsonText
import SkyClaw.Lib.SubText

/-!
# Where a JSON text is in a string

Every text that `json.loads` reads closes its strings (`closes_loads`), and outside of them it has
nothing but brackets, punctuation, numerals and words.  So a text that is read, cut off in a string, is
not read (`loads_cut`).  A mark that JSON does not use is in a written text exactly if it is in one of the
strings (`infix_write_iff`).
-/

namespace JsonText

/-- A character that may stand outside of a string. -/
def isPlain (c : Char) : Bool :=
  isSpace c || c.isDigit || "{}[]:,+-.aefilnrstuyEIN".toList.contains c

/-- Whether the text so far ends in a string, and there behind a backslash. -/
inductive Spot
  | outside
  | inside
  | escaped
deriving DecidableEq

def Spot.next : Spot → Char → Option Spot
  | .outside, c => if c = '"' then some .inside else if isPlain c then some .outside else none
  | .inside, c => if c = '"' then some .outside else if c = '\\' then some .escaped else some .inside
  | .escaped, _ => some .inside

def Spot.behind (spot : Spot) (text : List Char) : Option Spot := text.foldlM Spot.next spot

theorem Spot.behind_append (spot : Spot) (text more : List Char) :
    spot.behind (text ++ more) = (spot.behind text).bind fun next => next.behind more := by
  simp [Spot.behind, List.foldlM_append]

theorem Spot.behind_cons (spot : Spot) (c : Char) (text : List Char) :
    spot.behind (c :: text) = (spot.next c).bind fun next => next.behind text := rfl

/-- Between these spots a reader has read the text up to its rest. -/
def Leads (spot next : Spot) (text rest : List Char) : Prop :=
  ∃ read, text = read ++ rest ∧ spot.behind read = some next

section Leads

variable {spot next last : Spot} {text more rest : List Char}

theorem Leads.refl (spot : Spot) (text : List Char) : Leads spot spot text text :=
  ⟨[], rfl, rfl⟩

theorem Leads.trans (h : Leads spot next text more) (h' : Leads next last more rest) :
    Leads spot last text rest := by
  obtain ⟨read, rfl, hread⟩ := h
  obtain ⟨read', rfl, hread'⟩ := h'
  refine ⟨read ++ read', (List.append_assoc ..).symm, ?_⟩
  rw [Spot.behind_append, hread, Option.bind_some, hread']

variable {c : Char}

theorem Leads.cons (h : spot.next c = some next) (h' : Leads next last text rest) :
    Leads spot last (c :: text) rest :=
  Leads.trans ⟨[c], rfl, by rw [Spot.behind_cons, h]; rfl⟩ h'

theorem behind_plain (h : ∀ c ∈ text, isPlain c = true) :
    Spot.outside.behind text = some .outside := by
  induction text with
  | nil => rfl
  | cons c text ih =>
      have hplain := h c List.mem_cons_self
      have hquote : c ≠ '"' := by
        rintro rfl
        cases hplain
      rw [Spot.behind_cons, Spot.next, if_neg hquote, if_pos hplain]
      exact ih fun d hd => h d (List.mem_cons_of_mem c hd)

theorem leads_plain (h : ∀ c ∈ text, isPlain c = true) (rest : List Char) :
    Leads .outside .outside (text ++ rest) rest :=
  ⟨text, rfl, behind_plain h⟩

theorem next_plain (h : isPlain c = true) : Spot.outside.next c = some .outside := by
  have hplain : Spot.outside.behind [c] = some .outside :=
    behind_plain fun d hd => List.mem_singleton.mp hd ▸ h
  rw [Spot.behind_cons] at hplain
  obtain ⟨next, hnext, hlast⟩ := Option.bind_eq_some_iff.mp hplain
  rw [hnext]
  exact hlast

theorem isPlain_of_isDigit (h : c.isDigit = true) : isPlain c = true := by
  rw [isPlain, h, Bool.or_true, Bool.true_or]

theorem leads_takeWhile {p : Char → Bool} (h : ∀ c, p c = true → isPlain c = true)
    (text : List Char) : Leads .outside .outside text (text.dropWhile p) := by
  have hsplit : Leads .outside .outside (text.takeWhile p ++ text.dropWhile p)
      (text.dropWhile p) := leads_plain (fun c hc => h c (List.mem_takeWhile_imp hc)) _
  rwa [List.takeWhile_append_dropWhile] at hsplit

theorem leads_skipSpace (text : List Char) : Leads .outside .outside text (skipSpace text) :=
  leads_takeWhile (fun c hc => by rw [isPlain, hc, Bool.true_or, Bool.true_or]) text

end Leads

/-! ## Strings -/

section Strings

variable {text rest : List Char}

variable {c : Char}

theorem next_hexVal {n : Nat} (h : hexVal c = some n) :
    Spot.inside.next c = some .inside := by
  have hquote : c ≠ '"' := by
    rintro rfl
    cases h
  have hback : c ≠ '\\' := by
    rintro rfl
    cases h
  rw [Spot.next, if_neg hquote, if_neg hback]

theorem leads_readHex4 {n : Nat} (h : readHex4 text = some (n, rest)) :
    Leads .inside .inside text rest := by
  unfold readHex4 at h
  split at h
  · split at h
    · next ha hb hc hd =>
        cases h
        exact .cons (next_hexVal ha) (.cons (next_hexVal hb) (.cons (next_hexVal hc)
          (.cons (next_hexVal hd) (.refl _ _))))
    · cases h
  · cases h

theorem leads_readUnicode (h : readUnicode text = some (c, rest)) :
    Leads .inside .inside text rest := by
  unfold readUnicode at h
  split at h
  · cases h
  · next high more hhigh =>
      have hfirst := leads_readHex4 hhigh
      split_ifs at h
      · split at h
        · split at h
          · cases h
          · next low behind hlow =>
              split_ifs at h
              · obtain ⟨-, rfl⟩ := Prod.mk.inj (Option.some.inj h)
                exact hfirst.trans (.cons rfl (.cons rfl (leads_readHex4 hlow)))
              · obtain ⟨-, rfl⟩ := Prod.mk.inj (Option.some.inj h)
                exact hfirst
        · obtain ⟨-, rfl⟩ := Prod.mk.inj (Option.some.inj h)
          exact hfirst
      · obtain ⟨-, rfl⟩ := Prod.mk.inj (Option.some.inj h)
        exact hfirst

theorem leads_unescape (h : unescape text = some (c, rest)) :
    Leads .escaped .inside text rest := by
  unfold unescape at h
  split at h
  case h_9 => exact .cons rfl (leads_readUnicode h)
  case h_10 => cases h
  all_goals
    cases h
    exact .cons rfl (.refl _ _)

/-- **A string is read to its closing quote.** -/
theorem leads_readString {fuel : Nat} {s : List Char} (h : readString fuel text = some (s, rest)) :
    Leads .inside .outside text rest := by
  induction fuel generalizing text s with
  | zero => cases h
  | succ fuel ih =>
      cases text with
      | nil => cases h
      | cons c text =>
          rw [readString] at h
          split_ifs at h with hquote hback hcontrol
          · cases h
            subst hquote
            exact .cons rfl (.refl _ _)
          · subst hback
            obtain ⟨⟨d, more⟩, hescape, h⟩ := Option.bind_eq_some_iff.mp h
            obtain ⟨⟨s', rest'⟩, hstring, heq⟩ := Option.map_eq_some_iff.mp h
            cases heq
            exact .cons rfl ((leads_unescape hescape).trans (ih hstring))
          · obtain ⟨⟨s', rest'⟩, hstring, heq⟩ := Option.map_eq_some_iff.mp h
            cases heq
            exact .cons (by rw [Spot.next, if_neg hquote, if_neg hback]) (ih hstring)

end Strings

/-! ## Numerals and words -/

section Numerals

variable {text rest : List Char}

theorem leads_digits (text : List Char) :
    Leads .outside .outside text (text.dropWhile Char.isDigit) :=
  leads_takeWhile (fun _ => isPlain_of_isDigit) text

theorem leads_readWhole {n : Nat} (h : readWhole text = some (n, rest)) :
    Leads .outside .outside text rest := by
  unfold readWhole at h
  split at h
  · cases h
    exact .cons rfl (.refl _ _)
  · next c text _ =>
      split_ifs at h with hdigit
      cases h
      exact .cons (next_plain (isPlain_of_isDigit hdigit)) (leads_digits text)
  · cases h

theorem leads_readFraction (text : List Char) :
    Leads .outside .outside text (readFraction text).2 := by
  unfold readFraction
  split
  · next rest =>
      split_ifs
      · exact .refl _ _
      · exact .cons rfl (leads_digits rest)
  · exact .refl _ _

theorem leads_readSign (text : List Char) : Leads .outside .outside text (readSign text).2 := by
  unfold readSign
  split
  · exact .cons rfl (.refl _ _)
  · exact .cons rfl (.refl _ _)
  · exact .refl _ _

theorem leads_readExponent (text : List Char) :
    Leads .outside .outside text (readExponent text).2 := by
  unfold readExponent
  split
  · next c rest =>
      split_ifs with he
      · exact .refl _ _
      · have hplain : isPlain c = true := by
          rcases he with rfl | rfl
          · rfl
          · rfl
        exact .cons (next_plain hplain) ((leads_readSign rest).trans (leads_digits _))
      · exact .refl _ _
  · exact .refl _ _

theorem leads_readNumber {n : Numeral} (h : readNumber text = some (n, rest)) :
    Leads .outside .outside text rest := by
  have hunsigned : ∀ {negative text}, readUnsigned negative text = some (n, rest) →
      Leads .outside .outside text rest := by
    intro negative text h
    obtain ⟨⟨whole, more⟩, hwhole, heq⟩ := Option.map_eq_some_iff.mp h
    cases heq
    exact (leads_readWhole hwhole).trans ((leads_readFraction _).trans (leads_readExponent _))
  unfold readNumber at h
  split at h
  · exact .cons rfl (hunsigned h)
  · exact hunsigned h

theorem leads_readWord {value : Json} (h : readWord text = some (value, rest)) :
    Leads .outside .outside text rest := by
  obtain ⟨⟨word, value'⟩, hmem, hread⟩ := List.exists_of_findSome?_eq_some h
  simp only [Option.ite_none_right_eq_some, Option.some.injEq, Prod.mk.injEq] at hread
  obtain ⟨hword, -, rfl⟩ := hread
  obtain ⟨more, rfl⟩ := List.isPrefixOf_iff_prefix.mp hword
  have hplain : ∀ pair ∈ [("null", Json.null), ("true", .bool true), ("false", .bool false),
      ("NaN", .float none), ("Infinity", .float none), ("-Infinity", .float none)],
      pair.1.toList.all isPlain = true := by
    simp only [List.forall_mem_cons]
    decide
  have hdrop : (word.toList ++ more).drop word.length = more := by
    rw [← String.length_toList, List.drop_left]
  rw [hdrop]
  exact leads_plain (List.all_eq_true.mp (hplain _ hmem)) more

end Numerals

/-! ## Values -/

section Values

variable {F : FloatText} {text rest : List Char}

section Brackets

variable {α : Type} {read : List Char → Option (α × List Char)} {close : Char}

theorem leads_readItems (hclose : isPlain close = true)
    (hread : ∀ text item rest, read text = some (item, rest) → Leads .outside .outside text rest)
    {fuel : Nat} {items : List α} (h : readItems read close fuel text = some (items, rest)) :
    Leads .outside .outside text rest := by
  induction fuel generalizing text items with
  | zero => cases h
  | succ fuel ih =>
      obtain ⟨⟨first, more⟩, hfirst, h⟩ := Option.bind_eq_some_iff.mp h
      have hspace := (hread _ _ _ hfirst).trans (leads_skipSpace more)
      dsimp only at h
      split at h
      · cases h
      · next c behind heq =>
          rw [heq] at hspace
          split_ifs at h with hc hcomma
          · cases h
            exact hspace.trans (.cons (next_plain (hc ▸ hclose)) (.refl _ _))
          · obtain ⟨⟨others, tail⟩, hothers, heq⟩ := Option.map_eq_some_iff.mp h
            cases heq
            subst hcomma
            exact hspace.trans (.cons rfl ((leads_skipSpace behind).trans (ih hothers)))

theorem leads_readBracket (hclose : isPlain close = true)
    (hread : ∀ text item rest, read text = some (item, rest) → Leads .outside .outside text rest)
    {items : List α} (h : readBracket read close text = some (items, rest)) :
    Leads .outside .outside text rest := by
  have hspace := leads_skipSpace text
  unfold readBracket at h
  split at h
  · cases h
  · next c behind heq =>
      rw [heq] at hspace
      split_ifs at h with hc
      · cases h
        exact hspace.trans (.cons (next_plain (hc ▸ hclose)) (.refl _ _))
      · exact hspace.trans (leads_readItems hclose hread h)

end Brackets

theorem leads_readField {read : List Char → Option (Json × List Char)}
    (hread : ∀ text value rest, read text = some (value, rest) → Leads .outside .outside text rest)
    {field : String × Json} (h : readField read text = some (field, rest)) :
    Leads .outside .outside text rest := by
  unfold readField at h
  split at h
  · obtain ⟨⟨key, more⟩, hkey, h⟩ := Option.bind_eq_some_iff.mp h
    have hspace := (leads_readString hkey).trans (leads_skipSpace more)
    dsimp only at h
    split at h
    · next behind heq =>
        rw [heq] at hspace
        obtain ⟨⟨value, tail⟩, hvalue, heq⟩ := Option.map_eq_some_iff.mp h
        cases heq
        exact .cons rfl (hspace.trans (.cons rfl ((leads_skipSpace behind).trans
          (hread _ _ _ hvalue))))
    · cases h
  · cases h

theorem leads_readValue {fuel : Nat} {value : Json} (h : readValue F fuel text = some (value, rest)) :
    Leads .outside .outside text rest := by
  induction fuel generalizing text value rest with
  | zero => cases h
  | succ fuel ih =>
      cases text with
      | nil => cases h
      | cons c text =>
          have hvalues : ∀ text value rest, readValue F fuel text = some (value, rest) →
              Leads .outside .outside text rest := fun _ _ _ h => ih h
          rw [readValue] at h
          split_ifs at h with hquote hbrace hbracket
          · subst hquote
            obtain ⟨⟨s, tail⟩, hstring, heq⟩ := Option.map_eq_some_iff.mp h
            cases heq
            exact .cons rfl (leads_readString hstring)
          · subst hbrace
            obtain ⟨⟨pairs, tail⟩, hpairs, heq⟩ := Option.map_eq_some_iff.mp h
            cases heq
            exact .cons rfl (leads_readBracket rfl (fun _ _ _ => leads_readField hvalues) hpairs)
          · subst hbracket
            obtain ⟨⟨items, tail⟩, hitems, heq⟩ := Option.map_eq_some_iff.mp h
            cases heq
            exact .cons rfl (leads_readBracket rfl hvalues hitems)
          · split at h
            · next hnumber =>
                cases h
                exact leads_readNumber hnumber
            · exact leads_readWord h

/-- **A text that is read closes its strings.** -/
theorem closes_loads {text : String} {value : Json} (h : loads F text = some value) :
    Spot.outside.behind text.toList = some .outside := by
  unfold loads at h
  split at h
  · cases h
  · next read tail hread =>
      split_ifs at h with htail
      have hleads := (leads_skipSpace text.toList).trans
        ((leads_readValue hread).trans (leads_skipSpace tail))
      rw [htail] at hleads
      obtain ⟨whole, heq, hbehind⟩ := hleads
      rw [heq, List.append_nil]
      exact hbehind

/-- **A text that is read is not read up to a character of a string**, blanks at the end apart. -/
theorem loads_cut {text : String} {value : Json} (h : loads F text = some value)
    {front blanks behind : List Char} {c : Char} (hc : isPlain c = false) (hquote : c ≠ '"')
    (hblanks : '"' ∉ blanks) (htext : text.toList = front ++ blanks ++ c :: behind) :
    loads F (String.ofList front) = none := by
  rw [Option.eq_none_iff_forall_ne_some]
  intro value' hfront
  have hclosed := closes_loads h
  have hopen := closes_loads hfront
  rw [String.toList_ofList] at hopen
  rw [htext, List.append_assoc, Spot.behind_append, hopen, Option.bind_some] at hclosed
  clear htext hopen hfront h
  -- Without a quote the text stays outside, where the character may not stand.
  induction blanks with
  | nil =>
      rw [List.nil_append, Spot.behind_cons, Spot.next, if_neg hquote, hc] at hclosed
      cases hclosed
  | cons d blanks ih =>
      rw [List.mem_cons, not_or] at hblanks
      rw [List.cons_append, Spot.behind_cons, Spot.next, if_neg (Ne.symm hblanks.1)] at hclosed
      split_ifs at hclosed
      · exact ih hblanks.2 hclosed
      · cases hclosed

end Values

/-! ## Marks -/

/-- A string of the value, at any depth; the keys are strings, too. -/
inductive HasString (s : String) : Json → Prop
  | str : HasString s (.str s)
  | item {items : List Json} {item : Json} (h : item ∈ items) (hitem : HasString s item) :
      HasString s (.arr items)
  | key {fields : List (String × Json)} {value : Json} (h : (s, value) ∈ fields) :
      HasString s (.obj fields)
  | value {fields : List (String × Json)} {field : String × Json} (h : field ∈ fields)
      (hvalue : HasString s field.2) : HasString s (.obj fields)

/-- A text that JSON has in its strings only, where it stays as it is. -/
structure Mark (start : Char) (tail : List Char) : Prop where
  notPlain : isPlain start = false
  /-- no escape of another character has its start -/
  unique : ∀ c, start ∈ escape c → c = start
  free : ∀ c ∈ ['"', ',', ' ', ':', '[', ']', '{', '}'], c ∉ start :: tail
  kept : ∀ c ∈ start :: tail, escape c = [c]

section Mark

variable {start : Char} {tail text : List Char} {F : FloatText}

theorem not_infix_of_not_mem (h : start ∉ text) : ¬start :: tail <:+: text :=
  fun hoccurs => h (hoccurs.subset List.mem_cons_self)

variable {c : Char}

theorem infix_cons_ne_iff (h : start ≠ c) :
    start :: tail <:+: c :: text ↔ start :: tail <:+: text := by
  rw [List.infix_cons_iff, or_iff_right]
  exact fun hprefix => h (List.cons_prefix_cons.mp hprefix).1

theorem infix_append_iff (h : start ∉ text) (more : List Char) :
    start :: tail <:+: text ++ more ↔ start :: tail <:+: more := by
  induction text with
  | nil => rfl
  | cons c text ih =>
      rw [List.mem_cons, not_or] at h
      rw [List.cons_append, infix_cons_ne_iff h.1, ih h.2]

theorem infix_concat_iff (hc : c ∉ start :: tail) :
    start :: tail <:+: text ++ [c] ↔ start :: tail <:+: text := by
  rw [SubText.infix_append_cons hc, or_iff_left]
  exact not_infix_of_not_mem List.not_mem_nil

/-- What is kept begins an escaped text exactly if it begins the text. -/
theorem prefix_flatMap_escape_iff {front : List Char} (h : ∀ c ∈ front, escape c = [c])
    (s : List Char) : front <+: s.flatMap escape ↔ front <+: s := by
  induction s generalizing front with
  | nil => rfl
  | cons d s ih =>
      cases front with
      | nil => exact iff_of_true List.nil_prefix List.nil_prefix
      | cons c front =>
          have hc := h c List.mem_cons_self
          have hfront := ih fun c hc => h c (List.mem_cons_of_mem _ hc)
          rw [List.flatMap_cons, List.cons_prefix_cons]
          by_cases hcd : c = d
          · subst hcd
            rw [hc, List.singleton_append, List.cons_prefix_cons, hfront]
          · refine iff_of_false (fun hprefix => ?_) fun hboth => hcd hboth.1
            obtain ⟨first, more, hescape⟩ := List.exists_cons_of_ne_nil (escape_ne_nil d)
            rw [hescape, List.cons_append, List.cons_prefix_cons] at hprefix
            obtain ⟨rfl, -⟩ := hprefix
            -- An escape begins with a backslash, which is not kept, unless it is the character.
            have hstart : escape d = [d] ∨ ∃ more, escape d = '\\' :: more := by
              unfold escape
              split_ifs <;> simp
            rcases hstart with hsame | ⟨more', hback⟩
            · rw [hsame] at hescape
              exact hcd (List.cons.inj hescape).1.symm
            · rw [hback] at hescape
              cases hescape
              exact absurd hc (by decide)

variable (hmark : Mark start tail)

include hmark

theorem infix_flatMap_escape_iff (s : List Char) :
    start :: tail <:+: s.flatMap escape ↔ start :: tail <:+: s := by
  induction s with
  | nil => rfl
  | cons c s ih =>
      rw [@List.infix_cons_iff _ (start :: tail) c s, ← ih, ← prefix_flatMap_escape_iff hmark.kept,
        List.flatMap_cons]
      by_cases hc : c = start
      · subst hc
        rw [hmark.kept _ List.mem_cons_self, List.singleton_append, List.infix_cons_iff]
      · have hfree : start ∉ escape c := fun hmem => hc (hmark.unique c hmem)
        rw [infix_append_iff hfree, or_iff_right_of_imp]
        exact fun hprefix => (infix_append_iff hfree _).mp hprefix.isInfix

theorem start_ne (hc : c ∈ ['"', ',', ' ', ':', '[', ']', '{', '}']) : start ≠ c := by
  rintro rfl
  exact hmark.free _ hc List.mem_cons_self

theorem infix_quote_iff (s : List Char) : start :: tail <:+: quote s ↔ start :: tail <:+: s := by
  rw [quote, infix_cons_ne_iff (start_ne hmark (by decide)),
    infix_concat_iff (hmark.free _ (by decide)), infix_flatMap_escape_iff hmark]

theorem infix_joined_iff (texts : List (List Char)) :
    start :: tail <:+: joined texts ↔ ∃ text ∈ texts, start :: tail <:+: text := by
  induction texts with
  | nil => exact iff_of_false (not_infix_of_not_mem List.not_mem_nil) (by simp)
  | cons text texts ih =>
      cases texts with
      | nil => simp [joined]
      | cons next texts =>
          rw [joined, SubText.infix_append_cons (hmark.free _ (by decide)),
            infix_cons_ne_iff (start_ne hmark (by decide)), List.exists_mem_cons_iff]
          exact or_congr_right ih

theorem infix_brackets_iff {opening closing : Char}
    (hopening : opening ∈ ['"', ',', ' ', ':', '[', ']', '{', '}'])
    (hclosing : closing ∈ ['"', ',', ' ', ':', '[', ']', '{', '}']) :
    start :: tail <:+: opening :: (text ++ [closing]) ↔ start :: tail <:+: text := by
  rw [infix_cons_ne_iff (start_ne hmark hopening), infix_concat_iff (hmark.free _ hclosing)]

theorem start_not_mem_text {n : Numeral} (hn : n.Valid) : start ∉ n.text := by
  intro hmem
  have hplain := hmark.notPlain
  rcases mem_text hn hmem with hdigit | hother
  · rw [isPlain_of_isDigit hdigit] at hplain
    cases hplain
  · have hall : ∀ c ∈ ['-', '+', '.', 'e'], isPlain c = true :=
      List.all_iff_forall_prop.mp (by decide)
    rw [hall start hother] at hplain
    cases hplain

theorem not_infix_of_plain (h : text.all isPlain = true) : ¬start :: tail <:+: text := by
  refine not_infix_of_not_mem fun hmem => ?_
  have hplain := hmark.notPlain
  rw [List.all_eq_true.mp h start hmem] at hplain
  cases hplain

/-- **A mark is in a written value** exactly if it is in one of its strings. -/
theorem infix_write_iff {value : Json} (h : WellFormed F value) :
    start :: tail <:+: write F value ↔ ∃ s, HasString s value ∧ start :: tail <:+: s.toList := by
  induction h with
  | null =>
      refine iff_of_false (not_infix_of_plain hmark (show ['n', 'u', 'l', 'l'].all isPlain = true by decide)) ?_
      rintro ⟨s, hs, -⟩
      cases hs
  | bool value =>
      refine iff_of_false ?_ ?_
      · cases value with
        | true => exact not_infix_of_plain hmark (show ['t', 'r', 'u', 'e'].all isPlain = true by decide)
        | false => exact not_infix_of_plain hmark (show ['f', 'a', 'l', 's', 'e'].all isPlain = true by decide)
      · rintro ⟨s, hs, -⟩
        cases hs
  | int value =>
      refine iff_of_false (not_infix_of_not_mem (start_not_mem_text hmark (ofInt_valid value))) ?_
      rintro ⟨s, hs, -⟩
      cases hs
  | notFinite =>
      refine iff_of_false (not_infix_of_plain hmark (show ['N', 'a', 'N'].all isPlain = true by decide)) ?_
      rintro ⟨s, hs, -⟩
      cases hs
  | @float value _ =>
      refine iff_of_false (not_infix_of_not_mem (start_not_mem_text hmark (F.repr_valid value))) ?_
      rintro ⟨s, hs, -⟩
      cases hs
  | str value =>
      rw [write, infix_quote_iff hmark]
      constructor
      · exact fun hoccurs => ⟨value, .str, hoccurs⟩
      · rintro ⟨s, hs, hoccurs⟩
        cases hs
        exact hoccurs
  | @arr items _ ih =>
      rw [write, writeItems_eq, infix_brackets_iff hmark (by decide) (by decide),
        infix_joined_iff hmark]
      constructor
      · rintro ⟨text, htext, hoccurs⟩
        obtain ⟨item, hitem, rfl⟩ := List.mem_map.mp htext
        obtain ⟨s, hs, hoccurs⟩ := (ih item hitem).mp hoccurs
        exact ⟨s, .item hitem hs, hoccurs⟩
      · rintro ⟨s, hs, hoccurs⟩
        cases hs with
        | item hitem hs =>
            exact ⟨_, List.mem_map_of_mem hitem, (ih _ hitem).mpr ⟨s, hs, hoccurs⟩⟩
  | @obj fields _ _ ih =>
      rw [write, writeFields_eq, infix_brackets_iff hmark (by decide) (by decide),
        infix_joined_iff hmark]
      have hfield : ∀ field : String × Json,
          (start :: tail <:+: quote field.1.toList ++ ':' :: ' ' :: write F field.2) ↔
            start :: tail <:+: field.1.toList ∨ start :: tail <:+: write F field.2 := by
        intro field
        rw [SubText.infix_append_cons (hmark.free _ (by decide)), infix_quote_iff hmark,
          infix_cons_ne_iff (start_ne hmark (by decide))]
      constructor
      · rintro ⟨text, htext, hoccurs⟩
        obtain ⟨field, hmem, rfl⟩ := List.mem_map.mp htext
        rcases (hfield field).mp hoccurs with hkey | hvalue
        · exact ⟨field.1, .key hmem, hkey⟩
        · obtain ⟨s, hs, hoccurs⟩ := (ih field hmem).mp hvalue
          exact ⟨s, .value hmem hs, hoccurs⟩
      · rintro ⟨s, hs, hoccurs⟩
        cases hs with
        | key hmem => exact ⟨_, List.mem_map_of_mem hmem, (hfield _).mpr (.inl hoccurs)⟩
        | value hmem hs =>
            exact ⟨_, List.mem_map_of_mem hmem,
              (hfield _).mpr (.inr ((ih _ hmem).mpr ⟨s, hs, hoccurs⟩))⟩

end Mark

end JsonText
