import SkyClaw.Lib.JsonText

/-!
# The text of a JSON document

What `json.dumps` can write: a document with the floats that are not numbers kept apart.  Only one
document is written as a given text (`write_injective`), and a text behind a bar is found again
(`bar_write_injective`).
-/

/-- A float of Python. -/
inductive PyFloat
  | finite (value : ℚ)
  | negZero
  | inf (negative : Bool)
  | nan
deriving DecidableEq

/-- A document, with the fields of its objects in the order they are written. -/
inductive JsonTree
  | null
  | bool (value : Bool)
  | int (value : Int)
  | float (value : PyFloat)
  | str (value : String)
  | arr (items : List JsonTree)
  | obj (fields : List (String × JsonTree))

namespace JsonText

def negZeroNumeral : Numeral := ⟨true, 0, ['0'], none⟩

/-- `float.__repr__` also of what is not a rational number; only `-0.0` has a signed zero. -/
structure PyFloatText extends FloatText where
  repr_ne_negZero : ∀ q, repr q ≠ negZeroNumeral

/-- The floats that are small integers. -/
def PyFloatText.integral : PyFloatText where
  toFloatText := FloatText.integral
  repr_ne_negZero := by
    intro q hq
    have hneg : decide (q.num < 0) = true := congrArg Numeral.negative hq
    have hzero : q.num.natAbs = 0 := congrArg Numeral.whole hq
    have hnum : q.num < 0 := of_decide_eq_true hneg
    omega

/-- `floatstr` -/
def floatText (F : PyFloatText) : PyFloat → List Char
  | .finite value => (F.repr value).text
  | .negZero => negZeroNumeral.text
  | .inf false => "Infinity".toList
  | .inf true => "-Infinity".toList
  | .nan => "NaN".toList

end JsonText

namespace JsonTree

open JsonText

variable (F : PyFloatText)

mutual

/-- `json.dumps` -/
def write : JsonTree → List Char
  | .null => "null".toList
  | .bool true => "true".toList
  | .bool false => "false".toList
  | .int value => (Numeral.ofInt value).text
  | .float value => floatText F value
  | .str value => quote value.toList
  | .arr items => '[' :: (joined (writeItems items) ++ [']'])
  | .obj fields => '{' :: (joined (writeFields fields) ++ ['}'])

def writeItems : List JsonTree → List (List Char)
  | [] => []
  | item :: items => write item :: writeItems items

def writeFields : List (String × JsonTree) → List (List Char)
  | [] => []
  | (key, value) :: fields =>
      (quote key.toList ++ ':' :: ' ' :: write value) :: writeFields fields

end

/-- A document whose floats exist. -/
inductive WellFormed : JsonTree → Prop
  | null : WellFormed .null
  | bool (value : Bool) : WellFormed (.bool value)
  | int (value : Int) : WellFormed (.int value)
  | float {value : PyFloat} (h : ∀ q, value = .finite q → F.IsFloat q) : WellFormed (.float value)
  | str (value : String) : WellFormed (.str value)
  | arr {items : List JsonTree} (h : ∀ item ∈ items, WellFormed item) : WellFormed (.arr items)
  | obj {fields : List (String × JsonTree)} (h : ∀ field ∈ fields, WellFormed field.2) :
      WellFormed (.obj fields)

/-- The text of a field. -/
def writeField (field : String × JsonTree) : List Char :=
  quote field.1.toList ++ ':' :: ' ' :: write F field.2

variable {F}

theorem writeItems_eq (items : List JsonTree) : writeItems F items = items.map (write F) := by
  induction items with
  | nil => rfl
  | cons item items ih => rw [writeItems, ih, List.map_cons]

theorem writeFields_eq (fields : List (String × JsonTree)) :
    writeFields F fields = fields.map (writeField F) := by
  induction fields with
  | nil => rfl
  | cons field fields ih =>
      obtain ⟨key, value⟩ := field
      rw [writeFields, ih, List.map_cons, writeField]

/-! ## The first lexeme of a text -/

inductive Lexeme
  | word (letters : List Char)
  | number (n : Numeral)
  | string (s : List Char)
  | bracket (c : Char)

/-- `null`, `true` and the others. -/
def words : List (List Char) :=
  ["null", "true", "false", "NaN", "Infinity", "-Infinity"].map String.toList

def readLexeme : List Char → Option (Lexeme × List Char)
  | [] => none
  | c :: rest =>
      if c = '"' then (readString (rest.length + 1) rest).map (Prod.map .string id)
      else if c = '[' ∨ c = '{' then some (.bracket c, rest)
      else
        match readNumber (c :: rest) with
        | some (n, rest) => some (.number n, rest)
        | none => words.findSome? fun letters =>
            if letters.isPrefixOf (c :: rest) then
              some (.word letters, (c :: rest).drop letters.length)
            else none

def floatLexeme (F : PyFloatText) : PyFloat → Lexeme
  | .finite value => .number (F.repr value)
  | .negZero => .number negZeroNumeral
  | .inf false => .word "Infinity".toList
  | .inf true => .word "-Infinity".toList
  | .nan => .word "NaN".toList

/-- What a text begins with. -/
def first (F : PyFloatText) : JsonTree → Lexeme
  | .null => .word "null".toList
  | .bool true => .word "true".toList
  | .bool false => .word "false".toList
  | .int value => .number (Numeral.ofInt value)
  | .float value => floatLexeme F value
  | .str value => .string value.toList
  | .arr _ => .bracket '['
  | .obj _ => .bracket '{'

/-- The text behind that. -/
def afterFirst (F : PyFloatText) : JsonTree → List Char
  | .arr items => joined (items.map (write F)) ++ [']']
  | .obj fields => joined (fields.map (writeField F)) ++ ['}']
  | _ => []

variable {n : Numeral}

theorem readLexeme_text (hn : n.Valid) {rest : List Char} (h : EndsNumber rest) :
    readLexeme (n.text ++ rest) = some (.number n, rest) := by
  have hread := readNumber_text hn h
  obtain ⟨c, tail, htext, hc⟩ := head_text n
  have hplain : c ≠ '"' ∧ ¬ (c = '[' ∨ c = '{') := by
    rcases hc with rfl | hc
    · decide
    · refine ⟨?_, ?_⟩
      · rintro rfl
        cases hc
      · rintro (rfl | rfl) <;> cases hc
  rw [htext, List.cons_append] at hread ⊢
  simp only [readLexeme, if_neg hplain.1, if_neg hplain.2, hread]

theorem negZeroNumeral_valid : negZeroNumeral.Valid := by
  constructor
  · intro c hc
    rw [List.mem_singleton.mp hc]
    rfl
  · intro sign digits h
    cases h

theorem readLexeme_quote (s rest : List Char) :
    readLexeme (quote s ++ rest) = some (.string s, rest) := by
  have hquote : quote s ++ rest = '"' :: (s.flatMap escape ++ '"' :: rest) := by
    simp [quote]
  rw [hquote, readLexeme, if_pos rfl, readString_quote]
  rfl

/-- **The first lexeme is found**, and where it ends. -/
theorem readLexeme_write (t : JsonTree) {rest : List Char} (h : EndsNumber rest) :
    readLexeme (write F t ++ rest) = some (t.first F, t.afterFirst F ++ rest) := by
  cases t with
  | null => rfl
  | bool value =>
      cases value with
      | true | false => rfl
  | int value => exact readLexeme_text (ofInt_valid value) h
  | float value =>
      cases value with
      | finite value => exact readLexeme_text (F.repr_valid value) h
      | negZero => exact readLexeme_text negZeroNumeral_valid h
      | inf negative =>
          cases negative with
          | true | false => rfl
      | nan => rfl
  | str value => exact readLexeme_quote value.toList rest
  | arr items =>
      rw [write, writeItems_eq]
      rfl
  | obj fields =>
      rw [write, writeFields_eq]
      rfl

/-! ## One document for a text -/

section Joined

variable {α : Type} {P : α → Prop} {texts : α → List Char} {close : Char}

/-- Where the text of `item` stands, no other item can be read. -/
def ReadsOnly (P : α → Prop) (texts : α → List Char) (item : α) : Prop :=
  ∀ other rest rest', P other → EndsNumber rest → EndsNumber rest' →
    texts item ++ rest = texts other ++ rest' → item = other ∧ rest = rest'

theorem endsNumber_cons {c : Char} (h : c.isDigit = false ∧ c ≠ '.' ∧ c ≠ 'e' ∧ c ≠ 'E')
    (rest : List Char) : EndsNumber (c :: rest) := by
  intro d hd
  cases hd
  exact h

/-- What stands behind the first item of a list. -/
def behindFirst (texts : α → List Char) : List α → List Char → List Char
  | [], more => more
  | next :: items, more => ',' :: ' ' :: (joined ((next :: items).map texts) ++ more)

theorem joined_cons (item : α) (items : List α) (more : List Char) :
    joined ((item :: items).map texts) ++ more = texts item ++ behindFirst texts items more := by
  cases items with
  | nil => rfl
  | cons next items =>
      show texts item ++ ',' :: ' ' :: joined ((next :: items).map texts) ++ more = _
      rw [List.append_assoc]
      rfl

theorem endsNumber_behindFirst (items : List α) {more : List Char} (h : EndsNumber more) :
    EndsNumber (behindFirst texts items more) := by
  cases items with
  | nil => exact h
  | cons next items => exact endsNumber_cons (by decide) _

/-- **Only one list is written as a given text**, if that is so of its items. -/
theorem joined_readsOnly {items others : List α} (hclose : close = ']' ∨ close = '}')
    (hitems : ∀ item ∈ items, ReadsOnly P texts item) (hothers : ∀ other ∈ others, P other)
    (hstart : ∀ item, StartsItem close (texts item)) {rest rest' : List Char}
    (h : joined (items.map texts) ++ close :: rest = joined (others.map texts) ++ close :: rest') :
    items = others ∧ rest = rest' := by
  have hends : ∀ rest, EndsNumber (close :: rest) := by
    intro rest
    refine endsNumber_cons ?_ rest
    rcases hclose with rfl | rfl
    · decide
    · decide
  have hcomma : ',' ≠ close := by
    rcases hclose with rfl | rfl
    · decide
    · decide
  have hempty : ∀ item items rest rest',
      close :: rest ≠ joined ((item :: items).map texts) ++ close :: rest' := by
    intro item items rest rest' heq
    obtain ⟨c, tail, htext, _, hne⟩ := hstart item
    rw [joined_cons, htext] at heq
    exact hne (List.cons.inj heq).1.symm
  induction items generalizing others with
  | nil =>
      cases others with
      | nil => exact ⟨rfl, (List.cons.inj h).2⟩
      | cons other others => exact absurd h (hempty other others rest rest')
  | cons item items ih =>
      cases others with
      | nil => exact absurd h.symm (hempty item items rest' rest)
      | cons other others =>
          rw [joined_cons, joined_cons] at h
          obtain ⟨rfl, hbehind⟩ := hitems item List.mem_cons_self other _ _
            (hothers other List.mem_cons_self) (endsNumber_behindFirst items (hends rest))
            (endsNumber_behindFirst others (hends rest')) h
          cases items with
          | nil =>
              cases others with
              | nil => exact ⟨rfl, (List.cons.inj hbehind).2⟩
              | cons next others => exact absurd (List.cons.inj hbehind).1.symm hcomma
          | cons next items =>
              cases others with
              | nil => exact absurd (List.cons.inj hbehind).1 hcomma
              | cons next' others =>
                  obtain ⟨hrest, rfl⟩ := ih (fun i hi => hitems i (List.mem_cons_of_mem _ hi))
                    (fun o ho => hothers o (List.mem_cons_of_mem _ ho))
                    (List.cons.inj (List.cons.inj hbehind).2).2
                  rw [hrest]
                  exact ⟨rfl, rfl⟩

end Joined

/-- No document starts with a space or a closing bracket. -/
theorem startsItem_write (t : JsonTree) {close : Char} (hclose : close = ']' ∨ close = '}') :
    StartsItem close (write F t) := by
  cases t with
  | null | str | arr | obj => exact startsItem_plain (by decide) hclose _
  | bool value =>
      cases value with
      | true | false => exact startsItem_plain (by decide) hclose _
  | int value => exact startsItem_text _ hclose
  | float value =>
      cases value with
      | finite | negZero => exact startsItem_text _ hclose
      | inf negative =>
          cases negative with
          | true | false => exact startsItem_plain (by decide) hclose _
      | nan => exact startsItem_plain (by decide) hclose _

theorem readsOnly_field {field : String × JsonTree}
    (hvalue : ReadsOnly (WellFormed F) (write F) field.2) :
    ReadsOnly (fun other => WellFormed F other.2) (writeField F) field := by
  rintro ⟨key', value'⟩ rest rest' hother hrest hrest' h
  obtain ⟨key, value⟩ := field
  have hkey := congrArg readLexeme h
  simp only [writeField, List.append_assoc, readLexeme_quote, Option.some.injEq, Prod.mk.injEq,
    Lexeme.string.injEq, List.cons_append, List.cons.injEq, true_and] at hkey
  obtain ⟨hkey, htext⟩ := hkey
  obtain ⟨rfl, rfl⟩ := hvalue value' rest rest' hother hrest hrest' htext
  rw [String.toList_inj.mp hkey]
  exact ⟨rfl, rfl⟩

/-- The document that a lexeme is. -/
def valueOf (F : PyFloatText) : Lexeme → Option JsonTree
  | .word letters =>
      [("null".toList, JsonTree.null), ("true".toList, .bool true), ("false".toList, .bool false),
        ("NaN".toList, .float .nan), ("Infinity".toList, .float (.inf false)),
        ("-Infinity".toList, .float (.inf true))].lookup letters
  | .number n =>
      if n.isInt then some (.int n.toInt)
      else if n = negZeroNumeral then some (.float .negZero)
      else (F.parse n).map fun q => .float (.finite q)
  | .string s => some (.str (String.ofList s))
  | .bracket _ => none

/-- A document without brackets. -/
def scalar? : JsonTree → Option JsonTree
  | .arr _ => none
  | .obj _ => none
  | t => some t

variable {t : JsonTree}

theorem valueOf_first (h : WellFormed F t) : valueOf F (t.first F) = t.scalar? := by
  cases h with
  | null | arr | obj => rfl
  | bool value =>
      cases value with
      | true | false => rfl
  | int value =>
      show some (JsonTree.int (Numeral.ofInt value).toInt) = _
      rw [toInt_ofInt]
      rfl
  | @float value hfloat =>
      cases value with
      | finite q =>
          have hnumber : valueOf F (.number (F.repr q)) = some (.float (.finite q)) := by
            simp [valueOf, F.repr_isInt, F.repr_ne_negZero, F.parse_repr q (hfloat q rfl)]
          exact hnumber
      | negZero | nan => rfl
      | inf negative =>
          cases negative with
          | true | false => rfl
  | str value =>
      show some (JsonTree.str (String.ofList value.toList)) = _
      rw [String.ofList_toList]
      rfl

variable {u : JsonTree}

theorem afterFirst_of_scalar (h : t.scalar? = some u) :
    t = u ∧ t.afterFirst F = [] := by
  cases t with
  | arr | obj => cases h
  | _ => exact ⟨Option.some.inj h, rfl⟩

theorem first_eq (ht : WellFormed F t) (hu : WellFormed F u)
    {rest rest' : List Char} (hrest : EndsNumber rest) (hrest' : EndsNumber rest')
    (h : write F t ++ rest = write F u ++ rest') :
    t.first F = u.first F ∧ t.scalar? = u.scalar? ∧
      t.afterFirst F ++ rest = u.afterFirst F ++ rest' := by
  have hread := congrArg readLexeme h
  rw [readLexeme_write t hrest, readLexeme_write u hrest', Option.some.injEq,
    Prod.mk.injEq] at hread
  obtain ⟨hfirst, hafter⟩ := hread
  refine ⟨hfirst, ?_, hafter⟩
  rw [← valueOf_first ht, ← valueOf_first hu, hfirst]

theorem readsOnly_scalar (ht : WellFormed F t) (hscalar : t.scalar? = some t) :
    ReadsOnly (WellFormed F) (write F) t := by
  intro u rest rest' hu hrest hrest' h
  obtain ⟨_, hsame, hafter⟩ := first_eq ht hu hrest hrest' h
  obtain ⟨rfl, hnone⟩ := afterFirst_of_scalar (F := F) (hsame.symm.trans hscalar)
  rw [hnone] at hafter
  exact ⟨rfl, hafter⟩

/-- **Where a document is written no other can be read.** -/
theorem write_readsOnly (ht : WellFormed F t) :
    ReadsOnly (WellFormed F) (write F) t := by
  induction ht with
  | null => exact readsOnly_scalar .null rfl
  | bool value => exact readsOnly_scalar (.bool value) rfl
  | int value => exact readsOnly_scalar (.int value) rfl
  | float h => exact readsOnly_scalar (.float h) rfl
  | str value => exact readsOnly_scalar (.str value) rfl
  | @arr items hitems ih =>
      intro u rest rest' hu hrest hrest' h
      obtain ⟨hfirst, hsame, hafter⟩ := first_eq (.arr hitems) hu hrest hrest' h
      cases hu with
      | @arr others hothers =>
          simp only [afterFirst, List.append_assoc, List.singleton_append] at hafter
          obtain ⟨rfl, rfl⟩ := joined_readsOnly (.inl rfl) ih hothers
            (fun item => startsItem_write item (.inl rfl)) hafter
          exact ⟨rfl, rfl⟩
      | obj => cases hfirst
      | _ => cases hsame
  | @obj fields hfields ih =>
      intro u rest rest' hu hrest hrest' h
      obtain ⟨hfirst, hsame, hafter⟩ := first_eq (.obj hfields) hu hrest hrest' h
      cases hu with
      | @obj others hothers =>
          simp only [afterFirst, List.append_assoc, List.singleton_append] at hafter
          obtain ⟨rfl, rfl⟩ := joined_readsOnly (.inr rfl)
            (fun field hfield => readsOnly_field (ih field hfield)) hothers
            (fun field => startsItem_cons rfl (by decide) _) hafter
          exact ⟨rfl, rfl⟩
      | arr => cases hfirst
      | _ => cases hsame

/-- **A text is that of one document.** -/
theorem write_injective (ht : WellFormed F t) (hu : WellFormed F u)
    (h : write F t = write F u) : t = u := by
  have hends : EndsNumber [] := by
    intro c hc
    cases hc
  exact (write_readsOnly ht u [] [] hu hends hends (by rw [h])).1

/-! ## Behind a bar -/

/-- Whether the text so far ends in a string, and there behind a backslash. -/
inductive Place
  | outside
  | inside
  | escaped
deriving DecidableEq

/-- How a document goes on; a bar stands in strings only, and not behind a backslash. -/
def Place.next : Place → Char → Option Place
  | .outside, c => if c = '"' then some .inside else if c = '\\' ∨ c = '|' then none else some .outside
  | .inside, c => if c = '"' then some .outside else if c = '\\' then some .escaped else some .inside
  | .escaped, c => if c = '|' then none else some .inside

def Place.behind (place : Place) (text : List Char) : Option Place := text.foldlM Place.next place

theorem Place.behind_append (place : Place) (text more : List Char) :
    place.behind (text ++ more) = (place.behind text).bind fun p => p.behind more := by
  simp [Place.behind, List.foldlM_append]

theorem Place.behind_plain {text : List Char}
    (h : ∀ c ∈ text, c ≠ '"' ∧ c ≠ '\\' ∧ c ≠ '|') : Place.outside.behind text = some .outside := by
  induction text with
  | nil => rfl
  | cons c text ih =>
      obtain ⟨hquote, hback, hbar⟩ := h c List.mem_cons_self
      have hnext : Place.outside.next c = some .outside := by
        simp [Place.next, hquote, hback, hbar]
      show (Place.outside.next c).bind _ = _
      rw [hnext]
      exact ih fun d hd => h d (List.mem_cons_of_mem c hd)

theorem plain_of_mem_text (hn : n.Valid) {c : Char} (h : c ∈ n.text) :
    c ≠ '"' ∧ c ≠ '\\' ∧ c ≠ '|' := by
  rcases mem_text hn h with hdigit | hmark
  · refine ⟨?_, ?_, ?_⟩ <;> (rintro rfl; cases hdigit)
  · have hall : ∀ d ∈ ['-', '+', '.', 'e'], d ≠ '"' ∧ d ≠ '\\' ∧ d ≠ '|' :=
      List.all_iff_forall_prop.mp (by decide)
    exact hall c hmark

theorem behind_text (hn : n.Valid) : Place.outside.behind n.text = some .outside :=
  Place.behind_plain fun _ hc => plain_of_mem_text hn hc

theorem behind_hex4 (n : Nat) : Place.inside.behind (hex4 n) = some .inside := by
  have hall : ∀ d < 16, Place.inside.next (Nat.digitChar d) = some .inside := by decide
  have hdigit : ∀ k, Place.inside.next (hexDigit k) = some .inside :=
    fun k => hall (k % 16) (Nat.mod_lt k (by omega))
  simp [Place.behind, hex4, hdigit]

theorem behind_escape (c : Char) : Place.inside.behind (escape c) = some .inside := by
  have hunicode : ∀ n, Place.inside.behind ('\\' :: 'u' :: hex4 n) = some .inside := by
    intro n
    have hsplit : '\\' :: 'u' :: hex4 n = ['\\', 'u'] ++ hex4 n := rfl
    have hmark : Place.inside.behind ['\\', 'u'] = some .inside := by decide
    rw [hsplit, Place.behind_append, hmark, Option.bind_some]
    exact behind_hex4 n
  unfold escape
  split_ifs with hquote hback
  · rfl
  · rfl
  · rfl
  · rfl
  · rfl
  · rfl
  · rfl
  · simp [Place.behind, Place.next, hquote, hback]
  · exact hunicode c.toNat
  · rw [Place.behind_append, hunicode, Option.bind_some]
    exact hunicode _

theorem behind_quote (s : List Char) : Place.outside.behind (quote s) = some .outside := by
  have hinside : Place.inside.behind (s.flatMap escape) = some .inside := by
    induction s with
    | nil => rfl
    | cons c s ih => rw [List.flatMap_cons, Place.behind_append, behind_escape, Option.bind_some, ih]
  show Place.inside.behind (s.flatMap escape ++ ['"']) = some .outside
  rw [Place.behind_append, hinside]
  rfl

theorem behind_joined {texts : List (List Char)}
    (h : ∀ text ∈ texts, Place.outside.behind text = some .outside) :
    Place.outside.behind (joined texts) = some .outside := by
  induction texts with
  | nil => rfl
  | cons text texts ih =>
      have htext := h text List.mem_cons_self
      have hrest := ih fun more hmore => h more (List.mem_cons_of_mem _ hmore)
      cases texts with
      | nil => exact htext
      | cons next texts =>
          rw [joined, Place.behind_append, htext]
          exact hrest

theorem behind_brackets {text : List Char} (h : Place.outside.behind text = some .outside)
    {opening closing : Char} (hopening : Place.outside.next opening = some .outside)
    (hclosing : Place.outside.next closing = some .outside) :
    Place.outside.behind (opening :: (text ++ [closing])) = some .outside := by
  show (Place.outside.next opening).bind (fun p => p.behind (text ++ [closing])) = _
  rw [hopening, Option.bind_some, Place.behind_append, h]
  show (Place.outside.next closing).bind some = _
  rw [hclosing]
  rfl

/-- A document ends outside of its strings. -/
theorem behind_write (h : WellFormed F t) :
    Place.outside.behind (write F t) = some .outside := by
  induction h with
  | null => rfl
  | bool value =>
      cases value with
      | true | false => rfl
  | int value => exact behind_text (ofInt_valid value)
  | @float value _ =>
      cases value with
      | finite q => exact behind_text (F.repr_valid q)
      | negZero | nan => rfl
      | inf negative =>
          cases negative with
          | true | false => rfl
  | str value => exact behind_quote value.toList
  | arr _ ih =>
      rw [write, writeItems_eq]
      refine behind_brackets (behind_joined fun text htext => ?_) rfl rfl
      obtain ⟨item, hitem, rfl⟩ := List.mem_map.mp htext
      exact ih item hitem
  | obj _ ih =>
      rw [write, writeFields_eq]
      refine behind_brackets (behind_joined fun text htext => ?_) rfl rfl
      obtain ⟨field, hfield, rfl⟩ := List.mem_map.mp htext
      rw [writeField, Place.behind_append, behind_quote]
      exact ih field hfield

/-- One of two readers is in a string and the other is not. -/
def Place.Opposite (place other : Place) : Prop :=
  (place = .outside ∧ other = .inside) ∨ (place = .inside ∧ other = .outside)

/-- Where a text goes on for both, they stay so: a quote turns both, a backslash stops one. -/
theorem Place.Opposite.behind {text : List Char} {place other place' other' : Place}
    (h : place.Opposite other) (hplace : place.behind text = some place')
    (hother : other.behind text = some other') : place'.Opposite other' := by
  induction text generalizing place other with
  | nil =>
      cases hplace
      cases hother
      exact h
  | cons c text ih =>
      obtain ⟨p, hp, hplace⟩ := Option.bind_eq_some_iff.mp hplace
      obtain ⟨q, hq, hother⟩ := Option.bind_eq_some_iff.mp hother
      refine ih ?_ hplace hother
      rcases h with ⟨rfl, rfl⟩ | ⟨rfl, rfl⟩
      · simp only [Place.next] at hp hq
        split_ifs at hp hq with hquote hstop hback
        · exact .inr ⟨(Option.some.inj hp).symm, (Option.some.inj hq).symm⟩
        · exact absurd (.inl hback) hstop
        · exact .inl ⟨(Option.some.inj hp).symm, (Option.some.inj hq).symm⟩
      · simp only [Place.next] at hp hq
        split_ifs at hp hq with hquote hback hstop
        · exact .inl ⟨(Option.some.inj hp).symm, (Option.some.inj hq).symm⟩
        · exact absurd (.inl hback) hstop
        · exact .inr ⟨(Option.some.inj hp).symm, (Option.some.inj hq).symm⟩

theorem write_ne_append_bar (ht : WellFormed F t) (hu : WellFormed F u)
    (before : List Char) : write F t ≠ before ++ '|' :: write F u := by
  intro h
  have hwhole := behind_write ht
  rw [h, Place.behind_append, Option.bind_eq_some_iff] at hwhole
  obtain ⟨place, -, hwhole⟩ := hwhole
  obtain ⟨next, hnext, hinner⟩ := Option.bind_eq_some_iff.mp hwhole
  -- The bar stands in a string of the outer document.
  obtain rfl : next = .inside := by
    cases place with
    | outside | escaped => cases hnext
    | inside => exact (Option.some.inj hnext).symm
  have hopposite := Place.Opposite.behind (.inr ⟨rfl, rfl⟩) hinner (behind_write hu)
  rcases hopposite with ⟨_, hother⟩ | ⟨hplace, _⟩
  · cases hother
  · cases hplace

/-- **A document behind a bar** is found again, whatever stands in front. -/
theorem bar_write_injective (ht : WellFormed F t) (hu : WellFormed F u)
    {before before' : List Char} (h : before ++ '|' :: write F t = before' ++ '|' :: write F u) :
    before = before' ∧ t = u := by
  rcases List.append_eq_append_iff.mp h with ⟨more, hmore, htail⟩ | ⟨more, hmore, htail⟩
  · cases more with
    | nil =>
        rw [List.append_nil] at hmore
        exact ⟨hmore.symm, write_injective ht hu (List.cons.inj htail).2⟩
    | cons c more =>
        exact absurd (List.cons.inj htail).2 (write_ne_append_bar ht hu more)
  · cases more with
    | nil =>
        rw [List.append_nil] at hmore
        exact ⟨hmore, (write_injective hu ht (List.cons.inj htail).2).symm⟩
    | cons c more =>
        exact absurd (List.cons.inj htail).2 (write_ne_append_bar hu ht more)

end JsonTree
