import Mathlib.Data.Bool.AllAny
import Mathlib.Data.Char
import Mathlib.Data.List.TakeWhile
import Mathlib.Data.Rat.Defs

/-!
# Strings and numbers of JSON as text

The lexemes that `json.dumps` writes and `json.loads` reads, with `ensure_ascii`.

A lone surrogate in an escape is read as the replacement character.
-/

namespace JsonText

/-! ## Strings -/

def hexDigit (n : Nat) : Char := Nat.digitChar (n % 16)

/-- `'{0:04x}'.format(n)`. -/
def hex4 (n : Nat) : List Char :=
  [hexDigit (n / 4096), hexDigit (n / 256), hexDigit (n / 16), hexDigit n]

def hexVal (c : Char) : Option Nat :=
  if '0' ≤ c ∧ c ≤ '9' then some (c.toNat - 48)
  else if 'a' ≤ c ∧ c ≤ 'f' then some (c.toNat - 87)
  else if 'A' ≤ c ∧ c ≤ 'F' then some (c.toNat - 55)
  else none

/-- `_decode_uXXXX` -/
def readHex4 : List Char → Option (Nat × List Char)
  | a :: b :: c :: d :: rest =>
      match hexVal a, hexVal b, hexVal c, hexVal d with
      | some a, some b, some c, some d => some (4096 * a + 256 * b + 16 * c + d, rest)
      | _, _, _, _ => none
  | _ => none

/-- A character inside a string, as `py_encode_basestring_ascii` writes it. -/
def escape (c : Char) : List Char :=
  if c = '"' then ['\\', '"']
  else if c = '\\' then ['\\', '\\']
  else if c = '\n' then ['\\', 'n']
  else if c = '\r' then ['\\', 'r']
  else if c = '\t' then ['\\', 't']
  else if c = '\x0c' then ['\\', 'f']
  else if c = '\x08' then ['\\', 'b']
  else if 32 ≤ c.toNat ∧ c.toNat ≤ 126 then [c]
  else if c.toNat < 0x10000 then '\\' :: 'u' :: hex4 c.toNat
  else
    '\\' :: 'u' :: hex4 (0xd800 + (c.toNat - 0x10000) / 1024) ++
      '\\' :: 'u' :: hex4 (0xdc00 + (c.toNat - 0x10000) % 1024)

/-- The character of an escape that is not part of a pair. -/
def charOf (n : Nat) : Char := if 0xd800 ≤ n ∧ n ≤ 0xdfff then '\uFFFD' else Char.ofNat n

/-- After `\u`: one escape, or a pair of surrogates. -/
def readUnicode (text : List Char) : Option (Char × List Char) :=
  match readHex4 text with
  | none => none
  | some (high, rest) =>
      if 0xd800 ≤ high ∧ high ≤ 0xdbff then
        match rest with
        | '\\' :: 'u' :: more =>
            match readHex4 more with
            | none => none
            | some (low, more) =>
                if 0xdc00 ≤ low ∧ low ≤ 0xdfff then
                  some (Char.ofNat (0x10000 + (high - 0xd800) * 1024 + (low - 0xdc00)), more)
                else some (charOf high, rest)
        | _ => some (charOf high, rest)
      else some (charOf high, rest)

/-- After a backslash. -/
def unescape : List Char → Option (Char × List Char)
  | '"' :: rest => some ('"', rest)
  | '\\' :: rest => some ('\\', rest)
  | '/' :: rest => some ('/', rest)
  | 'b' :: rest => some ('\x08', rest)
  | 'f' :: rest => some ('\x0c', rest)
  | 'n' :: rest => some ('\n', rest)
  | 'r' :: rest => some ('\r', rest)
  | 't' :: rest => some ('\t', rest)
  | 'u' :: rest => readUnicode rest
  | _ => none

/-- `scanstring`, after the opening quote. -/
def readString : Nat → List Char → Option (List Char × List Char)
  | 0, _ => none
  | _ + 1, [] => none
  | fuel + 1, c :: rest =>
      if c = '"' then some ([], rest)
      else if c = '\\' then
        (unescape rest).bind fun (d, rest) => (readString fuel rest).map (Prod.map (d :: ·) id)
      else if c.toNat < 32 then none
      else (readString fuel rest).map (Prod.map (c :: ·) id)

theorem hexVal_hexDigit (n : Nat) : hexVal (hexDigit n) = some (n % 16) := by
  have hall : ∀ d < 16, hexVal (Nat.digitChar d) = some d := by decide
  exact hall (n % 16) (Nat.mod_lt n (by omega))

theorem readHex4_hex4 {n : Nat} (h : n < 0x10000) (rest : List Char) :
    readHex4 (hex4 n ++ rest) = some (n, rest) := by
  show readHex4 (hexDigit (n / 4096) :: hexDigit (n / 256) :: hexDigit (n / 16) :: hexDigit n ::
    rest) = some (n, rest)
  unfold readHex4
  simp only [hexVal_hexDigit]
  congr 2
  omega

theorem charOf_toNat (c : Char) : charOf c.toNat = c := by
  have hvalid := c.valid
  have hsurrogate : ¬ (0xd800 ≤ c.toNat ∧ c.toNat ≤ 0xdfff) := by
    rintro ⟨hlow, hhigh⟩
    rcases hvalid with h | h
    · have h' : c.toNat < 0xd800 := h
      omega
    · have h' : 0xdfff < c.toNat := h.1
      omega
  unfold charOf
  rw [if_neg hsurrogate, Char.ofNat_toNat]

theorem toNat_lt (c : Char) : c.toNat < 0x110000 := by
  rcases c.valid with h | h
  · have h' : c.toNat < 0xd800 := h
    omega
  · exact h.2

variable {c : Char}

theorem readUnicode_hex4 (h : c.toNat < 0x10000) (rest : List Char) :
    readUnicode (hex4 c.toNat ++ rest) = some (c, rest) := by
  have hhigh : ¬ (0xd800 ≤ c.toNat ∧ c.toNat ≤ 0xdbff) := by
    rintro ⟨hlow, hhigh⟩
    rcases c.valid with hvalid | hvalid
    · have h' : c.toNat < 0xd800 := hvalid
      omega
    · have h' : 0xdfff < c.toNat := hvalid.1
      omega
  unfold readUnicode
  simp only [readHex4_hex4 h, if_neg hhigh, charOf_toNat]

theorem readUnicode_pair {high low : Nat} (hhigh : 0xd800 ≤ high ∧ high ≤ 0xdbff)
    (hlow : 0xdc00 ≤ low ∧ low ≤ 0xdfff) (rest : List Char) :
    readUnicode (hex4 high ++ '\\' :: 'u' :: (hex4 low ++ rest)) =
      some (Char.ofNat (0x10000 + (high - 0xd800) * 1024 + (low - 0xdc00)), rest) := by
  unfold readUnicode
  rw [readHex4_hex4 (by omega)]
  simp only [if_pos hhigh]
  rw [readHex4_hex4 (by omega)]
  simp only [if_pos hlow]

theorem split_offset {base n : Nat} (high low k : Nat) (h : base ≤ n) :
    base + (high + (n - base) / k - high) * k + (low + (n - base) % k - low) = n := by
  rw [Nat.add_sub_cancel_left, Nat.add_sub_cancel_left, Nat.add_assoc, Nat.div_add_mod',
    Nat.add_sub_cancel' h]

theorem ofNat_pair {n : Nat} (hn : c.toNat = n) (h : 0x10000 ≤ n) :
    Char.ofNat (0x10000 + (0xd800 + (n - 0x10000) / 1024 - 0xd800) * 1024 +
      (0xdc00 + (n - 0x10000) % 1024 - 0xdc00)) = c := by
  rw [split_offset 0xd800 0xdc00 1024 h, ← hn, Char.ofNat_toNat]

theorem unescape_u (text : List Char) : unescape ('u' :: text) = readUnicode text := rfl

/-- What one character of a string is read as. -/
theorem readString_escape (c : Char) (fuel : Nat) (rest : List Char) :
    readString (fuel + 1) (escape c ++ rest) =
      (readString fuel rest).map (Prod.map (c :: ·) id) := by
  have hback : ∀ {d : Char} {text : List Char}, unescape text = some (d, rest) →
      readString (fuel + 1) ('\\' :: text) =
        (readString fuel rest).map (Prod.map (d :: ·) id) := by
    intro d text htext
    simp only [readString, htext, Option.bind_some]
    rfl
  unfold escape
  split_ifs with hquote hbackslash hnewline hreturn htab hfeed hback' hplain hbasic
  · subst hquote
    exact hback rfl
  · subst hbackslash
    exact hback rfl
  · subst hnewline
    exact hback rfl
  · subst hreturn
    exact hback rfl
  · subst htab
    exact hback rfl
  · subst hfeed
    exact hback rfl
  · subst hback'
    exact hback rfl
  · have hcontrol : ¬ c.toNat < 32 := by omega
    simp only [List.singleton_append, readString, if_neg hquote, if_neg hbackslash,
      if_neg hcontrol]
  · exact hback ((unescape_u _).trans (readUnicode_hex4 hbasic rest))
  · have hlt := toNat_lt c
    rw [List.append_assoc]
    refine hback ?_
    refine (unescape_u _).trans ?_
    refine (readUnicode_pair (by omega) (by omega) rest).trans ?_
    rw [ofNat_pair rfl (not_lt.mp hbasic)]

theorem escape_ne_nil (c : Char) : escape c ≠ [] := by
  unfold escape
  split_ifs <;> simp

/-- A way to write characters inside a string, which is read back. -/
structure Escapes (esc : Char → List Char) : Prop where
  ne_nil : ∀ c, esc c ≠ []
  reads : ∀ c fuel rest, readString (fuel + 1) (esc c ++ rest) =
    (readString fuel rest).map (Prod.map (c :: ·) id)

theorem escapes_escape : Escapes escape := ⟨escape_ne_nil, readString_escape⟩

variable {esc : Char → List Char}

theorem Escapes.readString_flatMap (h : Escapes esc) (s rest : List Char) {fuel : Nat}
    (hfuel : s.length < fuel) : readString fuel (s.flatMap esc ++ '"' :: rest) = some (s, rest) := by
  induction s generalizing fuel with
  | nil =>
      obtain ⟨fuel, rfl⟩ : ∃ n, fuel = n + 1 := ⟨fuel - 1, by simp at hfuel; omega⟩
      rfl
  | cons c s ih =>
      obtain ⟨fuel, rfl⟩ : ∃ n, fuel = n + 1 := ⟨fuel - 1, by simp at hfuel; omega⟩
      rw [List.flatMap_cons, List.append_assoc, h.reads, ih (by simpa using hfuel)]
      rfl

theorem Escapes.length_le (h : Escapes esc) (s : List Char) : s.length ≤ (s.flatMap esc).length := by
  induction s with
  | nil => exact le_rfl
  | cons c s ih =>
      have hpos : 0 < (esc c).length := List.length_pos_iff.mpr (h.ne_nil c)
      rw [List.flatMap_cons, List.length_append, List.length_cons]
      omega

/-- **A string is read back.** -/
theorem Escapes.readString_quote (h : Escapes esc) (s rest : List Char) :
    readString ((s.flatMap esc ++ '"' :: rest).length + 1) (s.flatMap esc ++ '"' :: rest) =
      some (s, rest) := by
  refine h.readString_flatMap s rest ?_
  have hle := h.length_le s
  simp only [List.length_append, List.length_cons]
  omega

/-! ## Numbers -/

/-- A numeral of the grammar of JSON; the whole part has no leading zero. -/
structure Numeral where
  negative : Bool
  whole : Nat
  fraction : List Char
  /-- the sign of the exponent, as it is written, and its digits -/
  exponent : Option (List Char × List Char)
deriving DecidableEq, Repr

namespace Numeral

/-- A fraction and an exponent are digits, and an exponent has one. -/
structure Valid (n : Numeral) : Prop where
  fraction : ∀ c ∈ n.fraction, c.isDigit = true
  exponent : ∀ sign digits, n.exponent = some (sign, digits) →
    (sign = [] ∨ sign = ['+'] ∨ sign = ['-']) ∧ digits ≠ [] ∧ ∀ c ∈ digits, c.isDigit = true

def exponentText (n : Numeral) : List Char :=
  match n.exponent with
  | none => []
  | some (sign, digits) => 'e' :: sign ++ digits

def fractionText (n : Numeral) : List Char :=
  if n.fraction = [] then [] else '.' :: n.fraction

def text (n : Numeral) : List Char :=
  (if n.negative then ['-'] else []) ++ Nat.toDigits 10 n.whole ++ n.fractionText ++ n.exponentText

/-- Without a fraction and an exponent it is an integer. -/
def isInt (n : Numeral) : Bool := n.fraction.isEmpty && n.exponent.isNone

def toInt (n : Numeral) : Int := if n.negative then -n.whole else n.whole

def ofInt (i : Int) : Numeral := ⟨decide (i < 0), i.natAbs, [], none⟩

end Numeral

/-- `float.__repr__` and `float()`, with the rational numbers that are floats. -/
structure FloatText where
  IsFloat : ℚ → Prop
  repr : ℚ → Numeral
  /-- `none` for an overflow -/
  parse : Numeral → Option ℚ
  repr_valid : ∀ q, (repr q).Valid
  repr_isInt : ∀ q, (repr q).isInt = false
  parse_repr : ∀ q, IsFloat q → parse (repr q) = some q
  isFloat_parse : ∀ n q, parse n = some q → IsFloat q

/-- The floats that are small integers. -/
def FloatText.integral : FloatText where
  IsFloat := fun q => q.den = 1
  repr := fun q => ⟨decide (q.num < 0), q.num.natAbs, ['0'], none⟩
  parse := fun n => some n.toInt
  repr_valid := by
    intro q
    constructor
    · simp
    · simp
  repr_isInt := fun _ => rfl
  parse_repr := by
    intro q hq
    have hnum : (if decide (q.num < 0) then -(q.num.natAbs : Int) else q.num.natAbs) = q.num := by
      by_cases hneg : q.num < 0
      · simp only [hneg, decide_true, if_true]
        omega
      · simp only [hneg, decide_false, Bool.false_eq_true, if_false]
        omega
    simp only [Numeral.toInt, hnum, Option.some.injEq]
    exact Rat.coe_int_num_of_den_eq_one hq
  isFloat_parse := by
    intro n q h
    cases h
    exact Rat.den_intCast n.toInt

/-- The whole part, `0|[1-9][0-9]*`. -/
def readWhole : List Char → Option (Nat × List Char)
  | '0' :: rest => some (0, rest)
  | c :: rest =>
      if c.isDigit then
        some (Nat.ofDigitChars 10 (c :: rest.takeWhile Char.isDigit) 0, rest.dropWhile Char.isDigit)
      else none
  | [] => none

/-- `(\.[0-9]+)?` -/
def readFraction (text : List Char) : List Char × List Char :=
  match text with
  | '.' :: rest =>
      if rest.takeWhile Char.isDigit = [] then ([], text)
      else (rest.takeWhile Char.isDigit, rest.dropWhile Char.isDigit)
  | _ => ([], text)

def readSign : List Char → List Char × List Char
  | '+' :: rest => (['+'], rest)
  | '-' :: rest => (['-'], rest)
  | rest => ([], rest)

/-- `([eE][-+]?[0-9]+)?` -/
def readExponent (text : List Char) : Option (List Char × List Char) × List Char :=
  match text with
  | c :: rest =>
      if c = 'e' ∨ c = 'E' then
        if (readSign rest).2.takeWhile Char.isDigit = [] then (none, text)
        else
          (some ((readSign rest).1, (readSign rest).2.takeWhile Char.isDigit),
            (readSign rest).2.dropWhile Char.isDigit)
      else (none, text)
  | [] => (none, [])

/-- `NUMBER_RE` -/
def readUnsigned (negative : Bool) (text : List Char) : Option (Numeral × List Char) :=
  (readWhole text).map fun (whole, rest) =>
    (⟨negative, whole, (readFraction rest).1, (readExponent (readFraction rest).2).1⟩,
      (readExponent (readFraction rest).2).2)

def readNumber : List Char → Option (Numeral × List Char)
  | '-' :: rest => readUnsigned true rest
  | text => readUnsigned false text

/-- What may follow a number. -/
def EndsNumber (rest : List Char) : Prop :=
  ∀ c ∈ rest.head?, c.isDigit = false ∧ c ≠ '.' ∧ c ≠ 'e' ∧ c ≠ 'E'

theorem takeWhile_of_head {p : Char → Bool} {rest : List Char}
    (h : ∀ c ∈ rest.head?, p c = false) :
    rest.takeWhile p = [] ∧ rest.dropWhile p = rest := by
  cases rest with
  | nil => exact ⟨rfl, rfl⟩
  | cons c rest =>
      have hc : p c = false := h c rfl
      simp [hc]

theorem span_digits {digits rest : List Char} (hdigits : ∀ c ∈ digits, c.isDigit = true)
    (h : ∀ c ∈ rest.head?, c.isDigit = false) :
    (digits ++ rest).takeWhile Char.isDigit = digits ∧
      (digits ++ rest).dropWhile Char.isDigit = rest := by
  rw [List.takeWhile_append_of_pos hdigits, List.dropWhile_append_of_pos hdigits,
    (takeWhile_of_head h).1, (takeWhile_of_head h).2, List.append_nil]
  exact ⟨rfl, rfl⟩

theorem isDigit_of_mem_toDigits {n : Nat} (h : c ∈ Nat.toDigits 10 n) :
    c.isDigit = true := Nat.isDigit_of_mem_toDigits (by decide) (by decide) h

theorem head_toDigits {n : Nat} (h : 0 < n) : ∀ c ∈ (Nat.toDigits 10 n).head?, c ≠ '0' := by
  induction n using Nat.base_induction 10 (by decide) with
  | single n hn =>
      have hall : ∀ d < 10, 0 < d → Nat.digitChar d ≠ '0' := by decide
      rw [Nat.toDigits_of_lt_base hn]
      intro c hc
      cases hc
      exact hall n hn h
  | digit n d hd hn ih =>
      rw [← Nat.toDigits_append_toDigits (by decide) hn hd]
      cases hdigits : Nat.toDigits 10 n with
      | nil => exact absurd hdigits Nat.toDigits_ne_nil
      | cons c tail =>
          rw [hdigits] at ih
          exact ih hn

theorem readWhole_toDigits (n : Nat) {rest : List Char}
    (h : ∀ c ∈ rest.head?, c.isDigit = false) :
    readWhole (Nat.toDigits 10 n ++ rest) = some (n, rest) := by
  rcases Nat.eq_zero_or_pos n with rfl | hpos
  · rfl
  · cases hdigits : Nat.toDigits 10 n with
    | nil => exact absurd hdigits Nat.toDigits_ne_nil
    | cons c tail =>
        have hzero : c ≠ '0' := head_toDigits hpos c (by rw [hdigits]; rfl)
        have hall : ∀ d ∈ c :: tail, d.isDigit = true := by
          intro d hd
          rw [← hdigits] at hd
          exact isDigit_of_mem_toDigits hd
        obtain ⟨htake, hdrop⟩ := span_digits (fun d hd => hall d (List.mem_cons_of_mem _ hd)) h
        have hvalue : Nat.ofDigitChars 10 (c :: tail) 0 = n := by
          rw [← hdigits, Nat.ofDigitChars_ten_toDigits]
        rw [List.cons_append]
        unfold readWhole
        split
        · next heq => exact absurd (List.cons.inj heq).1 hzero
        · next c' rest' _ heq =>
            cases heq
            rw [if_pos (hall c List.mem_cons_self), htake, hdrop, hvalue]
        · next heq => cases heq

variable {n : Numeral}

theorem readFraction_text (hn : n.Valid) {rest : List Char}
    (h : ∀ c ∈ rest.head?, c.isDigit = false ∧ c ≠ '.') :
    readFraction (n.fractionText ++ rest) = (n.fraction, rest) := by
  unfold Numeral.fractionText
  split_ifs with hempty
  · rw [hempty, List.nil_append]
    unfold readFraction
    split
    · exact absurd rfl (h '.' rfl).2
    · rfl
  · obtain ⟨htake, hdrop⟩ := span_digits hn.fraction fun c hc => (h c hc).1
    rw [List.cons_append]
    unfold readFraction
    simp only [htake, hdrop, if_neg hempty]

theorem readSign_append {sign digits rest : List Char}
    (hsign : sign = [] ∨ sign = ['+'] ∨ sign = ['-']) (hne : digits ≠ [])
    (hdigits : ∀ c ∈ digits, c.isDigit = true) :
    readSign (sign ++ digits ++ rest) = (sign, digits ++ rest) := by
  rcases hsign with rfl | rfl | rfl
  · obtain ⟨c, tail, rfl⟩ := List.exists_cons_of_ne_nil hne
    have hc := hdigits c List.mem_cons_self
    rw [List.nil_append, List.cons_append]
    unfold readSign
    split
    · next heq =>
        rw [(List.cons.inj heq).1] at hc
        cases hc
    · next heq =>
        rw [(List.cons.inj heq).1] at hc
        cases hc
    · rfl
  · rfl
  · rfl

theorem readExponent_text (hn : n.Valid) {rest : List Char} (h : EndsNumber rest) :
    readExponent (n.exponentText ++ rest) = (n.exponent, rest) := by
  unfold Numeral.exponentText
  cases hexponent : n.exponent with
  | none =>
      rw [List.nil_append]
      cases rest with
      | nil => rfl
      | cons c rest =>
          obtain ⟨_, _, hlower, hupper⟩ := h c rfl
          have hmark : ¬ (c = 'e' ∨ c = 'E') := by simp [hlower, hupper]
          simp only [readExponent, if_neg hmark]
  | some exponent =>
      obtain ⟨sign, digits⟩ := exponent
      obtain ⟨hsign, hne, hdigits⟩ := hn.exponent sign digits hexponent
      obtain ⟨htake, hdrop⟩ := span_digits hdigits fun c hc => (h c hc).1
      have hread : readSign (sign ++ digits ++ rest) = (sign, digits ++ rest) :=
        readSign_append hsign hne hdigits
      show readExponent ('e' :: (sign ++ digits ++ rest)) = (some (sign, digits), rest)
      simp only [readExponent, true_or, if_true, hread, htake, hdrop, if_neg hne]

theorem head_exponentText {rest : List Char} (h : EndsNumber rest) :
    ∀ c ∈ (n.exponentText ++ rest).head?, c.isDigit = false ∧ c ≠ '.' := by
  unfold Numeral.exponentText
  cases n.exponent with
  | none => exact fun c hc => ⟨(h c hc).1, (h c hc).2.1⟩
  | some exponent =>
      intro c hc
      cases hc
      decide

theorem head_fractionText {rest : List Char} (h : EndsNumber rest) :
    ∀ c ∈ (n.fractionText ++ (n.exponentText ++ rest)).head?, c.isDigit = false := by
  unfold Numeral.fractionText
  split_ifs with hempty
  · exact fun c hc => (head_exponentText h c hc).1
  · intro c hc
    cases hc
    rfl

/-- **A numeral is read back.** -/
theorem readNumber_text (hn : n.Valid) {rest : List Char} (h : EndsNumber rest) :
    readNumber (n.text ++ rest) = some (n, rest) := by
  have hunsigned : readUnsigned n.negative (Nat.toDigits 10 n.whole ++
      (n.fractionText ++ (n.exponentText ++ rest))) = some (n, rest) := by
    unfold readUnsigned
    rw [readWhole_toDigits n.whole (head_fractionText h), Option.map_some]
    simp only [readFraction_text hn (head_exponentText h), readExponent_text hn h]
  unfold Numeral.text
  simp only [List.append_assoc]
  cases hnegative : n.negative with
  | true =>
      rw [hnegative] at hunsigned
      exact hunsigned
  | false =>
      rw [hnegative] at hunsigned
      rw [if_neg Bool.false_ne_true, List.nil_append]
      unfold readNumber
      split
      · next tail heq =>
          cases hdigits : Nat.toDigits 10 n.whole with
          | nil => exact absurd hdigits Nat.toDigits_ne_nil
          | cons c digits =>
              rw [hdigits] at heq
              have hc : c.isDigit = true := isDigit_of_mem_toDigits (n := n.whole) (by simp [hdigits])
              rw [(List.cons.inj heq).1] at hc
              cases hc
      · exact hunsigned

/-- A digit, or what else stands in a numeral. -/
theorem mem_text (hn : n.Valid) (h : c ∈ n.text) :
    c.isDigit = true ∨ c ∈ ['-', '+', '.', 'e'] := by
  simp only [Numeral.text, List.mem_append] at h
  rcases h with ((hsign | hwhole) | hfraction) | hexponent
  · split_ifs at hsign
    · obtain rfl := List.mem_singleton.mp hsign
      exact .inr (by decide)
    · cases hsign
  · exact .inl (isDigit_of_mem_toDigits hwhole)
  · unfold Numeral.fractionText at hfraction
    split_ifs at hfraction
    · cases hfraction
    · rcases List.mem_cons.mp hfraction with rfl | hmem
      · exact .inr (by decide)
      · exact .inl (hn.fraction c hmem)
  · unfold Numeral.exponentText at hexponent
    split at hexponent
    · cases hexponent
    · next sign digits heq =>
        obtain ⟨hsign, _, hdigits⟩ := hn.exponent sign digits heq
        rcases List.mem_append.mp hexponent with hmem | hmem
        · rcases List.mem_cons.mp hmem with rfl | hmem
          · exact .inr (by decide)
          · rcases hsign with rfl | rfl | rfl
            · cases hmem
            · obtain rfl := List.mem_singleton.mp hmem
              exact .inr (by decide)
            · obtain rfl := List.mem_singleton.mp hmem
              exact .inr (by decide)
        · exact .inl (hdigits c hmem)

end JsonText
