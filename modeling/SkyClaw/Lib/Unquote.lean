import SkyClaw.Lib.IpAddress

/-!
# `urllib.parse.unquote`

The escapes of a text become bytes, and bytes that stand together are decoded from UTF-8; what
cannot be decoded is replaced.  `nul_mem_unquote_iff`: where a null character comes from.
-/

namespace Unquote

open IpAddress (hexDigit)

/-- A byte, or a character outside ASCII: such a character is never decoded together with bytes. -/
inductive Piece where
  | byte (b : Nat)
  | other (c : Char)

/-- `unquote_to_bytes`, and where characters outside ASCII stand. -/
def pieces : List Char → List Piece
  | '%' :: high :: low :: rest =>
      match hexDigit high, hexDigit low with
      | some a, some b => .byte (16 * a + b) :: pieces rest
      | _, _ => .byte 0x25 :: pieces (high :: low :: rest)
  | c :: rest => (if c.toNat < 128 then .byte c.toNat else .other c) :: pieces rest
  | [] => []

/-! ## UTF-8 -/

/-- A sequence of bytes that goes on: how many are left, and the range of the next. -/
structure Pending where
  more : Nat
  low : Nat
  high : Nat
  value : Nat

/-- The first byte of a sequence. -/
def pendingOf (b : Nat) : Option Pending :=
  if 0xC2 ≤ b ∧ b ≤ 0xDF then some ⟨1, 0x80, 0xBF, b - 0xC0⟩
  else if b = 0xE0 then some ⟨2, 0xA0, 0xBF, 0⟩
  else if b = 0xED then some ⟨2, 0x80, 0x9F, 0xD⟩
  else if 0xE1 ≤ b ∧ b ≤ 0xEF then some ⟨2, 0x80, 0xBF, b - 0xE0⟩
  else if b = 0xF0 then some ⟨3, 0x90, 0xBF, 0⟩
  else if b = 0xF4 then some ⟨3, 0x80, 0x8F, 4⟩
  else if 0xF1 ≤ b ∧ b ≤ 0xF3 then some ⟨3, 0x80, 0xBF, b - 0xF0⟩
  else none

def replacement : Char := '\uFFFD'

/-- The character of a code point. -/
def ofCode (n : Nat) : Char := if n.isValidChar then Char.ofNat n else replacement

/-- A byte that begins something. -/
def start (b : Nat) : List Char × Option Pending :=
  if b < 0x80 then ([ofCode b], none)
  else
    match pendingOf b with
    | some p => ([], some p)
    | none => ([replacement], none)

/-- `decode("utf-8", "replace")`, one piece: a sequence that breaks off is replaced as a whole. -/
def step : Option Pending → Piece → List Char × Option Pending
  | none, .byte b => start b
  | none, .other c => ([c], none)
  | some p, .byte b =>
      if p.low ≤ b ∧ b ≤ p.high then
        if p.more = 1 then ([ofCode (64 * p.value + (b - 0x80))], none)
        else ([], some ⟨p.more - 1, 0x80, 0xBF, 64 * p.value + (b - 0x80)⟩)
      else (replacement :: (start b).1, (start b).2)
  | some _, .other c => ([replacement, c], none)

def decode : Option Pending → List Piece → List Char
  | none, [] => []
  | some _, [] => [replacement]
  | pending, piece :: rest => (step pending piece).1 ++ decode (step pending piece).2 rest

/-- `unquote(text)` -/
def unquote (text : List Char) : List Char := decode none (pieces text)

example : String.ofList (unquote "a%2e%2E/%E2%82%ac%E2%82x%%41%zé%C3%A9".toList) =
    "a../€\uFFFDx%A%zéé" := by
  decide +kernel

/-! ## Null characters -/

/-- What is pending is not the beginning of a null character. -/
def Pending.Positive (p : Pending) : Prop := 0x80 ≤ p.low ∧ (0 < p.value ∨ 0x80 < p.low)

theorem positive_of_pendingOf {b : Nat} {p : Pending} (h : pendingOf b = some p) : p.Positive := by
  unfold pendingOf at h
  unfold Pending.Positive
  split_ifs at h with h1 h2 h3 h4 h5 h6 h7 <;> obtain rfl := Option.some.inj h <;> dsimp only <;> omega

theorem ofCode_eq_nul_iff {n : Nat} : ofCode n = '\x00' ↔ n = 0 := by
  unfold ofCode
  split
  · next hvalid =>
      rw [← Char.toNat_inj, Char.ofNat, dif_pos hvalid]
      rfl
  · next hvalid =>
      refine iff_of_false (by decide) fun hzero => hvalid ?_
      rw [hzero]
      decide

/-- A piece that is a null character. -/
def Piece.IsNul (piece : Piece) : Prop := piece = .byte 0 ∨ piece = .other '\x00'

theorem start_nul {b : Nat} :
    ('\x00' ∈ (start b).1 ↔ b = 0) ∧ ∀ p ∈ (start b).2, p.Positive := by
  unfold start
  split
  · refine ⟨?_, fun p hp => by cases hp⟩
    rw [List.mem_singleton, eq_comm, ofCode_eq_nul_iff]
  · next hb =>
      split
      · next p hp =>
          refine ⟨iff_of_false List.not_mem_nil fun hzero => hb (by omega), fun q hq => ?_⟩
          exact Option.some.inj hq ▸ positive_of_pendingOf hp
      · refine ⟨iff_of_false ?_ fun hzero => hb (by omega), fun q hq => by cases hq⟩
        rw [List.mem_singleton]
        decide

theorem step_nul {pending : Option Pending} (hpending : ∀ p ∈ pending, p.Positive) (piece : Piece) :
    ('\x00' ∈ (step pending piece).1 ↔ piece.IsNul) ∧
      ∀ p ∈ (step pending piece).2, p.Positive := by
  have hbyte : ∀ b, (Piece.byte b).IsNul ↔ b = 0 := fun b => by simp [Piece.IsNul]
  have hother : ∀ c, (Piece.other c).IsNul ↔ c = '\x00' := fun c => by simp [Piece.IsNul]
  have hreplacement : ('\x00' : Char) ≠ replacement := by decide
  cases pending with
  | none =>
      cases piece with
      | byte b => exact ⟨start_nul.1.trans (hbyte b).symm, start_nul.2⟩
      | other c =>
          refine ⟨?_, fun p hp => by cases hp⟩
          rw [hother, step, List.mem_singleton, eq_comm]
  | some p =>
      obtain ⟨hlow, hpositive⟩ := hpending p rfl
      cases piece with
      | byte b =>
          rw [hbyte]
          by_cases hrange : p.low ≤ b ∧ b ≤ p.high
          · rw [step, if_pos hrange]
            have hvalue : 64 * p.value + (b - 0x80) ≠ 0 := by omega
            have hb : b ≠ 0 := by omega
            by_cases hlast : p.more = 1
            · rw [if_pos hlast]
              refine ⟨iff_of_false ?_ hb, fun q hq => by cases hq⟩
              rw [List.mem_singleton, eq_comm, ofCode_eq_nul_iff]
              exact hvalue
            · rw [if_neg hlast]
              refine ⟨iff_of_false List.not_mem_nil hb, fun q hq => ?_⟩
              cases hq
              exact ⟨Nat.le_refl _, .inl (Nat.pos_of_ne_zero hvalue)⟩
          · rw [step, if_neg hrange]
            refine ⟨?_, start_nul.2⟩
            rw [List.mem_cons, or_iff_right hreplacement]
            exact start_nul.1
      | other c =>
          refine ⟨?_, fun q hq => by cases hq⟩
          rw [hother, step, List.mem_cons, or_iff_right hreplacement, List.mem_singleton, eq_comm]

theorem nul_mem_decode_iff {pending : Option Pending} (hpending : ∀ p ∈ pending, p.Positive)
    {all : List Piece} : '\x00' ∈ decode pending all ↔ ∃ piece ∈ all, piece.IsNul := by
  induction all generalizing pending with
  | nil =>
      refine iff_of_false ?_ fun ⟨_, hmem, _⟩ => List.not_mem_nil hmem
      cases pending with
      | none => exact List.not_mem_nil
      | some p =>
          rw [decode, List.mem_singleton]
          decide
  | cons piece rest ih =>
      have hstep := step_nul hpending piece
      have hdecode : decode pending (piece :: rest) =
          (step pending piece).1 ++ decode (step pending piece).2 rest := by
        cases pending <;> rfl
      rw [hdecode, List.mem_append, hstep.1, ih hstep.2, List.exists_mem_cons_iff]

variable {c : Char}

theorem hexDigit_eq_zero_iff : hexDigit c = some 0 ↔ c = '0' := by
  constructor
  · intro h
    unfold hexDigit at h
    split_ifs at h with h1 h2 h3
    · have hle : '0'.toNat ≤ c.toNat := h1.1
      have hsub := Option.some.inj h
      exact Char.toNat_inj.mp (by omega)
    · have hsub := Option.some.inj h
      omega
    · have hsub := Option.some.inj h
      omega
  · rintro rfl
    decide

theorem ne_of_hexDigit {a : Nat} (h : hexDigit c = some a) : c ≠ '\x00' ∧ c ≠ '%' := by
  have hnul : hexDigit '\x00' = none := by decide
  have hsign : hexDigit '%' = none := by decide
  constructor
  · rintro rfl
    rw [hnul] at h
    cases h
  · rintro rfl
    rw [hsign] at h
    cases h

theorem escape_infix_cons_iff {rest : List Char} (hc : c ≠ '%') :
    "%00".toList <:+: c :: rest ↔ "%00".toList <:+: rest := by
  rw [List.infix_cons_iff, or_iff_right]
  rintro ⟨more, hmore⟩
  exact hc (List.cons.inj hmore).1.symm

theorem escape_prefix_iff {high low : Char} {rest : List Char} :
    "%00".toList <+: '%' :: high :: low :: rest ↔ high = '0' ∧ low = '0' := by
  show ['%', '0', '0'] <+: _ ↔ _
  rw [List.cons_prefix_cons, List.cons_prefix_cons, List.cons_prefix_cons]
  constructor
  · rintro ⟨_, rfl, rfl, _⟩
    exact ⟨rfl, rfl⟩
  · rintro ⟨rfl, rfl⟩
    exact ⟨rfl, rfl, rfl, List.nil_prefix⟩

/-- An escape of the null character, or the character itself. -/
theorem nul_mem_pieces_iff {text : List Char} :
    (∃ piece ∈ pieces text, piece.IsNul) ↔ '\x00' ∈ text ∨ "%00".toList <:+: text := by
  fun_induction pieces text with
  | case1 high low rest a b hlow hhigh ih =>
      have hnul : (Piece.byte (16 * a + b)).IsNul ↔ high = '0' ∧ low = '0' := by
        rw [← hexDigit_eq_zero_iff, ← hexDigit_eq_zero_iff, hhigh, hlow]
        simp only [Piece.IsNul, Piece.byte.injEq, reduceCtorEq, or_false, Option.some.injEq]
        omega
      obtain ⟨hhigh0, hhighSign⟩ := ne_of_hexDigit hhigh
      obtain ⟨hlow0, hlowSign⟩ := ne_of_hexDigit hlow
      have hmem : '\x00' ∈ '%' :: high :: low :: rest ↔ '\x00' ∈ rest := by
        rw [List.mem_cons, List.mem_cons, List.mem_cons, or_iff_right (by decide),
          or_iff_right hhigh0.symm, or_iff_right hlow0.symm]
      rw [List.exists_mem_cons_iff, ih, hnul, hmem, List.infix_cons_iff, escape_prefix_iff,
        escape_infix_cons_iff hhighSign, escape_infix_cons_iff hlowSign]
      exact or_left_comm
  | case2 high low rest hnone ih =>
      have hnul : ¬ (Piece.byte 0x25).IsNul := by simp [Piece.IsNul]
      have hprefix : ¬ "%00".toList <+: '%' :: high :: low :: rest := by
        rw [escape_prefix_iff]
        rintro ⟨rfl, rfl⟩
        exact hnone 0 0 (by decide) (by decide)
      have hmem : '\x00' ∈ '%' :: high :: low :: rest ↔ '\x00' ∈ high :: low :: rest := by
        rw [List.mem_cons, or_iff_right (by decide)]
      have hinfix : "%00".toList <:+: '%' :: high :: low :: rest ↔
          "%00".toList <:+: high :: low :: rest := by
        rw [List.infix_cons_iff, or_iff_right hprefix]
      rw [List.exists_mem_cons_iff, ih, or_iff_right hnul, hmem, hinfix]
  | case3 c rest hc ih =>
      have hnul : (if c.toNat < 128 then Piece.byte c.toNat else .other c).IsNul ↔ '\x00' = c := by
        split
        · simp only [Piece.IsNul, Piece.byte.injEq, reduceCtorEq, or_false, ← Char.toNat_inj]
          exact eq_comm
        · simp only [Piece.IsNul, reduceCtorEq, false_or, Piece.other.injEq]
          exact eq_comm
      have hprefix : ¬ "%00".toList <+: c :: rest := by
        rintro ⟨more, hmore⟩
        cases hmore
        exact hc '0' '0' more rfl rfl
      rw [List.exists_mem_cons_iff, ih, hnul, List.mem_cons, List.infix_cons_iff,
        or_iff_right hprefix, or_assoc]
  | case4 => simp

/-- **A null character was there before or was escaped.** -/
theorem nul_mem_unquote_iff {text : List Char} :
    '\x00' ∈ unquote text ↔ '\x00' ∈ text ∨ "%00".toList <:+: text := by
  unfold unquote
  rw [nul_mem_decode_iff fun p hp => by cases hp]
  exact nul_mem_pieces_iff

end Unquote
