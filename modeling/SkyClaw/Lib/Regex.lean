import Mathlib.Data.List.Infix
import Mathlib.Logic.Relation

/-!
# Regular expressions with look-behind

A backtracking matcher, the matches it finds in order of preference, and the search and
removal operations built on it.  A match depends on the text that follows a position and on
one character before it, so a position is that pair.
-/

/-- An expression on characters of type `α`; character classes are predicates. -/
inductive Regex (α : Type*) where
  | empty
  | char (p : α → Bool)
  | seq (r s : Regex α)
  | alt (r s : Regex α)
  | star (r : Regex α)
  /-- `\b`, for the given word characters. -/
  | boundary (word : α → Bool)
  /-- `(?<!p)`: the character before, if there is one, is not of the class. -/
  | notAfter (p : α → Bool)

namespace Regex

variable {α : Type*}

/-! ## Derived expressions -/

/-- `r?`, greedy. -/
def opt (r : Regex α) : Regex α := alt r empty

/-- `r+`. -/
def plus (r : Regex α) : Regex α := seq r (star r)

/-- The expressions one after another. -/
def sequence (rs : List (Regex α)) : Regex α := rs.foldr seq empty

/-- `r{n}`. -/
def times (n : Nat) (r : Regex α) : Regex α := sequence (List.replicate n r)

/-- `r{n,}`. -/
def atLeast (n : Nat) (r : Regex α) : Regex α := seq (times n r) (star r)

/-- `r{n,n+m}`, greedy. -/
def between (n m : Nat) (r : Regex α) : Regex α :=
  seq (times n r) ((List.replicate m r).foldr (fun r s => opt (seq r s)) empty)

/-- `r|s|...`; of no alternatives, none matches. -/
def oneOf (rs : List (Regex α)) : Regex α := rs.foldr alt (char fun _ => false)

/-- A position in a text: the character before it and the text after it. -/
structure Cursor (α : Type*) where
  prev : Option α
  rest : List α

/-- One of the two sides of the position is a word character, the other is not. -/
def Cursor.atBoundary (k : Cursor α) (word : α → Bool) : Bool :=
  (k.prev.any word) != (k.rest.head?.any word)

/-! ## The matcher -/

/-- Repetition, greedy: an iteration that takes no character is not tried. -/
def iterate (step : Cursor α → List (Cursor α)) : Nat → Cursor α → List (Cursor α)
  | 0, k => [k]
  | n + 1, k =>
      ((step k).filter fun k' => decide (k'.rest.length < k.rest.length)).flatMap
        (iterate step n) ++ [k]

/-- Where a match that starts at a position can end, in order of preference. -/
def ends : Regex α → Cursor α → List (Cursor α)
  | empty, k => [k]
  | char p, k =>
      match k.rest with
      | [] => []
      | c :: rest => if p c then [⟨some c, rest⟩] else []
  | seq r s, k => (ends r k).flatMap (ends s)
  | alt r s, k => ends r k ++ ends s k
  | star r, k => iterate (ends r) k.rest.length k
  | boundary word, k => if k.atBoundary word then [k] else []
  | notAfter p, k => if k.prev.any p then [] else [k]

/-- What it is to match between two positions. -/
def Matches : Regex α → Cursor α → Cursor α → Prop
  | empty => fun k k' => k' = k
  | char p => fun k k' => ∃ c, p c = true ∧ k.rest = c :: k'.rest ∧ k'.prev = some c
  | seq r s => fun k k' => ∃ mid, Matches r k mid ∧ Matches s mid k'
  | alt r s => fun k k' => Matches r k k' ∨ Matches s k k'
  | star r => Relation.ReflTransGen (Matches r)
  | boundary word => fun k k' => k.atBoundary word = true ∧ k' = k
  | notAfter p => fun k k' => k.prev.any p = false ∧ k' = k

variable {r : Regex α} {k k' : Cursor α}

/-- A match ends where it started or further on, after the last character it took. -/
theorem Matches.eq_or_lt (h : Matches r k k') :
    k' = k ∨ k'.rest.length < k.rest.length := by
  induction r generalizing k k' with
  | empty => exact .inl h
  | char p =>
      obtain ⟨c, _, hrest, _⟩ := h
      right
      rw [hrest, List.length_cons]
      omega
  | seq r s ihr ihs =>
      obtain ⟨mid, hr, hs⟩ := h
      rcases ihr hr with rfl | hlt
      · exact ihs hs
      · rcases ihs hs with rfl | hlt'
        · exact .inr hlt
        · exact .inr (hlt'.trans hlt)
  | alt r s ihr ihs =>
      rcases h with h | h
      · exact ihr h
      · exact ihs h
  | star r ih =>
      induction h with
      | refl => exact .inl rfl
      | tail _ hstep hrun =>
          rcases ih hstep with rfl | hlt
          · exact hrun
          · rcases hrun with rfl | hlt'
            · exact .inr hlt
            · exact .inr (hlt.trans hlt')
  | boundary | notAfter => exact .inl h.2

variable {n : Nat}

/-- Enough iterations reach every end of a repetition. -/
theorem mem_iterate_iff (hr : ∀ k k', k' ∈ ends r k ↔ Matches r k k') (hn : k.rest.length ≤ n) :
    k' ∈ iterate (ends r) n k ↔ Relation.ReflTransGen (Matches r) k k' := by
  induction n generalizing k with
  | zero =>
      rw [iterate, List.mem_singleton]
      constructor
      · rintro rfl
        exact Relation.ReflTransGen.refl
      · intro h
        have hstar : Matches (star r) k k' := h
        rcases hstar.eq_or_lt with heq | hlt
        · exact heq
        · omega
  | succ n ih =>
      rw [iterate, List.mem_append, List.mem_flatMap, List.mem_singleton]
      constructor
      · rintro (⟨mid, hmid, hmem⟩ | rfl)
        · obtain ⟨hstep, hlt⟩ := List.mem_filter.mp hmid
          have hlt : mid.rest.length < k.rest.length := of_decide_eq_true hlt
          exact Relation.ReflTransGen.head ((hr k mid).mp hstep) ((ih (by omega)).mp hmem)
        · exact Relation.ReflTransGen.refl
      · intro h
        -- iterations that take nothing are dropped from the run
        induction h using Relation.ReflTransGen.head_induction_on with
        | refl => exact .inr rfl
        | @head k mid hstep hrun hrest =>
            rcases hstep.eq_or_lt with rfl | hlt
            · exact hrest hn
            · exact .inl ⟨mid, List.mem_filter.mpr ⟨(hr k mid).mpr hstep, decide_eq_true hlt⟩,
                (ih (by omega)).mpr hrun⟩

/-- **The matcher is sound and complete.** -/
theorem mem_ends_iff : k' ∈ ends r k ↔ Matches r k k' := by
  induction r generalizing k k' with
  | empty => exact List.mem_singleton
  | char p =>
      rcases k with ⟨prev, _ | ⟨c, rest⟩⟩
      · simp [ends, Matches]
      · rcases k' with ⟨prev', rest'⟩
        by_cases hp : p c = true
        · simp only [ends, hp, if_true, List.mem_singleton, Matches, Cursor.mk.injEq,
            List.cons.injEq]
          constructor
          · rintro ⟨rfl, rfl⟩
            exact ⟨c, hp, ⟨rfl, rfl⟩, rfl⟩
          · rintro ⟨d, _, ⟨rfl, rfl⟩, rfl⟩
            exact ⟨rfl, rfl⟩
        · simp only [ends, if_neg hp, List.not_mem_nil, false_iff, Matches, List.cons.injEq]
          rintro ⟨d, hd, ⟨rfl, _⟩, _⟩
          exact hp hd
  | seq r s ihr ihs =>
      simp only [ends, Matches, List.mem_flatMap, ihr, ihs]
  | alt r s ihr ihs =>
      simp only [ends, Matches, List.mem_append, ihr, ihs]
  | star r ih => exact mem_iterate_iff (fun k k' => ih) le_rfl
  | boundary word =>
      by_cases h : k.atBoundary word = true
      · simp [ends, Matches, h]
      · simp [ends, Matches, h]
  | notAfter p =>
      by_cases h : k.prev.any p = true
      · simp [ends, Matches, h]
      · simp [ends, Matches, h]

/-! ## Searching -/

/-- Whether a match starts at the position. -/
def startsAt (r : Regex α) (k : Cursor α) : Bool := !(ends r k).isEmpty

theorem startsAt_iff :
    startsAt r k = true ↔ ∃ k', Matches r k k' := by
  rw [startsAt, Bool.not_eq_true', List.isEmpty_eq_false_iff_exists_mem]
  exact exists_congr fun k' => mem_ends_iff

/-- Whether a match starts at the position or after it. -/
def containsFrom (r : Regex α) : Option α → List α → Bool
  | prev, [] => startsAt r ⟨prev, []⟩
  | prev, c :: rest => startsAt r ⟨prev, c :: rest⟩ || containsFrom r (some c) rest

/-- `re.search(r, text)` finds a match. -/
def contains (r : Regex α) (text : List α) : Bool := containsFrom r none text

/-- The character before a position inside a text that follows `prev`. -/
def lastOr (prev : Option α) (before : List α) : Option α := before.getLast?.or prev

@[simp] theorem lastOr_nil (prev : Option α) : lastOr prev [] = prev := by
  simp [lastOr]

@[simp] theorem lastOr_cons (prev : Option α) (c : α) (before : List α) :
    lastOr prev (c :: before) = lastOr (some c) before := by
  cases before with
  | nil => rfl
  | cons d before => simp [lastOr, List.getLast?_cons]

variable {prev : Option α}

theorem containsFrom_iff {text : List α} :
    containsFrom r prev text = true ↔
      ∃ before rest, text = before ++ rest ∧ startsAt r ⟨lastOr prev before, rest⟩ = true := by
  induction text generalizing prev with
  | nil =>
      rw [containsFrom]
      constructor
      · intro h
        exact ⟨[], [], rfl, (lastOr_nil prev).symm ▸ h⟩
      · rintro ⟨before, rest, htext, h⟩
        obtain ⟨rfl, rfl⟩ := List.append_eq_nil_iff.mp htext.symm
        exact (lastOr_nil prev) ▸ h
  | cons c text ih =>
      rw [containsFrom, Bool.or_eq_true, ih]
      constructor
      · rintro (h | ⟨before, rest, rfl, h⟩)
        · exact ⟨[], c :: text, rfl, (lastOr_nil prev).symm ▸ h⟩
        · exact ⟨c :: before, rest, rfl, (lastOr_cons prev c before).symm ▸ h⟩
      · rintro ⟨before, rest, htext, h⟩
        cases before with
        | nil =>
            rw [List.nil_append] at htext
            subst htext
            exact .inl ((lastOr_nil prev) ▸ h)
        | cons d before =>
            cases htext
            exact .inr ⟨before, rest, rfl, (lastOr_cons prev c before) ▸ h⟩

/-- What `re.search` finds: the text of the leftmost match, by the first of its ends. -/
def searchFrom (r : Regex α) : Option α → List α → Option (List α)
  | prev, text =>
      match ends r ⟨prev, text⟩ with
      | k' :: _ => some (text.take (text.length - k'.rest.length))
      | [] =>
          match text with
          | [] => none
          | c :: rest => searchFrom r (some c) rest

/-- `re.search(r, text).group()`. -/
def search (r : Regex α) (text : List α) : Option (List α) := searchFrom r none text

theorem searchFrom_isSome (r : Regex α) (prev : Option α) (text : List α) :
    (searchFrom r prev text).isSome = containsFrom r prev text := by
  induction text generalizing prev with
  | nil =>
      unfold searchFrom containsFrom startsAt
      cases ends r ⟨prev, []⟩ with
      | nil | cons => rfl
  | cons c rest ih =>
      unfold searchFrom containsFrom startsAt
      cases ends r ⟨prev, c :: rest⟩ with
      | nil => exact ih (some c)
      | cons k' others => rfl

theorem search_isSome (r : Regex α) (text : List α) :
    (search r text).isSome = contains r text :=
  searchFrom_isSome r none text

/-- Where the matches of `re.finditer` start, with `skip` characters left of the last one
found.  Matches of no characters are not counted. -/
def positionsFrom (r : Regex α) : Nat → Nat → Option α → List α → List Nat
  | _, _, _, [] => []
  | skip + 1, index, _, c :: rest => positionsFrom r skip (index + 1) (some c) rest
  | 0, index, prev, c :: rest =>
      match (ends r ⟨prev, c :: rest⟩).find? fun k' => decide (k'.rest.length ≤ rest.length) with
      | none => positionsFrom r 0 (index + 1) (some c) rest
      | some k' =>
          index :: positionsFrom r (rest.length - k'.rest.length) (index + 1) (some c) rest

/-- `[m.start() for m in re.finditer(r, text)]`. -/
def positions (r : Regex α) (text : List α) : List Nat := positionsFrom r 0 0 none text

/-! ## What a match takes -/

theorem Matches.suffix (h : Matches r k k') :
    k'.rest <:+ k.rest := by
  induction r generalizing k k' with
  | empty => exact h ▸ List.suffix_refl _
  | char p =>
      obtain ⟨c, _, hrest, _⟩ := h
      exact ⟨[c], hrest.symm⟩
  | seq r s ihr ihs =>
      obtain ⟨mid, hr, hs⟩ := h
      exact (ihs hs).trans (ihr hr)
  | alt r s ihr ihs =>
      rcases h with h | h
      · exact ihr h
      · exact ihs h
  | star r ih =>
      induction h with
      | refl => exact List.suffix_refl _
      | tail _ hstep hrun => exact (ih hstep).trans hrun
  | boundary | notAfter => exact h.2 ▸ List.suffix_refl _

/-- Every match takes a character of the class `p`. -/
def Takes (p : α → Prop) : Regex α → Prop
  | empty => False
  | char q => ∀ c, q c = true → p c
  | seq r s => Takes p r ∨ Takes p s
  | alt r s => Takes p r ∧ Takes p s
  | star _ => False
  | boundary _ => False
  | notAfter _ => False

variable {p : α → Prop}

theorem Takes.exists_taken (ht : Takes p r)
    (h : Matches r k k') : ∃ taken, k.rest = taken ++ k'.rest ∧ ∃ c ∈ taken, p c := by
  induction r generalizing k k' with
  | empty | star | boundary | notAfter => exact ht.elim
  | char q =>
      obtain ⟨c, hq, hrest, _⟩ := h
      exact ⟨[c], hrest, c, List.mem_singleton_self c, ht c hq⟩
  | seq r s ihr ihs =>
      obtain ⟨mid, hr, hs⟩ := h
      rcases ht with ht | ht
      · obtain ⟨first, hfirst, c, hc, hp⟩ := ihr ht hr
        obtain ⟨second, hsecond⟩ := hs.suffix
        refine ⟨first ++ second, ?_, c, List.mem_append_left _ hc, hp⟩
        rw [hfirst, ← hsecond, List.append_assoc]
      · obtain ⟨second, hsecond, c, hc, hp⟩ := ihs ht hs
        obtain ⟨first, hfirst⟩ := hr.suffix
        refine ⟨first ++ second, ?_, c, List.mem_append_right _ hc, hp⟩
        rw [← hfirst, hsecond, List.append_assoc]
  | alt r s ihr ihs =>
      rcases h with h | h
      · exact ihr ht.1 h
      · exact ihs ht.2 h

variable {rs : List (Regex α)}

theorem takes_sequence (hr : r ∈ rs)
    (h : Takes p r) : Takes p (sequence rs) := by
  induction rs with
  | nil => exact absurd hr List.not_mem_nil
  | cons s rs ih =>
      rcases List.mem_cons.mp hr with rfl | hr
      · exact .inl h
      · exact .inr (ih hr)

theorem takes_oneOf (h : ∀ r ∈ rs, Takes p r) :
    Takes p (oneOf rs) := by
  induction rs with
  | nil =>
      intro c hc
      exact absurd hc Bool.false_ne_true
  | cons r rs ih =>
      exact ⟨h r List.mem_cons_self, ih fun s hs => h s (List.mem_cons_of_mem r hs)⟩

theorem Takes.length_lt (ht : Takes p r)
    (h : Matches r k k') : k'.rest.length < k.rest.length := by
  obtain ⟨taken, hrest, c, hc, _⟩ := ht.exists_taken h
  have hpos : 0 < taken.length := List.length_pos_of_mem hc
  rw [hrest, List.length_append]
  omega

theorem Takes.exists_mem (ht : Takes p r) {text : List α}
    (h : contains r text = true) : ∃ c ∈ text, p c := by
  obtain ⟨before, rest, rfl, hstart⟩ := containsFrom_iff.mp h
  obtain ⟨k', hk'⟩ := startsAt_iff.mp hstart
  obtain ⟨taken, hrest, c, hc, hp⟩ := ht.exists_taken hk'
  refine ⟨c, List.mem_append_right before ?_, hp⟩
  rw [show rest = taken ++ k'.rest from hrest]
  exact List.mem_append_left _ hc

/-! ## Matches in one text and in another -/

/-- A property of every class, boundary and look-behind of an expression. -/
def Atomwise (P : Regex α → Prop) : Regex α → Prop
  | empty => True
  | char p => P (char p)
  | seq r s => Atomwise P r ∧ Atomwise P s
  | alt r s => Atomwise P r ∧ Atomwise P s
  | star r => Atomwise P r
  | boundary word => P (boundary word)
  | notAfter p => P (notAfter p)

variable {P : Regex α → Prop}

theorem Atomwise.mono {Q : Regex α → Prop} (hchar : ∀ p, P (char p) → Q (char p))
    (hboundary : ∀ word, P (boundary word) → Q (boundary word))
    (hnotAfter : ∀ p, P (notAfter p) → Q (notAfter p)) (h : Atomwise P r) :
    Atomwise Q r := by
  induction r with
  | empty => exact h
  | char p => exact hchar p h
  | seq _ _ ihr ihs | alt _ _ ihr ihs => exact ⟨ihr h.1, ihs h.2⟩
  | star r ih => exact ih h
  | boundary word => exact hboundary word h
  | notAfter p => exact hnotAfter p h

theorem atomwise_sequence
    (h : ∀ r ∈ rs, Atomwise P r) : Atomwise P (sequence rs) := by
  induction rs with
  | nil => trivial
  | cons r rs ih =>
      exact ⟨h r List.mem_cons_self, ih fun s hs => h s (List.mem_cons_of_mem r hs)⟩

theorem atomwise_oneOf (hnone : P (char fun _ => false)) (h : ∀ r ∈ rs, Atomwise P r) : Atomwise P (oneOf rs) := by
  induction rs with
  | nil => exact hnone
  | cons r rs ih =>
      exact ⟨h r List.mem_cons_self, ih fun s hs => h s (List.mem_cons_of_mem r hs)⟩

/-- Every match of `r` from `k` is also one from the related position `l`. -/
def Carries (S : Cursor α → Cursor α → Prop) (r : Regex α) : Prop :=
  ∀ ⦃k k' l⦄, S k l → Matches r k k' → ∃ l', Matches r l l' ∧ S k' l'

variable {S : Cursor α → Cursor α → Prop}

/-- **Simulation.**  A relation that the atoms of an expression carry is carried by the
whole of it. -/
theorem carries_of_atoms
    (h : Atomwise (Carries S) r) : Carries S r := by
  induction r with
  | empty =>
      intro k k' l hS hm
      exact ⟨l, rfl, hm.symm ▸ hS⟩
  | char | boundary | notAfter => exact h
  | seq r s ihr ihs =>
      intro k k' l hS hm
      obtain ⟨mid, hr, hs⟩ := hm
      obtain ⟨mid', hr', hS'⟩ := ihr h.1 hS hr
      obtain ⟨l', hs', hS''⟩ := ihs h.2 hS' hs
      exact ⟨l', ⟨mid', hr', hs'⟩, hS''⟩
  | alt r s ihr ihs =>
      intro k k' l hS hm
      rcases hm with hm | hm
      · obtain ⟨l', hm', hS'⟩ := ihr h.1 hS hm
        exact ⟨l', .inl hm', hS'⟩
      · obtain ⟨l', hm', hS'⟩ := ihs h.2 hS hm
        exact ⟨l', .inr hm', hS'⟩
  | star r ih =>
      intro k k' l hS hm
      induction hm with
      | refl => exact ⟨l, Relation.ReflTransGen.refl, hS⟩
      | tail _ hstep hrun =>
          obtain ⟨mid, hmid, hS'⟩ := hrun
          obtain ⟨l', hstep', hS''⟩ := ih h hS' hstep
          exact ⟨l', Relation.ReflTransGen.tail hmid hstep', hS''⟩

variable {l : Cursor α}

theorem Carries.startsAt (hr : Carries S r) (hS : S k l) (h : startsAt r k = true) : startsAt r l = true := by
  obtain ⟨k', hk'⟩ := startsAt_iff.mp h
  obtain ⟨l', hl', _⟩ := hr hS hk'
  exact startsAt_iff.mpr ⟨l', hl'⟩

/-- Only a word boundary looks at the text after the end of its match. -/
def LooksBackOnly : Regex α → Prop
  | boundary _ => False
  | _ => True

/-- The same position, in a text that goes on after its end. -/
def Extends (more : List α) (k l : Cursor α) : Prop :=
  l.prev = k.prev ∧ l.rest = k.rest ++ more

theorem carries_extends (h : Atomwise LooksBackOnly r) (more : List α) :
    Carries (Extends more) r := by
  refine carries_of_atoms (h.mono ?_ ?_ ?_)
  · intro p _ k k' l hS hm
    obtain ⟨c, hp, hrest, hprev⟩ := hm
    refine ⟨⟨some c, k'.rest ++ more⟩, ⟨c, hp, ?_, rfl⟩, hprev.symm, rfl⟩
    rw [hS.2, hrest, List.cons_append]
  · intro word hno
    exact hno.elim
  · intro p _ k k' l hS hm
    refine ⟨l, ⟨?_, rfl⟩, hm.2.symm ▸ hS⟩
    rw [hS.1]
    exact hm.1

theorem contains_append_left (hr : Atomwise LooksBackOnly r) {text more : List α}
    (h : contains r text = true) : contains r (text ++ more) = true := by
  obtain ⟨before, rest, rfl, hstart⟩ := containsFrom_iff.mp h
  have hmore : Extends more ⟨lastOr none before, rest⟩ ⟨lastOr none before, rest ++ more⟩ :=
    ⟨rfl, rfl⟩
  exact containsFrom_iff.mpr ⟨before, rest ++ more, List.append_assoc before rest more,
    (carries_extends hr more).startsAt hmore hstart⟩

theorem contains_of_take (hr : Atomwise LooksBackOnly r)
    {text : List α} (h : contains r (text.take n) = true) : contains r text = true := by
  rw [← List.take_append_drop n text]
  exact contains_append_left hr h

/-! ## Texts in parts -/

/-- No class takes `c`, and no assertion tells `c` from an end of the text. -/
def Avoids (c : α) : Regex α → Prop
  | char p => p c = false
  | boundary word => word c = false
  | notAfter p => p c = false
  | _ => True

/-- The text after a position, up to its end or to some `c`. -/
def UpTo (c : α) (part rest : List α) : Prop := rest = part ∨ ∃ more, rest = part ++ c :: more

/-- Positions that look alike when `c` is taken for an end of the text. -/
def Alike (c : α) (k l : Cursor α) : Prop :=
  (k.prev = l.prev ∨ (∀ d ∈ k.prev, d = c) ∧ ∀ d ∈ l.prev, d = c) ∧
    ∃ part, UpTo c part k.rest ∧ UpTo c part l.rest

variable {c : α}

theorem Alike.symm (h : Alike c k l) : Alike c l k := by
  obtain ⟨hprev, part, hk, hl⟩ := h
  refine ⟨?_, part, hl, hk⟩
  rcases hprev with hprev | ⟨hkp, hlp⟩
  · exact .inl hprev.symm
  · exact .inr ⟨hlp, hkp⟩

theorem any_eq_false {p : α → Bool} (hp : p c = false) {o : Option α}
    (h : ∀ d ∈ o, d = c) : o.any p = false := by
  cases o with
  | none => rfl
  | some d => exact (h d rfl).symm ▸ hp

theorem Alike.any_prev (h : Alike c k l) {p : α → Bool}
    (hp : p c = false) : k.prev.any p = l.prev.any p := by
  rcases h.1 with heq | ⟨hk, hl⟩
  · rw [heq]
  · rw [any_eq_false hp hk, any_eq_false hp hl]

variable {part : List α}

theorem UpTo.any_head {rest : List α} (h : UpTo c part rest) {p : α → Bool}
    (hp : p c = false) : rest.head?.any p = part.head?.any p := by
  rcases h with rfl | ⟨more, rfl⟩
  · rfl
  · cases part with
    | nil => exact hp
    | cons d part => rfl

variable {d : α}

theorem UpTo.cons {rest : List α} (h : UpTo c part (d :: rest))
    (hd : d ≠ c) : ∃ part', part = d :: part' ∧ UpTo c part' rest := by
  cases part with
  | nil =>
      rcases h with h | ⟨more, h⟩
      · exact absurd h (List.cons_ne_nil d rest)
      · exact absurd (List.cons.inj h).1 hd
  | cons e part =>
      rcases h with h | ⟨more, h⟩
      · cases h
        exact ⟨rest, rfl, .inl rfl⟩
      · cases h
        exact ⟨part, rfl, .inr ⟨more, rfl⟩⟩

theorem UpTo.exists_cons {rest : List α}
    (h : UpTo c (d :: part) rest) : ∃ rest', rest = d :: rest' ∧ UpTo c part rest' := by
  rcases h with rfl | ⟨more, rfl⟩
  · exact ⟨part, rfl, .inl rfl⟩
  · exact ⟨part ++ c :: more, rfl, .inr ⟨more, rfl⟩⟩

theorem carries_alike (h : Atomwise (Avoids c) r) :
    Carries (Alike c) r := by
  refine carries_of_atoms (h.mono ?_ ?_ ?_)
  · intro p hp k k' l hS hm
    obtain ⟨d, hd, hrest, hprev⟩ := hm
    have hne : d ≠ c := fun heq => absurd (heq ▸ hd) (by rw [hp]; exact Bool.false_ne_true)
    obtain ⟨_, part, hk, hl⟩ := hS
    rw [hrest] at hk
    obtain ⟨part', rfl, hk'⟩ := hk.cons hne
    obtain ⟨rest', hlrest, hl'⟩ := hl.exists_cons
    exact ⟨⟨some d, rest'⟩, ⟨d, hd, hlrest, rfl⟩, .inl hprev, part', hk', hl'⟩
  · intro word hw k k' l hS hm
    refine ⟨l, ⟨?_, rfl⟩, hm.2.symm ▸ hS⟩
    obtain ⟨part, hk, hl⟩ := hS.2
    have hb := hm.1
    unfold Cursor.atBoundary at hb ⊢
    rw [← hS.any_prev hw, hl.any_head hw, ← hk.any_head hw]
    exact hb
  · intro p hp k k' l hS hm
    refine ⟨l, ⟨?_, rfl⟩, hm.2.symm ▸ hS⟩
    rw [← hS.any_prev hp]
    exact hm.1

theorem alike_part (prev : Option α) (part more : List α) :
    Alike c ⟨prev, part ++ c :: more⟩ ⟨prev, part⟩ :=
  ⟨.inl rfl, part, .inr ⟨more, rfl⟩, .inl rfl⟩

theorem alike_after (left before rest : List α) :
    Alike c ⟨lastOr none (left ++ c :: before), rest⟩ ⟨lastOr none before, rest⟩ := by
  refine ⟨?_, rest, .inl rfl, .inl rfl⟩
  cases before with
  | nil =>
      right
      constructor
      · intro d hd
        simpa [lastOr] using hd.symm
      · intro d hd
        exact absurd hd (by simp)
  | cons d before =>
      left
      simp [lastOr, List.getLast?_append, List.getLast?_cons]

/-- **Search in two parts.**  No match reaches past a character that the expression
avoids. -/
theorem contains_append_cons (hr : Atomwise (Avoids c) r)
    (left right : List α) :
    contains r (left ++ c :: right) = (contains r left || contains r right) := by
  rw [Bool.eq_iff_iff, Bool.or_eq_true]
  constructor
  · intro h
    obtain ⟨before, rest, htext, hstart⟩ := containsFrom_iff.mp h
    rcases List.append_eq_append_iff.mp htext.symm with ⟨part, rfl, rfl⟩ | ⟨part, rfl, hrest⟩
    · exact .inl (containsFrom_iff.mpr ⟨before, part, rfl,
        (carries_alike hr).startsAt (alike_part _ part right) hstart⟩)
    · cases part with
      | nil =>
          rw [List.append_nil] at hstart
          rw [List.nil_append] at hrest
          rw [← hrest] at hstart
          exact .inl (containsFrom_iff.mpr ⟨left, [], (List.append_nil left).symm,
            (carries_alike hr).startsAt (alike_part _ [] right) hstart⟩)
      | cons d part =>
          cases hrest
          exact .inr (containsFrom_iff.mpr ⟨part, rest, rfl,
            (carries_alike hr).startsAt (alike_after left part rest) hstart⟩)
  · rintro (h | h)
    · obtain ⟨before, rest, rfl, hstart⟩ := containsFrom_iff.mp h
      exact containsFrom_iff.mpr ⟨before, rest ++ c :: right,
        List.append_assoc before rest (c :: right),
        (carries_alike hr).startsAt (alike_part _ rest right).symm hstart⟩
    · obtain ⟨before, rest, rfl, hstart⟩ := containsFrom_iff.mp h
      exact containsFrom_iff.mpr ⟨left ++ c :: before, rest,
        (List.append_assoc left (c :: before) rest).symm,
        (carries_alike hr).startsAt (alike_after left before rest).symm hstart⟩

theorem Takes.contains_nil (ht : Takes p r) :
    contains r [] = false := by
  rw [Bool.eq_false_iff]
  intro h
  obtain ⟨c, hc, _⟩ := ht.exists_mem h
  exact absurd hc List.not_mem_nil

theorem contains_intercalate (hr : Atomwise (Avoids c) r) (ht : Takes p r) (parts : List (List α)) :
    contains r ([c].intercalate parts) = parts.any (contains r) := by
  induction parts with
  | nil => exact ht.contains_nil
  | cons part parts ih =>
      cases parts with
      | nil => simp
      | cons next others =>
          rw [List.intercalate_cons_cons, List.append_assoc, List.singleton_append,
            contains_append_cons hr, ih]
          rfl

/-! ## Removal -/

/-- Removal of the matches, with `skip` characters left of the last one found.  A match of
no characters removes nothing. -/
def removeFrom (r : Regex α) : Nat → Option α → List α → List α
  | _, _, [] => []
  | skip + 1, _, c :: rest => removeFrom r skip (some c) rest
  | 0, prev, c :: rest =>
      match (ends r ⟨prev, c :: rest⟩).find? fun k' => decide (k'.rest.length ≤ rest.length) with
      | none => c :: removeFrom r 0 (some c) rest
      | some k' => removeFrom r (rest.length - k'.rest.length) (some c) rest

/-- `re.sub(r, "", text)`. -/
def remove (r : Regex α) (text : List α) : List α := removeFrom r 0 none text

theorem removeFrom_sublist (r : Regex α) (skip : Nat) (prev : Option α) (text : List α) :
    (removeFrom r skip prev text).Sublist text := by
  induction text generalizing skip prev with
  | nil =>
      cases skip <;> exact List.Sublist.refl _
  | cons c rest ih =>
      cases skip with
      | succ skip => exact (ih skip (some c)).cons c
      | zero =>
          unfold removeFrom
          split
          · exact (ih 0 (some c)).cons_cons c
          · exact (ih _ (some c)).cons c

theorem remove_sublist (r : Regex α) (text : List α) : (remove r text).Sublist text :=
  removeFrom_sublist r 0 none text

theorem Takes.find_end (ht : Takes p r)
    {rest : List α} :
    ((ends r ⟨prev, c :: rest⟩).find? fun k' => decide (k'.rest.length ≤ rest.length)) =
      (ends r ⟨prev, c :: rest⟩).head? := by
  cases hends : ends r ⟨prev, c :: rest⟩ with
  | nil => rfl
  | cons k' others =>
      have hk' : Matches r ⟨prev, c :: rest⟩ k' :=
        mem_ends_iff.mp (hends ▸ List.mem_cons_self)
      have hlt : k'.rest.length < (c :: rest).length := ht.length_lt hk'
      rw [List.length_cons] at hlt
      exact List.find?_cons_of_pos (decide_eq_true (by omega))

theorem removeFrom_of_not_contains {text : List α}
    (h : containsFrom r prev text = false) : removeFrom r 0 prev text = text := by
  induction text generalizing prev with
  | nil => rfl
  | cons c rest ih =>
      rw [containsFrom, Bool.or_eq_false_iff, startsAt, Bool.not_eq_false',
        List.isEmpty_iff] at h
      unfold removeFrom
      rw [h.1, List.find?_nil, ih h.2]

theorem positionsFrom_eq_nil_iff (ht : Takes p r) {index : Nat} {text : List α} :
    positionsFrom r 0 index prev text = [] ↔ containsFrom r prev text = false := by
  induction text generalizing index prev with
  | nil =>
      rw [positionsFrom, containsFrom]
      refine iff_of_true rfl ?_
      rw [Bool.eq_false_iff]
      intro h
      obtain ⟨k', hk'⟩ := startsAt_iff.mp h
      exact absurd (ht.length_lt hk') (Nat.not_lt_zero _)
  | cons c rest ih =>
      unfold positionsFrom
      rw [ht.find_end, containsFrom, startsAt]
      cases hends : ends r ⟨prev, c :: rest⟩ with
      | nil => simpa using ih
      | cons k' others => simp

theorem positions_eq_nil_iff (ht : Takes p r) {text : List α} :
    positions r text = [] ↔ contains r text = false :=
  positionsFrom_eq_nil_iff ht

end Regex
