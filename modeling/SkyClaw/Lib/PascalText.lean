import Mathlib.Data.List.Basic

/-!
# Pascal texts and the strings in their literals

A text is read from the left: code, comments, and literals, in which two quotes stand for one and
which no line end may be in.  A template is a text with strings that are put into it.  `lex_written`:
a template whose strings stand in literals is read as it was written.
-/

namespace PascalText

/-- A character of a template, or a string that is put in. -/
abbrev Symbol := Char ⊕ List Char

inductive Mode where
  | code
  /-- Behind a slash. -/
  | slash
  | lineComment
  | braceComment
  | literal
  /-- Behind a quote in a literal, which ends it unless another quote follows. -/
  | quote
deriving DecidableEq, Repr

inductive Mark where
  | code (c : Char)
  | opens
  | content (symbol : Symbol)
  | closes
deriving DecidableEq, Repr

def codeNext (c : Char) : Mode :=
  if c = '\'' then .literal else if c = '/' then .slash else if c = '{' then .braceComment else .code

def codeMark (c : Char) : Mark := if c = '\'' then .opens else .code c

/-- The mode behind a symbol; a string is for literals only. -/
def next : Mode → Symbol → Option Mode
  | .literal, .inr _ => some .literal
  | _, .inr _ => none
  | .literal, .inl c =>
      if c = '\'' then some .quote else if c = '\n' ∨ c = '\r' then none else some .literal
  | .quote, .inl c => some (if c = '\'' then .literal else codeNext c)
  | .slash, .inl c => some (if c = '/' then .lineComment else codeNext c)
  | .lineComment, .inl c => some (if c = '\n' then .code else .lineComment)
  | .braceComment, .inl c => some (if c = '}' then .code else .braceComment)
  | .code, .inl c => some (codeNext c)

/-- What is read with a symbol. -/
def marks : Mode → Symbol → List Mark
  | _, .inr given => [.content (.inr given)]
  | .literal, .inl c => if c = '\'' then [] else [.content (.inl c)]
  | .quote, .inl c => if c = '\'' then [.content (.inl c)] else [.closes, codeMark c]
  | .lineComment, .inl c | .braceComment, .inl c => [.code c]
  | .slash, .inl c | .code, .inl c => [codeMark c]

/-- What a text is read as, if no literal and no comment is left open. -/
def lex : Mode → List Symbol → Option (List Mark)
  | .literal, [] | .braceComment, [] => none
  | .quote, [] => some [.closes]
  | _, [] => some []
  | mode, symbol :: rest => (next mode symbol).bind fun after => (lex after rest).map (marks mode symbol ++ ·)

/-- The mode behind a text. -/
def reaches (mode : Mode) (symbols : List Symbol) : Option Mode := symbols.foldlM next mode

/-- The characters of a string that is put in. -/
def Mark.filled : Mark → List Mark
  | .content (.inr given) => given.map fun c => .content (.inl c)
  | mark => [mark]

/-- The text of a template. -/
def written (escape : List Char → List Char) (symbols : List Symbol) : List Char :=
  symbols.flatMap (Sum.elim ([·]) escape)

variable {mode after : Mode} {symbols rest : List Symbol} {c : Char}

theorem lex_cons (mode : Mode) (symbol : Symbol) (rest : List Symbol) :
    lex mode (symbol :: rest) =
      (next mode symbol).bind fun after => (lex after rest).map (marks mode symbol ++ ·) := by
  cases mode <;> rfl

theorem lex_append (h : reaches mode symbols = some after) :
    ∃ found, ∀ rest, lex mode (symbols ++ rest) = (lex after rest).map (found ++ ·) := by
  induction symbols generalizing mode with
  | nil =>
      cases h
      exact ⟨[], fun rest => by simp⟩
  | cons symbol symbols ih =>
      rw [reaches, List.foldlM_cons] at h
      obtain ⟨between, hnext, hrest⟩ := Option.bind_eq_some_iff.mp h
      obtain ⟨found, hfound⟩ := ih hrest
      refine ⟨marks mode symbol ++ found, fun rest => ?_⟩
      rw [List.cons_append, lex_cons, hnext, Option.bind_some, hfound]
      cases lex after rest <;> simp

theorem reaches_append (mode : Mode) (symbols rest : List Symbol) :
    reaches mode (symbols ++ rest) = (reaches mode symbols).bind (reaches · rest) :=
  List.foldlM_append

theorem reaches_erase (mode : Mode) (symbols : List Symbol) :
    reaches mode (symbols.map (Sum.map id fun _ => [])) = reaches mode symbols := by
  induction symbols generalizing mode with
  | nil => rfl
  | cons symbol symbols ih =>
      have hnext : next mode (Sum.map id (fun _ => []) symbol) = next mode symbol := by
        cases symbol with
        | inl c => rfl
        | inr given => cases mode <;> rfl
      rw [reaches, reaches, List.map_cons, List.foldlM_cons, List.foldlM_cons, hnext]
      exact congrArg (next mode symbol).bind (funext fun between => ih between)

@[simp] theorem filled_content (c : Char) : Mark.filled (.content (.inl c)) = [.content (.inl c)] := rfl

@[simp] theorem filled_closes : Mark.closes.filled = [.closes] := rfl

theorem filled_marks (mode : Mode) (c : Char) :
    (marks mode (.inl c)).flatMap Mark.filled = marks mode (.inl c) := by
  have hcode : (codeMark c).filled = [codeMark c] := by
    unfold codeMark
    split <;> rfl
  cases mode with
  | literal | quote =>
      by_cases hquote : c = '\''
      · simp [marks, hquote]
      · simp [marks, hquote, hcode]
  | lineComment | braceComment => rfl
  | code | slash => simp [marks, hcode]

theorem lex_quoted {given : List Char} (h : ∀ c ∈ given, c ≠ '\n' ∧ c ≠ '\r') (rest : List Symbol) :
    lex .literal ((given.flatMap fun c => if c = '\'' then [c, c] else [c]).map .inl ++ rest) =
      (lex .literal rest).map ((given.map fun c => .content (.inl c)) ++ ·) := by
  induction given with
  | nil => simp
  | cons c given ih =>
      obtain ⟨hc, hgiven⟩ := List.forall_mem_cons.mp h
      rw [List.flatMap_cons, List.map_append, List.append_assoc]
      by_cases hquote : c = '\''
      · subst hquote
        simp [lex_cons, next, marks, ih hgiven, Function.comp_def]
      · simp [hquote, hc, lex_cons, next, marks, ih hgiven, Function.comp_def]

/-- **A template is read as it was written**: with the characters of its strings in their places. -/
theorem lex_written {escape : List Char → List Char}
    (hreads : ∀ given, .inr given ∈ symbols → ∀ rest, lex .literal ((escape given).map .inl ++ rest) =
      (lex .literal rest).map ((given.map fun c => .content (.inl c)) ++ ·))
    {found : List Mark} (h : lex mode symbols = some found) :
    lex mode ((written escape symbols).map .inl) = some (found.flatMap Mark.filled) := by
  induction symbols generalizing mode found with
  | nil =>
      cases mode <;> cases h <;> rfl
  | cons symbol symbols ih =>
      rw [lex_cons] at h
      obtain ⟨after, hnext, hlex⟩ := Option.bind_eq_some_iff.mp h
      obtain ⟨later, hlater, rfl⟩ := Option.map_eq_some_iff.mp hlex
      have hrest := ih (fun given hgiven => hreads given (List.mem_cons_of_mem _ hgiven)) hlater
      rw [written, List.flatMap_cons, List.map_append, List.flatMap_append]
      cases symbol with
      | inl c =>
          change lex mode (.inl c :: (written escape symbols).map .inl) = _
          rw [lex_cons, hnext, Option.bind_some, hrest, filled_marks]
          rfl
      | inr given =>
          cases mode with
          | literal =>
              cases hnext
              change lex .literal ((escape given).map .inl ++ (written escape symbols).map .inl) = _
              rw [hreads given List.mem_cons_self, hrest]
              simp [marks, Mark.filled]
          | code | slash | lineComment | braceComment | quote => cases hnext

end PascalText
