import SkyClaw.Agent.TokenBudget

/-!
# What the token estimate sees

`_estimate_messages_tokens` reads the texts of messages and of the parts that have a `text`.  The
input of a tool, its result and nested parts have theirs elsewhere: `seesAll_iff`.
-/

namespace SkyClaw.Agent.TokenBudget

open Chat

/-! ## All text -/

mutual

/-- The strings of an argument object, its keys included. -/
def argumentText : Json → List Char
  | .str value => value.toList
  | .arr items => argumentTextItems items
  | .obj fields => argumentTextFields fields
  | _ => []

def argumentTextItems : List Json → List Char
  | [] => []
  | item :: items => argumentText item ++ argumentTextItems items

def argumentTextFields : List (String × Json) → List Char
  | [] => []
  | (key, value) :: fields => key.toList ++ argumentText value ++ argumentTextFields fields

end

mutual

/-- The text of a content: a part has it as `text`, as its `input` or as its `content`. -/
def contentText : Json → List Char
  | .str value => value.toList
  | .arr parts => contentTextParts parts
  | .obj fields => contentTextFields fields
  | _ => []

def contentTextParts : List Json → List Char
  | [] => []
  | part :: parts => contentText part ++ contentTextParts parts

def contentTextFields : List (String × Json) → List Char
  | [] => []
  | (key, value) :: fields =>
      (if key = "text" ∨ key = "content" then contentText value
        else if key = "input" then argumentText value
        else []) ++ contentTextFields fields

end

section

variable (messages : List Message)

/-- All text of a conversation. -/
def allText : List Char :=
  messages.flatMap fun msg => contentText msg.content

/-- **The estimate is at least that of all text.** -/
def SeesAll : Prop :=
  tokensOf (allText messages).length ≤ estimateMessages messages

/-! ## The text that is estimated -/

/-- The text of a part that the estimate reads. -/
def partText : Json → Option String
  | .obj fields =>
      match (fields.lookup "text").getD (.str "") with
      | .str text => some text
      | _ => none
  | _ => none

def countedIn : Json → List String
  | .str text => [text]
  | .arr parts => parts.filterMap partText
  | _ => []

/-- The texts that the estimate reads. -/
def countedTexts : List String :=
  messages.flatMap fun msg => countedIn msg.content

/-- The characters of other text. -/
def uncounted : Nat :=
  (allText messages).length - ((countedTexts messages).map String.length).sum

/-- The text that is not read, and what the divisions of the texts leave, are fewer characters than
four for each short text, which counts as a token, and one token more. -/
def Covered : Prop :=
  ((countedTexts messages).map fun text => text.length % 4).sum + uncounted messages <
      4 * ((countedTexts messages).countP (fun text => 0 < text.length ∧ text.length < 4) + 1) ∧
    (uncounted messages = 0 ∨ ∃ text ∈ countedTexts messages, 0 < text.length)

theorem estimatePart_eq (part : Json) :
    estimatePart part = ((partText part).toList.map estimateTokens).sum := by
  cases part with
  | obj fields =>
      unfold estimatePart partText
      dsimp only
      cases (fields.lookup "text").getD (.str "") with
      | str text => simp
      | _ => rfl
  | _ => rfl

theorem estimateContent_eq (content : Json) :
    estimateContent content = ((countedIn content).map estimateTokens).sum := by
  cases content with
  | str text => simp [estimateContent, countedIn]
  | arr parts =>
      show (parts.map estimatePart).sum = ((parts.filterMap partText).map estimateTokens).sum
      induction parts with
      | nil => rfl
      | cons part parts ih =>
          rw [List.map_cons, List.sum_cons, ih, estimatePart_eq, List.filterMap_cons]
          cases partText part with
          | none | some => simp
  | _ => rfl

theorem estimateMessages_eq :
    estimateMessages messages = ((countedTexts messages).map estimateTokens).sum := by
  induction messages with
  | nil => rfl
  | cons msg messages ih =>
      unfold countedTexts at ih ⊢
      rw [estimateMessages_cons, ih, estimateContent_eq, List.flatMap_cons, List.map_append,
        List.sum_append]

theorem length_text_le {fields : List (String × Json)} {text : String}
    (h : fields.lookup "text" = some (.str text)) :
    text.length ≤ (contentTextFields fields).length := by
  induction fields with
  | nil => cases h
  | cons field fields ih =>
      obtain ⟨key, value⟩ := field
      rw [contentTextFields, List.length_append]
      by_cases hkey : key = "text"
      · subst hkey
        rw [List.lookup_cons_self] at h
        cases h
        rw [if_pos (.inl rfl), contentText, String.length_toList]
        exact Nat.le_add_right _ _
      · have hne : ("text" == key) = false := beq_eq_false_iff_ne.mpr (Ne.symm hkey)
        rw [List.lookup_cons, hne] at h
        exact (ih h).trans (Nat.le_add_left _ _)

theorem length_partText_le {part : Json} {text : String} (h : partText part = some text) :
    text.length ≤ (contentText part).length := by
  cases part with
  | obj fields =>
      unfold partText at h
      dsimp only at h
      cases hlookup : fields.lookup "text" with
      | none =>
          rw [hlookup] at h
          cases h
          exact Nat.zero_le _
      | some value =>
          rw [hlookup] at h
          cases value with
          | str said =>
              cases h
              rw [contentText]
              exact length_text_le hlookup
          | _ => cases h
  | _ => cases h

theorem length_countedIn_le (content : Json) :
    ((countedIn content).map String.length).sum ≤ (contentText content).length := by
  cases content with
  | str text => simp [countedIn, contentText, String.length_toList]
  | arr parts =>
      show ((parts.filterMap partText).map String.length).sum ≤ _
      rw [contentText]
      induction parts with
      | nil => exact Nat.zero_le _
      | cons part parts ih =>
          rw [contentTextParts, List.length_append, List.filterMap_cons]
          cases htext : partText part with
          | none => exact ih.trans (Nat.le_add_left _ _)
          | some text => exact Nat.add_le_add (length_partText_le htext) ih
  | _ => exact Nat.zero_le _

/-- **The text that is read is a part of all text.** -/
theorem length_countedTexts_le :
    ((countedTexts messages).map String.length).sum ≤ (allText messages).length := by
  induction messages with
  | nil => exact Nat.zero_le _
  | cons msg messages ih =>
      unfold countedTexts allText at ih ⊢
      rw [List.flatMap_cons, List.flatMap_cons, List.map_append, List.sum_append, List.length_append]
      exact Nat.add_le_add (length_countedIn_le msg.content) ih

end

/-! ## Rounding -/

theorem sum_tokensOf (texts : List String) :
    (texts.map estimateTokens).sum = (texts.map fun text => text.length / 4).sum +
      texts.countP fun text => 0 < text.length ∧ text.length < 4 := by
  induction texts with
  | nil => rfl
  | cons text texts ih =>
      rw [List.map_cons, List.sum_cons, ih, List.map_cons, List.sum_cons, List.countP_cons]
      unfold estimateTokens tokensOf
      simp only [decide_eq_true_eq]
      split_ifs <;> omega

theorem sum_lengths (texts : List String) :
    (texts.map String.length).sum = 4 * (texts.map fun text => text.length / 4).sum +
      (texts.map fun text => text.length % 4).sum := by
  induction texts with
  | nil => rfl
  | cons text texts ih =>
      rw [List.map_cons, List.sum_cons, ih, List.map_cons, List.sum_cons, List.map_cons,
        List.sum_cons]
      omega

theorem tokens_pos_iff (texts : List String) :
    0 < (texts.map estimateTokens).sum ↔ 0 < (texts.map String.length).sum := by
  induction texts with
  | nil => rfl
  | cons text texts ih =>
      have hone : 0 < estimateTokens text ↔ 0 < text.length := by
        unfold estimateTokens tokensOf
        split_ifs with hempty <;> omega
      rw [List.map_cons, List.sum_cons, List.map_cons, List.sum_cons]
      omega

theorem lengths_pos_iff (texts : List String) :
    0 < (texts.map String.length).sum ↔ ∃ text ∈ texts, 0 < text.length := by
  simp only [List.sum_pos_iff_exists_pos_nat, List.mem_map, exists_exists_and_eq_and]

/-- **The estimate sees all text** exactly where it covers what it does not read. -/
theorem seesAll_iff (messages : List Message) : SeesAll messages ↔ Covered messages := by
  have hle := length_countedTexts_le messages
  have htokens := tokens_pos_iff (countedTexts messages)
  rw [sum_tokensOf] at htokens
  have hlengths := sum_lengths (countedTexts messages)
  have hall : (allText messages).length =
      4 * ((countedTexts messages).map fun text => text.length / 4).sum +
        ((countedTexts messages).map fun text => text.length % 4).sum + uncounted messages := by
    unfold uncounted
    omega
  unfold SeesAll Covered
  rw [← lengths_pos_iff, estimateMessages_eq, sum_tokensOf, hall, tokensOf]
  rw [hlengths] at htokens ⊢
  clear hle hlengths hall
  revert htokens
  generalize ((countedTexts messages).map fun text => text.length / 4).sum = fours
  generalize ((countedTexts messages).map fun text => text.length % 4).sum = left
  generalize (countedTexts messages).countP _ = short
  generalize uncounted messages = other
  intro htokens
  split_ifs with hnone
  · omega
  · constructor
    · intro h
      omega
    · intro h
      omega

theorem estimateMessages_result (role toolUseId content : String) :
    estimateMessages [⟨role, .arr [(⟨toolUseId, content⟩ : ToolResult).toJson]⟩] = 0 := rfl

theorem seesAll_counterexample : ¬∀ messages : List Message, SeesAll messages := by
  intro h
  have hresult := h [⟨"user", .arr [(⟨"call", "mods"⟩ : ToolResult).toJson]⟩]
  unfold SeesAll at hresult
  rw [estimateMessages_result] at hresult
  exact absurd hresult (by decide)

end SkyClaw.Agent.TokenBudget
