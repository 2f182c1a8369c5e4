import SkyClaw.Agent.ChatContext
import SkyClaw.Lib.Checks
import SkyClaw.Lib.JsonLimits

/-!
# The history of a chat, stored and loaded

A text is stored as it is and a list of parts as JSON, in one column; `_load_context` takes for a list
what parses as one.  `loadContext_saved_iff` names the texts that do not come back.
-/

namespace SkyClaw.Agent.ChatHistory

open Chat
open Checks (mapM_eq_ok_iff)
open ChatContext (Row rowsOf loadMessage)
open JsonText (FloatText WellFormed LoadError Fits dumps loads loadsWithin)

section Saving

variable (F : FloatText) (depth : Nat)

/-- What the router saves: a text, or parts that `json.dumps` writes. -/
inductive SavedContent
  | text (text : String)
  | parts (parts : List Json) (wellFormed : WellFormed F (.arr parts))
      (fits : Fits depth (.arr parts))

structure SavedMessage where
  chatId : String
  role : String
  content : SavedContent F depth

variable {F depth}

/-- `_save_message` -/
def SavedMessage.row (msg : SavedMessage F depth) : Row :=
  ⟨msg.chatId, msg.role,
    match msg.content with
    | .text text => text
    | .parts parts _ _ => dumps F (.arr parts)⟩

def SavedMessage.message (msg : SavedMessage F depth) : Message :=
  ⟨msg.role,
    match msg.content with
    | .text text => .str text
    | .parts parts _ _ => .arr parts⟩

/-- The messages of a chat, in the order in which they are saved. -/
def savedOf (chatId : String) (saved : List (SavedMessage F depth)) :
    List (SavedMessage F depth) :=
  saved.filter (·.chatId = chatId)

end Saving

section Loading

variable (F : FloatText) (depth : Nat)

/-- A row as `_load_context` reads it; it catches a `JSONDecodeError` and nothing else that
`json.loads` raises. -/
def loadRow (row : Row) : Except LoadError Message :=
  match loadsWithin F depth row.content with
  | .ok (.arr parts) => .ok ⟨row.role, .arr parts⟩
  | .ok _ => .ok ⟨row.role, .str row.content⟩
  | .error .decode => .ok ⟨row.role, .str row.content⟩
  | .error e => .error e

/-- `ORDER BY id DESC LIMIT ?`, turned round; a negative limit is none. -/
def lastRows (limit : Int) (rows : List Row) : List Row :=
  if limit < 0 then rows else rows.drop (rows.length - limit.toNat)

def loadContext (limit : Int) (chatId : String) (rows : List Row) :
    Except LoadError (List Message) :=
  (lastRows limit (rowsOf chatId rows)).mapM (loadRow F depth)

/-- The text is not a list in JSON, and no limit of the interpreter is met where it is parsed. -/
structure StaysText (text : String) : Prop where
  noList : ∀ parts, loadsWithin F depth text ≠ .ok (.arr parts)
  digits : loadsWithin F depth text ≠ .error .intDigits
  brackets : loadsWithin F depth text ≠ .error .recursion

end Loading

variable {F : FloatText} {depth : Nat}

theorem loadRow_text_iff {row : Row} :
    loadRow F depth row = .ok ⟨row.role, .str row.content⟩ ↔ StaysText F depth row.content := by
  unfold loadRow
  constructor
  · intro h
    refine ⟨fun parts hparts => ?_, fun hdigits => ?_, fun hbrackets => ?_⟩
    · rw [hparts] at h
      cases h
    · rw [hdigits] at h
      cases h
    · rw [hbrackets] at h
      cases h
  · intro h
    cases hloads : loadsWithin F depth row.content with
    | ok value =>
        cases value with
        | arr parts => exact absurd hloads (h.noList parts)
        | _ => rfl
    | error e =>
        cases e with
        | decode => rfl
        | intDigits => exact absurd hloads h.digits
        | recursion => exact absurd hloads h.brackets

/-- **One message comes back**: a list always does. -/
theorem loadRow_row_iff (msg : SavedMessage F depth) :
    loadRow F depth msg.row = .ok msg.message ↔
      ∀ text, msg.content = .text text → StaysText F depth text := by
  obtain ⟨chatId, role, content⟩ := msg
  cases content with
  | text text =>
      have hrow : loadRow F depth ⟨chatId, role, text⟩ = .ok ⟨role, .str text⟩ ↔
          StaysText F depth text := loadRow_text_iff
      constructor
      · intro h text' htext
        cases htext
        exact hrow.mp h
      · exact fun h => hrow.mpr (h text rfl)
  | parts parts wellFormed fits =>
      refine iff_of_true ?_ fun text htext => by cases htext
      have hread := JsonText.loadsWithin_dumps wellFormed fits
      show loadRow F depth ⟨chatId, role, dumps F (.arr parts)⟩ = _
      unfold loadRow
      rw [hread]
      rfl

theorem rowsOf_map (chatId : String) (saved : List (SavedMessage F depth)) :
    rowsOf chatId (saved.map SavedMessage.row) = (savedOf chatId saved).map SavedMessage.row := by
  rw [rowsOf, savedOf, List.filter_map]
  rfl

/-- **The history comes back** exactly if each text of the chat does, whatever else is saved. -/
theorem loadContext_saved_iff (saved : List (SavedMessage F depth)) (chatId : String) {limit : Int}
    (hlimit : limit < 0 ∨ (savedOf chatId saved).length ≤ limit) :
    loadContext F depth limit chatId (saved.map SavedMessage.row) =
        .ok ((savedOf chatId saved).map SavedMessage.message) ↔
      ∀ msg ∈ savedOf chatId saved, ∀ text, msg.content = .text text → StaysText F depth text := by
  have hall : lastRows limit ((savedOf chatId saved).map SavedMessage.row) =
      (savedOf chatId saved).map SavedMessage.row := by
    unfold lastRows
    split_ifs with hneg
    · rfl
    · have henough := hlimit.resolve_left hneg
      rw [List.length_map, Nat.sub_eq_zero_of_le (by omega), List.drop_zero]
  unfold loadContext
  rw [rowsOf_map, hall, List.mapM_map, mapM_eq_ok_iff]
  exact forall₂_congr fun msg _ => loadRow_row_iff msg

/-- Two messages of a chat. -/
def greeting : List (SavedMessage .integral 900) :=
  [⟨"chat", "user", .text "hola"⟩, ⟨"other", "user", .text "[]"⟩, ⟨"chat", "assistant", .text "[hola"⟩]

theorem loadContext_saved_greeting :
    loadContext .integral 900 20 "chat" (greeting.map SavedMessage.row) =
        .ok ((savedOf "chat" greeting).map SavedMessage.message) ↔
      ∀ msg ∈ savedOf "chat" greeting, ∀ text, msg.content = .text text →
        StaysText .integral 900 text :=
  loadContext_saved_iff greeting "chat" (.inr (by decide))

/-- A text that is a list in JSON comes back as a list. -/
theorem loadContext_saved_counterexample :
    ¬∀ (saved : List (SavedMessage .integral 900)) (chatId : String) (limit : Int),
      (savedOf chatId saved).length ≤ limit →
        loadContext .integral 900 limit chatId (saved.map SavedMessage.row) =
          .ok ((savedOf chatId saved).map SavedMessage.message) := by
  intro h
  have hload := h [⟨"chat", "user", .text "[1]"⟩] "chat" 20 (by decide)
  have hkept := (loadContext_saved_iff _ "chat" (.inr (by decide))).mp hload ⟨"chat", "user", .text "[1]"⟩
    (by simp [savedOf]) "[1]" rfl
  exact hkept.noList [.int 1] rfl

end SkyClaw.Agent.ChatHistory
