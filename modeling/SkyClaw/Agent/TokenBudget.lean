import Mathlib.Algebra.Order.Field.Basic
import Mathlib.Data.Rat.Cast.Order
import SkyClaw.Agent.Messages
import SkyClaw.Lib.PySlice

/-!
# The token budget of a conversation

`TokenBudgetManager`: what it does with the messages before a call of the provider.  A summary takes
the place of older messages and is not measured against them: `enforces_iff`.

Percentages and estimates are computed over the rational numbers.
-/

namespace SkyClaw.Agent.TokenBudget

open Chat

structure TokenBudgetConfig where
  maxContextTokens : Int
  warningThresholdPct : ℚ
  criticalThresholdPct : ℚ
  messagesToPreserve : Int
  enableAutoSummarization : Bool

/-- `int(len(text) / _CHARS_PER_TOKEN)`, and one for a text that is shorter. -/
def tokensOf (length : Nat) : Nat := if length = 0 then 0 else max 1 (length / 4)

def estimateTokens (text : String) : Nat := tokensOf text.length

/-- The estimate of a part of a content. -/
def estimatePart : Json → Nat
  | .obj fields =>
      match (fields.lookup "text").getD (.str "") with
      | .str text => estimateTokens text
      | _ => 0
  | _ => 0

def estimateContent : Json → Nat
  | .str text => estimateTokens text
  | .arr parts => (parts.map estimatePart).sum
  | _ => 0

/-- `_estimate_messages_tokens` -/
def estimateMessages (messages : List Message) : Nat :=
  (messages.map fun msg => estimateContent msg.content).sum

inductive Action where
  | allow
  | summarize
  | truncate
  | reject
deriving DecidableEq, Repr

/-- A verdict; the percentage that is logged is left out. -/
structure BudgetVerdict where
  action : Action
  currentTokens : Nat
  maxTokens : Int
  messagesAffected : Int
deriving DecidableEq, Repr

variable (config : TokenBudgetConfig)

def utilization (current : Nat) : ℚ :=
  if 0 < config.maxContextTokens then current / config.maxContextTokens else 1

section

variable (messages : List Message)

def checkBudget : BudgetVerdict :=
  let current := estimateMessages messages
  let affected := max 0 ((messages.length : Int) - config.messagesToPreserve - 1)
  if 1 ≤ utilization config current then
    ⟨.reject, current, config.maxContextTokens, messages.length⟩
  else if config.criticalThresholdPct ≤ utilization config current then
    ⟨.truncate, current, config.maxContextTokens, affected⟩
  else if config.warningThresholdPct ≤ utilization config current then
    ⟨.summarize, current, config.maxContextTokens, affected⟩
  else ⟨.allow, current, config.maxContextTokens, 0⟩

def isSystem (msg : Message) : Bool := msg.role == "system"

def systemMsgs : List Message := messages.filter isSystem

def convMsgs : List Message := messages.filter fun msg => !isSystem msg

/-! ## Summaries -/

/-- `content[:200] + "..."`, for a content that is longer. -/
def preview : Json → List Char
  | .str text =>
      if 200 < text.length then text.toList.take 200 ++ "...".toList else text.toList
  | _ => "[multi-part content]".toList

def summaryPart (msg : Message) : List Char :=
  "[".toList ++ msg.role.toList ++ "]: ".toList ++ preview msg.content

def summaryHeader : List Char := "CONTEXT SUMMARY (auto-generated):\n".toList

def truncationMark : List Char := "\n... [summary truncated]".toList

/-- `int(max_context_tokens * _CHARS_PER_TOKEN * 0.15)` -/
def maxSummaryChars : Int := (config.maxContextTokens * 60).tdiv 100

def summaryText (older : List Message) : List Char :=
  let text := summaryHeader ++ List.intercalate ['\n'] (older.map summaryPart)
  if maxSummaryChars config < text.length then
    PySlice.before text (maxSummaryChars config) ++ truncationMark
  else text

def summaryMsg (older : List Message) : Message :=
  ⟨"system", .str (String.ofList (summaryText config older))⟩

/-- `conv_msgs[:-preserve_count]` -/
def olderMsgs : List Message :=
  PySlice.before (convMsgs messages) (-config.messagesToPreserve)

/-- `conv_msgs[-preserve_count:]` -/
def recentMsgs : List Message :=
  PySlice.after (convMsgs messages) (-config.messagesToPreserve)

def summarizeOlderMessages : List Message :=
  if config.enableAutoSummarization = false then messages
  else if (messages.length : Int) ≤ config.messagesToPreserve + 1 then messages
  else if ((convMsgs messages).length : Int) ≤ config.messagesToPreserve then messages
  else systemMsgs messages ++ summaryMsg config (olderMsgs config messages) ::
    recentMsgs config messages

def truncateOlderMessages : List Message :=
  systemMsgs messages ++
    if config.messagesToPreserve < (convMsgs messages).length then recentMsgs config messages
    else convMsgs messages

/-- The budget stage of a round of `chat`; a rejected conversation is not sent. -/
def budgetStage : Option (List Message) :=
  match (checkBudget config messages).action with
  | .reject => none
  | .truncate => some (truncateOlderMessages config messages)
  | .summarize => some (summarizeOlderMessages config messages)
  | .allow => some messages

/-- What is sent keeps to the budget, loses no message that is to be kept, and grows by nothing. -/
structure Kept (messages sent : List Message) : Prop where
  fits : (estimateMessages sent : Int) ≤ config.maxContextTokens
  system : (systemMsgs messages).Sublist sent
  preserved : (PySlice.last (convMsgs messages) config.messagesToPreserve).Sublist sent
  shrinks : estimateMessages sent ≤ estimateMessages messages

/-- **The stage enforces the budget.** -/
def Enforces : Prop :=
  ∀ sent, budgetStage config messages = some sent → Kept config messages sent

def previewLength : Json → Nat
  | .str text => if 200 < text.length then 203 else text.length
  | _ => 20

/-- The length of a summary: its header, a line for each message, and the ends of lines. -/
def summaryLength (older : List Message) : Nat :=
  34 + (older.map fun msg => msg.role.length + 4 + previewLength msg.content).sum +
    (older.length - 1)

/-- The length of a summary after the cut. -/
def cutLength (limit length : Nat) : Nat := if limit < length then limit + 24 else length

/-- The summary is written. -/
def Summarizes : Prop :=
  (checkBudget config messages).action = .summarize ∧ config.enableAutoSummarization = true ∧
    config.messagesToPreserve + 1 < messages.length ∧
      config.messagesToPreserve < (convMsgs messages).length

/-- A summary, if one is written, is estimated no higher than the messages that it replaces. -/
def Worthwhile : Prop :=
  Summarizes config messages →
    tokensOf (cutLength (maxSummaryChars config).toNat (summaryLength (olderMsgs config messages))) ≤
      estimateMessages (olderMsgs config messages)

/-! ## Estimates -/

theorem estimateMessages_cons (msg : Message) (messages : List Message) :
    estimateMessages (msg :: messages) = estimateContent msg.content + estimateMessages messages :=
  rfl

theorem estimateMessages_append (messages more : List Message) :
    estimateMessages (messages ++ more) = estimateMessages messages + estimateMessages more := by
  induction messages with
  | nil => exact (Nat.zero_add _).symm
  | cons msg messages ih =>
      rw [List.cons_append, estimateMessages_cons, estimateMessages_cons, ih, Nat.add_assoc]

theorem estimateMessages_split :
    estimateMessages (systemMsgs messages) + estimateMessages (convMsgs messages) =
      estimateMessages messages := by
  induction messages with
  | nil => rfl
  | cons msg messages ih =>
      unfold systemMsgs convMsgs at ih ⊢
      rw [estimateMessages_cons]
      cases hsystem : isSystem msg with
      | true =>
          rw [List.filter_cons_of_pos hsystem, List.filter_cons_of_neg (by simp [hsystem]),
            estimateMessages_cons]
          omega
      | false =>
          rw [List.filter_cons_of_neg (by simp [hsystem]), List.filter_cons_of_pos (by simp [hsystem]),
            estimateMessages_cons]
          omega

theorem estimateMessages_older_recent :
    estimateMessages (olderMsgs config messages) + estimateMessages (recentMsgs config messages) =
      estimateMessages (convMsgs messages) := by
  rw [← estimateMessages_append, olderMsgs, recentMsgs, PySlice.before_append_after]

end

variable {config}

theorem length_intercalate_newline (lines : List (List Char)) :
    (List.intercalate ['\n'] lines).length = (lines.map List.length).sum + (lines.length - 1) := by
  induction lines with
  | nil => rfl
  | cons line lines ih =>
      cases lines with
      | nil => simp [List.intercalate]
      | cons next lines =>
          have hcons : List.intercalate ['\n'] (line :: next :: lines) =
              line ++ ['\n'] ++ List.intercalate ['\n'] (next :: lines) := by
            simp [List.intercalate]
          rw [hcons, List.length_append, List.length_append, ih]
          simp only [List.length_cons, List.length_nil, List.map_cons, List.sum_cons]
          omega

theorem length_preview (content : Json) : (preview content).length = previewLength content := by
  cases content with
  | str text =>
      unfold preview previewLength
      by_cases hlong : 200 < text.length
      · simp only [if_pos hlong, List.length_append, List.length_take, String.length_toList]
        rw [Nat.min_eq_left hlong.le]
        rfl
      · simp only [if_neg hlong, String.length_toList]
  | _ => rfl

theorem length_summaryPart (msg : Message) :
    (summaryPart msg).length = msg.role.length + 4 + previewLength msg.content := by
  unfold summaryPart
  rw [List.length_append, List.length_append, List.length_append, length_preview,
    String.length_toList]
  show 1 + msg.role.length + 3 + _ = _
  omega

/-- **The length of a summary.** -/
theorem length_summaryText (hmax : 0 ≤ config.maxContextTokens) (older : List Message) :
    (summaryText config older).length =
      cutLength (maxSummaryChars config).toNat (summaryLength older) := by
  have htext : (summaryHeader ++ List.intercalate ['\n'] (older.map summaryPart)).length =
      summaryLength older := by
    rw [List.length_append, length_intercalate_newline, List.map_map, List.length_map]
    unfold summaryLength
    rw [show (List.length ∘ summaryPart) = fun msg : Message =>
      msg.role.length + 4 + previewLength msg.content from funext length_summaryPart]
    show 34 + _ = _
    omega
  have hlimit : 0 ≤ maxSummaryChars config := Int.tdiv_nonneg (by omega) (by decide)
  unfold summaryText cutLength
  simp only [htext]
  by_cases hlong : maxSummaryChars config < summaryLength older
  · rw [if_pos hlong, if_pos (by omega), List.length_append]
    have hbefore : (PySlice.before (summaryHeader ++
        List.intercalate ['\n'] (older.map summaryPart)) (maxSummaryChars config)).length =
        (maxSummaryChars config).toNat := by
      unfold PySlice.before PySlice.place
      rw [List.length_take, htext, if_neg (by omega)]
      omega
    rw [hbefore]
    rfl
  · rw [if_neg hlong, if_neg (by omega), htext]

theorem estimate_summaryMsg (hmax : 0 ≤ config.maxContextTokens) (older : List Message) :
    estimateContent (summaryMsg config older).content =
      tokensOf (cutLength (maxSummaryChars config).toNat (summaryLength older)) := by
  rw [← length_summaryText hmax]
  show tokensOf (String.ofList (summaryText config older)).length = _
  rw [String.length_ofList]

/-! ## The branches of the stage -/

theorem lt_of_not_rejected {messages : List Message}
    (h : (checkBudget config messages).action ≠ .reject) :
    (estimateMessages messages : Int) < config.maxContextTokens := by
  have hbelow : utilization config (estimateMessages messages) < 1 := by
    by_contra hfull
    refine h ?_
    unfold checkBudget
    simp only [if_pos (not_lt.mp hfull)]
  unfold utilization at hbelow
  split_ifs at hbelow with hpos
  · have hmax : (0 : ℚ) < config.maxContextTokens := by exact_mod_cast hpos
    rw [div_lt_one hmax] at hbelow
    exact_mod_cast hbelow
  · exact absurd hbelow (lt_irrefl 1)

theorem last_sublist_recent (messages : List Message) :
    (PySlice.last (convMsgs messages) config.messagesToPreserve).Sublist
      (recentMsgs config messages) := PySlice.last_sublist_after _ _

theorem kept_self {messages : List Message}
    (h : (estimateMessages messages : Int) < config.maxContextTokens) :
    Kept config messages messages where
  fits := h.le
  system := List.filter_sublist
  preserved := (List.drop_sublist _ _).trans List.filter_sublist
  shrinks := le_rfl

theorem kept_truncate {messages : List Message}
    (h : (estimateMessages messages : Int) < config.maxContextTokens) :
    Kept config messages (truncateOlderMessages config messages) := by
  have hsplit := estimateMessages_split messages
  have hconv := estimateMessages_older_recent config messages
  have hle : estimateMessages (truncateOlderMessages config messages) ≤
      estimateMessages messages := by
    unfold truncateOlderMessages
    rw [estimateMessages_append]
    split_ifs
    · omega
    · omega
  refine ⟨by omega, List.sublist_append_left _ _, ?_, hle⟩
  unfold truncateOlderMessages
  refine List.Sublist.trans ?_ (List.sublist_append_right _ _)
  split_ifs
  · exact last_sublist_recent messages
  · exact List.drop_sublist _ _

theorem kept_summary_iff {messages : List Message}
    (h : (estimateMessages messages : Int) < config.maxContextTokens) :
    Kept config messages (systemMsgs messages ++ summaryMsg config (olderMsgs config messages) ::
        recentMsgs config messages) ↔
      tokensOf (cutLength (maxSummaryChars config).toNat
        (summaryLength (olderMsgs config messages))) ≤
          estimateMessages (olderMsgs config messages) := by
  have hsplit := estimateMessages_split messages
  have hconv := estimateMessages_older_recent config messages
  have hmax : 0 ≤ config.maxContextTokens := by omega
  have hsent : estimateMessages (systemMsgs messages ++
      summaryMsg config (olderMsgs config messages) :: recentMsgs config messages) =
        estimateMessages (systemMsgs messages) + (tokensOf (cutLength (maxSummaryChars config).toNat
          (summaryLength (olderMsgs config messages))) +
            estimateMessages (recentMsgs config messages)) := by
    rw [estimateMessages_append, estimateMessages_cons, estimate_summaryMsg hmax]
  constructor
  · intro hkept
    have hle := hkept.shrinks
    rw [hsent] at hle
    omega
  · intro hle
    refine ⟨?_, List.sublist_append_left _ _, ?_, ?_⟩
    · rw [hsent]
      omega
    · exact ((last_sublist_recent messages).cons _).trans (List.sublist_append_right _ _)
    · rw [hsent]
      omega

theorem summarize_of_summarizes {messages : List Message} (h : Summarizes config messages) :
    summarizeOlderMessages config messages = systemMsgs messages ++
      summaryMsg config (olderMsgs config messages) :: recentMsgs config messages := by
  obtain ⟨_, henabled, hlength, hconv⟩ := h
  unfold summarizeOlderMessages
  rw [if_neg (by simp [henabled]), if_neg (by omega), if_neg (by omega)]

theorem summarize_of_not_summarizes {messages : List Message}
    (haction : (checkBudget config messages).action = .summarize)
    (h : ¬ Summarizes config messages) : summarizeOlderMessages config messages = messages := by
  unfold summarizeOlderMessages
  split_ifs with hdisabled hlength hconv
  · rfl
  · rfl
  · rfl
  · refine absurd ⟨haction, ?_, by omega, by omega⟩ h
    simpa using hdisabled

/-- **The budget is enforced** exactly when a summary is no higher than what it replaces. -/
theorem enforces_iff (config : TokenBudgetConfig) (messages : List Message) :
    Enforces config messages ↔ Worthwhile config messages := by
  have hrun : ∀ sent, (checkBudget config messages).action ≠ .reject →
      budgetStage config messages = some sent →
        (Enforces config messages ↔ Kept config messages sent) := by
    intro sent _ hsent
    constructor
    · exact fun h => h sent hsent
    · rintro hkept sent' hsent'
      obtain rfl := Option.some.inj (hsent.symm.trans hsent')
      exact hkept
  cases haction : (checkBudget config messages).action with
  | reject =>
      refine iff_of_true ?_ ?_
      · intro sent hsent
        rw [budgetStage, haction] at hsent
        cases hsent
      · rintro ⟨hsummarize, _⟩
        rw [haction] at hsummarize
        cases hsummarize
  | allow =>
      have hne : (checkBudget config messages).action ≠ .reject := by simp [haction]
      rw [hrun messages hne (by rw [budgetStage, haction])]
      refine iff_of_true (kept_self (lt_of_not_rejected hne)) ?_
      rintro ⟨hsummarize, _⟩
      rw [haction] at hsummarize
      cases hsummarize
  | truncate =>
      have hne : (checkBudget config messages).action ≠ .reject := by simp [haction]
      rw [hrun _ hne (by rw [budgetStage, haction])]
      refine iff_of_true (kept_truncate (lt_of_not_rejected hne)) ?_
      rintro ⟨hsummarize, _⟩
      rw [haction] at hsummarize
      cases hsummarize
  | summarize =>
      have hne : (checkBudget config messages).action ≠ .reject := by simp [haction]
      rw [hrun _ hne (by rw [budgetStage, haction])]
      by_cases hwritten : Summarizes config messages
      · rw [summarize_of_summarizes hwritten, kept_summary_iff (lt_of_not_rejected hne)]
        exact ⟨fun h _ => h, fun h => h hwritten⟩
      · rw [summarize_of_not_summarizes haction hwritten]
        exact iff_of_true (kept_self (lt_of_not_rejected hne)) fun h => absurd h hwritten

/-- Two results of tools, which count for nothing, before a long message. -/
def toolTurn : List Message :=
  [⟨"user", .arr [.obj [("type", .str "tool_result")]]⟩,
    ⟨"user", .arr [.obj [("type", .str "tool_result")]]⟩,
    ⟨"user", .str (String.ofList (List.replicate 120 'a'))⟩]

def smallBudget : TokenBudgetConfig := ⟨40, 3 / 4, 9 / 10, 1, true⟩

/-- The summary takes a conversation of 30 tokens over a limit of 40. -/
theorem enforces_counterexample :
    (estimateMessages (systemMsgs toolTurn) +
        estimateMessages (PySlice.last (convMsgs toolTurn) smallBudget.messagesToPreserve) : Int) ≤
      smallBudget.maxContextTokens ∧
    ¬ Enforces smallBudget toolTurn ∧
      ∃ sent, budgetStage smallBudget toolTurn = some sent ∧
        smallBudget.maxContextTokens < estimateMessages sent := by
  have haction : (checkBudget smallBudget toolTurn).action = .summarize := by decide +kernel
  have hstage : budgetStage smallBudget toolTurn =
      some (summarizeOlderMessages smallBudget toolTurn) := by
    rw [budgetStage, haction]
  have hover : smallBudget.maxContextTokens <
      estimateMessages (summarizeOlderMessages smallBudget toolTurn) := by decide +kernel
  refine ⟨by decide +kernel, ?_, _, hstage, hover⟩
  intro h
  have hfits := (h _ hstage).fits
  omega

end SkyClaw.Agent.TokenBudget
