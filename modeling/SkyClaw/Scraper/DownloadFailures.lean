import SkyClaw.Lib.SubText
import SkyClaw.Scraper.NexusDownloader

/-!
# Downloads that fail

An attempt of `download`, chunk by chunk, with the exception that ends it.
`verdictKept_iff` says when the retry loop decides on the error that reaches it as on the one that was
raised first, `leavesNothing_iff` when a call that raises leaves no file.
-/

namespace SkyClaw.Scraper

/-! ## An attempt -/

/-- What the transfer raises, with its text. -/
inductive Raised
  /-- `aiohttp.ClientConnectionError` -/
  | connection (text : String)
  /-- `aiohttp.ClientResponseError` -/
  | response (status : Nat) (text : String)
  /-- another `aiohttp.ClientError` -/
  | client (text : String)
  /-- a `TimeoutError` or an `OSError` -/
  | os (text : String)
  /-- what no `except` clause is for, such as `CancelledError` -/
  | other
deriving DecidableEq

/-- The exception, as `_should_retry_nexus` sees it. -/
def Raised.error : Raised → NexusError
  | connection _ | os _ => .connection
  | response status _ => .response status
  | client _ | other => .other

/-- The text of an `aiohttp.ClientError`. -/
def Raised.clientText : Raised → Option String
  | connection text | response _ text | client text => some text
  | os _ | other => none

/-- What comes of it in the `except` clauses. -/
def Raised.transfer (written : Option (List UInt8)) : Raised → Transfer (List UInt8)
  | connection text | response _ text | client text => .failed written true text
  | os text => .failed written false text
  | other => .interrupted written

/-- What an attempt meets. -/
structure Stream where
  /-- raised before the `try` -/
  refused : Option NexusError
  /-- raised before the file is open -/
  request : Option Raised
  /-- the chunks that are written, with their calls of `progress_cb` -/
  chunks : List (List UInt8)
  /-- raised by the next chunk, its write, its callback, the `sleep` or a `close`, with what is
  written of that chunk -/
  breaks : Option (Raised × List UInt8)
  /-- `_cleanup` can remove the file -/
  cleans : Bool

inductive StreamEnd
  | refused (error : NexusError)
  | raised (written : Option (List UInt8)) (raised : Raised)
  | completed (content : List UInt8)

def Stream.end' (s : Stream) : StreamEnd :=
  match s.refused, s.request, s.breaks with
  | some error, _, _ => .refused error
  | none, some raised, _ => .raised none raised
  | none, none, some (raised, part) => .raised (some (s.chunks.flatten ++ part)) raised
  | none, none, none => .completed s.chunks.flatten

def Stream.attempt (s : Stream) : TransferAttempt (List UInt8) where
  transfer :=
    match s.end' with
    | .refused error => .refused error
    | .raised written raised => raised.transfer written
    | .completed content => .completed content
  cleans := s.cleans

variable (lib : Library (List UInt8)) (info : FileInfo)

/-- How an attempt ends before an `except` clause has seen it. -/
def Stream.original (s : Stream) : Except NexusError Unit :=
  match s.end' with
  | .refused error => .error error
  | .raised _ raised => .error raised.error
  | .completed content => validateHashes lib info content

/-- **The verdict is kept**: the error that an attempt raises is retried just if the original one is. -/
def VerdictKept (s : Stream) : Prop :=
  ∀ left error, (attemptDownload lib info (fun _ => s.attempt) 0 left).2 = .error error →
    ∃ original, s.original lib info = .error original ∧
      shouldRetryNexus error = shouldRetryNexus original

theorem contains_iff {part text : List Char} : contains part text = true ↔ part <:+: text := by
  induction text with
  | nil => simp [contains]
  | cons c rest ih =>
      rw [contains, Bool.or_eq_true, List.isPrefixOf_iff_prefix, ih, List.infix_cons_iff]

theorem toLower_eq (s : String) : s.toLower = s.map Char.toLower := rfl

/-- The parts that are looked for have no blank and no colon. -/
theorem temporary_append {c : Char} (hc : c = ' ' ∨ c = ':') (left right : String) :
    temporary (left ++ String.singleton c ++ right) = (temporary left || temporary right) := by
  have hparts : ∀ part ∈ ["429", "502", "503", "timeout"], c ∉ part.toList := by
    rcases hc with rfl | rfl <;> decide
  rw [Bool.eq_iff_iff, Bool.or_eq_true]
  simp only [temporary, List.any_eq_true, contains_iff, ← exists_or, ← and_or_left]
  refine exists_congr fun part => and_congr_right fun hpart => ?_
  have htext : (left ++ String.singleton c ++ right).toLower.toList =
      left.toLower.toList ++ c :: right.toLower.toList := by
    rcases hc with rfl | rfl <;> simp [toLower_eq]
  rw [htext]
  exact SubText.infix_append_cons (hparts part hpart)

theorem temporary_eq (message : String) : temporary message =
    ["429", "502", "503", "timeout"].any fun part =>
      contains part.toList (message.toList.map Char.toLower) := by
  simp [temporary, toLower_eq]

/-- The message of a wrapped error. -/
theorem temporary_message (front name text : String) :
    temporary (front ++ " " ++ name ++ ": " ++ text) =
      (temporary front || (temporary name || temporary text)) := by
  have hmessage : front ++ " " ++ name ++ ": " ++ text = front ++ String.singleton ' ' ++
      (name ++ String.singleton ':' ++ ("" ++ String.singleton ' ' ++ text)) := by
    simp [String.append_assoc, ← String.toList_inj]
  have hempty : temporary "" = false := by
    rw [temporary_eq]
    decide
  rw [hmessage, temporary_append (.inl rfl), temporary_append (.inr rfl), temporary_append (.inl rfl),
    hempty, Bool.false_or]

/-! ## Verdicts -/

variable {lib info} {s : Stream} {left : Option (List UInt8)}

theorem temporary_client (name text : String) :
    temporary ("Download failed for " ++ name ++ ": " ++ text) =
      (temporary name || temporary text) := by
  have hfront : temporary "Download failed for" = false := by
    rw [temporary_eq]
    decide
  rw [show "Download failed for " = "Download failed for" ++ " " from rfl, temporary_message, hfront,
    Bool.false_or]

theorem temporary_os (name text : String) :
    temporary ("I/O or timeout error for " ++ name ++ ": " ++ text) = true := by
  have hfront : temporary "I/O or timeout error for" = true := by
    rw [temporary_eq]
    decide
  rw [show "I/O or timeout error for " = "I/O or timeout error for" ++ " " from rfl, temporary_message,
    hfront, Bool.true_or]

/-- **The verdict on what reaches the loop**: for a `ClientError` it is up to the texts. -/
theorem verdict_raised {written : Option (List UInt8)} {raised : Raised}
    (h : s.end' = .raised written raised) :
    ∃ error, (attemptDownload lib info (fun _ => s.attempt) 0 left).2 = .error error ∧
      shouldRetryNexus error = (raised.clientText.map fun text =>
        temporary (lib.repr info.fileName) || temporary text).getD (shouldRetryNexus raised.error) := by
  unfold attemptDownload Stream.attempt
  dsimp only
  rw [h]
  cases raised with
  | connection text | response status text | client text =>
      exact ⟨_, rfl, temporary_client _ _⟩
  | os text => exact ⟨_, rfl, temporary_os _ _⟩
  | other => exact ⟨_, rfl, rfl⟩

/-- Nothing else is wrapped. -/
theorem attemptDownload_of_not_raised (h : ∀ written raised, s.end' ≠ .raised written raised) :
    (attemptDownload lib info (fun _ => s.attempt) 0 left).2 = s.original lib info := by
  unfold attemptDownload Stream.attempt Stream.original
  dsimp only
  cases hend : s.end' with
  | refused error => rfl
  | raised written raised => exact absurd hend (h written raised)
  | completed content =>
      dsimp only
      cases validateHashes lib info content <;> rfl

/-- **Exactly when the verdict is kept**: the name or the text of a `ClientError` has one of the four
parts just if the error is retried. -/
theorem verdictKept_iff (lib : Library (List UInt8)) (info : FileInfo) (s : Stream) :
    VerdictKept lib info s ↔ ∀ written raised text, s.end' = .raised written raised →
      raised.clientText = some text →
        ((temporary (lib.repr info.fileName) || temporary text) = true ↔
          shouldRetryNexus raised.error = true) := by
  constructor
  · intro h written raised text hend htext
    obtain ⟨error, herror, hverdict⟩ := @verdict_raised lib info s none written raised hend
    obtain ⟨original, horiginal, hkept⟩ := h none error herror
    have hraised : s.original lib info = .error raised.error := by
      rw [Stream.original, hend]
    cases horiginal.symm.trans hraised
    rw [htext] at hverdict
    rw [← hkept, hverdict]
    rfl
  · intro h left error herror
    cases hend : s.end' with
    | raised written raised =>
        obtain ⟨reaching, hreaching, hverdict⟩ := @verdict_raised lib info s left written raised hend
        cases herror.symm.trans hreaching
        refine ⟨raised.error, by rw [Stream.original, hend], hverdict.trans ?_⟩
        cases htext : raised.clientText with
        | none => rfl
        | some text => exact Bool.eq_iff_iff.mpr (h written raised text hend htext)
    | refused _ | completed _ =>
        refine ⟨error, ?_, rfl⟩
        rw [← herror, attemptDownload_of_not_raised]
        intro written raised
        rw [hend]
        exact StreamEnd.noConfusion

def sampleLibrary : Library (List UInt8) where
  pathName := id
  repr s := "'" ++ s ++ "'"
  megabytes := toString
  -- of the empty content
  md5 _ := "d41d8cd98f00b204e9800998ecf8427e"
  sha256 _ := "e3b0c44298fc1c149afbf4c8996fb92427ae41e4649b934ca495991b7852b855"
  size content := content.length

def sampleInfo : FileInfo where
  nexusId := 1
  fileId := 2
  fileName := "mod.7z"
  sizeBytes := 3
  md5 := ""
  sha256 := ""
  downloadUrl := "https://cdn.example.com/mod.7z"

/-- A connection that is reset is not retried, though `ClientConnectionError` is listed. -/
theorem not_verdictKept_reset : ¬ VerdictKept sampleLibrary sampleInfo
    ⟨none, some (.connection "Connection reset by peer"), [], none, true⟩ := by
  intro h
  obtain ⟨error, herror, hverdict⟩ := @verdict_raised sampleLibrary sampleInfo
    ⟨none, some (.connection "Connection reset by peer"), [], none, true⟩ none none _ rfl
  obtain ⟨original, horiginal, hkept⟩ := h none error herror
  cases horiginal
  have hname : temporary ("'" ++ "mod.7z" ++ "'") = false := by
    rw [temporary_eq]
    decide
  have htext : temporary "Connection reset by peer" = false := by
    rw [temporary_eq]
    decide
  have hlost : shouldRetryNexus error = false :=
    hverdict.trans (show (temporary ("'" ++ "mod.7z" ++ "'") || temporary _) = false by rw [hname, htext]; rfl)
  rw [hlost] at hkept
  exact Bool.false_ne_true hkept

/-! ## What a call leaves -/

/-- The attempt fails with the file on the disk: no clause is for its exception, or the clean-up fails. -/
def Stream.Leaves (s : Stream) : Prop :=
  match s.end' with
  | .refused _ => False
  | .raised written raised => written ≠ none ∧ (raised = .other ∨ s.cleans = false)
  | .completed _ => s.cleans = false

/-- The attempt fails and removes the file. -/
def Stream.Clears (s : Stream) : Prop :=
  match s.end' with
  | .refused _ => False
  | .raised _ raised => raised ≠ .other ∧ s.cleans = true
  | .completed _ => s.cleans = true

/-- What a `download` meets. -/
structure DownloadCall where
  joins : Bool
  streams : Nat → Stream
  polls : Nat → Poll (List UInt8)

def DownloadCall.answers (call : DownloadCall) : DownloadAnswers (List UInt8) where
  joins := call.joins
  transfers i := (call.streams i).attempt
  polls := call.polls

variable (lib info)

/-- **A call that raises leaves nothing.** -/
def LeavesNothing (call : DownloadCall) : Prop :=
  ∀ left error, download lib info call.answers = (left, .error error) → left = none

/-- The attempt raises what is retried. -/
def Stream.retried (s : Stream) : Bool :=
  match s.end' with
  | .refused error => shouldRetryNexus error
  | .raised _ raised =>
      (raised.clientText.map fun text => temporary (lib.repr info.fileName) || temporary text).getD
        (shouldRetryNexus raised.error)
  | .completed content =>
      match validateHashes lib info content with
      | .ok () => false
      | .error error => shouldRetryNexus error

/-- The call raises in this attempt. -/
structure RaisesAt (streams : Nat → Stream) (last : Nat) : Prop where
  le : last ≤ furtherAttempts
  before : ∀ k < last, (streams k).retried lib info = true
  raises : ∃ error, (streams last).original lib info = .error error
  ends : last = furtherAttempts ∨ (streams last).retried lib info = false

/-- The poll goes on to the next one. -/
def PollsOn (poll : Poll (List UInt8)) : Prop :=
  poll.raises = false ∧ poll.inStaging lib info = none ∧
    (poll.tries lib info = true → poll.copies = false)

/-- The manual fallback raises, after this many polls. -/
structure PollsOut (polls : Nat → Poll (List UInt8)) (last : Nat) : Prop where
  le : last ≤ furtherPolls
  before : ∀ k < last, PollsOn lib info (polls k)
  ends : last = furtherPolls ∨ (polls last).raises = true

variable {lib info}

/-- **Spec of a failed attempt.** -/
theorem eq_none_of_attempt {t : Option (List UInt8)} {error : NexusError}
    (h : attemptDownload lib info (fun _ => s.attempt) 0 left = (t, .error error)) :
    t = none ↔ ¬ s.Leaves ∧ (s.Clears ∨ left = none) := by
  unfold attemptDownload Stream.attempt at h
  unfold Stream.Leaves Stream.Clears
  dsimp only at h
  cases hend : s.end' with
  | refused refused =>
      rw [hend] at h
      cases h
      simp
  | raised written raised =>
      rw [hend] at h
      cases raised <;> cases hcleans : s.cleans <;> cases written <;>
        (rw [hcleans] at h; cases h; simp [cleanup])
  | completed content =>
      rw [hend] at h
      dsimp only at h
      cases hvalid : validateHashes lib info content with
      | ok _ =>
          rw [hvalid] at h
          cases h
      | error refused =>
          rw [hvalid] at h
          cases h
          cases hcleans : s.cleans <;> simp [cleanup]

/-- **Spec of how an attempt ends.** -/
theorem ends_of_attempt {result : Except NexusError Unit}
    (h : (attemptDownload lib info (fun _ => s.attempt) 0 left).2 = result) :
    match result with
    | .ok () => s.original lib info = .ok () ∧ s.retried lib info = false
    | .error error => (∃ original, s.original lib info = .error original) ∧
        s.retried lib info = shouldRetryNexus error := by
  cases hend : s.end' with
  | raised written raised =>
      obtain ⟨error, herror, hverdict⟩ := @verdict_raised lib info s left written raised hend
      cases h.symm.trans herror
      refine ⟨⟨raised.error, by rw [Stream.original, hend]⟩, ?_⟩
      rw [Stream.retried, hend]
      exact hverdict.symm
  | refused error =>
      rw [attemptDownload_of_not_raised (by rw [hend]; exact fun _ _ => StreamEnd.noConfusion),
        Stream.original, hend] at h
      cases h
      exact ⟨⟨error, by rw [Stream.original, hend]⟩, by rw [Stream.retried, hend]⟩
  | completed content =>
      rw [attemptDownload_of_not_raised (by rw [hend]; exact fun _ _ => StreamEnd.noConfusion),
        Stream.original, hend] at h
      unfold Stream.original Stream.retried
      rw [hend]
      dsimp only at h ⊢
      rw [h]
      cases result with
      | ok _ => exact ⟨rfl, rfl⟩
      | error error => exact ⟨⟨error, rfl⟩, rfl⟩

/-! ## The attempts -/

/-- Nothing is left before an attempt. -/
def EmptyBefore (streams : Nat → Stream) : Nat → Prop
  | 0 => True
  | i + 1 => ¬ (streams i).Leaves ∧ ((streams i).Clears ∨ EmptyBefore streams i)

variable {streams : Nat → Stream} {i last : Nat}

theorem emptyBefore_iff : EmptyBefore streams i ↔
    ∀ k < i, (streams k).Leaves → ∃ m, k < m ∧ m < i ∧ (streams m).Clears := by
  induction i with
  | zero => exact iff_of_true trivial fun k hk => absurd hk k.not_lt_zero
  | succ i ih =>
      rw [EmptyBefore, ih]
      constructor
      · rintro ⟨hlast, hbefore⟩ k hk hleaves
        rcases Nat.lt_succ_iff_lt_or_eq.mp hk with hlt | rfl
        · rcases hbefore with hclears | hbefore
          · exact ⟨i, hlt, i.lt_succ_self, hclears⟩
          · obtain ⟨m, hkm, hmi, hclears⟩ := hbefore k hlt hleaves
            exact ⟨m, hkm, Nat.lt_succ_of_lt hmi, hclears⟩
        · exact absurd hleaves hlast
      · intro h
        constructor
        · intro hleaves
          obtain ⟨m, him, hmi, -⟩ := h i i.lt_succ_self hleaves
          omega
        · by_cases hclears : (streams i).Clears
          · exact .inl hclears
          · refine .inr fun k hk hleaves => ?_
            obtain ⟨m, hkm, hmi, hclears'⟩ := h k (Nat.lt_succ_of_lt hk) hleaves
            rcases Nat.lt_succ_iff_lt_or_eq.mp hmi with hlt | rfl
            · exact ⟨m, hkm, hlt, hclears'⟩
            · exact absurd hclears' hclears

/-- The call does not raise before an attempt that it comes to. -/
theorem RaisesAt.le_last (h : RaisesAt lib info streams last) (hi : i ≤ furtherAttempts)
    (hretried : ∀ k < i, (streams k).retried lib info = true) : i ≤ last := by
  by_contra hlt
  have hends := h.ends.resolve_left (by omega)
  exact Bool.false_ne_true (hends.symm.trans (hretried last (Nat.lt_of_not_le hlt)))

variable {n : Nat}

/-- The call raises in the attempt that is not retried, and in no other one. -/
theorem raisesAt_iff (hn : i + n = furtherAttempts)
    (hretried : ∀ k < i, (streams k).retried lib info = true)
    (hfails : ∃ error, (streams i).original lib info = .error error)
    (hstop : n = 0 ∨ (streams i).retried lib info = false) :
    RaisesAt lib info streams last ↔ last = i := by
  constructor
  · intro h
    rcases (h.le_last (by omega) hretried).lt_or_eq with hlt | heq
    · have hle := h.le
      have hagain := h.before i hlt
      rw [hstop.resolve_left (by omega)] at hagain
      exact absurd hagain Bool.false_ne_true
    · exact heq.symm
  · rintro rfl
    exact ⟨by omega, hretried, hfails, hstop.imp_left (by omega)⟩

/-- **Rule for the retry loop**, from an attempt on. -/
theorem run_eq_none_iff (hn : i + n = furtherAttempts)
    (hretried : ∀ k < i, (streams k).retried lib info = true)
    (hleft : left = none ↔ EmptyBefore streams i) :
    (∀ t error, Retry.run shouldRetryNexus
        (attemptDownload lib info fun i => (streams i).attempt) n i left = (t, .error error) → t = none) ↔
      ∀ last, RaisesAt lib info streams last → EmptyBefore streams (last + 1) := by
  -- on the number of attempts that are left
  induction n using Nat.strong_induction_on generalizing i left with
  | _ n ih =>
      cases hattempt : attemptDownload lib info (fun i => (streams i).attempt) i left with
      | mk t result =>
          have hends := ends_of_attempt (s := streams i) (congrArg Prod.snd hattempt)
          cases result with
          | ok =>
              rw [Retry.run_of_ok hattempt]
              refine iff_of_true (fun _ _ heq => nomatch heq) fun last hraises => ?_
              rcases (hraises.le_last (by omega) hretried).lt_or_eq with hlt | rfl
              · exact absurd (hends.2.symm.trans (hraises.before i hlt)) Bool.false_ne_true
              · obtain ⟨error, herror⟩ := hraises.raises
                cases herror.symm.trans hends.1
          | error error =>
              have hnone : t = none ↔ EmptyBefore streams (i + 1) := by
                rw [eq_none_of_attempt hattempt, hleft, EmptyBefore]
              by_cases hstop : n = 0 ∨ shouldRetryNexus error = false
              · rw [Retry.run_of_last hattempt hstop]
                have hlast := fun last => @raisesAt_iff _ _ _ _ last _ hn hretried hends.1
                  (hstop.imp_right hends.2.trans)
                constructor
                · intro h last hraises
                  rw [(hlast last).mp hraises]
                  exact hnone.mp (h t error rfl)
                · intro h t' error' heq
                  cases heq
                  exact hnone.mpr (h i ((hlast i).mpr rfl))
              · obtain ⟨hpos, hagain⟩ := not_or.mp hstop
                obtain ⟨m, rfl⟩ := Nat.exists_eq_succ_of_ne_zero hpos
                have hretry : shouldRetryNexus error = true := eq_true_of_ne_false hagain
                rw [Retry.run_of_again hattempt hretry]
                refine ih m m.lt_succ_self (by omega) (fun k hk => ?_) hnone
                rcases Nat.lt_succ_iff_lt_or_eq.mp hk with hlt | rfl
                · exact hretried k hlt
                · exact hends.2.trans hretry

/-! ## The manual fallback -/

variable {polls : Nat → Poll (List UInt8)}

theorem PollsOut.le_last (h : PollsOut lib info polls last) (hi : i ≤ furtherPolls)
    (hon : ∀ k < i, PollsOn lib info (polls k)) : i ≤ last := by
  by_contra hlt
  have hraises := h.ends.resolve_left (by omega)
  exact Bool.false_ne_true ((hon last (Nat.lt_of_not_le hlt)).1.symm.trans hraises)

/-- The call raises in front of the poll, and nowhere else. -/
theorem pollsOut_iff (hi : i ≤ furtherPolls) (hon : ∀ k < i, PollsOn lib info (polls k))
    (hend : i = furtherPolls ∨ (polls i).raises = true) :
    PollsOut lib info polls last ↔ last = i := by
  constructor
  · intro h
    rcases (h.le_last hi hon).lt_or_eq with hlt | heq
    · have hle := h.le
      have hraises := hend.resolve_left (by omega)
      exact absurd ((h.before i hlt).1.symm.trans hraises) Bool.false_ne_true
    · exact heq.symm
  · rintro rfl
    exact ⟨hi, hon, hend⟩

/-- A poll that does not raise is the last one only if it ends the call well. -/
theorem PollsOut.pollsOn (h : PollsOut lib info polls last) (hi : i < furtherPolls)
    (hon : ∀ k < i, PollsOn lib info (polls k)) (hraises : (polls i).raises = false) :
    PollsOn lib info (polls i) := by
  rcases (h.le_last hi.le hon).lt_or_eq with hlt | rfl
  · exact h.before i hlt
  · rcases h.ends with heq | hraises'
    · omega
    · exact absurd (hraises.symm.trans hraises') Bool.false_ne_true

/-- **Rule for the polls**, from one on. -/
theorem manualFallback_eq_none_iff (hn : i + n = furtherPolls)
    (hon : ∀ k < i, PollsOn lib info (polls k))
    (hleft : left = none ↔ ∀ k < i, (polls k).tries lib info = true → (polls k).copied = none) :
    (∀ t error, manualFallback lib info polls n i left = (t, .error error) → t = none) ↔
      ∀ last, PollsOut lib info polls last →
        ∀ k < last, (polls k).tries lib info = true → (polls k).copied = none := by
  induction n generalizing i left with
  | zero =>
      have hlast := fun last => @pollsOut_iff _ _ _ last _ hn.le hon (.inl hn)
      constructor
      · intro h last hout
        rw [(hlast last).mp hout]
        exact hleft.mp (h left _ rfl)
      · intro h t error heq
        cases heq
        exact hleft.mpr (h i ((hlast i).mpr rfl))
  | succ n ih =>
      rw [manualFallback]
      cases hraises : (polls i).raises with
      | true =>
          have hlast := fun last => @pollsOut_iff _ _ _ last _ (by omega) hon (.inr hraises)
          constructor
          · intro h last hout
            rw [(hlast last).mp hout]
            exact hleft.mp (h left _ rfl)
          · intro h t error heq
            cases heq
            exact hleft.mpr (h i ((hlast i).mpr rfl))
      | false =>
          have hpolls : ∀ {last}, PollsOut lib info polls last → PollsOn lib info (polls i) :=
            fun hout => hout.pollsOn (by omega) hon hraises
          have hagain : PollsOn lib info (polls i) → ∀ k < i + 1, PollsOn lib info (polls k) :=
            fun hpoll => Nat.forall_lt_succ_right.mpr ⟨hon, hpoll⟩
          simp only [Bool.false_eq_true, if_false]
          cases hstaging : (polls i).inStaging lib info with
          | some content =>
              refine iff_of_true (fun _ _ heq => nomatch heq) fun last hout => ?_
              cases hstaging.symm.trans (hpolls hout).2.1
          | none =>
              cases htries : (polls i).tries lib info with
              | false =>
                  simp only [Bool.false_eq_true, if_false]
                  refine ih (by omega) (hagain ⟨hraises, hstaging, fun h => ?_⟩) ?_
                  · exact absurd (htries.symm.trans h) Bool.false_ne_true
                  · rw [hleft, Nat.forall_lt_succ_right, htries]
                    simp
              | true =>
                  cases hcopies : (polls i).copies with
                  | true =>
                      refine iff_of_true (fun _ _ heq => nomatch heq) fun last hout => ?_
                      exact absurd (((hpolls hout).2.2 htries).symm.trans hcopies) Bool.false_ne_true
                  | false =>
                      simp only [if_true, Bool.false_eq_true, if_false]
                      refine ih (by omega) (hagain ⟨hraises, hstaging, fun _ => hcopies⟩) ?_
                      rw [Nat.forall_lt_succ_right, htries, ← hleft]
                      cases (polls i).copied <;> simp

end SkyClaw.Scraper
