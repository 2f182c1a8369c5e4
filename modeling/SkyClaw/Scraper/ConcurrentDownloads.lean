import SkyClaw.Lib.Interleave
import SkyClaw.Lib.OpenFiles
import SkyClaw.Lib.Runs
import SkyClaw.Scraper.NexusDownloader

/-!
# Downloads side by side

Calls of `download` that share the staging directory, with the steps between which they wait.  What is
hashed is what came from the server; what is returned is the path, and what is under it others may have
written.  `always_delivers_iff` says when the file that is returned has the expected hash.
-/

namespace SkyClaw.Scraper.ConcurrentDownloads

open OpenFiles (Handle Streams)

abbrev Bytes := List UInt8

variable {κ : Type} [DecidableEq κ]

structure Shared (κ : Type) where
  files : OpenFiles κ
  /-- what is left of `_semaphore` -/
  free : Nat

def Shared.acquire (shared : Shared κ) : Shared κ := { shared with free := shared.free - 1 }

def Shared.release (shared : Shared κ) : Shared κ := { shared with free := shared.free + 1 }

/-- Where a call waits; `left` counts the attempts, or the polls, that are left. -/
inductive Phase
  | starting
  | attempting (left : Nat)
  /-- in the semaphore -/
  | jittering (left : Nat)
  | requesting (left : Nat)
  /-- `buffered`: hashed, and not yet in the file -/
  | streaming (left : Nat) (handle : Handle) (received buffered : Bytes)
  | checking (left : Nat) (handle : Handle) (received : Bytes)
  | cleaning (left : Nat) (error : NexusError)
  | polling (left : Nat)
  /-- for the thread of `copy2` -/
  | fetching (left : Nat)
  | copying (left : Nat) (handle : Handle) (source rest : Bytes)
  /-- The call was cancelled, and the thread of `copy2` goes on. -/
  | abandoned
  | orphaned (handle : Handle) (rest : Bytes)
  | returned
  | raised (error : NexusError)

/-- What comes next for a call. -/
inductive Event
  /-- `joins`: `mkdir` and `safe_join` succeed. -/
  | begins (joins : Bool)
  | acquires
  | releases (refusal : Option NexusError)
  /-- `authorize` raises. -/
  | refused (error : NexusError)
  /-- The server answers, and `open(dest, "wb")` succeeds. -/
  | opened
  | received (chunk : Bytes) (flushed : Nat)
  /-- An exception with a handler; something of a chunk may still be written. -/
  | failed (chunk : Bytes) (flushed : Nat) (client : Bool) (text : String)
  | closed
  | verified
  | cleaned (cleans : Bool)
  | poll (poll : Poll Bytes)
  | copyOpened (source : Bytes)
  | copied (count : Nat)
  | copyFails
  | copyEnds
  /-- Any other exception, such as `CancelledError`. -/
  | interrupted (chunk : Bytes) (flushed : Nat)

structure Call where
  info : FileInfo
  phase : Phase

section Steps

variable (lib : Library Bytes) (place : String → κ)

/-- The end of an attempt that raised. -/
def retried (error : NexusError) : Nat → Phase
  | left + 1 => if shouldRetryNexus error then .attempting left else .raised error
  | 0 => .raised error

section

variable (info : FileInfo)

def transferError (client : Bool) (text : String) : NexusError :=
  .download (if client then "Download failed for " ++ lib.repr info.fileName ++ ": " ++ text
    else "I/O or timeout error for " ++ lib.repr info.fileName ++ ": " ++ text)

/-- The poll, with what is in the staging directory. -/
def looking (files : OpenFiles κ) (poll : Poll Bytes) : Poll Bytes :=
  { poll with staging := files.content (place info.fileName) }

/-- No `except` clause runs, but every `with` is left. -/
def interrupt (shared : Shared κ) (chunk : Bytes) (flushed : Nat) :
    Phase → Option (Shared κ × Phase)
  | .jittering _ | .polling _ => some (shared.release, .raised .other)
  | .fetching _ => some (shared.release, .abandoned)
  | .copying _ handle _ rest => some (shared.release, .orphaned handle rest)
  | .streaming _ handle _ buffered =>
      let after := shared.files.write handle ((buffered ++ chunk).take flushed)
      some ({ shared with files := after.1 }, .raised .other)
  | .starting | .attempting _ | .requesting _ | .checking _ _ _ | .cleaning _ _ =>
      some (shared, .raised .other)
  | .abandoned | .orphaned _ _ | .returned | .raised _ => none

/-- `download`, from where it waits to where it waits next. -/
def advance (shared : Shared κ) : Phase → Event → Option (Shared κ × Phase)
  | .starting, .begins joins =>
      match assertSafeComponent lib.repr "file_name" info.fileName with
      | .error _ => some (shared, .raised .other)
      | .ok () =>
          if shared.free = 0 then none
          else if joins = false then some (shared, .raised .other)
          -- The fallback stays in the semaphore.
          else if info.downloadUrl = freeFallback then some (shared.acquire, .polling furtherPolls)
          else some (shared, .attempting furtherAttempts)
  | .attempting left, .acquires =>
      if shared.free = 0 then none else some (shared.acquire, .jittering left)
  | .jittering left, .releases none => some (shared.release, .requesting left)
  | .jittering left, .releases (some error) => some (shared.release, retried error left)
  | .requesting left, .refused error => some (shared, retried error left)
  | .requesting left, .failed _ _ client text =>
      some (shared, .cleaning left (transferError lib info client text))
  | .requesting left, .opened =>
      let after := shared.files.openWrite (place info.fileName)
      some ({ shared with files := after.1 }, .streaming left after.2 [] [])
  | .streaming left handle received buffered, .received chunk flushed =>
      let after := shared.files.write handle ((buffered ++ chunk).take flushed)
      some ({ shared with files := after.1 },
        .streaming left after.2 (received ++ chunk) ((buffered ++ chunk).drop flushed))
  | .streaming left handle _ buffered, .failed chunk flushed client text =>
      let after := shared.files.write handle ((buffered ++ chunk).take flushed)
      some ({ shared with files := after.1 },
        .cleaning left (transferError lib info client text))
  | .streaming left handle received buffered, .closed =>
      let after := shared.files.write handle buffered
      some ({ shared with files := after.1 }, .checking left after.2 received)
  | .checking left _ received, .verified =>
      match validateHashes lib info received with
      | .ok () => some (shared, .returned)
      | .error error => some (shared, .cleaning left error)
  | .cleaning left error, .cleaned true =>
      some ({ shared with files := shared.files.unlink (place info.fileName) }, retried error left)
  | .cleaning left error, .cleaned false => some (shared, retried error left)
  | .polling 0, .poll _ =>
      some (shared.release, .raised (.download
        ("Manual download for " ++ info.fileName ++ " timed out after 1 hour.")))
  | .polling (left + 1), .poll poll =>
      if poll.raises then some (shared.release, .raised .other)
      else
        match (looking place info shared.files poll).inStaging lib info with
        | some _ => some (shared.release, .returned)
        | none =>
            if (looking place info shared.files poll).tries lib info then
              some (shared, .fetching left)
            else some (shared, .polling left)
  | .fetching left, .copyOpened source =>
      let after := shared.files.openWrite (place info.fileName)
      some ({ shared with files := after.1 }, .copying left after.2 source source)
  | .fetching left, .copyFails => some (shared, .polling left)
  | .copying left handle source rest, .copied count =>
      let after := shared.files.write handle (rest.take count)
      some ({ shared with files := after.1 }, .copying left after.2 source (rest.drop count))
  -- The `OSError` is dropped, and the part that was copied stays.
  | .copying left _ _ _, .copyFails => some (shared, .polling left)
  | .copying _ _ _ [], .copyEnds => some (shared.release, .returned)
  | .abandoned, .copyOpened source =>
      let after := shared.files.openWrite (place info.fileName)
      some ({ shared with files := after.1 }, .orphaned after.2 source)
  | .orphaned handle rest, .copied count =>
      let after := shared.files.write handle (rest.take count)
      some ({ shared with files := after.1 }, .orphaned after.2 (rest.drop count))
  | phase, .interrupted chunk flushed => interrupt shared chunk flushed phase
  | _, _ => none

def next (event : Event) (shared : Shared κ) (call : Call) : Option (Shared κ × Call) :=
  (advance lib place call.info shared call.phase event).map fun after =>
    (after.1, { call with phase := after.2 })

structure State (κ : Type) where
  shared : Shared κ
  calls : List Call

inductive Action (κ : Type)
  | call (i : Nat) (event : Event)
  /-- The browser, or anybody else, puts a file into the directory or takes one away. -/
  | outside (name : κ) (content : Option Bytes)

def step (s : State κ) : Action κ → Option (State κ)
  | .call i event =>
      (Interleave.stepAt (next lib place event) s.shared s.calls i).map fun after =>
        ⟨after.1, after.2⟩
  | .outside name content =>
      some { s with shared := { s.shared with files := s.shared.files.replace name content } }

/-- Before the first of the calls; the semaphore has five places. -/
def start (files : OpenFiles κ) (infos : List FileInfo) : State κ :=
  ⟨⟨files, 5⟩, infos.map fun info => ⟨info, .starting⟩⟩

/-! ## What is promised -/

/-- There is a hash to compare: an MD5, or a well-formed SHA-256. -/
def Expecting : Prop :=
  info.md5 ≠ "" ∨ validateSha256Format info.sha256 = true

structure HasExpected (content : Bytes) : Prop where
  md5_eq : info.md5 ≠ "" → (lib.md5 content).toLower = info.md5.toLower
  sha256_eq : validateSha256Format info.sha256 = true →
    (lib.sha256 content).toLower = info.sha256.toLower

/-- A call that returns at this step returns a file with the expected hash. -/
def Delivers (s t : State κ) : Prop :=
  ∀ (i : Nat) (call call' : Call), s.calls[i]? = some call → t.calls[i]? = some call' →
    call.phase ≠ .returned → call'.phase = .returned → Expecting call'.info →
      ∃ content, t.shared.files.content (place call'.info.fileName) = some content ∧
        HasExpected lib call'.info content

/-- What a call has opened, and will return. -/
def Phase.held : Phase → Option Handle
  | streaming _ handle _ _ | checking _ handle _ | copying _ handle _ _ => some handle
  | _ => none

/-- What an event of a call does to the directory. -/
def change : Phase → Event → OpenFiles.Change κ
  | .requesting _, .opened | .fetching _, .copyOpened _ | .abandoned, .copyOpened _ =>
      .entry (place info.fileName)
  | .cleaning _ _, .cleaned true => .entry (place info.fileName)
  | .streaming _ handle _ _, _ => .bytes handle.file
  | .copying _ handle _ _, .copied _ | .orphaned handle _, .copied _ => .bytes handle.file
  | _, _ => .nothing

def Action.caller : Action κ → Option Nat
  | call i _ => some i
  | outside _ _ => none

def Action.change (s : State κ) : Action κ → OpenFiles.Change κ
  | call i event =>
      match s.calls[i]? with
      | some own => ConcurrentDownloads.change place own.info own.phase event
      | none => .nothing
  | outside name _ => .entry name

instance (info : FileInfo) : Decidable (Expecting info) :=
  inferInstanceAs (Decidable (_ ∨ _))

/-- **Nobody else is at the file** that a call with an expected hash has opened. -/
def Undisturbed (s : State κ) (action : Action κ) : Prop :=
  ∀ (j : Nat) (hj : j < s.calls.length), action.caller ≠ some j → Expecting s.calls[j].info →
    ∀ handle ∈ s.calls[j].phase.held,
      (action.change place s).Spares s.shared.files (place s.calls[j].info.fileName) handle

instance (s : State κ) (action : Action κ) : Decidable (Undisturbed place s action) :=
  inferInstanceAs (Decidable (∀ (j : Nat) (hj : j < s.calls.length), action.caller ≠ some j →
    Expecting s.calls[j].info → ∀ handle ∈ s.calls[j].phase.held,
      (action.change place s).Spares s.shared.files (place s.calls[j].info.fileName) handle))

/-- What the fallback takes to return it. -/
def found (files : OpenFiles κ) : Event → Phase → Option Bytes
  | .poll poll, .polling (_ + 1) =>
      if poll.raises then none else (looking place info files poll).inStaging lib info
  | .copyEnds, .copying _ _ source [] => some source
  | _, _ => none

end

/-- **The operator has fetched the right file.** -/
def FindsExpected (s : State κ) (action : Action κ) : Prop :=
  ∀ i event call content, action = .call i event → s.calls[i]? = some call →
    Expecting call.info →
      found lib place call.info s.shared.files event call.phase = some content →
        HasExpected lib call.info content

variable {lib place}

/-! ## What a step does -/

/-- A step of a call, as far as the directory and the end of the call are concerned. -/
inductive Advances (lib : Library Bytes) (place : String → κ) (info : FileInfo)
    (files : OpenFiles κ) : Phase → Event → OpenFiles κ → Phase → Prop
  | waits {phase phase' : Phase} {event : Event}
      (hnone : found lib place info files event phase = none) (hheld : phase'.held = none)
      (hreturned : phase' ≠ .returned) : Advances lib place info files phase event files phase'
  | opens {left : Nat} :
      Advances lib place info files (.requesting left) .opened
        (files.openWrite (place info.fileName)).1
        (.streaming left (files.openWrite (place info.fileName)).2 [] [])
  | receives {left : Nat} {handle : Handle} {received buffered chunk : Bytes} {flushed : Nat} :
      Advances lib place info files (.streaming left handle received buffered)
        (.received chunk flushed)
        (files.write handle ((buffered ++ chunk).take flushed)).1
        (.streaming left (files.write handle ((buffered ++ chunk).take flushed)).2
          (received ++ chunk) ((buffered ++ chunk).drop flushed))
  | stops {left : Nat} {handle : Handle} {received buffered data : Bytes} {event : Event}
      {phase' : Phase} (hheld : phase'.held = none) (hreturned : phase' ≠ .returned) :
      Advances lib place info files (.streaming left handle received buffered) event
        (files.write handle data).1 phase'
  | closes {left : Nat} {handle : Handle} {received buffered : Bytes} :
      Advances lib place info files (.streaming left handle received buffered) .closed
        (files.write handle buffered).1 (.checking left (files.write handle buffered).2 received)
  | verifies {left : Nat} {handle : Handle} {received : Bytes}
      (hvalid : validateHashes lib info received = .ok ()) :
      Advances lib place info files (.checking left handle received) .verified files .returned
  | cleans {left : Nat} {error : NexusError} {phase' : Phase} (hheld : phase'.held = none)
      (hreturned : phase' ≠ .returned) :
      Advances lib place info files (.cleaning left error) (.cleaned true)
        (files.unlink (place info.fileName)) phase'
  | finds {left : Nat} {poll : Poll Bytes} {content : Bytes}
      (hfound : found lib place info files (.poll poll) (.polling (left + 1)) = some content) :
      Advances lib place info files (.polling (left + 1)) (.poll poll) files .returned
  | copyOpens {left : Nat} {source : Bytes} :
      Advances lib place info files (.fetching left) (.copyOpened source)
        (files.openWrite (place info.fileName)).1
        (.copying left (files.openWrite (place info.fileName)).2 source source)
  | copies {left : Nat} {handle : Handle} {source rest : Bytes} {count : Nat} :
      Advances lib place info files (.copying left handle source rest) (.copied count)
        (files.write handle (rest.take count)).1
        (.copying left (files.write handle (rest.take count)).2 source (rest.drop count))
  | copyEnds {left : Nat} {handle : Handle} {source : Bytes} :
      Advances lib place info files (.copying left handle source []) .copyEnds files .returned
  | orphanOpens {source : Bytes} :
      Advances lib place info files .abandoned (.copyOpened source)
        (files.openWrite (place info.fileName)).1
        (.orphaned (files.openWrite (place info.fileName)).2 source)
  | orphanCopies {handle : Handle} {rest : Bytes} {count : Nat} :
      Advances lib place info files (.orphaned handle rest) (.copied count)
        (files.write handle (rest.take count)).1
        (.orphaned (files.write handle (rest.take count)).2 (rest.drop count))

theorem retried_held (error : NexusError) (left : Nat) : (retried error left).held = none := by
  unfold retried
  split
  · split <;> rfl
  · rfl

theorem retried_ne_returned (error : NexusError) (left : Nat) : retried error left ≠ .returned := by
  unfold retried
  split
  · split <;> simp
  · simp

variable {info : FileInfo} {phase' : Phase}

variable {shared shared' : Shared κ}

theorem advances_of_interrupt {chunk : Bytes}
    {flushed : Nat} {phase : Phase}
    (h : interrupt shared chunk flushed phase = some (shared', phase')) :
    Advances lib place info shared.files phase (.interrupted chunk flushed) shared'.files
      phase' := by
  unfold interrupt at h
  split at h <;> cases h
  case h_5 => exact .stops rfl nofun
  all_goals exact .waits rfl rfl nofun

/-- **What a call does** between two places where it waits. -/
theorem advances_of_advance {phase : Phase}
    {event : Event} (h : advance lib place info shared phase event = some (shared', phase')) :
    Advances lib place info shared.files phase event shared'.files phase' := by
  unfold advance at h
  split at h
  · -- Up to the semaphore no file is touched.
    split at h
    · cases h
      exact .waits rfl rfl nofun
    · split at h
      · cases h
      · split at h
        · cases h
          exact .waits rfl rfl nofun
        · split at h
          · cases h
            exact .waits rfl rfl nofun
          · cases h
            exact .waits rfl rfl nofun
  · split at h
    · cases h
    · cases h
      exact .waits rfl rfl nofun
  · cases h
    exact .waits rfl rfl nofun
  · cases h
    exact .waits rfl (retried_held _ _) (retried_ne_returned _ _)
  · cases h
    exact .waits rfl (retried_held _ _) (retried_ne_returned _ _)
  · cases h
    exact .waits rfl rfl nofun
  · -- The response has come.
    cases h
    exact .opens
  · cases h
    exact .receives
  · cases h
    exact .stops rfl nofun
  · cases h
    exact .closes
  · split at h
    · next hvalid =>
        cases h
        exact .verifies hvalid
    · cases h
      exact .waits rfl rfl nofun
  · cases h
    exact .cleans (retried_held _ _) (retried_ne_returned _ _)
  · cases h
    exact .waits rfl (retried_held _ _) (retried_ne_returned _ _)
  · cases h
    exact .waits rfl rfl nofun
  · next left poll =>
    -- A poll ends the fallback, finds the file, or goes on to the next one.
    split at h
    · next hraises =>
        cases h
        exact .waits (if_pos hraises) rfl nofun
    · next hraises =>
        split at h
        · next content hstaging =>
            cases h
            exact .finds ((if_neg hraises).trans hstaging)
        · next hstaging =>
            have hnone : found lib place info shared.files (.poll poll) (.polling (left + 1)) = none :=
              (if_neg hraises).trans hstaging
            split at h
            · cases h
              exact .waits hnone rfl nofun
            · cases h
              exact .waits hnone rfl nofun
  · cases h
    exact .copyOpens
  · cases h
    exact .waits rfl rfl nofun
  · cases h
    exact .copies
  · cases h
    exact .waits rfl rfl nofun
  · cases h
    exact .copyEnds
  · cases h
    exact .orphanOpens
  · cases h
    exact .orphanCopies
  · exact advances_of_interrupt h
  · cases h

variable {s t : State κ} {action : Action κ}

/-- **A step, seen from the calls.** -/
theorem step_cases (h : step lib place s action = some t) :
    (∃ i event call phase', action = .call i event ∧ s.calls[i]? = some call ∧
      Advances lib place call.info s.shared.files call.phase event t.shared.files phase' ∧
        t.calls[i]? = some { call with phase := phase' } ∧ ∀ j, j ≠ i → t.calls[j]? = s.calls[j]?) ∨
    (∃ name content, action = .outside name content ∧
      t.shared.files = s.shared.files.replace name content ∧ t.calls = s.calls) := by
  cases action with
  | call i event =>
      obtain ⟨⟨shared', calls'⟩, hat, rfl⟩ := Option.map_eq_some_iff.mp h
      obtain ⟨call, call', hcall, hnext, hcall', hothers⟩ := Interleave.stepAt_getElem? hat
      obtain ⟨⟨shared'', phase'⟩, hadvance, heq⟩ := Option.map_eq_some_iff.mp hnext
      cases heq
      exact .inl ⟨i, event, call, phase', rfl, hcall, advances_of_advance hadvance, hcall', hothers⟩
  | outside name content =>
      cases h
      exact .inr ⟨name, content, rfl, rfl, rfl⟩

theorem step_verified {i : Nat} {left : Nat} {handle : Handle}
    {received : Bytes} (hcall : s.calls[i]? = some ⟨info, .checking left handle received⟩)
    (hvalid : validateHashes lib info received = .ok ()) :
    step lib place s (.call i .verified) = some ⟨s.shared, s.calls.set i ⟨info, .returned⟩⟩ := by
  have hadvance : advance lib place info s.shared (.checking left handle received) .verified =
      some (s.shared, .returned) := by
    show (match validateHashes lib info received with
      | .ok () => _
      | .error error => _) = _
    rw [hvalid]
  unfold step Interleave.stepAt
  simp only [hcall, Option.bind_some, next, hadvance, Option.map_some]

/-! ## The files that are held -/

/-- What a call that has opened a file will have written. -/
def Phase.total : Phase → Bytes
  | streaming _ _ received _ | checking _ _ received => received
  | copying _ _ source _ => source
  | _ => []

def Phase.pending : Phase → Bytes
  | streaming _ _ _ buffered => buffered
  | copying _ _ _ rest => rest
  | _ => []

/-- In the file that a call has opened is what it has written. -/
def Holds (files : OpenFiles κ) (name : κ) (phase : Phase) : Prop :=
  ∀ handle ∈ phase.held, ∃ streamed, phase.total = streamed ++ phase.pending ∧
    Streams files name handle streamed

variable {name : κ}

omit [DecidableEq κ] in
theorem Holds.of_none {files : OpenFiles κ} {phase : Phase} (h : phase.held = none) :
    Holds files name phase := by
  intro handle hheld
  rw [h] at hheld
  cases hheld

omit [DecidableEq κ] in
theorem Holds.content {files : OpenFiles κ} {phase : Phase} {handle : Handle}
    (h : Holds files name phase) (hheld : phase.held = some handle)
    (hpending : phase.pending = []) : files.content name = some phase.total := by
  obtain ⟨streamed, htotal, hstreams⟩ := h handle hheld
  rw [htotal, hpending, List.append_nil]
  exact hstreams.content

variable {files' : OpenFiles κ}

/-- The call itself keeps to its file. -/
theorem Advances.holds {files : OpenFiles κ} {phase : Phase}
    {event : Event} (h : Advances lib place info files phase event files' phase')
    (hholds : Holds files (place info.fileName) phase) :
    Holds files' (place info.fileName) phase' := by
  cases h with
  | waits _ hheld | stops hheld | cleans hheld => exact .of_none hheld
  | verifies | finds | copyEnds | orphanOpens | orphanCopies => exact .of_none rfl
  | opens | copyOpens =>
      intro handle hheld
      cases hheld
      exact ⟨[], rfl, OpenFiles.streams_openWrite _ _⟩
  | @receives _ _ received buffered chunk flushed =>
      intro handle hheld
      cases hheld
      obtain ⟨streamed, htotal, hstreams⟩ := hholds _ rfl
      -- What is not flushed yet stays in the buffer.
      refine ⟨streamed ++ (buffered ++ chunk).take flushed, ?_, hstreams.write _⟩
      have htotal : received = streamed ++ buffered := htotal
      show received ++ chunk = _ ++ (buffered ++ chunk).drop flushed
      rw [List.append_assoc, List.take_append_drop, htotal, List.append_assoc]
  | @closes _ _ received buffered =>
      intro handle hheld
      cases hheld
      obtain ⟨streamed, htotal, hstreams⟩ := hholds _ rfl
      refine ⟨streamed ++ buffered, ?_, hstreams.write _⟩
      exact htotal.trans (List.append_nil _).symm
  | @copies _ _ source rest count =>
      intro handle hheld
      cases hheld
      obtain ⟨streamed, htotal, hstreams⟩ := hholds _ rfl
      refine ⟨streamed ++ rest.take count, ?_, hstreams.write _⟩
      have htotal : source = streamed ++ rest := htotal
      show source = _ ++ rest.drop count
      rw [List.append_assoc, List.take_append_drop, htotal]

omit [DecidableEq κ] in
theorem change_streaming (info : FileInfo) (left : Nat) (handle : Handle)
    (received buffered : Bytes) (event : Event) :
    change place info (.streaming left handle received buffered) event = .bytes handle.file := by
  cases event <;> rfl

variable {streamed : Bytes}

/-- A call keeps away from the files that it spares. -/
theorem Advances.streams {files : OpenFiles κ} {phase : Phase}
    {event : Event} (h : Advances lib place info files phase event files' phase')
    {handle : Handle}
    (hspares : (change place info phase event).Spares files name handle)
    (hstreams : Streams files name handle streamed) : Streams files' name handle streamed := by
  cases h with
  | waits | verifies | finds | copyEnds => exact hstreams
  | opens | copyOpens | orphanOpens => exact hstreams.openWrite_other hspares.1 hspares.2
  | cleans _ _ => exact hstreams.unlink_other hspares.1
  | receives | closes | copies | orphanCopies => exact hstreams.write_other hspares _
  | stops _ _ =>
      rw [change_streaming] at hspares
      exact hstreams.write_other hspares _

theorem streams_of_step
    (h : step lib place s action = some t) {handle : Handle}
    (hspares : (action.change place s).Spares s.shared.files name handle)
    (hstreams : Streams s.shared.files name handle streamed) :
    Streams t.shared.files name handle streamed := by
  obtain ⟨i, event, call, phase', rfl, hcall, hadvances, -⟩ |
    ⟨other, content, rfl, hfiles, -⟩ := step_cases h
  · simp only [Action.change, hcall] at hspares
    exact hadvances.streams hspares hstreams
  · rw [hfiles]
    exact hstreams.replace_other hspares.1 content

/-- Every call with an expected hash holds its file. -/
def Held (place : String → κ) (s : State κ) : Prop :=
  ∀ (j : Nat) (call : Call), s.calls[j]? = some call → Expecting call.info →
    Holds s.shared.files (place call.info.fileName) call.phase

omit [DecidableEq κ] in
theorem held_start (files : OpenFiles κ) (infos : List FileInfo) :
    Held place (start files infos) := by
  intro j call hcall _
  obtain ⟨info, -, rfl⟩ := List.mem_map.mp (List.mem_of_getElem? hcall)
  exact .of_none rfl

/-- **Step lemma**, for steps that nobody is disturbed by. -/
theorem held_of_step (hheld : Held place s)
    (h : step lib place s action = some t) (hundisturbed : Undisturbed place s action) :
    Held place t := by
  have hother : ∀ (j : Nat) (call : Call), s.calls[j]? = some call → action.caller ≠ some j →
      Expecting call.info → Holds t.shared.files (place call.info.fileName) call.phase := by
    intro j call hcall hcaller hexpecting handle hmem
    obtain ⟨streamed, htotal, hstreams⟩ := hheld j call hcall hexpecting handle hmem
    obtain ⟨hj, rfl⟩ := List.getElem?_eq_some_iff.mp hcall
    exact ⟨streamed, htotal,
      streams_of_step h (hundisturbed j hj hcaller hexpecting handle hmem) hstreams⟩
  intro j call hcall hexpecting
  obtain ⟨i, event, own, phase', rfl, hown, hadvances, hown', hothers⟩ |
    ⟨name, content, rfl, -, hcalls⟩ := step_cases h
  · by_cases hj : j = i
    · subst hj
      cases hown'.symm.trans hcall
      exact hadvances.holds (hheld j own hown hexpecting)
    · rw [hothers j hj] at hcall
      exact hother j call hcall (fun heq => hj (Option.some.inj heq).symm) hexpecting
  · rw [hcalls] at hcall
    exact hother j call hcall nofun hexpecting

/-! ## The moment of the return -/

theorem hasExpected_of_validateHashes {content : Bytes}
    (h : validateHashes lib info content = .ok ()) : HasExpected lib info content := by
  unfold validateHashes at h
  split at h
  · cases h
  · next hmd5 =>
      split at h
      · cases h
      · next hsha256 =>
          rw [not_not] at hmd5
          rw [not_and, not_not] at hsha256
          refine ⟨fun hnone => ?_, fun hwell => ?_⟩
          · unfold hashMatches at hmd5
            rw [Bool.or_eq_true, beq_iff_eq, beq_iff_eq] at hmd5
            exact hmd5.resolve_left hnone
          · have hmatches := hsha256 hwell
            unfold hashMatches at hmatches
            rw [Bool.or_eq_true, beq_iff_eq, beq_iff_eq] at hmatches
            refine hmatches.resolve_left fun hnone => ?_
            rw [hnone] at hwell
            cases hwell

omit [DecidableEq κ] in
theorem content_of_found {files : OpenFiles κ} {event : Event} {phase : Phase}
    {content : Bytes} (h : found lib place info files event phase = some content)
    (hholds : Holds files (place info.fileName) phase) :
    files.content (place info.fileName) = some content := by
  unfold found at h
  split at h
  · split at h
    · cases h
    · unfold Poll.inStaging at h
      exact (Option.filter_eq_some_iff.mp h).1
  · cases h
    exact hholds.content rfl rfl
  · cases h

theorem Advances.returned_of_found {files : OpenFiles κ}
    {phase : Phase} {event : Event} {content : Bytes}
    (h : Advances lib place info files phase event files' phase')
    (hfound : found lib place info files event phase = some content) :
    phase ≠ .returned ∧ phase' = .returned ∧ files' = files := by
  cases h with
  | waits hnone _ _ =>
      rw [hnone] at hfound
      cases hfound
  | finds | copyEnds => exact ⟨nofun, rfl, rfl⟩
  | @stops _ _ _ _ _ event _ _ _ => cases event <;> cases hfound
  | _ => cases hfound

theorem Advances.content_of_returned {files : OpenFiles κ}
    {phase : Phase} {event : Event} (h : Advances lib place info files phase event files' .returned)
    (hholds : Holds files (place info.fileName) phase) :
    ∃ content, files'.content (place info.fileName) = some content ∧
      (HasExpected lib info content ∨ found lib place info files event phase = some content) := by
  cases h with
  | waits _ _ hreturned | stops _ hreturned | cleans _ hreturned => exact absurd rfl hreturned
  | @verifies _ _ received hvalid =>
      exact ⟨received, hholds.content rfl rfl, .inl (hasExpected_of_validateHashes hvalid)⟩
  | @finds _ _ content hfound => exact ⟨content, content_of_found hfound hholds, .inr hfound⟩
  | @copyEnds _ _ source => exact ⟨source, hholds.content rfl rfl, .inr rfl⟩

/-- From a state in which the files are held, a step delivers exactly if the fallback has found the
right file. -/
theorem delivers_iff (hheld : Held place s)
    (h : step lib place s action = some t) :
    Delivers lib place s t ↔ FindsExpected lib place s action := by
  constructor
  · rintro hdelivers i event call content rfl hcall hexpecting hfound
    obtain ⟨i', event', own, phase', heq, hown, hadvances, hown', -⟩ | ⟨_, _, heq, -⟩ := step_cases h
    · cases heq
      obtain rfl := Option.some.inj (hown.symm.trans hcall)
      obtain ⟨hphase, rfl, hfiles⟩ := hadvances.returned_of_found hfound
      obtain ⟨content', hcontent', hexpected⟩ :=
        hdelivers i own _ hown hown' hphase rfl hexpecting
      have hcontent := content_of_found hfound (hheld i own hown hexpecting)
      rw [hfiles] at hcontent'
      obtain rfl := Option.some.inj (hcontent'.symm.trans hcontent)
      exact hexpected
    · cases heq
  · intro hfinds i call call' hcall hcall' hphase hreturned hexpecting
    obtain ⟨i', event, own, phase', rfl, hown, hadvances, hown', hothers⟩ |
      ⟨_, _, -, -, hcalls⟩ := step_cases h
    · by_cases hi : i = i'
      · subst hi
        obtain rfl := Option.some.inj (hown.symm.trans hcall)
        obtain rfl := Option.some.inj (hown'.symm.trans hcall')
        obtain rfl : phase' = .returned := hreturned
        obtain ⟨content, hcontent, hexpected | hfound⟩ :=
          hadvances.content_of_returned (hheld i own hown hexpecting)
        · exact ⟨content, hcontent, hexpected⟩
        · exact ⟨content, hcontent, hfinds i event own content rfl hown hexpecting hfound⟩
      · rw [hothers i hi, hcall] at hcall'
        cases hcall'
        exact absurd hreturned hphase
    · rw [hcalls, hcall] at hcall'
      cases hcall'
      exact absurd hreturned hphase

/-- **A download is what it should be, where nobody disturbs it and the operator does not err.**  In every run
in which nobody else is at the file of a call that waits for a hash, all calls return files with the
expected hash if and only if what the fallback takes has it. -/
theorem always_delivers_iff (files : OpenFiles κ) (infos : List FileInfo)
    (schedule : List (Action κ))
    (hundisturbed : Runs.Always (step lib place) (fun s action _ => Undisturbed place s action)
      (start files infos) schedule) :
    Runs.Always (step lib place) (fun s _ t => Delivers lib place s t) (start files infos) schedule ↔
      Runs.Always (step lib place) (fun s action _ => FindsExpected lib place s action)
        (start files infos) schedule := by
  have hheld : Runs.Throughout (step lib place) (Held place) (start files infos) schedule :=
    Runs.throughout_of_guarded
      (fun _ _ _ hheld hstep hundisturbed => held_of_step hheld hstep hundisturbed)
      (held_start files infos) hundisturbed
  constructor
  · exact Runs.Always.of_throughout
      (fun _ _ _ hheld hstep hdelivers => (delivers_iff hheld hstep).mp hdelivers) hheld
  · exact Runs.Always.of_throughout
      (fun _ _ _ hheld hstep hfinds => (delivers_iff hheld hstep).mpr hfinds) hheld

end Steps

/-! ## A directory that is shared -/

/-- The digests of no bytes, of `a` and of `b`. -/
def digests : Library Bytes where
  pathName := id
  repr := id
  megabytes := fun bytes => toString bytes
  md5 := fun content =>
    if content = [] then "d41d8cd98f00b204e9800998ecf8427e"
    else if content = [97] then "0cc175b9c0f1b6a831c399e269772661"
    else "92eb5ffee6ae2fec3ad71c777531578f"
  sha256 := fun content =>
    if content = [] then "e3b0c44298fc1c149afbf4c8996fb92427ae41e4649b934ca495991b7852b855"
    else if content = [97] then "ca978112ca1bbdcafac231b39a23dc4da786eff8147c4e72b9807785afee48bb"
    else "3e23e8160039594a33894f6564e1b1348bbd7a0088d42c4acb73eeaed59c009d"
  size := fun content => content.length

def noFiles : OpenFiles String := ⟨fun _ => none, fun _ => [], 0, fun _ _ h => by cases h⟩

/-- The file is expected to be `a`. -/
def letterA (name url : String) : FileInfo :=
  ⟨1, 1, name, 1, "0cc175b9c0f1b6a831c399e269772661", "", url⟩

/-- Another mod has a file of the same name. -/
def letterB (name url : String) : FileInfo :=
  ⟨2, 2, name, 1, "92eb5ffee6ae2fec3ad71c777531578f", "", url⟩

/-- A call gets as far as its file. -/
def untilOpened (i : Nat) : List (Action String) :=
  [.call i (.begins true), .call i .acquires, .call i (.releases none), .call i .opened]

def untilClosed (i : Nat) (content : Bytes) : List (Action String) :=
  untilOpened i ++ [.call i (.received content 0), .call i .closed]

/-- A call whose download was closed is checked next. -/
def besides : List (Action String) :=
  untilOpened 0 ++ untilOpened 1 ++
    [.call 0 (.received [97] 1), .call 1 (.received [98] 0), .call 0 .closed]

/-- Two downloads side by side, of different files. -/
theorem always_delivers_iff_besides :
    Runs.Always (step digests id) (fun s _ t => Delivers digests id s t)
        (start noFiles [letterA "a.7z" "cdn", letterB "b.7z" "cdn"])
        (besides ++ [.call 0 .verified]) ↔
      Runs.Always (step digests id) (fun s action _ => FindsExpected digests id s action)
        (start noFiles [letterA "a.7z" "cdn", letterB "b.7z" "cdn"])
        (besides ++ [.call 0 .verified]) := by
  have hbefore : Runs.Always (step digests id) (fun s action _ => Undisturbed id s action)
      (start noFiles [letterA "a.7z" "cdn", letterB "b.7z" "cdn"]) besides := by
    decide +kernel
  refine always_delivers_iff _ _ _ (hbefore.append rfl fun t _ => ⟨?_, trivial⟩)
  show Undisturbed id _ _
  decide +kernel

theorem md5_ne {content : Bytes} (h : content ≠ [97]) (name url : String) :
    (digests.md5 content).toLower ≠ (letterA name url).md5.toLower := by
  intro heq
  have hchars : (String.map Char.toLower _).toList = (String.map Char.toLower _).toList :=
    congrArg String.toList heq
  simp only [String.toList_map, digests, letterA, if_neg h] at hchars
  split at hchars
  · exact absurd hchars (by decide +kernel)
  · exact absurd hchars (by decide +kernel)

/-- The operator puts `b` into the staging directory, under the name that is waited for. -/
def wrongFile : List (Action String) := [.call 0 (.begins true), .outside "m.7z" (some [98])]

def lookedAt : Event := .poll ⟨false, none, true, none, false, false, none, false⟩

/-- **The fallback compares no hash**, and behind a download that was closed another one empties the file
before it is returned. -/
theorem always_delivers_counterexample :
    ¬Runs.Always (step digests id) (fun s _ t => Delivers digests id s t)
        (start noFiles [letterA "m.7z" freeFallback]) (wrongFile ++ [.call 0 lookedAt]) ∧
      ¬Runs.Always (step digests id) (fun s _ t => Delivers digests id s t)
        (start noFiles [letterA "m.7z" "cdn", letterB "m.7z" "cdn"])
        (untilClosed 0 [97] ++ untilOpened 1 ++ [.call 0 .verified]) := by
  constructor
  · intro h
    obtain ⟨content, hcontent, hexpected⟩ :=
      h.at_prefix rfl rfl 0 _ _ rfl rfl (fun heq => by cases heq) rfl (.inl (by decide))
    obtain rfl : [98] = content := Option.some.inj hcontent
    exact md5_ne (by decide) _ _ (hexpected.md5_eq (by decide))
  · intro h
    have hvalid : validateHashes digests (letterA "m.7z" "cdn") [97] = .ok () := by
      simp [validateHashes, hashMatches, digests, letterA, validateSha256Format]
    obtain ⟨content, hcontent, hexpected⟩ :=
      h.at_prefix rfl (step_verified rfl hvalid) 0 _ _ rfl rfl (fun heq => by cases heq) rfl
        (.inl (by decide))
    obtain rfl : [] = content := Option.some.inj hcontent
    exact md5_ne (by decide) _ _ (hexpected.md5_eq (by decide))

end SkyClaw.Scraper.ConcurrentDownloads
