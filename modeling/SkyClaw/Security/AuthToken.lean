import SkyClaw.Lib.PyStr
import SkyClaw.Lib.Runs
import Mathlib.Tactic.Linarith

/-!
# The auth token of the WebSocket handshake

`AuthTokenManager` keeps the digest of its token in memory and the token itself in a file
that the daemon reads.  The two copies are changed one after the other, and each operation
on the file may fail.  `tokensAgree_iff` says in which runs they agree all the time.
-/

namespace SkyClaw.Security.AuthToken

/-! ## The manager and its file -/

/-- `_TOKEN_TTL`, in seconds. -/
def tokenTtl : ℚ := 3600

/-- A reading of `time.time()`, which counts from 1970. -/
structure Instant where
  seconds : ℚ
  positive : 0 < seconds

/-- What the token file holds. -/
inductive TokenFile
  /-- The JSON that `generate` writes. -/
  | payload (token : String) (createdAt : ℚ)
  /-- Any other text: a legacy token, or JSON that was cut off. -/
  | plain (text : String)

/-- `_token_hash` and `_created_at`. -/
structure AuthTokenManager (Digest : Type) where
  tokenHash : Option Digest
  createdAt : ℚ

/-- `json.dumps(payload)`, for a `repr` of floats. -/
def payloadText (reprFloat : ℚ → String) (token : String) (createdAt : ℚ) : String :=
  "\x7b\"token\": \"" ++ token ++ "\", \"created_at\": " ++ reprFloat createdAt ++
    ", \"ttl\": 3600\x7d"

/-- How `write_text` ends. -/
inductive WriteEnd
  | written
  | openFails
  /-- The file was emptied, and so many characters have reached it. -/
  | cutOff (count : Nat)

/-- How `restrict_to_owner` ends. -/
inductive RestrictEnd
  | restricted
  | raises
  /-- On Windows the file is removed first. -/
  | raisesUnlinking

/-- The file after `write_text`. -/
def writeText (reprFloat : ℚ → String) (token : String) (createdAt : ℚ) (file : Option TokenFile) :
    WriteEnd → Option TokenFile
  | .written => some (.payload token createdAt)
  | .openFails => file
  | .cutOff count =>
      let text := payloadText reprFloat token createdAt
      if count < text.length then some (.plain (String.ofList (text.toList.take count)))
      else some (.payload token createdAt)

/-- The file after `restrict_to_owner`. -/
def restrictToOwner (file : Option TokenFile) : RestrictEnd → Option TokenFile
  | .restricted | .raises => file
  | .raisesUnlinking => none

def readTokenFile (now : ℚ) : Option TokenFile → Option String
  | none => none
  | some (.plain text) => if PyStr.strip text = "" then none else some (PyStr.strip text)
  | some (.payload token createdAt) =>
      if createdAt ≠ 0 ∧ tokenTtl < now - createdAt then none
      else if token = "" then none else some token

/-! ## Runs -/

variable {Digest : Type} [DecidableEq Digest] (hash : String → Digest) (reprFloat : ℚ → String)

def AuthTokenManager.validate (m : AuthTokenManager Digest) (now : ℚ) (token : String) : Bool :=
  match m.tokenHash with
  | none => false
  | some tokenHash =>
      if tokenTtl < now - m.createdAt then false else decide (hash token = tokenHash)

/-- The token whose `generate` returned last, until it is revoked. -/
structure Published where
  token : String
  createdAt : ℚ

structure State (Digest : Type) where
  manager : AuthTokenManager Digest
  file : Option TokenFile
  now : Instant
  /-- The digests of the tokens that were drawn. -/
  drawn : List Digest
  published : Option Published

/-- A new manager, with what an earlier process has left in the file. -/
def State.initial (file : Option TokenFile) (now : Instant) : State Digest :=
  { manager := ⟨none, 0⟩, file := file, now := now, drawn := [], published := none }

inductive Action
  | tick (now : Instant)
  /-- `generate`, for this fresh token. -/
  | generate (token : String) (write : WriteEnd) (restrict : RestrictEnd)
  /-- `generate` in the rotation loop, which logs what it raises. -/
  | rotate (token : String) (write : WriteEnd) (restrict : RestrictEnd)
  | revoke (unlinked : Bool)

/-- `generate`: the digest in memory first, then the file. -/
def State.generate (s : State Digest) (token : String) (write : WriteEnd)
    (restrict : RestrictEnd) : State Digest :=
  let now := s.now.seconds
  let drawn : State Digest :=
    { s with manager := ⟨some (hash token), now⟩, drawn := hash token :: s.drawn }
  match write with
  | .written =>
      let file := restrictToOwner (writeText reprFloat token now s.file .written) restrict
      match restrict with
      | .restricted => { drawn with file := file, published := some ⟨token, now⟩ }
      | _ => { drawn with file := file }
  | failed => { drawn with file := writeText reprFloat token now s.file failed }

def step (s : State Digest) : Action → Option (State Digest)
  | .tick now => if s.now.seconds ≤ now.seconds then some { s with now := now } else none
  -- A token is drawn only once.
  | .generate token write restrict | .rotate token write restrict =>
      if hash token ∈ s.drawn then none else some (s.generate hash reprFloat token write restrict)
  | .revoke unlinked =>
      some { s with
        manager := ⟨none, 0⟩
        file := if unlinked then none else s.file
        published := none }

def State.validates (s : State Digest) (token : String) : Prop :=
  s.manager.validate hash s.now.seconds token = true

/-- **The promise of a state.**  What the daemon reads is accepted, and what is accepted is
the token published last, while it has not expired. -/
structure Agrees (s : State Digest) : Prop where
  readable : ∀ token, readTokenFile s.now.seconds s.file = some token → s.validates hash token
  accepted : ∀ token, s.validates hash token → ∃ published, s.published = some published ∧
    hash token = hash published.token ∧ s.now.seconds - published.createdAt ≤ tokenTtl

/-- The write or the permission change of this action raises. -/
def Action.raises : Action → Bool
  | .generate _ .written .restricted | .rotate _ .written .restricted => false
  | .generate _ _ _ | .rotate _ _ _ => true
  | .tick _ | .revoke _ => false

/-- **The promise of a step.**  A `generate` that raises leaves the published token valid. -/
structure TokensAgree (s : State Digest) (act : Action) (t : State Digest) : Prop where
  agrees : Agrees hash t
  kept : act.raises = true → ∀ published, s.published = some published →
    s.validates hash published.token → t.validates hash published.token

/-- No `generate` raises, and a `revoke` removes the file if it can still be read. -/
def FileFollows (s : State Digest) (act : Action) (_ : State Digest) : Prop :=
  act.raises = false ∧
    (act = .revoke false → readTokenFile s.now.seconds s.file = none)

/-! ## What is kept -/

variable {file : Option TokenFile}

theorem readTokenFile_eq_none_later {now later : ℚ} (hle : now ≤ later)
    (h : readTokenFile now file = none) : readTokenFile later file = none := by
  cases file with
  | none => rfl
  | some file =>
      cases file with
      | plain text => exact h
      | payload token createdAt =>
          simp only [readTokenFile] at h ⊢
          split at h
          · rename_i hexpired
            rw [if_pos ⟨hexpired.1, by linarith [hexpired.2]⟩]
          · split at h
            · rename_i hempty
              rw [if_pos hempty, ite_self]
            · cases h

variable {hash} {reprFloat} {s t : State Digest}

variable {token : String}

theorem validates_iff {tokenHash : Digest} {createdAt : ℚ}
    (hmanager : s.manager = ⟨some tokenHash, createdAt⟩) :
    s.validates hash token ↔ s.now.seconds - createdAt ≤ tokenTtl ∧ hash token = tokenHash := by
  unfold State.validates AuthTokenManager.validate
  rw [hmanager]
  dsimp only
  split
  · rename_i hexpired
    exact iff_of_false (by simp) fun h => absurd h.1 (not_le.mpr hexpired)
  · rename_i hvalid
    rw [decide_eq_true_iff]
    exact (and_iff_right (not_lt.mp hvalid)).symm

theorem not_validates (hhash : s.manager.tokenHash = none) :
    ¬s.validates hash token := by
  unfold State.validates AuthTokenManager.validate
  rw [hhash]
  simp

/-- **The invariant.**  Memory and file hold the published token, or neither of them says
anything. -/
inductive Kept (hash : String → Digest) (s : State Digest) : Prop
  | silent (hpublished : s.published = none) (hhash : s.manager.tokenHash = none)
      (hread : readTokenFile s.now.seconds s.file = none)
  | live (published : Published) (hpublished : s.published = some published)
      (hmanager : s.manager = ⟨some (hash published.token), published.createdAt⟩)
      (hpositive : 0 < published.createdAt)
      (hfile : s.file = some (.payload published.token published.createdAt))
      (hdrawn : hash published.token ∈ s.drawn)

theorem Kept.agrees (h : Kept hash s) : Agrees hash s := by
  cases h with
  | silent hpublished hhash hread =>
      constructor
      · intro token htoken
        rw [hread] at htoken
        cases htoken
      · intro token hvalid
        exact absurd hvalid (not_validates hhash)
  | live published hpublished hmanager hpositive hfile hdrawn =>
      constructor
      · intro token htoken
        rw [hfile, readTokenFile] at htoken
        split at htoken
        · cases htoken
        · rename_i hfresh
          split at htoken
          · cases htoken
          · cases htoken
            refine (validates_iff hmanager).mpr ⟨?_, rfl⟩
            exact not_lt.mp fun hexpired => hfresh ⟨ne_of_gt hpositive, hexpired⟩
      · intro token hvalid
        obtain ⟨hfresh, hsame⟩ := (validates_iff hmanager).mp hvalid
        exact ⟨published, hpublished, hsame, hfresh⟩

omit [DecidableEq Digest] in
theorem Kept.drawn (h : Kept hash s) {published : Published}
    (hpublished : s.published = some published) : hash published.token ∈ s.drawn := by
  cases h with
  | silent hnone => cases hnone.symm.trans hpublished
  | live published' hpublished' _ _ _ hdrawn =>
      cases hpublished'.symm.trans hpublished
      exact hdrawn

theorem agrees_initial_iff {now : Instant} :
    Agrees hash (State.initial file now : State Digest) ↔
      readTokenFile now.seconds file = none := by
  constructor
  · intro h
    refine Option.eq_none_iff_forall_ne_some.mpr fun token htoken => ?_
    exact not_validates rfl (h.readable token htoken)
  · intro hread
    exact (Kept.silent rfl rfl hread).agrees

/-! ## Steps -/

omit [DecidableEq Digest] in
theorem kept_generate :
    Kept hash (s.generate hash reprFloat token .written .restricted) :=
  .live ⟨token, s.now.seconds⟩ rfl rfl s.now.positive rfl List.mem_cons_self

variable {restrict : RestrictEnd}

omit [DecidableEq Digest] in
theorem generate_of_raises {write : WriteEnd}
    (h : (Action.generate token write restrict).raises = true) :
    (s.generate hash reprFloat token write restrict).manager = ⟨some (hash token), s.now.seconds⟩ ∧
      (s.generate hash reprFloat token write restrict).published = s.published ∧
      (s.generate hash reprFloat token write restrict).now = s.now := by
  cases write with
  | written =>
      cases restrict with
      | restricted => cases h
      | raises | raisesUnlinking => exact ⟨rfl, rfl, rfl⟩
  | openFails | cutOff => exact ⟨rfl, rfl, rfl⟩

theorem not_agrees_generate (hkept : Kept hash s) {write : WriteEnd} (hfresh : hash token ∉ s.drawn)
    (h : (Action.generate token write restrict).raises = true) :
    ¬Agrees hash (s.generate hash reprFloat token write restrict) := by
  intro hagrees
  obtain ⟨hmanager, hpublished, hnow⟩ := @generate_of_raises _ hash reprFloat s _ _ _ h
  have hvalid : (s.generate hash reprFloat token write restrict).validates hash token := by
    refine (validates_iff hmanager).mpr ⟨?_, rfl⟩
    rw [hnow, sub_self]
    norm_num [tokenTtl]
  obtain ⟨published, hsome, hsame, -⟩ := hagrees.accepted token hvalid
  rw [hpublished] at hsome
  exact hfresh (hsame ▸ hkept.drawn hsome)

theorem raises_of_not_returned {write : WriteEnd}
    (h : ¬(write = .written ∧ restrict = .restricted)) :
    (Action.generate token write restrict).raises = true := by
  cases write with
  | written =>
      cases restrict with
      | restricted => exact absurd ⟨rfl, rfl⟩ h
      | raises | raisesUnlinking => rfl
  | openFails | cutOff => rfl

/-- **A `generate`**, called or from the loop. -/
theorem generate_iff (hkept : Kept hash s) {write : WriteEnd} (hfresh : hash token ∉ s.drawn) {act : Action}
    (hact : act.raises = (Action.generate token write restrict).raises)
    (hrevoke : act ≠ .revoke false) :
    (TokensAgree hash s act (s.generate hash reprFloat token write restrict) ↔
        FileFollows s act (s.generate hash reprFloat token write restrict)) ∧
      (FileFollows s act (s.generate hash reprFloat token write restrict) →
        Kept hash (s.generate hash reprFloat token write restrict)) := by
  by_cases hreturned : write = .written ∧ restrict = .restricted
  · obtain ⟨rfl, rfl⟩ := hreturned
    have hquiet : act.raises = false := hact
    have hnew := @kept_generate _ hash reprFloat s token
    refine ⟨iff_of_true ⟨hnew.agrees, fun hraises => ?_⟩ ⟨hquiet, fun h => absurd h hrevoke⟩,
      fun _ => hnew⟩
    rw [hquiet] at hraises
    cases hraises
  · have hraises := @raises_of_not_returned token restrict write hreturned
    have hact' : act.raises = true := hact.trans hraises
    have hnot : ¬FileFollows s act (s.generate hash reprFloat token write restrict) := by
      intro h
      have hquiet := h.1
      rw [hact'] at hquiet
      cases hquiet
    refine ⟨iff_of_false (fun h => ?_) hnot, fun h => absurd h hnot⟩
    exact not_agrees_generate hkept hfresh hraises h.agrees

/-- **One step.** -/
theorem tokensAgree_step (hkept : Kept hash s) {act : Action}
    (hstep : step hash reprFloat s act = some t) :
    (TokensAgree hash s act t ↔ FileFollows s act t) ∧ (FileFollows s act t → Kept hash t) := by
  cases act with
  | tick now =>
      simp only [step] at hstep
      split at hstep
      · rename_i hle
        cases hstep
        have hnew : Kept hash { s with now := now } := by
          cases hkept with
          | silent hpublished hhash hread =>
              exact .silent hpublished hhash (readTokenFile_eq_none_later hle hread)
          | live published hpublished hmanager hpositive hfile hdrawn =>
              exact .live published hpublished hmanager hpositive hfile hdrawn
        exact ⟨iff_of_true ⟨hnew.agrees, nofun⟩ ⟨rfl, nofun⟩, fun _ => hnew⟩
      · cases hstep
  | generate token write restrict =>
      simp only [step] at hstep
      split at hstep
      · cases hstep
      · rename_i hfresh
        cases hstep
        exact generate_iff hkept hfresh rfl (by simp)
  | rotate token write restrict =>
      simp only [step] at hstep
      split at hstep
      · cases hstep
      · rename_i hfresh
        cases hstep
        refine generate_iff hkept hfresh ?_ (by simp)
        cases write <;> cases restrict <;> rfl
  | revoke unlinked =>
      cases hstep
      cases unlinked with
      | true =>
          have hnew : Kept hash { s with manager := ⟨none, 0⟩, file := none, published := none } :=
            .silent rfl rfl rfl
          exact ⟨iff_of_true ⟨hnew.agrees, nofun⟩ ⟨rfl, nofun⟩, fun _ => hnew⟩
      | false =>
          have hnew : readTokenFile s.now.seconds s.file = none →
              Kept hash { s with manager := ⟨none, 0⟩, published := none } :=
            fun hread => .silent rfl rfl hread
          refine ⟨⟨fun h => ⟨rfl, fun _ => ?_⟩, fun h => ⟨(hnew (h.2 rfl)).agrees, nofun⟩⟩,
            fun h => hnew (h.2 rfl)⟩
          refine Option.eq_none_iff_forall_ne_some.mpr fun token htoken => ?_
          exact not_validates rfl (h.agrees.readable token htoken)

/-- **Token and file agree, exactly.**  From whatever an earlier process has left, the promise
holds at the start and after every step exactly when nothing can be read at the start, no
`generate` raises and no `revoke` leaves a file that can be read. -/
theorem tokensAgree_iff (hash : String → Digest) (reprFloat : ℚ → String)
    (file : Option TokenFile) (now : Instant) (schedule : List Action) :
    (Agrees hash (State.initial file now : State Digest) ∧
        Runs.Always (step hash reprFloat) (TokensAgree hash) (State.initial file now) schedule) ↔
      readTokenFile now.seconds file = none ∧
        Runs.Always (step hash reprFloat) FileFollows (State.initial file now) schedule := by
  rw [agrees_initial_iff]
  refine and_congr_right fun hread => ?_
  exact Runs.always_iff_of_guarded (I := Kept hash)
    (fun _ _ _ hkept hstep hfollows => (tokensAgree_step hkept hstep).2 hfollows)
    (fun _ _ _ hkept hstep => (tokensAgree_step hkept hstep).1) (.silent rfl rfl hread) schedule

/-- **The new token is accepted, the old one is read.**  The second `generate` cannot open
the file. -/
theorem tokensAgree_counterexample :
    ¬Runs.Always (step id fun _ => "1.0") (TokensAgree id)
      (State.initial none ⟨1, one_pos⟩ : State String)
      [.generate "first" .written .restricted, .generate "second" .openFails .restricted] := by
  intro h
  obtain ⟨-, hrest⟩ := h _ rfl
  have hread : readTokenFile 1 (some (.payload "first" 1)) = some "first" := by
    have hnonempty : "first" ≠ "" := by decide
    norm_num [readTokenFile, tokenTtl, hnonempty]
  have hvalid := (hrest _ rfl).1.agrees.readable "first" hread
  exact absurd ((validates_iff rfl).mp hvalid).2 (by decide)

end SkyClaw.Security.AuthToken
