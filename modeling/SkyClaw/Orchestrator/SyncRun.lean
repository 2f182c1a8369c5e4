import SkyClaw.Lib.Interleave
import SkyClaw.Lib.PyStr
import SkyClaw.Lib.Runs
import SkyClaw.Orchestrator.SyncFetch
import SkyClaw.Scraper.NexusDownloader

/-!
# The sync run

`SyncEngine.run`: a producer puts the entries of the modlist into a bounded queue, batch by batch, and
behind them a pill for each worker; the workers count what becomes of every entry.
`accounted_of_terminated` says that nothing is lost or counted twice.
-/

namespace SkyClaw.Orchestrator.SyncRun

/-! ## One mod -/

/-- An exception of the machine or the language, and not of the network. -/
structure LocalError where
  cls : ExceptionClass
  text : String
  notNetwork : (Raised.mk cls text).isinstance networkErrors = false

def LocalError.raised (e : LocalError) : Raised := ⟨e.cls, e.text⟩

theorem LocalError.raised_not_network (e : LocalError) :
    e.raised.isinstance networkErrors = false := e.notNetwork

def valueError (text : String) : LocalError := ⟨.valueError, text, rfl⟩

def typeError (text : String) : LocalError := ⟨.other, text, rfl⟩

/-- What comes from the language. -/
structure Library where
  repr : String → String
  isDigit : String → Bool
  int : Json → Except LocalError Int
  str : Json → String

/-- An entry of the modlist, with what is found out about it. -/
structure Entry where
  modName : String
  enabled : Bool
  /-- `modid` in `meta.ini`, if there is a file that can be read and has one -/
  metaIni : Except LocalError (Option String)
  fetch : Nat → FetchAttempt

/-- `int(text)` -/
def toInt (text : String) : Except LocalError Int :=
  match PyStr.int text with
  | some n => .ok n
  | none => .error (valueError ("invalid literal for int() with base 10: '" ++ text ++ "'"))

variable (lib : Library)

def extractNexusId (entry : Entry) : Except LocalError (Option Int) :=
  match Scraper.assertSafeComponent lib.repr "mod_name" entry.modName with
  | .error _ => .ok none
  | .ok () =>
      match ((PyStr.split '-' entry.modName).map PyStr.strip).find? fun stripped =>
          lib.isDigit stripped && 2 ≤ stripped.length with
      | some stripped => (toInt stripped).map some
      | none => do
          match ← entry.metaIni with
          | some modid =>
              if lib.isDigit modid && modid ≠ "0" then (toInt modid).map some else return none
          | none => return none

/-- `"mod_id" in info` -/
def hasModId : Json → Except LocalError Bool
  | .obj fields => .ok (fields.lookup "mod_id").isSome
  | .arr items => .ok (items.any fun item => item matches .str "mod_id")
  | .str text => .ok ("mod_id".toList <:+: text.toList)
  | _ => .error (typeError "argument is not iterable")

/-- `info["mod_id"]` behind the test; only a dict has it. -/
def modId : Json → Except LocalError Json
  | .obj fields => .ok ((fields.lookup "mod_id").getD .null)
  | _ => .error (typeError "indices must be integers")

/-- `info.get(name, fallback)` of the dict. -/
def field (info : Json) (name : String) (fallback : Json) : Json :=
  match info with
  | .obj fields => (fields.lookup name).getD fallback
  | _ => fallback

/-- A row of `upsert_mods_batch`. -/
structure ModRow where
  modId : Int
  name : String
  version : String
  author : String
  category : String
  downloadUrl : String
  installed : Bool
  enabled : Bool

/-- How an entry is counted. -/
inductive ModEnd
  | skipped
  | failed (error : String)
  | processed (row : ModRow)

def modRow (entry : Entry) (info : Json) (id : Int) : ModRow where
  modId := id
  name := lib.str (field info "name" (.str entry.modName))
  version := lib.str (field info "version" (.str ""))
  author := lib.str (field info "author" (.str ""))
  category := lib.str (field info "category_id" (.str ""))
  downloadUrl := lib.str (field info "download_url" (.str ""))
  installed := true
  enabled := entry.enabled

/-- From the metadata on. -/
def afterFetch (entry : Entry) (info : Json) : Except LocalError ModEnd := do
  if !info.truthy then return .skipped
  else if !(← hasModId info) then return .skipped
  else return .processed (modRow lib entry info (← lib.int (← modId info)))

/-- A turn of the loop of `_process_batch_inner`. -/
def handleMod (entry : Entry) : Except Raised ModEnd :=
  match extractNexusId lib entry with
  | .error e => .error e.raised
  | .ok none => .ok .skipped
  | .ok (some nexusId) =>
      match safeFetchInfo nexusId entry.fetch with
      | .error e =>
          if e.isinstance networkErrors then .ok (.failed (entry.modName ++ ": " ++ e.text))
          else .error e
      | .ok info => (afterFetch lib entry info).mapError LocalError.raised

/-! ## The run -/

/-- `SyncConfig`, as far as the run reads it. -/
structure SyncConfig where
  workerCount : Int
  batchSize : Int
  queueMaxsize : Int

/-- The pills that are sent, and the workers that are started. -/
def SyncConfig.workers (config : SyncConfig) : Nat := config.workerCount.toNat

/-- `SyncResult`; the fields about a rollback are not written. -/
structure SyncResult where
  processed : Nat
  failed : Nat
  skipped : Nat
  errors : List String

def SyncResult.total (result : SyncResult) : Nat := result.processed + result.failed + result.skipped

/-- The counters for an entry. -/
def SyncResult.count (result : SyncResult) : ModEnd → SyncResult
  | .skipped => { result with skipped := result.skipped + 1 }
  | .failed error => { result with failed := result.failed + 1, errors := result.errors ++ [error] }
  | .processed _ => { result with processed := result.processed + 1 }

abbrev Batch := List Entry

/-- The producer, and what it still has to do. -/
inductive Producer
  | reading (batch : Batch) (rest : List Entry)
  /-- `ended`: the modlist is at its end. -/
  | putting (batch : Batch) (rest : List Entry) (ended : Bool)
  /-- `failure`: what `_produce` raised. -/
  | poisoning (left : Nat) (failure : Option Raised)
  | finished

/-- A worker; what it knows of a batch are the entries that are left, and its rows and log rows. -/
inductive Worker
  | idle
  | working (batch rest : Batch) (modRows : List ModRow) (logRows : List String)
  | stopped

/-- What the workers share. -/
structure Shared where
  /-- a batch, or a pill -/
  queue : List (Option Batch)
  result : SyncResult
  /-- the entries that were counted, in their order -/
  handled : List Entry
  /-- an exception has left a task: the group cancels the others and raises -/
  aborted : Option Raised

def Shared.full (config : SyncConfig) (shared : Shared) : Bool :=
  0 < config.queueMaxsize && config.queueMaxsize ≤ shared.queue.length

structure State where
  producer : Producer
  shared : Shared
  workers : List Worker

variable (config : SyncConfig)

/-- A step of the producer; at a full queue it waits. -/
def produce (s : State) : Option State :=
  match s.producer with
  | .reading batch (entry :: rest) =>
      let batch := batch ++ [entry]
      if config.batchSize ≤ batch.length then some { s with producer := .putting batch rest false }
      else some { s with producer := .reading batch rest }
  | .reading batch [] =>
      if batch.isEmpty then some { s with producer := .poisoning config.workers none }
      else some { s with producer := .putting batch [] true }
  | .putting batch rest ended =>
      if s.shared.full config then none
      else
        some { s with
          producer := if ended then .poisoning config.workers none else .reading [] rest
          shared := { s.shared with queue := s.shared.queue ++ [some batch] } }
  | .poisoning (left + 1) failure =>
      if s.shared.full config then none
      else
        some { s with
          producer := .poisoning left failure
          shared := { s.shared with queue := s.shared.queue ++ [none] } }
  | .poisoning 0 none => some { s with producer := .finished }
  | .poisoning 0 (some e) => some { s with shared := { s.shared with aborted := some e } }
  | .finished => none

/-- `read_modlist` raises. -/
def readFails (s : State) (e : Raised) : Option State :=
  match s.producer with
  | .reading _ _ => some { s with producer := .poisoning config.workers (some e) }
  | _ => none

/-- `wait_for` gives up. -/
def timeOut (s : State) : Option State :=
  match s.producer with
  | .putting _ _ _ =>
      some { s with producer := .poisoning config.workers (some ⟨.timeoutError, ""⟩) }
  | .poisoning (_ + 1) _ =>
      some { s with shared := { s.shared with aborted := some ⟨.timeoutError, ""⟩ } }
  | _ => none

/-- The handlers of `_consume`. -/
def consumeRaised (shared : Shared) (batch : Batch) (e : Raised) : Shared × Worker :=
  if e.isinstance networkErrors then
    ({ shared with
        result := { shared.result with failed := shared.result.failed + batch.length }
        handled := shared.handled ++ batch }, .idle)
  else ({ shared with aborted := some e }, .stopped)

/-- A row of `log_tasks_batch` for an entry, if it gets one. -/
def logRow (entry : Entry) : ModEnd → List String
  | .skipped => []
  | .failed error => ["error: " ++ error]
  | .processed _ => ["ok: " ++ entry.modName]

/-- A step of a worker; `registry` is how the two calls at the end of a batch go. -/
def consume (registry : List ModRow → List String → Option LocalError) (shared : Shared) :
    Worker → Option (Shared × Worker)
  | .idle =>
      match shared.queue with
      | [] => none
      | none :: queue => some ({ shared with queue := queue }, .stopped)
      | some batch :: queue => some ({ shared with queue := queue }, .working batch batch [] [])
  | .working batch (entry :: rest) modRows logRows =>
      match handleMod lib entry with
      | .ok ending =>
          let modRows := match ending with
            | .processed row => modRows ++ [row]
            | _ => modRows
          some ({ shared with
              result := shared.result.count ending
              handled := shared.handled ++ [entry] },
            .working batch rest modRows (logRows ++ logRow entry ending))
      | .error e => some (consumeRaised shared batch e)
  | .working batch [] modRows logRows =>
      match registry modRows logRows with
      | none => some (shared, .idle)
      | some e => some (consumeRaised shared batch e.raised)
  | .stopped => none

/-- Who goes on, and how the calls of that step end. -/
inductive Action
  | produce
  | readFails (e : Raised)
  | timeOut
  | consume (worker : Nat) (registry : List ModRow → List String → Option LocalError)

def step (s : State) (action : Action) : Option State :=
  if s.shared.aborted.isSome then none
  else
    match action with
    | .produce => produce config s
    | .readFails e => readFails config s e
    | .timeOut => timeOut config s
    | .consume worker registry =>
        (Interleave.stepAt (consume lib registry) s.shared s.workers worker).map fun after =>
          { s with shared := after.1, workers := after.2 }

/-- `run`, for the entries that the modlist yields. -/
def start (entries : List Entry) : State where
  producer := .reading [] entries
  shared := ⟨[], ⟨0, 0, 0, []⟩, [], none⟩
  workers := List.replicate config.workers .idle

/-- The group is left without an exception. -/
def State.Terminated (s : State) : Prop :=
  s.shared.aborted = none ∧ s.producer = .finished ∧ ∀ worker ∈ s.workers, worker = .stopped

/-- Every entry was counted once, by one of the three counters. -/
def Accounted (entries : List Entry) (s : State) : Prop :=
  s.shared.handled.Perm entries ∧ s.shared.result.total = entries.length

def Worker.pending : Worker → List Entry
  | idle => []
  | working _ rest _ _ => rest
  | stopped => []

def Producer.pending : Producer → List Entry
  | reading batch rest => batch ++ rest
  | putting batch rest _ => batch ++ rest
  | poisoning _ _ => []
  | finished => []

/-- The entries, in the order in which they come closer to being counted. -/
def State.entries (s : State) : List Entry :=
  s.shared.handled ++ s.workers.flatMap Worker.pending ++
    s.shared.queue.flatMap (fun batch => batch.getD []) ++ s.producer.pending

def Worker.isStopped : Worker → Bool
  | stopped => true
  | _ => false

/-- The workers that have had their pill. -/
def State.stopped (s : State) : Nat := s.workers.countP Worker.isStopped

/-- The run will raise. -/
def State.Doomed (s : State) : Prop :=
  s.shared.aborted ≠ none ∨ ∃ left e, s.producer = .poisoning left (some e)

/-- How many pills have been sent, if they are in the queue or with a worker. -/
def Producer.Sent (config : SyncConfig) (sent : Nat) : Producer → Prop
  | reading _ _ | putting _ _ _ => sent = 0
  | poisoning left _ => sent + left = config.workers
  | finished => sent = config.workers

/-- No batch is behind a pill, and with a worker that has stopped none is left. -/
def Ordered (config : SyncConfig) (producer : Producer) (queue : List (Option Batch))
    (stopped : Nat) : Prop :=
  ∃ batches pills, queue = batches.map some ++ List.replicate pills none ∧
    producer.Sent config (pills + stopped) ∧ (0 < stopped → batches = [])

/-- What holds of a run for these entries, as long as it is not doomed. -/
structure State.Sound (config : SyncConfig) (entries : List Entry) (s : State) : Prop where
  entries_perm : s.entries.Perm entries
  total_eq : s.shared.result.total = s.shared.handled.length
  workers_length : s.workers.length = config.workers
  ordered : Ordered config s.producer s.shared.queue s.stopped
  ended : ∀ batch rest, s.producer = .putting batch rest true → rest = []

variable {lib config}

/-! ### The workers -/

variable {e : Raised}

theorem handleMod_not_network {entry : Entry}
    (h : handleMod lib entry = .error e) : e.isinstance networkErrors = false := by
  unfold handleMod at h
  split at h
  · next raised _ =>
      cases h
      exact raised.raised_not_network
  · cases h
  · split at h
    · next raised _ =>
        split at h
        · cases h
        · next hnot =>
            cases h
            exact eq_false_of_ne_true hnot
    · next info _ =>
        cases hafter : afterFetch lib entry info with
        | ok ending =>
            rw [hafter] at h
            cases h
        | error raised =>
            rw [hafter] at h
            cases h
            exact raised.raised_not_network

/-- A step of a worker, unless it ends the run. -/
inductive Consumes (lib : Library) : Shared → Worker → Shared → Worker → Prop
  | pill {shared : Shared} {queue : List (Option Batch)} (hqueue : shared.queue = none :: queue) :
      Consumes lib shared .idle { shared with queue := queue } .stopped
  | batch {shared : Shared} {batch : Batch} {queue : List (Option Batch)}
      (hqueue : shared.queue = some batch :: queue) :
      Consumes lib shared .idle { shared with queue := queue } (.working batch batch [] [])
  | mod {shared : Shared} {batch rest : Batch} {entry : Entry} {modRows modRows' : List ModRow}
      {logRows logRows' : List String} {ending : ModEnd}
      (hending : handleMod lib entry = .ok ending) :
      Consumes lib shared (.working batch (entry :: rest) modRows logRows)
        { shared with
          result := shared.result.count ending
          handled := shared.handled ++ [entry] }
        (.working batch rest modRows' logRows')
  | stored {shared : Shared} {batch : Batch} {modRows : List ModRow} {logRows : List String} :
      Consumes lib shared (.working batch [] modRows logRows) shared .idle

theorem consumeRaised_aborts {shared : Shared} {batch : Batch}
    (h : e.isinstance networkErrors = false) : (consumeRaised shared batch e).1.aborted = some e := by
  unfold consumeRaised
  rw [h]
  rfl

variable {registry : List ModRow → List String → Option LocalError}

/-- **A batch is not counted again**: what the handlers of a batch see are never network errors. -/
theorem consumes_of_consume
    {shared shared' : Shared} {worker worker' : Worker}
    (h : consume lib registry shared worker = some (shared', worker')) :
    shared'.aborted ≠ none ∨ Consumes lib shared worker shared' worker' := by
  unfold consume at h
  split at h
  · split at h
    · cases h
    · next queue hqueue =>
        cases h
        exact .inr (.pill hqueue)
    · next batch queue hqueue =>
        cases h
        exact .inr (.batch hqueue)
  · next batch entry rest modRows logRows =>
      cases hending : handleMod lib entry with
      | ok ending =>
          rw [hending] at h
          cases h
          exact .inr (.mod hending)
      | error e =>
          rw [hending] at h
          have hshared : (consumeRaised shared batch e).1 = shared' :=
            congrArg Prod.fst (Option.some.inj h)
          refine .inl ?_
          rw [← hshared, consumeRaised_aborts (handleMod_not_network hending)]
          exact Option.some_ne_none e
  · next batch modRows logRows =>
      cases hregistry : registry modRows logRows with
      | none =>
          rw [hregistry] at h
          cases h
          exact .inr .stored
      | some e =>
          rw [hregistry] at h
          have hshared : (consumeRaised shared batch e.raised).1 = shared' :=
            congrArg Prod.fst (Option.some.inj h)
          refine .inl ?_
          rw [← hshared, consumeRaised_aborts e.raised_not_network]
          exact Option.some_ne_none _
  · cases h

theorem total_count (result : SyncResult) (ending : ModEnd) :
    (result.count ending).total = result.total + 1 := by
  unfold SyncResult.count SyncResult.total
  cases ending with
  | skipped => rfl
  | failed error =>
      show result.processed + (result.failed + 1) + result.skipped = _
      omega
  | processed row =>
      show result.processed + 1 + result.failed + result.skipped = _
      omega

section Worker

variable {producer : Producer} {shared shared' : Shared} {worker worker' : Worker}
  {before after : List Worker}

/-- No entry is lost or doubled by a worker. -/
theorem entries_of_consumes (h : Consumes lib shared worker shared' worker') :
    (State.mk producer shared' (before ++ worker' :: after)).entries.Perm
      (State.mk producer shared (before ++ worker :: after)).entries := by
  classical
  rw [List.perm_iff_count]
  intro entry
  unfold State.entries
  simp only [List.flatMap_append, List.flatMap_cons, List.count_append]
  cases h with
  | pill hqueue =>
      rw [hqueue]
      rfl
  | batch hqueue =>
      rw [hqueue]
      simp only [List.flatMap_cons, Option.getD_some, List.count_append, Worker.pending,
        List.count_nil]
      omega
  | mod hending =>
      simp only [Worker.pending, List.count_append, List.count_cons, List.count_nil]
      omega
  | stored => rfl

theorem total_of_consumes (h : Consumes lib shared worker shared' worker')
    (htotal : shared.result.total = shared.handled.length) :
    shared'.result.total = shared'.handled.length := by
  cases h with
  | pill | batch | stored => exact htotal
  | mod hending =>
      show (shared.result.count _).total = (shared.handled ++ [_]).length
      rw [total_count, htotal, List.length_append]
      rfl

theorem ordered_of_consumes (h : Consumes lib shared worker shared' worker')
    (hordered : Ordered config producer shared.queue
      ((before ++ worker :: after).countP Worker.isStopped)) :
    Ordered config producer shared'.queue
      ((before ++ worker' :: after).countP Worker.isStopped) := by
  rw [List.countP_append, List.countP_cons] at hordered ⊢
  obtain ⟨batches, pills, hqueue, hsent, hnone⟩ := hordered
  cases h with
  | pill hpill =>
      rw [hpill] at hqueue
      cases batches with
      | cons batch batches => cases hqueue
      | nil =>
          cases pills with
          | zero => cases hqueue
          | succ pills =>
              refine ⟨[], pills, (List.cons.inj hqueue).2, ?_, fun _ => rfl⟩
              have hsum : pills + (before.countP Worker.isStopped +
                  (after.countP Worker.isStopped + 1)) =
                  pills + 1 + (before.countP Worker.isStopped + (after.countP Worker.isStopped + 0)) := by
                omega
              exact hsum ▸ hsent
  | batch hbatch =>
      rw [hbatch] at hqueue
      cases batches with
      | nil =>
          cases pills with
          | zero | succ => cases hqueue
      | cons batch' batches =>
          refine ⟨batches, pills, (List.cons.inj hqueue).2, hsent, fun hpos => ?_⟩
          cases hnone hpos
  | mod | stored => exact ⟨batches, pills, hqueue, hsent, hnone⟩

end Worker

variable {s : State}

theorem sound_of_consume
    {entries : List Entry} (hs : s.Sound config entries) {i : Nat} {shared' : Shared}
    {workers' : List Worker}
    (h : Interleave.stepAt (consume lib registry) s.shared s.workers i = some (shared', workers')) :
    shared'.aborted ≠ none ∨ State.Sound config entries ⟨s.producer, shared', workers'⟩ := by
  obtain ⟨producer, shared, workers⟩ := s
  obtain ⟨before, worker, after, worker', hworkers, hconsume, rfl⟩ := Interleave.stepAt_cases h
  dsimp only at hworkers hconsume
  subst hworkers
  refine (consumes_of_consume hconsume).imp_right fun hconsumes => ?_
  exact
    { entries_perm := (entries_of_consumes hconsumes).trans hs.entries_perm
      total_eq := total_of_consumes hconsumes hs.total_eq
      workers_length := by
        have hlength := hs.workers_length
        simpa only [List.length_append, List.length_cons] using hlength
      ordered := ordered_of_consumes hconsumes hs.ordered
      ended := hs.ended }

/-! ### The producer -/

theorem Ordered.put_batch {batch rest : List Entry} {ended : Bool} {queue : List (Option Batch)}
    {stopped : Nat} (h : Ordered config (.putting batch rest ended) queue stopped)
    {producer : Producer} (hsent : producer.Sent config 0) :
    Ordered config producer (queue ++ [some batch]) stopped := by
  obtain ⟨batches, pills, rfl, hsome, _⟩ := h
  obtain ⟨rfl, rfl⟩ := Nat.add_eq_zero_iff.mp hsome
  refine ⟨batches ++ [batch], 0, ?_, hsent, fun hpos => absurd hpos (Nat.lt_irrefl 0)⟩
  rw [List.replicate_zero, List.append_nil, List.append_nil, List.map_append]
  rfl

theorem Ordered.put_pill {left : Nat} {queue : List (Option Batch)} {stopped : Nat}
    (h : Ordered config (.poisoning (left + 1) none) queue stopped) :
    Ordered config (.poisoning left none) (queue ++ [none]) stopped := by
  obtain ⟨batches, pills, rfl, hsent, hnone⟩ := h
  refine ⟨batches, pills + 1, ?_, ?_, hnone⟩
  · rw [List.append_assoc, List.replicate_succ']
  · show pills + 1 + stopped + left = config.workers
    have hsum : pills + stopped + (left + 1) = config.workers := hsent
    omega

variable {producer' : Producer}

theorem Ordered.mono {producer : Producer} {queue : List (Option Batch)} {stopped : Nat}
    (h : Ordered config producer queue stopped)
    (hsent : ∀ sent, producer.Sent config sent → producer'.Sent config sent) :
    Ordered config producer' queue stopped := by
  obtain ⟨batches, pills, hqueue, hsome, hnone⟩ := h
  exact ⟨batches, pills, hqueue, hsent _ hsome, hnone⟩

theorem entries_perm_of_produce {producer : Producer} {shared : Shared}
    {workers : List Worker} {put : List (Option Batch)} {entries : List Entry}
    (h : (State.mk producer shared workers).entries.Perm entries)
    (hpending : put.flatMap (fun batch => batch.getD []) ++ producer'.pending = producer.pending) :
    (State.mk producer' { shared with queue := shared.queue ++ put } workers).entries.Perm
      entries := by
  refine (List.Perm.of_eq ?_).trans h
  unfold State.entries
  rw [← hpending, List.flatMap_append]
  simp only [List.append_assoc]

variable {t : State}

theorem sound_of_produce {entries : List Entry} (hs : s.Sound config entries)
    (h : produce config s = some t) : t.Doomed ∨ t.Sound config entries := by
  obtain ⟨producer, shared, workers⟩ := s
  obtain ⟨hentries, htotal, hlength, hordered, hended⟩ := hs
  dsimp only at htotal hlength hordered hended
  have hkept : ∀ producer', producer'.pending = producer.pending →
      (State.mk producer' shared workers).entries.Perm entries := by
    intro producer' hpending
    have hperm : (State.mk producer' { shared with queue := shared.queue ++ [] } workers).entries.Perm
        entries := entries_perm_of_produce hentries hpending
    rwa [List.append_nil] at hperm
  unfold produce at h
  cases producer with
  | reading batch rest =>
      cases rest with
      | cons entry rest =>
          dsimp only at h
          have hpending : batch ++ [entry] ++ rest = batch ++ entry :: rest := by
            rw [List.append_assoc]
            rfl
          split at h
          · cases h
            exact .inr ⟨hkept _ hpending, htotal, hlength, hordered, fun _ _ hput => by cases hput⟩
          · cases h
            exact .inr ⟨hkept _ hpending, htotal, hlength, hordered, fun _ _ hput => by cases hput⟩
      | nil =>
          dsimp only at h
          split at h
          · next hempty =>
              cases h
              refine .inr ⟨hkept _ ?_, htotal, hlength, hordered.mono ?_,
                fun _ _ hput => by cases hput⟩
              · rw [List.isEmpty_iff.mp hempty]
                rfl
              · intro sent hsent
                show sent + config.workers = config.workers
                rw [show sent = 0 from hsent, Nat.zero_add]
          · cases h
            refine .inr ⟨hkept _ rfl, htotal, hlength, hordered, fun _ _ hput => ?_⟩
            cases hput
            rfl
  | putting batch rest ended =>
      dsimp only at h
      split at h
      · cases h
      · cases h
        cases ended with
        | true =>
            obtain rfl := hended batch rest rfl
            have hput : Ordered config (.poisoning config.workers none)
                (shared.queue ++ [some batch]) (workers.countP Worker.isStopped) :=
              hordered.put_batch (Nat.zero_add config.workers)
            refine .inr ⟨entries_perm_of_produce hentries ?_, htotal, hlength, hput,
              fun _ _ hput => by cases hput⟩
            show batch ++ [] ++ [] = batch ++ []
            rw [List.append_nil]
        | false =>
            have hput : Ordered config (.reading [] rest)
                (shared.queue ++ [some batch]) (workers.countP Worker.isStopped) :=
              hordered.put_batch rfl
            refine .inr ⟨entries_perm_of_produce hentries ?_, htotal, hlength, hput,
              fun _ _ hput => by cases hput⟩
            show batch ++ [] ++ ([] ++ rest) = batch ++ rest
            rw [List.append_nil, List.nil_append]
  | poisoning left failure =>
      cases failure with
      | some e =>
          cases left with
          | zero =>
              cases h
              exact .inl (.inl (Option.some_ne_none e))
          | succ left =>
              dsimp only at h
              split at h
              · cases h
              · cases h
                exact .inl (.inr ⟨left, e, rfl⟩)
      | none =>
          cases left with
          | zero =>
              cases h
              exact .inr ⟨hkept _ rfl, htotal, hlength, hordered.mono fun _ hsent => hsent,
                fun _ _ hput => by cases hput⟩
          | succ left =>
              dsimp only at h
              split at h
              · cases h
              · cases h
                exact .inr ⟨entries_perm_of_produce hentries rfl, htotal, hlength,
                  hordered.put_pill, fun _ _ hput => by cases hput⟩
  | finished => cases h

/-! ### The run -/

variable {action : Action}

theorem doomed_of_step (hs : s.Doomed)
    (h : step lib config s action = some t) : t.Doomed := by
  unfold step at h
  by_cases haborted : s.shared.aborted.isSome = true
  · rw [if_pos haborted] at h
    cases h
  rw [if_neg haborted] at h
  rcases hs with hs | ⟨left, e, hproducer⟩
  · exact absurd (Option.isSome_iff_ne_none.mpr hs) haborted
  obtain ⟨producer, shared, workers⟩ := s
  dsimp only at hproducer
  subst hproducer
  cases action with
  | produce =>
      dsimp only [produce] at h
      cases left with
      | zero =>
          cases h
          exact .inl (Option.some_ne_none e)
      | succ left =>
          dsimp only at h
          split at h
          · cases h
          · cases h
            exact .inr ⟨left, e, rfl⟩
  | readFails e' => cases h
  | timeOut =>
      cases left with
      | zero => cases h
      | succ left =>
          cases h
          exact .inl (Option.some_ne_none _)
  | consume worker registry =>
      obtain ⟨after, _, rfl⟩ := Option.map_eq_some_iff.mp h
      exact .inr ⟨left, e, rfl⟩

theorem sound_of_step {entries : List Entry}
    (hs : s.Sound config entries) (h : step lib config s action = some t) :
    t.Doomed ∨ t.Sound config entries := by
  unfold step at h
  by_cases haborted : s.shared.aborted.isSome = true
  · rw [if_pos haborted] at h
    cases h
  rw [if_neg haborted] at h
  cases action with
  | produce => exact sound_of_produce hs h
  | readFails e =>
      dsimp only [readFails] at h
      split at h
      · cases h
        exact .inl (.inr ⟨_, e, rfl⟩)
      · cases h
  | timeOut =>
      dsimp only [timeOut] at h
      split at h
      · cases h
        exact .inl (.inr ⟨_, _, rfl⟩)
      · cases h
        exact .inl (.inl (Option.some_ne_none _))
      · cases h
  | consume worker registry =>
      obtain ⟨after, hstep, rfl⟩ := Option.map_eq_some_iff.mp h
      exact (sound_of_consume hs hstep).imp_left Or.inl

theorem sound_start (config : SyncConfig) (entries : List Entry) :
    (start config entries).Sound config entries where
  entries_perm := by
    have hidle : (List.replicate config.workers Worker.idle).flatMap Worker.pending = [] :=
      List.flatMap_eq_nil_iff.mpr fun worker hmem => by rw [List.eq_of_mem_replicate hmem]; rfl
    unfold State.entries start
    rw [hidle]
    exact List.Perm.refl entries
  total_eq := rfl
  workers_length := List.length_replicate
  ordered := by
    have hstopped : (start config entries).stopped = 0 :=
      List.countP_eq_zero.mpr fun worker hmem => by
        rw [List.eq_of_mem_replicate hmem]
        exact Bool.false_ne_true
    rw [hstopped]
    exact ⟨[], 0, rfl, rfl, fun _ => rfl⟩
  ended := fun _ _ hput => by cases hput

/-- A sound run that has terminated, with a worker at least. -/
theorem accounted_of_sound {entries : List Entry} (hworkers : 0 < config.workerCount)
    (hs : s.Sound config entries) (h : s.Terminated) : Accounted entries s := by
  obtain ⟨_, hproducer, hstopped⟩ := h
  have hcount : s.stopped = config.workers := by
    rw [← hs.workers_length]
    exact List.countP_eq_length.mpr fun worker hmem => by rw [hstopped worker hmem]; rfl
  have hpos : 0 < s.stopped := by
    rw [hcount]
    unfold SyncConfig.workers
    omega
  obtain ⟨batches, pills, hqueue, hsent, hnone⟩ := hs.ordered
  have hentries : s.entries = s.shared.handled := by
    have hpending : s.workers.flatMap Worker.pending = [] :=
      List.flatMap_eq_nil_iff.mpr fun worker hmem => by rw [hstopped worker hmem]; rfl
    have hempty : s.shared.queue.flatMap (fun batch => batch.getD []) = [] := by
      rw [hqueue, hnone hpos]
      refine List.flatMap_eq_nil_iff.mpr fun batch hmem => ?_
      rw [List.eq_of_mem_replicate hmem]
      rfl
    unfold State.entries
    rw [hpending, hempty, hproducer]
    simp only [Producer.pending, List.append_nil]
  have hperm := hentries ▸ hs.entries_perm
  exact ⟨hperm, hs.total_eq.trans hperm.length_eq⟩

/-- In a run that ends without an exception the workers, if there are any, have counted every entry
once. -/
theorem accounted_of_terminated {lib : Library} {config : SyncConfig} {entries : List Entry}
    {schedule : List Action} {s : State} (hworkers : 0 < config.workerCount)
    (hrun : Runs.exec (step lib config) (start config entries) schedule = some s)
    (hterminated : s.Terminated) : Accounted entries s := by
  have hinvariant : s.Doomed ∨ s.Sound config entries := by
    have hkeeps : ∀ s action t, s.Doomed ∨ s.Sound config entries →
        step lib config s action = some t → t.Doomed ∨ t.Sound config entries :=
      fun s action t hs hstep =>
        hs.elim (fun hs => Or.inl (doomed_of_step hs hstep)) fun hs => sound_of_step hs hstep
    exact (Runs.throughout_of_step hkeeps (Or.inr (sound_start config entries)) schedule).exec hrun
  rcases hinvariant with hdoomed | hsound
  · rcases hdoomed with haborted | ⟨left, e, hproducer⟩
    · exact absurd hterminated.1 haborted
    · rw [hterminated.2.1] at hproducer
      cases hproducer
  · exact accounted_of_sound hworkers hsound hterminated

/-- A line of the modlist without a name: it is skipped. -/
def nameless : Entry where
  modName := ""
  enabled := true
  metaIni := .ok none
  fetch := fun _ => ⟨true, .refused ⟨.clientError, ""⟩⟩

def plain : Library := ⟨id, fun _ => false, fun _ => .ok 0, fun _ => ""⟩

/-- One worker, one entry. -/
theorem accounted_of_terminated_nameless :
    ∃ s, Runs.exec (step plain ⟨1, 20, 50⟩) (start ⟨1, 20, 50⟩ [nameless])
      (List.replicate 5 .produce ++ List.replicate 4 (.consume 0 fun _ _ => none)) = some s ∧
      Accounted [nameless] s := by
  refine ⟨_, rfl, ?_⟩
  refine @accounted_of_terminated plain ⟨1, 20, 50⟩ [nameless]
    (List.replicate 5 .produce ++ List.replicate 4 (.consume 0 fun _ _ => none)) _
    (by decide) rfl ⟨rfl, rfl, fun worker hmem => ?_⟩
  exact List.mem_singleton.mp hmem

/-- Without a worker a run ends as well, and the entry is left in the queue. -/
theorem accounted_counterexample :
    ¬ ∀ schedule s, Runs.exec (step plain ⟨0, 20, 50⟩) (start ⟨0, 20, 50⟩ [nameless]) schedule =
      some s → s.Terminated → Accounted [nameless] s := by
  intro h
  obtain ⟨hperm, _⟩ := h (List.replicate 4 .produce) _ rfl
    ⟨rfl, rfl, fun worker hmem => absurd hmem List.not_mem_nil⟩
  exact absurd hperm.length_eq (by decide)

end SkyClaw.Orchestrator.SyncRun
