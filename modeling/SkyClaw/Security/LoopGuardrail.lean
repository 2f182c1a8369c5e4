import SkyClaw.Lib.PyValue
import SkyClaw.Lib.TailWindow
import SkyClaw.Orchestrator.StateGraph

/-!
# The guardrail against repeated actions

`AgenticLoopGuardrail` keeps the hashes of the last actions and trips when the last of them are
the same.  `trips_iff` says so of the actions themselves, over a history without bound: the
window forgets nothing that the test asks for, and the hashed text tells tools and arguments apart.
-/

namespace SkyClaw.Security.LoopGuardrail

open TailWindow

/-! ## Actions -/

/-- The kwargs of a tool. -/
structure ToolArgs (F : JsonText.PyFloatText) where
  entries : List (PyValue × PyValue)
  valid : PyValue.Valid (.dict entries)
  floats : PyValue.HasFloats F (.dict entries)

/-- An action that is about to be taken. -/
structure ToolAction (F : JsonText.PyFloatText) where
  toolName : String
  toolArgs : ToolArgs F

section Texts

variable {F : JsonText.PyFloatText}

def ToolArgs.value (args : ToolArgs F) : PyValue := .dict args.entries

/-- `json.dumps(tool_args, sort_keys=True, default=str)` -/
def ToolArgs.document (args : ToolArgs F) : Option JsonTree := PyValue.encode F args.value

/-- `f"{tool_name}|{args_str}"`; `none` where `json.dumps` raises. -/
def ToolAction.text (action : ToolAction F) : Option (List Char) :=
  action.toolArgs.document.map fun t => action.toolName.toList ++ '|' :: t.write F

/-- The arguments are written, as one document. -/
def SameArgs (args others : ToolArgs F) : Prop :=
  ∃ t, args.document = some t ∧ others.document = some t

def SameAction (action other : ToolAction F) : Prop :=
  action.toolName = other.toolName ∧ SameArgs action.toolArgs other.toolArgs

/-- **The text tells actions apart**: no tool name with a bar in it runs into the arguments. -/
theorem text_eq_iff {action other : ToolAction F} {text : List Char}
    (htext : action.text = some text) : other.text = some text ↔ SameAction action other := by
  obtain ⟨t, ht, rfl⟩ := Option.map_eq_some_iff.mp htext
  constructor
  · intro hother
    obtain ⟨u, hu, heq⟩ := Option.map_eq_some_iff.mp hother
    have hwritten := PyValue.wellFormed_encode other.toolArgs.floats hu
    have hwritten' := PyValue.wellFormed_encode action.toolArgs.floats ht
    obtain ⟨hname, rfl⟩ := JsonTree.bar_write_injective hwritten hwritten' heq
    exact ⟨String.toList_inj.mp hname.symm, u, ht, hu⟩
  · rintro ⟨hname, u, hu, hu'⟩
    cases hu.symm.trans ht
    rw [ToolAction.text, hu', hname]
    rfl

theorem sameArgs_iff {args others : ToolArgs F} (hjson : args.value.IsJson)
    (hjson' : others.value.IsJson) (hwritten : args.document.isSome = true)
    (hwritten' : others.document.isSome = true) :
    SameArgs args others ↔ args.value.sameJson others.value = true := by
  obtain ⟨t, ht⟩ := Option.isSome_iff_exists.mp hwritten
  obtain ⟨u, hu⟩ := Option.isSome_iff_exists.mp hwritten'
  have hsame : t = u ↔ args.value.sameJson others.value = true :=
    PyValue.encode_eq_iff args.valid others.valid hjson hjson' ht hu
  rw [← hsame]
  constructor
  · rintro ⟨v, hv, hv'⟩
    exact (Option.some.inj (ht.symm.trans hv)).trans (Option.some.inj (hv'.symm.trans hu))
  · rintro rfl
    exact ⟨t, ht, hu⟩

end Texts

/-! ## The guardrail -/

/-- `CircuitBreakerTrippedError` -/
structure CircuitBreakerTripped where
  message : String
  toolName : String
  occurrences : Nat

inductive Raised
  /-- `json.dumps` raised; the action is not registered. -/
  | dumps
  | tripped (error : CircuitBreakerTripped)

/-- An `AgenticLoopGuardrail`, within the bounds that its constructor checks. -/
structure Guardrail (H : Type) where
  maxRepeats : Nat
  windowSize : Nat
  history : List H
  two_le : 2 ≤ maxRepeats
  le_window : maxRepeats ≤ windowSize

def Guardrail.init (H : Type) (maxRepeats windowSize : Int) : Except String (Guardrail H) :=
  if hrepeats : maxRepeats < 2 then .error "max_repeats must be >= 2"
  else if hwindow : windowSize < maxRepeats then .error "window_size must be >= max_repeats"
  else .ok ⟨maxRepeats.toNat, windowSize.toNat, [], by omega, by omega⟩

section Code

variable {F : JsonText.PyFloatText} {H : Type} [DecidableEq H]

def tripped (toolName : String) (maxRepeats : Nat) : CircuitBreakerTripped where
  message := "Has entrado en un bucle intentando usar '" ++ toolName ++ "'. " ++
    "DETENTE. Solicita asistencia humana (HITL) inmediatamente."
  toolName := toolName
  occurrences := maxRepeats

def registerAndCheck (hash : List Char → H) (guardrail : Guardrail H) (action : ToolAction F) :
    Except Raised Unit × Guardrail H :=
  match action.text with
  | none => (.error .dumps, guardrail)
  | some text =>
      let history := push guardrail.windowSize guardrail.history (hash text)
      if repeated guardrail.maxRepeats history then
        -- An approved retry starts from an empty history.
        (.error (.tripped (tripped action.toolName guardrail.maxRepeats)),
          { guardrail with history := [] })
      else (.ok (), { guardrail with history := history })

def Guardrail.reset (guardrail : Guardrail H) : Guardrail H := { guardrail with history := [] }

inductive Call (F : JsonText.PyFloatText)
  | register (action : ToolAction F)
  | reset

/-- A guardrail with the actions registered since it last tripped or was reset. -/
structure Logged (F : JsonText.PyFloatText) (H : Type) where
  guardrail : Guardrail H
  since : List (ToolAction F)

def step (hash : List Char → H) (s : Logged F H) : Call F → Logged F H
  | .reset => ⟨s.guardrail.reset, []⟩
  | .register action =>
      match registerAndCheck hash s.guardrail action with
      | (.ok (), guardrail) => ⟨guardrail, s.since ++ [action]⟩
      | (.error (.tripped _), guardrail) => ⟨guardrail, []⟩
      | (.error .dumps, guardrail) => ⟨guardrail, s.since⟩

/-- After any registrations and resets. -/
def after (hash : List Char → H) (guardrail : Guardrail H) (calls : List (Call F)) : Logged F H :=
  calls.foldl (step hash) ⟨guardrail, []⟩

def Trips (hash : List Char → H) (guardrail : Guardrail H) (action : ToolAction F) : Prop :=
  ∃ error, (registerAndCheck hash guardrail action).1 = .error (.tripped error)

end Code

/-! ## The window and the history -/

section Proofs

variable {F : JsonText.PyFloatText} {H : Type} {hash : List Char → H} {guardrail : Guardrail H}
  {action : ToolAction F} {s : Logged F H} {maxRepeats windowSize : Nat}

/-- The hash of an action that was registered. -/
def ToolAction.hashed (hash : List Char → H) (action : ToolAction F) : Option H :=
  action.text.map hash

/-- What the window holds of what was registered. -/
structure Logged.Kept (hash : List Char → H) (maxRepeats windowSize : Nat) (s : Logged F H) :
    Prop where
  repeats : s.guardrail.maxRepeats = maxRepeats
  size : s.guardrail.windowSize = windowSize
  written : ∀ action ∈ s.since, action.text.isSome = true
  window : s.guardrail.history.map some =
    (s.since.map (ToolAction.hashed hash)).rtake windowSize

theorem hashed_eq_iff (hinjective : Function.Injective hash) {other : ToolAction F}
    (hwritten : action.text.isSome = true) :
    action.hashed hash = other.hashed hash ↔ SameAction action other := by
  obtain ⟨text, htext⟩ := Option.isSome_iff_exists.mp hwritten
  rw [← text_eq_iff htext, ToolAction.hashed, ToolAction.hashed, htext,
    (Option.map_injective hinjective).eq_iff, eq_comm]

theorem window_push (h : s.Kept hash maxRepeats windowSize) {text : List Char}
    (htext : action.text = some text) :
    (push s.guardrail.windowSize s.guardrail.history (hash text)).map some =
      ((s.since ++ [action]).map (ToolAction.hashed hash)).rtake windowSize := by
  have hpos : 0 < windowSize := by
    have hbound := s.guardrail.le_window
    have htwo := s.guardrail.two_le
    rw [h.size] at hbound
    omega
  have hhashed : action.hashed hash = some (hash text) := by
    rw [ToolAction.hashed, htext]
    rfl
  -- Compared as `Option H`, since an action need not have a text to hash.
  rw [List.map_append, List.map_singleton, ← push_rtake _ hpos, ← h.window, hhashed, h.size,
    push, push, map_rtake, List.map_append, List.map_singleton]

theorem written_append (h : s.Kept hash maxRepeats windowSize) {text : List Char}
    (htext : action.text = some text) : ∀ a ∈ s.since ++ [action], a.text.isSome = true := by
  intro a ha
  rcases List.mem_append.mp ha with hold | hnew
  · exact h.written a hold
  · rw [List.mem_singleton.mp hnew, htext]
    rfl

variable [DecidableEq H]

/-- **The test asks about the actions.** -/
theorem repeated_push_iff (hinjective : Function.Injective hash)
    (h : s.Kept hash maxRepeats windowSize) {text : List Char} (htext : action.text = some text) :
    repeated s.guardrail.maxRepeats (push s.guardrail.windowSize s.guardrail.history (hash text)) =
      true ↔ LastRelated SameAction maxRepeats (s.since ++ [action]) := by
  have hbound : maxRepeats ≤ windowSize := by
    have hle := s.guardrail.le_window
    rwa [h.repeats, h.size] at hle
  have hsome : ∀ history : List H, LastRelated (· = ·) maxRepeats history ↔
      LastRelated (· = ·) maxRepeats (history.map some) := by
    intro history
    rw [lastRelated_map]
    simp only [Option.some.injEq]
  rw [repeated_iff, h.repeats, hsome, window_push h htext, lastRelated_rtake _ hbound,
    lastRelated_map]
  exact LastRelated.congr fun a ha b _ => hashed_eq_iff hinjective
    (written_append h htext a ha)

theorem registerAndCheck_of_text {text : List Char} (htext : action.text = some text) :
    registerAndCheck hash guardrail action =
      if repeated guardrail.maxRepeats (push guardrail.windowSize guardrail.history (hash text))
      then (.error (.tripped (tripped action.toolName guardrail.maxRepeats)),
        { guardrail with history := [] })
      else (.ok (), { guardrail with
        history := push guardrail.windowSize guardrail.history (hash text) }) := by
  unfold registerAndCheck
  rw [htext]

theorem registerAndCheck_of_none (htext : action.text = none) :
    registerAndCheck hash guardrail action = (.error .dumps, guardrail) := by
  unfold registerAndCheck
  rw [htext]

/-- A call keeps the window and the history together. -/
theorem kept_step (h : s.Kept hash maxRepeats windowSize) (call : Call F) :
    (step hash s call).Kept hash maxRepeats windowSize := by
  have hempty : ∀ t : Logged F H, t.guardrail.maxRepeats = s.guardrail.maxRepeats →
      t.guardrail.windowSize = s.guardrail.windowSize → t.guardrail.history = [] → t.since = [] →
      t.Kept hash maxRepeats windowSize := by
    intro t hrepeats hsize hhistory hsince
    refine ⟨hrepeats.trans h.repeats, hsize.trans h.size, ?_, ?_⟩
    · rw [hsince]
      nofun
    · rw [hhistory, hsince]
      simp
  cases call with
  | reset => exact hempty _ rfl rfl rfl rfl
  | register action =>
      simp only [step]
      cases htext : action.text with
      | none =>
          rw [registerAndCheck_of_none htext]
          exact h
      | some text =>
          rw [registerAndCheck_of_text htext]
          by_cases hrepeated : repeated s.guardrail.maxRepeats
              (push s.guardrail.windowSize s.guardrail.history (hash text)) = true
          · rw [if_pos hrepeated]
            exact hempty _ rfl rfl rfl rfl
          · rw [if_neg hrepeated]
            exact ⟨h.repeats, h.size, written_append h htext, window_push h htext⟩

theorem kept_after {maxRepeats windowSize : Int}
    (hinit : Guardrail.init H maxRepeats windowSize = .ok guardrail) (calls : List (Call F)) :
    (after hash guardrail calls).Kept hash maxRepeats.toNat windowSize.toNat := by
  have hfold : ∀ s : Logged F H, s.Kept hash maxRepeats.toNat windowSize.toNat →
      (calls.foldl (step hash) s).Kept hash maxRepeats.toNat windowSize.toNat := by
    induction calls with
    | nil => exact fun s hs => hs
    | cons call calls ih => exact fun s hs => ih (step hash s call) (kept_step hs call)
  refine hfold ⟨guardrail, []⟩ ?_
  unfold Guardrail.init at hinit
  split_ifs at hinit
  cases hinit
  exact ⟨rfl, rfl, nofun, by simp⟩

theorem trips_iff_of_kept (hinjective : Function.Injective hash)
    (h : s.Kept hash maxRepeats windowSize) (action : ToolAction F) :
    Trips hash s.guardrail action ↔ LastRelated SameAction maxRepeats (s.since ++ [action]) := by
  unfold Trips
  cases htext : action.text with
  | none =>
      rw [registerAndCheck_of_none htext]
      refine iff_of_false nofun fun hlast => ?_
      have htwo : 2 ≤ maxRepeats := h.repeats ▸ s.guardrail.two_le
      obtain ⟨-, t, ht, -⟩ := hlast.last (by omega)
      rw [ToolAction.text, ht] at htext
      cases htext
  | some text =>
      rw [registerAndCheck_of_text htext, ← repeated_push_iff hinjective h htext]
      split_ifs with hrepeated
      · exact iff_of_true ⟨_, rfl⟩ hrepeated
      · exact iff_of_false nofun hrepeated

/-- **When the guardrail trips**: exactly if the last `max_repeats` actions registered since the
last trip or reset are the same tool with the same document of arguments, which for arguments that
JSON has means the same values. -/
theorem trips_iff (hinjective : Function.Injective hash) {maxRepeats windowSize : Int}
    (hinit : Guardrail.init H maxRepeats windowSize = .ok guardrail) (calls : List (Call F))
    (action : ToolAction F) :
    (Trips hash (after hash guardrail calls).guardrail action ↔
      LastRelated SameAction maxRepeats.toNat
        ((after hash guardrail calls).since ++ [action])) ∧
    ∀ args others : ToolArgs F, args.value.IsJson → others.value.IsJson →
      args.document.isSome = true → others.document.isSome = true →
      (SameArgs args others ↔ args.value.sameJson others.value = true) :=
  ⟨trips_iff_of_kept hinjective (kept_after hinit calls) action,
    fun _ _ hjson hjson' hwritten hwritten' => sameArgs_iff hjson hjson' hwritten hwritten'⟩

end Proofs

/-! ## Two orders of the keys -/

/-- A tool that is called with two arguments. -/
def patchArgs (entries : List (PyValue × PyValue))
    (hkeys : entries.Pairwise fun a b => a.1.pyEq b.1 = false)
    (hvalues : ∀ entry ∈ entries, ∃ n, entry.2 = .int n) :
    ToolArgs JsonText.PyFloatText.integral where
  entries := entries
  valid := .dict hkeys fun entry hentry => by
    obtain ⟨n, hn⟩ := hvalues entry hentry
    rw [hn]
    exact .int n
  floats := .dict fun entry hentry => by
    obtain ⟨n, hn⟩ := hvalues entry hentry
    rw [hn]
    exact .int n

def firstCall : ToolAction JsonText.PyFloatText.integral where
  toolName := "patch"
  toolArgs := patchArgs [(.str "a", .int 1), (.str "b", .int 2)] (by decide) (by simp)

def secondCall : ToolAction JsonText.PyFloatText.integral where
  toolName := "patch"
  toolArgs := patchArgs [(.str "b", .int 2), (.str "a", .int 1)] (by decide) (by simp)

/-- The order of the keys does not keep the guardrail from tripping. -/
theorem trips_reordered :
    Trips id (after id ⟨2, 3, [], le_refl 2, by omega⟩ [.register firstCall]).guardrail
      secondCall := by
  have hsame : ∀ action ∈ [firstCall, secondCall], action.toolName = "patch" ∧
      action.toolArgs.document = some (.obj [("a", .int 1), ("b", .int 2)]) := by
    intro action haction
    rcases List.mem_cons.mp haction with rfl | haction
    · exact ⟨rfl, rfl⟩
    · rw [List.mem_singleton.mp haction]
      exact ⟨rfl, rfl⟩
  have hinit : Guardrail.init (List Char) 2 3 = .ok ⟨2, 3, [], le_refl 2, by omega⟩ := rfl
  refine (trips_iff Function.injective_id hinit [.register firstCall] secondCall).1.mpr ?_
  show LastRelated SameAction 2 [firstCall, secondCall]
  refine ⟨le_refl 2, fun a ha b hb => ?_⟩
  obtain ⟨hname, hdocument⟩ := hsame a ha
  obtain ⟨hname', hdocument'⟩ := hsame b hb
  exact ⟨hname.trans hname'.symm, _, hdocument, hdocument'⟩

open Orchestrator in
theorem lastRepeated_eq (history : List String) :
    StateGraph.lastRepeated history = repeated StateGraph.maxRepeats history := by
  unfold StateGraph.lastRepeated repeated List.rtake
  cases history.drop (history.length - StateGraph.maxRepeats) with
  | nil => rfl
  | cons first rest =>
      show (_ && rest.all (· == first)) =
        (_ && (decide (first = first) && rest.all fun entry => decide (entry = first)))
      rw [decide_eq_true rfl, Bool.true_and]
      rfl

open Orchestrator in
theorem workflow_registerAndCheck {F : JsonText.PyFloatText} (hash : List Char → String)
    {guardrail : Guardrail String} (hrepeats : guardrail.maxRepeats = StateGraph.maxRepeats)
    (hsize : guardrail.windowSize = StateGraph.windowSize) {action : ToolAction F}
    {text : List Char} (htext : action.text = some text) :
    (StateGraph.registerAndCheck (hash text) guardrail.history).1 =
        (registerAndCheck hash guardrail action).2.history ∧
      ((StateGraph.registerAndCheck (hash text) guardrail.history).2 = true ↔
        Trips hash guardrail action) := by
  have hkept : ((guardrail.history ++ [hash text]).drop
      ((guardrail.history ++ [hash text]).length - StateGraph.windowSize)) =
        push guardrail.windowSize guardrail.history (hash text) := by
    rw [hsize]
    rfl
  unfold Trips StateGraph.registerAndCheck
  rw [registerAndCheck_of_text htext]
  simp only [hkept, lastRepeated_eq, ← hrepeats]
  split_ifs
  · exact ⟨rfl, iff_of_true rfl ⟨_, rfl⟩⟩
  · exact ⟨rfl, iff_of_false nofun nofun⟩

end SkyClaw.Security.LoopGuardrail
