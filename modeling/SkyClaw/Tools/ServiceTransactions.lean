import SkyClaw.Tools.InLockPipelines

/-!
# The journal transactions of the four services

Over any world and any ends of the calls, a run of Synthesis, xEdit, VRAMr or
DynDOLOD settles the journal transaction it began exactly when it meets the
condition of its service.  A cancellation in the tool leaves the transaction of
three of them pending; DynDOLOD, which catches it, takes a committed transaction
back when the completed event cannot be published.
-/

namespace SkyClaw.Tools

open Db.Journal

/-- **The transactions of the services.**  A run leaves its transaction committed
or rolled back, as it reports, and never takes it back from committed, if and only
if the ends of its calls meet `SettlesRun`. -/
theorem transactions_closed_iff (ω : Type) (journal : OperationJournal) (world : ω) :
    (∀ (svc : SynthesisPipelineService ω) (patcherIds : Option (List String))
        (createSnapshot : Bool),
      TransactionClosed journal
          (svc.executePipeline patcherIds createSnapshot (Run.initial journal world)) ↔
        svc.SettlesRun patcherIds createSnapshot world) ∧
    (∀ (svc : XEditPipelineService ω) (targetPlugin : String),
      TransactionClosed journal (svc.executePatch targetPlugin (Run.initial journal world)) ↔
        svc.SettlesRun targetPlugin world) ∧
    (∀ svc : VRAMrPipelineService ω,
      TransactionClosed journal (svc.executePipeline (Run.initial journal world)) ↔
        svc.SettlesRun world) ∧
    ∀ (svc : DynDOLODPipelineService ω) (createSnapshot : Bool),
      TransactionClosed journal
          (svc.executePipeline createSnapshot (Run.initial journal world)) ↔
        svc.SettlesRun createSnapshot world :=
  ⟨fun svc patcherIds createSnapshot =>
      executePipeline_closed_iff svc patcherIds createSnapshot journal world,
    fun svc targetPlugin => executePatch_closed_iff svc targetPlugin journal world,
    fun svc => svc.executePipeline_closed_iff journal world,
    fun svc createSnapshot => svc.executePipeline_closed_iff createSnapshot journal world⟩

/-- Collaborators of which every call returns. -/
def quietCollaborators : Collaborators Unit where
  publishStarted := pure ()
  publishCompleted := pure ()
  enter _ := pure ()
  exit _ := pure ()
  beginEnd := .done .ok
  commitEnd := .done .ok
  markEnd := .done .ok

/-- A Synthesis run that is cancelled while the patchers run. -/
def cancelledSynthesis : SynthesisPipelineService Unit where
  toCollaborators := quietCollaborators
  ensureRunner := pure ["patcher"]
  targetExists _ := true
  runPipeline _ := .raise .cancelled
  validateSynthesisEsp _ := pure true

/-- A DynDOLOD run whose completed event cannot be published. -/
def unpublishedDynDOLOD : DynDOLODPipelineService Unit where
  toCollaborators := { quietCollaborators with publishCompleted := .raise (.other "bus closed") }
  ensureRunner := pure ()
  dyndolodEspExists _ := true
  runFullPipeline := pure { success := true, outputPath := none, errors := [] }
  validateDyndolodOutput _ := pure true

/-- The cancelled Synthesis run leaves its transaction pending; the DynDOLOD run
takes its own from committed to rolled back. -/
theorem transactions_closed_counterexample :
    ¬TransactionClosed .empty (cancelledSynthesis.executePipeline none true
        (Run.initial .empty ())) ∧
      ¬TransactionClosed .empty (unpublishedDynDOLOD.executePipeline true
        (Run.initial .empty ())) := by
  constructor
  · intro hclosed
    exact hclosed.settled rfl
  · intro hclosed
    exact absurd hclosed.forward (by decide)

end SkyClaw.Tools
