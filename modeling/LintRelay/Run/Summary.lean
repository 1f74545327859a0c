set_option autoImplicit false

/-!
# Summaries of runs

The state that a run is in, and the counters that say what it did.
-/

namespace LintRelay

/-- The life of a run. -/
inductive RunState where
  | notStarted
  | running
  | completed
  | cancelled
  | failed
  deriving DecidableEq, Repr, Inhabited

namespace RunState

/-- The name of a state in reports. -/
def label : RunState → String
  | .notStarted => "not_started"
  | .running => "running"
  | .completed => "completed"
  | .cancelled => "cancelled"
  | .failed => "failed"

end RunState

/-- What a run did. -/
structure RunSummary where
  state : RunState
  /-- Requests that the engine answered. -/
  requestsIssued : Nat
  /-- Answers that went to the sink. -/
  analyzedFiles : Nat
  /-- Answers that say the analysis of the file failed. -/
  failedFiles : Nat
  /-- Files that no configuration claims. -/
  skippedUnmatched : Nat
  /-- Final count of the progress reporter. -/
  progressTally : Nat
  /-- Records of files that the monitoring made. -/
  metricRecords : Nat
  deriving DecidableEq, Repr, Inhabited

namespace RunSummary

/-- The summary of a run that has not started. -/
def empty : RunSummary := ⟨.notStarted, 0, 0, 0, 0, 0, 0⟩

end RunSummary

end LintRelay
