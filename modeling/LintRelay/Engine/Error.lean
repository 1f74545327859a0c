import LintRelay.Disk.Node
set_option autoImplicit false

/-!
# Failures of the engine

Why a call to the engine gives no result.  No failure is retried.
-/

namespace LintRelay

/-- Why a call to the engine failed. -/
inductive EngineError where
  /-- Nobody answers. -/
  | unavailable (message : String)
  /-- No answer in time. -/
  | timeout
  /-- The connection broke. -/
  | transport (message : String)
  /-- The answer is not what the protocol says. -/
  | protocol (message : String)
  /-- The engine refuses what it was asked to do. -/
  | rejected (message : String)
  /-- The engine could not be started. -/
  | startup (message : String)
  /-- An error of the operating system. -/
  | io (message : String)
  deriving DecidableEq, Repr, Inhabited

/-- The wording of a failure. -/
def EngineError.message : EngineError → String
  | .unavailable m => "engine unavailable: " ++ m
  | .timeout => "request to engine timed out"
  | .transport m => "transport error: " ++ m
  | .protocol m => "protocol error: " ++ m
  | .rejected m => "engine rejected request: " ++ m
  | .startup m => "engine failed to start: " ++ m
  | .io m => "io error: " ++ m

end LintRelay
