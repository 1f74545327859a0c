import LintRelay.Analysis.Response
import LintRelay.Project.ConfigFile
import LintRelay.Disk.Resolve
import LintRelay.Engine.Error
import LintRelay.Log
set_option autoImplicit false

/-!
# Engines

An engine is a machine with a state of any kind.  Every call gives an answer and
a new state; while the call lasts, lines may be logged and the user may interrupt
the run.  An engine can look at the disk and does not change it.
-/

namespace LintRelay

/-- What a call to an engine leads to. -/
structure Answer (σ α : Type) where
  value : α
  state : σ
  /-- Lines logged during the call. -/
  log : List Log.Line
  /-- The run was interrupted during the call. -/
  interrupted : Bool

/-- An answer during which nothing else happened. -/
def Answer.quiet {σ α : Type} (value : α) (state : σ) : Answer σ α := ⟨value, state, [], false⟩

/-- How the linter is set up for a run. -/
structure LinterSetup where
  rules : List Rule
  environments : List String
  globals : List String
  deriving Inhabited

/-- The operations of an engine. -/
structure Engine (σ : Type) where
  /-- Sets up the linter; comes before any analysis. -/
  setUp : Disk → LinterSetup → σ → Answer σ (Except EngineError Unit)
  /-- Whether the engine answers. -/
  isAlive : Disk → σ → Answer σ Bool
  /-- Loads one configuration; its references are not resolved. -/
  loadConfig : Disk → Path → σ → Answer σ (Except EngineError ConfigFile)
  /-- Analyzes one file. -/
  analyze : Disk → Request → σ → Answer σ (Except EngineError Response)
  /-- Forgets the configuration of the files analyzed so far. -/
  reset : Disk → σ → Answer σ (Except EngineError Unit)

/-- A call to an engine, with what it gave. -/
inductive Call where
  | setUp (setup : LinterSetup) (result : Except EngineError Unit)
  | probe (alive : Bool)
  | load (path : Path) (result : Except EngineError ConfigFile)
  | analyze (request : Request) (result : Except EngineError Response)
  | reset (result : Except EngineError Unit)

/-- What happens in a run, as far as it can be seen from outside. -/
inductive Event where
  | log (line : Log.Line)
  | call (call : Call)
  /-- An answer is handed to the sink. -/
  | deliver (path : Path) (response : Response)

end LintRelay
