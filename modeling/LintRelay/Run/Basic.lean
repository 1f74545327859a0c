import LintRelay.Engine.Basic
import LintRelay.Metrics
import LintRelay.Progress
import LintRelay.Project.Partition
import LintRelay.Run.Summary
import LintRelay.Settings
set_option autoImplicit false

/-!
# Runs: what they are given and what they produce

A run analyzes files with an engine and hands the answers to a sink.  What it can
observe besides is gathered in its surroundings.
-/

namespace LintRelay

/-- Why a run failed. -/
inductive RunError where
  | engineUnavailable (message : String)
  | protocol (message : String)
  | rejected (message : String)
  /-- A file could not be read. -/
  | read (path : Path) (error : Disk.OsError)
  | monitoring (error : MonitoringError)
  | alreadyStarted
  deriving DecidableEq, Repr, Inhabited

/-- The wording of a failure. -/
def RunError.message : RunError → String
  | .engineUnavailable m => "engine unavailable: " ++ m
  | .protocol m => "protocol error: " ++ m
  | .rejected m => "engine rejected linter configuration: " ++ m
  | .read path error => "failed to read " ++ path.text ++ ": " ++ error.message
  | .monitoring e => e.message
  | .alreadyStarted => "run already started"

/-- How a failure of the engine ends a run. -/
def RunError.ofEngine : EngineError → RunError
  | .protocol m => .protocol m
  | .rejected m => .rejected m
  | .startup m => .engineUnavailable m
  | e => .engineUnavailable e.message

/-- How files are grouped for the engine. -/
inductive RunMode where
  /-- One group; the paths of configurations are passed on as they are. -/
  | plain (configs : List String)
  /-- Groups come from the project graph that starts at the seeds. -/
  | configured (seeds : List Path)
  deriving DecidableEq, Repr, Inhabited

/-- Options of a run. -/
structure RunOptions where
  language : Language
  setup : LinterSetup
  ignoreHeaderComments : Bool
  sendFileContent : Bool
  /-- Nanoseconds between two reports of progress. -/
  progressInterval : Nat
  monitoring : MonitoringSettings
  deriving Inhabited

/-- The options that settings ask for. -/
def RunOptions.ofSettings (s : Settings) : RunOptions :=
  { language := s.language
    setup := ⟨s.rules, s.environments, s.globals⟩
    ignoreHeaderComments := s.ignoreHeaderComments
    sendFileContent := s.sendFileContent
    progressInterval := s.progressIntervalSecs * 1000000000
    monitoring := s.monitoring }

/-- What a run finds around it. -/
structure Surroundings where
  /-- Where metrics go when the settings name no directory. -/
  cache : Path
  /-- A directory that does not exist yet, for a generated configuration. -/
  fresh : Path
  /-- Milliseconds that the run takes. -/
  elapsedMs : Nat
  /-- Number of configurations that may be loaded. -/
  loads : Nat
  deriving Repr, Inhabited

/-- Receives answers; says with each whether the run is interrupted meanwhile. -/
structure Sink (τ : Type) where
  accept : SourceFile → Response → τ → τ × Bool

/-- An event, and the progress that a report right after it would show. -/
structure Moment where
  event : Event
  progress : Option Progress

/-- A run under way. -/
structure Live (σ τ : Type) where
  engine : σ
  sink : τ
  disk : Disk
  recorder : Recorder
  progress : Option Progress
  summary : RunSummary
  cancelled : Bool
  /-- The directory of a configuration that was generated for the run. -/
  generated : Option Path
  moments : List Moment

namespace Live

variable {σ τ : Type}

/-- Something happens. -/
def emit (l : Live σ τ) (e : Event) : Live σ τ :=
  { l with moments := l.moments ++ [⟨e, l.progress⟩] }

/-- Several things happen one after the other. -/
def emitAll (l : Live σ τ) (es : List Event) : Live σ τ :=
  { l with moments := l.moments ++ es.map fun e => ⟨e, l.progress⟩ }

/-- A line of the run itself is logged. -/
def say (l : Live σ τ) (level : Log.Level) (message : String) : Live σ τ :=
  l.emit (.log ⟨level, .run, message⟩)

/-- Lines are logged. -/
def logAll (l : Live σ τ) (lines : List Log.Line) : Live σ τ := l.emitAll (lines.map .log)

/-- A call to the engine has been answered. -/
def answered {α : Type} (l : Live σ τ) (call : Call) (a : Answer σ α) : Live σ τ :=
  { l with engine := a.state, cancelled := l.cancelled || a.interrupted }.emitAll
    (.call call :: a.log.map .log)

end Live

end LintRelay
