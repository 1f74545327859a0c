set_option autoImplicit false

/-!
# Log lines

What the program tells about its work while it runs: a level, the part of the
program that speaks, and a message.
-/

namespace LintRelay.Log

/-- How urgent a line is, the least urgent first. -/
inductive Level where
  | debug
  | info
  | warn
  | error
  deriving DecidableEq, Repr, Inhabited

/-- The name of a level. -/
def Level.name : Level → String
  | .debug => "DEBUG"
  | .info => "INFO"
  | .warn => "WARN"
  | .error => "ERROR"

/-- Levels as numbers, the least urgent with the largest. -/
def Level.rank : Level → Nat
  | .error => 1
  | .warn => 2
  | .info => 3
  | .debug => 4

/-- The part of the program that speaks. -/
inductive Topic where
  | commandLine
  | project
  | run
  | progress
  | metrics
  | client
  | process
  /-- Output of the bridge, passed on. -/
  | engine
  deriving DecidableEq, Repr, Inhabited

/-- How a topic is written in log filters and in detailed log lines. -/
def Topic.label : Topic → String
  | .commandLine => "lintbridge::cli"
  | .project => "lintbridge::config_graph"
  | .run => "lintbridge::orchestrator"
  | .progress => "lintbridge::progress"
  | .metrics => "lintbridge::monitoring"
  | .client => "lintbridge::engine::http"
  | .process => "lintbridge::engine::process"
  | .engine => "engine"

/-- One line of the log. -/
structure Line where
  level : Level
  topic : Topic
  message : String
  deriving DecidableEq, Repr, Inhabited

end LintRelay.Log
