import LintRelay.CommandLine.Analyze
import LintRelay.CommandLine.Create
set_option autoImplicit false

/-!
# The program

Carries out an invocation, and decides which lines of the log are shown.
-/

namespace LintRelay.CommandLine

/-- What the program says when it is asked for its version. -/
def versionText : String := "lintbridge " ++ RunReport.programVersion ++ "\n"

/-- Carries out an invocation. -/
def Invocation.run {σ : Type} (host : Bridge.Host σ) (around : Surroundings) (color : Bool)
    (disk : Disk) (outside : σ) (i : Invocation) : Outcome σ :=
  match i.command with
  | .analyze a => analyze host around color disk a outside
  | .init a => create disk a outside

/-- The filter that the arguments ask for. -/
def Invocation.filterSpec (i : Invocation) : String :=
  if i.verbose then "debug" else if i.quiet then "warn" else "info"

/-- The error output of the program: complaints about the filter, then the log and
what the command says.  A filter from the environment wins over the arguments. -/
def Invocation.transcript {σ : Type} (environment : Option String) (o : Outcome σ)
    (i : Invocation) : String :=
  match Log.Filter.parse (environment.getD i.filterSpec) with
  | (filter, complaints) =>
    "".intercalate (complaints.map Log.Filter.warning) ++ o.transcript filter i.verbose

end LintRelay.CommandLine
