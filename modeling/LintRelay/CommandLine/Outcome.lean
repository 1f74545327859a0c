import LintRelay.Disk.Walk
import LintRelay.Engine.Error
import LintRelay.Log.Filter
set_option autoImplicit false

/-!
# Outcomes of commands

A command tells what it does in lines of the log, in texts on the standard output
and in texts on the error output, one after the other.
-/

namespace LintRelay.CommandLine

/-- One thing that a command tells. -/
inductive Emission where
  | log (line : Log.Line)
  | out (text : String)
  | err (text : String)
  deriving DecidableEq, Repr, Inhabited

/-- Why a command gives up without a word of its own. -/
inductive Failure where
  | engine (error : EngineError)
  | walk (fault : Disk.WalkFault)
  /-- The project graph has no end. -/
  | endless
  deriving Repr, Inhabited

/-- The wording of a failure. -/
def Failure.message : Failure → String
  | .engine e => e.message
  | .walk f => f.message
  | .endless => "the project graph has no end"

/-- All went well and nothing was found. -/
def exitSuccess : Nat := 0

/-- Something was found, or not everything was analyzed. -/
def exitFailed : Nat := 1

/-- The command could not be carried out. -/
def exitError : Nat := 2

/-- What comes of a command. -/
structure Outcome (σ : Type) where
  exit : Except Failure Nat
  emissions : List Emission
  disk : Disk
  outside : σ

namespace Outcome

variable {σ : Type}

/-- The command ends with texts on the error output. -/
def refuse (disk : Disk) (outside : σ) (texts : List String) : Outcome σ :=
  ⟨.ok exitError, texts.map .err, disk, outside⟩

/-- The code that the program ends with. -/
def code (o : Outcome σ) : Nat :=
  match o.exit with
  | .ok n => n
  | .error _ => exitError

/-- Lines of the log. -/
def log (o : Outcome σ) : List Log.Line :=
  o.emissions.filterMap fun e =>
    match e with
    | .log l => some l
    | _ => none

/-- The text on the standard output. -/
def stdout (o : Outcome σ) : String :=
  "".intercalate (o.emissions.filterMap fun e =>
    match e with
    | .out text => some text
    | _ => none)

/-- The texts on the error output, without the log. -/
def stderr (o : Outcome σ) : String :=
  "".intercalate (o.emissions.filterMap fun e =>
    match e with
    | .err text => some text
    | _ => none)

/-- What a failure adds to the error output. -/
def farewell (o : Outcome σ) : String :=
  match o.exit with
  | .ok _ => ""
  | .error f => "Error: " ++ f.message ++ "\n"

/-- The error output with the log in its place. -/
def transcript (filter : Log.Filter) (detailed : Bool) (o : Outcome σ) : String :=
  let shown (e : Emission) : Option String :=
    match e with
    | .err text => some text
    | .log l => if filter.accepts l then some (l.shown detailed) else none
    | .out _ => none
  "".intercalate (o.emissions.filterMap shown) ++ o.farewell

end Outcome

end LintRelay.CommandLine
