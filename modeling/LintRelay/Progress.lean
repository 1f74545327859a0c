import LintRelay.Decimal.Numeral
import LintRelay.Log
set_option autoImplicit false

/-!
# Progress

A reporter counts the targets that have been processed.  While it runs, a ticker
may report at any time how far the work is.  It is closed once, by a stop or by a
cancellation, and says so in one line; whatever comes later closes nothing.
-/

namespace LintRelay

/-- A reporter of progress. -/
structure Progress where
  label : String
  targets : List String
  processed : Nat
  running : Bool
  /-- The ticker works; an interval of zero kills it. -/
  ticking : Bool
  deriving DecidableEq, Repr, Inhabited

namespace Progress

/-- A line of the reporter. -/
def line (level : Log.Level) (message : String) : Log.Line := ⟨level, .progress, message⟩

/-- A count out of all targets. -/
def share (p : Progress) : String :=
  Decimal.natText p.processed ++ "/" ++ Decimal.natText p.targets.length

/-- A reporter over the given targets, and what it says when it starts.  The interval
between two reports is given in nanoseconds. -/
def start (label : String) (targets : List String) (interval : Nat) :
    Progress × List Log.Line :=
  (⟨label, targets, 0, true, interval ≠ 0⟩,
    [line .info
      (label ++ ": " ++ Decimal.natText targets.length ++ " source files to be analyzed")])

/-- One more target has been processed. -/
def nextFile (p : Progress) : Progress := { p with processed := p.processed + 1 }

/-- What the ticker reports: the count, and the target that is being worked on. -/
def report (p : Progress) : Log.Line :=
  line .info
    (p.label ++ ": " ++ p.share ++ " files analyzed" ++
      match p.targets[p.processed]? with
      | some current => ", current file: " ++ current
      | none => "")

/-- What ending the ticker leaves in the log. -/
def tickerEnd (p : Progress) : List Log.Line :=
  if p.ticking then []
  else [line .debug "Progress task ended abnormally: the ticker has no interval"]

/-- Closes the reporter with a line, unless it is closed already. -/
def close (p : Progress) (last : Log.Line) : Progress × List Log.Line :=
  if p.running then ({ p with running := false }, p.tickerEnd ++ [last]) else (p, [])

/-- Closes after all work was done. -/
def stop (p : Progress) : Progress × List Log.Line :=
  p.close (line .info (p.label ++ ": " ++ p.share ++ " source files have been analyzed"))

/-- Closes after the work was broken off. -/
def cancel (p : Progress) : Progress × List Log.Line :=
  p.close (line .warn (p.label ++ ": analysis stopped after " ++ p.share ++ " source files"))

end Progress

end LintRelay
