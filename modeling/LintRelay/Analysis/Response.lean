import LintRelay.Analysis.Request
set_option autoImplicit false

/-!
# Answers of the engine

What the engine reports about one file: issues, measures, a parsing error if the
file could not be parsed, timings, and an error if the analysis failed.  Members
that a bridge leaves out take their defaults.
-/

namespace LintRelay

open Json (Value Decoder Fault Member)

/-- A place that an issue refers to besides its own. -/
structure IssueLocation where
  line : Nat
  column : Nat
  endLine : Nat
  endColumn : Nat
  message : Option String
  deriving DecidableEq, Repr, Inhabited

namespace IssueLocation

/-- The place as a JSON value. -/
def toValue (l : IssueLocation) : Value :=
  .object
    [("line", Json.nat l.line), ("column", Json.nat l.column), ("endLine", Json.nat l.endLine),
     ("endColumn", Json.nat l.endColumn), ("message", Json.optional .string l.message)]

/-- What has been read of a place. -/
structure Draft where
  line : Option Nat
  column : Option Nat
  endLine : Option Nat
  endColumn : Option Nat
  message : Option (Option String)

/-- The members of a place. -/
def fields : List (Member Draft) :=
  [Member.of "line" Draft.line (fun d a => { d with line := some a }) Json.nat32,
   Member.of "column" Draft.column (fun d a => { d with column := some a }) Json.nat32,
   Member.of "endLine" Draft.endLine (fun d a => { d with endLine := some a }) Json.nat32,
   Member.of "endColumn" Draft.endColumn (fun d a => { d with endColumn := some a }) Json.nat32,
   Member.of "message" Draft.message
     (fun d a => { d with message := some a }) (Json.nullable Json.string)]

/-- A place needs its coordinates. -/
def finish (d : Draft) : Except Fault IssueLocation := do
  let line ← Json.required d.line
  let column ← Json.required d.column
  let endLine ← Json.required d.endLine
  let endColumn ← Json.required d.endColumn
  return {
    line
    column
    endLine
    endColumn
    message := d.message.getD none }

/-- Reads a place. -/
def decoder : Decoder IssueLocation := Json.record fields ⟨none, none, none, none, none⟩ finish

end IssueLocation

/-- A finding of the engine. -/
structure Issue where
  ruleId : String
  line : Nat
  column : Nat
  endLine : Option Nat
  endColumn : Option Nat
  message : String
  secondaryLocations : List IssueLocation
  cost : Option Float
  deriving Inhabited

namespace Issue

/-- The issue as a JSON value. -/
def toValue (i : Issue) : Value :=
  .object
    [("ruleId", .string i.ruleId), ("line", Json.nat i.line), ("column", Json.nat i.column),
     ("endLine", Json.optional Json.nat i.endLine),
     ("endColumn", Json.optional Json.nat i.endColumn), ("message", .string i.message),
     ("secondaryLocations", .array (i.secondaryLocations.map IssueLocation.toValue)),
     ("cost", Json.optional .float i.cost)]

/-- What has been read of an issue. -/
structure Draft where
  ruleId : Option String
  line : Option Nat
  column : Option Nat
  endLine : Option (Option Nat)
  endColumn : Option (Option Nat)
  message : Option String
  secondaryLocations : Option (List IssueLocation)
  cost : Option (Option Float)

/-- The members of an issue. -/
def fields : List (Member Draft) :=
  [Member.of "ruleId" Draft.ruleId (fun d a => { d with ruleId := some a }) Json.string,
   Member.of "line" Draft.line (fun d a => { d with line := some a }) Json.nat32,
   Member.of "column" Draft.column (fun d a => { d with column := some a }) Json.nat32,
   Member.of "endLine" Draft.endLine
     (fun d a => { d with endLine := some a }) (Json.nullable Json.nat32),
   Member.of "endColumn" Draft.endColumn
     (fun d a => { d with endColumn := some a }) (Json.nullable Json.nat32),
   Member.of "message" Draft.message (fun d a => { d with message := some a }) Json.string,
   Member.of "secondaryLocations" Draft.secondaryLocations
     (fun d a => { d with secondaryLocations := some a }) (Json.list IssueLocation.decoder),
   Member.of "cost" Draft.cost (fun d a => { d with cost := some a }) (Json.nullable Json.float)]

/-- An issue needs its rule, its line and its message. -/
def finish (d : Draft) : Except Fault Issue := do
  let ruleId ← Json.required d.ruleId
  let line ← Json.required d.line
  let message ← Json.required d.message
  return {
    ruleId
    line
    column := d.column.getD 0
    endLine := d.endLine.getD none
    endColumn := d.endColumn.getD none
    message
    secondaryLocations := d.secondaryLocations.getD []
    cost := d.cost.getD none }

/-- Reads an issue. -/
def decoder : Decoder Issue := Json.record fields ⟨none, none, none, none, none, none, none, none⟩ finish

end Issue

/-- Size and complexity of a file; measures by line are lists of line numbers. -/
structure FileMeasures where
  ncloc : List Nat
  commentLines : List Nat
  nosonarLines : List Nat
  executableLines : List Nat
  functions : Nat
  statements : Nat
  classes : Nat
  complexity : Nat
  cognitiveComplexity : Nat
  deriving DecidableEq, Repr, Inhabited

namespace FileMeasures

/-- The measures of a file about which nothing was said. -/
def empty : FileMeasures := ⟨[], [], [], [], 0, 0, 0, 0, 0⟩

/-- Line numbers as a JSON value. -/
def lines (ls : List Nat) : Value := .array (ls.map Json.nat)

/-- The measures as a JSON value. -/
def toValue (m : FileMeasures) : Value :=
  .object
    [("ncloc", lines m.ncloc), ("commentLines", lines m.commentLines),
     ("nosonarLines", lines m.nosonarLines), ("executableLines", lines m.executableLines),
     ("functions", Json.nat m.functions), ("statements", Json.nat m.statements),
     ("classes", Json.nat m.classes), ("complexity", Json.nat m.complexity),
     ("cognitiveComplexity", Json.nat m.cognitiveComplexity)]

/-- What has been read of measures. -/
structure Draft where
  ncloc : Option (List Nat)
  commentLines : Option (List Nat)
  nosonarLines : Option (List Nat)
  executableLines : Option (List Nat)
  functions : Option Nat
  statements : Option Nat
  classes : Option Nat
  complexity : Option Nat
  cognitiveComplexity : Option Nat

/-- The members of measures. -/
def fields : List (Member Draft) :=
  [Member.of "ncloc" Draft.ncloc (fun d a => { d with ncloc := some a }) (Json.list Json.nat32),
   Member.of "commentLines" Draft.commentLines
     (fun d a => { d with commentLines := some a }) (Json.list Json.nat32),
   Member.of "nosonarLines" Draft.nosonarLines
     (fun d a => { d with nosonarLines := some a }) (Json.list Json.nat32),
   Member.of "executableLines" Draft.executableLines
     (fun d a => { d with executableLines := some a }) (Json.list Json.nat32),
   Member.of "functions" Draft.functions (fun d a => { d with functions := some a }) Json.nat32,
   Member.of "statements" Draft.statements
     (fun d a => { d with statements := some a }) Json.nat32,
   Member.of "classes" Draft.classes (fun d a => { d with classes := some a }) Json.nat32,
   Member.of "complexity" Draft.complexity
     (fun d a => { d with complexity := some a }) Json.nat32,
   Member.of "cognitiveComplexity" Draft.cognitiveComplexity
     (fun d a => { d with cognitiveComplexity := some a }) Json.nat32]

/-- Measures that are left out are empty or zero. -/
def finish (d : Draft) : Except Fault FileMeasures := do
  return {
    ncloc := d.ncloc.getD []
    commentLines := d.commentLines.getD []
    nosonarLines := d.nosonarLines.getD []
    executableLines := d.executableLines.getD []
    functions := d.functions.getD 0
    statements := d.statements.getD 0
    classes := d.classes.getD 0
    complexity := d.complexity.getD 0
    cognitiveComplexity := d.cognitiveComplexity.getD 0 }

/-- Reads measures. -/
def decoder : Decoder FileMeasures := Json.record fields ⟨none, none, none, none, none, none, none, none, none⟩ finish

end FileMeasures

/-- Why a file could not be parsed. -/
structure ParsingError where
  line : Option Nat
  message : String
  code : Option String
  deriving DecidableEq, Repr, Inhabited

namespace ParsingError

/-- The parsing error as a JSON value. -/
def toValue (e : ParsingError) : Value :=
  .object
    [("line", Json.optional Json.nat e.line), ("message", .string e.message),
     ("code", Json.optional .string e.code)]

/-- What has been read of a parsing error. -/
structure Draft where
  line : Option (Option Nat)
  message : Option String
  code : Option (Option String)

/-- The members of a parsing error. -/
def fields : List (Member Draft) :=
  [Member.of "line" Draft.line (fun d a => { d with line := some a }) (Json.nullable Json.nat32),
   Member.of "message" Draft.message (fun d a => { d with message := some a }) Json.string,
   Member.of "code" Draft.code
     (fun d a => { d with code := some a }) (Json.nullable Json.string)]

/-- A parsing error needs its message. -/
def finish (d : Draft) : Except Fault ParsingError := do
  let message ← Json.required d.message
  return {
    line := d.line.getD none
    message
    code := d.code.getD none }

/-- Reads a parsing error. -/
def decoder : Decoder ParsingError := Json.record fields ⟨none, none, none⟩ finish

end ParsingError

/-- Timings of the engine in milliseconds. -/
structure Perf where
  parseTime : Nat
  analysisTime : Nat
  deriving DecidableEq, Repr, Inhabited

namespace Perf

/-- No time at all. -/
def zero : Perf := ⟨0, 0⟩

/-- The timings as a JSON value. -/
def toValue (p : Perf) : Value :=
  .object [("parseTime", Json.nat p.parseTime), ("analysisTime", Json.nat p.analysisTime)]

/-- What has been read of timings. -/
structure Draft where
  parseTime : Option Nat
  analysisTime : Option Nat

/-- The members of timings. -/
def fields : List (Member Draft) :=
  [Member.of "parseTime" Draft.parseTime (fun d a => { d with parseTime := some a }) Json.nat64,
   Member.of "analysisTime" Draft.analysisTime
     (fun d a => { d with analysisTime := some a }) Json.nat64]

/-- Timings that are left out are zero. -/
def finish (d : Draft) : Except Fault Perf := do
  return {
    parseTime := d.parseTime.getD 0
    analysisTime := d.analysisTime.getD 0 }

/-- Reads timings. -/
def decoder : Decoder Perf := Json.record fields ⟨none, none⟩ finish

end Perf

/-- The answer of the engine for one file. -/
structure Response where
  issues : List Issue
  metrics : FileMeasures
  parsingError : Option ParsingError
  perf : Option Perf
  error : Option String
  deriving Inhabited

namespace Response

/-- An answer that says nothing. -/
def empty : Response := ⟨[], .empty, none, none, none⟩

/-- A member that is left out when it is absent. -/
def presentMember {α : Type} (name : String) (f : α → Value) : Option α → List (String × Value)
  | none => []
  | some a => [(name, f a)]

/-- The answer as a JSON value. -/
def toValue (r : Response) : Value :=
  .object
    ([("issues", .array (r.issues.map Issue.toValue)), ("metrics", r.metrics.toValue)] ++
      presentMember "parsingError" ParsingError.toValue r.parsingError ++
      presentMember "perf" Perf.toValue r.perf ++
      presentMember "error" .string r.error)

/-- What has been read of an answer. -/
structure Draft where
  issues : Option (List Issue)
  metrics : Option FileMeasures
  parsingError : Option (Option ParsingError)
  perf : Option (Option Perf)
  error : Option (Option String)

/-- The members of an answer. -/
def fields : List (Member Draft) :=
  [Member.of "issues" Draft.issues
     (fun d a => { d with issues := some a }) (Json.list Issue.decoder),
   Member.of "metrics" Draft.metrics
     (fun d a => { d with metrics := some a }) FileMeasures.decoder,
   Member.of "parsingError" Draft.parsingError
     (fun d a => { d with parsingError := some a }) (Json.nullable ParsingError.decoder),
   Member.of "perf" Draft.perf
     (fun d a => { d with perf := some a }) (Json.nullable Perf.decoder),
   Member.of "error" Draft.error
     (fun d a => { d with error := some a }) (Json.nullable Json.string)]

/-- Everything in an answer may be left out. -/
def finish (d : Draft) : Except Fault Response := do
  return {
    issues := d.issues.getD []
    metrics := d.metrics.getD .empty
    parsingError := d.parsingError.getD none
    perf := d.perf.getD none
    error := d.error.getD none }

/-- Reads an answer. -/
def decoder : Decoder Response := Json.record fields ⟨none, none, none, none, none⟩ finish

end Response

end LintRelay
