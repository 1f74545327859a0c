import LintRelay.Analysis.Response
import LintRelay.Disk.Resolve
import LintRelay.Log
import LintRelay.Settings
set_option autoImplicit false

/-!
# Metrics

The recorder times a run and every analyzed file.  Starts and stops of files must
pair up.  When the recorder is stopped, the records collected so far are appended
to the metrics file, one JSON object a line: the record of the run first, then
those of the files in the order in which they were completed.  A recorder that is
not enabled does nothing.
-/

namespace LintRelay

open Json (Value Decoder Fault Member)

/-- The record of a run. -/
structure RunMetric where
  component : String
  durationMs : Nat
  deriving DecidableEq, Repr, Inhabited

namespace RunMetric

/-- The record as a JSON value. -/
def toValue (m : RunMetric) : Value :=
  .object [("component", .string m.component), ("durationMs", Json.nat m.durationMs)]

/-- What has been read of a record. -/
structure Draft where
  component : Option String
  durationMs : Option Nat

/-- The members of a record. -/
def fields : List (Member Draft) :=
  [Member.of "component" Draft.component (fun d a => { d with component := some a }) Json.string,
   Member.of "durationMs" Draft.durationMs (fun d a => { d with durationMs := some a }) Json.nat64]

/-- Nothing in a record may be left out. -/
def finish (d : Draft) : Except Fault RunMetric := do
  let component ← Json.required d.component
  let durationMs ← Json.required d.durationMs
  return ⟨component, durationMs⟩

/-- Reads a record. -/
def decoder : Decoder RunMetric := Json.record fields ⟨none, none⟩ finish

end RunMetric

/-- The record of one analyzed file. -/
structure FileMetric where
  component : String
  analysisTime : Nat
  parseTime : Nat
  ncloc : Nat
  ordinal : Nat
  deriving DecidableEq, Repr, Inhabited

namespace FileMetric

/-- The record as a JSON value. -/
def toValue (m : FileMetric) : Value :=
  .object
    [("component", .string m.component), ("analysisTime", Json.nat m.analysisTime),
     ("parseTime", Json.nat m.parseTime), ("ncloc", Json.nat m.ncloc),
     ("ordinal", Json.nat m.ordinal)]

/-- What has been read of a record. -/
structure Draft where
  component : Option String
  analysisTime : Option Nat
  parseTime : Option Nat
  ncloc : Option Nat
  ordinal : Option Nat

/-- The members of a record. -/
def fields : List (Member Draft) :=
  [Member.of "component" Draft.component (fun d a => { d with component := some a }) Json.string,
   Member.of "analysisTime" Draft.analysisTime (fun d a => { d with analysisTime := some a })
     Json.nat64,
   Member.of "parseTime" Draft.parseTime (fun d a => { d with parseTime := some a }) Json.nat64,
   Member.of "ncloc" Draft.ncloc (fun d a => { d with ncloc := some a }) Json.nat64,
   Member.of "ordinal" Draft.ordinal (fun d a => { d with ordinal := some a }) Json.nat64]

/-- Nothing in a record may be left out. -/
def finish (d : Draft) : Except Fault FileMetric := do
  let component ← Json.required d.component
  let analysisTime ← Json.required d.analysisTime
  let parseTime ← Json.required d.parseTime
  let ncloc ← Json.required d.ncloc
  let ordinal ← Json.required d.ordinal
  return ⟨component, analysisTime, parseTime, ncloc, ordinal⟩

/-- Reads a record. -/
def decoder : Decoder FileMetric :=
  Json.record fields ⟨none, none, none, none, none⟩ finish

end FileMetric

/-- Why the recorder refuses a call, or cannot write. -/
inductive MonitoringError where
  /-- Starts and stops of files do not pair up. -/
  | pairing (expected actual : String)
  | io (error : Disk.OsError)
  deriving DecidableEq, Repr, Inhabited

/-- The wording of an error. -/
def MonitoringError.message : MonitoringError → String
  | .pairing expected actual =>
    "file metrics pairing violation: expected " ++ expected ++ ", got " ++ actual
  | .io e => "io error: " ++ e.message

/-- A recorder of metrics. -/
structure Recorder where
  enabled : Bool
  dir : Path
  /-- The run that is being timed. -/
  run : Option String
  /-- The record of the run that was timed last. -/
  runMetric : Option RunMetric
  /-- The file that is being timed. -/
  current : Option String
  /-- The records of the files completed since the last writing. -/
  files : List FileMetric
  deriving DecidableEq, Repr, Inhabited

namespace Recorder

/-- Name of the metrics file. -/
def fileName : String := "metrics.json"

/-- A recorder that has recorded nothing; `cache` is where it writes when the
settings name no directory. -/
def new (s : MonitoringSettings) (cache : Path) : Recorder :=
  ⟨s.enabled, s.path.getD cache, none, none, none, []⟩

/-- Where the records are written. -/
def metricsPath (r : Recorder) : Path := r.dir.join ⟨fileName⟩

/-- Begins to time a run. -/
def startRun (r : Recorder) (component : String) : Recorder :=
  if r.enabled then { r with run := some component } else r

/-- Ends the timing of the run, if one is being timed. -/
def stopRun (r : Recorder) (elapsedMs : Nat) : Recorder :=
  match r.run with
  | some component => { r with run := none, runMetric := some ⟨component, elapsedMs⟩ }
  | none => r

/-- Begins to time a file; no other file may be open. -/
def startFile (r : Recorder) (id : String) : Except MonitoringError Unit × Recorder :=
  if !r.enabled then (.ok (), r)
  else
    match r.current with
    | some open_ => (.error (.pairing ("stop of " ++ open_) ("start of " ++ id)), r)
    | none => (.ok (), { r with current := some id })

/-- Completes the record of a file, which must be the open one.  The open file is taken
out first, and put back when it is not the one to complete. -/
def stopFile (r : Recorder) (id : String) (ncloc : Nat) (perf : Perf) :
    Except MonitoringError Unit × Recorder :=
  if !r.enabled then (.ok (), r)
  else
    let taken := r.current
    let r := { r with current := none }
    match taken with
    | none => (.error (.pairing "no started file" id), { r with current := taken })
    | some open_ =>
      if open_ = id then
        (.ok (),
          { r with
            files := r.files ++ [⟨id, perf.analysisTime, perf.parseTime, ncloc, r.files.length⟩] })
      else (.error (.pairing open_ id), { r with current := taken })

/-- One record a line. -/
def line (v : Value) : String := v.compact ++ "\n"

/-- The lines of the records that are held. -/
def batch (r : Recorder) : String :=
  (match r.runMetric with
   | some m => line m.toValue
   | none => "") ++
    String.join (r.files.map fun m => line m.toValue)

/-- What stopping a recorder leads to. -/
structure Stopped where
  outcome : Except MonitoringError Unit
  recorder : Recorder
  disk : Disk
  log : List Log.Line

/-- The directory of the metrics file is made, and the lines are appended to the file.
Directories that were made stay when the file cannot be written. -/
def writeBatch (r : Recorder) (d : Disk) : Except Disk.OsError Unit × Disk :=
  match d.tryDirectory r.dir with
  | (.error e, d) => (.error e, d)
  | (.ok (), d) =>
    match d.append r.metricsPath (Text.utf8 r.batch) with
    | .error e => (.error e, d)
    | .ok d => (.ok (), d)

/-- Writes what was recorded.  Nothing is written when no file was completed, and
a recorder that cannot write keeps its records. -/
def stop (r : Recorder) (elapsedMs : Nat) (d : Disk) : Stopped :=
  let r := r.stopRun elapsedMs
  if !r.enabled || r.files.isEmpty then ⟨.ok (), r, d, []⟩
  else
    let discarded : List Log.Line :=
      match r.current with
      | some id => [⟨.debug, .metrics, "Discarding unfinished file metric for " ++ id⟩]
      | none => []
    let r := { r with current := none }
    match r.writeBatch d with
    | (.error e, d) => ⟨.error (.io e), r, d, discarded⟩
    | (.ok (), d) =>
      ⟨.ok (), { r with files := [], runMetric := none }, d,
        discarded ++
          [⟨.info, .metrics,
            "Wrote " ++ Decimal.natText r.files.length ++ " file metrics to " ++
              r.metricsPath.text⟩]⟩

end Recorder

end LintRelay
