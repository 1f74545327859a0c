import LintRelay.Analysis.Response
import LintRelay.Run.Summary
import LintRelay.SourceFile
set_option autoImplicit false

/-!
# Reports

A report gathers what the engine answered for each file.  It is printed for
people, with colours where they are wanted, or as JSON.  Both list only the files
with findings: an issue or a parsing error.
-/

namespace LintRelay

open Json (Value Decoder Fault Member)

/-- What is reported about one analyzed file. -/
structure FileReport where
  path : String
  kind : FileKind
  issues : List Issue
  ncloc : Nat
  commentLines : Nat
  complexity : Nat
  cognitiveComplexity : Nat
  parsingError : Option String
  deriving Inhabited

namespace FileReport

/-- The report of a file from the engine's answer. -/
def ofResponse (f : SourceFile) (r : Response) : FileReport :=
  { path := f.display
    kind := f.kind
    issues := r.issues
    ncloc := r.metrics.ncloc.length
    commentLines := r.metrics.commentLines.length
    complexity := r.metrics.complexity
    cognitiveComplexity := r.metrics.cognitiveComplexity
    parsingError := r.parsingError.map ParsingError.message }

/-- The file has an issue or a parsing error. -/
def hasFindings (f : FileReport) : Bool := !f.issues.isEmpty || f.parsingError.isSome

/-- The report as a JSON value. -/
def toValue (f : FileReport) : Value :=
  .object
    ([("path", .string f.path), ("kind", .string f.kind.name),
      ("issues", .array (f.issues.map Issue.toValue)), ("ncloc", Json.nat f.ncloc),
      ("comment_lines", Json.nat f.commentLines), ("complexity", Json.nat f.complexity),
      ("cognitive_complexity", Json.nat f.cognitiveComplexity)] ++
      Response.presentMember "parsing_error" .string f.parsingError)

/-- What has been read of a file's report. -/
structure Draft where
  path : Option String
  kind : Option FileKind
  issues : Option (List Issue)
  ncloc : Option Nat
  commentLines : Option Nat
  complexity : Option Nat
  cognitiveComplexity : Option Nat
  parsingError : Option (Option String)

/-- The members of a file's report. -/
def fields : List (Member Draft) :=
  [Member.of "path" Draft.path (fun d a => { d with path := some a }) Json.string,
   Member.of "kind" Draft.kind
     (fun d a => { d with kind := some a }) (Json.oneOf FileKind.names),
   Member.of "issues" Draft.issues
     (fun d a => { d with issues := some a }) (Json.list Issue.decoder),
   Member.of "ncloc" Draft.ncloc (fun d a => { d with ncloc := some a }) Json.nat64,
   Member.of "comment_lines" Draft.commentLines
     (fun d a => { d with commentLines := some a }) Json.nat64,
   Member.of "complexity" Draft.complexity
     (fun d a => { d with complexity := some a }) Json.nat32,
   Member.of "cognitive_complexity" Draft.cognitiveComplexity
     (fun d a => { d with cognitiveComplexity := some a }) Json.nat32,
   Member.of "parsing_error" Draft.parsingError
     (fun d a => { d with parsingError := some a }) (Json.nullable Json.string)]

/-- Only the parsing error may be left out. -/
def finish (d : Draft) : Except Fault FileReport := do
  let path ← Json.required d.path
  let kind ← Json.required d.kind
  let issues ← Json.required d.issues
  let ncloc ← Json.required d.ncloc
  let commentLines ← Json.required d.commentLines
  let complexity ← Json.required d.complexity
  let cognitiveComplexity ← Json.required d.cognitiveComplexity
  return {
    path
    kind
    issues
    ncloc
    commentLines
    complexity
    cognitiveComplexity
    parsingError := d.parsingError.getD none }

/-- Reads a file's report. -/
def decoder : Decoder FileReport := Json.record fields ⟨none, none, none, none, none, none, none, none⟩ finish

end FileReport

/-- The reports of the files whose answers were accepted, in order. -/
structure Collected where
  files : List FileReport
  deriving Inhabited

namespace Collected

/-- Nothing has been accepted. -/
def empty : Collected := ⟨[]⟩

/-- Accepts the engine's answer for a file. -/
def accept (c : Collected) (f : SourceFile) (r : Response) : Collected :=
  ⟨c.files ++ [FileReport.ofResponse f r]⟩

/-- All issues, in order. -/
def issues (c : Collected) : List Issue := c.files.flatMap FileReport.issues

/-- Number of issues. -/
def issueCount (c : Collected) : Nat :=
  c.files.foldr (fun f n => f.issues.length + n) 0

/-- One more issue of a rule, in counts sorted by rule. -/
def countRule (rule : String) : List (String × Nat) → List (String × Nat)
  | [] => [(rule, 1)]
  | (r, n) :: rest =>
    if rule = r then (r, n + 1) :: rest
    else if rule < r then (rule, 1) :: (r, n) :: rest
    else (r, n) :: countRule rule rest

/-- Number of issues of each rule, sorted by rule. -/
def issuesByRule (c : Collected) : List (String × Nat) :=
  c.issues.foldl (fun counts i => countRule i.ruleId counts) []

/-- The files with findings. -/
def withFindings (c : Collected) : List FileReport := c.files.filter FileReport.hasFindings

end Collected

/-- The report of a finished run. -/
structure RunReport where
  version : String
  path : String
  state : String
  filesAnalyzed : Nat
  filesFailed : Nat
  filesSkipped : Nat
  issueCount : Nat
  files : List FileReport
  deriving Inhabited

namespace RunReport

/-- Version of the program. -/
def programVersion : String := "0.1.0"

/-- The report of a run over a path. -/
def build (path : String) (c : Collected) (s : RunSummary) : RunReport :=
  { version := programVersion
    path
    state := s.state.label
    filesAnalyzed := s.analyzedFiles
    filesFailed := s.failedFiles
    filesSkipped := s.skippedUnmatched
    issueCount := c.issueCount
    files := c.withFindings }

/-- The report as a JSON value. -/
def toValue (r : RunReport) : Value :=
  .object
    [("version", .string r.version), ("path", .string r.path), ("state", .string r.state),
     ("files_analyzed", Json.nat r.filesAnalyzed), ("files_failed", Json.nat r.filesFailed),
     ("files_skipped", Json.nat r.filesSkipped), ("issue_count", Json.nat r.issueCount),
     ("files", .array (r.files.map FileReport.toValue))]

/-- What has been read of a report. -/
structure Draft where
  version : Option String
  path : Option String
  state : Option String
  filesAnalyzed : Option Nat
  filesFailed : Option Nat
  filesSkipped : Option Nat
  issueCount : Option Nat
  files : Option (List FileReport)

/-- The members of a report. -/
def fields : List (Member Draft) :=
  [Member.of "version" Draft.version (fun d a => { d with version := some a }) Json.string,
   Member.of "path" Draft.path (fun d a => { d with path := some a }) Json.string,
   Member.of "state" Draft.state (fun d a => { d with state := some a }) Json.string,
   Member.of "files_analyzed" Draft.filesAnalyzed
     (fun d a => { d with filesAnalyzed := some a }) Json.nat64,
   Member.of "files_failed" Draft.filesFailed
     (fun d a => { d with filesFailed := some a }) Json.nat64,
   Member.of "files_skipped" Draft.filesSkipped
     (fun d a => { d with filesSkipped := some a }) Json.nat64,
   Member.of "issue_count" Draft.issueCount
     (fun d a => { d with issueCount := some a }) Json.nat64,
   Member.of "files" Draft.files
     (fun d a => { d with files := some a }) (Json.list FileReport.decoder)]

/-- Nothing in a report may be left out. -/
def finish (d : Draft) : Except Fault RunReport := do
  let version ← Json.required d.version
  let path ← Json.required d.path
  let state ← Json.required d.state
  let filesAnalyzed ← Json.required d.filesAnalyzed
  let filesFailed ← Json.required d.filesFailed
  let filesSkipped ← Json.required d.filesSkipped
  let issueCount ← Json.required d.issueCount
  let files ← Json.required d.files
  return {
    version
    path
    state
    filesAnalyzed
    filesFailed
    filesSkipped
    issueCount
    files }

/-- Reads a report. -/
def decoder : Decoder RunReport := Json.record fields ⟨none, none, none, none, none, none, none, none⟩ finish

/-- The report as text for other programs. -/
def json (r : RunReport) : String := r.toValue.indented ++ "\n"

end RunReport

end LintRelay
