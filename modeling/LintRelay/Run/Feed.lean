import LintRelay.Run.Basic
set_option autoImplicit false

/-!
# Runs: feeding files to the engine

Files are fed strictly one after the other, batch by batch.  Before each file the
run looks whether it has been interrupted and whether the engine still answers.
Between two batches that are analyzed the engine forgets its configuration.
-/

namespace LintRelay

/-- Files to be treated alike. -/
inductive Batch where
  /-- Files that no configuration claims. -/
  | skip (files : List SourceFile)
  /-- Files to analyze with the given configurations; the label names the one
  configuration where there is one. -/
  | analyze (label : Option String) (configs : List String) (files : List SourceFile)
  deriving DecidableEq, Repr, Inhabited

/-- The files of a batch that are analyzed. -/
def Batch.targets : Batch → List SourceFile
  | .skip _ => []
  | .analyze _ _ files => files

/-- The batch of a group of files. -/
def Batch.ofGroup (g : ConfigGroup) : Batch :=
  match g.config with
  | none => .skip g.files
  | some c => .analyze (some c.path.text) [c.path.text] g.files

namespace Live

variable {σ τ : Type}

/-- The request for a file. -/
def requestFor (o : RunOptions) (configs : List String) (f : SourceFile) (content : Option String) :
    Request :=
  ⟨o.language, f.path, f.kind, content, o.ignoreHeaderComments, configs⟩

/-- What is logged about a file that could not be parsed. -/
def parsingLine (f : SourceFile) (e : ParsingError) : String :=
  "Failed to parse file [" ++ f.display ++ "] at line " ++
    (match e.line with
     | some n => Decimal.natText n
     | none => "?") ++ ": " ++ e.message

/-- An answer of the engine is counted, and handed on unless it reports an error. -/
def deliver (s : Sink τ) (f : SourceFile) (r : Response) (l : Live σ τ) : Live σ τ :=
  let l := { l with summary := { l.summary with requestsIssued := l.summary.requestsIssued + 1 } }
  match r.error with
  | some error =>
    let l := l.say .error ("Engine failed to analyze " ++ f.display ++ ": " ++ error)
    { l with summary := { l.summary with failedFiles := l.summary.failedFiles + 1 } }
  | none =>
    let l :=
      match r.parsingError with
      | some e => l.say .warn (parsingLine f e)
      | none => l
    let l := l.emit (.deliver f.path r)
    let (sink, interrupted) := s.accept f r l.sink
    { l with
      sink
      cancelled := l.cancelled || interrupted
      summary := { l.summary with analyzedFiles := l.summary.analyzedFiles + 1 } }

/-- Has one file analyzed. -/
def analyzeFile (e : Engine σ) (s : Sink τ) (o : RunOptions) (configs : List String)
    (f : SourceFile) (l : Live σ τ) : Except RunError Unit × Live σ τ :=
  match f.requestContents l.disk o.sendFileContent with
  | .error err => (.error (.read f.path err), l)
  | .ok content =>
    let request := requestFor o configs f content
    match l.recorder.startFile f.display with
    | (.error err, recorder) => (.error (.monitoring err), { l with recorder })
    | (.ok (), recorder) =>
      let l := { l with recorder }
      let a := e.analyze l.disk request l.engine
      let l := l.answered (.analyze request a.value) a
      match a.value with
      | .error err =>
        (.error (.ofEngine err),
          l.say .error
            ("Failed to get response while analyzing " ++ f.display ++ ": " ++ err.message))
      | .ok r =>
        let l := l.deliver s f r
        match l.recorder.stopFile f.display r.metrics.ncloc.length (r.perf.getD .zero) with
        | (.error err, recorder) => (.error (.monitoring err), { l with recorder })
        | (.ok (), recorder) => (.ok (), { l with recorder })

/-- How the feeding of a batch ends, when it does not fail. -/
inductive Fed where
  | done
  | interrupted
  deriving DecidableEq, Repr, Inhabited

/-- Feeds files one after the other. -/
def feedFiles (e : Engine σ) (s : Sink τ) (o : RunOptions) (configs : List String) :
    List SourceFile → Live σ τ → Except RunError Fed × Live σ τ
  | [], l => (.ok .done, l)
  | f :: rest, l =>
    if l.cancelled then
      (.ok .interrupted, l.say .info "Analysis interrupted because the run was cancelled")
    else
      let a := e.isAlive l.disk l.engine
      let l := l.answered (.probe a.value) a
      if a.value then
        match l.analyzeFile e s o configs f with
        | (.error err, l) => (.error err, l)
        | (.ok (), l) =>
          feedFiles e s o configs rest { l with progress := l.progress.map Progress.nextFile }
      else (.error (.engineUnavailable "engine is not answering"), l)

/-- Number of files as text. -/
def filesText (files : List SourceFile) : String := Decimal.natText files.length

/-- What is logged in front of a batch that is analyzed. -/
def batchLine (label : Option String) (files : List SourceFile) : String :=
  match label with
  | some config => "Analyzing " ++ filesText files ++ " files using tsconfig: " ++ config
  | none => "Analyzing " ++ filesText files ++ " files"

/-- Files without a configuration are counted and named in the log. -/
def skipFiles (files : List SourceFile) (l : Live σ τ) : Live σ τ :=
  let l :=
    { l with
      summary := { l.summary with skippedUnmatched := l.summary.skippedUnmatched + files.length } }
  (l.say .info ("Skipping " ++ filesText files ++ " files with no tsconfig.json")).say .debug
    ("Skipped files: " ++ String.intercalate "\n" (files.map SourceFile.display))

/-- The engine forgets its configuration, unless nothing was analyzed before. -/
def resetBetween (e : Engine σ) (first : Bool) (l : Live σ τ) : Except RunError Unit × Live σ τ :=
  if first then (.ok (), l)
  else
    let a := e.reset l.disk l.engine
    let l := l.answered (.reset a.value) a
    match a.value with
    | .error err => (.error (.ofEngine err), l)
    | .ok () => (.ok (), l)

/-- Feeds batches one after the other; `first` says that none was analyzed before. -/
def feedBatches (e : Engine σ) (s : Sink τ) (o : RunOptions) :
    Bool → List Batch → Live σ τ → Except RunError RunState × Live σ τ
  | _, [], l => (.ok .completed, l)
  | first, .skip files :: rest, l => feedBatches e s o first rest (l.skipFiles files)
  | first, .analyze label configs files :: rest, l =>
    match l.resetBetween e first with
    | (.error err, l) => (.error err, l)
    | (.ok (), l) =>
      match (l.say .info (batchLine label files)).feedFiles e s o configs files with
      | (.error err, l) => (.error err, l)
      | (.ok .interrupted, l) => (.ok .cancelled, l)
      | (.ok .done, l) => feedBatches e s o false rest l

end Live

end LintRelay
