import LintRelay.Project.Generated
import LintRelay.Project.Resolution
import LintRelay.Run.Feed
set_option autoImplicit false

/-!
# Runs: from start to end

A run sets up the linter, plans its batches, feeds them, and closes progress and
metrics however it ends.  A session does one run; a second one is refused.
-/

namespace LintRelay

namespace Live

variable {σ τ : Type}

/-- The linter is set up. -/
def setUpLinter (e : Engine σ) (o : RunOptions) (l : Live σ τ) :
    Except RunError Unit × Live σ τ :=
  let a := e.setUp l.disk o.setup l.engine
  let l := l.answered (.setUp o.setup a.value) a
  match a.value with
  | .error err => (.error (.ofEngine err), l)
  | .ok () => (.ok (), l)

/-- A configuration is generated for the files. -/
def generate (around : Surroundings) (o : RunOptions) (files : List SourceFile) (l : Live σ τ) :
    Except Generated.Failure Unit × Live σ τ :=
  let l := l.say .info "No tsconfig.json found, using a generated default configuration"
  match Generated.create l.disk around.fresh o.language files with
  | .error f => (.error f, l)
  | .ok disk =>
    (.ok (),
      { l with disk, generated := some around.fresh }.emit (.log (Generated.line around.fresh)))

/-- What is planned for a run. -/
inductive Plan where
  | batches (batches : List Batch)
  /-- There is nothing to analyze with; the run ends at once. -/
  | nothing
  deriving DecidableEq, Repr, Inhabited

/-- What is logged when no configuration could be generated. -/
def generationLine (f : Generated.Failure) : String :=
  "Failed to create a default tsconfig.json: " ++ f.message

/-- The plan of a run with one group. -/
def planPlain (around : Surroundings) (o : RunOptions) (configs : List String)
    (files : List SourceFile) (l : Live σ τ) : Plan × Live σ τ :=
  if configs.isEmpty then
    match l.generate around o files with
    | (.ok (), l) =>
      (.batches [.analyze none [(Generated.configPath around.fresh).text] files], l)
    | (.error f, l) => (.batches [.analyze none [] files], l.say .warn (generationLine f))
  else (.batches [.analyze none configs files], l)

/-- The plan of a run over the project graph; `none` when the graph needs more
loads than there may be. -/
def planGroups (e : Engine σ) (around : Surroundings) (seeds : List Path)
    (files : List SourceFile) (l : Live σ τ) : Option (Except RunError Plan) × Live σ τ :=
  let (result, search) := resolveGroups e l.disk around.loads seeds files l.engine
  let l :=
    { l with engine := search.engine, cancelled := l.cancelled || search.interrupted }.emitAll
      search.events
  match result with
  | none => (none, l)
  | some (.error err) => (some (.error (.ofEngine err)), l)
  | some (.ok groups) => (some (.ok (.batches (groups.map Batch.ofGroup))), l)

/-- The plan of a run. -/
def plan (e : Engine σ) (around : Surroundings) (o : RunOptions) (mode : RunMode)
    (files : List SourceFile) (l : Live σ τ) : Option (Except RunError Plan) × Live σ τ :=
  match mode with
  | .plain configs =>
    let (p, l) := l.planPlain around o configs files
    (some (.ok p), l)
  | .configured seeds =>
    if seeds.isEmpty then
      match l.generate around o files with
      | (.ok (), l) => l.planGroups e around [Generated.configPath around.fresh] files
      | (.error f, l) =>
        (some (.ok .nothing),
          (l.say .debug (generationLine f)).say .warn
            "No tsconfig.json file found, analysis will be skipped.")
    else l.planGroups e around seeds files

/-- The progress reporter starts over the files that are to be analyzed. -/
def startProgress (o : RunOptions) (batches : List Batch) (l : Live σ τ) : Live σ τ :=
  let targets := batches.flatMap fun b => b.targets.map SourceFile.display
  let (progress, lines) := Progress.start o.language.component targets o.progressInterval
  { l with progress := some progress }.logAll lines

/-- Sets up, plans and feeds. -/
def execute (e : Engine σ) (s : Sink τ) (around : Surroundings) (o : RunOptions) (mode : RunMode)
    (files : List SourceFile) (l : Live σ τ) : Option (Except RunError RunState) × Live σ τ :=
  match l.setUpLinter e o with
  | (.error err, l) => (some (.error err), l)
  | (.ok (), l) =>
    match l.plan e around o mode files with
    | (none, l) => (none, l)
    | (some (.error err), l) => (some (.error err), l)
    | (some (.ok .nothing), l) => (some (.ok .completed), l)
    | (some (.ok (.batches batches)), l) =>
      let (outcome, l) := (l.startProgress o batches).feedBatches e s o true batches
      (some outcome, l)

/-- A generated configuration is removed. -/
def discardGenerated (l : Live σ τ) : Live σ τ :=
  match l.generated with
  | some directory => { l with disk := Generated.discard l.disk directory }
  | none => l

/-- The progress reporter is closed, if there is one, and its count kept. -/
def closeProgress (completed : Bool) (l : Live σ τ) : Live σ τ :=
  match l.progress with
  | none => l
  | some p =>
    let (p, lines) := if completed then p.stop else p.cancel
    { l with progress := some p, summary := { l.summary with progressTally := p.processed } }.logAll
      lines

/-- The recorder is stopped, and its records counted. -/
def closeMetrics (around : Surroundings) (l : Live σ τ) : Live σ τ :=
  let l :=
    { l with summary := { l.summary with metricRecords := l.recorder.files.length } }
  let stopped := l.recorder.stop around.elapsedMs l.disk
  let l := { l with recorder := stopped.recorder, disk := stopped.disk }.logAll stopped.log
  match stopped.outcome with
  | .ok () => l
  | .error err => l.say .error ("Failed to write monitoring metrics: " ++ err.message)

/-- The state that an outcome leaves a run in. -/
def finalState : Except RunError RunState → RunState
  | .ok state => state
  | .error _ => .failed

/-- Closes everything. -/
def finish (around : Surroundings) (outcome : Except RunError RunState) (l : Live σ τ) :
    Live σ τ :=
  let l := l.discardGenerated
  let l := l.closeProgress (finalState outcome = .completed)
  let l := l.closeMetrics around
  let l := { l with summary := { l.summary with state := finalState outcome } }
  match outcome with
  | .ok _ => l
  | .error err => l.say .error ("Analysis failed: " ++ err.message)

end Live

/-- An engine and a sink, and the one run that they are used for. -/
structure Session (σ τ : Type) where
  engine : σ
  sink : τ
  disk : Disk
  cancelled : Bool
  state : RunState
  summary : RunSummary

/-- A run that has come to its end. -/
structure Finished (σ τ : Type) where
  result : Except RunError RunSummary
  moments : List Moment
  session : Session σ τ

namespace Session

variable {σ τ : Type}

/-- A session that has not been used. -/
def new (engine : σ) (sink : τ) (disk : Disk) : Session σ τ :=
  ⟨engine, sink, disk, false, .notStarted, .empty⟩

/-- The run at its start. -/
def begin_ (around : Surroundings) (o : RunOptions) (n : Session σ τ) : Live σ τ :=
  { engine := n.engine
    sink := n.sink
    disk := n.disk
    recorder := (Recorder.new o.monitoring around.cache).startRun o.language.component
    progress := none
    summary := .empty
    cancelled := n.cancelled
    generated := none
    moments := [] }

/-- The session after a run. -/
def after (outcome : Except RunError RunState) (l : Live σ τ) : Finished σ τ :=
  { result :=
      match outcome with
      | .ok _ => .ok l.summary
      | .error err => .error err
    moments := l.moments
    session := ⟨l.engine, l.sink, l.disk, l.cancelled, l.summary.state, l.summary⟩ }

/-- Runs the analysis of files; `none` when the project graph needs more loads
than there may be. -/
def run (e : Engine σ) (s : Sink τ) (around : Surroundings) (o : RunOptions) (mode : RunMode)
    (files : List SourceFile) (n : Session σ τ) : Option (Finished σ τ) :=
  if n.state ≠ .notStarted then some ⟨.error .alreadyStarted, [], n⟩
  else
    match (n.begin_ around o).execute e s around o mode files with
    | (none, _) => none
    | (some outcome, l) => some (after outcome (l.finish around outcome))

end Session

end LintRelay
