import LintRelay.Bridge.Client
import LintRelay.Collection
import LintRelay.CommandLine.Arguments
import LintRelay.CommandLine.Outcome
import LintRelay.Report.Pretty
import LintRelay.Run.Session
import LintRelay.SettingsFile
set_option autoImplicit false

/-!
# Analyzing

The command that analyzes a directory or a file: it finds and checks the settings,
gathers the files, opens a bridge, does one run and reports it.
-/

namespace LintRelay.CommandLine

open Bridge (Host Client)

/-! ## Interrupts -/

/-- The world outside, with a memory of whether the user interrupted the run. -/
structure Watched (σ : Type) where
  outside : σ
  interrupted : Bool
  deriving Inhabited

/-- What is logged at the first interrupt. -/
def interruptLine : Log.Line :=
  ⟨.warn, .commandLine, "Interrupt received, stopping after the current file"⟩

/-- A host that remembers interrupts, and logs the first one. -/
def watch {σ : Type} (host : Host σ) : Host (Watched σ) where
  exchange := fun disk message w =>
    let a := host.exchange disk message w.outside
    let first := a.interrupted && !w.interrupted
    ⟨a.value, ⟨a.state, w.interrupted || a.interrupted⟩,
      a.log ++ (if first then [interruptLine] else []), a.interrupted⟩
  freePort := fun name w =>
    match host.freePort name w.outside with
    | (r, outside) => (r, { w with outside := outside })
  launch := fun disk command arguments w =>
    match host.launch disk command arguments w.outside with
    | (r, outside) => (r, { w with outside := outside })
  isRunning := fun w =>
    match host.isRunning w.outside with
    | (r, outside) => (r, { w with outside := outside })
  stop := fun w =>
    match host.stop w.outside with
    | (r, outside) => (r, { w with outside := outside })
  now := fun w =>
    match host.now w.outside with
    | (r, outside) => (r, { w with outside := outside })
  pause := fun ms w => { w with outside := host.pause ms w.outside }

/-! ## Settings -/

/-- The names under which settings are sought. -/
def settingsNames : List String := ["lintbridge.yaml", ".lintbridge.yaml"]

/-- The settings file to use. -/
def settingsPath (disk : Disk) (a : AnalyzeArguments) : Option Path :=
  match a.settings with
  | some p => some p
  | none => (settingsNames.map Path.mk).find? disk.pathExists

/-- Settings with what the arguments say instead. -/
def override (a : AnalyzeArguments) (s : Settings) : Settings :=
  { s with
    language := a.language.getD s.language
    engine := { s.engine with url := a.engineUrl.or s.engine.url }
    monitoring :=
      { enabled := s.monitoring.enabled || a.monitoring || a.monitoringPath.isSome
        path := a.monitoringPath.or s.monitoring.path } }

/-- The wording of why settings could not be read. -/
def loadMessage : Settings.LoadError → String
  | .unreadable e => e.message
  | .malformed => Settings.malformedMessage

/-- Settings that can be used, or what is said about them. -/
def usableSettings (disk : Disk) (a : AnalyzeArguments) : Except (List String) Settings :=
  if a.format ≠ "pretty" && a.format ≠ "json" then
    .error
      ["Error: invalid format " ++ Text.quoted a.format ++ ", must be 'pretty' or 'json'\n"]
  else
    match settingsPath disk a with
    | none =>
      .error
        ["Error: no settings file found (looked for " ++ ", ".intercalate settingsNames ++ ")\n",
         "Run 'lintbridge init' to create a settings file\n"]
    | some p =>
      match Settings.load disk p with
      | .error e => .error ["Error parsing settings: " ++ loadMessage e ++ "\n"]
      | .ok loaded =>
        let s := override a loaded
        match s.check with
        | some fault => .error ["Error: invalid settings: " ++ fault.message ++ "\n"]
        | none => .ok s

/-! ## Files -/

/-- The directory that a project starts from, and the files to analyze. -/
structure Sources where
  root : Path
  files : List SourceFile
  deriving Repr, Inhabited

/-- The sources at a path in normal form: those below a directory, or a file. -/
def sourcesAt (disk : Disk) (s : Settings) (p : Path) : Except Disk.WalkFault Sources :=
  if disk.isDirectory p then
    match Collection.collectFiles disk p s.language s with
    | .ok files => .ok ⟨p, files⟩
    | .error f => .error f
  else .ok ⟨p.parent?.getD p, [⟨p, .main, none⟩]⟩

/-- The configurations that the project graph starts from: those of the settings,
or all that are found. -/
def seeds (disk : Disk) (s : Settings) (root : Path) : List Path :=
  if s.tsconfigPaths.isEmpty then Collection.discoverConfigs disk root
  else s.tsconfigPaths.map root.join

/-- How files are grouped for the language of the settings. -/
def modeFor (s : Settings) (seeds : List Path) : RunMode :=
  match s.language with
  | .typeScript => .configured seeds
  | .javaScript => .plain (seeds.map Path.text)

/-! ## The run -/

/-- The sink of a run that is reported. -/
def reportSink : Sink Collected := ⟨fun f r c => (c.accept f r, false)⟩

/-- The report of a run. -/
def reportText (color : Bool) (a : AnalyzeArguments) (c : Collected) (s : RunSummary) : String :=
  if a.format = "json" then (RunReport.build a.path.text c s).json
  else Report.pretty color a.path.text c s

/-- The code for a run that came to its end. -/
def codeFor (c : Collected) (s : RunSummary) : Nat :=
  if s.state = .completed && c.issueCount = 0 then exitSuccess else exitFailed

/-- What is logged among events. -/
def loggedEvents (moments : List Moment) : List Emission :=
  moments.filterMap fun m =>
    match m.event with
    | .log l => some (.log l)
    | _ => none

/-- Does the run with an open client, closes the client and reports. -/
def runWith {σ : Type} (host : Host (Watched σ)) (around : Surroundings) (color : Bool)
    (a : AnalyzeArguments) (s : Settings) (sources : Sources) (disk : Disk)
    (opening : List Emission) (client : Client (Watched σ)) : Outcome σ :=
  let session : Session (Client (Watched σ)) Collected :=
    { Session.new client .empty disk with cancelled := client.outside.interrupted }
  let mode := modeFor s (seeds disk s sources.root)
  match session.run (Client.engine host) reportSink around (.ofSettings s) mode sources.files with
  | none => ⟨.error .endless, opening, disk, client.outside.outside⟩
  | some done =>
    let closed := done.session.engine.close host done.session.disk
    let told := opening ++ loggedEvents done.moments ++ closed.log.map .log
    let outside := closed.state.outside.outside
    match done.result with
    | .error e =>
      ⟨.ok exitError, told ++ [.err ("Error: " ++ e.message ++ "\n")], done.session.disk, outside⟩
    | .ok summary =>
      let collected := done.session.sink
      ⟨.ok (codeFor collected summary), told ++ [.out (reportText color a collected summary)],
        done.session.disk, outside⟩

/-- Analyzes a directory or a file. -/
def analyze {σ : Type} (host : Host σ) (around : Surroundings) (color : Bool) (disk : Disk)
    (a : AnalyzeArguments) (outside : σ) : Outcome σ :=
  match usableSettings disk a with
  | .error texts => .refuse disk outside texts
  | .ok s =>
    match disk.canonical a.path with
    | .error e =>
      .refuse disk outside
        ["Error: cannot access path " ++ Text.quoted a.path.text ++ ": " ++ e.message ++ "\n"]
    | .ok p =>
      match sourcesAt disk s p with
      | .error f => ⟨.error (.walk f), [], disk, outside⟩
      | .ok sources =>
        if sources.files.isEmpty then
          let line : Log.Line :=
            ⟨.warn, .commandLine, "No " ++ s.language.name ++ " files to analyze"⟩
          ⟨.ok exitSuccess, [.log line], disk, outside⟩
        else
          let opened := Client.fromSettings (watch host) disk s.engine ⟨outside, false⟩
          let opening := opened.log.map .log
          match opened.value with
          | .error e => ⟨.error (.engine e), opening, disk, opened.state.outside⟩
          | .ok client => runWith (watch host) around color a s sources disk opening client

end LintRelay.CommandLine
