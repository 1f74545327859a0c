import LintRelay.Analysis.Request
import LintRelay.Glob.Matcher
import LintRelay.Text.Blank
import LintRelay.Text.Quoted
set_option autoImplicit false

/-!
# Settings

Settings describe one run: the rules that are active, the configurations that the
project graph starts from, and how the engine and the monitoring are set up.
Every setting has a default.
-/

namespace LintRelay

open Json (Value Decoder Fault Member)

/-- Whether metrics are recorded, and where. -/
structure MonitoringSettings where
  enabled : Bool
  /-- The directory of the metrics file; the user's cache when absent. -/
  path : Option Path
  deriving DecidableEq, Repr, Inhabited

/-- How the bridge is reached or started. -/
structure EngineSettings where
  /-- The address of a running bridge; nothing is started when it is given. -/
  url : Option String
  command : String
  script : Option Path
  host : String
  /-- The port to listen on; zero takes any free one. -/
  port : Nat
  timeoutMs : Nat
  startupTimeoutMs : Nat
  deriving DecidableEq, Repr, Inhabited

/-- The settings of a run. -/
structure Settings where
  language : Language
  rules : List Rule
  environments : List String
  globals : List String
  tsconfigPaths : List Path
  ignoreHeaderComments : Bool
  sendFileContent : Bool
  excludedPaths : List String
  progressIntervalSecs : Nat
  monitoring : MonitoringSettings
  engine : EngineSettings
  deriving Inhabited

namespace MonitoringSettings

/-- Nothing is recorded. -/
def default : MonitoringSettings := ⟨false, none⟩

/-- The settings as a JSON value. -/
def toValue (s : MonitoringSettings) : Value :=
  .object
    [("enabled", .bool s.enabled), ("path", Json.optional (fun p => .string p.text) s.path)]

/-- What has been read of the settings. -/
structure Draft where
  enabled : Option Bool
  path : Option (Option String)

/-- The members of the settings. -/
def fields : List (Member Draft) :=
  [Member.of "enabled" Draft.enabled (fun d a => { d with enabled := some a }) Json.bool,
   Member.of "path" Draft.path (fun d a => { d with path := some a }) (Json.nullable Json.string)]

/-- The settings of a draft; what was left out takes its default. -/
def ofDraft (d : Draft) : MonitoringSettings :=
  ⟨d.enabled.getD false, (d.path.getD none).map Path.mk⟩

/-- Reads the settings. -/
def decoder : Decoder MonitoringSettings :=
  Json.record fields ⟨none, none⟩ fun d => .ok (ofDraft d)

end MonitoringSettings

namespace EngineSettings

/-- A bridge that is started with the default command on any free local port. -/
def default : EngineSettings := ⟨none, "node", none, "127.0.0.1", 0, 300000, 60000⟩

/-- The settings as a JSON value. -/
def toValue (s : EngineSettings) : Value :=
  .object
    [("url", Json.optional .string s.url), ("command", .string s.command),
     ("script", Json.optional (fun p => .string p.text) s.script), ("host", .string s.host),
     ("port", Json.nat s.port), ("timeout_ms", Json.nat s.timeoutMs),
     ("startup_timeout_ms", Json.nat s.startupTimeoutMs)]

/-- What has been read of the settings. -/
structure Draft where
  url : Option (Option String)
  command : Option String
  script : Option (Option String)
  host : Option String
  port : Option Nat
  timeoutMs : Option Nat
  startupTimeoutMs : Option Nat

/-- Nothing has been read. -/
def Draft.empty : Draft := ⟨none, none, none, none, none, none, none⟩

/-- The members of the settings. -/
def fields : List (Member Draft) :=
  [Member.of "url" Draft.url (fun d a => { d with url := some a }) (Json.nullable Json.string),
   Member.of "command" Draft.command (fun d a => { d with command := some a }) Json.string,
   Member.of "script" Draft.script (fun d a => { d with script := some a })
     (Json.nullable Json.string),
   Member.of "host" Draft.host (fun d a => { d with host := some a }) Json.string,
   Member.of "port" Draft.port (fun d a => { d with port := some a }) Json.nat16,
   Member.of "timeout_ms" Draft.timeoutMs (fun d a => { d with timeoutMs := some a }) Json.nat64,
   Member.of "startup_timeout_ms" Draft.startupTimeoutMs
     (fun d a => { d with startupTimeoutMs := some a }) Json.nat64]

/-- The settings of a draft; what was left out takes its default. -/
def ofDraft (d : Draft) : EngineSettings :=
  { url := d.url.getD none
    command := d.command.getD default.command
    script := (d.script.getD none).map Path.mk
    host := d.host.getD default.host
    port := d.port.getD default.port
    timeoutMs := d.timeoutMs.getD default.timeoutMs
    startupTimeoutMs := d.startupTimeoutMs.getD default.startupTimeoutMs }

/-- Reads the settings. -/
def decoder : Decoder EngineSettings := Json.record fields Draft.empty fun d => .ok (ofDraft d)

end EngineSettings

namespace Settings

/-- The settings of a run about which nothing was said. -/
def default : Settings :=
  ⟨.javaScript, [], [], [], [], true, false, [], 10, .default, .default⟩

/-- The settings as a JSON value. -/
def toValue (s : Settings) : Value :=
  .object
    [("language", .string s.language.name), ("rules", .array (s.rules.map Rule.toValue)),
     ("environments", Json.strings s.environments), ("globals", Json.strings s.globals),
     ("tsconfig_paths", Json.strings (s.tsconfigPaths.map Path.text)),
     ("ignore_header_comments", .bool s.ignoreHeaderComments),
     ("send_file_content", .bool s.sendFileContent),
     ("excluded_paths", Json.strings s.excludedPaths),
     ("progress_interval_secs", Json.nat s.progressIntervalSecs),
     ("monitoring", s.monitoring.toValue), ("engine", s.engine.toValue)]

/-- What has been read of the settings. -/
structure Draft where
  language : Option Language
  rules : Option (List Rule)
  environments : Option (List String)
  globals : Option (List String)
  tsconfigPaths : Option (List String)
  ignoreHeaderComments : Option Bool
  sendFileContent : Option Bool
  excludedPaths : Option (List String)
  progressIntervalSecs : Option Nat
  monitoring : Option MonitoringSettings
  engine : Option EngineSettings

/-- Nothing has been read. -/
def Draft.empty : Draft :=
  ⟨none, none, none, none, none, none, none, none, none, none, none⟩

/-- The members of the settings. -/
def fields : List (Member Draft) :=
  [Member.of "language" Draft.language (fun d a => { d with language := some a })
     (Json.oneOf Language.names),
   Member.of "rules" Draft.rules (fun d a => { d with rules := some a }) (Json.list Rule.decoder),
   Member.of "environments" Draft.environments (fun d a => { d with environments := some a })
     (Json.list Json.string),
   Member.of "globals" Draft.globals (fun d a => { d with globals := some a })
     (Json.list Json.string),
   Member.of "tsconfig_paths" Draft.tsconfigPaths (fun d a => { d with tsconfigPaths := some a })
     (Json.list Json.string),
   Member.of "ignore_header_comments" Draft.ignoreHeaderComments
     (fun d a => { d with ignoreHeaderComments := some a }) Json.bool,
   Member.of "send_file_content" Draft.sendFileContent
     (fun d a => { d with sendFileContent := some a }) Json.bool,
   Member.of "excluded_paths" Draft.excludedPaths (fun d a => { d with excludedPaths := some a })
     (Json.list Json.string),
   Member.of "progress_interval_secs" Draft.progressIntervalSecs
     (fun d a => { d with progressIntervalSecs := some a }) Json.nat64,
   Member.of "monitoring" Draft.monitoring (fun d a => { d with monitoring := some a })
     MonitoringSettings.decoder,
   Member.of "engine" Draft.engine (fun d a => { d with engine := some a }) EngineSettings.decoder]

/-- The settings of a draft; what was left out takes its default. -/
def ofDraft (d : Draft) : Settings :=
  { language := d.language.getD default.language
    rules := d.rules.getD []
    environments := d.environments.getD []
    globals := d.globals.getD []
    tsconfigPaths := (d.tsconfigPaths.getD []).map Path.mk
    ignoreHeaderComments := d.ignoreHeaderComments.getD default.ignoreHeaderComments
    sendFileContent := d.sendFileContent.getD default.sendFileContent
    excludedPaths := d.excludedPaths.getD []
    progressIntervalSecs := d.progressIntervalSecs.getD default.progressIntervalSecs
    monitoring := d.monitoring.getD .default
    engine := d.engine.getD .default }

/-- Reads the settings. -/
def decoder : Decoder Settings := Json.record fields Draft.empty fun d => .ok (ofDraft d)

/-! ## Excluded paths -/

/-- A glob that can be read stands for the path. -/
def patternExcludes (p : Path) (pattern : String) : Bool :=
  match Glob.parse pattern with
  | .ok tokens => Glob.matchesText .whole tokens p.text
  | .error _ => false

/-- The path is excluded from analysis. -/
def excludes (s : Settings) (p : Path) : Bool := s.excludedPaths.any (patternExcludes p)

/-! ## Validity -/

/-- What is wrong with settings. -/
inductive Invalid where
  | excludedPattern (pattern : String) (fault : Glob.Fault)
  | emptyRuleKey
  | zeroInterval
  | noEngine
  deriving DecidableEq, Repr

/-- The wording of a complaint. -/
def Invalid.message : Invalid → String
  | .excludedPattern pattern fault =>
    "invalid excluded_paths pattern " ++ Text.quoted pattern ++ ": " ++ fault.describe pattern
  | .emptyRuleKey => "rule with empty key"
  | .zeroInterval => "progress_interval_secs must be greater than 0"
  | .noEngine => "engine needs either a url or a script to launch"

/-- The first pattern that cannot be read. -/
def firstBadPattern : List String → Option Invalid
  | [] => none
  | p :: rest =>
    match Glob.parse p with
    | .error f => some (.excludedPattern p f)
    | .ok _ => firstBadPattern rest

/-- What is wrong with the settings, if anything is. -/
def check (s : Settings) : Option Invalid :=
  match firstBadPattern s.excludedPaths with
  | some e => some e
  | none =>
    if s.rules.any fun r => Text.isAllBlank r.key then some .emptyRuleKey
    else if s.progressIntervalSecs = 0 then some .zeroInterval
    else if s.engine.url.isNone && s.engine.script.isNone then some .noEngine
    else none

end Settings

end LintRelay
