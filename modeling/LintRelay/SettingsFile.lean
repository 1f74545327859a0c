import LintRelay.Disk.Resolve
import LintRelay.Settings
import LintRelay.Yaml.Decoder
set_option autoImplicit false

/-!
# Settings files

Settings are kept in YAML.  An empty file holds the defaults.
-/

namespace LintRelay

open Yaml (Member Decoder)

namespace MonitoringSettings

/-- The members of the settings in a file. -/
def fileFields : List (Member Draft) :=
  [Member.of "enabled" Draft.enabled (fun d a => { d with enabled := some a }) Yaml.bool,
   Member.of "path" Draft.path (fun d a => { d with path := some a }) (Yaml.nullable Yaml.string)]

/-- Reads the settings from a file. -/
def fileDecoder : Decoder MonitoringSettings :=
  Yaml.record fileFields ⟨none, none⟩ fun d => some (ofDraft d)

end MonitoringSettings

namespace EngineSettings

/-- The members of the settings in a file. -/
def fileFields : List (Member Draft) :=
  [Member.of "url" Draft.url (fun d a => { d with url := some a }) (Yaml.nullable Yaml.string),
   Member.of "command" Draft.command (fun d a => { d with command := some a }) Yaml.string,
   Member.of "script" Draft.script (fun d a => { d with script := some a })
     (Yaml.nullable Yaml.string),
   Member.of "host" Draft.host (fun d a => { d with host := some a }) Yaml.string,
   Member.of "port" Draft.port (fun d a => { d with port := some a }) Yaml.nat16,
   Member.of "timeout_ms" Draft.timeoutMs (fun d a => { d with timeoutMs := some a }) Yaml.nat64,
   Member.of "startup_timeout_ms" Draft.startupTimeoutMs
     (fun d a => { d with startupTimeoutMs := some a }) Yaml.nat64]

/-- Reads the settings from a file. -/
def fileDecoder : Decoder EngineSettings :=
  Yaml.record fileFields Draft.empty fun d => some (ofDraft d)

end EngineSettings

namespace Rule

/-- The members of a rule in a file. -/
def fileFields : List (Member Draft) :=
  [Member.of "key" Draft.key (fun d a => { d with key := some a }) Yaml.string,
   Member.of "configurations" Draft.configurations
     (fun d a => { d with configurations := some a }) (Yaml.list Yaml.anyValue)]

/-- Reads a rule from a file; it needs a key. -/
def fileDecoder : Decoder Rule :=
  Yaml.record fileFields ⟨none, none⟩ fun d => d.key.map fun key => ⟨key, d.configurations.getD []⟩

end Rule

namespace Settings

/-- The members of the settings in a file. -/
def fileFields : List (Member Draft) :=
  [Member.of "language" Draft.language (fun d a => { d with language := some a })
     (Yaml.oneOf Language.names),
   Member.of "rules" Draft.rules (fun d a => { d with rules := some a })
     (Yaml.list Rule.fileDecoder),
   Member.of "environments" Draft.environments (fun d a => { d with environments := some a })
     (Yaml.list Yaml.string),
   Member.of "globals" Draft.globals (fun d a => { d with globals := some a })
     (Yaml.list Yaml.string),
   Member.of "tsconfig_paths" Draft.tsconfigPaths (fun d a => { d with tsconfigPaths := some a })
     (Yaml.list Yaml.string),
   Member.of "ignore_header_comments" Draft.ignoreHeaderComments
     (fun d a => { d with ignoreHeaderComments := some a }) Yaml.bool,
   Member.of "send_file_content" Draft.sendFileContent
     (fun d a => { d with sendFileContent := some a }) Yaml.bool,
   Member.of "excluded_paths" Draft.excludedPaths (fun d a => { d with excludedPaths := some a })
     (Yaml.list Yaml.string),
   Member.of "progress_interval_secs" Draft.progressIntervalSecs
     (fun d a => { d with progressIntervalSecs := some a }) Yaml.nat64,
   Member.of "monitoring" Draft.monitoring (fun d a => { d with monitoring := some a })
     MonitoringSettings.fileDecoder,
   Member.of "engine" Draft.engine (fun d a => { d with engine := some a })
     EngineSettings.fileDecoder]

/-- Reads settings from the text of a file. -/
def parse? (text : String) : Option Settings :=
  Yaml.decode (Yaml.record fileFields Draft.empty fun d => some (ofDraft d)) text

/-- Why a settings file gives no settings. -/
inductive LoadError where
  /-- The file cannot be read. -/
  | unreadable (error : Disk.OsError)
  /-- The file holds no settings. -/
  | malformed
  deriving DecidableEq, Repr, Inhabited

/-- What is said about a file that holds no settings. -/
def malformedMessage : String := "the file does not hold settings"

/-- Reads a settings file. -/
def load (disk : Disk) (p : Path) : Except LoadError Settings :=
  match disk.readText p with
  | .error e => .error (.unreadable e)
  | .ok text =>
    match parse? text with
    | some s => .ok s
    | none => .error .malformed

end Settings

end LintRelay
