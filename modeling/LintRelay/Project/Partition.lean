import LintRelay.Project.ConfigFile
import LintRelay.Project.Pattern
import LintRelay.SourceFile
import LintRelay.Engine.Error
import LintRelay.Text.Quoted
set_option autoImplicit false

/-!
# Assigning files to configurations

Every file goes to the first configuration that matches it.  A configuration
matches the files it lists, and the files below its directory that an include
pattern covers and no exclude pattern does.  Patterns are read before any file is
looked at, so a pattern that cannot be read is reported whatever the files are.
-/

namespace LintRelay

/-- The match rules of a configuration, ready for use. -/
structure ConfigMatcher where
  dir : Path
  files : List Path
  includes : List (List Glob.Token)
  excludes : List (List Glob.Token)
  deriving Inhabited

namespace ConfigMatcher

/-- The complaint about a pattern that cannot be read. -/
def invalidPattern (c : ConfigFile) (e : Pattern.Invalid) : EngineError :=
  .protocol
    ("invalid pattern " ++ Text.quoted e.pattern ++ " in " ++ c.path.text ++ ": " ++
      e.fault.describe e.glob)

/-- The match rules of a configuration; include patterns are read first. -/
def ofConfig (c : ConfigFile) : Except EngineError ConfigMatcher :=
  match Pattern.compile c.effectiveIncludes with
  | .error e => .error (invalidPattern c e)
  | .ok includes =>
    match Pattern.compile c.excludes with
    | .error e => .error (invalidPattern c e)
    | .ok excludes =>
      .ok ⟨c.dir, c.files.map fun f => (c.dir.join f).normalize, includes, excludes⟩

/-- One of the globs stands for a relative path. -/
def covers (globs : List (List Glob.Token)) (relative : Path) : Bool :=
  globs.any fun g => Glob.matchesText .segment g relative.text

/-- The configuration claims a path in normal form. -/
def claims (m : ConfigMatcher) (path : Path) : Bool :=
  m.files.contains path ||
    match Path.below? m.dir path with
    | some relative => covers m.includes relative && !covers m.excludes relative
    | none => false

/-- The configuration claims a path. -/
def isMatch (m : ConfigMatcher) (path : Path) : Bool := m.claims path.normalize

/-- The match rules of all configurations; the first fault decides. -/
def ofConfigs : List ConfigFile → Except EngineError (List (ConfigFile × ConfigMatcher))
  | [] => .ok []
  | c :: rest =>
    match ofConfig c with
    | .error e => .error e
    | .ok m =>
      match ofConfigs rest with
      | .error e => .error e
      | .ok more => .ok ((c, m) :: more)

end ConfigMatcher

/-- Files that share a configuration, or that no configuration claims. -/
structure ConfigGroup where
  /-- The configuration; `none` for the files without one. -/
  config : Option ConfigFile
  files : List SourceFile
  deriving Inhabited

/-- Deals files out over configurations in order: each takes what it claims of
the files that are left. -/
def dealOut : List (ConfigFile × ConfigMatcher) → List SourceFile → List ConfigGroup
  | [], files => if files.isEmpty then [] else [⟨none, files⟩]
  | (c, m) :: rest, files =>
    let own := files.filter fun f => m.isMatch f.path
    let left := files.filter fun f => !m.isMatch f.path
    (if own.isEmpty then [] else [⟨some c, own⟩]) ++ dealOut rest left

/-- The groups of files, in the order of the configurations; the files that no
configuration claims come last. -/
def partition (configs : List ConfigFile) (files : List SourceFile) :
    Except EngineError (List ConfigGroup) :=
  match ConfigMatcher.ofConfigs configs with
  | .error e => .error e
  | .ok matchers => .ok (dealOut matchers files)

end LintRelay
