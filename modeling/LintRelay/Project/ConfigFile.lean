import LintRelay.Analysis.Request
set_option autoImplicit false

/-!
# Project configurations

A configuration file names the files it claims: some explicitly, others by
include and exclude patterns relative to its directory.  It may refer to further
configurations.
-/

namespace LintRelay

open Json (Value Decoder Fault Member)

/-- A loaded configuration file.  Its path, in normal form, is its identity. -/
structure ConfigFile where
  path : Path
  options : List (String × Value)
  /-- References to other configurations, as written. -/
  references : List String
  /-- Files listed explicitly, as written. -/
  files : List Path
  /-- Include patterns; `none` when nothing was said about them. -/
  includes : Option (List String)
  excludes : List String
  deriving Inhabited

namespace ConfigFile

/-- A configuration without options, references and match rules. -/
def new (path : Path) : ConfigFile := ⟨path.normalize, [], [], [], none, []⟩

/-- The directory that relative paths of the configuration start from. -/
def dir (c : ConfigFile) : Path := c.path.parent?.getD ⟨"/"⟩

/-- The include patterns in effect: a configuration that says nothing about its
files claims everything below its directory. -/
def effectiveIncludes (c : ConfigFile) : List String :=
  match c.includes with
  | some patterns => patterns
  | none => if c.files.isEmpty then ["**/*"] else []

/-- The configuration files that the references name. -/
def resolvedReferences (c : ConfigFile) : List Path :=
  c.references.map (Path.resolveReference c.dir)

end ConfigFile

/-! ## The engine's description of a configuration -/

/-- What the engine answers when it is asked for a configuration. -/
structure ConfigAnswer where
  options : List (String × Value)
  projectReferences : List String
  files : List Path
  includes : Option (List String)
  excludes : List String
  error : Option String
  deriving Inhabited

namespace ConfigAnswer

/-- What has been read of an answer. -/
structure Draft where
  options : Option (List (String × Value))
  projectReferences : Option (List String)
  files : Option (List String)
  includes : Option (Option (List String))
  excludes : Option (List String)
  error : Option (Option String)

/-- The members of an answer. -/
def fields : List (Member Draft) :=
  [Member.of "options" Draft.options (fun d a => { d with options := some a }) Json.freeObject,
   Member.of "projectReferences" Draft.projectReferences
     (fun d a => { d with projectReferences := some a }) (Json.list Json.string),
   Member.of "files" Draft.files (fun d a => { d with files := some a }) (Json.list Json.string),
   Member.of "include" Draft.includes (fun d a => { d with includes := some a })
     (Json.nullable (Json.list Json.string)),
   Member.of "exclude" Draft.excludes (fun d a => { d with excludes := some a })
     (Json.list Json.string),
   Member.of "error" Draft.error (fun d a => { d with error := some a })
     (Json.nullable Json.string)]

/-- Everything in an answer may be left out. -/
def finish (d : Draft) : Except Fault ConfigAnswer :=
  .ok
    { options := d.options.getD []
      projectReferences := d.projectReferences.getD []
      files := (d.files.getD []).map Path.mk
      includes := d.includes.getD none
      excludes := d.excludes.getD []
      error := d.error.getD none }

/-- Reads an answer. -/
def decoder : Decoder ConfigAnswer :=
  Json.record fields ⟨none, none, none, none, none, none⟩ finish

/-- The configuration that an answer describes. -/
def toConfig (path : Path) (a : ConfigAnswer) : ConfigFile :=
  ⟨path.normalize, a.options, a.projectReferences, a.files, a.includes, a.excludes⟩

end ConfigAnswer

end LintRelay
