import LintRelay.Disk.Walk
import LintRelay.Settings
import LintRelay.SourceFile
set_option autoImplicit false

/-!
# Finding files

The two walks over a project: one gathers the source files of a language, the
other the project configurations.
-/

namespace LintRelay.Collection

open Disk (Entry EntryKind WalkFault WalkRule Found)

/-- Directories that are never searched for sources. -/
def skippedDirectories : List String := ["node_modules", "bower_components", "dist", "coverage"]

/-- The name starts with a dot. -/
def isHidden (name : String) : Bool := name.toList.head? = some '.'

/-- Sources are sought everywhere but in hidden directories below the root and in
directories that hold no sources of the project's own. -/
def keepsSource (e : Entry) : Bool :=
  if e.kind = .dir then
    !(0 < e.depth && isHidden e.name) && !skippedDirectories.contains e.name
  else true

/-- Configurations are sought everywhere but in hidden directories below the root
and in directories of dependencies. -/
def keepsConfig (e : Entry) : Bool :=
  if e.kind = .dir then e.name != "node_modules" && !(0 < e.depth && isHidden e.name) else true

/-- A declaration file has no code to analyze. -/
def isDeclaration (p : Path) : Bool := ".d.ts".toList.isSuffixOf p.text.toList

/-- The file is a source of the language that is not excluded. -/
def isSource (language : Language) (s : Settings) (p : Path) : Bool :=
  language.extensions.contains (String.ofList (p.extension?.getD [])) && !s.excludes p &&
    !isDeclaration p

/-- The source file at a path. -/
def sourceAt (p : Path) : SourceFile :=
  ⟨p, if SourceFile.looksLikeTest p then .test else .main, none⟩

/-- The sources among what a walk has come to; the first fault ends it. -/
def sources (language : Language) (s : Settings) : Found → Except WalkFault (List SourceFile)
  | [] => .ok []
  | .error f :: _ => .error f
  | .ok e :: rest =>
    match sources language s rest with
    | .error f => .error f
    | .ok files =>
      .ok (if e.kind = .file && isSource language s e.path then sourceAt e.path :: files else files)

/-- The source files of a language below a root, in the order of the walk. -/
def collectFiles (d : Disk) (root : Path) (language : Language) (s : Settings) :
    Except WalkFault (List SourceFile) :=
  sources language s (d.walk ⟨true, keepsSource⟩ root)

/-- The configuration that an entry is, if it is one. -/
def configOf? : Except WalkFault Entry → Option Path
  | .ok e => if e.kind = .file && e.name = Path.defaultConfigName then some e.path else none
  | .error _ => none

/-- The project configurations below a root, in the order of the walk; what
cannot be read is passed over. -/
def discoverConfigs (d : Disk) (root : Path) : List Path :=
  (d.walk ⟨false, keepsConfig⟩ root).filterMap configOf?

end LintRelay.Collection
