import LintRelay.Project.ConfigFile
import LintRelay.SourceFile
import LintRelay.Log
import LintRelay.Text.Quoted
set_option autoImplicit false

/-!
# Generated configurations

A project without a configuration gets one for the time of a run.  It lists the
files explicitly, and stands in a fresh directory that is removed afterwards.
-/

namespace LintRelay.Generated

open Json (Value)

/-- Compiler options of the generated configuration. -/
def compilerOptions : Language → List (String × Value)
  | .javaScript => [("allowJs", .bool true), ("noImplicitAny", .bool true)]
  | .typeScript => []

/-- The text of the configuration that lists the given files. -/
def content (language : Language) (files : List SourceFile) : String :=
  (Value.object
    [("compilerOptions", .object (compilerOptions language)),
     ("files", Json.strings (files.map fun f => f.path.text))]).indented

/-- Why no configuration could be generated. -/
inductive Failure where
  /-- The fresh directory could not be made. -/
  | directory (path : Path) (error : Disk.OsError)
  /-- The file could not be written. -/
  | file (error : Disk.OsError)
  deriving DecidableEq, Repr

/-- The wording of a failure. -/
def Failure.message : Failure → String
  | .directory path error => error.message ++ " at path " ++ Text.quoted path.text
  | .file error => error.message

/-- The path of the configuration in its directory. -/
def configPath (directory : Path) : Path := directory.join ⟨Path.defaultConfigName⟩

/-- Makes the fresh directory and the configuration in it. -/
def create (d : Disk) (directory : Path) (language : Language) (files : List SourceFile) :
    Except Failure Disk :=
  match d.makeDirectory directory with
  | .error e => .error (.directory directory e)
  | .ok d =>
    match d.write (configPath directory) (Text.utf8 (content language files)) with
    | .error e => .error (.file e)
    | .ok d => .ok d

/-- Removes the directory and the configuration in it. -/
def discard (d : Disk) (directory : Path) : Disk :=
  match d.locateEntry directory with
  | .ok l => { d with tree := d.tree.remove l }
  | .error _ => d

/-- What is logged about a configuration that was made. -/
def line (directory : Path) : Log.Line :=
  ⟨.debug, .project, "Using generated tsconfig.json " ++ (configPath directory).text⟩

end LintRelay.Generated
