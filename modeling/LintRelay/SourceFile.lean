import LintRelay.Language
import LintRelay.Disk.Resolve
import LintRelay.Text.Basic
set_option autoImplicit false

/-!
# Source files

A file handed to the engine: its path as given, its kind, and possibly a text
that stands for what is on disk.
-/

namespace LintRelay

/-- A source file to analyze. -/
structure SourceFile where
  path : Path
  kind : FileKind
  /-- A text that is not on disk; it is always sent to the engine. -/
  contents : Option String
  deriving DecidableEq, Repr, Inhabited

namespace SourceFile

/-- A main file whose text is on disk. -/
def main (path : Path) : SourceFile := ⟨path, .main, none⟩

/-- How messages name the file. -/
def display (f : SourceFile) : String := f.path.text

/-- The text to send along with a request: a text in memory wins, and the file on
disk is read only when `send` asks for it. -/
def requestContents (d : Disk) (send : Bool) (f : SourceFile) :
    Except Disk.OsError (Option String) :=
  match f.contents with
  | some text => .ok (some text)
  | none =>
    if send then
      match d.read f.path with
      | .ok bytes => .ok (some (Text.decodeLossy bytes))
      | .error e => .error e
    else .ok none

/-- Names of directories that hold test sources. -/
def testDirectories : List String := ["__tests__", "__test__", "__mocks__"]

/-- A path that looks like a test source by its name or by a directory on it. -/
def looksLikeTest (p : Path) : Bool :=
  let name := p.fileNameChars.getD []
  Text.occurs ".test.".toList name || Text.occurs ".spec.".toList name ||
    p.components.any fun c =>
      match c with
      | .name s => testDirectories.contains (String.ofList s)
      | _ => false

end SourceFile

end LintRelay
