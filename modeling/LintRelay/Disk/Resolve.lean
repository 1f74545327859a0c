import LintRelay.Disk.Node
set_option autoImplicit false

/-!
# Disk: paths on the disk

How a path leads to a location.  The steps of a path are taken one after the
other: a name goes down, `..` goes to the directory above the one reached, and
`.` or a trailing slash asks for a directory.  A link on the way is replaced by
the steps of its target; after forty links the search is given up.
-/

namespace LintRelay

open LintRelay.Text (Bytes)
open Disk (Node Location OsError)

/-- A tree and the directory that relative paths start from. -/
structure Disk where
  tree : Disk.Node
  working : Disk.Location
  deriving Inhabited, Repr

namespace Disk

/-- One step along a path. -/
inductive Step where
  | stay
  | up
  | down (name : String)
  deriving DecidableEq, Repr, Inhabited

/-- The step that a segment of a path stands for. -/
def Step.ofSegment (s : List Char) : Step :=
  if s = ['.'] then .stay else if s = ['.', '.'] then .up else .down (String.ofList s)

/-- The steps of a path; a slash at the end asks for a directory. -/
def stepsOf (text : String) : List Step :=
  let cs := text.toList
  let named := ((Path.segments cs).filter (· ≠ [])).map Step.ofSegment
  if cs.getLast? = some '/' then named ++ [.stay] else named

/-- Links that may be followed on the way. -/
def maxLinks : Nat := 40

/-- Nothing follows but requests for a directory. -/
def onlyStays (steps : List Step) : Bool := steps.all (· = .stay)

/-- How the last name of a path is treated. -/
structure Manner where
  /-- A link in the last place is followed. -/
  followLast : Bool
  /-- The last name may be missing. -/
  mayBeMissing : Bool
  deriving DecidableEq, Repr

/-- Takes the steps of a path from a location; `retry` continues behind a link. -/
def takeSteps (tree : Node) (m : Manner) (retry : Location → List Step → Except OsError Location) :
    Location → List Step → Except OsError Location
  | here, [] => .ok here
  | here, s :: rest =>
    match tree.find? here with
    | none => .error .notFound
    | some node =>
      if !node.isDir then .error .notDirectory
      else
        match s with
        | .stay => takeSteps tree m retry here rest
        | .up => takeSteps tree m retry here.dropLast rest
        | .down name =>
          if 255 < (Text.utf8 name).length then .error .nameTooLong
          else
            match node.child? name with
            | none =>
              if m.mayBeMissing && rest.isEmpty then .ok (here ++ [name])
              else if m.mayBeMissing && onlyStays rest then .error .isDirectory
              else .error .notFound
            | some (.link target) =>
              if rest.isEmpty && !m.followLast then .ok (here ++ [name])
              else if target.isEmpty then .error .notFound
              else
                retry (if Path.startsAtRoot target.toList then [] else here)
                  (stepsOf target ++ rest)
            | some _ => takeSteps tree m retry (here ++ [name]) rest

/-- Takes the steps of a path and follows up to the given number of links. -/
def walkSteps (tree : Node) (m : Manner) : Nat → Location → List Step → Except OsError Location
  | 0 => fun _ _ => .error .tooManyLinks
  | links + 1 => takeSteps tree m (walkSteps tree m links)

/-- The location that a path leads to. -/
def locateWith (d : Disk) (m : Manner) (p : Path) : Except OsError Location :=
  let cs := p.text.toList
  if cs.contains (Char.ofNat 0) then .error .nulInPath
  else if cs.isEmpty then .error .notFound
  else
    walkSteps d.tree m (maxLinks + 1) (if Path.startsAtRoot cs then [] else d.working)
      (stepsOf p.text)

/-- The location of what a path denotes, links followed. -/
def locate (d : Disk) (p : Path) : Except OsError Location := d.locateWith ⟨true, false⟩ p

/-- The location of what a path names, a link in the last place not followed. -/
def locateEntry (d : Disk) (p : Path) : Except OsError Location := d.locateWith ⟨false, false⟩ p

/-- The location where a file of the given path is, or is to be made. -/
def locateTarget (d : Disk) (p : Path) : Except OsError Location := d.locateWith ⟨true, true⟩ p

/-- A location as an absolute path. -/
def pathOf (l : Location) : Path :=
  match l with
  | [] => ⟨"/"⟩
  | names => ⟨String.join (names.map ("/" ++ ·))⟩

/-- The node that a path denotes. -/
def node (d : Disk) (p : Path) : Except OsError Node :=
  match d.locate p with
  | .error e => .error e
  | .ok l =>
    match d.tree.find? l with
    | some n => .ok n
    | none => .error .notFound

/-- The path denotes something. -/
def pathExists (d : Disk) (p : Path) : Bool :=
  match d.locate p with
  | .ok _ => true
  | .error _ => false

/-- The path denotes a directory. -/
def isDirectory (d : Disk) (p : Path) : Bool :=
  match d.node p with
  | .ok n => n.isDir
  | .error _ => false

/-- The absolute path without links that denotes the same as the given one. -/
def canonical (d : Disk) (p : Path) : Except OsError Path :=
  match d.locate p with
  | .ok l => .ok (pathOf l)
  | .error e => .error e

/-! ## Files -/

/-- The bytes of a file. -/
def read (d : Disk) (p : Path) : Except OsError Bytes :=
  match d.node p with
  | .error e => .error e
  | .ok (.file bytes) => .ok bytes
  | .ok _ => .error .isDirectory

/-- The text of a file. -/
def readText (d : Disk) (p : Path) : Except OsError String :=
  match d.read p with
  | .error e => .error e
  | .ok bytes =>
    match Text.decodeStrict? bytes with
    | some s => .ok s
    | none => .error .notText

/-- Makes or changes a file: `f` gives the new bytes from the old ones. -/
def modifyFile (d : Disk) (p : Path) (f : Bytes → Bytes) : Except OsError Disk :=
  match d.locateTarget p with
  | .error e => .error e
  | .ok l =>
    match d.tree.find? l with
    | some (.file bytes) => .ok { d with tree := d.tree.put (.file (f bytes)) l }
    | some _ => .error .isDirectory
    | none => .ok { d with tree := d.tree.put (.file (f [])) l }

/-- Writes a file anew. -/
def write (d : Disk) (p : Path) (bytes : Bytes) : Except OsError Disk :=
  d.modifyFile p fun _ => bytes

/-- Writes at the end of a file, which is made when it is missing. -/
def append (d : Disk) (p : Path) (bytes : Bytes) : Except OsError Disk :=
  d.modifyFile p fun old => old ++ bytes

/-! ## Directories -/

/-- Makes one directory, whose own directory must exist. -/
def makeDirectory (d : Disk) (p : Path) : Except OsError Disk :=
  match d.locateWith ⟨false, true⟩ p with
  | .error e => .error e
  | .ok l =>
    match d.tree.find? l with
    | some _ => .error .exists
    | none => .ok { d with tree := d.tree.put Node.emptyDir l }

/-- Makes a directory given by its components, and those above it as far as they
are missing.  The first argument bounds the number of directories.  A directory that
was made stays when the one below it cannot be made. -/
def makeDirectories (d : Disk) : Nat → List Path.Component → Except OsError Unit × Disk
  | 0, _ => (.ok (), d)
  | fuel + 1, cs =>
    if cs.isEmpty then (.ok (), d)
    else
      let p := Path.ofComponents cs
      let settle (d : Disk) (r : Except OsError Disk) : Except OsError Unit × Disk :=
        match r with
        | .ok d => (.ok (), d)
        | .error e => (if d.isDirectory p then .ok () else .error e, d)
      match d.makeDirectory p with
      | .ok d => (.ok (), d)
      | .error .notFound =>
        match Path.parentComponents cs with
        | none => (.error .notFound, d)
        | some parent =>
          match d.makeDirectories fuel parent with
          | (.error e, d) => (.error e, d)
          | (.ok (), d) => settle d (d.makeDirectory p)
      | .error e => settle d (.error e)

/-- Makes a directory and those above it as far as they are missing, and says whether
it is there now. -/
def tryDirectory (d : Disk) (p : Path) : Except OsError Unit × Disk :=
  let cs := p.components
  if p.text.toList.contains (Char.ofNat 0) then (.error .nulInPath, d)
  else d.makeDirectories (cs.length + 1) cs

/-- The disk with a directory and those above it, as far as they were missing. -/
def ensureDirectory (d : Disk) (p : Path) : Except OsError Disk :=
  match d.tryDirectory p with
  | (.error e, _) => .error e
  | (.ok (), d) => .ok d

end Disk

end LintRelay
