import LintRelay.Disk.Resolve
set_option autoImplicit false

/-!
# Disk: walks

A walk lists a directory and all below it, depth first, the entries of a
directory in increasing order of their names.  A rule says which entries are left
out; a directory that is left out is not entered.  A walk that follows links
reports a link to a missing target, and a link to a directory that it is inside of.
-/

namespace LintRelay.Disk

/-- What kind of entry a walk has come to. -/
inductive EntryKind where
  | file
  | dir
  | link
  deriving DecidableEq, Repr, Inhabited

/-- An entry of a walk. -/
structure Entry where
  path : Path
  name : String
  depth : Nat
  kind : EntryKind
  deriving DecidableEq, Repr, Inhabited

/-- Why a walk cannot go on at a place. -/
inductive WalkFault where
  | os (path : Path) (error : OsError)
  | loop (path ancestor : Path)
  deriving DecidableEq, Repr, Inhabited

/-- The wording of a fault. -/
def WalkFault.message : WalkFault → String
  | .os path error => "IO error for operation on " ++ path.text ++ ": " ++ error.message
  | .loop path ancestor =>
    "File system loop found: " ++ path.text ++ " points to an ancestor " ++ ancestor.text

/-- What a walk comes to, in order. -/
abbrev Found := List (Except WalkFault Entry)

/-- How a walk is done. -/
structure WalkRule where
  followLinks : Bool
  /-- The entry is listed, and entered if it is a directory. -/
  keep : Entry → Bool

/-- The kind of a node. -/
def kindOf : Node → EntryKind
  | .file _ => .file
  | .dir _ => .dir
  | .link _ => .link

/-- The name that a path is known by. -/
def nameOf (p : Path) : String :=
  match p.fileNameChars with
  | some s => String.ofList s
  | none => p.text

/-- Entries in increasing order of their names. -/
def sortEntries (es : List (String × Node)) : List (String × Node) :=
  es.mergeSort fun a b => !(b.1 < a.1)

/-- A directory that the walk is inside of. -/
structure Ancestor where
  location : Location
  path : Path
  deriving DecidableEq, Repr

/-- The path of an entry of a directory. -/
def entryPath (dir : Path) (name : String) : Path := dir.join ⟨name⟩

/-- Walks below the entries of the directory at a location.  The first argument
bounds the depth. -/
def walkBelow (d : Disk) (rule : WalkRule) :
    Nat → List Ancestor → Location → Path → Nat → Found
  | 0, _, _, _, _ => []
  | fuel + 1, ancestors, here, path, depth =>
    let enter (entry : Entry) (l : Location) : Found :=
      if rule.keep entry then
        .ok entry ::
          (if entry.kind = .dir then
            walkBelow d rule fuel (⟨l, entry.path⟩ :: ancestors) l entry.path (depth + 1)
           else [])
      else []
    (sortEntries (((d.tree.find? here).map Node.entries).getD [])).flatMap fun e =>
      let p := entryPath path e.1
      match e.2 with
      | .link _ =>
        if rule.followLinks then
          match d.locate p with
          | .error error => [.error (.os p error)]
          | .ok l =>
            let kind := ((d.tree.find? l).map kindOf).getD .file
            if kind = .dir then
              match ancestors.find? (fun a => a.location = l) with
              | some a => [.error (.loop p a.path)]
              | none => enter ⟨p, e.1, depth + 1, kind⟩ l
            else enter ⟨p, e.1, depth + 1, kind⟩ l
        else enter ⟨p, e.1, depth + 1, .link⟩ (here ++ [e.1])
      | node => enter ⟨p, e.1, depth + 1, kindOf node⟩ (here ++ [e.1])

/-- Walks a path and all below it. -/
def walk (d : Disk) (rule : WalkRule) (root : Path) : Found :=
  match d.locateEntry root with
  | .error error => [.error (.os root error)]
  | .ok entryLocation =>
    let own := ((d.tree.find? entryLocation).map kindOf).getD .file
    let target : Except OsError Location :=
      if own = .link then d.locate root else .ok entryLocation
    match target with
    | .error error => [.error (.os root error)]
    | .ok l =>
      let behind := ((d.tree.find? l).map kindOf).getD .file
      let entry : Entry := ⟨root, nameOf root, 0, if rule.followLinks then behind else own⟩
      if rule.keep entry then
        .ok entry ::
          (if behind = .dir then
            walkBelow d rule (d.tree.count + 1) [⟨l, root⟩] l root 0
           else [])
      else if own = .link && behind = .dir && !rule.followLinks then
        walkBelow d rule (d.tree.count + 1) [⟨l, root⟩] l root 0
      else []

end LintRelay.Disk
