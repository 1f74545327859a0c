import LintRelay.Disk.Resolve
set_option autoImplicit false

/-!
# Changes of a disk

What has to be done to one tree so that it becomes another one.  A node that is
there in both trees is compared; one that is new is made; one that is missing is
taken away.
-/

namespace LintRelay.Disk

open LintRelay.Text (Bytes)

/-- One change of a tree. -/
inductive Change where
  | directory (place : Location)
  | file (place : Location) (bytes : Bytes)
  | gone (place : Location)
  deriving DecidableEq, Repr, Inhabited

mutual

/-- The changes that make a node at a place. -/
def additions (place : Location) : Node → List Change
  | .file bytes => [.file place bytes]
  | .link _ => []
  | .dir entries => .directory place :: additionsIn place entries

/-- The changes that make the entries of a directory. -/
def additionsIn (place : Location) : List (String × Node) → List Change
  | [] => []
  | (name, n) :: rest => additions (place ++ [name]) n ++ additionsIn place rest

end

mutual

/-- The changes from an old node at a place to a new one. -/
def changes (place : Location) (old : Node) : Node → List Change
  | .file bytes =>
    match old with
    | .file before => if before = bytes then [] else [.file place bytes]
    | _ => [.gone place, .file place bytes]
  | .link _ => []
  | .dir entries =>
    match old with
    | .dir before =>
      changesIn place before entries ++
        (before.filter fun e => (Node.lookup e.1 entries).isNone).map fun e =>
          .gone (place ++ [e.1])
    | _ => .gone place :: additions place (.dir entries)

/-- The changes from old entries of a directory to new ones. -/
def changesIn (place : Location) (before : List (String × Node)) :
    List (String × Node) → List Change
  | [] => []
  | (name, n) :: rest =>
    (match Node.lookup name before with
     | some old => changes (place ++ [name]) old n
     | none => additions (place ++ [name]) n) ++ changesIn place before rest

end

/-- The changes from one disk to another. -/
def changesTo (after before : Disk) : List Change := changes [] before.tree after.tree

end LintRelay.Disk
