import LintRelay.Path
import LintRelay.Text.Utf8
set_option autoImplicit false

/-!
# Disk: the tree

A disk is a tree of directories, files and symbolic links, together with the
directory that relative paths start from.  A location is the list of names from
the root down to a node; it passes through directories only.
-/

namespace LintRelay.Disk

open LintRelay.Text (Bytes)

/-- What a name in a directory stands for. -/
inductive Node where
  | file (bytes : Bytes)
  | dir (entries : List (String × Node))
  /-- A symbolic link and the path written in it. -/
  | link (target : String)
  deriving Inhabited, Repr

/-- Why an operation on the disk fails. -/
inductive OsError where
  | notFound
  | exists
  | notDirectory
  | isDirectory
  | nameTooLong
  | tooManyLinks
  | addressNotAvailable
  /-- A path holds a null character. -/
  | nulInPath
  /-- A text was expected, and the bytes are not UTF-8. -/
  | notText
  deriving DecidableEq, Repr, Inhabited

/-- The wording of an error of the operating system. -/
def OsError.message : OsError → String
  | .notFound => "No such file or directory (os error 2)"
  | .exists => "File exists (os error 17)"
  | .notDirectory => "Not a directory (os error 20)"
  | .isDirectory => "Is a directory (os error 21)"
  | .nameTooLong => "File name too long (os error 36)"
  | .tooManyLinks => "Too many levels of symbolic links (os error 40)"
  | .addressNotAvailable => "Cannot assign requested address (os error 99)"
  | .nulInPath => "file name contained an unexpected NUL byte"
  | .notText => "stream did not contain valid UTF-8"

/-- The names from the root down to a node. -/
abbrev Location := List String

namespace Node

/-- An empty directory. -/
def emptyDir : Node := .dir []

/-- The node is a directory. -/
def isDir : Node → Bool
  | .dir _ => true
  | _ => false

/-- The node is a regular file. -/
def isFile : Node → Bool
  | .file _ => true
  | _ => false

/-- What a name stands for among the entries of a directory. -/
def lookup (name : String) : List (String × Node) → Option Node
  | [] => none
  | (n, node) :: rest => if n = name then some node else lookup name rest

/-- The entries of a directory; other nodes have none. -/
def entries : Node → List (String × Node)
  | .dir es => es
  | _ => []

/-- What a name stands for in a node. -/
def child? (n : Node) (name : String) : Option Node := lookup name n.entries

/-- The node at a location below a node; links are not followed. -/
def find? (n : Node) : Location → Option Node
  | [] => some n
  | name :: rest =>
    match n.child? name with
    | some c => c.find? rest
    | none => none

/-- Entries with a name given a new node, at the end when the name is new. -/
def assign (name : String) (node : Node) : List (String × Node) → List (String × Node)
  | [] => [(name, node)]
  | (n, old) :: rest => if n = name then (n, node) :: rest else (n, old) :: assign name node rest

/-- Entries without a name. -/
def unassign (name : String) (es : List (String × Node)) : List (String × Node) :=
  es.filter fun e => e.1 != name

/-- The tree with a node put at a location; missing directories are not made. -/
def put (n : Node) (new : Node) : Location → Node
  | [] => new
  | [name] =>
    match n with
    | .dir es => .dir (assign name new es)
    | other => other
  | name :: rest =>
    match n with
    | .dir es =>
      match lookup name es with
      | some c => .dir (assign name (c.put new rest) es)
      | none => n
    | other => other

/-- The tree without the node at a location. -/
def remove (n : Node) : Location → Node
  | [] => n
  | [name] =>
    match n with
    | .dir es => .dir (unassign name es)
    | other => other
  | name :: rest =>
    match n with
    | .dir es =>
      match lookup name es with
      | some c => .dir (assign name (c.remove rest) es)
      | none => n
    | other => other

mutual

/-- Number of nodes of a tree. -/
def count : Node → Nat
  | .file _ => 1
  | .link _ => 1
  | .dir es => 1 + countEntries es

/-- Number of nodes below the entries of a directory. -/
def countEntries : List (String × Node) → Nat
  | [] => 0
  | (_, n) :: rest => n.count + countEntries rest

end

end Node

end LintRelay.Disk
