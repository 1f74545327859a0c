set_option autoImplicit false

/-!
# Paths

A path is a text.  What it denotes is read off its components: the root when
the text starts with a slash, the place where a relative path starts when the
text starts with a `.` segment, names, and steps up to the parent.  Empty
segments, and `.` segments that stand elsewhere, say nothing and are no
components.

The normal form of a path is computed on its components from left to right:
a step up removes the last component, and stands in the result only where there
is nothing to remove.  A leading `.` is dropped.
-/

namespace LintRelay

/-- A path as it is written.  The names on a disk could be any bytes; only paths that are
UTF-8 are modelled, so a path and its text are the same, and nothing is lost where a path
is sent, logged or written to a file. -/
structure Path where
  text : String
  deriving DecidableEq, Repr, Inhabited

namespace Path

/-- One part of a path. -/
inductive Component where
  /-- The leading slash. -/
  | root
  /-- The place where a relative path starts, written `.` in front of it. -/
  | here
  /-- A step up, written `..`. -/
  | up
  /-- A name, which is neither empty nor made of one or two dots. -/
  | name (chars : List Char)
  deriving DecidableEq, Repr, Inhabited

/-! ## Components -/

/-- Splits characters at every slash; the result is never empty. -/
def segments : List Char → List (List Char)
  | [] => [[]]
  | c :: rest =>
    if c = '/' then [] :: segments rest
    else
      match segments rest with
      | [] => [[c]]
      | s :: more => (c :: s) :: more

/-- What one segment contributes. -/
def ofSegment (s : List Char) : Option Component :=
  if s = [] ∨ s = ['.'] then none
  else if s = ['.', '.'] then some .up
  else some (.name s)

/-- The text starts with a slash. -/
def startsAtRoot : List Char → Bool
  | '/' :: _ => true
  | _ => false

/-- What the front of a text contributes besides its segments: the root, or the place
where a relative path starts. -/
def front (cs : List Char) : List Component :=
  if startsAtRoot cs then [.root]
  else if (segments cs).head? = some ['.'] then [.here]
  else []

/-- The components that the segments of a text contribute. -/
def steps (cs : List Char) : List Component := (segments cs).filterMap ofSegment

/-- The components of a text given as characters. -/
def componentsOf (cs : List Char) : List Component := front cs ++ steps cs

/-- The components of a path, from left to right. -/
def components (p : Path) : List Component := componentsOf p.text.toList

/-- The path starts at the root. -/
def isAbsolute (p : Path) : Bool := startsAtRoot p.text.toList

/-- The characters of one component that is not the root. -/
def Component.chars : Component → List Char
  | .root => ['/']
  | .here => ['.']
  | .up => ['.', '.']
  | .name s => s

/-- Components written with single slashes between them. -/
def joinChars : List Component → List Char
  | [] => []
  | [c] => c.chars
  | .root :: rest => '/' :: joinChars rest
  | c :: rest => c.chars ++ '/' :: joinChars rest

/-- The path made of the given components. -/
def ofComponents (cs : List Component) : Path := ⟨String.ofList (joinChars cs)⟩

/-! ## Normal form -/

/-- The components read so far, the last one first, after one more. -/
def advance (read : List Component) : Component → List Component
  | .up =>
    match read with
    | [] => [.up]
    | [.root] => [.up, .root]
    | _ :: before => before
  | .here => read
  | c => c :: read

/-- Components in normal form. -/
def normalComponents (cs : List Component) : List Component :=
  (cs.foldl advance []).reverse

/-- The path without `.` and with every `..` carried out lexically. -/
def normalize (p : Path) : Path := ofComponents (normalComponents p.components)

/-! ## Parts of a path -/

/-- The directory of components; the root and the empty path have none. -/
def parentComponents : List Component → Option (List Component)
  | [] => none
  | [.root] => none
  | cs => some cs.dropLast

/-- The directory that holds what the path denotes. -/
def parent? (p : Path) : Option Path := (parentComponents p.components).map ofComponents

/-- The name that the path ends in, if it ends in a name. -/
def fileNameChars (p : Path) : Option (List Char) :=
  match p.components.getLast? with
  | some (.name s) => some s
  | _ => none

/-- What follows the last dot of a name; a dot in front of a name is part of it. -/
def extensionOf (name : List Char) : Option (List Char) :=
  let after := (name.reverse.takeWhile (· ≠ '.')).reverse
  if after.length + 1 < name.length then some after else none

/-- The extension of the file that the path names. -/
def extension? (p : Path) : Option (List Char) := p.fileNameChars.bind extensionOf

/-! ## Joining -/

/-- A path written below another one; an absolute path replaces the base. -/
def join (base : Path) (p : Path) : Path :=
  if p.isAbsolute then p
  else if base.text.isEmpty then p
  else if base.text.toList.getLast? = some '/' then ⟨base.text ++ p.text⟩
  else ⟨base.text ++ "/" ++ p.text⟩

/-- What is left of a list of components below another one. -/
def stripComponents : List Component → List Component → Option (List Component)
  | [], cs => some cs
  | _ :: _, [] => none
  | d :: ds, c :: cs => if d = c then stripComponents ds cs else none

/-- The part of a path below a directory. -/
def below? (dir p : Path) : Option Path :=
  (stripComponents dir.components p.components).map ofComponents

/-! ## References between projects -/

/-- File name of a project configuration when a reference names a directory. -/
def defaultConfigName : String := "tsconfig.json"

/-- The extension is `json` in any mixture of cases. -/
def isJsonExtension (e : List Char) : Bool := e.map Char.toLower = "json".toList

/-- The configuration file that a reference written in the directory `base` names. -/
def resolveReference (base : Path) (reference : String) : Path :=
  let joined := base.join ⟨reference⟩
  if (joined.extension?.map isJsonExtension).getD false then joined.normalize
  else (joined.join ⟨defaultConfigName⟩).normalize

end Path

end LintRelay
