import LintRelay.Glob.Matcher
set_option autoImplicit false

/-!
# Project patterns

The patterns of a configuration are globs with two conveniences: a leading `./`
and a trailing slash say nothing, and a pattern without wildcards whose last
segment has no dot names a directory, and so covers all below it.
-/

namespace LintRelay.Pattern

/-- The characters without any `./` in front. -/
def dropHere : List Char → List Char
  | '.' :: '/' :: rest => dropHere rest
  | cs => cs

/-- The characters without any slash at the end. -/
def dropTrailing (cs : List Char) : List Char := (cs.reverse.dropWhile (· = '/')).reverse

/-- The core of a pattern. -/
def core (cs : List Char) : List Char :=
  let q := dropTrailing (dropHere cs)
  if q = ['.'] then [] else q

/-- The characters that make a pattern a wildcard pattern. -/
def isWildcard (c : Char) : Bool := c = '*' || c = '?' || c = '[' || c = '\x7b'

/-- The characters behind the last slash. -/
def lastSegment (cs : List Char) : List Char := (cs.reverse.takeWhile (· ≠ '/')).reverse

/-- The glob that covers everything. -/
def everything : List Char := "**/*".toList

/-- The globs that a pattern stands for. -/
def expandChars (pattern : List Char) : List (List Char) :=
  let q := core pattern
  if q.any isWildcard || (lastSegment q).contains '.' then [q]
  else if q.isEmpty then [everything]
  else [q, q ++ '/' :: everything]

/-- The globs that a pattern stands for. -/
def expand (pattern : String) : List String := (expandChars pattern.toList).map String.ofList

/-- A pattern that cannot be used: the glob it stands for, and what is wrong with it. -/
structure Invalid where
  pattern : String
  glob : String
  fault : Glob.Fault
  deriving DecidableEq, Repr

/-- Reads globs one after the other; the first fault decides. -/
def compileGlobs (pattern : String) : List String → Except Invalid (List (List Glob.Token))
  | [] => .ok []
  | g :: rest =>
    match Glob.parse g with
    | .error f => .error ⟨pattern, g, f⟩
    | .ok tokens =>
      match compileGlobs pattern rest with
      | .error e => .error e
      | .ok more => .ok (tokens :: more)

/-- The globs of a list of patterns; the first fault decides. -/
def compile : List String → Except Invalid (List (List Glob.Token))
  | [] => .ok []
  | p :: rest =>
    match compileGlobs p (expand p) with
    | .error e => .error e
    | .ok globs =>
      match compile rest with
      | .error e => .error e
      | .ok more => .ok (globs ++ more)

end LintRelay.Pattern
