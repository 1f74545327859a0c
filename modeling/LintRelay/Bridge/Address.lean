import LintRelay.Text.Basic
import LintRelay.Text.Utf8
set_option autoImplicit false

/-!
# Addresses

An address names the place where a bridge listens and what is asked of it.  Dot
segments of the path are resolved, characters that an address cannot hold are
written with percent signs, and what follows a hash is dropped.
-/

namespace LintRelay.Bridge

open LintRelay.Text (Bytes)

/-- An address. -/
structure Address where
  /-- The scheme, the host and the port. -/
  origin : String
  /-- The path and the query. -/
  target : String
  deriving DecidableEq, Repr, Inhabited

namespace Address

/-! ## Characters -/

/-- A digit of a byte that is written with a percent sign. -/
def hexChar (n : Nat) : Char :=
  if n < 10 then Char.ofNat (48 + n) else Char.ofNat (55 + n)

/-- A byte written with a percent sign. -/
def percentByte (b : UInt8) : List Char := ['%', hexChar (b.toNat / 16), hexChar (b.toNat % 16)]

/-- Writes the characters for which the test holds with percent signs, and with
them every character outside of ASCII and every control character. -/
def encode (special : Char → Bool) (cs : List Char) : List Char :=
  cs.flatMap fun c =>
    if c.toNat < 0x20 || 0x7e < c.toNat || special c then
      (String.utf8EncodeChar c).flatMap percentByte
    else [c]

/-- Characters that a path cannot hold. -/
def isPathSpecial (c : Char) : Bool := " \"#<>?`\x7b\x7d".toList.contains c

/-- Characters that a query cannot hold. -/
def isQuerySpecial (c : Char) : Bool := " \"#<>'".toList.contains c

/-- The characters that divide a path. -/
def isSlash (c : Char) : Bool := c = '/' || c = '\\'

/-! ## Paths -/

/-- Splits at slashes. -/
def splitSlashes (segment : List Char) : List Char → List (List Char)
  | [] => [segment.reverse]
  | c :: cs =>
    if isSlash c then segment.reverse :: splitSlashes [] cs else splitSlashes (c :: segment) cs

/-- A segment with its escaped dots written out. -/
def plainDots : List Char → List Char
  | '%' :: '2' :: 'e' :: cs => '.' :: plainDots cs
  | '%' :: '2' :: 'E' :: cs => '.' :: plainDots cs
  | c :: cs => c :: plainDots cs
  | [] => []

/-- Resolves dot segments.  `kept` holds the segments so far, the last one first;
a dot segment at the end leaves an empty one. -/
def resolveDots (kept : List (List Char)) : List (List Char) → List (List Char)
  | [] => kept.reverse
  | s :: rest =>
    let ending : List (List Char) := if rest.isEmpty then [[]] else []
    if plainDots s = ['.', '.'] then resolveDots (ending ++ kept.drop 1) rest
    else if plainDots s = ['.'] then resolveDots (ending ++ kept) rest
    else resolveDots (s :: kept) rest

/-- The path of an address as it is asked for. -/
def pathChars (cs : List Char) : List Char :=
  ((resolveDots [] (splitSlashes [] (cs.drop 1))).map fun s => '/' :: encode isPathSpecial s).flatten

/-! ## Authorities -/

/-- The value of a port, which must be at most 65535. -/
def port? (cs : List Char) : Option Nat := (Text.digitsFrom? 10 0 cs).filter (· ≤ 65535)

/-- The host and the port of an authority. -/
def splitPort (cs : List Char) : List Char × Option (List Char) :=
  let tail := cs.reverse.takeWhile fun c => c ≠ ':' && c ≠ ']'
  match cs.reverse.drop tail.length with
  | ':' :: host => (host.reverse, some tail.reverse)
  | _ => (cs, none)

/-- Characters that no host holds. -/
def isHostForbidden (c : Char) : Bool := c.toNat ≤ 0x20 || "<>^|%#?@\\".toList.contains c

/-- A name or a number may be a host; colons need brackets around them. -/
def isHost (cs : List Char) : Bool :=
  !cs.isEmpty && !cs.any isHostForbidden && (cs.head? = some '[' || !cs.contains ':')

/-- The origin of a scheme and an authority. -/
def origin? (scheme : String) (usual : Nat) (authority : List Char) : Option String :=
  let place := (authority.reverse.takeWhile (· ≠ '@')).reverse
  let (host, port) := splitPort place
  if !isHost host then none
  else
    let start := scheme ++ "://" ++ String.ofList (host.map Char.toLower)
    match port with
    | none => some start
    | some [] => some start
    | some digits =>
      match port? digits with
      | none => none
      | some n => some (if n = usual then start else start ++ ":" ++ toString n)

/-! ## Whole addresses -/

/-- The characters that are dropped wherever they stand. -/
def isDropped (c : Char) : Bool := c = '\t' || c = '\n' || c = '\r'

/-- A text without control characters and blanks at its ends, and without tabs and
line breaks. -/
def clean (cs : List Char) : List Char :=
  let drop (cs : List Char) : List Char := cs.dropWhile fun c => c.toNat ≤ 0x20
  (drop (drop cs).reverse).reverse.filter fun c => !isDropped c

/-- The scheme of an address, its usual port, and what follows the colon. -/
def scheme? (cs : List Char) : Option (String × Nat × List Char) :=
  let name := (cs.takeWhile (· ≠ ':')).map Char.toLower
  match cs.drop name.length with
  | ':' :: rest =>
    if name = "http".toList then some ("http", 80, rest)
    else if name = "https".toList then some ("https", 443, rest)
    else none
  | _ => none

/-- The target of what follows the authority. -/
def targetChars (cs : List Char) : List Char :=
  let cs := cs.takeWhile (· ≠ '#')
  let path := cs.takeWhile (· ≠ '?')
  let query := cs.drop path.length
  pathChars path ++
    match query with
    | [] => []
    | _ :: query => '?' :: encode isQuerySpecial query

/-- Reads an address. -/
def parse? (text : String) : Option Address :=
  match scheme? (clean text.toList) with
  | none => none
  | some (scheme, usual, rest) =>
    let rest := rest.dropWhile isSlash
    let authority := rest.takeWhile fun c => !isSlash c && c ≠ '?' && c ≠ '#'
    match origin? scheme usual authority with
    | none => none
    | some origin => some ⟨origin, String.ofList (targetChars (rest.drop authority.length))⟩

end Address

end LintRelay.Bridge
