import LintRelay.Glob.Reader
import LintRelay.Text.Utf8
set_option autoImplicit false

/-!
# Globs: matching

A glob is matched against the bytes of a whole text.  A token takes a stretch
from the front of the bytes; what it can leave is a finite set of rests, since
each rest is a suffix.  A list of tokens is matched by carrying the set of rests
from token to token, and it matches the bytes when the empty rest is reached.
-/

namespace LintRelay.Glob

open LintRelay.Text (Bytes)

/-- The byte of the slash. -/
def slash : UInt8 := 0x2F

/-- Whether stars and question marks stay inside a segment. -/
inductive Scope where
  /-- They take no slash. -/
  | segment
  /-- They take any byte. -/
  | whole
  deriving DecidableEq, Repr

/-- The bytes that `?` stands for. -/
def Scope.admits : Scope → UInt8 → Bool
  | .segment, b => b != slash
  | .whole, _ => true

/-- All suffixes, the longest first. -/
def suffixes : Bytes → List Bytes
  | [] => [[]]
  | b :: rest => (b :: rest) :: suffixes rest

/-- The suffixes that are left after taking any number of admitted bytes. -/
def afterRun (admits : UInt8 → Bool) : Bytes → List Bytes
  | [] => [[]]
  | b :: rest => (b :: rest) :: (if admits b then afterRun admits rest else [])

/-- The suffixes right behind a slash, wherever it stands. -/
def afterSlashes : Bytes → List Bytes
  | [] => []
  | b :: rest => (if b == slash then [rest] else []) ++ afterSlashes rest

/-- What is left behind a given stretch. -/
def afterPrefix : Bytes → Bytes → List Bytes
  | [], bytes => [bytes]
  | _ :: _, [] => []
  | p :: ps, b :: bytes => if p == b then afterPrefix ps bytes else []

/-- What is left behind one byte of a class. -/
def afterByte (admits : UInt8 → Bool) : Bytes → List Bytes
  | [] => []
  | b :: rest => if admits b then [rest] else []

/-! ## Classes -/

/-- The bytes between two characters as a class sees them: from the last byte of
the first character to the first byte of the last one, and their other bytes. -/
def inRange (low high : Char) (b : UInt8) : Bool :=
  let lows := String.utf8EncodeChar low
  let highs := String.utf8EncodeChar high
  if low == high then lows.contains b
  else
    lows.contains b || highs.contains b ||
      ((lows.getLast?.any (· ≤ b)) && (highs.head?.any (b ≤ ·)))

/-- The byte belongs to one of the ranges. -/
def inClass (ranges : List (Char × Char)) (b : UInt8) : Bool :=
  ranges.any fun r => inRange r.1 r.2 b

/-! ## Tokens -/

mutual

/-- A token that can stand for nothing but the empty stretch because it was
written so: a group of branches without content. -/
def Token.isVoid : Token → Bool
  | .choice branches => allVoid branches
  | _ => false

/-- Every token of a branch is void. -/
def isVoidBranch : List Token → Bool
  | [] => true
  | t :: rest => t.isVoid && isVoidBranch rest

/-- Every branch of a group is void. -/
def allVoid : List (List Token) → Bool
  | [] => true
  | b :: rest => isVoidBranch b && allVoid rest

end

mutual

/-- The rests that a token can leave. -/
def Token.rests (scope : Scope) : Token → Bytes → List Bytes
  | .literal c, bytes => afterPrefix (String.utf8EncodeChar c) bytes
  | .any, bytes => afterByte scope.admits bytes
  | .zeroOrMore, bytes => afterRun scope.admits bytes
  | .leadingSegments, bytes => bytes :: afterSlashes bytes
  | .trailingSegments, bytes =>
    match bytes with
    | b :: rest => if b == slash then suffixes rest else []
    | [] => []
  | .innerSegments, bytes =>
    match bytes with
    | b :: rest => if b == slash then rest :: afterSlashes rest else []
    | [] => []
  | .charClass negated ranges, bytes => afterByte (fun b => inClass ranges b != negated) bytes
  | .choice branches, bytes =>
    if allVoid branches then [bytes] else (branchRests scope branches bytes).eraseDups

/-- The rests that a list of tokens can leave. -/
def restsOf (scope : Scope) : List Token → List Bytes → List Bytes
  | [], rests => rests
  | t :: more, rests => restsOf scope more ((rests.flatMap fun r => t.rests scope r).eraseDups)

/-- The rests that the branches of a group can leave; void branches are dropped. -/
def branchRests (scope : Scope) : List (List Token) → Bytes → List Bytes
  | [], _ => []
  | b :: more, bytes =>
    (if isVoidBranch b then [] else restsOf scope b [bytes]) ++ branchRests scope more bytes

end

/-- Two stars as the whole glob stand for every text. -/
def isEverything : List Token → Bool
  | [.leadingSegments] => true
  | _ => false

/-- The tokens stand for the whole of the bytes. -/
def isMatch (scope : Scope) (tokens : List Token) (bytes : Bytes) : Bool :=
  isEverything tokens || (restsOf scope tokens [bytes]).contains []

/-- The glob stands for the whole of a text. -/
def matchesText (scope : Scope) (tokens : List Token) (s : String) : Bool :=
  isMatch scope tokens (Text.utf8 s)

end LintRelay.Glob
