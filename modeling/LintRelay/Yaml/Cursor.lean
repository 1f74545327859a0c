set_option autoImplicit false

/-!
# YAML: the cursor

A place in a text: the characters from there on, and how many characters, lines
and columns lie before it.
-/

namespace LintRelay.Yaml

/-- The character ends a line. -/
def isBreak (c : Char) : Bool :=
  c = '\n' || c = '\r' || c = '\u0085' || c = '\u2028' || c = '\u2029'

/-- The character separates words on a line. -/
def isGap (c : Char) : Bool := c = ' ' || c = '\t'

/-- A separator, the end of the line or the end of the text is next. -/
def atGap : List Char → Bool
  | [] => true
  | c :: _ => isGap c || isBreak c

/-- The end of the line or of the text is next. -/
def atLineEnd : List Char → Bool
  | [] => true
  | c :: _ => isBreak c

/-- The character may stand in a text. -/
def isAllowed (c : Char) : Bool :=
  let n := c.toNat
  n = 0x09 || n = 0x0a || n = 0x0d || n = 0x85 || (0x20 ≤ n && n ≤ 0x7e) ||
    (0xa0 ≤ n && n ≤ 0xd7ff) || (0xe000 ≤ n && n ≤ 0xfffd) || 0x10000 ≤ n

/-- A letter, a digit, a dash or an underscore. -/
def isWordChar (c : Char) : Bool := c.isAlphanum || c = '-' || c = '_'

/-- A place in a text. -/
structure Cursor where
  rest : List Char
  index : Nat
  line : Nat
  column : Nat
  deriving DecidableEq, Repr, Inhabited

namespace Cursor

/-- The beginning of a text. -/
def start (text : List Char) : Cursor := ⟨text, 0, 0, 0⟩

/-- The place behind the given number of characters of one line. -/
def skip (n : Nat) (c : Cursor) : Cursor :=
  ⟨c.rest.drop n, c.index + n, c.line, c.column + n⟩

/-- The place behind the next character. -/
def next (c : Cursor) : Cursor := c.skip 1

/-- The place behind the characters of the line for which the test holds. -/
def skipWhile (p : Char → Bool) (c : Cursor) : Cursor := c.skip (c.rest.takeWhile p).length

/-- A line break and the place behind it.  All breaks read as a line feed, apart
from the line and the paragraph separator. -/
def takeBreak (c : Cursor) : List Char × Cursor :=
  match c.rest with
  | '\r' :: '\n' :: rest => (['\n'], ⟨rest, c.index + 2, c.line + 1, 0⟩)
  | b :: rest =>
    if isBreak b then
      ([if b = '\u2028' || b = '\u2029' then b else '\n'], ⟨rest, c.index + 1, c.line + 1, 0⟩)
    else ([], c)
  | [] => ([], c)

/-- Three equal marks at the beginning of a line, with a separator behind them. -/
def atMarker (mark : Char) (c : Cursor) : Bool :=
  c.column = 0 &&
    match c.rest with
    | x :: y :: z :: rest => x = mark && y = mark && z = mark && atGap rest
    | _ => false

/-- A document begins or ends here. -/
def atDocumentMarker (c : Cursor) : Bool := c.atMarker '-' || c.atMarker '.'

end Cursor

end LintRelay.Yaml
