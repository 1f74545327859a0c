import LintRelay.Glob.Token
set_option autoImplicit false

/-!
# Globs: reading

A glob is read from left to right, one character at a time.  A star is decided
only by what follows it, so the reader remembers stars it has passed and settles
them with the next character, or with the end of the text.  The first fault in
text order ends the reading.
-/

namespace LintRelay.Glob

/-- Tokens read so far, the last one first. -/
abbrev Read := List Token

/-- A group that is open: the finished branches before the current one, the last
one first, and what was read outside before the group. -/
structure Group where
  finished : List Read
  outside : Read
  deriving Repr, Inhabited

/-- What the next character belongs to. -/
inductive Mode where
  /-- The glob itself. -/
  | plain
  /-- One star has been passed; `before` is the character in front of it. -/
  | star (before : Option Char)
  /-- Two stars have been passed; `before` is the character in front of them. -/
  | stars (before : Option Char)
  /-- A backslash has been passed. -/
  | escape
  /-- A `[` has been passed. -/
  | classStart
  /-- Inside a class: nothing read yet or not, a range is open or not, and the
  ranges read so far, the last one first. -/
  | classBody (negated first inRange : Bool) (ranges : List (Char × Char))
  deriving Repr, Inhabited

/-- The reader between two characters. -/
structure Reader where
  mode : Mode
  previous : Option Char
  /-- Tokens of the current branch. -/
  current : Read
  /-- Groups around the current branch, the innermost first. -/
  groups : List Group
  deriving Repr, Inhabited

namespace Reader

/-- The reader in front of a glob. -/
def start : Reader := ⟨.plain, none, [], []⟩

/-- One more token in the current branch. -/
def push (r : Reader) (t : Token) : Reader := { r with current := t :: r.current }

/-- Two stars that stand for no whole segment are two single stars. -/
def pushStars (r : Reader) : Reader := (r.push .zeroOrMore).push .zeroOrMore

/-- Inside at least one group. -/
def inGroup (r : Reader) : Bool := !r.groups.isEmpty

/-- Replaces the last token, a slash as a rule, by one that covers segments. -/
def coverSegments (r : Reader) (t : Token) : Reader :=
  match r.current with
  | .leadingSegments :: _ => r
  | .trailingSegments :: _ => r
  | _ :: rest => { r with current := t :: rest }
  | [] => r

/-- The character in front of two stars makes them a whole segment. -/
def opensSegment (r : Reader) (before : Option Char) : Bool :=
  before = some '/' || (r.inGroup && (before = some ',' || before = some '\x7b'))

/-- Settles two stars by the character after them (`none` at the end), and says
whether that character, a slash, has been used up. -/
def settleStars (r : Reader) (before next : Option Char) : Reader × Bool :=
  if r.current.isEmpty then
    if next = none then (r.push .leadingSegments, false)
    else if next = some '/' then (r.push .leadingSegments, true)
    else (r.pushStars, false)
  else if !r.opensSegment before then (r.pushStars, false)
  else if next = none then (r.coverSegments .trailingSegments, false)
  else if (next = some ',' || next = some '\x7d') && r.inGroup then
    (r.coverSegments .trailingSegments, false)
  else if next = some '/' then (r.coverSegments .innerSegments, true)
  else (r.pushStars, false)

/-- Closes the innermost group. -/
def closeGroup (r : Reader) : Except Fault Reader :=
  match r.groups with
  | [] => .error .unopenedGroup
  | g :: outer =>
    let branches := (r.current :: g.finished).reverse.map List.reverse
    .ok { r with current := .choice branches :: g.outside, groups := outer }

/-- A comma starts a new branch of a group, and is itself outside of groups. -/
def comma (r : Reader) : Reader :=
  match r.groups with
  | [] => r.push (.literal ',')
  | g :: outer =>
    { r with current := [], groups := { g with finished := r.current :: g.finished } :: outer }

/-- A character of the glob itself. -/
def plainChar (r : Reader) (c : Char) : Except Fault Reader :=
  let r := { r with mode := .plain }
  if c = '?' then .ok (r.push .any)
  else if c = '*' then .ok { r with mode := .star r.previous }
  else if c = '[' then .ok { r with mode := .classStart }
  else if c = '\x7b' then
    .ok { r with current := [], groups := ⟨[], r.current⟩ :: r.groups }
  else if c = '\x7d' then r.closeGroup
  else if c = ',' then .ok r.comma
  else if c = '\\' then .ok { r with mode := .escape }
  else .ok (r.push (.literal c))

/-- Extends the range read last up to the given character. -/
def extendRange (ranges : List (Char × Char)) (c : Char) : Except Fault (List (Char × Char)) :=
  match ranges with
  | [] => .ok [(c, c)]
  | (low, _) :: rest => if c < low then .error (.invalidRange low c) else .ok ((low, c) :: rest)

/-- A character of a class. -/
def classChar (r : Reader) (negated first inRange : Bool) (ranges : List (Char × Char))
    (c : Char) : Except Fault Reader :=
  if c = ']' && !first then
    let all := if inRange then ('-', '-') :: ranges else ranges
    .ok ({ r with mode := .plain }.push (.charClass negated all.reverse))
  else if c = '-' && !first && !inRange then
    .ok { r with mode := .classBody negated false true ranges }
  else if inRange then
    match extendRange ranges c with
    | .ok ranges => .ok { r with mode := .classBody negated false false ranges }
    | .error f => .error f
  else .ok { r with mode := .classBody negated false false ((c, c) :: ranges) }

/-- The reader after one more character, whatever it belongs to. -/
def consume (r : Reader) (c : Char) : Except Fault Reader :=
  match r.mode with
  | .plain => r.plainChar c
  | .star before =>
    if c = '*' then .ok { r with mode := .stars before }
    else (r.push .zeroOrMore).plainChar c
  | .stars before =>
    match r.settleStars before (some c) with
    | (r, true) => .ok { r with mode := .plain }
    | (r, false) => r.plainChar c
  | .escape => .ok ({ r with mode := .plain }.push (.literal c))
  | .classStart =>
    if c = '!' || c = '^' then .ok { r with mode := .classBody true true false [] }
    else r.classChar false true false [] c
  | .classBody negated first inRange ranges => r.classChar negated first inRange ranges c

/-- One step of the reading. -/
def step (r : Reader) (c : Char) : Except Fault Reader :=
  match r.consume c with
  | .ok r => .ok { r with previous := some c }
  | .error f => .error f

/-- Settles what the end of the text decides. -/
def settle (r : Reader) : Except Fault Reader :=
  match r.mode with
  | .plain => .ok r
  | .star _ => .ok (r.push .zeroOrMore)
  | .stars before => .ok (r.settleStars before none).1
  | .escape => .error .danglingEscape
  | .classStart => .error .unclosedClass
  | .classBody _ _ _ _ => .error .unclosedClass

/-- The tokens, once the text has ended. -/
def finish (r : Reader) : Except Fault (List Token) :=
  match r.settle with
  | .error f => .error f
  | .ok r => if r.inGroup then .error .unclosedGroup else .ok r.current.reverse

/-- Reads characters one after the other. -/
def readAll (r : Reader) : List Char → Except Fault Reader
  | [] => .ok r
  | c :: rest =>
    match r.step c with
    | .ok r => r.readAll rest
    | .error f => .error f

end Reader

/-- The tokens of a glob given as characters. -/
def parseChars (cs : List Char) : Except Fault (List Token) :=
  match Reader.start.readAll cs with
  | .ok r => r.finish
  | .error f => .error f

/-- The tokens of a glob. -/
def parse (glob : String) : Except Fault (List Token) := parseChars glob.toList

end LintRelay.Glob
