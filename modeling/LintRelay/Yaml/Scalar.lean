import LintRelay.Text.Basic
import LintRelay.Yaml.Cursor
set_option autoImplicit false

/-!
# YAML: scalars

Plain, quoted and block scalars.  Words of a plain or quoted scalar that stand on
several lines are joined by a fold: a single break reads as a blank, and of more
breaks the first one is dropped.  A reader returns the text and the place behind
it, or nothing when the text is ill-formed.
-/

namespace LintRelay.Yaml

/-- How a scalar is written. -/
inductive Style where
  | plain
  | quoted
  | literal
  | folded
  deriving DecidableEq, Repr, Inhabited

/-! ## Folds -/

/-- What stands between two words of a scalar. -/
structure Fold where
  /-- Separators on the line of the word before. -/
  gaps : List Char
  /-- A line ended. -/
  broken : Bool
  firstBreak : List Char
  laterBreaks : List Char
  deriving DecidableEq, Repr, Inhabited

namespace Fold

/-- Nothing stands between the words. -/
def empty : Fold := ⟨[], false, [], []⟩

/-- The words are divided by a break that is not part of the text. -/
def escapedBreak : Fold := ⟨[], true, [], []⟩

/-- One more separator; behind a break it is indentation. -/
def addGap (f : Fold) (c : Char) : Fold :=
  if f.broken then f else { f with gaps := f.gaps ++ [c] }

/-- One more break. -/
def addBreak (f : Fold) (b : List Char) : Fold :=
  if f.broken then { f with laterBreaks := f.laterBreaks ++ b }
  else { f with gaps := [], broken := true, firstBreak := b }

/-- The text that the fold stands for. -/
def text (f : Fold) : List Char :=
  if f.broken then
    match f.firstBreak with
    | '\n' :: _ => if f.laterBreaks.isEmpty then [' '] else f.laterBreaks
    | other => other ++ f.laterBreaks
  else f.gaps

end Fold

/-- Reads separators and breaks.  A tab in the indentation is refused when it
stands left of the given column. -/
def readFold (indent : Int) : Nat → Fold → Cursor → Option (Fold × Cursor)
  | 0, f, c => some (f, c)
  | fuel + 1, f, c =>
    match c.rest with
    | [] => some (f, c)
    | x :: _ =>
      if isGap x then
        if f.broken && x = '\t' && (c.column : Int) < indent then none
        else readFold indent fuel (f.addGap x) c.next
      else if isBreak x then
        match c.takeBreak with
        | (b, after) => readFold indent fuel (f.addBreak b) after
      else some (f, c)

/-! ## Plain scalars -/

/-- A flow collection is delimited by the character. -/
def isFlowMark (c : Char) : Bool :=
  c = ',' || c = '[' || c = ']' || c = '\x7b' || c = '\x7d'

/-- The next mark of a flow collection, or a question mark. -/
def atFlowMark : List Char → Bool
  | [] => false
  | c :: _ => isFlowMark c || c = '?'

/-- A word of a plain scalar and its length. -/
def plainWord (inFlow : Bool) : List Char → Option (List Char)
  | [] => some []
  | x :: rest =>
    if isGap x || isBreak x then some []
    else if inFlow && x = ':' && atFlowMark rest then none
    else if (x = ':' && atGap rest) || (inFlow && isFlowMark x) then some []
    else
      match plainWord inFlow rest with
      | some word => some (x :: word)
      | none => none

/-- A scalar that was read: its text, the place behind it, and whether a line
ended after its last word. -/
structure PlainScalar where
  text : List Char
  after : Cursor
  lineEnded : Bool
  deriving DecidableEq, Repr, Inhabited

/-- Reads the words of a plain scalar; `fold` stands before the next word. -/
def plainWords (inFlow : Bool) (indent : Int) :
    Nat → List Char → Fold → Cursor → Option PlainScalar
  | 0, text, fold, c => some ⟨text, c, fold.broken⟩
  | fuel + 1, text, fold, c =>
    if c.atDocumentMarker || c.rest.head? = some '#' then some ⟨text, c, fold.broken⟩
    else
      match plainWord inFlow c.rest with
      | none => none
      | some [] => some ⟨text, c, fold.broken⟩
      | some word =>
        let text := text ++ fold.text ++ word
        let after := c.skip word.length
        match readFold indent (after.rest.length + 1) .empty after with
        | none => none
        | some (fold, next) =>
          if fold = .empty then some ⟨text, next, false⟩
          else if !inFlow && (next.column : Int) < indent then some ⟨text, next, fold.broken⟩
          else plainWords inFlow indent fuel text fold next

/-- Reads a plain scalar. -/
def plainScalar (inFlow : Bool) (indent : Int) (c : Cursor) : Option PlainScalar :=
  plainWords inFlow indent (c.rest.length + 1) [] .empty c

/-! ## Quoted scalars -/

/-- The value of exactly the given number of hexadecimal digits. -/
def hexValue : Nat → Nat → List Char → Option Nat
  | 0, acc, _ => some acc
  | _ + 1, _, [] => none
  | n + 1, acc, c :: cs =>
    match Text.digit? 16 c with
    | some d => hexValue n (acc * 16 + d) cs
    | none => none

/-- The character of a code point that is not a surrogate. -/
def charOf? (n : Nat) : Option Char :=
  if n < 0xd800 || (0xdfff < n && n ≤ 0x10ffff) then some (Char.ofNat n) else none

/-- The character that an escape stands for, and how many characters behind the
backslash spell it. -/
def escape? : List Char → Option (Char × Nat)
  | [] => none
  | c :: rest =>
    match c with
    | '0' => some ('\x00', 1)
    | 'a' => some ('\x07', 1)
    | 'b' => some ('\x08', 1)
    | 't' => some ('\t', 1)
    | '\t' => some ('\t', 1)
    | 'n' => some ('\n', 1)
    | 'v' => some ('\x0b', 1)
    | 'f' => some ('\x0c', 1)
    | 'r' => some ('\r', 1)
    | 'e' => some ('\x1b', 1)
    | ' ' => some (' ', 1)
    | '"' => some ('"', 1)
    | '/' => some ('/', 1)
    | '\\' => some ('\\', 1)
    | 'N' => some ('\u0085', 1)
    | '_' => some ('\u00a0', 1)
    | 'L' => some ('\u2028', 1)
    | 'P' => some ('\u2029', 1)
    | 'x' => ((hexValue 2 0 rest).bind charOf?).map (·, 3)
    | 'u' => ((hexValue 4 0 rest).bind charOf?).map (·, 5)
    | 'U' => ((hexValue 8 0 rest).bind charOf?).map (·, 9)
    | _ => none

/-- A run of characters of a quoted scalar without separators. -/
structure QuotedRun where
  text : List Char
  after : Cursor
  /-- The run was ended by a backslash in front of a line break. -/
  escapedBreak : Bool
  deriving DecidableEq, Repr, Inhabited

/-- Reads a run up to a separator or the closing quote. -/
def quotedRun (single : Bool) : Nat → List Char → Cursor → Option QuotedRun
  | 0, text, c => some ⟨text, c, false⟩
  | fuel + 1, text, c =>
    match c.rest with
    | [] => some ⟨text, c, false⟩
    | x :: rest =>
      if isGap x || isBreak x then some ⟨text, c, false⟩
      else if single then
        if x = '\'' then
          if rest.head? = some '\'' then quotedRun single fuel (text ++ ['\'']) (c.skip 2)
          else some ⟨text, c, false⟩
        else quotedRun single fuel (text ++ [x]) c.next
      else if x = '"' then some ⟨text, c, false⟩
      else if x = '\\' then
        if (rest.head?.map isBreak).getD false then some ⟨text, c.next.takeBreak.2, true⟩
        else
          match escape? rest with
          | some (e, length) => quotedRun single fuel (text ++ [e]) (c.skip (length + 1))
          | none => none
      else quotedRun single fuel (text ++ [x]) c.next

/-- Reads runs and folds up to the closing quote. -/
def quotedRuns (single : Bool) : Nat → List Char → Cursor → Option (List Char × Cursor)
  | 0, _, _ => none
  | fuel + 1, text, c =>
    if c.atDocumentMarker || c.rest.isEmpty then none
    else
      match quotedRun single (c.rest.length + 1) text c with
      | none => none
      | some run =>
        if run.after.rest.head? = some (if single then '\'' else '"') then
          some (run.text, run.after.next)
        else
          let fold : Fold := if run.escapedBreak then .escapedBreak else .empty
          match readFold 0 (run.after.rest.length + 1) fold run.after with
          | none => none
          | some (fold, next) => quotedRuns single fuel (run.text ++ fold.text) next

/-- Reads a quoted scalar from its opening quote on. -/
def quotedScalar (single : Bool) (c : Cursor) : Option (List Char × Cursor) :=
  quotedRuns single (c.rest.length + 1) [] c.next

/-! ## Block scalars -/

/-- What becomes of the breaks at the end of a block scalar. -/
inductive Chomping where
  | strip
  | clip
  | keep
  deriving DecidableEq, Repr, Inhabited

/-- The line behind the mark of a block scalar: its chomping, its own indentation
if one is given, and the place behind both. -/
def blockHeader (c : Cursor) : Option (Chomping × Option Nat × Cursor) :=
  let chomping? (x : Char) : Option Chomping :=
    if x = '+' then some .keep else if x = '-' then some .strip else none
  match c.rest with
  | [] => some (.clip, none, c)
  | x :: rest =>
    match chomping? x with
    | some chomping =>
      match rest.head?.bind (Text.digit? 10) with
      | some 0 => none
      | some d => some (chomping, some d, c.skip 2)
      | none => some (chomping, none, c.next)
    | none =>
      match Text.digit? 10 x with
      | some 0 => none
      | some d =>
        match rest.head?.bind chomping? with
        | some chomping => some (chomping, some d, c.skip 2)
        | none => some (.clip, some d, c.next)
      | none => some (.clip, none, c)

/-- Blank lines of a block scalar: their breaks, the widest indentation, and the
place of the next text.  The indentation is not yet known when it is zero. -/
def blockBreaks (indent : Nat) :
    Nat → List Char → Nat → Cursor → Option (List Char × Nat × Cursor)
  | 0, breaks, widest, c => some (breaks, widest, c)
  | fuel + 1, breaks, widest, c =>
    let blanks := (c.rest.takeWhile (· = ' ')).length
    let inside := c.skip (if indent = 0 then blanks else min blanks (indent - c.column))
    let widest := max widest inside.column
    match inside.rest with
    | [] => some (breaks, widest, inside)
    | x :: _ =>
      if (indent = 0 || inside.column < indent) && x = '\t' then none
      else if isBreak x then
        match inside.takeBreak with
        | (b, after) => blockBreaks indent fuel (breaks ++ b) widest after
      else some (breaks, widest, inside)

/-- A block scalar while its lines are read. -/
structure BlockText where
  text : List Char
  /-- The break of the last line. -/
  lastBreak : List Char
  /-- The breaks of the blank lines behind it. -/
  blankBreaks : List Char
  /-- The last line began with a separator. -/
  lastIndented : Bool
  deriving DecidableEq, Repr, Inhabited

/-- The text in front of the next line. -/
def BlockText.joined (literal indented : Bool) (b : BlockText) : List Char :=
  if !literal && b.lastBreak.head? = some '\n' && !b.lastIndented && !indented then
    b.text ++ (if b.blankBreaks.isEmpty then [' '] else []) ++ b.blankBreaks
  else b.text ++ b.lastBreak ++ b.blankBreaks

/-- Reads the lines of a block scalar. -/
def blockLines (literal : Bool) (indent : Nat) :
    Nat → BlockText → Cursor → Option (BlockText × Cursor)
  | 0, b, c => some (b, c)
  | fuel + 1, b, c =>
    if c.column ≠ indent || c.rest.isEmpty then some (b, c)
    else
      let indented := (c.rest.head?.map isGap).getD false
      let line := c.rest.takeWhile fun x => !isBreak x
      let text := b.joined literal indented ++ line
      match (c.skip line.length).takeBreak with
      | (lastBreak, after) =>
        match blockBreaks indent (after.rest.length + 1) [] 0 after with
        | none => none
        | some (breaks, _, next) =>
          blockLines literal indent fuel ⟨text, lastBreak, breaks, indented⟩ next

/-- The text of a block scalar with its last breaks. -/
def BlockText.chomped (chomping : Chomping) (b : BlockText) : List Char :=
  match chomping with
  | .strip => b.text
  | .clip => b.text ++ b.lastBreak
  | .keep => b.text ++ b.lastBreak ++ b.blankBreaks

/-- Reads a block scalar from its mark on.  `parent` is the indentation of the
collection around it. -/
def blockScalar (literal : Bool) (parent : Int) (c : Cursor) : Option (List Char × Cursor) :=
  match blockHeader c.next with
  | none => none
  | some (chomping, own, c) =>
    let c := c.skipWhile isGap
    let c := if c.rest.head? = some '#' then c.skipWhile fun x => !isBreak x else c
    if !atLineEnd c.rest then none
    else
      let c := c.takeBreak.2
      let given : Nat := match own with
        | some d => if 0 ≤ parent then parent.toNat + d else d
        | none => 0
      match blockBreaks given (c.rest.length + 1) [] 0 c with
      | none => none
      | some (breaks, widest, next) =>
        let indent := if given = 0 then max (max widest (parent + 1).toNat) 1 else given
        match blockLines literal indent (next.rest.length + 1) ⟨[], [], breaks, false⟩ next with
        | none => none
        | some (b, after) => some (b.chomped chomping, after)

end LintRelay.Yaml
