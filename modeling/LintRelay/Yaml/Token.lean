import LintRelay.Yaml.Scalar
set_option autoImplicit false

/-!
# YAML: tokens

A text is a row of tokens.  Indentation opens and closes block collections, so
these have tokens of their own.  That a scalar is a key shows only at the colon
behind it; until then the place of a possible key is remembered, and the tokens
that announce the key are put in there.

`tokens?` gives the row of a well-formed text.
-/

namespace LintRelay.Yaml

/-- A token. -/
inductive Token where
  | version (major minor : Nat)
  | tagShorthand (handle expansion : List Char)
  | documentStart
  | documentEnd
  | blockSequence
  | blockMapping
  | blockEnd
  | flowSequence
  | flowSequenceEnd
  | flowMapping
  | flowMappingEnd
  | item
  | comma
  | key
  | value
  | alias (name : List Char)
  | anchor (name : List Char)
  | tag (handle suffix : List Char)
  | scalar (text : List Char) (style : Style)
  deriving DecidableEq, Repr, Inhabited

/-! ## Anchors, tags and directives -/

/-- Reads the name of an anchor or an alias from its mark on. -/
def anchorName (c : Cursor) : Option (List Char × Cursor) :=
  let start := c.next
  let name := start.rest.takeWhile isWordChar
  let after := start.skip name.length
  let ended :=
    match after.rest with
    | [] => true
    | x :: _ => atGap after.rest || "?:,]\x7d%@\x60".toList.contains x
  if name.isEmpty || !ended then none else some (name, after)

/-- The character may stand in a tag; some only between angle brackets or in a
directive. -/
def isTagChar (wide : Bool) (c : Char) : Bool :=
  isWordChar c || ";/?:@&=+$.!~*'()%".toList.contains c || (wide && ",[]".toList.contains c)

/-- The number of bytes of a character whose first byte is given. -/
def leadWidth (b : Nat) : Option Nat :=
  if b < 0x80 then some 1
  else if b / 0x20 = 0x06 then some 2
  else if b / 0x10 = 0x0e then some 3
  else if b / 0x08 = 0x1e then some 4
  else none

/-- A byte written with a percent sign. -/
def percentByte? : List Char → Option (Nat × List Char)
  | '%' :: a :: b :: rest =>
    match Text.digit? 16 a, Text.digit? 16 b with
    | some x, some y => some (16 * x + y, rest)
    | _, _ => none
  | _ => none

/-- The bytes that continue a character. -/
def continuation : Nat → Nat → List Char → Option (Nat × List Char)
  | 0, acc, rest => some (acc, rest)
  | n + 1, acc, cs =>
    match percentByte? cs with
    | some (b, rest) => if b / 0x40 = 2 then continuation n (acc * 0x40 + b % 0x40) rest else none
    | none => none

/-- A character whose bytes are written with percent signs. -/
def percentChar? (cs : List Char) : Option (Char × List Char) :=
  match percentByte? cs with
  | none => none
  | some (b, rest) =>
    match leadWidth b with
    | none => none
    | some width =>
      let lead := match width with
        | 1 => b
        | 2 => b % 0x20
        | 3 => b % 0x10
        | _ => b % 0x08
      match continuation (width - 1) lead rest with
      | none => none
      | some (n, rest) => (charOf? n).map (·, rest)

/-- Reads the characters of a tag. -/
def tagChars (wide : Bool) : Nat → List Char → Cursor → Option (List Char × Cursor)
  | 0, text, c => some (text, c)
  | fuel + 1, text, c =>
    match c.rest with
    | [] => some (text, c)
    | x :: _ =>
      if !isTagChar wide x then some (text, c)
      else if x = '%' then
        match percentChar? c.rest with
        | some (y, rest) =>
          tagChars wide fuel (text ++ [y]) (c.skip (c.rest.length - rest.length))
        | none => none
      else tagChars wide fuel (text ++ [x]) c.next

/-- Reads the text of a tag. -/
def tagText (wide : Bool) (start : List Char) (c : Cursor) : Option (List Char × Cursor) :=
  tagChars wide (c.rest.length + 1) start c

/-- Reads an exclamation mark, a word and perhaps another exclamation mark. -/
def tagHandle (c : Cursor) : Option (List Char × Cursor) :=
  match c.rest with
  | '!' :: rest =>
    let word := rest.takeWhile isWordChar
    let after := c.skip (word.length + 1)
    match after.rest with
    | '!' :: _ => some ('!' :: word ++ ['!'], after.next)
    | _ => some ('!' :: word, after)
  | _ => none

/-- The handle and the suffix of a tag, before it is checked what follows. -/
def tagParts (c : Cursor) : Option (List Char × List Char × Cursor) :=
  match c.rest with
  | '!' :: '<' :: _ =>
    match tagText true [] (c.skip 2) with
    | some (text, after) =>
      if text.isEmpty || after.rest.head? ≠ some '>' then none else some ([], text, after.next)
    | none => none
  | _ =>
    match tagHandle c with
    | none => none
    | some (handle, after) =>
      if 1 < handle.length && handle.getLast? = some '!' then
        match tagText false [] after with
        | some (text, last) => if text.isEmpty then none else some (handle, text, last)
        | none => none
      else
        match tagText false (handle.drop 1) after with
        | some ([], last) => some ([], ['!'], last)
        | some (text, last) => some (['!'], text, last)
        | none => none

/-- Reads a tag; a separator has to follow, or a comma in a flow collection. -/
def tagToken (inFlow : Bool) (c : Cursor) : Option (Token × Cursor) :=
  match tagParts c with
  | none => none
  | some (handle, suffix, after) =>
    if atGap after.rest || (inFlow && after.rest.head? = some ',') then
      some (.tag handle suffix, after)
    else none

/-- A number of a version, of nine digits at most. -/
def versionNumber (c : Cursor) : Option (Nat × Cursor) :=
  let digits := c.rest.takeWhile Char.isDigit
  if 9 < digits.length then none
  else (Text.number? 10 digits).map fun n => (n, c.skip digits.length)

/-- The numbers of a version directive. -/
def versionValue (c : Cursor) : Option (Token × Cursor) :=
  match versionNumber (c.skipWhile isGap) with
  | none => none
  | some (major, after) =>
    if after.rest.head? ≠ some '.' then none
    else
      match versionNumber after.next with
      | none => none
      | some (minor, last) => some (.version major minor, last)

/-- The handle and the expansion of a tag directive. -/
def shorthandValue (c : Cursor) : Option (Token × Cursor) :=
  match tagHandle (c.skipWhile isGap) with
  | none => none
  | some (handle, after) =>
    if handle ≠ ['!'] && handle.getLast? ≠ some '!' then none
    else if (after.rest.head?.map isGap) ≠ some true then none
    else
      match tagText true [] (after.skipWhile isGap) with
      | none => none
      | some (text, last) =>
        if text.isEmpty || !atGap last.rest then none else some (.tagShorthand handle text, last)

/-- Reads a directive from its percent sign to the end of its line. -/
def directive (c : Cursor) : Option (Token × Cursor) :=
  let start := c.next
  let name := start.rest.takeWhile isWordChar
  let after := start.skip name.length
  let parsed :=
    if !atGap after.rest then none
    else if name = "YAML".toList then versionValue after
    else if name = "TAG".toList then shorthandValue after
    else none
  match parsed with
  | none => none
  | some (token, c) =>
    let c := c.skipWhile isGap
    let c := if c.rest.head? = some '#' then c.skipWhile fun x => !isBreak x else c
    if atLineEnd c.rest then some (token, c.takeBreak.2) else none

/-! ## Layout -/

/-- A place where a key may have begun. -/
structure PossibleKey where
  /-- Nothing but a key can stand here. -/
  required : Bool
  /-- How many tokens stand before it. -/
  place : Nat
  index : Nat
  line : Nat
  column : Nat
  deriving DecidableEq, Repr, Inhabited

/-- The tokens read so far, and what the next one depends on. -/
structure Layout where
  cursor : Cursor
  /-- The tokens, last first. -/
  reversed : List Token
  /-- The column of the innermost block collection; below zero when there is none. -/
  indent : Int
  /-- The columns of the block collections around it. -/
  outer : List Int
  /-- The possible key of the innermost flow collection, and of those around it. -/
  keys : List (Option PossibleKey)
  /-- How many flow collections are open. -/
  flow : Nat
  /-- A key may begin here. -/
  keyAllowed : Bool
  deriving DecidableEq, Repr, Inhabited

namespace Layout

/-- The layout at the beginning of a text. -/
def start (text : List Char) : Layout := ⟨.start text, [], -1, [], [none], 0, true⟩

/-- Inside a flow collection. -/
def inFlow (s : Layout) : Bool := 0 < s.flow

/-- One more token. -/
def push (t : Token) (s : Layout) : Layout := { s with reversed := t :: s.reversed }

/-- A token put in behind the given number of tokens. -/
def insertAt (place : Nat) (t : Token) (s : Layout) : Layout :=
  let later := s.reversed.length - place
  { s with reversed := s.reversed.take later ++ t :: s.reversed.drop later }

/-- Closes the block collections that lie to the right of a column. -/
def closeBlocks (column : Int) : Layout → Layout := fun s =>
  if s.inFlow then s
  else
    let inner := (s.indent :: s.outer).takeWhile (column < ·)
    match (s.indent :: s.outer).drop inner.length with
    | indent :: outer =>
      { s with
        indent := indent
        outer := outer
        reversed := List.replicate inner.length Token.blockEnd ++ s.reversed }
    | [] => s

/-- Opens a block collection at a column that lies to the right of the open ones. -/
def openBlock (column place : Nat) (t : Token) (s : Layout) : Layout :=
  if s.inFlow || (column : Int) ≤ s.indent then s
  else { s.insertAt place t with indent := column, outer := s.indent :: s.outer }

/-- Gives up the possible key; a required one must not be given up. -/
def dropKey (s : Layout) : Option Layout :=
  match s.keys with
  | some k :: keys => if k.required then none else some { s with keys := none :: keys }
  | _ => some s

/-- Remembers the place as a possible key. -/
def saveKey (s : Layout) : Option Layout :=
  if s.keyAllowed then
    match s.dropKey with
    | none => none
    | some s =>
      let k : PossibleKey :=
        { required := !s.inFlow && s.indent = s.cursor.column
          place := s.reversed.length
          index := s.cursor.index
          line := s.cursor.line
          column := s.cursor.column }
      some { s with keys := some k :: s.keys.drop 1 }
  else some s

/-- The possible key lies too far back. -/
def isStale (c : Cursor) (k : PossibleKey) : Bool := k.line < c.line || k.index + 1024 < c.index

/-- Gives up the possible keys that lie too far back. -/
def dropStale (c : Cursor) : List (Option PossibleKey) → Option (List (Option PossibleKey))
  | [] => some []
  | none :: rest => (dropStale c rest).map (none :: ·)
  | some k :: rest =>
    if isStale c k then
      if k.required then none else (dropStale c rest).map (none :: ·)
    else (dropStale c rest).map (some k :: ·)

/-- Moves to the next token over separators, comments and line breaks.  Behind a
break a key may begin, outside of flow collections. -/
def toToken : Nat → Layout → Layout
  | 0, s => s
  | fuel + 1, s =>
    let c := s.cursor
    let c := if c.index = 0 && c.rest.head? = some '\ufeff' then c.next else c
    let c := c.skipWhile fun x => x = ' ' || ((s.inFlow || !s.keyAllowed) && x = '\t')
    let c := if c.rest.head? = some '#' then c.skipWhile fun x => !isBreak x else c
    match c.rest with
    | [] => { s with cursor := c }
    | x :: _ =>
      if isBreak x then
        toToken fuel { s with cursor := c.takeBreak.2, keyAllowed := s.keyAllowed || !s.inFlow }
      else { s with cursor := c }

/-! ### One token -/

/-- A token of the given length that keys cannot cross. -/
def mark (t : Token) (length : Nat) (keyAllowed : Bool) (s : Layout) : Option Layout :=
  match s.dropKey with
  | none => none
  | some s => some { s.push t with cursor := s.cursor.skip length, keyAllowed := keyAllowed }

/-- The beginning or the end of a document. -/
def documentMark (t : Token) (s : Layout) : Option Layout := (s.closeBlocks (-1)).mark t 3 false

/-- A directive. -/
def directiveLine (s : Layout) : Option Layout :=
  match (s.closeBlocks (-1)).dropKey with
  | none => none
  | some s =>
    match directive s.cursor with
    | none => none
    | some (t, after) => some { s.push t with cursor := after, keyAllowed := false }

/-- The beginning of a flow collection, which may itself be a key. -/
def openFlow (t : Token) (s : Layout) : Option Layout :=
  match s.saveKey with
  | none => none
  | some s =>
    some
      { s.push t with
        cursor := s.cursor.next
        keys := none :: s.keys
        flow := s.flow + 1
        keyAllowed := true }

/-- The end of a flow collection. -/
def closeFlow (t : Token) (s : Layout) : Option Layout :=
  match s.dropKey with
  | none => none
  | some s =>
    let s := if s.inFlow then { s with flow := s.flow - 1, keys := s.keys.drop 1 } else s
    some { s.push t with cursor := s.cursor.next, keyAllowed := false }

/-- The mark of an item of a block sequence. -/
def itemMark (s : Layout) : Option Layout :=
  if s.inFlow then s.mark .item 1 true
  else if !s.keyAllowed then none
  else (s.openBlock s.cursor.column s.reversed.length .blockSequence).mark .item 1 true

/-- The mark of a key. -/
def keyMark (s : Layout) : Option Layout :=
  if s.inFlow then s.mark .key 1 false
  else if !s.keyAllowed then none
  else (s.openBlock s.cursor.column s.reversed.length .blockMapping).mark .key 1 true

/-- The mark of a value.  What was possibly a key is one now. -/
def valueMark (s : Layout) : Option Layout :=
  match s.keys with
  | some k :: keys =>
    let s := (s.insertAt k.place .key).openBlock k.column k.place .blockMapping
    some
      { s.push .value with
        cursor := s.cursor.next
        keys := none :: keys
        keyAllowed := false }
  | _ =>
    if s.inFlow then some { s.push .value with cursor := s.cursor.next, keyAllowed := false }
    else if !s.keyAllowed then none
    else
      let s := s.openBlock s.cursor.column s.reversed.length .blockMapping
      some { s.push .value with cursor := s.cursor.next, keyAllowed := true }

/-- A token that may be a key or begin one. -/
def content (reader : Cursor → Option (Token × Cursor)) (s : Layout) : Option Layout :=
  match s.saveKey with
  | none => none
  | some s =>
    match reader s.cursor with
    | none => none
    | some (t, after) => some { s.push t with cursor := after, keyAllowed := false }

/-- A plain scalar. -/
def plain (s : Layout) : Option Layout :=
  match s.saveKey with
  | none => none
  | some s =>
    match plainScalar s.inFlow (s.indent + 1) s.cursor with
    | none => none
    | some p =>
      some
        { s.push (.scalar p.text .plain) with
          cursor := p.after
          keyAllowed := p.lineEnded }

/-- A quoted scalar. -/
def quoted (single : Bool) (s : Layout) : Option Layout :=
  s.content fun c =>
    match quotedScalar single c with
    | some (text, after) => some (.scalar text .quoted, after)
    | none => none

/-- A block scalar. -/
def block (literal : Bool) (s : Layout) : Option Layout :=
  match s.dropKey with
  | none => none
  | some s =>
    match blockScalar literal s.indent s.cursor with
    | none => none
    | some (text, after) =>
      some
        { s.push (.scalar text (if literal then .literal else .folded)) with
          cursor := after
          keyAllowed := true }

/-- An alias or an anchor. -/
def anchored (t : List Char → Token) (s : Layout) : Option Layout :=
  s.content fun c =>
    match anchorName c with
    | some (name, after) => some (t name, after)
    | none => none

/-- The token that the character begins. -/
def token (x : Char) (rest : List Char) (s : Layout) : Option Layout :=
  let separated := atGap rest
  if x = '%' && s.cursor.column = 0 then s.directiveLine
  else if s.cursor.atMarker '-' then s.documentMark .documentStart
  else if s.cursor.atMarker '.' then s.documentMark .documentEnd
  else if x = '[' then s.openFlow .flowSequence
  else if x = '\x7b' then s.openFlow .flowMapping
  else if x = ']' then s.closeFlow .flowSequenceEnd
  else if x = '\x7d' then s.closeFlow .flowMappingEnd
  else if x = ',' then s.mark .comma 1 true
  else if x = '-' && separated then s.itemMark
  else if x = '?' && (s.inFlow || separated) then s.keyMark
  else if x = ':' && (s.inFlow || separated) then s.valueMark
  else if x = '*' then s.anchored .alias
  else if x = '&' then s.anchored .anchor
  else if x = '!' then s.content (tagToken s.inFlow)
  else if x = '|' && !s.inFlow then s.block true
  else if x = '>' && !s.inFlow then s.block false
  else if x = '\'' then s.quoted true
  else if x = '"' then s.quoted false
  else if isGap x || "|>%@\x60".toList.contains x then none
  else s.plain

/-- The tokens from here to the end of the text. -/
def run : Nat → Layout → Option (List Token)
  | 0, _ => none
  | fuel + 1, s =>
    let s := s.toToken (s.cursor.rest.length + 1)
    match dropStale s.cursor s.keys with
    | none => none
    | some keys =>
      let s := { s with keys := keys }.closeBlocks s.cursor.column
      match s.cursor.rest with
      | [] =>
        match (s.closeBlocks (-1)).dropKey with
        | some s => some s.reversed.reverse
        | none => none
      | x :: rest =>
        match s.token x rest with
        | some s => run fuel s
        | none => none

end Layout

/-- A text without the mark that may stand at its beginning. -/
def dropMark : List Char → List Char
  | [] => []
  | c :: rest => if c = '\ufeff' then rest else c :: rest

/-- The tokens of a text, if it is well-formed. -/
def tokens? (text : List Char) : Option (List Token) :=
  if text.all isAllowed then (Layout.start (dropMark text)).run (text.length + 1) else none

end LintRelay.Yaml
