import LintRelay.Yaml.Token
set_option autoImplicit false

/-!
# YAML: nodes

A document is a tree of scalars, sequences and mappings.  A node with an anchor
may be named again by an alias; as an alias can stand inside the node that it
names, the tree keeps aliases as they are, and a table leads from them to nodes.

`parse?` gives the tree of a text that is a single document.
-/

namespace LintRelay.Yaml

/-- A node of a document. -/
inductive Node where
  | scalar (anchor : Option Nat) (tag : Option String) (text : String) (style : Style)
  | sequence (anchor : Option Nat) (tag : Option String) (items : List Node)
  | mapping (anchor : Option Nat) (tag : Option String) (entries : List (Node × Node))
  | alias (anchor : Nat)
  deriving Inhabited

/-- A node that is left out. -/
def Node.missing : Node := .scalar none none "" .plain

/-! ## Tags -/

/-- The shorthands that every document knows. -/
def knownShorthands : List (List Char × List Char) :=
  [("!".toList, "!".toList), ("!!".toList, "tag:yaml.org,2002:".toList)]

/-- The tag that a handle and a suffix stand for. -/
def expandTag (shorthands : List (List Char × List Char)) (handle suffix : List Char) :
    Option String :=
  if handle.isEmpty then some (String.ofList suffix)
  else (shorthands.find? (·.1 = handle)).map fun s => String.ofList (s.2 ++ suffix)

/-! ## Anchors -/

/-- The names of anchors, each with its number. -/
abbrev Anchors : Type := List (String × Nat)

/-- Gives a name the next number: the count of the names known before.  A name
that is given again loses its old number. -/
def Anchors.define (a : Anchors) (name : String) : Nat × Anchors :=
  (a.length, (name, a.length) :: a.filter (·.1 ≠ name))

/-- The number of a name. -/
def Anchors.number? (a : Anchors) (name : String) : Option Nat := (a.find? (·.1 = name)).map (·.2)

/-! ## Nodes from tokens -/

/-- The tokens to come and the anchors so far. -/
structure Feed where
  tokens : List Token
  anchors : Anchors
  deriving Inhabited

namespace Feed

/-- The next token. -/
def head? (f : Feed) : Option Token := f.tokens.head?

/-- The feed behind the next token. -/
def next (f : Feed) : Feed := { f with tokens := f.tokens.drop 1 }

/-- The next token is one of the given ones. -/
def at? (f : Feed) (ts : List Token) : Bool :=
  match f.head? with
  | some t => ts.contains t
  | none => false

end Feed

/-- What stands in front of the content of a node. -/
structure Properties where
  anchor : Option (List Char)
  tag : Option (List Char × List Char)
  deriving DecidableEq, Repr, Inhabited

/-- An anchor and a tag, in either order, and the feed behind them. -/
def properties (f : Feed) : Properties × Feed :=
  match f.tokens with
  | .anchor a :: .tag h s :: _ => (⟨some a, some (h, s)⟩, f.next.next)
  | .tag h s :: .anchor a :: _ => (⟨some a, some (h, s)⟩, f.next.next)
  | .anchor a :: _ => (⟨some a, none⟩, f.next)
  | .tag h s :: _ => (⟨none, some (h, s)⟩, f.next)
  | _ => (⟨none, none⟩, f)

/-- Where a node stands decides which block collections it can be. -/
inductive Place where
  /-- Inside a flow collection there are none. -/
  | flow
  /-- An item, or the document itself. -/
  | block
  /-- A key or a value; a sequence needs no deeper indentation there. -/
  | member
  deriving DecidableEq, Repr, Inhabited

/-- The collections that nodes are read into. -/
inductive Part where
  | node (place : Place)
  | blockItems
  | looseItems
  | blockEntries
  | flowItems (first : Bool)
  | flowEntries (first : Bool)
  deriving DecidableEq, Repr, Inhabited

/-- What reading a part gives: one node, items or entries. -/
inductive Parsed where
  | node (n : Node)
  | items (ns : List Node)
  | entries (es : List (Node × Node))
  deriving Inhabited

/-- A scalar with the mark `!` alone has no tag. -/
def scalarTag : Option String → Option String
  | some "!" => none
  | tag => tag

/-- Reads a part of a document.  Each call takes one unit of fuel; the depth of the
calls is bounded by the number of tokens. -/
def parsePart (shorthands : List (List Char × List Char)) :
    Nat → Part → Feed → Option (Parsed × Feed)
  | 0, _, _ => none
  | fuel + 1, part, f =>
    let node (place : Place) (f : Feed) : Option (Node × Feed) :=
      match parsePart shorthands fuel (.node place) f with
      | some (.node n, f) => some (n, f)
      | _ => none
    let nodeUnless (ends : List Token) (place : Place) (f : Feed) : Option (Node × Feed) :=
      if f.at? ends then some (.missing, f) else node place f
    let moreItems (n : Node) (part : Part) (f : Feed) : Option (Parsed × Feed) :=
      match parsePart shorthands fuel part f with
      | some (.items ns, f) => some (.items (n :: ns), f)
      | _ => none
    let moreEntries (e : Node × Node) (part : Part) (f : Feed) : Option (Parsed × Feed) :=
      match parsePart shorthands fuel part f with
      | some (.entries es, f) => some (.entries (e :: es), f)
      | _ => none
    match part with
    | .node place =>
      match f.tokens with
      | .alias name :: _ =>
        (f.anchors.number? (String.ofList name)).map fun n => (.node (.alias n), f.next)
      | _ =>
        match properties f with
        | (given, f) =>
          let tag? : Option (Option String) :=
            match given.tag with
            | none => some none
            | some (h, s) => (expandTag shorthands h s).map some
          match tag? with
          | none => none
          | some tag =>
            let (anchor, f) : Option Nat × Feed :=
              match given.anchor with
              | none => (none, f)
              | some name =>
                match f.anchors.define (String.ofList name) with
                | (number, anchors) => (some number, { f with anchors := anchors })
            let sequence (part : Part) (f : Feed) : Option (Parsed × Feed) :=
              match parsePart shorthands fuel part f with
              | some (.items ns, f) => some (.node (.sequence anchor tag ns), f)
              | _ => none
            let mapping (part : Part) (f : Feed) : Option (Parsed × Feed) :=
              match parsePart shorthands fuel part f with
              | some (.entries es, f) => some (.node (.mapping anchor tag es), f)
              | _ => none
            match f.head? with
            | some .item =>
              if place = .member then sequence .looseItems f
              else if given = ⟨none, none⟩ then none
              else some (.node (.scalar anchor tag "" .plain), f)
            | some (.scalar text style) =>
              some (.node (.scalar anchor (scalarTag tag) (String.ofList text) style), f.next)
            | some .flowSequence => sequence (.flowItems true) f.next
            | some .flowMapping => mapping (.flowEntries true) f.next
            | other =>
              if place ≠ .flow && other = some .blockSequence then sequence .blockItems f.next
              else if place ≠ .flow && other = some .blockMapping then mapping .blockEntries f.next
              else if given = ⟨none, none⟩ then none
              else some (.node (.scalar anchor tag "" .plain), f)
    | .blockItems =>
      match f.head? with
      | some .item =>
        match nodeUnless [.item, .blockEnd] .block f.next with
        | some (n, f) => moreItems n .blockItems f
        | none => none
      | some .blockEnd => some (.items [], f.next)
      | _ => none
    | .looseItems =>
      match f.head? with
      | some .item =>
        match nodeUnless [.item, .key, .value, .blockEnd] .block f.next with
        | some (n, f) => moreItems n .looseItems f
        | none => none
      | _ => some (.items [], f)
    | .blockEntries =>
      let value (key : Node) (f : Feed) : Option (Parsed × Feed) :=
        if f.head? = some .value then
          match nodeUnless [.key, .value, .blockEnd] .member f.next with
          | some (n, f) => moreEntries (key, n) .blockEntries f
          | none => none
        else moreEntries (key, .missing) .blockEntries f
      match f.head? with
      | some .key =>
        match nodeUnless [.key, .value, .blockEnd] .member f.next with
        | some (key, f) => value key f
        | none => none
      | some .blockEnd => some (.entries [], f.next)
      | _ => none
    | .flowItems first =>
      if f.head? = some .flowSequenceEnd then some (.items [], f.next)
      else
        let entered? : Option Feed :=
          if first then some f else if f.head? = some .comma then some f.next else none
        match entered? with
        | none => none
        | some f =>
          match f.head? with
          | some .flowSequenceEnd => some (.items [], f.next)
          | some .key =>
            let f := f.next
            let key? : Option (Node × Feed) :=
              if f.at? [.value, .comma, .flowSequenceEnd] then some (.missing, f.next)
              else node .flow f
            match key? with
            | none => none
            | some (key, f) =>
              let value? : Option (Node × Feed) :=
                if f.head? = some .value then nodeUnless [.comma, .flowSequenceEnd] .flow f.next
                else some (.missing, f)
              match value? with
              | none => none
              | some (value, f) =>
                moreItems (.mapping none none [(key, value)]) (.flowItems false) f
          | _ =>
            match node .flow f with
            | some (n, f) => moreItems n (.flowItems false) f
            | none => none
    | .flowEntries first =>
      if f.head? = some .flowMappingEnd then some (.entries [], f.next)
      else
        let entered? : Option Feed :=
          if first then some f else if f.head? = some .comma then some f.next else none
        match entered? with
        | none => none
        | some f =>
          match f.head? with
          | some .flowMappingEnd => some (.entries [], f.next)
          | some .key =>
            match nodeUnless [.value, .comma, .flowMappingEnd] .flow f.next with
            | none => none
            | some (key, f) =>
              let value? : Option (Node × Feed) :=
                if f.head? = some .value then nodeUnless [.comma, .flowMappingEnd] .flow f.next
                else some (.missing, f)
              match value? with
              | none => none
              | some (value, f) => moreEntries (key, value) (.flowEntries false) f
          | _ =>
            match node .flow f with
            | some (key, f) => moreEntries (key, .missing) (.flowEntries false) f
            | none => none

/-! ## Documents -/

/-- The directives in front of a document. -/
structure Directives where
  versioned : Bool
  shorthands : List (List Char × List Char)
  deriving Inhabited

/-- Reads directives.  A version may be given once and has to be 1.1 or 1.2; a
shorthand may be given once. -/
def directives : List Token → Directives → Option (Directives × List Token)
  | .version major minor :: rest, d =>
    if d.versioned || major ≠ 1 || (minor ≠ 1 && minor ≠ 2) then none
    else directives rest { d with versioned := true }
  | .tagShorthand handle expansion :: rest, d =>
    if d.shorthands.any (·.1 = handle) then none
    else directives rest { d with shorthands := (handle, expansion) :: d.shorthands }
  | rest, d => some (d, rest)

/-- The node that the tokens begin with, and the tokens behind it. -/
def rootNode? (shorthands : List (List Char × List Char)) (tokens : List Token) :
    Option (Node × List Token) :=
  match parsePart shorthands (4 * tokens.length + 4) (.node .block) ⟨tokens, []⟩ with
  | some (.node n, f) => some (n, f.tokens)
  | _ => none

/-- The document ends before the next token. -/
def endsDocument : List Token → Bool
  | [] => true
  | .version _ _ :: _ => true
  | .tagShorthand _ _ :: _ => true
  | .documentStart :: _ => true
  | .documentEnd :: _ => true
  | _ => false

/-- The first document of a row of tokens, and the tokens behind it.  A document
behind a start mark may be empty, and so may the whole row. -/
def firstRoot? (tokens : List Token) : Option (Node × List Token) :=
  match directives tokens ⟨false, []⟩ with
  | none => none
  | some (d, rest) =>
    let shorthands :=
      d.shorthands ++ knownShorthands.filter fun k => !d.shorthands.any (·.1 = k.1)
    match rest with
    | .documentStart :: rest =>
      if endsDocument rest then some (.missing, rest) else rootNode? shorthands rest
    | _ =>
      if tokens.isEmpty then some (.missing, [])
      else if rest.length = tokens.length then rootNode? shorthands rest
      else none

/-- The root of a text that is a single document. -/
def parse? (text : String) : Option Node :=
  match tokens? text.toList with
  | none => none
  | some tokens =>
    match firstRoot? tokens with
    | none => none
    | some (n, rest) => if rest.all (· = .documentEnd) then some n else none

end LintRelay.Yaml
