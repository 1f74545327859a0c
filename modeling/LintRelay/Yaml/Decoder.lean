import LintRelay.Json.Value
import LintRelay.Yaml.Literal
import LintRelay.Yaml.Node
set_option autoImplicit false

/-!
# YAML: decoders

A decoder reads a node as a value of a certain kind.  Collections may be nested
128 deep, and aliases may be followed a hundred times for each node and each end
of a collection, so that a document that names itself is refused.

A text takes any scalar as it is written.  Truth values and numbers have to be
plain.  A node that is left out is an empty list or an empty record.
-/

namespace LintRelay.Yaml

open Json (Value)

/-- Where aliases lead, and how often they may be followed. -/
structure Aliases where
  targets : List (Nat × Node)
  limit : Nat
  deriving Inhabited

/-- A decoder takes the depth that is left and the number of aliases followed so
far; it returns the value and the new number. -/
abbrev Decoder (α : Type) : Type := Aliases → Nat → Nat → Node → Option (α × Nat)

/-- The node that an alias leads to; other nodes stand for themselves. -/
def follow (aliases : Aliases) (followed : Nat) : Node → Option (Node × Nat)
  | .alias n =>
    if followed < aliases.limit then
      (aliases.targets.find? (·.1 = n)).map fun t => (t.2, followed + 1)
    else none
  | node => some (node, followed)

/-- Reads nodes one after the other. -/
def each {α β : Type} (read : Nat → α → Option (β × Nat)) : Nat → List α → Option (List β × Nat)
  | followed, [] => some ([], followed)
  | followed, a :: rest =>
    match read followed a with
    | none => none
    | some (b, followed) =>
      match each read followed rest with
      | none => none
      | some (bs, followed) => some (b :: bs, followed)

/-! ## Plain kinds -/

/-- A text. -/
def string : Decoder String := fun aliases _ followed node =>
  match follow aliases followed node with
  | some (.scalar _ _ text _, followed) => some (text, followed)
  | _ => none

/-- The tag of a type that every document knows. -/
def coreTag (name : String) : String := "tag:yaml.org,2002:" ++ name

/-- A plain scalar, or a literal block with the tag of the type, read as a literal. -/
def literal {α : Type} (type : String) (read : String → Option α) : Decoder α :=
  fun aliases _ followed node =>
    match follow aliases followed node with
    | some (.scalar _ tag text style, followed) =>
      if style = .plain || (style = .literal && tag = some (coreTag type)) then
        (read text).map (·, followed)
      else none
    | _ => none

/-- A truth value. -/
def bool : Decoder Bool := literal "bool" bool?

/-- A natural number up to a bound. -/
def natUpTo (bound : Nat) : Decoder Nat := literal "int" fun s => (nat? s).filter (· ≤ bound)

/-- A natural number of 16 bits. -/
def nat16 : Decoder Nat := natUpTo 65535

/-- A natural number of 64 bits. -/
def nat64 : Decoder Nat := natUpTo 18446744073709551615

/-- The scalar stands for nothing, in a place where that is possible. -/
def standsForNothing (text : String) : Bool := text.isEmpty || isNull text

/-- Nothing, or a value. -/
def nullable {α : Type} (d : Decoder α) : Decoder (Option α) := fun aliases depth followed node =>
  match follow aliases followed node with
  | none => none
  | some (target, followed) =>
    let given : Option (Option α × Nat) :=
      (d aliases depth followed target).map fun r => (some r.1, r.2)
    match target with
    | .scalar _ tag text .plain =>
      match tag with
      | none => if standsForNothing text then some (none, followed) else given
      | some t =>
        if t = coreTag "null" then if isNull text then some (none, followed) else none
        else given
    | _ => given

/-- A list. -/
def list {α : Type} (d : Decoder α) : Decoder (List α) := fun aliases depth followed node =>
  match follow aliases followed node with
  | some (.sequence _ _ items, followed) =>
    match depth with
    | 0 => none
    | depth + 1 => each (d aliases depth) followed items
  | some (.scalar _ _ "" .plain, followed) => some ([], followed)
  | _ => none

/-! ## Choices -/

/-- The name that a tag of the document itself gives. -/
def ownTag? (tag : Option String) : Option String :=
  match tag.map String.toList with
  | some ['!'] => some "!"
  | some ('!' :: name) => some (String.ofList name)
  | _ => none

/-- One of some names, as a text or as the tag of a scalar that stands for nothing. -/
def oneOf {α : Type} (names : List (String × α)) : Decoder α := fun aliases _ followed node =>
  let named (s : String) (followed : Nat) : Option (α × Nat) :=
    (names.find? (·.1 = s)).map fun n => (n.2, followed)
  match follow aliases followed node with
  | some (.scalar _ tag text style, followed) =>
    match ownTag? tag with
    | some name => if style = .plain && standsForNothing text then named name followed else none
    | none => named text followed
  | _ => none

/-! ## Free-form values -/

/-- The value of a plain scalar without a tag: an integer that fits 64 bits stays
an integer, one that fits 128 bits is refused, and a larger one is a float. -/
def integerValue? (s : String) : Option (Option Value) :=
  match int? s with
  | none => none
  | some i =>
    if -9223372036854775808 ≤ i && i < 18446744073709551616 then some (some (.int i))
    else if
      -170141183460469231731687303715884105728 ≤ i && i < 340282366920938463463374607431768211456
    then some none
    else none

/-- A float as a value; what is not finite is `null`. -/
def floatValue (x : Float) : Value := if x.isFinite then .float x else .null

/-- The value of a plain scalar. -/
def plainValue (s : String) : Option Value :=
  if standsForNothing s then some .null
  else
    match bool? s with
    | some b => some (.bool b)
    | none =>
      match integerValue? s with
      | some v => v
      | none =>
        if isPadded s.toList then some (.string s)
        else
          match float? s with
          | some x => some (floatValue x)
          | none => some (.string s)

/-- The value of a scalar. -/
def scalarValue (tag : Option String) (text : String) (style : Style) : Option Value :=
  match tag with
  | none => if style = .plain then plainValue text else some (.string text)
  | some t =>
    if (ownTag? tag).isSome then none
    else if t = coreTag "bool" then (bool? text).map .bool
    else if t = coreTag "int" then (integerValue? text).join
    else if t = coreTag "float" then (float? text).map floatValue
    else if t = coreTag "null" then if isNull text then some .null else none
    else some (.string text)

/-- Any value.  The keys of a mapping are texts; of equal keys the last one wins. -/
def value : (depth : Nat) → Aliases → Nat → Node → Option (Value × Nat)
  | depth, aliases, followed, node =>
    match follow aliases followed node with
    | none => none
    | some (.alias _, _) => none
    | some (.scalar _ tag text style, followed) => (scalarValue tag text style).map (·, followed)
    | some (.sequence _ tag items, followed) =>
      match depth with
      | 0 => none
      | depth + 1 =>
        if (ownTag? tag).isSome then none
        else (each (value depth aliases) followed items).map fun r => (.array r.1, r.2)
    | some (.mapping _ tag entries, followed) =>
      match depth with
      | 0 => none
      | depth + 1 =>
        let entry (followed : Nat) (e : Node × Node) : Option ((String × Value) × Nat) :=
          match string aliases depth followed e.1 with
          | none => none
          | some (key, followed) =>
            (value depth aliases followed e.2).map fun r => ((key, r.1), r.2)
        if (ownTag? tag).isSome then none
        else (each entry followed entries).map fun r => (.object (Json.sortMembers r.1), r.2)

/-- Any value. -/
def anyValue : Decoder Value := fun aliases depth followed node => value depth aliases followed node

/-! ## Records -/

/-- A member of a record: its name, whether a draft has it already, and how its
value is read into a draft. -/
structure Member (δ : Type) where
  name : String
  filled : δ → Bool
  read : Decoder (δ → δ)

/-- A field that is read with a decoder and stored in a draft. -/
def Member.of {δ α : Type} (name : String) (get : δ → Option α) (set : δ → α → δ) (d : Decoder α) :
    Member δ :=
  { name
    filled := fun draft => (get draft).isSome
    read := fun aliases depth followed node =>
      (d aliases depth followed node).map fun r => (fun draft => set draft r.1, r.2) }

/-- Reads the members of a record into a draft: a known name may stand once, and
the value of an unknown name is skipped. -/
def recordEntries {δ : Type} (fields : List (Member δ)) (aliases : Aliases) (depth : Nat) :
    Nat → δ → List (Node × Node) → Option (δ × Nat)
  | followed, draft, [] => some (draft, followed)
  | followed, draft, (key, node) :: rest =>
    match string aliases depth followed key with
    | none => none
    | some (name, followed) =>
      match fields.find? (·.name = name) with
      | none => recordEntries fields aliases depth followed draft rest
      | some field =>
        if field.filled draft then none
        else
          match field.read aliases depth followed node with
          | none => none
          | some (store, followed) =>
            recordEntries fields aliases depth followed (store draft) rest

/-- A record. -/
def record {δ α : Type} (fields : List (Member δ)) (start : δ) (finish : δ → Option α) : Decoder α :=
  fun aliases depth followed node =>
    let finished (draft : δ) (followed : Nat) : Option (α × Nat) := (finish draft).map (·, followed)
    match follow aliases followed node with
    | some (.mapping _ _ entries, followed) =>
      match depth with
      | 0 => none
      | depth + 1 =>
        match recordEntries fields aliases depth followed start entries with
        | none => none
        | some (draft, followed) => finished draft followed
    | some (.scalar _ _ "" .plain, followed) => finished start followed
    | _ => none

/-! ## Texts -/

mutual

/-- The nodes with an anchor, in the order of the text. -/
def Node.anchored : Node → List (Nat × Node)
  | .scalar anchor tag text style =>
    (anchor.map fun n => (n, Node.scalar anchor tag text style)).toList
  | .sequence anchor tag items =>
    (anchor.map fun n => (n, Node.sequence anchor tag items)).toList ++ anchoredItems items
  | .mapping anchor tag entries =>
    (anchor.map fun n => (n, Node.mapping anchor tag entries)).toList ++ anchoredEntries entries
  | .alias _ => []

/-- The items with an anchor, and those inside them. -/
def anchoredItems : List Node → List (Nat × Node)
  | [] => []
  | n :: rest => n.anchored ++ anchoredItems rest

/-- The keys and values with an anchor, and those inside them. -/
def anchoredEntries : List (Node × Node) → List (Nat × Node)
  | [] => []
  | (k, v) :: rest => k.anchored ++ (v.anchored ++ anchoredEntries rest)

end

mutual

/-- The number of nodes, and of ends of collections. -/
def Node.weight : Node → Nat
  | .scalar _ _ _ _ => 1
  | .alias _ => 1
  | .sequence _ _ items => 2 + itemsWeight items
  | .mapping _ _ entries => 2 + entriesWeight entries

/-- The weight of all items. -/
def itemsWeight : List Node → Nat
  | [] => 0
  | n :: rest => n.weight + itemsWeight rest

/-- The weight of all keys and values. -/
def entriesWeight : List (Node × Node) → Nat
  | [] => 0
  | (k, v) :: rest => k.weight + (v.weight + entriesWeight rest)

end

/-- How deep collections may be nested. -/
def maxDepth : Nat := 128

/-- Reads a text that is a single document. -/
def decode {α : Type} (d : Decoder α) (text : String) : Option α :=
  match parse? text with
  | none => none
  | some root =>
    let aliases : Aliases := ⟨root.anchored.reverse, 100 * root.weight⟩
    (d aliases maxDepth 0 root).map (·.1)

end LintRelay.Yaml
