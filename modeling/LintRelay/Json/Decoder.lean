import LintRelay.Json.Lexeme
set_option autoImplicit false

/-!
# JSON: decoding

A decoder reads one value of a known kind from a text.  Reading is streaming:
the first problem in text order decides, whether the text is no JSON, ends early,
or holds a value of another kind.

Decoders take the number of containers that may still be opened.  Members with
unknown names are skipped; what is skipped must be JSON, but may be nested to any
depth.
-/

namespace LintRelay.Json

/-- Reads one value, given how many containers may still be opened. -/
abbrev Decoder (α : Type) : Type := Nat → Step α

/-- Containers may be nested this deep. -/
def maxDepth : Nat := 127

/-! ## Faults of kind -/

/-- The fault of a value of another kind: what is wrong inside a keyword, a number
or a string is noticed first. -/
def wrongKind : List Char → Fault
  | [] => .unfinished
  | 'n' :: cs => match keyword "ull".toList cs with | .ok _ => .mismatch | .error f => f
  | 't' :: cs => match keyword "rue".toList cs with | .ok _ => .mismatch | .error f => f
  | 'f' :: cs => match keyword "alse".toList cs with | .ok _ => .mismatch | .error f => f
  | '-' :: cs => match number true cs with | .ok _ => .mismatch | .error f => f
  | '"' :: cs => match stringTail cs with | .ok _ => .mismatch | .error f => f
  | '[' :: _ => .mismatch
  | '\x7b' :: _ => .mismatch
  | c :: cs =>
    if (digit? c).isSome then
      match number false (c :: cs) with | .ok _ => .mismatch | .error f => f
    else .malformed

/-! ## Containers -/

/-- Items of a list behind its opening bracket, with the items read so far, the
last one first.  The first argument bounds the number of rounds. -/
def itemsLoop {α : Type} (item : Step α) : Nat → Bool → List α → Step (List α)
  | 0, _, _, _ => .error .malformed
  | fuel + 1, first, read, cs =>
    match skipSpace cs with
    | [] => .error .unfinished
    | c :: rest =>
      if c = ']' then .ok (read.reverse, rest)
      else
        let next : Except Fault (List Char) :=
          if first then .ok (c :: rest)
          else if c = ',' then
            match skipSpace rest with
            | [] => .error .unfinished
            | d :: more => if d = ']' then .error .malformed else .ok (d :: more)
          else .error .malformed
        match next with
        | .error f => .error f
        | .ok cs =>
          match item cs with
          | .error f => .error f
          | .ok (a, rest) => itemsLoop item fuel false (a :: read) rest

/-- Items of a list behind its opening bracket. -/
def items {α : Type} (item : Step α) : Step (List α) := fun cs =>
  itemsLoop item (cs.length + 1) true [] cs

/-- The colon between a name and its value. -/
def colon : Step Unit := fun cs =>
  match skipSpace cs with
  | [] => .error .unfinished
  | c :: rest => if c = ':' then .ok ((), rest) else .error .malformed

/-- Members of an object behind its opening brace, folded from left to right.
`member` says for a name how its value is read into the result so far. -/
def membersLoop {β : Type} (member : β → String → Except Fault (Step β)) :
    Nat → Bool → β → Step β
  | 0, _, _, _ => .error .malformed
  | fuel + 1, first, acc, cs =>
    match skipSpace cs with
    | [] => .error .unfinished
    | c :: rest =>
      if c = '\x7d' then .ok (acc, rest)
      else
        let next : Except Fault (List Char) :=
          if first then (if c = '"' then .ok rest else .error .malformed)
          else if c = ',' then
            match skipSpace rest with
            | [] => .error .unfinished
            | d :: more => if d = '"' then .ok more else .error .malformed
          else .error .malformed
        match next with
        | .error f => .error f
        | .ok cs =>
          match stringTail cs with
          | .error f => .error f
          | .ok (name, rest) =>
            match member acc name with
            | .error f => .error f
            | .ok step =>
              match colon rest with
              | .error f => .error f
              | .ok (_, rest) =>
                match step rest with
                | .error f => .error f
                | .ok (acc, rest) => membersLoop member fuel false acc rest

/-- Members of an object behind its opening brace. -/
def members {β : Type} (member : β → String → Except Fault (Step β)) (start : β) : Step β :=
  fun cs => membersLoop member (cs.length + 1) true start cs

/-! ## Skipping -/

/-- A number that is only checked for its form; a number cut off by the end of the
text is malformed. -/
def skipNumber : Step Unit := fun cs =>
  let exponent (cs : List Char) : Except Fault (Unit × List Char) :=
    let cs :=
      match cs with
      | '+' :: cs => cs
      | '-' :: cs => cs
      | cs => cs
    if startsWithDigit cs then .ok ((), dropDigits cs) else .error .malformed
  let tail (cs : List Char) : Except Fault (Unit × List Char) :=
    match cs with
    | 'e' :: cs => exponent cs
    | 'E' :: cs => exponent cs
    | cs => .ok ((), cs)
  let fraction (cs : List Char) : Except Fault (Unit × List Char) :=
    match cs with
    | '.' :: cs => if startsWithDigit cs then tail (dropDigits cs) else .error .malformed
    | cs => tail cs
  match cs with
  | '0' :: cs => if startsWithDigit cs then .error .malformed else fraction cs
  | cs => if startsWithDigit cs then fraction (dropDigits cs) else .error .malformed

/-- A string that is only checked for its form. -/
def skipString : Step Unit := fun cs =>
  match stringLoop false .plain [] cs with
  | .ok (_, rest) => .ok ((), rest)
  | .error f => .error f

/-- A value that is only checked for its form, with the containers around the
place, the innermost first: `true` for an object.  `wanted` says that a value must
follow, and not a comma or an end.  The first argument bounds the rounds. -/
def skipLoop : Nat → Bool → List Bool → Step Unit
  | 0, _, _, _ => .error .malformed
  | fuel + 1, true, open_, cs =>
    let leaf (r : Except Fault (Unit × List Char)) : Except Fault (Unit × List Char) :=
      match r with
      | .error f => .error f
      | .ok (_, rest) => if open_.isEmpty then .ok ((), rest) else skipLoop fuel false open_ rest
    match skipSpace cs with
    | [] => .error .unfinished
    | 'n' :: rest => leaf (keyword "ull".toList rest)
    | 't' :: rest => leaf (keyword "rue".toList rest)
    | 'f' :: rest => leaf (keyword "alse".toList rest)
    | '-' :: rest => leaf (skipNumber rest)
    | '"' :: rest => leaf (skipString rest)
    | '[' :: rest =>
      match skipSpace rest with
      | [] => .error .unfinished
      | ']' :: rest => leaf (.ok ((), rest))
      | rest => skipLoop fuel true (false :: open_) rest
    | '\x7b' :: rest =>
      match skipSpace rest with
      | [] => .error .unfinished
      | '\x7d' :: rest => leaf (.ok ((), rest))
      | '"' :: rest =>
        match skipString rest with
        | .error f => .error f
        | .ok (_, rest) =>
          match colon rest with
          | .error f => .error f
          | .ok (_, rest) => skipLoop fuel true (true :: open_) rest
      | _ => .error .malformed
    | c :: rest => if (digit? c).isSome then leaf (skipNumber (c :: rest)) else .error .malformed
  | _ + 1, false, [], cs => .ok ((), cs)
  | fuel + 1, false, inObject :: outer, cs =>
    match skipSpace cs with
    | [] => .error .unfinished
    | ',' :: rest =>
      if inObject then
        match skipSpace rest with
        | [] => .error .unfinished
        | '"' :: rest =>
          match skipString rest with
          | .error f => .error f
          | .ok (_, rest) =>
            match colon rest with
            | .error f => .error f
            | .ok (_, rest) => skipLoop fuel true (true :: outer) rest
        | _ => .error .malformed
      else skipLoop fuel true (false :: outer) rest
    | ']' :: rest => if inObject then .error .malformed else skipLoop fuel false outer rest
    | '\x7d' :: rest => if inObject then skipLoop fuel false outer rest else .error .malformed
    | _ => .error .malformed

/-- A value that is only checked for its form. -/
def skip : Step Unit := fun cs => skipLoop (2 * cs.length + 2) true [] cs

/-! ## Free-form values -/

/-- The value of a number. -/
def Number.toValue : Number → Value
  | .int i => .int i
  | .float x => .float x

/-- A keyword and the value it stands for. -/
def constant (v : Value) (ks : List Char) : Step Value := fun cs =>
  match keyword ks cs with
  | .ok (_, rest) => .ok (v, rest)
  | .error f => .error f

/-- A number as a value. -/
def numberValue (negative : Bool) : Step Value := fun cs =>
  match number negative cs with
  | .ok (n, rest) => .ok (n.toValue, rest)
  | .error f => .error f

/-- A member of a free-form object, put into its place. -/
def freeMember (value : Step Value) (acc : List (String × Value)) (name : String) :
    Except Fault (Step (List (String × Value))) :=
  .ok fun cs =>
    match value cs with
    | .ok (v, rest) => .ok (insertMember name v acc, rest)
    | .error f => .error f

/-- Any value. -/
def value : Decoder Value
  | depth, cs =>
    match skipSpace cs with
    | [] => .error .unfinished
    | 'n' :: rest => constant .null "ull".toList rest
    | 't' :: rest => constant (.bool true) "rue".toList rest
    | 'f' :: rest => constant (.bool false) "alse".toList rest
    | '-' :: rest => numberValue true rest
    | '"' :: rest =>
      match stringTail rest with
      | .ok (s, rest) => .ok (.string s, rest)
      | .error f => .error f
    | '[' :: rest =>
      match depth with
      | 0 => .error .malformed
      | depth + 1 =>
        match items (value depth) rest with
        | .ok (vs, rest) => .ok (.array vs, rest)
        | .error f => .error f
    | '\x7b' :: rest =>
      match depth with
      | 0 => .error .malformed
      | depth + 1 =>
        match members (freeMember (value depth)) [] rest with
        | .ok (ms, rest) => .ok (.object ms, rest)
        | .error f => .error f
    | c :: rest => if (digit? c).isSome then numberValue false (c :: rest) else .error .malformed

/-- A free-form object. -/
def freeObject : Decoder (List (String × Value)) := fun depth cs =>
  match skipSpace cs with
  | [] => .error .unfinished
  | '\x7b' :: rest =>
    match depth with
    | 0 => .error .malformed
    | depth + 1 => members (freeMember (value depth)) [] rest
  | cs => .error (wrongKind cs)

/-! ## Plain kinds -/

/-- A string. -/
def string : Decoder String := fun _ cs =>
  match skipSpace cs with
  | [] => .error .unfinished
  | '"' :: rest => stringTail rest
  | cs => .error (wrongKind cs)

/-- `true` or `false`. -/
def bool : Decoder Bool := fun _ cs =>
  match skipSpace cs with
  | [] => .error .unfinished
  | 't' :: rest => match keyword "rue".toList rest with | .ok (_, r) => .ok (true, r) | .error f => .error f
  | 'f' :: rest => match keyword "alse".toList rest with | .ok (_, r) => .ok (false, r) | .error f => .error f
  | cs => .error (wrongKind cs)

/-- A number of either form. -/
def anyNumber : Step Number := fun cs =>
  match skipSpace cs with
  | [] => .error .unfinished
  | '-' :: rest => number true rest
  | c :: rest =>
    if (digit? c).isSome then number false (c :: rest) else .error (wrongKind (c :: rest))

/-- A natural number up to a bound. -/
def natUpTo (bound : Nat) : Decoder Nat := fun _ cs =>
  match anyNumber cs with
  | .error f => .error f
  | .ok (.int i, rest) =>
    if 0 ≤ i && i ≤ bound then .ok (i.toNat, rest) else .error .mismatch
  | .ok (.float _, _) => .error .mismatch

/-- A natural number of 16 bits. -/
def nat16 : Decoder Nat := natUpTo 65535

/-- A natural number of 32 bits. -/
def nat32 : Decoder Nat := natUpTo 4294967295

/-- A natural number of 64 bits. -/
def nat64 : Decoder Nat := natUpTo 18446744073709551615

/-- The float nearest to an integer of 64 bits. -/
def floatOfInt : Int → Float
  | .ofNat n => n.toUInt64.toFloat
  | .negSucc n => -((n + 1).toUInt64.toFloat)

/-- A float; integers are floats too. -/
def float : Decoder Float := fun _ cs =>
  match anyNumber cs with
  | .error f => .error f
  | .ok (.int i, rest) => .ok (floatOfInt i, rest)
  | .ok (.float x, rest) => .ok (x, rest)

/-- `null`, or a value. -/
def nullable {α : Type} (d : Decoder α) : Decoder (Option α) := fun depth cs =>
  match skipSpace cs with
  | 'n' :: rest => match keyword "ull".toList rest with | .ok (_, r) => .ok (none, r) | .error f => .error f
  | cs =>
    match d depth cs with
    | .ok (a, rest) => .ok (some a, rest)
    | .error f => .error f

/-- A list. -/
def list {α : Type} (d : Decoder α) : Decoder (List α) := fun depth cs =>
  match skipSpace cs with
  | [] => .error .unfinished
  | '[' :: rest =>
    match depth with
    | 0 => .error .malformed
    | depth + 1 => items (d depth) rest
  | cs => .error (wrongKind cs)

/-! ## Choices -/

/-- The value that a name stands for. -/
def lookupName {α : Type} (names : List (String × α)) (s : String) : Except Fault α :=
  match names.find? (fun n => n.1 = s) with
  | some n => .ok n.2
  | none => .error .mismatch

/-- `null`, and nothing else. -/
def unit : Step Unit := fun cs =>
  match skipSpace cs with
  | [] => .error .unfinished
  | 'n' :: rest => keyword "ull".toList rest
  | cs => .error (wrongKind cs)

/-- One of some names, as a string or as the only name of an object over `null`. -/
def oneOf {α : Type} (names : List (String × α)) : Decoder α := fun depth cs =>
  match skipSpace cs with
  | [] => .error .unfinished
  | '"' :: rest =>
    match stringTail rest with
    | .error f => .error f
    | .ok (s, rest) =>
      match lookupName names s with
      | .ok a => .ok (a, rest)
      | .error f => .error f
  | '\x7b' :: rest =>
    if depth = 0 then .error .malformed
    else
      match string 0 rest with
      | .error f => .error f
      | .ok (s, rest) =>
        match lookupName names s with
        | .error f => .error f
        | .ok a =>
          match colon rest with
          | .error f => .error f
          | .ok (_, rest) =>
            match unit rest with
            | .error f => .error f
            | .ok (_, rest) =>
              match skipSpace rest with
              | [] => .error .unfinished
              | c :: rest => if c = '\x7d' then .ok (a, rest) else .error .malformed
  | _ => .error .malformed

/-! ## Records -/

/-- A member of a record: its name, whether a draft has it already, and how its
value is read into a draft. -/
structure Member (δ : Type) where
  name : String
  filled : δ → Bool
  read : Decoder (δ → δ)

/-- A field that is read with a decoder and stored in a draft. -/
def Member.of {δ α : Type} (name : String) (get : δ → Option α) (set : δ → α → δ) (d : Decoder α) :
    Member δ :=
  { name
    filled := fun draft => (get draft).isSome
    read := fun depth cs =>
      match d depth cs with
      | .ok (a, rest) => .ok (fun draft => set draft a, rest)
      | .error f => .error f }

/-- How a member of a record is read: a known name may stand once, and the value
of an unknown name is skipped. -/
def recordMember {δ : Type} (fields : List (Member δ)) (depth : Nat) (draft : δ) (name : String) :
    Except Fault (Step δ) :=
  match fields.find? (fun f => f.name = name) with
  | none =>
    .ok fun cs =>
      match skip cs with
      | .ok (_, rest) => .ok (draft, rest)
      | .error f => .error f
  | some field =>
    if field.filled draft then .error .mismatch
    else
      .ok fun cs =>
        match field.read depth cs with
        | .ok (fill, rest) => .ok (fill draft, rest)
        | .error f => .error f

/-- A record written as the list of its values in order; the list may end early. -/
def recordItems {δ : Type} (depth : Nat) : List (Member δ) → Bool → δ → Step δ
  | [], _, draft, cs =>
    match skipSpace cs with
    | [] => .error .unfinished
    | c :: rest => if c = ']' then .ok (draft, rest) else .error .malformed
  | field :: fields, first, draft, cs =>
    match skipSpace cs with
    | [] => .error .unfinished
    | c :: rest =>
      if c = ']' then .ok (draft, rest)
      else
        let next : Except Fault (List Char) :=
          if first then .ok (c :: rest)
          else if c = ',' then
            match skipSpace rest with
            | [] => .error .unfinished
            | d :: more => if d = ']' then .error .malformed else .ok (d :: more)
          else .error .malformed
        match next with
        | .error f => .error f
        | .ok cs =>
          match field.read depth cs with
          | .error f => .error f
          | .ok (fill, rest) => recordItems depth fields false (fill draft) rest

/-- A record: an object with the given members, or the list of their values.
`finish` turns a draft into the record and supplies what was left out. -/
def record {δ α : Type} (fields : List (Member δ)) (start : δ) (finish : δ → Except Fault α) :
    Decoder α := fun depth cs =>
  let complete (r : Except Fault (δ × List Char)) : Except Fault (α × List Char) :=
    match r with
    | .error f => .error f
    | .ok (draft, rest) =>
      match finish draft with
      | .ok a => .ok (a, rest)
      | .error f => .error f
  match skipSpace cs with
  | [] => .error .unfinished
  | '\x7b' :: rest =>
    match depth with
    | 0 => .error .malformed
    | depth + 1 => complete (members (recordMember fields depth) start rest)
  | '[' :: rest =>
    match depth with
    | 0 => .error .malformed
    | depth + 1 => complete (recordItems depth fields true start rest)
  | cs => .error (wrongKind cs)

/-- What a required member must supply. -/
def required {α : Type} : Option α → Except Fault α
  | some a => .ok a
  | none => .error .mismatch

/-! ## Whole texts -/

/-- Decodes a text that holds one value and nothing else. -/
def decodeChars {α : Type} (d : Decoder α) (cs : List Char) : Except Fault α :=
  match d maxDepth cs with
  | .error f => .error f
  | .ok (a, rest) => if (skipSpace rest).isEmpty then .ok a else .error .malformed

/-- Decodes a text that holds one value and nothing else. -/
def decode {α : Type} (d : Decoder α) (text : String) : Except Fault α :=
  decodeChars d text.toList

end LintRelay.Json
