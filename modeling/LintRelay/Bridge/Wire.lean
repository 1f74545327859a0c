import LintRelay.Bridge.Address
import LintRelay.Bridge.Host
import LintRelay.Report.Basic
import LintRelay.Text.Blank
set_option autoImplicit false

/-!
# Messages on the wire

A request is written as a head of lines and a body, and says that the connection
is to be closed behind the answer.  An answer is read from the bytes that have
arrived so far: it is whole when its body has the announced length, when the last
of its chunks is there, or when the connection has ended.
-/

namespace LintRelay.Bridge.Wire

open LintRelay.Text (Bytes)

/-! ## Requests -/

/-- The end of a line of a head. -/
def lineEnd : String := "\r\n"

/-- The host and the port of an origin. -/
def authority (origin : String) : String :=
  String.ofList ((origin.toList.dropWhile (· ≠ ':')).drop 3)

/-- The lines of the head of a request. -/
def headLines (m : Message) : List String :=
  let length := (m.body.map fun b => (Text.utf8 b).length).getD 0
  [m.method.name ++ " " ++ m.target ++ " HTTP/1.1", "host: " ++ authority m.origin,
    "user-agent: lintbridge/" ++ RunReport.programVersion, "accept: */*",
    "connection: close"] ++
    (if m.body.isSome then ["content-type: application/json"] else []) ++
    (if m.body.isSome || m.method = .post then ["content-length: " ++ toString length] else [])

/-- A request as it is sent. -/
def request (m : Message) : Bytes :=
  Text.utf8 (String.join ((headLines m).map (· ++ lineEnd)) ++ lineEnd ++ m.body.getD "")

/-! ## Answers -/

/-- What the bytes of an answer amount to. -/
inductive Reading where
  /-- More has to arrive. -/
  | partly
  | wrong
  | whole (status : Nat) (body : Bytes)
  deriving DecidableEq, Repr, Inhabited

/-- Splits at the first end of a line; `none` when there is none. -/
def cutLine (line : Bytes) : Bytes → Option (Bytes × Bytes)
  | 13 :: 10 :: rest => some (line.reverse, rest)
  | b :: rest => cutLine (b :: line) rest
  | [] => none

/-- The lines of a head up to the empty one, and the bytes behind it. -/
def cutHead : Nat → Bytes → Option (List Bytes × Bytes)
  | 0, _ => none
  | fuel + 1, bytes =>
    match cutLine [] bytes with
    | none => none
    | some ([], rest) => some ([], rest)
    | some (line, rest) =>
      match cutHead fuel rest with
      | none => none
      | some (lines, rest) => some (line :: lines, rest)

/-- The status in the first line of an answer. -/
def status? (line : Bytes) : Option Nat :=
  let cs := (Text.decodeLossy line).toList
  let digits := ((cs.dropWhile (· ≠ ' ')).drop 1).takeWhile Char.isDigit
  if "HTTP/1.".toList.isPrefixOf cs && digits.length = 3 then Text.number? 10 digits else none

/-- The value of a line of the head with a name in small letters. -/
def field? (name : String) (lines : List Bytes) : Option String :=
  lines.findSome? fun line =>
    let cs := (Text.decodeLossy line).toList
    let label := cs.takeWhile (· ≠ ':')
    if label.map Char.toLower = name.toList then
      some (Text.trim (String.ofList (cs.drop (label.length + 1))))
    else none

/-- Joins the chunks of a body. -/
def chunks (status : Nat) : Nat → Bytes → Bytes → Reading
  | 0, _, _ => .wrong
  | fuel + 1, body, bytes =>
    match cutLine [] bytes with
    | none => .partly
    | some (line, rest) =>
      let digits := (Text.decodeLossy line).toList.takeWhile fun c => c ≠ ';' && c ≠ ' '
      match Text.number? 16 digits with
      | none => .wrong
      | some 0 =>
        match cutHead (rest.length + 1) rest with
        | none => .partly
        | some _ => .whole status body
      | some size =>
        if rest.length < size + 2 then .partly
        else chunks status fuel (body ++ rest.take size) (rest.drop (size + 2))

/-- An answer with this status has no body. -/
def isBodiless (status : Nat) : Bool := status < 200 || status = 204 || status = 304

/-- Reads an answer; `ended` says that nothing more will arrive. -/
def read (ended : Bool) (bytes : Bytes) : Reading :=
  let missing : Reading := if ended then .wrong else .partly
  match cutHead (bytes.length + 1) bytes with
  | some (first :: lines, rest) =>
    match status? first with
    | none => .wrong
    | some status =>
      if isBodiless status then .whole status []
      else if (field? "transfer-encoding" lines).map String.toLower = some "chunked" then
        match chunks status (rest.length + 1) [] rest with
        | .partly => missing
        | reading => reading
      else
        match field? "content-length" lines with
        | some length =>
          match Text.number? 10 length.toList with
          | none => .wrong
          | some n => if rest.length < n then missing else .whole status (rest.take n)
        | none => if ended then .whole status rest else .partly
  | some ([], _) => .wrong
  | none => missing

/-- The text of a body.  Bridges write UTF-8, perhaps with a mark in front; another
encoding that a head may announce is not looked at here. -/
def bodyText (body : Bytes) : String := Text.decodeLossy (Text.withoutMark body)

/-- How an exchange ends with a reading, when it can end. -/
def Reading.outcome? : Reading → Option Outcome
  | .partly => none
  | .wrong => some (.broken "error reading the response")
  | .whole status body => some (.reply status (bodyText body))

end LintRelay.Bridge.Wire
