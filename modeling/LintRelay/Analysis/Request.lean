import LintRelay.Language
import LintRelay.Path
import LintRelay.Json.Decoder
import LintRelay.Json.Writer
set_option autoImplicit false

/-!
# Requests to the engine

The rules that the engine activates, and the request that has it analyze one
file.  The language of a request decides the endpoint and is not part of the body.
-/

namespace LintRelay

open Json (Value Decoder Fault Member)

/-- A rule that is active in a run, with its parameters. -/
structure Rule where
  key : String
  configurations : List Value
  deriving Inhabited

namespace Rule

/-- The rule as a JSON value. -/
def toValue (r : Rule) : Value :=
  .object [("key", .string r.key), ("configurations", .array r.configurations)]

/-- What has been read of a rule. -/
structure Draft where
  key : Option String
  configurations : Option (List Value)

/-- The members of a rule. -/
def fields : List (Member Draft) :=
  [Member.of "key" Draft.key (fun d a => { d with key := some a }) Json.string,
   Member.of "configurations" Draft.configurations
     (fun d a => { d with configurations := some a }) (Json.list Json.value)]

/-- A rule needs a key. -/
def finish (d : Draft) : Except Fault Rule :=
  match Json.required d.key with
  | .ok key => .ok ⟨key, d.configurations.getD []⟩
  | .error f => .error f

/-- Reads a rule. -/
def decoder : Decoder Rule := Json.record fields ⟨none, none⟩ finish

end Rule

/-- One file to analyze. -/
structure Request where
  language : Language
  filePath : Path
  fileKind : FileKind
  /-- The text to analyze instead of what is on disk. -/
  content : Option String
  ignoreHeaderComments : Bool
  /-- Configurations to analyze the file with. -/
  configs : List String
  deriving DecidableEq, Repr, Inhabited

namespace Request

/-- The body of a request; an absent content is left out. -/
def toValue (r : Request) : Value :=
  .object
    ([("filePath", .string r.filePath.text), ("fileType", .string r.fileKind.name)] ++
      (match r.content with
       | some text => [("fileContent", .string text)]
       | none => []) ++
      [("ignoreHeaderComments", .bool r.ignoreHeaderComments),
       ("tsConfigs", Json.strings r.configs)])

/-- The text of the body. -/
def body (r : Request) : String := r.toValue.compact

end Request

end LintRelay
