set_option autoImplicit false

/-!
# JSON: values

A JSON value with integers and floats kept apart, and objects as lists of
members.  A value that was read from a free-form place has its members in
increasing order of their names, each name once.
-/

namespace LintRelay.Json

/-- A JSON value. -/
inductive Value where
  | null
  | bool (b : Bool)
  | int (i : Int)
  | float (x : Float)
  | string (s : String)
  | array (items : List Value)
  | object (members : List (String × Value))
  deriving Inhabited

/-- A member put into its place among sorted members; an equal name is replaced. -/
def insertMember (name : String) (v : Value) : List (String × Value) → List (String × Value)
  | [] => [(name, v)]
  | (n, w) :: rest =>
    if name = n then (name, v) :: rest
    else if name < n then (name, v) :: (n, w) :: rest
    else (n, w) :: insertMember name v rest

/-- Members in increasing order of their names, the last of equal names winning. -/
def sortMembers (members : List (String × Value)) : List (String × Value) :=
  members.foldl (fun acc m => insertMember m.1 m.2 acc) []

/-- A list of texts as a value. -/
def strings (items : List String) : Value := .array (items.map .string)

/-- An optional value; `null` when it is absent. -/
def optional {α : Type} (f : α → Value) : Option α → Value
  | none => .null
  | some a => f a

/-- A natural number as a value. -/
def nat (n : Nat) : Value := .int n

end LintRelay.Json
