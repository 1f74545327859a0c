import LintRelay.Json.Value
import LintRelay.Decimal.Numeral
set_option autoImplicit false

/-!
# JSON: writing

The compact form has no blanks.  The indented form puts every item of a
non-empty container on a line of its own, two blanks deeper than the container.
Inside a string only the quote, the backslash and the characters below `U+0020`
are escaped.  A float that is not finite is written `null`.
-/

namespace LintRelay.Json

/-- A hexadecimal digit. -/
def hexDigit (n : Nat) : Char := (Nat.toDigits 16 (n % 16)).headD '0'

/-- The form of one character inside a string. -/
def escapeChar (c : Char) : List Char :=
  if c = '"' then ['\\', '"']
  else if c = '\\' then ['\\', '\\']
  else if 0x20 ≤ c.toNat then [c]
  else if c.toNat = 8 then ['\\', 'b']
  else if c.toNat = 9 then ['\\', 't']
  else if c.toNat = 10 then ['\\', 'n']
  else if c.toNat = 12 then ['\\', 'f']
  else if c.toNat = 13 then ['\\', 'r']
  else ['\\', 'u', '0', '0', hexDigit (c.toNat / 16), hexDigit c.toNat]

/-- A string between its quotes. -/
def stringChars (s : String) : List Char :=
  '"' :: (s.toList.flatMap escapeChar ++ ['"'])

/-- A float, or `null` when it is not finite. -/
def numberChars (x : Float) : List Char :=
  if x.isFinite then Decimal.floatChars x else "null".toList

mutual

/-- The compact form of a value. -/
def Value.chars : Value → List Char
  | .null => "null".toList
  | .bool b => (if b then "true" else "false").toList
  | .int i => Decimal.intChars i
  | .float x => numberChars x
  | .string s => stringChars s
  | .array items => '[' :: itemsChars items
  | .object members => '\x7b' :: membersChars members

/-- Items and the closing bracket. -/
def itemsChars : List Value → List Char
  | [] => [']']
  | [v] => v.chars ++ [']']
  | v :: rest => v.chars ++ ',' :: itemsChars rest

/-- Members and the closing brace. -/
def membersChars : List (String × Value) → List Char
  | [] => ['\x7d']
  | [(n, v)] => stringChars n ++ ':' :: (v.chars ++ ['\x7d'])
  | (n, v) :: rest => stringChars n ++ ':' :: (v.chars ++ ',' :: membersChars rest)

end

/-- The compact text of a value. -/
def Value.compact (v : Value) : String := String.ofList v.chars

/-- A new line at a depth. -/
def lineStart (depth : Nat) : List Char := '\n' :: List.replicate (2 * depth) ' '

mutual

/-- The indented form of a value at a depth. -/
def Value.indentedChars (depth : Nat) : Value → List Char
  | .array [] => ['[', ']']
  | .array items => '[' :: indentedItems depth items
  | .object [] => ['\x7b', '\x7d']
  | .object members => '\x7b' :: indentedMembers depth members
  | v => v.chars

/-- Items on lines of their own, and the closing bracket. -/
def indentedItems (depth : Nat) : List Value → List Char
  | [] => [']']
  | [v] => lineStart (depth + 1) ++ v.indentedChars (depth + 1) ++ lineStart depth ++ [']']
  | v :: rest =>
    lineStart (depth + 1) ++ v.indentedChars (depth + 1) ++ ',' :: indentedItems depth rest

/-- Members on lines of their own, and the closing brace. -/
def indentedMembers (depth : Nat) : List (String × Value) → List Char
  | [] => ['\x7d']
  | [(n, v)] =>
    lineStart (depth + 1) ++ stringChars n ++ ':' :: ' ' ::
      (v.indentedChars (depth + 1) ++ lineStart depth ++ ['\x7d'])
  | (n, v) :: rest =>
    lineStart (depth + 1) ++ stringChars n ++ ':' :: ' ' ::
      (v.indentedChars (depth + 1) ++ ',' :: indentedMembers depth rest)

end

/-- The text of a value with two blanks for each depth. -/
def Value.indented (v : Value) : String := String.ofList (v.indentedChars 0)

end LintRelay.Json
