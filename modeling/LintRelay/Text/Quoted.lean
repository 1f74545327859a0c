import LintRelay.Text.Markless
set_option autoImplicit false

/-!
# Text: quotations

How a message quotes a text given by the user: between double quotes, with the
quote and the backslash escaped, the usual letters for tab, return, newline and
null, and `\u` with the code point in braces for every other character that
leaves no mark of its own.
-/

namespace LintRelay.Text

/-- Digits of a number in lower-case hexadecimal, without leading zeros. -/
def hexDigits (n : Nat) : List Char := Nat.toDigits 16 n

/-- The form of one character inside a quotation. -/
def quoteChar (c : Char) : List Char :=
  if c == '"' then ['\\', '"']
  else if c == '\\' then ['\\', '\\']
  else if c == '\t' then ['\\', 't']
  else if c == '\r' then ['\\', 'r']
  else if c == '\n' then ['\\', 'n']
  else if c.toNat == 0 then ['\\', '0']
  else if c.toNat < 0x20 || c.toNat == 0x7F || (0x80 ≤ c.toNat && inRanges markless c.toNat) then
    ['\\', 'u', '\x7b'] ++ hexDigits c.toNat ++ ['\x7d']
  else [c]

/-- A text between double quotes. -/
def quoted (s : String) : String :=
  String.ofList ('"' :: (s.toList.flatMap quoteChar ++ ['"']))

/-- A list of texts between square brackets, each one quoted. -/
def quotedList (items : List String) : String :=
  "[" ++ String.intercalate ", " (items.map quoted) ++ "]"

end LintRelay.Text
