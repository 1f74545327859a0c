set_option autoImplicit false

/-!
# Text: parts and digits

What more than one format asks of characters: whether a text occurs in them, and
which number they stand for as digits.
-/

namespace LintRelay.Text

/-- The part stands somewhere in the characters. -/
def occurs (part : List Char) : List Char → Bool
  | [] => part.isEmpty
  | c :: cs => part.isPrefixOf (c :: cs) || occurs part cs

/-! ## Digits -/

/-- The value of a digit in a base of at most sixteen; letters count in both cases. -/
def digit? (base : Nat) (c : Char) : Option Nat :=
  let value : Option Nat :=
    if '0' ≤ c && c ≤ '9' then some (c.toNat - 48)
    else if 'a' ≤ c && c ≤ 'f' then some (c.toNat - 87)
    else if 'A' ≤ c && c ≤ 'F' then some (c.toNat - 55)
    else none
  value.filter (· < base)

/-- The value of digits, continued from the digits before them. -/
def digitsFrom? (base : Nat) : Nat → List Char → Option Nat
  | n, [] => some n
  | n, c :: cs =>
    match digit? base c with
    | some d => digitsFrom? base (n * base + d) cs
    | none => none

/-- The value of one or more digits. -/
def number? (base : Nat) (cs : List Char) : Option Nat :=
  if cs.isEmpty then none else digitsFrom? base 0 cs

end LintRelay.Text
