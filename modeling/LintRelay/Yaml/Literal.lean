import LintRelay.Decimal.Nearest
import LintRelay.Text.Basic
set_option autoImplicit false

/-!
# YAML: literals

Which plain scalars read as nothing, as truth values and as numbers.  A number
with a leading zero that has only digits is a text.
-/

namespace LintRelay.Yaml

/-- The text stands for nothing. -/
def isNull (s : String) : Bool := s = "null" || s = "Null" || s = "NULL" || s = "~"

/-- The truth value that a text stands for. -/
def bool? (s : String) : Option Bool :=
  if s = "true" || s = "True" || s = "TRUE" then some true
  else if s = "false" || s = "False" || s = "FALSE" then some false
  else none

/-! ## Integers -/

/-- The characters behind a sign, if there is one. -/
def dropSign : List Char → List Char
  | '+' :: cs => cs
  | '-' :: cs => cs
  | cs => cs

/-- Two or more digits of which the first is a zero. -/
def isPadded (cs : List Char) : Bool :=
  match dropSign cs with
  | '0' :: c :: cs => (c :: cs).all Char.isDigit
  | _ => false

/-- Digits with the mark of their base in front. -/
def magnitude? : List Char → Option Nat
  | '0' :: 'x' :: cs => Text.number? 16 cs
  | '0' :: 'o' :: cs => Text.number? 8 cs
  | '0' :: 'b' :: cs => Text.number? 2 cs
  | cs => if isPadded cs then none else Text.number? 10 cs

/-- The natural number that a text stands for. -/
def nat? (s : String) : Option Nat :=
  match s.toList with
  | '+' :: cs => magnitude? cs
  | cs => magnitude? cs

/-- The integer that a text stands for. -/
def int? (s : String) : Option Int :=
  match s.toList with
  | '-' :: cs => (magnitude? cs).map fun n => -(n : Int)
  | _ => (nat? s).map Int.ofNat

/-! ## Floats -/

/-- A decimal number without a sign, as digits and a power of ten. -/
def decimal? (cs : List Char) : Option (Nat × Int) :=
  let whole := cs.takeWhile Char.isDigit
  let rest := cs.drop whole.length
  let fraction := match rest with
    | '.' :: rest => rest.takeWhile Char.isDigit
    | _ => []
  let rest := match rest with
    | '.' :: rest => rest.drop fraction.length
    | rest => rest
  let exponent? : Option Int :=
    match rest with
    | [] => some 0
    | e :: rest =>
      if e = 'e' || e = 'E' then
        match rest with
        | '-' :: cs => (Text.number? 10 cs).map fun n => -(n : Int)
        | '+' :: cs => (Text.number? 10 cs).map Int.ofNat
        | cs => (Text.number? 10 cs).map Int.ofNat
      else none
  match Text.number? 10 (whole ++ fraction), exponent? with
  | some n, some e => some (n, e - fraction.length)
  | _, _ => none

/-- The finite float that a decimal number stands for. -/
def finite? (cs : List Char) : Option Float :=
  let read (cs : List Char) : Option Float := (decimal? cs).bind fun d => Decimal.nearest d.1 d.2
  match cs with
  | '-' :: cs => (read cs).map fun x => -x
  | cs => read cs

/-- The float that a text stands for, with the names of the infinities and of no
number. -/
def float? (s : String) : Option Float :=
  let isInfinity (s : String) : Bool := s = ".inf" || s = ".Inf" || s = ".INF"
  if isInfinity s || s = "+.inf" || s = "+.Inf" || s = "+.INF" then some (1.0 / 0.0)
  else if s = "-.inf" || s = "-.Inf" || s = "-.INF" then some (-1.0 / 0.0)
  else if s = ".nan" || s = ".NaN" || s = ".NAN" then some (0.0 / 0.0)
  else
    match s.toList with
    | '+' :: '-' :: _ => none
    | '+' :: cs => finite? cs
    | cs => finite? cs

end LintRelay.Yaml
