import LintRelay.Decimal.Power
set_option autoImplicit false

/-!
# Decimals: the fewest digits that read back

A finite float is `m · 2^q`.  The reals that round to it form an interval around
it, whose ends belong to it exactly when `m` is even.  Of the decimals with one
digit, then two, and so on up to seventeen, the first grid with a point in the
interval wins; of two points the nearer one, and of two points equally near the
even one.  All of it is exact arithmetic on natural numbers.
-/

namespace LintRelay.Decimal

/-- A positive float as `mantissa · 2^exponent`; `narrow` says that the interval
below the value has half the width of the one above it. -/
structure Binary where
  mantissa : Nat
  exponent : Int
  narrow : Bool
  deriving DecidableEq, Repr, Inhabited

/-- The parts of the bits of a finite float, its sign aside. -/
def Binary.ofBits (bits : Nat) : Binary :=
  let fraction : Nat := bits % twoTo 52
  let biased : Nat := bits / twoTo 52 % twoTo 11
  if biased = 0 then ⟨fraction, -1074, false⟩
  else ⟨twoTo 52 + fraction, (biased : Int) - 1075, fraction = 0 && 1 < biased⟩

/-- A value and the ends of its interval, over one denominator. -/
structure Interval where
  low : Nat
  value : Nat
  high : Nat
  denominator : Nat
  closed : Bool
  deriving DecidableEq, Repr, Inhabited

/-- The interval of the reals that round to a value. -/
def Binary.interval (b : Binary) : Interval :=
  let up := (b.exponent - 2).toNat
  let down := (2 - b.exponent).toNat
  let scale := twoTo up
  { low := (4 * b.mantissa - if b.narrow then 1 else 2) * scale
    value := 4 * b.mantissa * scale
    high := (4 * b.mantissa + 2) * scale
    denominator := twoTo down
    closed := b.mantissa % 2 = 0 }

/-- `n · 10^e` lies in the interval. -/
def Interval.holds (i : Interval) (n : Nat) (e : Int) : Bool :=
  let left := n * tenTo e.toNat * i.denominator
  let scale := tenTo (-e).toNat
  if i.closed then i.low * scale ≤ left && left ≤ i.high * scale
  else i.low * scale < left && left < i.high * scale

/-- The value is at least `10^e`. -/
def Interval.reaches (i : Interval) (e : Int) : Bool :=
  tenTo e.toNat * i.denominator ≤ i.value * tenTo (-e).toNat

/-- Raises a decimal exponent as long as the value reaches the next power. -/
def Interval.raise (i : Interval) : Nat → Int → Int
  | 0, e => e
  | fuel + 1, e => if i.reaches (e + 1) then i.raise fuel (e + 1) else e

/-- The exponent of the first decimal digit of the value. -/
def Interval.firstExponent (i : Interval) : Int :=
  let bits := (i.value.log2 : Int) - i.denominator.log2
  i.raise 5 (bits * 30103 / 100000 - 2)

/-- A decimal `digits · 10^exponent`. -/
structure Digits where
  digits : Nat
  exponent : Int
  deriving DecidableEq, Repr, Inhabited

/-- The best point of the grid `10^e` in the interval, if there is one. -/
def Interval.bestOn (i : Interval) (e : Int) : Option Nat :=
  let num := i.value * tenTo (-e).toNat
  let den := i.denominator * tenTo e.toNat
  let below := num / den
  let rest := num % den
  match i.holds below e, i.holds (below + 1) e with
  | true, true =>
    if 2 * rest < den then some below
    else if 2 * rest > den then some (below + 1)
    else if below % 2 = 0 then some below else some (below + 1)
  | true, false => some below
  | false, true => some (below + 1)
  | false, false => none

/-- Tries the grids from the given exponent downwards. -/
def Interval.search (i : Interval) : Nat → Int → Digits
  | 0, e => ⟨(i.value * tenTo (-e).toNat) / (i.denominator * tenTo e.toNat), e⟩
  | fuel + 1, e =>
    match i.bestOn e with
    | some n => ⟨n, e⟩
    | none => i.search fuel (e - 1)

/-- Removes zeros at the end of the digits. -/
def Digits.strip : Nat → Digits → Digits
  | 0, d => d
  | fuel + 1, d =>
    if d.digits % 10 = 0 && d.digits ≠ 0 then Digits.strip fuel ⟨d.digits / 10, d.exponent + 1⟩ else d

/-- The shortest decimal of a positive finite float given by its bits. -/
def shortest (bits : Nat) : Digits :=
  let i := (Binary.ofBits bits).interval
  Digits.strip 20 (i.search 17 i.firstExponent)

end LintRelay.Decimal
