import LintRelay.Decimal.Power
set_option autoImplicit false

/-!
# Decimals: the nearest float

The float nearest to a decimal `n · 10^e`, a half going to the even neighbour.
The quotient is rounded once, in exact arithmetic on natural numbers.
-/

namespace LintRelay.Decimal

/-- A quotient rounded to the nearest natural number, a half to the even one. -/
def roundQuotient (num den : Nat) : Nat :=
  let below := num / den
  let twice := 2 * (num % den)
  if twice < den then below
  else if den < twice then below + 1
  else if below % 2 = 0 then below else below + 1

/-- The exponent of the first binary digit of a positive quotient. -/
def binaryExponent (num den : Nat) : Int :=
  let guess := (num.log2 : Int) - den.log2
  if num * twoTo (-guess).toNat < den * twoTo guess.toNat then guess - 1 else guess

/-- The bits of the float nearest to a positive quotient; past the largest float
they are the bits of infinity or more. -/
def quotientBits (num den : Nat) : Nat :=
  let unit := max (binaryExponent num den - 52) (-1074)
  (unit + 1074).toNat * twoTo 52 + roundQuotient (num * twoTo (-unit).toNat) (den * twoTo unit.toNat)

/-- The bits of infinity. -/
def infinityBits : Nat := 2047 * twoTo 52

/-- The finite float nearest to `n · 10^e`, if there is one. -/
def nearest (n : Nat) (e : Int) : Option Float :=
  let size := ((Nat.toDigits 10 n).length : Int) + e
  if n = 0 then some 0.0
  else if size < -330 then some 0.0
  else if 310 < size then none
  else
    let bits := quotientBits (n * tenTo e.toNat) (tenTo (-e).toNat)
    if bits < infinityBits then some (Float.ofBits bits.toUInt64) else none

end LintRelay.Decimal
