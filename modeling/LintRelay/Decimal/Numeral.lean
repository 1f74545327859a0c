import LintRelay.Decimal.Shortest
set_option autoImplicit false

/-!
# Decimals: number text

Floats are written with the fewest digits that read back.  A first digit worth
`10^-5` up to `10^15` gives positional notation with at least one digit after the
point; any other gives one digit before the point, and an exponent whose sign is
always written when it is positive.
-/

namespace LintRelay.Decimal

/-- Digits of a number in base ten. -/
def natChars (n : Nat) : List Char := Nat.toDigits 10 n

/-- Digits of a number in base ten, as text. -/
def natText (n : Nat) : String := String.ofList (natChars n)

/-- An integer in base ten. -/
def intChars (i : Int) : List Char :=
  match i with
  | .ofNat n => natChars n
  | .negSucc n => '-' :: natChars (n + 1)

/-- Which exponents of the first digit are written positionally. -/
structure Style where
  lowest : Int
  highest : Int
  deriving DecidableEq, Repr

/-- Numbers from `0.00001` to below `10^16` are written positionally. -/
def jsonStyle : Style := ⟨-5, 15⟩

/-- Digits before and after the point. -/
def positional (digits : List Char) (first : Int) : List Char :=
  if first < 0 then
    '0' :: '.' :: (List.replicate ((-first).toNat - 1) '0' ++ digits)
  else
    let whole := first.toNat + 1
    let padded := digits ++ List.replicate (whole - digits.length) '0'
    let after := padded.drop whole
    padded.take whole ++ '.' :: (if after.isEmpty then ['0'] else after)

/-- One digit before the point, and an exponent. -/
def scientific (digits : List Char) (first : Int) : List Char :=
  let sign := if first < 0 then '-' else '+'
  let mantissa :=
    match digits with
    | [] => ['0']
    | [d] => [d]
    | d :: more => d :: '.' :: more
  mantissa ++ 'e' :: sign :: natChars first.natAbs

/-- The text of a decimal in a style. -/
def Digits.chars (style : Style) (d : Digits) : List Char :=
  let digits := natChars d.digits
  let first := d.exponent + digits.length - 1
  if style.lowest ≤ first && first ≤ style.highest then positional digits first
  else scientific digits first

/-- The text of a finite float. -/
def floatChars (x : Float) : List Char :=
  let bits := x.toBits.toNat
  let size := bits % twoTo 63
  let sign := if twoTo 63 ≤ bits then ['-'] else []
  sign ++ (if size = 0 then "0.0".toList else (shortest size).chars jsonStyle)

end LintRelay.Decimal
