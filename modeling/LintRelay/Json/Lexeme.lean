import LintRelay.Json.Value
import LintRelay.Text.Basic
set_option autoImplicit false

/-!
# JSON: lexemes

Step readers for blanks, keywords, numbers and strings.  A step reader consumes a
prefix of the characters and returns the rest, or the first fault in text order.

An integer that fits 64 bits stays an integer.  Any other number is a float,
computed from the digits that fit 64 bits and a power of ten with one rounding
for the digits and one for the scaling; a number too large for a float is
malformed.
-/

namespace LintRelay.Json

/-- Why a text does not give a value of the expected kind. -/
inductive Fault where
  /-- The text is no JSON. -/
  | malformed
  /-- The text ends before the value does. -/
  | unfinished
  /-- The text is JSON, but the value is not of the expected kind. -/
  | mismatch
  deriving DecidableEq, Repr, Inhabited

/-- The wording of a fault. -/
def Fault.message : Fault → String
  | .malformed => "the text is not JSON"
  | .unfinished => "the text ends before the value does"
  | .mismatch => "the value is of another kind"

/-- A step reader. -/
abbrev Step (α : Type) : Type := List Char → Except Fault (α × List Char)

/-- The characters that may stand between lexemes. -/
def isSpace (c : Char) : Bool := c = ' ' || c = '\n' || c = '\t' || c = '\r'

/-- The characters from the next lexeme on. -/
def skipSpace (cs : List Char) : List Char := cs.dropWhile isSpace

/-- Exactly the given characters. -/
def keyword : List Char → Step Unit
  | [], cs => .ok ((), cs)
  | _ :: _, [] => .error .unfinished
  | k :: ks, c :: cs => if k = c then keyword ks cs else .error .malformed

/-! ## Numbers -/

/-- A number as it was written: an integer of 64 bits, or a float. -/
inductive Number where
  | int (i : Int)
  | float (x : Float)
  deriving Inhabited

/-- The value of a decimal digit. -/
def digit? (c : Char) : Option Nat := Text.digit? 10 c

/-- The text starts with a digit. -/
def startsWithDigit : List Char → Bool
  | [] => false
  | c :: _ => (digit? c).isSome

/-- The largest significand that is kept. -/
def maxSignificand : Nat := 18446744073709551615

/-- The characters behind a run of digits. -/
def dropDigits (cs : List Char) : List Char := cs.dropWhile fun c => (digit? c).isSome

/-- Digits in front of the point: the significand, how many digits no longer
fitted into it, and the rest. -/
def wholeDigits (significand : Nat) : List Char → Nat × Nat × List Char
  | [] => (significand, 0, [])
  | c :: cs =>
    match digit? c with
    | none => (significand, 0, c :: cs)
    | some d =>
      if significand * 10 + d ≤ maxSignificand then wholeDigits (significand * 10 + d) cs
      else
        let rest := dropDigits (c :: cs)
        (significand, (c :: cs).length - rest.length, rest)

/-- Digits behind the point: the significand, how many digits went into it, and
the rest.  Digits that no longer fit are dropped. -/
def fractionDigits (significand taken : Nat) : List Char → Nat × Nat × List Char
  | [] => (significand, taken, [])
  | c :: cs =>
    match digit? c with
    | none => (significand, taken, c :: cs)
    | some d =>
      if significand * 10 + d ≤ maxSignificand then
        fractionDigits (significand * 10 + d) (taken + 1) cs
      else (significand, taken, dropDigits (c :: cs))

/-- The largest exponent that is told apart from larger ones. -/
def maxExponent : Nat := 2147483647

/-- Digits of an exponent; `none` when it is past the largest one. -/
def exponentDigits (e : Nat) : List Char → Option Nat × List Char
  | [] => (some e, [])
  | c :: cs =>
    match digit? c with
    | none => (some e, c :: cs)
    | some d =>
      if e * 10 + d ≤ maxExponent then exponentDigits (e * 10 + d) cs
      else (none, dropDigits cs)

/-- Ten to a power between 0 and 308. -/
def powerOfTen (n : Nat) : Float := Float.ofScientific 1 false n

/-- Scales down by powers of ten as long as the exponent is out of the table. -/
def scaleDown (x : Float) : Nat → Int → Float
  | 0, _ => 0.0
  | fuel + 1, e =>
    if -308 ≤ e then x / powerOfTen e.natAbs
    else if x == 0.0 then x
    else scaleDown (x / powerOfTen 308) fuel (e + 308)

/-- The float nearest to the significand, scaled by a power of ten. -/
def scaled (significand : Nat) (e : Int) : Except Fault Float :=
  let x := significand.toUInt64.toFloat
  if 0 ≤ e then
    if e ≤ 308 then
      let y := x * powerOfTen e.natAbs
      if y.isInf then .error .malformed else .ok y
    else if significand = 0 then .ok x
    else .error .malformed
  else .ok (scaleDown x 8 e)

/-- A float with its sign. -/
def signed (negative : Bool) (x : Float) : Float := if negative then -x else x

/-- An exponent held within 32 bits. -/
def clampExponent (e : Int) : Int := max (-2147483648) (min 2147483647 e)

/-- Scales and signs a significand. -/
def floatOf (negative : Bool) (significand : Nat) (e : Int) : Except Fault Number :=
  match scaled significand e with
  | .ok x => .ok (.float (signed negative x))
  | .error f => .error f

/-- What follows the letter of an exponent. -/
def exponentPart (negative : Bool) (significand : Nat) (start : Int) : Step Number := fun cs =>
  let (down, cs) :=
    match cs with
    | '+' :: cs => (false, cs)
    | '-' :: cs => (true, cs)
    | cs => (false, cs)
  match cs with
  | [] => .error .unfinished
  | c :: rest =>
    match digit? c with
    | none => .error .malformed
    | some d =>
      match exponentDigits d rest with
      | (some e, rest) =>
        match floatOf negative significand (clampExponent (if down then start - e else start + e)) with
        | .ok x => .ok (x, rest)
        | .error f => .error f
      | (none, rest) =>
        if significand ≠ 0 && !down then .error .malformed
        else .ok (.float (signed negative 0.0), rest)

/-- A float without an exponent, or with the exponent that follows. -/
def floatTail (negative : Bool) (significand : Nat) (e : Int) : Step Number := fun cs =>
  match cs with
  | 'e' :: rest => exponentPart negative significand e rest
  | 'E' :: rest => exponentPart negative significand e rest
  | cs =>
    match floatOf negative significand e with
    | .ok x => .ok (x, cs)
    | .error f => .error f

/-- What follows the point. -/
def fractionPart (negative : Bool) (significand dropped : Nat) : Step Number := fun cs =>
  match cs with
  | [] => .error .unfinished
  | cs =>
    if startsWithDigit cs then
      let (significand, taken, rest) := fractionDigits significand 0 cs
      floatTail negative significand ((dropped : Int) - taken) rest
    else .error .malformed

/-- An integer that fits 64 bits, else a float; minus zero is a float. -/
def integer (negative : Bool) (significand : Nat) : Number :=
  if !negative then .int significand
  else if significand = 0 || 9223372036854775808 < significand then .float (-(significand.toUInt64.toFloat))
  else .int (-(significand : Int))

/-- What follows the digits in front of the point. -/
def numberTail (negative : Bool) (significand dropped : Nat) : Step Number := fun cs =>
  match cs with
  | '.' :: rest => fractionPart negative significand dropped rest
  | cs =>
    match cs with
    | 'e' :: _ => floatTail negative significand dropped cs
    | 'E' :: _ => floatTail negative significand dropped cs
    | _ =>
      if dropped = 0 then .ok (integer negative significand, cs)
      else floatTail negative significand dropped cs

/-- A number behind its sign. -/
def number (negative : Bool) : Step Number
  | [] => .error .unfinished
  | '0' :: cs => if startsWithDigit cs then .error .malformed else numberTail negative 0 0 cs
  | c :: cs =>
    match digit? c with
    | none => .error .malformed
    | some d =>
      let (significand, dropped, rest) := wholeDigits d cs
      numberTail negative significand dropped rest

/-! ## Strings -/

/-- What the next character of a string belongs to. -/
inductive Within where
  /-- The string itself. -/
  | plain
  /-- A backslash has been passed. -/
  | escape
  /-- Inside a code unit of four hexadecimal digits: how many are still missing,
  the value so far, and the leading half of a pair if this is the other one. -/
  | unit (missing value : Nat) (half : Option Nat)
  /-- The leading half of a pair has been read: a backslash must follow. -/
  | pairEscape (half : Nat)
  /-- The leading half of a pair and a backslash: a `u` must follow. -/
  | pairLetter (half : Nat)
  deriving DecidableEq, Repr

/-- The character that a letter behind a backslash stands for. -/
def escaped? (c : Char) : Option Char :=
  if c = '"' || c = '\\' || c = '/' then some c
  else if c = 'b' then some '\x08'
  else if c = 'f' then some '\x0c'
  else if c = 'n' then some '\n'
  else if c = 'r' then some '\r'
  else if c = 't' then some '\t'
  else none

/-- At least the given number of bytes are left. -/
def hasBytes (n : Nat) : List Char → Bool
  | [] => n = 0
  | c :: cs => n ≤ c.utf8Size || hasBytes (n - c.utf8Size) cs

/-- What a complete code unit gives: a character, or the wait for the other half
of a pair.  A half without its other half is a fault where pairs are checked. -/
def completeUnit (strict : Bool) (value : Nat) (half : Option Nat) :
    Except Fault (Option Char × Within) :=
  match half with
  | some h =>
    if 0xDC00 ≤ value && value ≤ 0xDFFF then
      .ok (some (Char.ofNat (0x10000 + (h - 0xD800) * 0x400 + (value - 0xDC00))), .plain)
    else .error .malformed
  | none =>
    if !strict then .ok (none, .plain)
    else if 0xDC00 ≤ value && value ≤ 0xDFFF then .error .malformed
    else if 0xD800 ≤ value && value ≤ 0xDBFF then .ok (none, .pairEscape value)
    else .ok (some (Char.ofNat value), .plain)

/-- A string up to its closing quote, with the characters read so far, the last
one first.  Without `strict` surrogates are not checked, and only the rest counts. -/
def stringLoop (strict : Bool) : Within → List Char → Step (List Char)
  | _, _, [] => .error .unfinished
  | .plain, read, c :: cs =>
    if c = '"' then .ok (read.reverse, cs)
    else if c = '\\' then stringLoop strict .escape read cs
    else if c.toNat < 0x20 then .error .malformed
    else stringLoop strict .plain (c :: read) cs
  | .escape, read, c :: cs =>
    if c = 'u' then stringLoop strict (.unit 4 0 none) read cs
    else
      match escaped? c with
      | some e => stringLoop strict .plain (e :: read) cs
      | none => .error .malformed
  | .unit missing value half, read, c :: cs =>
    match Text.digit? 16 c with
    | none => if hasBytes missing (c :: cs) then .error .malformed else .error .unfinished
    | some d =>
      let value := value * 16 + d
      if 1 < missing then stringLoop strict (.unit (missing - 1) value half) read cs
      else
        match completeUnit strict value half with
        | .error f => .error f
        | .ok (some e, mode) => stringLoop strict mode (e :: read) cs
        | .ok (none, mode) => stringLoop strict mode read cs
  | .pairEscape half, read, c :: cs =>
    if c = '\\' then stringLoop strict (.pairLetter half) read cs else .error .malformed
  | .pairLetter half, read, c :: cs =>
    if c = 'u' then stringLoop strict (.unit 4 0 (some half)) read cs else .error .malformed

/-- A string behind its opening quote. -/
def stringTail : Step String := fun cs =>
  match stringLoop true .plain [] cs with
  | .ok (s, rest) => .ok (String.ofList s, rest)
  | .error f => .error f

end LintRelay.Json
