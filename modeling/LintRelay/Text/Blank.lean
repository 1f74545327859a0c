set_option autoImplicit false

/-!
# Text: blank characters

The characters of the Unicode property `White_Space`.  Trimming a text, and the
gap between a level name and the rest of an output line, are both measured with
this class.
-/

namespace LintRelay.Text

/-- The characters with the Unicode property `White_Space`. -/
def isBlank (c : Char) : Bool :=
  let n := c.toNat
  (0x09 ≤ n && n ≤ 0x0D) || n == 0x20 || n == 0x85 || n == 0xA0 || n == 0x1680 ||
    (0x2000 ≤ n && n ≤ 0x200A) || n == 0x2028 || n == 0x2029 || n == 0x202F ||
    n == 0x205F || n == 0x3000

/-- A list of characters without its leading blanks. -/
def dropBlanks (cs : List Char) : List Char := cs.dropWhile isBlank

/-- A list of characters without its leading and trailing blanks. -/
def trimChars (cs : List Char) : List Char :=
  (dropBlanks (dropBlanks cs).reverse).reverse

/-- A text without its leading and trailing blanks. -/
def trim (s : String) : String := String.ofList (trimChars s.toList)

/-- A text with nothing but blanks in it. -/
def isAllBlank (s : String) : Bool := s.toList.all isBlank

end LintRelay.Text
