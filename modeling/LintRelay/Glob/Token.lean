set_option autoImplicit false

/-!
# Globs: tokens

A glob is a list of tokens.  A token says which stretch of bytes it stands for;
the list stands for their concatenation.
-/

namespace LintRelay.Glob

/-- One element of a glob. -/
inductive Token where
  /-- A character that stands for itself. -/
  | literal (c : Char)
  /-- `?`: one byte. -/
  | any
  /-- `*`: any number of bytes. -/
  | zeroOrMore
  /-- `**` as first segment: nothing, or whole segments up to a slash. -/
  | leadingSegments
  /-- `**` as last segment: a slash and all that follows. -/
  | trailingSegments
  /-- `**` between slashes: a slash, or whole segments between two slashes. -/
  | innerSegments
  /-- A bracketed class: one byte in (or, negated, outside) the ranges. -/
  | charClass (negated : Bool) (ranges : List (Char × Char))
  /-- A group in braces: one of its branches. -/
  | choice (branches : List (List Token))
  deriving Repr, Inhabited

/-- Why a text is no glob. -/
inductive Fault where
  /-- A `[` without its `]`. -/
  | unclosedClass
  /-- A range in a class that runs backwards. -/
  | invalidRange (low high : Char)
  /-- A `}` without its `{`. -/
  | unopenedGroup
  /-- A `{` without its `}`. -/
  | unclosedGroup
  /-- A backslash with nothing after it. -/
  | danglingEscape
  deriving DecidableEq, Repr

/-- The wording of a fault. -/
def Fault.message : Fault → String
  | .unclosedClass => "unclosed character class; missing ']'"
  | .invalidRange low high =>
    "invalid range; '" ++ low.toString ++ "' > '" ++ high.toString ++ "'"
  | .unopenedGroup =>
    "unopened alternate group; missing '\x7b' (maybe escape '\x7d' with '[\x7d]'?)"
  | .unclosedGroup =>
    "unclosed alternate group; missing '\x7d' (maybe escape '\x7b' with '[\x7b]'?)"
  | .danglingEscape => "dangling '\\'"

/-- A fault reported together with the glob it was found in. -/
def Fault.describe (glob : String) (f : Fault) : String :=
  "error parsing glob '" ++ glob ++ "': " ++ f.message

end LintRelay.Glob
