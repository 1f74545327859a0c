import LintRelay.Log
import LintRelay.Text.Blank
import LintRelay.Text.Utf8
set_option autoImplicit false

/-!
# Output of the bridge

Lines that the bridge writes are passed on to the log.  A line on its standard
output may name its level in front; a line on its error output is an error.
-/

namespace LintRelay.Bridge

open LintRelay.Text (Bytes)

/-- The level names that a line may start with. -/
def levelNames : List (List Char × Log.Level) :=
  [("DEBUG".toList, .debug), ("WARN".toList, .warn), ("ERROR".toList, .error)]

/-- What follows a level name and the blanks behind it: at least one blank must
stand there, and the message must be a single line. -/
def messageAfter (name cs : List Char) : Option (List Char) :=
  if name.isPrefixOf cs then
    let rest := cs.drop name.length
    let message := Text.dropBlanks rest
    if message.length < rest.length && !message.contains '\n' then some message else none
  else none

/-- The first level whose name a line starts with, and the message. -/
def findLevel (cs : List Char) :
    List (List Char × Log.Level) → Option (Log.Level × List Char)
  | [] => none
  | (name, level) :: rest =>
    match messageAfter name cs with
    | some message => some (level, message)
    | none => findLevel cs rest

/-- The level and the message of a line; a line without a level is information. -/
def parseLine (line : String) : Log.Level × String :=
  match findLevel line.toList levelNames with
  | some (level, message) => (level, String.ofList message)
  | none => (.info, line)

/-! ## Lines -/

/-- Splits bytes at every newline, with the bytes of the line so far, the last one
first.  A carriage return right before a newline is dropped with it; what follows
the last newline is a line of its own unless it is empty. -/
def splitLines (line : Bytes) : Bytes → List Bytes
  | [] => if line.isEmpty then [] else [line.reverse]
  | b :: rest =>
    if b = 10 then
      (match line with
       | 13 :: before => before.reverse
       | line => line.reverse) :: splitLines [] rest
    else splitLines (b :: line) rest

/-- The texts of lines up to the first one that is not UTF-8. -/
def textsOf : List Bytes → List String
  | [] => []
  | l :: rest =>
    match Text.decodeStrict? l with
    | some s => s :: textsOf rest
    | none => []

/-- The lines of a stream as text, up to the first one that is not UTF-8. -/
def textLines (stream : Bytes) : List String := textsOf (splitLines [] stream)

/-- What is logged for the standard output of the bridge. -/
def outputLines (stream : Bytes) : List Log.Line :=
  (textLines stream).map fun s =>
    let (level, message) := parseLine s
    ⟨level, .engine, message⟩

/-- What is logged for the error output of the bridge. -/
def errorLines (stream : Bytes) : List Log.Line :=
  (textLines stream).map fun s => ⟨.error, .engine, s⟩

end LintRelay.Bridge
