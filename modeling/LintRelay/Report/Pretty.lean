import LintRelay.Report.Basic
set_option autoImplicit false

/-!
# Reports for people

Files with findings, the rules with their counts, and a last line with the state
of the run.  Where colours are wanted, a painted text stands between a colour code
and the reset code; a reset code inside of it is followed by the colour code again.
-/

namespace LintRelay.Report

/-- The code that ends a colour. -/
def resetCode : List Char := "\x1b[0m".toList

/-- A style, by its parameters. -/
inductive Style where
  | title
  | bold
  | dimmed
  | blue
  | red
  | yellow
  | green
  deriving DecidableEq, Repr

/-- The code that starts a style. -/
def Style.code : Style → List Char
  | .title => "\x1b[1;36m".toList
  | .bold => "\x1b[1m".toList
  | .dimmed => "\x1b[2m".toList
  | .blue => "\x1b[34m".toList
  | .red => "\x1b[31m".toList
  | .yellow => "\x1b[33m".toList
  | .green => "\x1b[32m".toList

/-- Repeats a code behind every reset code; `seen` holds the part of a reset code
that has just been passed, the last character first. -/
def resume (code : List Char) (seen : List Char) : List Char → List Char
  | [] => []
  | c :: cs =>
    let seen := (c :: seen).take 4
    if seen = resetCode.reverse then c :: (code ++ resume code [] cs)
    else c :: resume code seen cs

/-- A text filled with blanks on the right. -/
def padRight (width : Nat) (cs : List Char) : List Char :=
  cs ++ List.replicate (width - cs.length) ' '

/-- A text filled with blanks on the left. -/
def padLeft (width : Nat) (cs : List Char) : List Char :=
  List.replicate (width - cs.length) ' ' ++ cs

/-- A text in a style, filled up to a width. -/
def paintPadded (color : Bool) (style : Style) (width : Nat) (s : String) : String :=
  if color then
    String.ofList
      (style.code ++ padRight width (resume style.code [] s.toList) ++ resetCode)
  else String.ofList (padRight width s.toList)

/-- A text in a style. -/
def paint (color : Bool) (style : Style) (s : String) : String := paintPadded color style 0 s

/-- A number as text. -/
def num (n : Nat) : String := Decimal.natText n

/-- Line and column of an issue, in columns. -/
def position (i : Issue) : String :=
  String.ofList (padLeft 5 (Decimal.natChars i.line) ++ ':' :: padRight 4 (Decimal.natChars i.column))

/-- One issue. -/
def issueLine (color : Bool) (i : Issue) : String :=
  "    " ++ paint color .dimmed (position i) ++ " " ++ paintPadded color .yellow 28 i.ruleId ++
    " " ++ i.message ++ "\n"

/-- One file with findings. -/
def fileBlock (color : Bool) (f : FileReport) : String :=
  "  " ++ paint color .blue f.path ++ "\n" ++
    (match f.parsingError with
     | some e => "    " ++ paint color .red "PARSE" ++ " " ++ e ++ "\n"
     | none => "") ++
    String.join (f.issues.map (issueLine color)) ++ "\n"

/-- One rule with its count. -/
def ruleLine (r : String × Nat) : String :=
  "    " ++ String.ofList (padRight 30 r.1.toList) ++ " " ++
    String.ofList (padLeft 4 (Decimal.natChars r.2)) ++ " issue" ++
    (if r.2 = 1 then "" else "s") ++ "\n"

/-- The rules with their counts, if there are any. -/
def rulesBlock (color : Bool) (c : Collected) : String :=
  match c.issuesByRule with
  | [] => ""
  | rules => "  " ++ paint color .bold "Rules:" ++ "\n" ++ String.join (rules.map ruleLine) ++ "\n"

/-- The word for the state of a run. -/
def verdict (color : Bool) : RunState → String
  | .completed => paint color .green "✓ DONE"
  | .cancelled => paint color .yellow "■ CANCELLED"
  | _ => paint color .red "✗ FAILED"

/-- The last line. -/
def statusLine (color : Bool) (c : Collected) (s : RunSummary) : String :=
  "  " ++ verdict color s.state ++ "  " ++ num s.analyzedFiles ++ " files analyzed, " ++
    num c.issueCount ++ " issues" ++
    (if 0 < s.failedFiles then
      "  " ++ paint color .red ("(" ++ num s.failedFiles ++ " failed)")
     else "") ++
    (if 0 < s.skippedUnmatched then
      "  " ++ paint color .dimmed ("(" ++ num s.skippedUnmatched ++ " without tsconfig)")
     else "") ++ "\n"

/-- The report of a run over a path. -/
def pretty (color : Bool) (path : String) (c : Collected) (s : RunSummary) : String :=
  "\n  " ++ paint color .title "lintbridge" ++ " v" ++ RunReport.programVersion ++ "\n\n" ++
    "  " ++ paint color .dimmed "Analyzing: " ++ path ++ "\n\n" ++
    String.join (c.withFindings.map (fileBlock color)) ++
    rulesBlock color c ++ statusLine color c s ++ "\n"

end LintRelay.Report
