import LintRelay.Log
import LintRelay.Text.Basic
import LintRelay.Text.Blank
set_option autoImplicit false

/-!
# Log filters

A filter decides which lines are shown.  It is written as directives between
commas: a level, the beginning of a topic, or both with an equals sign between
them.  The directive with the longest beginning that fits a line decides; without
directives only errors are shown.  Behind a slash stands a text that shown lines
have to contain.
-/

namespace LintRelay.Log

/-- Shows lines whose topic begins with a name, up to a level. -/
structure Directive where
  name : Option String
  /-- The largest rank that is shown. -/
  rank : Nat
  deriving DecidableEq, Repr, Inhabited

/-- Which lines are shown. -/
structure Filter where
  directives : List Directive
  text : Option String
  deriving DecidableEq, Repr, Inhabited

namespace Filter

/-! ## Reading -/

/-- The names of levels, with the largest rank that they show. -/
def levelRanks : List (String × Nat) :=
  [("off", 0), ("error", 1), ("warn", 2), ("info", 3), ("debug", 4), ("trace", 5)]

/-- The rank of a level, in any mixture of cases. -/
def rank? (s : String) : Option Nat :=
  let word := s.toList.map Char.toLower
  (levelRanks.find? (·.1.toList = word)).map (·.2)

/-- Splits at a character. -/
def splitAt (sep : Char) (part : List Char) : List Char → List String
  | [] => [String.ofList part.reverse]
  | c :: cs =>
    if c = sep then String.ofList part.reverse :: splitAt sep [] cs
    else splitAt sep (c :: part) cs

/-- A directive, or the complaint about it. -/
def directive (s : String) : Except String Directive :=
  match splitAt '=' [] s.toList with
  | [name] =>
    match rank? (Text.trim name) with
    | some rank => .ok ⟨none, rank⟩
    | none => .ok ⟨some name, 5⟩
  | [name, level] =>
    let level := Text.trim level
    if level.isEmpty then .ok ⟨some name, 5⟩
    else
      match rank? level with
      | some rank => .ok ⟨some name, rank⟩
      | none => .error ("invalid logging spec '" ++ level ++ "'")
  | _ => .error ("invalid logging spec '" ++ s ++ "'")

/-- A directive takes the place of an earlier one for the same name. -/
def addDirective (d : Directive) : List Directive → List Directive
  | [] => [d]
  | e :: rest => if e.name = d.name then d :: rest else e :: addDirective d rest

/-- Reads directives; gives them and the complaints. -/
def readDirectives : List String → List Directive → List Directive × List String
  | [], ds => (ds, [])
  | s :: rest, ds =>
    let s := Text.trim s
    if s.isEmpty then readDirectives rest ds
    else
      match directive s with
      | .ok d => readDirectives rest (addDirective d ds)
      | .error e =>
        match readDirectives rest ds with
        | (ds, complaints) => (ds, e :: complaints)

/-- Reads a filter; gives it and the complaints. -/
def parse (spec : String) : Filter × List String :=
  match splitAt '/' [] spec.toList with
  | [names] =>
    match readDirectives (splitAt ',' [] names.toList) [] with
    | (ds, complaints) => (⟨ds, none⟩, complaints)
  | [names, text] =>
    match readDirectives (splitAt ',' [] names.toList) [] with
    | (ds, complaints) => (⟨ds, some text⟩, complaints)
  | _ => (⟨[], none⟩, ["invalid logging spec '" ++ spec ++ "' (too many '/'s)"])

/-- How a complaint is told. -/
def warning (complaint : String) : String := "warning: " ++ complaint ++ ", ignoring it\n"

/-! ## Deciding -/

/-- The directive is about the topic. -/
def Directive.fits (topic : String) (d : Directive) : Bool :=
  match d.name with
  | none => true
  | some name => name.toList.isPrefixOf topic.toList

/-- The number of bytes of the name of a directive. -/
def Directive.weight (d : Directive) : Nat := (d.name.map String.utf8ByteSize).getD 0

/-- The better of two fitting directives: the one with the longer name, and of two
names of one length the later one. -/
def better (best : Option Directive) (d : Directive) : Option Directive :=
  match best with
  | none => some d
  | some b => if Directive.weight b ≤ Directive.weight d then some d else some b

/-- The rank up to which lines of a topic are shown. -/
def rankFor (f : Filter) (topic : String) : Nat :=
  if f.directives.isEmpty then 1
  else
    match (f.directives.filter (Directive.fits topic)).foldl better none with
    | some d => d.rank
    | none => 0

/-- The line is shown. -/
def accepts (f : Filter) (l : Line) : Bool :=
  l.level.rank ≤ f.rankFor l.topic.label &&
    match f.text with
    | none => true
    | some text => Text.occurs text.toList l.message.toList

end Filter

/-! ## Shown lines -/

/-- The name of a level, filled up to five characters. -/
def Level.padded (l : Level) : String :=
  String.ofList (l.name.toList ++ List.replicate (5 - l.name.length) ' ')

/-- A line as it is shown, with its topic if details are wanted.  Further lines of
a message are indented. -/
def Line.shown (detailed : Bool) (l : Line) : String :=
  let label := if detailed then l.level.padded ++ " " ++ l.topic.label else l.level.padded
  let message := l.message.toList.flatMap fun c => if c = '\n' then "\n    ".toList else [c]
  "[" ++ label ++ "] " ++ String.ofList message ++ "\n"

end LintRelay.Log
