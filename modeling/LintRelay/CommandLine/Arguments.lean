import LintRelay.Language
import LintRelay.Path
set_option autoImplicit false

/-!
# Arguments

The words of a command line are read against a grammar: parameters with a long
and perhaps a short name, at most one positional argument, and commands.  Short
names may be written together, a value may be attached or follow as a word of its
own, and behind a double dash every word is positional.

The first fault in the order of the words decides.  A value is looked at when the
next parameter begins or the words end, so a name that nobody knows is a fault
before the value in front of it is.
-/

namespace LintRelay.CommandLine

/-- Why words are not carried out as a command.  Asking for help or for the version
is one of the reasons. -/
inductive UsageError where
  | help
  | version
  /-- There are no words. -/
  | nothingGiven
  | missingCommand
  | unknownCommand
  | unknownArgument
  /-- A parameter is given twice, or two parameters exclude each other. -/
  | conflict
  /-- A parameter has no value, or an empty one where that cannot be. -/
  | missingValue
  /-- A parameter has a value that it does not take. -/
  | unexpectedValue
  /-- The value of a parameter cannot be read. -/
  | unreadableValue (complaint : String)
  | missingArgument
  deriving DecidableEq, Repr, Inhabited

/-! ## Grammars -/

/-- What a parameter stands for. -/
inductive Kind where
  | toggle
  | text
  | path
  | language
  | help
  | version
  deriving DecidableEq, Repr, Inhabited

/-- A parameter. -/
structure Parameter where
  name : String
  short : Option Char
  kind : Kind
  deriving DecidableEq, Repr, Inhabited

/-- A value belongs to the parameter. -/
def Parameter.takesValue (p : Parameter) : Bool :=
  p.kind = .text || p.kind = .path || p.kind = .language

/-- What may be written. -/
structure Grammar where
  parameters : List Parameter
  positional : Option Parameter
  commands : List String
  deriving DecidableEq, Repr, Inhabited

/-- Parameters that may stand anywhere. -/
def commonParameters : List Parameter :=
  [⟨"verbose", some 'v', .toggle⟩, ⟨"quiet", some 'q', .toggle⟩, ⟨"help", some 'h', .help⟩]

/-- What may be written in front of a command. -/
def topGrammar : Grammar :=
  { parameters := commonParameters ++ [⟨"version", some 'V', .version⟩]
    positional := none
    commands := ["analyze", "lint", "init", "help"] }

/-- What may be written behind the command that analyzes. -/
def analyzeGrammar : Grammar :=
  { parameters :=
      commonParameters ++
        [⟨"settings", some 's', .path⟩, ⟨"format", some 'f', .text⟩,
         ⟨"language", some 'l', .language⟩, ⟨"engine-url", none, .text⟩,
         ⟨"monitoring", none, .toggle⟩, ⟨"monitoring-path", none, .path⟩]
    positional := some ⟨"path", none, .path⟩
    commands := [] }

/-- What may be written behind the command that creates settings. -/
def initGrammar : Grammar :=
  { parameters :=
      commonParameters ++ [⟨"output", some 'o', .path⟩, ⟨"language", some 'l', .language⟩]
    positional := none
    commands := [] }

/-! ## Reading words -/

/-- What has been read. -/
structure Scan where
  /-- Parameters with their values. -/
  taken : List (String × String)
  /-- The parameter read last, whose value has not been looked at. -/
  pending : Option (Parameter × Option String)
  /-- The next word is the value of the pending parameter. -/
  waiting : Bool
  /-- Every further word is positional. -/
  literal : Bool
  /-- The positional argument has been read. -/
  positioned : Bool
  deriving DecidableEq, Repr, Inhabited

namespace Scan

/-- Nothing has been read. -/
def empty : Scan := ⟨[], none, false, false, false⟩

/-- Looks at a value and keeps it. -/
def store (p : Parameter) (value : String) (s : Scan) : Except UsageError Scan :=
  if s.taken.any (·.1 = p.name) then .error .conflict
  else
    let kept : Scan := { s with taken := s.taken ++ [(p.name, value)] }
    match p.kind with
    | .help => .error .help
    | .version => .error .version
    | .path => if value.isEmpty then .error .missingValue else .ok kept
    | .language =>
      match Language.ofWord value with
      | .error complaint => .error (.unreadableValue complaint)
      | .ok _ => .ok kept
    | .toggle => .ok kept
    | .text => .ok kept

/-- Looks at the value of the pending parameter. -/
def settle (s : Scan) : Except UsageError Scan :=
  match s.pending with
  | none => .ok s
  | some (_, none) => .error .missingValue
  | some (p, some value) => { s with pending := none, waiting := false }.store p value

/-- A parameter with a value, or one that takes none. -/
def take (p : Parameter) (value : String) (s : Scan) : Except UsageError Scan :=
  match s.settle with
  | .error e => .error e
  | .ok s => s.store p value

/-- A parameter whose value is the next word. -/
def await (p : Parameter) (s : Scan) : Except UsageError Scan :=
  match s.settle with
  | .error e => .error e
  | .ok s => .ok { s with pending := some (p, none), waiting := true }

/-- A long name, perhaps with a value attached. -/
def long (g : Grammar) (cs : List Char) (s : Scan) : Except UsageError Scan :=
  let name := cs.takeWhile (· ≠ '=')
  let attached := (cs.drop name.length).drop 1
  let hasValue := name.length < cs.length
  match g.parameters.find? (·.name.toList = name) with
  | none => .error .unknownArgument
  | some p =>
    if p.takesValue then
      if hasValue then s.take p (String.ofList attached) else s.await p
    else if hasValue then .error .unexpectedValue
    else s.take p ""

/-- A value without the equals sign that may stand in front of it. -/
def dropEquals : List Char → List Char
  | '=' :: cs => cs
  | cs => cs

/-- Short names written together; the rest of the word is the value of the first
one that takes a value. -/
def shorts (g : Grammar) : List Char → Scan → Except UsageError Scan
  | [], s => .ok s
  | c :: cs, s =>
    match g.parameters.find? (·.short = some c) with
    | none => .error .unknownArgument
    | some p =>
      if p.takesValue then
        if cs.isEmpty then s.await p else s.take p (String.ofList (dropEquals cs))
      else
        match s.take p "" with
        | .error e => .error e
        | .ok s => shorts g cs s

/-- A positional argument. -/
def positional (g : Grammar) (word : String) (s : Scan) : Except UsageError Scan :=
  if g.commands.isEmpty then
    match g.positional, s.positioned with
    | some p, false =>
      match s.settle with
      | .error e => .error e
      | .ok s => .ok { s with pending := some (p, some word), positioned := true }
    | _, _ => .error .unknownArgument
  else if s.literal && g.commands.contains word then .error .unknownArgument
  else .error .unknownCommand

/-- A word that is no name of a parameter. -/
def plain (g : Grammar) (word : String) (s : Scan) : Except UsageError Scan :=
  match s.waiting, s.pending with
  | true, some (p, _) => .ok { s with pending := some (p, some word), waiting := false }
  | _, _ => s.positional g word

/-- One word. -/
def word (g : Grammar) (w : String) (s : Scan) : Except UsageError Scan :=
  if s.literal then s.positional g w
  else
    match w.toList with
    | ['-', '-'] => .ok { s with literal := true }
    | '-' :: '-' :: cs => s.long g cs
    | '-' :: c :: cs => s.shorts g (c :: cs)
    | _ => s.plain g w

/-- Reads words up to a command; gives the command and the words behind it. -/
def words (g : Grammar) : Scan → List String → Except UsageError (Scan × Option (String × List String))
  | s, [] =>
    match s.settle with
    | .error e => .error e
    | .ok s => .ok (s, none)
  | s, w :: rest =>
    if !s.literal && !s.waiting && g.commands.contains w then .ok (s, some (w, rest))
    else
      match s.word g w with
      | .error e => .error e
      | .ok s => words g s rest

/-- The value of a parameter. -/
def value? (s : Scan) (name : String) : Option String :=
  (s.taken.find? (·.1 = name)).map (·.2)

/-- The parameter was given. -/
def has (s : Scan) (name : String) : Bool := (s.value? name).isSome

/-- Parameters that exclude each other were given together. -/
def isTorn (s : Scan) : Bool := s.has "verbose" && s.has "quiet"

end Scan

/-! ## Invocations -/

/-- What to analyze, and how. -/
structure AnalyzeArguments where
  path : Path
  settings : Option Path
  format : String
  language : Option Language
  engineUrl : Option String
  monitoring : Bool
  monitoringPath : Option Path
  deriving DecidableEq, Repr, Inhabited

/-- Which settings to create, and where. -/
structure InitArguments where
  output : Path
  language : Language
  deriving DecidableEq, Repr, Inhabited

/-- A command. -/
inductive Command where
  | analyze (arguments : AnalyzeArguments)
  | init (arguments : InitArguments)
  deriving DecidableEq, Repr, Inhabited

/-- A command, and how much is told about it. -/
structure Invocation where
  verbose : Bool
  quiet : Bool
  command : Command
  deriving DecidableEq, Repr, Inhabited

/-- The language that was asked for. -/
def Scan.language? (s : Scan) : Option Language :=
  (s.value? "language").bind fun word => (Language.ofWord word).toOption

/-- The path that the analysis needs. -/
def analyzeArguments (s : Scan) : Except UsageError AnalyzeArguments :=
  match s.value? "path" with
  | none => .error .missingArgument
  | some path =>
    .ok
      { path := ⟨path⟩
        settings := (s.value? "settings").map Path.mk
        format := (s.value? "format").getD "pretty"
        language := s.language?
        engineUrl := s.value? "engine-url"
        monitoring := s.has "monitoring"
        monitoringPath := (s.value? "monitoring-path").map Path.mk }

/-- Everything has a default. -/
def initArguments (s : Scan) : InitArguments :=
  { output := ⟨(s.value? "output").getD "lintbridge.yaml"⟩
    language := s.language?.getD .typeScript }

/-- Reads the words behind a command. -/
def commandOf (name : String) (rest : List String) : Except UsageError (Scan × Command) :=
  let g := if name = "init" then initGrammar else analyzeGrammar
  match Scan.words g .empty rest with
  | .error e => .error e
  | .ok (s, _) =>
    if s.isTorn then .error .conflict
    else if name = "init" then .ok (s, .init (initArguments s))
    else
      match analyzeArguments s with
      | .error e => .error e
      | .ok a => .ok (s, .analyze a)

/-- What asking for help with words comes to: they have to name a command. -/
def helpWith : List String → UsageError
  | [] => .help
  | [w] => if topGrammar.commands.contains w then .help else .unknownCommand
  | _ => .unknownCommand

/-- Reads the words of a command line. -/
def parse (words : List String) : Except UsageError Invocation :=
  match Scan.words topGrammar .empty words with
  | .error e => .error e
  | .ok (s, none) => .error (if s.taken.isEmpty then .nothingGiven else .missingCommand)
  | .ok (s, some (name, rest)) =>
    if name = "help" then .error (helpWith rest)
    else
      match commandOf name rest with
      | .error e => .error e
      | .ok (inner, command) =>
        if s.isTorn then .error .conflict
        else
          .ok
            { verbose := s.has "verbose" || inner.has "verbose"
              quiet := s.has "quiet" || inner.has "quiet"
              command := command }

end LintRelay.CommandLine
