set_option autoImplicit false

/-!
# Languages and kinds of files

The two languages that the bridge analyzes, and the two kinds of source files.
-/

namespace LintRelay

/-- The language that a run analyzes. -/
inductive Language where
  | javaScript
  | typeScript
  deriving DecidableEq, Repr, Inhabited

namespace Language

/-- The name of a language in settings and messages. -/
def name : Language → String
  | .javaScript => "javascript"
  | .typeScript => "typescript"

/-- The endpoint that analyzes one file of the language. -/
def endpoint : Language → String
  | .javaScript => "analyze-js"
  | .typeScript => "analyze-ts"

/-- Extensions of the files of the language, without the dot. -/
def extensions : Language → List String
  | .javaScript => ["js", "jsx", "mjs", "cjs", "vue"]
  | .typeScript => ["ts", "tsx", "mts", "cts"]

/-- What a run over files of the language is called. -/
def component : Language → String
  | .javaScript => "JavaScript analysis"
  | .typeScript => "TypeScript analysis"

/-- The language that a word names, in any mixture of cases, or a complaint. -/
def ofWord (s : String) : Except String Language :=
  let word := s.toList.map Char.toLower
  if word = "javascript".toList || word = "js".toList then .ok .javaScript
  else if word = "typescript".toList || word = "ts".toList then .ok .typeScript
  else .error ("unknown language: " ++ s)

/-- The names by which settings and messages refer to languages. -/
def names : List (String × Language) :=
  [("javascript", .javaScript), ("typescript", .typeScript)]

end Language

/-- Main or test source. -/
inductive FileKind where
  | main
  | test
  deriving DecidableEq, Repr, Inhabited

namespace FileKind

/-- The name of a kind in messages. -/
def name : FileKind → String
  | .main => "MAIN"
  | .test => "TEST"

/-- The names by which messages refer to kinds. -/
def names : List (String × FileKind) := [("MAIN", .main), ("TEST", .test)]

end FileKind

end LintRelay
