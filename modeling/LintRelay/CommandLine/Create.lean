import LintRelay.CommandLine.Arguments
import LintRelay.CommandLine.Outcome
import LintRelay.Disk.Resolve
set_option autoImplicit false

/-!
# Creating settings

The command that writes a settings file to start from.  It never writes over
something that is there.
-/

namespace LintRelay.CommandLine

/-- The settings that a project in a language starts from, line by line. -/
def templateLines : Language → List String
  | .javaScript =>
    ["# lintbridge settings for a JavaScript project",
     "language: javascript",
     "",
     "rules:",
     "  - key: no-unused-vars",
     "  - key: no-eval",
     "  - key: max-depth",
     "    configurations: [4]",
     "",
     "environments: [node, browser, es6]",
     "globals: []",
     "",
     "excluded_paths:",
     "  - \"**/vendor/**\"",
     "  - \"**/*.min.js\"",
     "",
     "monitoring:",
     "  enabled: false",
     "",
     "engine:",
     "  command: node",
     "  script: node_modules/lintbridge-server/bin/server.js"]
  | .typeScript =>
    ["# lintbridge settings for a TypeScript project",
     "language: typescript",
     "",
     "rules:",
     "  - key: no-unused-vars",
     "  - key: no-explicit-any",
     "  - key: cognitive-complexity",
     "    configurations: [15]",
     "",
     "environments: [node, es6]",
     "globals: []",
     "",
     "# Seed configurations; referenced projects are discovered automatically.",
     "# When empty, every tsconfig.json below the analyzed directory is used.",
     "tsconfig_paths:",
     "  - tsconfig.json",
     "",
     "monitoring:",
     "  enabled: false",
     "",
     "engine:",
     "  command: node",
     "  script: node_modules/lintbridge-server/bin/server.js"]

/-- The settings that a project in a language starts from. -/
def template (language : Language) : String :=
  "".intercalate ((templateLines language).map (· ++ "\n"))

/-- What is said when the settings have been written. -/
def createdText (a : InitArguments) : String :=
  "Created " ++ a.output.text ++ " for a " ++ a.language.name ++ " project\n\n" ++
    "Next steps:\n" ++
    "  1. Point engine.script at your bridge server\n" ++
    "  2. Run: lintbridge analyze . --settings " ++ a.output.text ++ "\n"

/-- Makes the directory that a file is to stand in. -/
def makeParent (disk : Disk) (p : Path) : Except Disk.OsError Unit × Disk :=
  match p.parent? with
  | none => (.ok (), disk)
  | some parent =>
    if parent.text.isEmpty || parent = ⟨"."⟩ then (.ok (), disk) else disk.tryDirectory parent

/-- Writes a settings file to start from. -/
def create {σ : Type} (disk : Disk) (a : InitArguments) (outside : σ) : Outcome σ :=
  if disk.pathExists a.output then
    .refuse disk outside
      ["Error: file already exists: " ++ a.output.text ++ "\n",
       "Remove it or use --output to specify a different path\n"]
  else
    match makeParent disk a.output with
    | (.error e, made) =>
      .refuse made outside ["Error: failed to create directory: " ++ e.message ++ "\n"]
    | (.ok (), made) =>
      match made.write a.output (Text.utf8 (template a.language)) with
      | .error e =>
        .refuse made outside ["Error: failed to write settings: " ++ e.message ++ "\n"]
      | .ok written => ⟨.ok exitSuccess, [.out (createdText a)], written, outside⟩

end LintRelay.CommandLine
