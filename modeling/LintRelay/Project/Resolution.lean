import LintRelay.Engine.Basic
import LintRelay.Project.Partition
set_option autoImplicit false

/-!
# Resolving the project graph

Configurations refer to each other, and the graph may have cycles.  From the
seeds on, paths wait in a queue; a path that was loaded before is passed over, any
other is loaded once, and the references of what the engine answers go to the end
of the queue.

An engine may describe a graph without end, so the number of loads is bounded by
an argument; a resolution that needs more loads has no result.
-/

namespace LintRelay

/-- A resolution under way. -/
structure Search (σ : Type) where
  engine : σ
  /-- Paths that were loaded, the last one first. -/
  visited : List Path
  /-- Configurations that were loaded, the last one first. -/
  loaded : List ConfigFile
  events : List Event
  interrupted : Bool

namespace Search

variable {σ : Type}

/-- A resolution that has not loaded anything. -/
def start (engine : σ) : Search σ := ⟨engine, [], [], [], false⟩

/-- What is logged about the references of a configuration. -/
def referenceLines (c : ConfigFile) : List Log.Line :=
  if c.references.isEmpty then []
  else
    [⟨.debug, .project, "Adding referenced project's configs " ++ Text.quotedList c.references⟩]

/-- Loads one path. -/
def load (e : Engine σ) (d : Disk) (p : Path) (s : Search σ) :
    Except EngineError ConfigFile × Search σ :=
  let a := e.loadConfig d p s.engine
  let s : Search σ :=
    { s with
      engine := a.state
      visited := p :: s.visited
      events := s.events ++ [.call (.load p a.value)] ++ a.log.map .log
      interrupted := s.interrupted || a.interrupted }
  match a.value with
  | .error err => (.error err, s)
  | .ok c =>
    (.ok c,
      { s with
        loaded := c :: s.loaded
        events := s.events ++ (referenceLines c).map .log })

/-- Works off a queue of paths with at most the given number of loads; `none` when
that is not enough. -/
def workOff (e : Engine σ) (d : Disk) :
    Nat → List Path → Search σ → Option (Except EngineError (List ConfigFile)) × Search σ
  | loads, queue, s =>
    match queue.dropWhile (s.visited.contains ·) with
    | [] => (some (.ok s.loaded.reverse), s)
    | p :: rest =>
      match loads with
      | 0 => (none, s)
      | loads + 1 =>
        match s.load e d p with
        | (.error err, s) => (some (.error err), s)
        | (.ok c, s) => workOff e d loads (rest ++ c.resolvedReferences) s

end Search

/-- Loads every configuration that can be reached from the seeds. -/
def resolve {σ : Type} (e : Engine σ) (d : Disk) (loads : Nat) (seeds : List Path) (engine : σ) :
    Option (Except EngineError (List ConfigFile)) × Search σ :=
  Search.workOff e d loads (seeds.map Path.normalize) (Search.start engine)

/-- Resolves the seeds and assigns the files; without seeds there are no groups. -/
def resolveGroups {σ : Type} (e : Engine σ) (d : Disk) (loads : Nat) (seeds : List Path)
    (files : List SourceFile) (engine : σ) :
    Option (Except EngineError (List ConfigGroup)) × Search σ :=
  if seeds.isEmpty then (some (.ok []), Search.start engine)
  else
    match resolve e d loads seeds engine with
    | (none, s) => (none, s)
    | (some (.error err), s) => (some (.error err), s)
    | (some (.ok configs), s) => (some (partition configs files), s)

end LintRelay
