import LintRelay.Bridge.Host
import LintRelay.Bridge.Output
import LintRelay.Settings
set_option autoImplicit false

/-!
# Bridge processes

A bridge that is started for a run is a command with three arguments: a script, a
port and an address.  It is ended when it is no longer needed.
-/

namespace LintRelay.Bridge

/-- A bridge that was started. -/
structure Launched where
  number : Nat
  host : String
  port : Nat
  deriving DecidableEq, Repr, Inhabited

/-- What comes of an attempt to do something in the world outside. -/
structure Attempt (σ α : Type) where
  value : α
  state : σ
  log : List Log.Line

namespace Launched

variable {σ : Type}

/-- The address that the process listens at. -/
def url (p : Launched) : String := "http://" ++ p.host ++ ":" ++ toString p.port

/-- A debug line about a process. -/
def line (message : String) : Log.Line := ⟨.debug, .process, message⟩

/-- The port to listen on. -/
def choosePort (host : Host σ) (s : EngineSettings) (state : σ) :
    Except EngineError Nat × σ :=
  if s.port = 0 then
    match host.freePort s.host state with
    | (.ok port, state) => (.ok port, state)
    | (.error e, state) => (.error (.io e.message), state)
  else (.ok s.port, state)

/-- Starts a bridge. -/
def start (host : Host σ) (disk : Disk) (s : EngineSettings) (state : σ) :
    Attempt σ (Except EngineError Launched) :=
  match s.script with
  | none => ⟨.error (.startup "no bridge script configured"), state, []⟩
  | some script =>
    if !disk.pathExists script then
      ⟨.error (.startup ("bridge script not found: " ++ script.text)), state, []⟩
    else
      match choosePort host s state with
      | (.error e, state) => ⟨.error e, state, []⟩
      | (.ok port, state) =>
        let arguments := [script.text, toString port, s.host]
        let started := line ("Starting engine: " ++ " ".intercalate (s.command :: arguments))
        match host.launch disk s.command arguments state with
        | (.error e, state) =>
          ⟨.error (.startup ("failed to execute " ++ s.command ++ ": " ++ e.message)), state,
            [started]⟩
        | (.ok number, state) => ⟨.ok ⟨number, s.host, port⟩, state, [started]⟩

/-- Ends a bridge if it still runs, and passes on what it wrote. -/
def stop (host : Host σ) (p : Launched) (state : σ) : Attempt σ Unit :=
  match host.isRunning state with
  | (running, state) =>
    match host.stop state with
    | (output, state) =>
      ⟨(), state,
        (if running then [line ("Killing engine process " ++ toString p.number)] else []) ++
          outputLines output.standard ++ errorLines output.error⟩

end Launched

end LintRelay.Bridge
