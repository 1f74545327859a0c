import LintRelay.Engine.Basic
import LintRelay.Text.Utf8
set_option autoImplicit false

/-!
# What lies outside

The bridge is another program.  It is reached by exchanges of messages and may be
a process that was started for the run.  What can be asked of the world outside is
gathered in a host, which is a machine with a state of any kind.
-/

namespace LintRelay.Bridge

open LintRelay.Text (Bytes)

/-- How something is asked for. -/
inductive Method where
  | get
  | post
  deriving DecidableEq, Repr, Inhabited

/-- The name of a method. -/
def Method.name : Method → String
  | .get => "GET"
  | .post => "POST"

/-- A message to a bridge. -/
structure Message where
  origin : String
  method : Method
  target : String
  /-- JSON text that goes with it. -/
  body : Option String
  /-- Milliseconds within which the whole answer has to arrive. -/
  limitMs : Nat
  deriving DecidableEq, Repr, Inhabited

/-- How an exchange ends. -/
inductive Outcome where
  /-- An answer arrived.  Its body is given as the text that it was decoded to, since
  the head of the answer decides about that. -/
  | reply (status : Nat) (text : String)
  /-- Nobody listens. -/
  | refused (message : String)
  /-- No whole answer in time. -/
  | late
  /-- The connection broke, or the answer makes no sense. -/
  | broken (message : String)
  deriving DecidableEq, Repr, Inhabited

/-- What a process wrote. -/
structure Output where
  standard : Bytes
  error : Bytes
  deriving DecidableEq, Repr, Inhabited

/-- The world outside. -/
structure Host (σ : Type) where
  /-- Sends a message and waits for the answer. -/
  exchange : Disk → Message → σ → Answer σ Outcome
  /-- A port of an address that nobody uses. -/
  freePort : String → σ → Except Disk.OsError Nat × σ
  /-- Starts a program; gives the number of the process. -/
  launch : Disk → String → List String → σ → Except Disk.OsError Nat × σ
  /-- The process has not ended yet. -/
  isRunning : σ → Bool × σ
  /-- Ends the process, waits for it, and gives what it wrote. -/
  stop : σ → Output × σ
  /-- Milliseconds since some fixed time. -/
  now : σ → Nat × σ
  /-- Waits for a number of milliseconds. -/
  pause : Nat → σ → σ

end LintRelay.Bridge
