import LintRelay.Bridge.Host
set_option autoImplicit false

/-!
# Replayed exchanges

A command is a function of what lies outside, and the outcomes of its exchanges
are known only once they have been made.  A replay is a world outside that knows
the first outcomes.  The first message that it has no outcome for is kept as what
is wanted next, with the disk as it was at that moment.  Carrying out the command
again with one more outcome gets one exchange further.
-/

namespace LintRelay.Bridge

/-- The outcome of an exchange that was made. -/
structure Exchanged where
  outcome : Outcome
  /-- The user interrupted the program meanwhile. -/
  interrupted : Bool
  deriving DecidableEq, Repr, Inhabited

/-- A message that has to be sent, and the disk at that moment. -/
structure Wanted where
  disk : Disk
  message : Message
  deriving Inhabited

/-- A world outside that knows the first outcomes. -/
structure Replay where
  known : List Exchanged
  wanted : Option Wanted
  deriving Inhabited

namespace Replay

/-- A replay of outcomes. -/
def ofList (known : List Exchanged) : Replay := ⟨known, none⟩

/-- What is said when there is no outcome. -/
def unknown : Outcome := .refused "error sending request"

/-- Gives the next outcome, or keeps the message as what is wanted. -/
def exchange (disk : Disk) (message : Message) (r : Replay) : Answer Replay Outcome :=
  match r.known, r.wanted with
  | e :: rest, none => ⟨e.outcome, { r with known := rest }, [], e.interrupted⟩
  | _, none => .quiet unknown { r with wanted := some ⟨disk, message⟩ }
  | _, some _ => .quiet unknown r

/-- The host of replays.  It starts no programs. -/
def host : Host Replay where
  exchange := exchange
  freePort := fun _ r => (.ok 0, r)
  launch := fun _ _ _ r => (.error .notFound, r)
  isRunning := fun r => (false, r)
  stop := fun r => (⟨[], []⟩, r)
  now := fun r => (0, r)
  pause := fun _ r => r

end Replay

end LintRelay.Bridge
