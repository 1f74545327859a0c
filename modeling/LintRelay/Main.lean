import LintRelay.Bridge.Replay
import LintRelay.Bridge.Wire
import LintRelay.CommandLine.Help
import LintRelay.CommandLine.Program
import LintRelay.Disk.Changes
import Std.Async.DNS
import Std.Async.Signal
import Std.Async.TCP
import Std.Async.Timer
set_option autoImplicit false

/-!
# The command line

The outer layer of the program.  It takes a picture of the part of the disk that a
command can look at, carries out the command on the picture, makes the exchanges
that the command asks for, and writes the changes of the picture back.

A bridge has to be running already: this layer starts no other programs.
-/

namespace LintRelay.Main

open Std.Async
open LintRelay.Text (Bytes)
open LintRelay.Bridge (Exchanged Message Replay)
open LintRelay.CommandLine (Emission Invocation)

/-! ## Pictures of the disk -/

/-- The contents of a file can matter to a command. -/
def isWanted (name : String) : Bool :=
  let extension := String.ofList ((Path.mk name).extension?.getD [])
  ["json", "yaml", "yml"].contains extension || Language.javaScript.extensions.contains extension ||
    Language.typeScript.extensions.contains extension

/-- The bytes of a file. -/
def bytesAt (path : String) : IO Bytes := do
  return (← IO.FS.readBinFile path).toList

/-- A picture of an entry of a directory, and the targets of the links in it. -/
partial def pictureOf (e : IO.FS.DirEntry) : IO (Disk.Node × List String) := do
  match (← e.path.symlinkMetadata).type with
  | .dir =>
    let mut entries : Array (String × Disk.Node) := #[]
    let mut targets : List String := []
    for child in ← e.path.readDir do
      match ← (pictureOf child).toBaseIO with
      | .ok (node, found) =>
        entries := entries.push (child.fileName, node)
        targets := found ++ targets
      | .error _ => pure ()
    return (.dir entries.toList, targets)
  | .symlink =>
    match ← (IO.FS.realPath e.path).toBaseIO with
    | .ok target => return (.link target.toString, [target.toString])
    | .error _ => return (.link "", [])
  | _ =>
    if isWanted e.fileName then return (.file (← bytesAt e.path.toString), [])
    else return (.file [], [])

/-- A disk with a node put at an absolute path. -/
def graft (node : Disk.Node) (path : String) (d : Disk) : Disk :=
  let p : Path := ⟨path⟩
  match p.parent? with
  | none => { d with tree := node }
  | some parent =>
    match d.ensureDirectory parent with
    | .error _ => d
    | .ok d =>
      match d.locateWith ⟨false, true⟩ p with
      | .ok place => { d with tree := d.tree.put node place }
      | .error _ => d

/-- Adds what lies at absolute paths to a picture, and what links in it lead to. -/
partial def picture (d : Disk) : List String → IO Disk
  | [] => return d
  | path :: rest => do
    if d.pathExists ⟨path⟩ then picture d rest
    else
      match ← (IO.FS.realPath path).toBaseIO with
      | .error _ => picture d rest
      | .ok real =>
        let (node, targets) ← pictureOf ⟨real, ""⟩
        let d := graft node real.toString d
        let d := if real.toString = path then d else graft (.link real.toString) path d
        picture d (rest ++ targets)

/-- The contents of files that are named by absolute paths. -/
def withContents (d : Disk) (paths : List String) : IO Disk :=
  paths.foldlM
    (fun d (path : String) => do
      match ← (bytesAt path).toBaseIO, d.isDirectory ⟨path⟩ with
      | .ok bytes, false => return (d.write ⟨path⟩ bytes).toOption.getD d
      | _, _ => return d)
    d

/-- Directories at absolute paths, without what lies in them. -/
def withDirectories (d : Disk) (paths : List String) : IO Disk :=
  paths.foldlM
    (fun d (path : String) => do
      match ← (IO.FS.realPath path).toBaseIO with
      | .ok _ => return (d.ensureDirectory ⟨path⟩).toOption.getD d
      | .error _ => return d)
    d

/-- Makes one change on the real disk. -/
def apply : Disk.Change → IO Unit
  | .directory place => IO.FS.createDirAll (Disk.pathOf place).text
  | .file place bytes => IO.FS.writeBinFile (Disk.pathOf place).text ⟨bytes.toArray⟩
  | .gone place => do
    let path := (Disk.pathOf place).text
    match ← (IO.FS.removeFile path).toBaseIO with
    | .ok () => pure ()
    | .error _ => IO.FS.removeDirAll path

/-- Brings the real disk from one picture to the next. -/
def bring (before after : Disk) : IO Unit := (after.changesTo before).forM apply

/-! ## Exchanges -/

/-- The place on the net that an origin stands for. -/
def socketAddress? (origin : String) : Async (Option Std.Net.SocketAddress) := do
  let (name, port) := Bridge.Address.splitPort (Bridge.Wire.authority origin).toList
  let port := ((port.bind Bridge.Address.port?).getD 80).toUInt16
  let name := String.ofList (name.filter fun c => c ≠ '[' && c ≠ ']')
  let found ← DNS.getAddrInfo name ""
  return found[0]?.map fun address =>
    match address with
    | .v4 a => .v4 ⟨a, port⟩
    | .v6 a => .v6 ⟨a, port⟩

/-- Receives an answer until it is whole or the time is up. -/
partial def receive (socket : TCP.Socket.Client) (deadline : Nat) (got : Bytes) :
    Async Bridge.Outcome := do
  let now ← IO.monoMsNow
  if deadline ≤ now then return .late
  let left : Std.Time.Millisecond.Offset := .ofNat (deadline - now)
  let chunk ← Selectable.one
    #[.case (socket.recvSelector 65536) fun bytes => pure (some bytes),
      .case (← Selector.sleep left) fun _ => pure none]
  match chunk with
  | none => return .late
  | some none =>
    return ((Bridge.Wire.read true got).outcome?).getD (.broken "connection closed")
  | some (some bytes) =>
    let got := got ++ bytes.toList
    match (Bridge.Wire.read false got).outcome? with
    | some outcome => return outcome
    | none => receive socket deadline got

/-- Sends a message to a bridge that listens, and waits for the answer. -/
def converse (socket : TCP.Socket.Client) (deadline : Nat) (message : Message) :
    Async Bridge.Outcome := do
  try
    socket.send ⟨(Bridge.Wire.request message).toArray⟩
    receive socket deadline []
  catch e => return .broken e.toString

/-- Sends a message and waits for the answer. -/
def exchange (message : Message) : Async Bridge.Outcome := do
  let deadline := (← IO.monoMsNow) + message.limitMs
  try
    match ← socketAddress? message.origin with
    | none => return .refused "no such host"
    | some address =>
      let socket ← TCP.Socket.Client.mk
      socket.connect address
      converse socket deadline message
  catch e => return .refused e.toString

/-! ## Commands -/

/-- Carries out a command: as long as it wants an exchange, the exchange is made and
the command is carried out again. -/
partial def carryOut (run : Nat → Replay → CommandLine.Outcome Replay)
    (interrupt : AsyncTask Int) (start : Nat) (before : Disk) (known : Array Exchanged) :
    IO (CommandLine.Outcome Replay × Disk) := do
  let elapsed := (← IO.monoMsNow) - start
  let o := run elapsed (.ofList known.toList)
  match o.outside.wanted with
  | none => return (o, before)
  | some wanted =>
    bring before wanted.disk
    let outcome ← (exchange wanted.message).block
    let interrupted ← IO.hasFinished interrupt
    carryOut run interrupt start wanted.disk (known.push ⟨outcome, interrupted⟩)

/-- The paths that an invocation names. -/
def namedPaths (i : Invocation) : List String :=
  match i.command with
  | .analyze a => a.path.text :: (a.settings.toList ++ a.monitoringPath.toList).map Path.text
  | .init a => [a.output.text]

/-- The environment asks for colors, or allows them on a terminal. -/
def wantsColor : IO Bool := do
  let forced ← IO.getEnv "CLICOLOR_FORCE"
  let refused ← IO.getEnv "NO_COLOR"
  let setting ← IO.getEnv "CLICOLOR"
  if (forced.getD "0") ≠ "0" then return true
  else if refused.isSome then return false
  else return setting.getD "1" ≠ "0" && (← (← IO.getStdout).isTty)

/-- A name for a directory of this run alone. -/
def freshName : IO String := do
  let letters := "ABCDEFGHIJKLMNOPQRSTUVWXYZabcdefghijklmnopqrstuvwxyz0123456789".toList
  let mut name := "lintbridge-"
  for _ in [0:6] do
    name := name.push (letters.getD (← IO.rand 0 61) 'A')
  return name

/-- What a run finds around it. -/
def surroundings : IO Surroundings := do
  let home := (← IO.getEnv "HOME").getD ""
  let cache := (← IO.getEnv "XDG_CACHE_HOME").getD (home ++ "/.cache")
  let temporary := (← IO.getEnv "TMPDIR").getD "/tmp"
  return {
    cache := ⟨cache ++ "/lintbridge/monitoring"⟩
    fresh := Path.join ⟨temporary⟩ ⟨← freshName⟩
    elapsedMs := 0
    loads := 100000 }

/-- Carries out an invocation; gives the code that the program ends with. -/
def invoke (i : Invocation) : IO UInt32 := do
  let start ← IO.monoMsNow
  let working := (← IO.FS.realPath (← IO.currentDir)).toString
  let around ← surroundings
  let absolute (path : String) : String := (Path.join ⟨working⟩ ⟨path⟩).text
  let metrics := absolute (around.cache.join ⟨Recorder.fileName⟩).text
  let named := (namedPaths i).map absolute
  let temporary := (around.fresh.parent?.map Path.text).toList.map absolute
  let empty : Disk := ⟨.dir [], (Disk.stepsOf working).filterMap fun s =>
    match s with
    | .down name => some name
    | _ => none⟩
  let before ← picture empty ([working] ++ named ++ [metrics])
  let before ← withDirectories before temporary
  let before ← withContents before (metrics :: named)
  let color ← wantsColor
  let interrupt ← (← Signal.Waiter.mk .sigint true).wait
  let run (elapsed : Nat) (outside : Replay) : CommandLine.Outcome Replay :=
    i.run Replay.host { around with elapsedMs := elapsed } color before outside
  let (o, last) ← carryOut run interrupt start before #[]
  bring last o.disk
  (← IO.getStderr).putStr (i.transcript (← IO.getEnv "LINTBRIDGE_LOG") o)
  (← IO.getStdout).putStr o.stdout
  return o.code.toUInt32

/-- Tells something. -/
def tell : Emission → IO Unit
  | .out text => do (← IO.getStdout).putStr text
  | .err text => do (← IO.getStderr).putStr text
  | .log line => do (← IO.getStderr).putStr (line.shown false)

end LintRelay.Main

/-- Reads the command line and carries it out. -/
def main (words : List String) : IO UInt32 := do
  match LintRelay.CommandLine.parse words with
  | .ok i => LintRelay.Main.invoke i
  | .error e =>
    LintRelay.Main.tell e.emission
    return e.code.toUInt32
