import LintRelay.Bridge.Address
import LintRelay.Bridge.Launched
set_option autoImplicit false

/-!
# The bridge as an engine

A client speaks to a bridge.  Each operation of an engine is one exchange with an
endpoint of the bridge; commands and probes are answered with `OK!`.
-/

namespace LintRelay.Bridge

/-- A client of a bridge. -/
structure Client (σ : Type) where
  outside : σ
  base : String
  /-- Milliseconds that the bridge has for an answer. -/
  timeoutMs : Nat
  /-- The bridge, when it was started for this client. -/
  process : Option Launched
  /-- Configurations of the file analyzed last, since the last reset. -/
  context : List String

namespace Client

variable {σ : Type}

/-- The answer to commands and probes. -/
def okBody : String := "OK!"

/-- A text without the slashes at its end. -/
def trimSlashes (s : String) : String :=
  String.ofList (s.toList.reverse.dropWhile (· = '/')).reverse

/-- A client of the bridge at an address. -/
def connect (url : String) (timeoutMs : Nat) (outside : σ) : Client σ :=
  ⟨outside, trimSlashes url, timeoutMs, none, []⟩

/-! ## Exchanges -/

/-- The status says that the request succeeded. -/
def isSuccess (status : Nat) : Bool := 200 ≤ status && status ≤ 299

/-- The text of a successful answer. -/
def textOf : Outcome → Except EngineError String
  | .refused m => .error (.unavailable m)
  | .late => .error .timeout
  | .broken m => .error (.transport m)
  | .reply status text =>
    if isSuccess status then .ok text
    else .error (.protocol ("HTTP " ++ toString status ++ ": " ++ Text.trim text))

/-- Asks something of the bridge, which has to answer within a limit. -/
def sendWithin (limitMs : Nat) (host : Host σ) (disk : Disk) (method : Method)
    (endpoint : String) (body : Option String) (c : Client σ) :
    Answer (Client σ) (Except EngineError String) :=
  match Address.parse? (c.base ++ "/" ++ endpoint) with
  | none => .quiet (.error (.transport "builder error")) c
  | some address =>
    match host.exchange disk ⟨address.origin, method, address.target, body, limitMs⟩ c.outside with
    | ⟨outcome, outside, log, interrupted⟩ =>
      ⟨textOf outcome, { c with outside := outside }, log, interrupted⟩

/-- Asks something of the bridge. -/
def send (host : Host σ) (disk : Disk) (method : Method) (endpoint : String)
    (body : Option String) (c : Client σ) : Answer (Client σ) (Except EngineError String) :=
  c.sendWithin c.timeoutMs host disk method endpoint body

/-- The value of a JSON answer. -/
def decoded {α : Type} (d : Json.Decoder α) (endpoint : String) :
    Except EngineError String → Except EngineError α
  | .error e => .error e
  | .ok text =>
    match Json.decode d text with
    | .ok a => .ok a
    | .error f =>
      .error (.protocol ("malformed response from /" ++ endpoint ++ ": " ++ f.message))

/-! ## Operations -/

/-- The body that sets up the linter. -/
def setupBody (s : LinterSetup) : String :=
  (Json.Value.object
    [("rules", .array (s.rules.map Rule.toValue)), ("environments", Json.strings s.environments),
     ("globals", Json.strings s.globals)]).compact

/-- Sets up the linter. -/
def setUp (host : Host σ) (disk : Disk) (s : LinterSetup) (c : Client σ) :
    Answer (Client σ) (Except EngineError Unit) :=
  let a := c.send host disk .post "init-linter" (some (setupBody s))
  match a.value with
  | .error e => { a with value := .error e }
  | .ok text =>
    if Text.trim text = okBody then
      { a with
        value := .ok ()
        log := a.log ++
          [⟨.debug, .client, "Engine initialized with " ++ toString s.rules.length ++ " rules"⟩] }
    else { a with value := .error (.rejected (Text.trim text)) }

/-- The probe was answered as it should be. -/
def isOk : Except EngineError String → Bool
  | .ok text => Text.trim text = okBody
  | .error _ => false

/-- Milliseconds that the bridge has for the answer to a probe. -/
def probeLimit : Nat := 1000

/-- Whether the bridge answers; one that has ended does not. -/
def isAlive (host : Host σ) (disk : Disk) (c : Client σ) : Answer (Client σ) Bool :=
  let (running, c) : Bool × Client σ :=
    match c.process with
    | none => (true, c)
    | some _ =>
      match host.isRunning c.outside with
      | (running, outside) => (running, { c with outside := outside })
  if running then
    let a := c.sendWithin probeLimit host disk .get "status" none
    { a with value := isOk a.value }
  else .quiet false c

/-- The configuration that an answer describes, unless it tells of an error. -/
def configOf (p : Path) : Except EngineError ConfigAnswer → Except EngineError ConfigFile
  | .error e => .error e
  | .ok answer =>
    match answer.error with
    | some e => .error (.protocol ("failed to load " ++ p.text ++ ": " ++ e))
    | none => .ok (answer.toConfig p)

/-- Loads one configuration. -/
def loadConfig (host : Host σ) (disk : Disk) (p : Path) (c : Client σ) :
    Answer (Client σ) (Except EngineError ConfigFile) :=
  let body := (Json.Value.object [("tsconfig", .string p.text)]).compact
  let a := c.send host disk .post "tsconfig-files" (some body)
  { a with value := configOf p (decoded ConfigAnswer.decoder "tsconfig-files" a.value) }

/-- Analyzes one file. -/
def analyze (host : Host σ) (disk : Disk) (r : Request) (c : Client σ) :
    Answer (Client σ) (Except EngineError Response) :=
  let endpoint := r.language.endpoint
  let a := c.send host disk .post endpoint (some r.body)
  let result := decoded Response.decoder endpoint a.value
  match result with
  | .ok _ => { a with value := result, state := { a.state with context := r.configs } }
  | .error _ => { a with value := result }

/-- Forgets the configuration of the files analyzed so far. -/
def reset (host : Host σ) (disk : Disk) (c : Client σ) :
    Answer (Client σ) (Except EngineError Unit) :=
  let a := c.send host disk .post "new-tsconfig" none
  match a.value with
  | .ok _ => { a with value := .ok (), state := { a.state with context := [] } }
  | .error e => { a with value := .error e }

/-- The operations of an engine, carried out by a bridge. -/
def engine (host : Host σ) : Engine (Client σ) where
  setUp := setUp host
  isAlive := isAlive host
  loadConfig := loadConfig host
  analyze := analyze host
  reset := reset host

/-! ## Opening and closing -/

/-- Ends the bridge that was started for this client, without a word to it. -/
def abandon (host : Host σ) (c : Client σ) : Attempt (Client σ) Unit :=
  match c.process with
  | none => ⟨(), c, []⟩
  | some p =>
    let done := p.stop host c.outside
    ⟨(), { c with outside := done.state, process := none }, done.log⟩

/-- Closes the client: a bridge that was started for it is told, and ended. -/
def close (host : Host σ) (disk : Disk) (c : Client σ) : Attempt (Client σ) Unit :=
  match c.process with
  | none => ⟨(), c, []⟩
  | some _ =>
    let a := c.send host disk .post "close" none
    let refusal : List Log.Line :=
      match a.value with
      | .ok _ => []
      | .error e => [⟨.debug, .client, "Engine did not acknowledge close: " ++ e.message⟩]
    let done := a.state.abandon host
    { done with log := a.log ++ refusal ++ done.log }

/-- Milliseconds between two probes of a bridge that is starting. -/
def pollInterval : Nat := 100

/-- Waits until the bridge answers; `polls` bounds the number of probes. -/
def awaitReady (host : Host σ) (disk : Disk) (timeoutMs deadline : Nat) :
    Nat → List Log.Line → Client σ → Attempt (Client σ) (Except EngineError Unit)
  | polls, log, c =>
    let late (log : List Log.Line) (c : Client σ) :
        Attempt (Client σ) (Except EngineError Unit) :=
      let done := c.abandon host
      ⟨.error (.startup ("engine did not answer within " ++ toString timeoutMs ++ " ms")),
        done.state, log ++ done.log⟩
    match polls with
    | 0 => late log c
    | polls + 1 =>
      let a := c.isAlive host disk
      let log := log ++ a.log
      if a.value then ⟨.ok (), a.state, log⟩
      else
        match host.isRunning a.state.outside with
        | (running, outside) =>
          let c := { a.state with outside := outside }
          if !running then
            let done := c.abandon host
            ⟨.error (.startup "engine process exited before answering"), done.state,
              log ++ done.log⟩
          else
            match host.now c.outside with
            | (now, outside) =>
              let c := { c with outside := outside }
              if deadline ≤ now then late log c
              else
                awaitReady host disk timeoutMs deadline polls log
                  { c with outside := host.pause pollInterval c.outside }

/-- Starts a bridge and waits until it answers. -/
def startBridge (host : Host σ) (disk : Disk) (s : EngineSettings) (outside : σ) :
    Attempt σ (Except EngineError (Client σ)) :=
  let started := Launched.start host disk s outside
  match started.value with
  | .error e => ⟨.error e, started.state, started.log⟩
  | .ok p =>
    match host.now started.state with
    | (now, outside) =>
      let c := { connect p.url s.timeoutMs outside with process := some p }
      let ready :=
        awaitReady host disk s.startupTimeoutMs (now + s.startupTimeoutMs)
          (s.startupTimeoutMs / pollInterval + 2) started.log c
      match ready.value with
      | .error e => ⟨.error e, ready.state.outside, ready.log⟩
      | .ok () =>
        ⟨.ok ready.state, ready.state.outside,
          ready.log ++ [⟨.info, .client, "Engine started on port " ++ toString p.port⟩]⟩

/-- A client for the settings: of the bridge at the address they give, which has to
answer, or of one that is started. -/
def fromSettings (host : Host σ) (disk : Disk) (s : EngineSettings) (outside : σ) :
    Attempt σ (Except EngineError (Client σ)) :=
  match s.url with
  | none => startBridge host disk s outside
  | some url =>
    let a := (connect url s.timeoutMs outside).isAlive host disk
    if a.value then ⟨.ok a.state, a.state.outside, a.log⟩
    else
      ⟨.error (.unavailable ("no engine answering at " ++ url)), a.state.outside, a.log⟩

end Client

end LintRelay.Bridge
