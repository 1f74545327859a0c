import LintRelay.Engine.Basic
set_option autoImplicit false

/-!
# Calls to an engine

What happens in a run is a list of events.  This file reads off it which calls were
made to the engine and which answers went to the sink, and says when a list of calls
is a history of an engine: every call was answered as the engine answers it in the
state that the calls before it have led to.
-/

namespace LintRelay

/-! ## Kinds of calls -/

namespace Call

/-- The call sets up the linter. -/
def isSetUp : Call → Bool
  | .setUp _ _ => true
  | _ => false

/-- The call loads a configuration. -/
def isLoad : Call → Bool
  | .load _ _ => true
  | _ => false

/-- The call lets the engine forget its configuration. -/
def isReset : Call → Bool
  | .reset _ => true
  | _ => false

/-- The call was answered with an error, or says that the engine is not alive. -/
def failed : Call → Bool
  | .setUp _ result => !result.isOk
  | .probe alive => !alive
  | .load _ result => !result.isOk
  | .analyze _ result => !result.isOk
  | .reset result => !result.isOk

/-- The request of a call that asks for an analysis. -/
def request? : Call → Option Request
  | .analyze request _ => some request
  | _ => none

/-- The response to a call that asks for an analysis and is answered. -/
def response? : Call → Option Response
  | .analyze _ (.ok response) => some response
  | _ => none

/-- A request and the response to it, for a call that asks for an analysis and is answered. -/
def answer? : Call → Option (Request × Response)
  | .analyze request (.ok response) => some (request, response)
  | _ => none

/-- The configuration that the answer to a load describes. -/
def config? : Call → Option ConfigFile
  | .load _ (.ok config) => some config
  | _ => none

/-- The path that a call loads. -/
def path? : Call → Option Path
  | .load path _ => some path
  | _ => none

theorem config?_of_not_load {c : Call} (h : c.isLoad = false) : c.config? = none := by
  cases c with
  | load path result => cases h
  | _ => rfl

theorem request?_of_load {c : Call} (h : c.isLoad = true) : c.request? = none := by
  cases c with
  | load path result => rfl
  | _ => cases h

theorem response?_eq (c : Call) : c.response? = c.answer?.map Prod.snd := by
  rcases c with _ | _ | _ | ⟨request, _ | response⟩ | _ <;> rfl

/-- Only a request is answered. -/
theorem answer?_of_no_request {c : Call} (h : c.request? = none) : c.answer? = none := by
  cases c with
  | analyze request result => cases h
  | _ => rfl

theorem response?_of_no_request {c : Call} (h : c.request? = none) : c.response? = none := by
  rw [response?_eq, answer?_of_no_request h]
  rfl

end Call

/-! ## Calls and deliveries among events -/

/-- The call that an event is, if it is one. -/
def Event.call? : Event → Option Call
  | .call c => some c
  | _ => none

/-- What an event hands to the sink, if it does. -/
def Event.delivery? : Event → Option (Path × Response)
  | .deliver path response => some (path, response)
  | _ => none

/-- The calls among events, in their order. -/
def callsOf (events : List Event) : List Call := events.filterMap Event.call?

/-- The deliveries among events, in their order. -/
def deliveriesOf (events : List Event) : List (Path × Response) :=
  events.filterMap Event.delivery?

@[simp] theorem callsOf_nil : callsOf [] = [] := rfl

@[simp] theorem callsOf_call (c : Call) (es : List Event) :
    callsOf (.call c :: es) = c :: callsOf es := rfl

@[simp] theorem callsOf_log (line : Log.Line) (es : List Event) :
    callsOf (.log line :: es) = callsOf es := rfl

@[simp] theorem callsOf_deliver (path : Path) (r : Response) (es : List Event) :
    callsOf (.deliver path r :: es) = callsOf es := rfl

@[simp] theorem callsOf_append (es fs : List Event) :
    callsOf (es ++ fs) = callsOf es ++ callsOf fs :=
  List.filterMap_append

@[simp] theorem callsOf_logs (lines : List Log.Line) : callsOf (lines.map .log) = [] := by
  induction lines with
  | nil => rfl
  | cons line rest ih => simpa using ih

@[simp] theorem deliveriesOf_nil : deliveriesOf [] = [] := rfl

@[simp] theorem deliveriesOf_call (c : Call) (es : List Event) :
    deliveriesOf (.call c :: es) = deliveriesOf es := rfl

@[simp] theorem deliveriesOf_log (line : Log.Line) (es : List Event) :
    deliveriesOf (.log line :: es) = deliveriesOf es := rfl

@[simp] theorem deliveriesOf_deliver (path : Path) (r : Response) (es : List Event) :
    deliveriesOf (.deliver path r :: es) = (path, r) :: deliveriesOf es := rfl

@[simp] theorem deliveriesOf_append (es fs : List Event) :
    deliveriesOf (es ++ fs) = deliveriesOf es ++ deliveriesOf fs :=
  List.filterMap_append

@[simp] theorem deliveriesOf_logs (lines : List Log.Line) :
    deliveriesOf (lines.map .log) = [] := by
  induction lines with
  | nil => rfl
  | cons line rest ih => simpa using ih

/-! ## Histories of an engine -/

namespace Engine

variable {σ : Type}

/-- One call takes the engine from one state to the next.  The disk that the engine
looks at may be another one at every call. -/
inductive Makes (e : Engine σ) : σ → Call → σ → Prop
  | setUp (d : Disk) (setup : LinterSetup) (a : σ) :
      Makes e a (.setUp setup (e.setUp d setup a).value) (e.setUp d setup a).state
  | probe (d : Disk) (a : σ) :
      Makes e a (.probe (e.isAlive d a).value) (e.isAlive d a).state
  | load (d : Disk) (path : Path) (a : σ) :
      Makes e a (.load path (e.loadConfig d path a).value) (e.loadConfig d path a).state
  | analyze (d : Disk) (request : Request) (a : σ) :
      Makes e a (.analyze request (e.analyze d request a).value) (e.analyze d request a).state
  | reset (d : Disk) (a : σ) :
      Makes e a (.reset (e.reset d a).value) (e.reset d a).state

/-- A list of calls takes the engine from one state to another. -/
inductive History (e : Engine σ) : σ → List Call → σ → Prop
  | nil (a : σ) : History e a [] a
  | cons {a b c : σ} {call : Call} {calls : List Call} (first : e.Makes a call b)
      (rest : History e b calls c) : History e a (call :: calls) c

theorem Makes.history {e : Engine σ} {a b : σ} {call : Call} (h : e.Makes a call b) :
    e.History a [call] b :=
  .cons h (.nil b)

theorem History.append {e : Engine σ} {a b c : σ} {first rest : List Call}
    (hfirst : e.History a first b) (hrest : e.History b rest c) :
    e.History a (first ++ rest) c := by
  induction hfirst with
  | nil => exact hrest
  | cons call _ ih => exact .cons call (ih hrest)

/-- Between the calls of a history the engine is in a state. -/
theorem History.split {e : Engine σ} {a c : σ} {first rest : List Call}
    (h : e.History a (first ++ rest) c) : ∃ b, e.History a first b ∧ e.History b rest c := by
  induction first generalizing a with
  | nil => exact ⟨a, .nil a, h⟩
  | cons call first ih =>
    cases h with
    | cons makes history =>
      obtain ⟨b, hfirst, hrest⟩ := ih history
      exact ⟨b, .cons makes hfirst, hrest⟩

/-- Some history leads the engine to a state in which it answers a load with this
result. -/
def CanAnswer (e : Engine σ) (d : Disk) (start : σ) (p : Path)
    (result : Except EngineError ConfigFile) : Prop :=
  ∃ calls a, e.History start calls a ∧ (e.loadConfig d p a).value = result

/-- An engine that keeps no state and never dies: configurations and responses are
looked up. -/
def ofTables (configs : Path → Except EngineError ConfigFile)
    (responses : Request → Except EngineError Response) : Engine Unit where
  setUp _ _ s := .quiet (.ok ()) s
  isAlive _ s := .quiet true s
  loadConfig _ path s := .quiet (configs path) s
  analyze _ request s := .quiet (responses request) s
  reset _ s := .quiet (.ok ()) s

end Engine

end LintRelay
