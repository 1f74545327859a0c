import LintRelay.Proofs.Engine.Calls
import LintRelay.Run.Session
set_option autoImplicit false

/-!
# What a run leaves in its trace

A run under way keeps the moments it has been through.  Its calls to the engine and its
deliveries to the sink are read off them.  Everything that is logged, called or
delivered is an emission, and an emission changes nothing but the moments: `emitAll` is
the normal form that the lemmas here bring the others to.
-/

namespace LintRelay

/-- The calls to the engine among moments. -/
def callsAt (moments : List Moment) : List Call := callsOf (moments.map Moment.event)

/-- The deliveries to the sink among moments. -/
def deliveriesAt (moments : List Moment) : List (Path × Response) :=
  deliveriesOf (moments.map Moment.event)

/-- A sink that counts what it is handed and never interrupts. -/
def Sink.counting : Sink Nat := ⟨fun _ _ count => (count + 1, false)⟩

namespace Live

variable {σ τ : Type}

/-- The calls that a run has made. -/
def calls (l : Live σ τ) : List Call := callsAt l.moments

/-- The deliveries that a run has made. -/
def deliveries (l : Live σ τ) : List (Path × Response) := deliveriesAt l.moments

/-! ## Emissions -/

@[simp] theorem emitAll_engine (l : Live σ τ) (es : List Event) :
    (l.emitAll es).engine = l.engine := rfl

@[simp] theorem emitAll_sink (l : Live σ τ) (es : List Event) :
    (l.emitAll es).sink = l.sink := rfl

@[simp] theorem emitAll_disk (l : Live σ τ) (es : List Event) :
    (l.emitAll es).disk = l.disk := rfl

@[simp] theorem emitAll_recorder (l : Live σ τ) (es : List Event) :
    (l.emitAll es).recorder = l.recorder := rfl

@[simp] theorem emitAll_progress (l : Live σ τ) (es : List Event) :
    (l.emitAll es).progress = l.progress := rfl

@[simp] theorem emitAll_summary (l : Live σ τ) (es : List Event) :
    (l.emitAll es).summary = l.summary := rfl

@[simp] theorem emitAll_cancelled (l : Live σ τ) (es : List Event) :
    (l.emitAll es).cancelled = l.cancelled := rfl

@[simp] theorem emitAll_generated (l : Live σ τ) (es : List Event) :
    (l.emitAll es).generated = l.generated := rfl

@[simp] theorem callsAt_emitAll (l : Live σ τ) (es : List Event) :
    callsAt (l.emitAll es).moments = callsAt l.moments ++ callsOf es := by
  simp [callsAt, emitAll, Function.comp_def]

@[simp] theorem deliveriesAt_emitAll (l : Live σ τ) (es : List Event) :
    deliveriesAt (l.emitAll es).moments = deliveriesAt l.moments ++ deliveriesOf es := by
  simp [deliveriesAt, emitAll, Function.comp_def]

@[simp] theorem emit_eq_emitAll (l : Live σ τ) (e : Event) : l.emit e = l.emitAll [e] := rfl

@[simp] theorem say_eq_emitAll (l : Live σ τ) (level : Log.Level) (message : String) :
    l.say level message = l.emitAll [.log ⟨level, .run, message⟩] := rfl

@[simp] theorem logAll_eq_emitAll (l : Live σ τ) (lines : List Log.Line) :
    l.logAll lines = l.emitAll (lines.map .log) := rfl

@[simp] theorem answered_eq_emitAll {α : Type} (l : Live σ τ) (call : Call) (a : Answer σ α) :
    l.answered call a =
      { l with engine := a.state, cancelled := l.cancelled || a.interrupted }.emitAll
        (.call call :: a.log.map .log) := rfl

/-! ## Calls made between two moments -/

/-- A run has gone on by the calls made, and the engine has answered them. -/
structure Traced (e : Engine σ) (made : List Call) (l l' : Live σ τ) : Prop where
  calls : l'.calls = l.calls ++ made
  history : e.History l.engine made l'.engine

theorem Traced.refl (e : Engine σ) (l : Live σ τ) : Traced e [] l l where
  calls := by simp
  history := .nil l.engine

theorem Traced.trans {e : Engine σ} {first rest : List Call} {l₁ l₂ l₃ : Live σ τ}
    (h : Traced e first l₁ l₂) (h' : Traced e rest l₂ l₃) : Traced e (first ++ rest) l₁ l₃ where
  calls := by rw [h'.calls, h.calls, List.append_assoc]
  history := h.history.append h'.history

theorem traced_say (e : Engine σ) (l : Live σ τ) (level : Log.Level) (message : String) :
    Traced e [] l (l.say level message) where
  calls := by simp [calls]
  history := .nil l.engine

/-- A call and its answer are one entry of the trace. -/
theorem traced_answered {α : Type} {e : Engine σ} {call : Call} {a : Answer σ α} {l : Live σ τ}
    (h : e.Makes l.engine call a.state) : Traced e [call] l (l.answered call a) where
  calls := by simp [calls]
  history := h.history

end Live

namespace Finished

variable {σ τ : Type}

/-- The calls of a run that has come to its end. -/
def calls (f : Finished σ τ) : List Call := callsAt f.moments

/-- The deliveries of a run that has come to its end. -/
def deliveries (f : Finished σ τ) : List (Path × Response) := deliveriesAt f.moments

end Finished

end LintRelay
