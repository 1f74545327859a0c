import LintRelay.Proofs.Run.Phases
set_option autoImplicit false

/-!
# The conversation of a run with its engine

Which calls a run makes depends on the engine, the disk, the sink and on interruptions,
but they always form a conversation of one shape.  This file gives that shape as a
grammar, without a state: `Segment` has the calls of one task, `Feed` those of a list of
tasks, and `Conversation` those of a whole run.  `execute_conversation` says that every
run conforms to it and that the engine has answered as it does.  What the order of calls
has to obey is then proved of the grammar.
-/

namespace LintRelay

open Live (Planning requestFor)

/-! ## The grammar -/

/-- The calls of one task, with the outcome of the run when the task ends it. -/
inductive Segment (o : RunOptions) : Task → Option (Except RunError RunState) → List Call → Prop
  | skip (files : List SourceFile) : Segment o (.skip files) none []
  | announce (label : Option String) (files : List SourceFile) :
      Segment o (.announce label files) none []
  | reset : Segment o .reset none [.reset (.ok ())]
  | resetFailed (err : EngineError) :
      Segment o .reset (some (.error (.ofEngine err))) [.reset (.error err)]
  | interrupted (configs : List String) (f : SourceFile) :
      Segment o (.file configs f) (some (.ok .cancelled)) []
  | dead (configs : List String) (f : SourceFile) :
      Segment o (.file configs f) (some (.error (.engineUnavailable "engine is not answering")))
        [.probe false]
  | unread (configs : List String) (f : SourceFile) (err : Disk.OsError) :
      Segment o (.file configs f) (some (.error (.read f.path err))) [.probe true]
  | refused (configs : List String) (f : SourceFile) (content : Option String)
      (err : EngineError) :
      Segment o (.file configs f) (some (.error (.ofEngine err)))
        [.probe true, .analyze (requestFor o configs f content) (.error err)]
  | answered (configs : List String) (f : SourceFile) (content : Option String) (r : Response) :
      Segment o (.file configs f) none
        [.probe true, .analyze (requestFor o configs f content) (.ok r)]

/-- The calls of tasks that are performed until one of them ends the run. -/
inductive Feed (o : RunOptions) : List Task → Except RunError RunState → List Call → Prop
  | done : Feed o [] (.ok .completed) []
  | stop {t : Task} {outcome : Except RunError RunState} {made : List Call} (rest : List Task)
      (segment : Segment o t (some outcome) made) : Feed o (t :: rest) outcome made
  | next {t : Task} {rest : List Task} {outcome : Except RunError RunState}
      {made calls : List Call} (segment : Segment o t none made)
      (feed : Feed o rest outcome calls) : Feed o (t :: rest) outcome (made ++ calls)

/-- The calls of a run, with its outcome; `none` is the outcome of a run that was given
up because there was too much to load. -/
inductive Conversation (o : RunOptions) (mode : RunMode) (files : List SourceFile) :
    Option (Except RunError RunState) → List Call → Prop
  | setUpFailed (err : EngineError) :
      Conversation o mode files (some (.error (.ofEngine err))) [.setUp o.setup (.error err)]
  | endless (loads : List Call) (planning : Planning files mode none loads) :
      Conversation o mode files none (.setUp o.setup (.ok ()) :: loads)
  | planFailed (err : RunError) (loads : List Call)
      (planning : Planning files mode (some (.error err)) loads) :
      Conversation o mode files (some (.error err)) (.setUp o.setup (.ok ()) :: loads)
  | nothing (loads : List Call) (planning : Planning files mode (some (.ok .nothing)) loads) :
      Conversation o mode files (some (.ok .completed)) (.setUp o.setup (.ok ()) :: loads)
  | fed (batches : List Batch) (loads made : List Call) (outcome : Except RunError RunState)
      (planning : Planning files mode (some (.ok (.batches batches))) loads)
      (feed : Feed o (Batch.tasks true batches) outcome made) :
      Conversation o mode files (some outcome) (.setUp o.setup (.ok ()) :: (loads ++ made))

namespace Live

variable {σ τ : Type}

/-! ## The parts of a turn -/

theorem traced_probed (e : Engine σ) (l : Live σ τ) :
    Traced e [.probe (e.isAlive l.disk l.engine).value] l (l.probed e) :=
  traced_answered (.probe l.disk l.engine)

theorem traced_resetDone (e : Engine σ) (l : Live σ τ) :
    Traced e [.reset (e.reset l.disk l.engine).value] l (l.resetDone e) :=
  traced_answered (.reset l.disk l.engine)

theorem traced_asked (e : Engine σ) (request : Request) (f : SourceFile) (l : Live σ τ) :
    Traced e [.analyze request (e.analyze l.disk request l.engine).value] l
      (l.asked e request f) where
  calls := by simp [asked, calls]
  history := (Engine.Makes.analyze l.disk request l.engine).history

theorem traced_skipFiles (e : Engine σ) (files : List SourceFile) (l : Live σ τ) :
    Traced e [] l (l.skipFiles files) where
  calls := by simp [skipFiles, calls]
  history := .nil l.engine

theorem traced_turned (e : Engine σ) (s : Sink τ) (f : SourceFile) (r : Response)
    (l : Live σ τ) : Traced e [] l (l.turned s f r) := by
  unfold turned deliver
  cases r.error with
  | some error => exact { calls := by simp [calls], history := .nil l.engine }
  | none =>
    cases r.parsingError <;> exact { calls := by simp [calls], history := .nil l.engine }

theorem traced_startProgress (e : Engine σ) (o : RunOptions) (batches : List Batch)
    (l : Live σ τ) : Traced e [] l (l.startProgress o batches) where
  calls := by simp [startProgress, calls]
  history := .nil l.engine

/-! ## Runs conform to the grammar -/

theorem Step.segment {e : Engine σ} {s : Sink τ} {o : RunOptions} {l l' : Live σ τ} {t : Task}
    {outcome : Option (Except RunError RunState)} (h : Step e s o l t outcome l') :
    ∃ made, Traced e made l l' ∧ Segment o t outcome made := by
  have hprobed := traced_probed e l
  have hreset := traced_resetDone e l
  cases h with
  | skip files => exact ⟨[], traced_skipFiles e files l, .skip files⟩
  | announce label files => exact ⟨[], traced_say e l .info _, .announce label files⟩
  | reset hvalue =>
    rw [hvalue] at hreset
    exact ⟨_, hreset, .reset⟩
  | resetFailed err hvalue =>
    rw [hvalue] at hreset
    exact ⟨_, hreset, .resetFailed err⟩
  | interrupted configs f hcancelled =>
    exact ⟨[], traced_say e l .info _, .interrupted configs f⟩
  | dead configs f hcancelled halive =>
    rw [halive] at hprobed
    exact ⟨_, hprobed, .dead configs f⟩
  | unread configs f err hcancelled halive hread =>
    rw [halive] at hprobed
    exact ⟨_, hprobed, .unread configs f err⟩
  | refused configs f content err hcancelled halive hread hvalue =>
    have hasked := traced_asked e (requestFor o configs f content) f (l.probed e)
    have hdisk : (l.probed e).disk = l.disk := rfl
    rw [hdisk, hvalue] at hasked
    rw [halive] at hprobed
    exact ⟨_, (hprobed.trans hasked).trans (traced_say e _ .error _),
      .refused configs f content err⟩
  | answered configs f content r hcancelled halive hread hvalue =>
    have hasked := traced_asked e (requestFor o configs f content) f (l.probed e)
    have hdisk : (l.probed e).disk = l.disk := rfl
    rw [hdisk, hvalue] at hasked
    rw [halive] at hprobed
    exact ⟨_, (hprobed.trans hasked).trans (traced_turned e s f r _),
      .answered configs f content r⟩

theorem Performs.feed {e : Engine σ} {s : Sink τ} {o : RunOptions} {tasks : List Task}
    {l l' : Live σ τ} {outcome : Except RunError RunState}
    (h : Performs e s o tasks l outcome l') :
    ∃ made, Traced e made l l' ∧ Feed o tasks outcome made := by
  induction h with
  | done l => exact ⟨[], .refl e l, .done⟩
  | stop rest step =>
    obtain ⟨made, htraced, hsegment⟩ := step.segment
    exact ⟨made, htraced, .stop rest hsegment⟩
  | next step _ ih =>
    obtain ⟨made, htraced, hsegment⟩ := step.segment
    obtain ⟨calls, hrest, hfeed⟩ := ih
    exact ⟨made ++ calls, htraced.trans hrest, .next hsegment hfeed⟩

theorem Executed.conversation {e : Engine σ} {s : Sink τ} {o : RunOptions} {mode : RunMode}
    {files : List SourceFile} {l l' : Live σ τ} {outcome : Option (Except RunError RunState)}
    (h : Executed e s o mode files l outcome l') :
    ∃ made, Traced e made l l' ∧ Conversation o mode files outcome made := by
  cases h with
  | setUpFailed err _ hsetUp => exact ⟨_, hsetUp.toTraced, .setUpFailed err⟩
  | endless loads _ hprepared hplanning =>
    exact ⟨_, hprepared.toTraced, .endless loads hplanning⟩
  | planFailed err loads _ hprepared hplanning =>
    exact ⟨_, hprepared.toTraced, .planFailed err loads hplanning⟩
  | nothing loads _ hprepared hplanning =>
    exact ⟨_, hprepared.toTraced, .nothing loads hplanning⟩
  | fed batches loads l₁ hprepared hplanning outcome _ hperforms =>
    obtain ⟨made, hmade, hfeed⟩ := hperforms.feed
    have htraced := (hprepared.toTraced.trans (traced_startProgress e o batches l₁)).trans hmade
    rw [List.append_nil] at htraced
    exact ⟨_, htraced, .fed batches loads made outcome hplanning hfeed⟩

end Live

namespace Session

variable {σ τ : Type}

/-- The calls that the first run of a session makes, also when it does not return. -/
def callsMade (e : Engine σ) (s : Sink τ) (around : Surroundings) (o : RunOptions)
    (mode : RunMode) (files : List SourceFile) (n : Session σ τ) : List Call :=
  ((n.begin_ around o).execute e s around o mode files).2.calls

/-- Every run has a conversation with its engine. -/
theorem execute_conversation (e : Engine σ) (s : Sink τ) (around : Surroundings)
    (o : RunOptions) (mode : RunMode) (files : List SourceFile) (n : Session σ τ) :
    Conversation o mode files ((n.begin_ around o).execute e s around o mode files).1
        (n.callsMade e s around o mode files) ∧
      e.History n.engine (n.callsMade e s around o mode files)
        ((n.begin_ around o).execute e s around o mode files).2.engine := by
  obtain ⟨made, htraced, hconversation⟩ :=
    (n.begin_executed e s around o mode files).conversation
  have hmade : n.callsMade e s around o mode files = made := htraced.calls
  rw [hmade]
  exact ⟨hconversation, htraced.history⟩

/-- A run that returns has made the calls that it made up to its outcome: closing makes
no call. -/
theorem calls_of_run {e : Engine σ} {s : Sink τ} {around : Surroundings} {o : RunOptions}
    {mode : RunMode} {files : List SourceFile} {n : Session σ τ} {fin : Finished σ τ}
    (hfirst : n.state = .notStarted) (hrun : n.run e s around o mode files = some fin) :
    fin.calls = n.callsMade e s around o mode files ∧
      fin.session.engine = ((n.begin_ around o).execute e s around o mode files).2.engine := by
  obtain ⟨outcome, l, hexecute, rfl⟩ := (run_eq_some_iff hfirst).mp hrun
  have hclosed := l.finish_closed around outcome
  unfold callsMade
  rw [hexecute]
  exact ⟨hclosed.calls, hclosed.engine⟩

end Session

end LintRelay
