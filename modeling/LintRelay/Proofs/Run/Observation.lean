import LintRelay.Proofs.Run.Conversation
set_option autoImplicit false

/-!
# Monitoring and progress only observe

A run carries a recorder and a reporter along, and both sit in its way: files are started
and stopped with the recorder between two calls to the engine, and a recorder that refused
would end the run.  It never does, and what the two hold decides nothing.

A run is compared with what is left of it when its observers are taken away
(`Live.unobserved`): the recorder is one that is not enabled, and the ticker of the
reporter is dead.  Every step of a run is a step of the run without observers
(`Step.unobserved`), so any two runs that differ in their observers only come down to the
same one (`run_unaffected_by_observers`).
-/

namespace LintRelay

/-! ## Runs without observers -/

/-- The reporter with a ticker that is dead. -/
def Progress.unticked (p : Progress) : Progress := { p with ticking := false }

/-- A recorder that records nothing. -/
def Recorder.absent : Recorder := .new ⟨false, none⟩ ⟨""⟩

/-- The options without monitoring, and with an interval that kills the ticker. -/
def RunOptions.unobserved (o : RunOptions) : RunOptions :=
  { o with progressInterval := 0, monitoring := ⟨false, none⟩ }

/-- The surroundings without what only the recorder looks at. -/
def Surroundings.unobserved (around : Surroundings) : Surroundings :=
  { around with cache := ⟨""⟩, elapsedMs := 0 }

/-- The moment without what its reporter knows of the ticker. -/
def Moment.unobserved (m : Moment) : Moment := ⟨m.event, m.progress.map Progress.unticked⟩

namespace Live

variable {σ τ : Type}

/-- The run without its observers. -/
def unobserved (l : Live σ τ) : Live σ τ :=
  { l with
    recorder := .absent
    progress := l.progress.map Progress.unticked
    moments := l.moments.map Moment.unobserved }

/-! ## The parts of a turn -/

@[simp] theorem unobserved_emitAll (l : Live σ τ) (es : List Event) :
    (l.emitAll es).unobserved = l.unobserved.emitAll es := by
  simp [unobserved, emitAll, Moment.unobserved, Function.comp_def]

theorem unobserved_say (l : Live σ τ) (level : Log.Level) (message : String) :
    (l.say level message).unobserved = l.unobserved.say level message := by
  simp

theorem unobserved_answered {α : Type} (l : Live σ τ) (call : Call) (a : Answer σ α) :
    (l.answered call a).unobserved = l.unobserved.answered call a := by
  simp only [answered_eq_emitAll, unobserved_emitAll]
  rfl

theorem unobserved_probed (e : Engine σ) (l : Live σ τ) :
    (l.probed e).unobserved = l.unobserved.probed e :=
  unobserved_answered l _ _

theorem unobserved_resetDone (e : Engine σ) (l : Live σ τ) :
    (l.resetDone e).unobserved = l.unobserved.resetDone e :=
  unobserved_answered l _ _

theorem unobserved_asked (e : Engine σ) (request : Request) (f : SourceFile) (l : Live σ τ) :
    (l.asked e request f).unobserved = l.unobserved.asked e request f :=
  unobserved_answered _ _ _

theorem unobserved_skipFiles (files : List SourceFile) (l : Live σ τ) :
    (l.skipFiles files).unobserved = l.unobserved.skipFiles files := by
  simp only [skipFiles, unobserved_say]
  rfl

theorem unobserved_deliver (s : Sink τ) (f : SourceFile) (r : Response) (l : Live σ τ) :
    (l.deliver s f r).unobserved = l.unobserved.deliver s f r := by
  unfold deliver
  cases r.error with
  | some error => simp [unobserved, emitAll, Moment.unobserved]
  | none => cases r.parsingError <;> simp [unobserved, emitAll, Moment.unobserved]

theorem unobserved_turned (s : Sink τ) (f : SourceFile) (r : Response) (l : Live σ τ) :
    (l.turned s f r).unobserved = l.unobserved.turned s f r := by
  have hprogress : (l.progress.map Progress.nextFile).map Progress.unticked =
      (l.progress.map Progress.unticked).map Progress.nextFile := by
    cases l.progress <;> rfl
  calc (l.turned s f r).unobserved
      = { (l.deliver s f r).unobserved with
          progress := (l.progress.map Progress.nextFile).map Progress.unticked } := rfl
    _ = { l.unobserved.deliver s f r with
          progress := l.unobserved.progress.map Progress.nextFile } := by
        rw [unobserved_deliver, hprogress]
        rfl
    _ = { l.unobserved.deliver s f r with
          recorder := l.unobserved.recorder
          progress := l.unobserved.progress.map Progress.nextFile } := by
        rw [← deliver_recorder s f r l.unobserved]

/-! ## Steps -/

/-- A step of a run is one without its observers, too. -/
theorem Step.unobserved {e : Engine σ} {s : Sink τ} {o : RunOptions} {l l' : Live σ τ} {t : Task}
    {outcome : Option (Except RunError RunState)} (h : Step e s o l t outcome l') :
    Step e s o.unobserved l.unobserved t outcome l'.unobserved := by
  cases h with
  | skip files =>
    rw [unobserved_skipFiles]
    exact .skip files
  | announce label files =>
    rw [unobserved_say]
    exact .announce label files
  | reset hvalue =>
    rw [unobserved_resetDone]
    exact .reset hvalue
  | resetFailed err hvalue =>
    rw [unobserved_resetDone]
    exact .resetFailed err hvalue
  | interrupted configs f hcancelled =>
    rw [unobserved_say]
    exact .interrupted configs f hcancelled
  | dead configs f hcancelled halive =>
    rw [unobserved_probed]
    exact .dead configs f hcancelled halive
  | unread configs f err hcancelled halive hread =>
    rw [unobserved_probed]
    exact .unread configs f err hcancelled halive hread
  | refused configs f content err hcancelled halive hread hvalue =>
    rw [unobserved_say, unobserved_asked, unobserved_probed]
    exact .refused configs f content err hcancelled halive hread hvalue
  | answered configs f content r hcancelled halive hread hvalue =>
    rw [unobserved_turned, unobserved_asked, unobserved_probed]
    exact .answered configs f content r hcancelled halive hread hvalue

theorem Performs.unobserved {e : Engine σ} {s : Sink τ} {o : RunOptions} {tasks : List Task}
    {l l' : Live σ τ} {outcome : Except RunError RunState}
    (h : Performs e s o tasks l outcome l') :
    Performs e s o.unobserved tasks l.unobserved outcome l'.unobserved := by
  induction h with
  | done l => exact .done _
  | stop rest step => exact .stop rest step.unobserved
  | next step _ ih => exact .next step.unobserved ih

/-! ## Before the first file -/

theorem unobserved_setUpLinter (e : Engine σ) (o : RunOptions) (l : Live σ τ) :
    l.unobserved.setUpLinter e o.unobserved =
      ((l.setUpLinter e o).1, (l.setUpLinter e o).2.unobserved) := by
  unfold setUpLinter
  simp only [← unobserved_answered]
  cases hvalue : (e.setUp l.disk o.setup l.engine).value <;>
    simp [hvalue, RunOptions.unobserved, unobserved]

theorem unobserved_generate (around : Surroundings) (o : RunOptions) (files : List SourceFile)
    (l : Live σ τ) :
    l.unobserved.generate around.unobserved o.unobserved files =
      ((l.generate around o files).1, (l.generate around o files).2.unobserved) := by
  have hfresh : around.unobserved.fresh = around.fresh := rfl
  have hlanguage : o.unobserved.language = o.language := rfl
  have hdisk : l.unobserved.disk = l.disk := rfl
  unfold generate
  simp only [say_eq_emitAll, emitAll_disk, hfresh, hlanguage, hdisk]
  cases Generated.create l.disk around.fresh o.language files with
  | error f => simp
  | ok disk => simp [unobserved, emitAll, Moment.unobserved]

theorem unobserved_planGroups (e : Engine σ) (around : Surroundings) (seeds : List Path)
    (files : List SourceFile) (l : Live σ τ) :
    l.unobserved.planGroups e around.unobserved seeds files =
      ((l.planGroups e around seeds files).1,
        (l.planGroups e around seeds files).2.unobserved) := by
  have hloads : around.unobserved.loads = around.loads := rfl
  have hdisk : l.unobserved.disk = l.disk := rfl
  have hengine : l.unobserved.engine = l.engine := rfl
  unfold planGroups
  simp only [hloads, hdisk, hengine]
  rcases resolveGroups e l.disk around.loads seeds files l.engine with ⟨_ | err | groups, s⟩ <;>
  · simp only [unobserved_emitAll]
    rfl

theorem unobserved_plan (e : Engine σ) (around : Surroundings) (o : RunOptions) (mode : RunMode)
    (files : List SourceFile) (l : Live σ τ) :
    l.unobserved.plan e around.unobserved o.unobserved mode files =
      ((l.plan e around o mode files).1, (l.plan e around o mode files).2.unobserved) := by
  have hgenerate := unobserved_generate around o files l
  have hfresh : around.unobserved.fresh = around.fresh := rfl
  cases mode with
  | plain given =>
    unfold plan planPlain
    simp only [hgenerate]
    split
    · rcases l.generate around o files with ⟨f | done, l'⟩ <;> simp [hfresh]
    · rfl
  | configured seeds =>
    unfold plan
    simp only [hgenerate]
    split
    · rcases l.generate around o files with ⟨f | done, l'⟩
      · simp
      · exact unobserved_planGroups e around _ files l'
    · exact unobserved_planGroups e around seeds files l

theorem unobserved_startProgress (o : RunOptions) (batches : List Batch) (l : Live σ τ) :
    (l.startProgress o batches).unobserved = l.unobserved.startProgress o.unobserved batches := by
  simp only [startProgress, logAll_eq_emitAll, unobserved_emitAll]
  -- The reporter starts in the same way, up to its ticker.
  simp only [unobserved, RunOptions.unobserved, Progress.start, Progress.unticked, Option.map_some,
    ne_eq, not_true_eq_false, decide_false]

/-- A run goes through its phases as it does without observers. -/
theorem Passes.unobserved {e : Engine σ} {s : Sink τ} {around : Surroundings} {o : RunOptions}
    {mode : RunMode} {files : List SourceFile} {l l' : Live σ τ}
    {outcome : Option (Except RunError RunState)}
    (h : Passes e s around o mode files l outcome l') :
    Passes e s around.unobserved o.unobserved mode files l.unobserved outcome l'.unobserved := by
  have hset : ∀ {result : Except RunError Unit} {l₁ : Live σ τ},
      l.setUpLinter e o = (result, l₁) →
      l.unobserved.setUpLinter e o.unobserved = (result, l₁.unobserved) := by
    intro result l₁ hsetUp
    rw [unobserved_setUpLinter, hsetUp]
  have hplanned : ∀ {l₁ l₂ : Live σ τ} {result : Option (Except RunError Plan)},
      l₁.plan e around o mode files = (result, l₂) →
      l₁.unobserved.plan e around.unobserved o.unobserved mode files =
        (result, l₂.unobserved) := by
    intro l₁ l₂ result hplan
    rw [unobserved_plan, hplan]
  cases h with
  | setUpFailed hsetUp => exact .setUpFailed (hset hsetUp)
  | endless hsetUp hplan => exact .endless (hset hsetUp) (hplanned hplan)
  | planFailed hsetUp hplan => exact .planFailed (hset hsetUp) (hplanned hplan)
  | nothing hsetUp hplan => exact .nothing (hset hsetUp) (hplanned hplan)
  | fed hsetUp hplan hperforms =>
    have hfed := hperforms.unobserved
    rw [unobserved_startProgress] at hfed
    exact .fed (hset hsetUp) (hplanned hplan) hfed

theorem execute_unobserved (e : Engine σ) (s : Sink τ) (around : Surroundings) (o : RunOptions)
    (mode : RunMode) (files : List SourceFile) {l : Live σ τ}
    (hidle : l.recorder.current = none) :
    l.unobserved.execute e s around.unobserved o.unobserved mode files =
      ((l.execute e s around o mode files).1,
        (l.execute e s around o mode files).2.unobserved) :=
  (execute_passes e s around o mode files hidle).unobserved.execute_eq rfl

theorem events_unobserved (l : Live σ τ) :
    l.unobserved.moments.map Moment.event = l.moments.map Moment.event := by
  simp [unobserved, Moment.unobserved, Function.comp_def]

theorem calls_unobserved (l : Live σ τ) : l.unobserved.calls = l.calls :=
  congrArg callsOf l.events_unobserved

theorem deliveries_unobserved (l : Live σ τ) : l.unobserved.deliveries = l.deliveries :=
  congrArg deliveriesOf l.events_unobserved

theorem tally_unobserved (l : Live σ τ) : l.unobserved.tally = l.tally := by
  unfold tally unobserved
  cases l.progress <;> rfl

end Live

/-! ## Runs -/

/-- The summary without the count that only the recorder makes. -/
def RunSummary.unrecorded (s : RunSummary) : RunSummary := { s with metricRecords := 0 }

/-- What a run has done, its observers apart: what it asked of the engine and handed to the
sink, the states in which it left both, and what it came to. -/
structure Conduct (σ τ : Type) where
  calls : List Call
  deliveries : List (Path × Response)
  engine : σ
  sink : τ
  result : Except RunError RunSummary
  state : RunState
  summary : RunSummary

/-- What a finished run has done, its observers apart. -/
def Finished.conduct {σ τ : Type} (f : Finished σ τ) : Conduct σ τ where
  calls := f.calls
  deliveries := f.deliveries
  engine := f.session.engine
  sink := f.session.sink
  result := f.result.map RunSummary.unrecorded
  state := f.session.state
  summary := f.session.summary.unrecorded

namespace Session

variable {σ τ : Type}

/-- The run at its start, without observers. -/
theorem begin_unobserved (around : Surroundings) (o : RunOptions) (n : Session σ τ) :
    (n.begin_ around o).unobserved = n.begin_ around.unobserved o.unobserved := rfl

/-- What closing adds to a run concerns its observers only. -/
theorem conduct_after (around : Surroundings) (outcome : Except RunError RunState)
    (l : Live σ τ) :
    (after outcome (l.unobserved.finish around.unobserved outcome)).conduct =
      (after outcome (l.finish around outcome)).conduct := by
  have hclosed := l.finish_closed around outcome
  have hclosed' := l.unobserved.finish_closed around.unobserved outcome
  generalize l.finish around outcome = m at *
  generalize l.unobserved.finish around.unobserved outcome = m' at *
  have hcalls : m'.calls = m.calls := by
    rw [hclosed'.calls, hclosed.calls, l.calls_unobserved]
  have hdeliveries : m'.deliveries = m.deliveries := by
    rw [hclosed'.deliveries, hclosed.deliveries, l.deliveries_unobserved]
  have hengine : m'.engine = m.engine := hclosed'.engine.trans hclosed.engine.symm
  have hsink : m'.sink = m.sink := hclosed'.sink.trans hclosed.sink.symm
  have hstate : m'.summary.state = m.summary.state := by
    rw [hclosed'.summary, hclosed.summary]
  have hsummary : m'.summary.unrecorded = m.summary.unrecorded := by
    rw [hclosed'.summary, hclosed.summary, l.tally_unobserved]
    rfl
  unfold Live.calls at hcalls
  unfold Live.deliveries at hdeliveries
  cases outcome <;>
    simp [after, Finished.conduct, Finished.calls, Finished.deliveries, hcalls, hdeliveries,
      hengine, hsink, hstate, hsummary, Except.map]

theorem begin_execute_unobserved (e : Engine σ) (s : Sink τ) (around : Surroundings)
    (o : RunOptions) (mode : RunMode) (files : List SourceFile) (n : Session σ τ) :
    (n.begin_ around.unobserved o.unobserved).execute e s around.unobserved o.unobserved mode files =
      (((n.begin_ around o).execute e s around o mode files).1,
        ((n.begin_ around o).execute e s around o mode files).2.unobserved) := by
  rw [← begin_unobserved]
  exact Live.execute_unobserved e s around o mode files (n.begin_idle around o)

theorem callsMade_unobserved (e : Engine σ) (s : Sink τ) (around : Surroundings)
    (o : RunOptions) (mode : RunMode) (files : List SourceFile) (n : Session σ τ) :
    n.callsMade e s around.unobserved o.unobserved mode files =
      n.callsMade e s around o mode files := by
  unfold callsMade
  rw [begin_execute_unobserved, Live.calls_unobserved]

theorem run_unobserved (e : Engine σ) (s : Sink τ) (around : Surroundings) (o : RunOptions)
    (mode : RunMode) (files : List SourceFile) (n : Session σ τ) :
    (n.run e s around.unobserved o.unobserved mode files).map Finished.conduct =
      (n.run e s around o mode files).map Finished.conduct := by
  unfold run
  rw [begin_execute_unobserved]
  split
  · rfl
  · rcases (n.begin_ around o).execute e s around o mode files with ⟨_ | outcome, l⟩
    · rfl
    · simp only [Option.map_some, conduct_after]

end Session

/-- Let two runs have the same engine, sink, mode and files, and options that differ in the
monitoring settings and in the interval of the progress reports only; the time that they
take and the directory for metrics may differ, too.  They make the same calls, and either
one returns if the other does.  Then they have delivered the same responses, leave engine
and sink in the same states, and come to the same result, state and summary, up to the
number of records.  Nothing is asked of the disk, so this does not depend on whether
metrics can be written. -/
theorem run_unaffected_by_observers {σ τ : Type} (e : Engine σ) (s : Sink τ)
    (around : Surroundings) (o : RunOptions) (mode : RunMode) (files : List SourceFile)
    (n : Session σ τ) (monitoring : MonitoringSettings) (progressInterval : Nat)
    (cache : Path) (elapsedMs : Nat) :
    n.callsMade e s { around with cache, elapsedMs } { o with monitoring, progressInterval }
        mode files = n.callsMade e s around o mode files ∧
      (n.run e s { around with cache, elapsedMs } { o with monitoring, progressInterval }
        mode files).map Finished.conduct =
      (n.run e s around o mode files).map Finished.conduct := by
  -- Without their observers, the two runs are the same.
  have hcalls := n.callsMade_unobserved e s { around with cache, elapsedMs }
    { o with monitoring, progressInterval } mode files
  have hrun := n.run_unobserved e s { around with cache, elapsedMs }
    { o with monitoring, progressInterval } mode files
  constructor
  · rw [← hcalls]
    exact n.callsMade_unobserved e s around o mode files
  · rw [← hrun]
    exact n.run_unobserved e s around o mode files

end LintRelay
