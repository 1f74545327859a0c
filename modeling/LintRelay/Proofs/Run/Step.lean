import LintRelay.Proofs.Run.Tasks
set_option autoImplicit false

/-!
# What one task can do to a run

`Step` says everything that performing one task can lead to: the outcome, if the task
ends the run, and the run afterwards, spelled out as what happened to it.  It holds of a
run whose recorder has no file open, and every task that does not end the run leaves it
so; in such a run the recorder never refuses.  Facts about whole runs are proved from
`Step`, not from the functions that feed files.
-/

namespace LintRelay

/-! ## The recorder between files -/

namespace Recorder

/-- The recorder with a file open. -/
def opened (r : Recorder) (id : String) : Recorder :=
  if r.enabled then { r with current := some id } else r

/-- The recorder with the record of a file completed and no file open. -/
def recorded (r : Recorder) (id : String) (ncloc : Nat) (perf : Perf) : Recorder :=
  if r.enabled then
    { r with
      current := none
      files := r.files ++ [⟨id, perf.analysisTime, perf.parseTime, ncloc, r.files.length⟩] }
  else r

theorem startFile_of_idle {r : Recorder} (hidle : r.current = none) (id : String) :
    r.startFile id = (.ok (), r.opened id) := by
  cases henabled : r.enabled <;> simp [startFile, opened, henabled, hidle]

theorem stopFile_opened (r : Recorder) (id : String) (ncloc : Nat) (perf : Perf) :
    (r.opened id).stopFile id ncloc perf = (.ok (), (r.opened id).recorded id ncloc perf) := by
  cases henabled : r.enabled <;> simp [stopFile, opened, recorded, henabled]

@[simp] theorem opened_enabled (r : Recorder) (id : String) :
    (r.opened id).enabled = r.enabled := by
  unfold opened
  split <;> rfl

@[simp] theorem opened_files (r : Recorder) (id : String) : (r.opened id).files = r.files := by
  unfold opened
  split <;> rfl

@[simp] theorem recorded_enabled (r : Recorder) (id : String) (ncloc : Nat) (perf : Perf) :
    (r.recorded id ncloc perf).enabled = r.enabled := by
  unfold recorded
  split <;> rfl

theorem length_recorded_files (r : Recorder) (id : String) (ncloc : Nat) (perf : Perf) :
    (r.recorded id ncloc perf).files.length = r.files.length + if r.enabled then 1 else 0 := by
  unfold recorded
  split <;> simp

theorem recorded_opened_current {r : Recorder} (hidle : r.current = none) (id : String)
    (ncloc : Nat) (perf : Perf) : ((r.opened id).recorded id ncloc perf).current = none := by
  cases henabled : r.enabled <;> simp [opened, recorded, henabled, hidle]

end Recorder

namespace Live

variable {σ τ : Type}

/-! ## The parts of a turn -/

/-- The engine has been asked whether it is alive. -/
def probed (e : Engine σ) (l : Live σ τ) : Live σ τ :=
  l.answered (.probe (e.isAlive l.disk l.engine).value) (e.isAlive l.disk l.engine)

/-- The engine has been asked to forget its configuration. -/
def resetDone (e : Engine σ) (l : Live σ τ) : Live σ τ :=
  l.answered (.reset (e.reset l.disk l.engine).value) (e.reset l.disk l.engine)

/-- The engine has been asked to analyze a file, which the recorder times. -/
def asked (e : Engine σ) (request : Request) (f : SourceFile) (l : Live σ τ) : Live σ τ :=
  { l with recorder := l.recorder.opened f.display }.answered
    (.analyze request (e.analyze l.disk request l.engine).value)
    (e.analyze l.disk request l.engine)

/-- The response to a file has been delivered, and the file recorded and counted. -/
def turned (s : Sink τ) (f : SourceFile) (r : Response) (l : Live σ τ) : Live σ τ :=
  { l.deliver s f r with
    recorder := l.recorder.recorded f.display r.metrics.ncloc.length (r.perf.getD .zero)
    progress := l.progress.map Progress.nextFile }

theorem asked_recorder (e : Engine σ) (request : Request) (f : SourceFile) (l : Live σ τ) :
    (l.asked e request f).recorder = l.recorder.opened f.display := rfl

theorem deliver_recorder (s : Sink τ) (f : SourceFile) (r : Response) (l : Live σ τ) :
    (l.deliver s f r).recorder = l.recorder := by
  unfold deliver
  cases r.error with
  | some error => rfl
  | none => cases r.parsingError <;> rfl

theorem deliver_progress (s : Sink τ) (f : SourceFile) (r : Response) (l : Live σ τ) :
    (l.deliver s f r).progress = l.progress := by
  unfold deliver
  cases r.error with
  | some error => rfl
  | none => cases r.parsingError <;> rfl

/-- What performing a task can lead to: the outcome of the run when the task ends it,
and the run afterwards. -/
inductive Step (e : Engine σ) (s : Sink τ) (o : RunOptions) (l : Live σ τ) :
    Task → Option (Except RunError RunState) → Live σ τ → Prop
  | skip (files : List SourceFile) : Step e s o l (.skip files) none (l.skipFiles files)
  | announce (label : Option String) (files : List SourceFile) :
      Step e s o l (.announce label files) none (l.say .info (batchLine label files))
  | reset (hvalue : (e.reset l.disk l.engine).value = .ok ()) :
      Step e s o l .reset none (l.resetDone e)
  | resetFailed (err : EngineError) (hvalue : (e.reset l.disk l.engine).value = .error err) :
      Step e s o l .reset (some (.error (.ofEngine err))) (l.resetDone e)
  | interrupted (configs : List String) (f : SourceFile) (hcancelled : l.cancelled = true) :
      Step e s o l (.file configs f) (some (.ok .cancelled))
        (l.say .info "Analysis interrupted because the run was cancelled")
  | dead (configs : List String) (f : SourceFile) (hcancelled : l.cancelled = false)
      (halive : (e.isAlive l.disk l.engine).value = false) :
      Step e s o l (.file configs f)
        (some (.error (.engineUnavailable "engine is not answering"))) (l.probed e)
  | unread (configs : List String) (f : SourceFile) (err : Disk.OsError)
      (hcancelled : l.cancelled = false) (halive : (e.isAlive l.disk l.engine).value = true)
      (hread : f.requestContents l.disk o.sendFileContent = .error err) :
      Step e s o l (.file configs f) (some (.error (.read f.path err))) (l.probed e)
  | refused (configs : List String) (f : SourceFile) (content : Option String)
      (err : EngineError) (hcancelled : l.cancelled = false)
      (halive : (e.isAlive l.disk l.engine).value = true)
      (hread : f.requestContents l.disk o.sendFileContent = .ok content)
      (hvalue : (e.analyze l.disk (requestFor o configs f content) (l.probed e).engine).value =
        .error err) :
      Step e s o l (.file configs f) (some (.error (.ofEngine err)))
        (((l.probed e).asked e (requestFor o configs f content) f).say .error
          ("Failed to get response while analyzing " ++ f.display ++ ": " ++ err.message))
  | answered (configs : List String) (f : SourceFile) (content : Option String) (r : Response)
      (hcancelled : l.cancelled = false) (halive : (e.isAlive l.disk l.engine).value = true)
      (hread : f.requestContents l.disk o.sendFileContent = .ok content)
      (hvalue : (e.analyze l.disk (requestFor o configs f content) (l.probed e).engine).value =
        .ok r) :
      Step e s o l (.file configs f) none
        (((l.probed e).asked e (requestFor o configs f content) f).turned s f r)

/-! ## Performing a task is a step -/

/-- A file is read, and then the engine answers or fails: with no file open the recorder
takes part without a word. -/
theorem analyzeFile_of_idle (e : Engine σ) (s : Sink τ) (o : RunOptions)
    (configs : List String) (f : SourceFile) {l : Live σ τ} (hidle : l.recorder.current = none) :
    l.analyzeFile e s o configs f =
      match f.requestContents l.disk o.sendFileContent with
      | .error err => (.error (.read f.path err), l)
      | .ok content =>
        match (e.analyze l.disk (requestFor o configs f content) l.engine).value with
        | .error err =>
          (.error (.ofEngine err),
            (l.asked e (requestFor o configs f content) f).say .error
              ("Failed to get response while analyzing " ++ f.display ++ ": " ++ err.message))
        | .ok r =>
          (.ok (),
            { (l.asked e (requestFor o configs f content) f).deliver s f r with
              recorder := (l.recorder.opened f.display).recorded f.display
                r.metrics.ncloc.length (r.perf.getD .zero) }) := by
  unfold analyzeFile
  cases f.requestContents l.disk o.sendFileContent with
  | error err => rfl
  | ok content =>
    simp only [Recorder.startFile_of_idle hidle]
    cases hvalue : (e.analyze l.disk (requestFor o configs f content) l.engine).value with
    | error err => simp only [hvalue, asked]
    | ok r =>
      simp only [hvalue, deliver_recorder, asked, answered_eq_emitAll, emitAll_recorder,
        Recorder.stopFile_opened]

theorem perform_file_step {e : Engine σ} {s : Sink τ} {o : RunOptions} {l : Live σ τ}
    (hidle : l.recorder.current = none) (configs : List String) (f : SourceFile) :
    Step e s o l (.file configs f) (l.perform e s o (.file configs f)).1
      (l.perform e s o (.file configs f)).2 := by
  have hidleProbed : (l.probed e).recorder.current = none := hidle
  simp only [perform, feedFiles]
  cases hcancelled : l.cancelled with
  | true =>
    simp only [if_true]
    exact .interrupted configs f hcancelled
  | false =>
    simp only [Bool.false_eq_true, if_false]
    cases halive : (e.isAlive l.disk l.engine).value with
    | false =>
      simp only [Bool.false_eq_true, if_false]
      have hstep := Step.dead (e := e) (s := s) (o := o) (l := l) configs f hcancelled halive
      simpa only [probed, halive] using hstep
    | true =>
      have hprobed : l.answered (.probe true) (e.isAlive l.disk l.engine) = l.probed e := by
        rw [probed, halive]
      simp only [if_true, hprobed, analyzeFile_of_idle e s o configs f hidleProbed]
      cases hread : f.requestContents (l.probed e).disk o.sendFileContent with
      | error err => exact .unread configs f err hcancelled halive hread
      | ok content =>
        simp only
        cases hvalue : (e.analyze (l.probed e).disk (requestFor o configs f content)
            (l.probed e).engine).value with
        | error err => exact .refused configs f content err hcancelled halive hread hvalue
        | ok r =>
          have hstep := Step.answered (e := e) (s := s) (o := o) (l := l) configs f content r
            hcancelled halive hread hvalue
          simpa only [turned, deliver_progress, asked_recorder] using hstep

/-- Performing a task is a step, when no file is open. -/
theorem perform_step {e : Engine σ} {s : Sink τ} {o : RunOptions} {l : Live σ τ}
    (hidle : l.recorder.current = none) (t : Task) :
    Step e s o l t (l.perform e s o t).1 (l.perform e s o t).2 := by
  cases t with
  | skip files => exact .skip files
  | announce label files => exact .announce label files
  | file configs f => exact perform_file_step hidle configs f
  | reset =>
    simp only [perform, resetBetween, Bool.false_eq_true, if_false]
    cases hvalue : (e.reset l.disk l.engine).value with
    | error err =>
      have hstep := Step.resetFailed (e := e) (s := s) (o := o) (l := l) err hvalue
      simpa only [resetDone, hvalue] using hstep
    | ok done =>
      have hstep := Step.reset (e := e) (s := s) (o := o) (l := l) hvalue
      simpa only [resetDone, hvalue] using hstep

/-- A task that does not end the run leaves no file open. -/
theorem Step.idle {e : Engine σ} {s : Sink τ} {o : RunOptions} {l l' : Live σ τ} {t : Task}
    (h : Step e s o l t none l') (hidle : l.recorder.current = none) :
    l'.recorder.current = none := by
  cases h with
  | skip files => exact hidle
  | announce label files => exact hidle
  | reset hvalue => exact hidle
  | answered configs f content r hcancelled halive hread hvalue =>
    exact Recorder.recorded_opened_current hidle _ _ _

/-! ## Performing tasks -/

/-- What performing tasks leads to: one step after the other, until a step ends the run
or no task is left. -/
inductive Performs (e : Engine σ) (s : Sink τ) (o : RunOptions) :
    List Task → Live σ τ → Except RunError RunState → Live σ τ → Prop
  | done (l : Live σ τ) : Performs e s o [] l (.ok .completed) l
  | stop {t : Task} {l l' : Live σ τ} {outcome : Except RunError RunState} (rest : List Task)
      (step : Step e s o l t (some outcome) l') : Performs e s o (t :: rest) l outcome l'
  | next {t : Task} {rest : List Task} {l l₁ l' : Live σ τ} {outcome : Except RunError RunState}
      (step : Step e s o l t none l₁) (performs : Performs e s o rest l₁ outcome l') :
      Performs e s o (t :: rest) l outcome l'

theorem performAll_performs {e : Engine σ} {s : Sink τ} {o : RunOptions} (tasks : List Task)
    {l : Live σ τ} (hidle : l.recorder.current = none) :
    Performs e s o tasks l (l.performAll e s o tasks).1 (l.performAll e s o tasks).2 := by
  induction tasks generalizing l with
  | nil => exact .done l
  | cons t rest ih =>
    have ht := perform_step (e := e) (s := s) (o := o) hidle t
    rcases hperform : l.perform e s o t with ⟨_ | outcome, l'⟩
    · rw [hperform] at ht
      rw [performAll_cons_none rest hperform]
      exact .next ht (ih (ht.idle hidle))
    · rw [hperform] at ht
      rw [performAll_cons_some rest hperform]
      exact .stop rest ht

/-! ## Steps are determined -/

theorem Step.unique {e : Engine σ} {s : Sink τ} {o : RunOptions} {l l₁ l₂ : Live σ τ} {t : Task}
    {outcome₁ outcome₂ : Option (Except RunError RunState)} (h₁ : Step e s o l t outcome₁ l₁)
    (h₂ : Step e s o l t outcome₂ l₂) : outcome₁ = outcome₂ ∧ l₁ = l₂ := by
  cases h₁ <;> cases h₂ <;> simp_all

theorem Step.perform_eq {e : Engine σ} {s : Sink τ} {o : RunOptions} {l l' : Live σ τ} {t : Task}
    {outcome : Option (Except RunError RunState)} (h : Step e s o l t outcome l')
    (hidle : l.recorder.current = none) : l.perform e s o t = (outcome, l') := by
  obtain ⟨houtcome, hlive⟩ := (perform_step hidle t).unique h
  exact Prod.ext houtcome hlive

/-- What tasks lead to step by step is what performing them gives. -/
theorem Performs.performAll_eq {e : Engine σ} {s : Sink τ} {o : RunOptions} {tasks : List Task}
    {l l' : Live σ τ} {outcome : Except RunError RunState}
    (h : Performs e s o tasks l outcome l') (hidle : l.recorder.current = none) :
    l.performAll e s o tasks = (outcome, l') := by
  induction h with
  | done l => rfl
  | stop rest step => exact performAll_cons_some rest (step.perform_eq hidle)
  | next step _ ih =>
    rw [performAll_cons_none _ (step.perform_eq hidle)]
    exact ih (step.idle hidle)

end Live

end LintRelay
