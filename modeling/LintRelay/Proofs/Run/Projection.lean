import LintRelay.Proofs.Engine.Projection
import LintRelay.Proofs.Run.Phases
set_option autoImplicit false

/-!
# Runs with engines that have more state

A run with an engine that keeps something beside the state of another one is the run with the
other one, up to what is kept beside (`Session.run_mapEngine`).  So a run can be looked at
through an engine that takes notes, without the notes making a difference.
-/

namespace LintRelay

variable {σ' σ τ : Type} {φ : σ' → σ} {e' : Engine σ'} {e : Engine σ}

namespace Live

/-- The run with a part of the state of its engine. -/
def mapEngine (φ : σ' → σ) (l : Live σ' τ) : Live σ τ where
  engine := φ l.engine
  sink := l.sink
  disk := l.disk
  recorder := l.recorder
  progress := l.progress
  summary := l.summary
  cancelled := l.cancelled
  generated := l.generated
  moments := l.moments

/-! ## The parts of a turn -/

theorem probed_mapEngine (h : e'.Projects φ e) (l : Live σ' τ) :
    (l.mapEngine φ).probed e = (l.probed e').mapEngine φ := by
  have halive : e.isAlive (l.mapEngine φ).disk (l.mapEngine φ).engine =
      (e'.isAlive l.disk l.engine).mapState φ := h.isAlive l.disk l.engine
  rw [probed, halive]
  rfl

theorem resetDone_mapEngine (h : e'.Projects φ e) (l : Live σ' τ) :
    (l.mapEngine φ).resetDone e = (l.resetDone e').mapEngine φ := by
  have hreset : e.reset (l.mapEngine φ).disk (l.mapEngine φ).engine =
      (e'.reset l.disk l.engine).mapState φ := h.reset l.disk l.engine
  rw [resetDone, hreset]
  rfl

theorem asked_mapEngine (h : e'.Projects φ e) (request : Request) (f : SourceFile)
    (l : Live σ' τ) :
    (l.mapEngine φ).asked e request f = (l.asked e' request f).mapEngine φ := by
  have hanalyze : e.analyze (l.mapEngine φ).disk request (l.mapEngine φ).engine =
      (e'.analyze l.disk request l.engine).mapState φ := h.analyze l.disk request l.engine
  rw [asked, hanalyze]
  rfl

theorem deliver_mapEngine (s : Sink τ) (f : SourceFile) (r : Response) (l : Live σ' τ) :
    (l.mapEngine φ).deliver s f r = (l.deliver s f r).mapEngine φ := by
  unfold deliver
  cases r.error with
  | some error => rfl
  | none => cases r.parsingError <;> rfl

theorem turned_mapEngine (s : Sink τ) (f : SourceFile) (r : Response) (l : Live σ' τ) :
    (l.mapEngine φ).turned s f r = (l.turned s f r).mapEngine φ := by
  rw [turned, deliver_mapEngine]
  rfl

/-! ## Steps -/

theorem Step.mapEngine {s : Sink τ} {o : RunOptions} {l l' : Live σ' τ} {t : Task}
    {outcome : Option (Except RunError RunState)} (h : e'.Projects φ e)
    (hstep : Step e' s o l t outcome l') :
    Step e s o (l.mapEngine φ) t outcome (l'.mapEngine φ) := by
  have halive : (e.isAlive (l.mapEngine φ).disk (l.mapEngine φ).engine).value =
      (e'.isAlive l.disk l.engine).value := congrArg Answer.value (h.isAlive l.disk l.engine)
  have hreset : (e.reset (l.mapEngine φ).disk (l.mapEngine φ).engine).value =
      (e'.reset l.disk l.engine).value := congrArg Answer.value (h.reset l.disk l.engine)
  have hanalyze : ∀ request, (e.analyze (l.mapEngine φ).disk request
      ((l.mapEngine φ).probed e).engine).value =
      (e'.analyze l.disk request (l.probed e').engine).value := by
    intro request
    rw [probed_mapEngine h]
    exact congrArg Answer.value (h.analyze l.disk request (l.probed e').engine)
  cases hstep with
  | skip files => exact .skip files
  | announce label files => exact .announce label files
  | reset hvalue =>
    rw [← resetDone_mapEngine h]
    exact .reset (hreset.trans hvalue)
  | resetFailed err hvalue =>
    rw [← resetDone_mapEngine h]
    exact .resetFailed err (hreset.trans hvalue)
  | interrupted configs f hcancelled => exact .interrupted configs f hcancelled
  | dead configs f hcancelled hdead =>
    rw [← probed_mapEngine h]
    exact .dead configs f hcancelled (halive.trans hdead)
  | unread configs f err hcancelled hlive hread =>
    rw [← probed_mapEngine h]
    exact .unread configs f err hcancelled (halive.trans hlive) hread
  | refused configs f content err hcancelled hlive hread hvalue =>
    have hrefused := Step.refused (s := s) (l := l.mapEngine φ) configs f content err hcancelled
      (halive.trans hlive) hread ((hanalyze _).trans hvalue)
    rw [probed_mapEngine h, asked_mapEngine h] at hrefused
    exact hrefused
  | answered configs f content r hcancelled hlive hread hvalue =>
    have hanswered := Step.answered (s := s) (l := l.mapEngine φ) configs f content r hcancelled
      (halive.trans hlive) hread ((hanalyze _).trans hvalue)
    rw [probed_mapEngine h, asked_mapEngine h, turned_mapEngine] at hanswered
    exact hanswered

theorem Performs.mapEngine {s : Sink τ} {o : RunOptions} {tasks : List Task} {l l' : Live σ' τ}
    {outcome : Except RunError RunState} (h : e'.Projects φ e)
    (hperforms : Performs e' s o tasks l outcome l') :
    Performs e s o tasks (l.mapEngine φ) outcome (l'.mapEngine φ) := by
  induction hperforms with
  | done l => exact .done _
  | stop rest step => exact .stop rest (step.mapEngine h)
  | next step _ ih => exact .next (step.mapEngine h) ih

/-! ## Phases -/

theorem setUpLinter_mapEngine (h : e'.Projects φ e) (o : RunOptions) (l : Live σ' τ) :
    (l.mapEngine φ).setUpLinter e o =
      ((l.setUpLinter e' o).1, (l.setUpLinter e' o).2.mapEngine φ) := by
  have hsetUp : e.setUp (l.mapEngine φ).disk o.setup (l.mapEngine φ).engine =
      (e'.setUp l.disk o.setup l.engine).mapState φ := h.setUp l.disk o.setup l.engine
  unfold setUpLinter
  rw [hsetUp]
  cases hvalue : (e'.setUp l.disk o.setup l.engine).value <;> simp [Answer.mapState, hvalue] <;> rfl

theorem generate_mapEngine (around : Surroundings) (o : RunOptions) (files : List SourceFile)
    (l : Live σ' τ) :
    (l.mapEngine φ).generate around o files =
      ((l.generate around o files).1, (l.generate around o files).2.mapEngine φ) := by
  have hdisk : (l.mapEngine φ).disk = l.disk := rfl
  unfold generate
  simp only [say_eq_emitAll, emitAll_disk, hdisk]
  cases Generated.create l.disk around.fresh o.language files <;> rfl

theorem planGroups_mapEngine (h : e'.Projects φ e) (around : Surroundings) (seeds : List Path)
    (files : List SourceFile) (l : Live σ' τ) :
    (l.mapEngine φ).planGroups e around seeds files =
      ((l.planGroups e' around seeds files).1,
        (l.planGroups e' around seeds files).2.mapEngine φ) := by
  have hgroups : resolveGroups e (l.mapEngine φ).disk around.loads seeds files
      (l.mapEngine φ).engine = _ :=
    resolveGroups_mapEngine h l.disk around.loads seeds files l.engine
  unfold planGroups
  rw [hgroups]
  rcases resolveGroups e' l.disk around.loads seeds files l.engine with
    ⟨_ | err | groups, s⟩ <;> rfl

theorem plan_mapEngine (h : e'.Projects φ e) (around : Surroundings) (o : RunOptions)
    (mode : RunMode) (files : List SourceFile) (l : Live σ' τ) :
    (l.mapEngine φ).plan e around o mode files =
      ((l.plan e' around o mode files).1, (l.plan e' around o mode files).2.mapEngine φ) := by
  cases mode with
  | plain given =>
    unfold plan planPlain
    simp only [generate_mapEngine]
    split
    · rcases l.generate around o files with ⟨f | done, l'⟩ <;> rfl
    · rfl
  | configured seeds =>
    unfold plan
    simp only [generate_mapEngine]
    split
    · rcases l.generate around o files with ⟨f | done, l'⟩
      · rfl
      · exact planGroups_mapEngine h around _ files l'
    · exact planGroups_mapEngine h around seeds files l

theorem Passes.mapEngine {s : Sink τ} {around : Surroundings} {o : RunOptions} {mode : RunMode}
    {files : List SourceFile} {l l' : Live σ' τ} {outcome : Option (Except RunError RunState)}
    (h : e'.Projects φ e) (hpasses : Passes e' s around o mode files l outcome l') :
    Passes e s around o mode files (l.mapEngine φ) outcome (l'.mapEngine φ) := by
  have hset : ∀ {result : Except RunError Unit} {l₁ : Live σ' τ},
      l.setUpLinter e' o = (result, l₁) →
      (l.mapEngine φ).setUpLinter e o = (result, l₁.mapEngine φ) := by
    intro result l₁ hsetUp
    rw [setUpLinter_mapEngine h, hsetUp]
  have hplanned : ∀ {l₁ l₂ : Live σ' τ} {result : Option (Except RunError Plan)},
      l₁.plan e' around o mode files = (result, l₂) →
      (l₁.mapEngine φ).plan e around o mode files = (result, l₂.mapEngine φ) := by
    intro l₁ l₂ result hplan
    rw [plan_mapEngine h, hplan]
  cases hpasses with
  | setUpFailed hsetUp => exact .setUpFailed (hset hsetUp)
  | endless hsetUp hplan => exact .endless (hset hsetUp) (hplanned hplan)
  | planFailed hsetUp hplan => exact .planFailed (hset hsetUp) (hplanned hplan)
  | nothing hsetUp hplan => exact .nothing (hset hsetUp) (hplanned hplan)
  | fed hsetUp hplan hperforms =>
    exact .fed (hset hsetUp) (hplanned hplan) (hperforms.mapEngine h)

theorem execute_mapEngine (h : e'.Projects φ e) (s : Sink τ) (around : Surroundings)
    (o : RunOptions) (mode : RunMode) (files : List SourceFile) {l : Live σ' τ}
    (hidle : l.recorder.current = none) :
    (l.mapEngine φ).execute e s around o mode files =
      ((l.execute e' s around o mode files).1,
        (l.execute e' s around o mode files).2.mapEngine φ) :=
  ((execute_passes e' s around o mode files hidle).mapEngine h).execute_eq hidle

/-! ## Closing -/

theorem discardGenerated_mapEngine (l : Live σ' τ) :
    (l.mapEngine φ).discardGenerated = l.discardGenerated.mapEngine φ := by
  have hgenerated : (l.mapEngine φ).generated = l.generated := rfl
  unfold discardGenerated
  rw [hgenerated]
  cases l.generated <;> rfl

theorem closeProgress_mapEngine (completed : Bool) (l : Live σ' τ) :
    (l.mapEngine φ).closeProgress completed = (l.closeProgress completed).mapEngine φ := by
  have hprogress : (l.mapEngine φ).progress = l.progress := rfl
  unfold closeProgress
  rw [hprogress]
  cases l.progress <;> rfl

theorem closeMetrics_mapEngine (around : Surroundings) (l : Live σ' τ) :
    (l.mapEngine φ).closeMetrics around = (l.closeMetrics around).mapEngine φ := by
  have hrecorder : (l.mapEngine φ).recorder = l.recorder := rfl
  have hdisk : (l.mapEngine φ).disk = l.disk := rfl
  unfold closeMetrics
  simp only [hrecorder, hdisk]
  cases (l.recorder.stop around.elapsedMs l.disk).outcome <;> rfl

theorem finish_mapEngine (around : Surroundings) (outcome : Except RunError RunState)
    (l : Live σ' τ) :
    (l.mapEngine φ).finish around outcome = (l.finish around outcome).mapEngine φ := by
  unfold finish
  simp only [discardGenerated_mapEngine, closeProgress_mapEngine, closeMetrics_mapEngine]
  cases outcome <;> rfl

end Live

/-- The session with a part of the state of its engine. -/
def Session.mapEngine (φ : σ' → σ) (n : Session σ' τ) : Session σ τ :=
  ⟨φ n.engine, n.sink, n.disk, n.cancelled, n.state, n.summary⟩

/-- The finished run with a part of the state of its engine. -/
def Finished.mapEngine (φ : σ' → σ) (fin : Finished σ' τ) : Finished σ τ :=
  ⟨fin.result, fin.moments, fin.session.mapEngine φ⟩

/-- Runs come to the same, up to what one of the engines has beside. -/
theorem Session.run_mapEngine (h : e'.Projects φ e) (s : Sink τ) (around : Surroundings)
    (o : RunOptions) (mode : RunMode) (files : List SourceFile) (n : Session σ' τ) :
    (n.mapEngine φ).run e s around o mode files =
      (n.run e' s around o mode files).map (Finished.mapEngine φ) := by
  have hexecute := Live.execute_mapEngine h s around o mode files (n.begin_idle around o)
  have hstate : (n.mapEngine φ).state = n.state := rfl
  have hbegin : (n.mapEngine φ).begin_ around o = (n.begin_ around o).mapEngine φ := rfl
  unfold run
  rw [hstate, hbegin, hexecute]
  split
  · rfl
  · rcases (n.begin_ around o).execute e' s around o mode files with ⟨_ | outcome, l⟩
    · rfl
    · simp only [Live.finish_mapEngine, Option.map_some]
      cases outcome <;> rfl

end LintRelay
