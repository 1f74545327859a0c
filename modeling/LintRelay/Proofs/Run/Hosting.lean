import LintRelay.Proofs.Project.Generated
import LintRelay.Proofs.Run.Phases
set_option autoImplicit false

/-!
# The disk of a run

A run changes the disk in two ways.  While it is planned, a configuration may be generated;
from then on it is there, and it is discarded first of all when the run closes.  After that
the disk is the one that the run has found (`Hosted.discarded`), and the metrics are written
to it.
-/

namespace LintRelay.Live

variable {σ τ : Type}

/-- The disk of a run is the one that it has found, apart from a configuration that was
generated for it. -/
inductive Hosted (d : Disk) (around : Surroundings) (o : RunOptions) (files : List SourceFile)
    (l : Live σ τ) : Prop
  | found (hgenerated : l.generated = none) (hdisk : l.disk = d)
  | furnished (hgenerated : l.generated = some around.fresh)
      (hcreate : Generated.create d around.fresh o.language files = .ok l.disk)

section

variable {d : Disk} {around : Surroundings} {o : RunOptions} {files : List SourceFile}

theorem Hosted.of_eq {l l' : Live σ τ} (h : Hosted d around o files l)
    (hdisk : l'.disk = l.disk) (hgenerated : l'.generated = l.generated) :
    Hosted d around o files l' := by
  cases h with
  | found hnone hfound => exact .found (hgenerated.trans hnone) (hdisk.trans hfound)
  | furnished hsome hcreate => exact .furnished (hgenerated.trans hsome) (hdisk ▸ hcreate)

/-- Once a generated configuration is discarded, the disk is the one found. -/
theorem Hosted.discarded {l : Live σ τ} (h : Hosted d around o files l) :
    l.discardGenerated.disk = d := by
  unfold discardGenerated
  cases h with
  | found hgenerated hdisk => simp [hgenerated, hdisk]
  | furnished hgenerated hcreate => simp [hgenerated, (Generated.create_eq_ok hcreate).2]

/-! ## Before the first file -/

theorem hosted_generate {l : Live σ τ} (hgenerated : l.generated = none) (hdisk : l.disk = d) :
    Hosted d around o files (l.generate around o files).2 := by
  unfold generate
  simp only [say_eq_emitAll, emitAll_disk, hdisk]
  cases hcreate : Generated.create d around.fresh o.language files with
  | error f => exact .found hgenerated hdisk
  | ok disk => exact .furnished rfl hcreate

theorem Hosted.planGroups (e : Engine σ) (seeds : List Path) {l : Live σ τ}
    (h : Hosted d around o files l) :
    Hosted d around o files (l.planGroups e around seeds files).2 := by
  unfold Live.planGroups
  rcases resolveGroups e l.disk around.loads seeds files l.engine with ⟨_ | err | groups, s⟩ <;>
    exact h.of_eq rfl rfl

theorem hosted_plan (e : Engine σ) (mode : RunMode) {l : Live σ τ}
    (hgenerated : l.generated = none) (hdisk : l.disk = d) :
    Hosted d around o files (l.plan e around o mode files).2 := by
  have hhosted : Hosted d around o files l := .found hgenerated hdisk
  have hgenerate : Hosted d around o files (l.generate around o files).2 :=
    hosted_generate hgenerated hdisk
  cases mode with
  | plain given =>
    unfold plan planPlain
    simp only
    split
    · rcases hresult : l.generate around o files with ⟨f | done, l'⟩ <;>
      · rw [hresult] at hgenerate
        exact hgenerate.of_eq rfl rfl
    · exact hhosted
  | configured seeds =>
    unfold plan
    simp only
    split
    · rcases hresult : l.generate around o files with ⟨f | done, l'⟩
      · rw [hresult] at hgenerate
        exact hgenerate.of_eq rfl rfl
      · rw [hresult] at hgenerate
        exact hgenerate.planGroups e _
    · exact hhosted.planGroups e seeds

/-! ## Steps and runs -/

theorem deliver_disk (s : Sink τ) (f : SourceFile) (r : Response) (l : Live σ τ) :
    (l.deliver s f r).disk = l.disk ∧ (l.deliver s f r).generated = l.generated := by
  unfold deliver
  cases r.error with
  | some error => exact ⟨rfl, rfl⟩
  | none => cases r.parsingError <;> exact ⟨rfl, rfl⟩

/-- A step leaves the disk alone. -/
theorem Step.hosted {e : Engine σ} {s : Sink τ} {l l' : Live σ τ} {t : Task}
    {outcome : Option (Except RunError RunState)} (h : Step e s o l t outcome l')
    (hhosted : Hosted d around o files l) : Hosted d around o files l' := by
  cases h with
  | answered configs f content r hcancelled halive hread hvalue =>
    obtain ⟨hdisk, hgenerated⟩ :=
      deliver_disk s f r ((l.probed e).asked e (requestFor o configs f content) f)
    exact hhosted.of_eq hdisk hgenerated
  | _ => exact hhosted.of_eq rfl rfl

theorem Performs.hosted {e : Engine σ} {s : Sink τ} {tasks : List Task} {l l' : Live σ τ}
    {outcome : Except RunError RunState} (h : Performs e s o tasks l outcome l')
    (hhosted : Hosted d around o files l) : Hosted d around o files l' := by
  induction h with
  | done l => exact hhosted
  | stop rest step => exact step.hosted hhosted
  | next step _ ih => exact ih (step.hosted hhosted)

theorem setUpLinter_hosted {e : Engine σ} {l l₁ : Live σ τ} {result : Except RunError Unit}
    (hgenerated : l.generated = none) (hdisk : l.disk = d)
    (h : l.setUpLinter e o = (result, l₁)) : l₁.generated = none ∧ l₁.disk = d := by
  have hsetUp : (l.setUpLinter e o).2.generated = none ∧ (l.setUpLinter e o).2.disk = d := by
    unfold setUpLinter
    simp only
    split <;> exact ⟨hgenerated, hdisk⟩
  rwa [h] at hsetUp

theorem Passes.hosted {e : Engine σ} {s : Sink τ} {mode : RunMode} {l l' : Live σ τ}
    {outcome : Option (Except RunError RunState)}
    (h : Passes e s around o mode files l outcome l') (hgenerated : l.generated = none)
    (hdisk : l.disk = d) : Hosted d around o files l' := by
  have hplanned : ∀ {l₁ l₂ : Live σ τ} {result : Option (Except RunError Plan)},
      l.setUpLinter e o = (.ok (), l₁) → l₁.plan e around o mode files = (result, l₂) →
      Hosted d around o files l₂ := by
    intro l₁ l₂ result hsetUp hplan
    obtain ⟨hgenerated₁, hdisk₁⟩ := setUpLinter_hosted hgenerated hdisk hsetUp
    have hhosted : Hosted d around o files (l₁.plan e around o mode files).2 :=
      hosted_plan e mode hgenerated₁ hdisk₁
    rwa [hplan] at hhosted
  cases h with
  | setUpFailed hsetUp =>
    obtain ⟨hgenerated₁, hdisk₁⟩ := setUpLinter_hosted hgenerated hdisk hsetUp
    exact .found hgenerated₁ hdisk₁
  | endless hsetUp hplan => exact hplanned hsetUp hplan
  | planFailed hsetUp hplan => exact hplanned hsetUp hplan
  | nothing hsetUp hplan => exact hplanned hsetUp hplan
  | fed hsetUp hplan hperforms =>
    exact hperforms.hosted ((hplanned hsetUp hplan).of_eq rfl rfl)

/-- The disk of a run through all its phases. -/
theorem execute_hosted (e : Engine σ) (s : Sink τ) (mode : RunMode) {l : Live σ τ}
    (hidle : l.recorder.current = none) (hgenerated : l.generated = none) (hdisk : l.disk = d) :
    Hosted d around o files (l.execute e s around o mode files).2 :=
  (execute_passes e s around o mode files hidle).hosted hgenerated hdisk

end

/-! ## Closing -/

/-- Closing discards a generated configuration and then stops the recorder. -/
theorem finish_disk (around : Surroundings) (outcome : Except RunError RunState)
    (l : Live σ τ) :
    (l.finish around outcome).disk =
      (l.recorder.stop around.elapsedMs l.discardGenerated.disk).disk := by
  have hrecorder : l.discardGenerated.recorder = l.recorder := by
    obtain ⟨disk, hdiscard⟩ := discardGenerated_eq l
    rw [hdiscard]
  obtain ⟨progress, lines, hprogress⟩ :=
    closeProgress_eq (finalState outcome = .completed) l.discardGenerated
  unfold finish
  simp only [hprogress]
  unfold closeMetrics
  simp only [logAll_eq_emitAll, emitAll_recorder, emitAll_disk, hrecorder]
  cases outcome <;>
  · simp only [say_eq_emitAll, emitAll_disk]
    split <;> rfl

end LintRelay.Live
