import LintRelay.Proofs.Project.Resolution
import LintRelay.Proofs.Run.Step
set_option autoImplicit false

/-!
# What a run does before and after it feeds files

Before the first file, a run sets up the linter, may generate a configuration, and may
load configurations.  It makes calls and writes to the log, and that is all that can be
seen of it: `Prepared` says that everything that is counted later is as it was.
`Planning` says which plans there are and which loads they come from.  `Passes` puts the
phases up to the end of the feeding together, one rule for each way in which a run goes
through them, and `Executed` says what calls were made on each of these ways.

However that ends, a run closes in the same way, which fills in the rest of its summary
and neither calls the engine nor delivers anything.
-/

namespace LintRelay

namespace Live

variable {σ τ : Type}

/-! ## Calls made in preparation -/

/-- A run has made calls and has otherwise not begun. -/
structure Prepared (e : Engine σ) (made : List Call) (l l' : Live σ τ) : Prop
    extends Traced e made l l' where
  sink : l'.sink = l.sink
  recorder : l'.recorder = l.recorder
  progress : l'.progress = l.progress
  summary : l'.summary = l.summary
  deliveries : l'.deliveries = l.deliveries
  /-- Whatever happened shows the progress that there was before. -/
  shown : ∃ es : List Event, l'.moments = l.moments ++ es.map fun e => ⟨e, l.progress⟩

theorem Prepared.refl (e : Engine σ) (l : Live σ τ) : Prepared e [] l l where
  toTraced := .refl e l
  sink := rfl
  recorder := rfl
  progress := rfl
  summary := rfl
  deliveries := rfl
  shown := ⟨[], by simp⟩

theorem Prepared.trans {e : Engine σ} {first rest : List Call} {l₁ l₂ l₃ : Live σ τ}
    (h : Prepared e first l₁ l₂) (h' : Prepared e rest l₂ l₃) :
    Prepared e (first ++ rest) l₁ l₃ where
  toTraced := h.toTraced.trans h'.toTraced
  sink := h'.sink.trans h.sink
  recorder := h'.recorder.trans h.recorder
  progress := h'.progress.trans h.progress
  summary := h'.summary.trans h.summary
  deliveries := h'.deliveries.trans h.deliveries
  shown := by
    obtain ⟨es, hes⟩ := h.shown
    obtain ⟨es', hes'⟩ := h'.shown
    exact ⟨es ++ es', by rw [hes', hes, h.progress, List.map_append, List.append_assoc]⟩

theorem prepared_say (e : Engine σ) (l : Live σ τ) (level : Log.Level) (message : String) :
    Prepared e [] l (l.say level message) where
  toTraced := traced_say e l level message
  sink := rfl
  recorder := rfl
  progress := rfl
  summary := rfl
  deliveries := by simp [deliveries]
  shown := ⟨[.log ⟨level, .run, message⟩], rfl⟩

theorem prepared_generate (e : Engine σ) (around : Surroundings) (o : RunOptions)
    (files : List SourceFile) (l : Live σ τ) :
    Prepared e [] l (l.generate around o files).2 := by
  have hsay := prepared_say e l .info
    "No tsconfig.json found, using a generated default configuration"
  unfold generate
  simp only
  split
  · exact hsay
  · exact
      { calls := by simp [calls]
        history := .nil l.engine
        sink := rfl
        recorder := rfl
        progress := rfl
        summary := rfl
        deliveries := by simp [deliveries]
        shown := by
          obtain ⟨es, hes⟩ := hsay.shown
          refine ⟨es ++ [.log (Generated.line around.fresh)], ?_⟩
          rw [List.map_append, ← List.append_assoc, ← hes]
          rfl }

theorem prepared_setUpLinter (e : Engine σ) (o : RunOptions) (l : Live σ τ) :
    Prepared e [.setUp o.setup (e.setUp l.disk o.setup l.engine).value] l
      (l.answered (.setUp o.setup (e.setUp l.disk o.setup l.engine).value)
        (e.setUp l.disk o.setup l.engine)) where
  toTraced := traced_answered (.setUp l.disk o.setup l.engine)
  sink := rfl
  recorder := rfl
  progress := rfl
  summary := rfl
  deliveries := by simp [deliveries]
  shown := ⟨_, rfl⟩

/-- Setting up the linter is one call, whose result decides. -/
theorem setUpLinter_cases (e : Engine σ) (o : RunOptions) (l : Live σ τ) :
    (∃ err l', l.setUpLinter e o = (.error (.ofEngine err), l') ∧
      Prepared e [.setUp o.setup (.error err)] l l') ∨
    ∃ l', l.setUpLinter e o = (.ok (), l') ∧ Prepared e [.setUp o.setup (.ok ())] l l' := by
  have hprepared := prepared_setUpLinter e o l
  unfold setUpLinter
  cases hvalue : (e.setUp l.disk o.setup l.engine).value with
  | error err =>
    rw [hvalue] at hprepared
    exact Or.inl ⟨err, _, by simp only [hvalue], hprepared⟩
  | ok done =>
    rw [hvalue] at hprepared
    exact Or.inr ⟨_, by simp only [hvalue], hprepared⟩

/-! ## Plans -/

/-- The plans that a run can come to, and the loads that they come from. -/
inductive Planning (files : List SourceFile) :
    RunMode → Option (Except RunError Plan) → List Call → Prop
  /-- One group, with the configurations given unless there are none. -/
  | plain (given configs : List String) (hgiven : given ≠ [] → configs = given) :
      Planning files (.plain given) (some (.ok (.batches [.analyze none configs files]))) []
  /-- No configuration was given, and none could be generated. -/
  | nothing : Planning files (.configured []) (some (.ok .nothing)) []
  /-- There are more configurations than may be loaded. -/
  | endless (seeds : List Path) (loads : List Call) (configs : List ConfigFile)
      (hloads : loads.map Call.config? = configs.map some) :
      Planning files (.configured seeds) none loads
  /-- A load failed. -/
  | broken (seeds : List Path) (before : List Call) (configs : List ConfigFile) (p : Path)
      (err : EngineError) (hbefore : before.map Call.config? = configs.map some) :
      Planning files (.configured seeds) (some (.error (.ofEngine err)))
        (before ++ [.load p (.error err)])
  /-- Configurations were loaded whose patterns cannot be read. -/
  | unreadable (seeds : List Path) (loads : List Call) (configs : List ConfigFile)
      (err : EngineError) (hloads : loads.map Call.config? = configs.map some)
      (hpartition : partition configs files = .error err) :
      Planning files (.configured seeds) (some (.error (.ofEngine err))) loads
  /-- The files were assigned to the configurations loaded. -/
  | groups (seeds : List Path) (loads : List Call) (configs : List ConfigFile)
      (groups : List ConfigGroup) (hloads : loads.map Call.config? = configs.map some)
      (hpartition : partition configs files = .ok groups) :
      Planning files (.configured seeds)
        (some (.ok (.batches (groups.map Batch.ofGroup)))) loads

/-- All loads went well, or the last one failed and its error is the result. -/
theorem Planning.loads_cases {files : List SourceFile} {mode : RunMode} {loads : List Call}
    {result : Option (Except RunError Plan)} (h : Planning files mode result loads) :
    (∀ c ∈ loads, c.isLoad = true ∧ c.failed = false) ∨
      ∃ before p err, loads = before ++ [.load p (.error err)] ∧
        (∀ c ∈ before, c.isLoad = true ∧ c.failed = false) ∧
        result = some (.error (.ofEngine err)) := by
  cases h with
  | plain given configs hgiven => simp
  | nothing => simp
  | endless seeds loads configs hloads => exact .inl (loads_of_map_config? hloads)
  | broken seeds before configs p err hbefore =>
    exact .inr ⟨before, p, err, rfl, loads_of_map_config? hbefore, rfl⟩
  | unreadable seeds loads configs err hloads hpartition =>
    exact .inl (loads_of_map_config? hloads)
  | groups seeds loads configs groups hloads hpartition =>
    exact .inl (loads_of_map_config? hloads)

theorem Planning.kinds {files : List SourceFile} {mode : RunMode} {loads : List Call}
    {result : Option (Except RunError Plan)} (h : Planning files mode result loads) :
    ∀ c ∈ loads, c.isLoad = true := by
  intro c hc
  rcases h.loads_cases with hloads | ⟨before, p, err, rfl, hbefore, -⟩
  · exact (hloads c hc).1
  · rcases List.mem_append.mp hc with hmem | hlast
    · exact (hbefore c hmem).1
    · obtain rfl := List.mem_singleton.mp hlast
      rfl

/-- No file is sent before the plan is made. -/
theorem Planning.no_request {files : List SourceFile} {mode : RunMode} {loads : List Call}
    {result : Option (Except RunError Plan)} (h : Planning files mode result loads)
    (o : RunOptions) : ∀ c ∈ Call.setUp o.setup (.ok ()) :: loads, c.request? = none := by
  intro c hc
  rcases List.mem_cons.mp hc with rfl | hload
  · rfl
  · exact Call.request?_of_load (h.kinds c hload)

theorem planGroups_cases (e : Engine σ) (around : Surroundings) {seeds : List Path}
    (hseeds : seeds ≠ []) (given : List Path) (files : List SourceFile) (l : Live σ τ) :
    ∃ loads, Prepared e loads l (l.planGroups e around seeds files).2 ∧
      Planning files (.configured given) (l.planGroups e around seeds files).1 loads := by
  rcases hsearch : resolveGroups e l.disk around.loads seeds files l.engine with ⟨result, s⟩
  obtain ⟨hhistory, hundelivered, hcases⟩ := resolveGroups_cases hseeds hsearch
  have hcalls : callsOf s.events = s.calls := rfl
  refine ⟨s.calls, ?_, ?_⟩
  · -- Whatever the result is, the run afterwards is the same.
    have hafter : (l.planGroups e around seeds files).2 =
        { l with engine := s.engine, cancelled := l.cancelled || s.interrupted }.emitAll
          s.events := by
      unfold planGroups
      simp only [hsearch]
      rcases result with _ | err | groups <;> rfl
    rw [hafter]
    exact
      { calls := by simp [calls, hcalls]
        history := hhistory
        sink := rfl
        recorder := rfl
        progress := rfl
        summary := rfl
        deliveries := by simp [deliveries, hundelivered]
        shown := ⟨_, rfl⟩ }
  · rcases hcases with ⟨configs, hloads, rfl | rfl⟩ | ⟨err, before, configs, p, rfl, hlast, hbefore⟩
    · simp only [planGroups, hsearch]
      exact .endless given s.calls configs hloads
    · cases hpartition : partition configs files with
      | error err =>
        simp only [planGroups, hsearch, hpartition]
        exact .unreadable given s.calls configs err hloads hpartition
      | ok groups =>
        simp only [planGroups, hsearch, hpartition]
        exact .groups given s.calls configs groups hloads hpartition
    · simp only [planGroups, hsearch]
      rw [hlast]
      exact .broken given before configs p err hbefore

theorem planPlain_cases (e : Engine σ) (around : Surroundings) (o : RunOptions)
    (given : List String) (files : List SourceFile) (l : Live σ τ) :
    Prepared e [] l (l.planPlain around o given files).2 ∧
      Planning files (.plain given) (some (.ok (l.planPlain around o given files).1)) [] := by
  have hgenerate := prepared_generate e around o files l
  unfold planPlain
  split
  · rename_i hnone
    have hgiven : given = [] := List.isEmpty_iff.mp hnone
    cases hresult : l.generate around o files with
    | mk result l' =>
      rw [hresult] at hgenerate
      cases result with
      | ok done => exact ⟨hgenerate, .plain given _ fun h => absurd hgiven h⟩
      | error f =>
        exact ⟨hgenerate.trans (prepared_say e l' .warn _),
          .plain given _ fun h => absurd hgiven h⟩
  · exact ⟨.refl e l, .plain given given fun _ => rfl⟩

/-- The plan of a run comes from loads, and making it leaves no other mark. -/
theorem plan_cases (e : Engine σ) (around : Surroundings) (o : RunOptions) (mode : RunMode)
    (files : List SourceFile) (l : Live σ τ) :
    ∃ loads, Prepared e loads l (l.plan e around o mode files).2 ∧
      Planning files mode (l.plan e around o mode files).1 loads := by
  cases mode with
  | plain given => exact ⟨[], planPlain_cases e around o given files l⟩
  | configured seeds =>
    unfold plan
    simp only
    split
    · rename_i hnone
      obtain rfl : seeds = [] := List.isEmpty_iff.mp hnone
      have hgenerate := prepared_generate e around o files l
      cases hresult : l.generate around o files with
      | mk result l' =>
        rw [hresult] at hgenerate
        cases result with
        | ok done =>
          obtain ⟨loads, hprepared, hplanning⟩ := planGroups_cases e around
            (List.cons_ne_nil (Generated.configPath around.fresh) []) [] files l'
          exact ⟨loads, hgenerate.trans hprepared, hplanning⟩
        | error f =>
          exact ⟨[], hgenerate.trans
            ((prepared_say e l' .debug _).trans (prepared_say e _ .warn _)), .nothing⟩
    · rename_i hsome
      exact planGroups_cases e around (fun h => hsome (by simp [h])) seeds files l

/-! ## The phases of a run -/

/-- The ways in which a run goes through its phases: it ends when the linter cannot be set up
or when planning gives nothing to feed, and otherwise it performs its tasks. -/
inductive Passes (e : Engine σ) (s : Sink τ) (around : Surroundings) (o : RunOptions)
    (mode : RunMode) (files : List SourceFile) (l : Live σ τ) :
    Option (Except RunError RunState) → Live σ τ → Prop
  | setUpFailed {err : EngineError} {l₁ : Live σ τ}
      (hsetUp : l.setUpLinter e o = (.error (.ofEngine err), l₁)) :
      Passes e s around o mode files l (some (.error (.ofEngine err))) l₁
  | endless {l₁ l₂ : Live σ τ} (hsetUp : l.setUpLinter e o = (.ok (), l₁))
      (hplan : l₁.plan e around o mode files = (none, l₂)) :
      Passes e s around o mode files l none l₂
  | planFailed {err : RunError} {l₁ l₂ : Live σ τ} (hsetUp : l.setUpLinter e o = (.ok (), l₁))
      (hplan : l₁.plan e around o mode files = (some (.error err), l₂)) :
      Passes e s around o mode files l (some (.error err)) l₂
  | nothing {l₁ l₂ : Live σ τ} (hsetUp : l.setUpLinter e o = (.ok (), l₁))
      (hplan : l₁.plan e around o mode files = (some (.ok .nothing), l₂)) :
      Passes e s around o mode files l (some (.ok .completed)) l₂
  | fed {batches : List Batch} {outcome : Except RunError RunState} {l₁ l₂ l₃ : Live σ τ}
      (hsetUp : l.setUpLinter e o = (.ok (), l₁))
      (hplan : l₁.plan e around o mode files = (some (.ok (.batches batches)), l₂))
      (hperforms : Performs e s o (Batch.tasks true batches) (l₂.startProgress o batches)
        outcome l₃) :
      Passes e s around o mode files l (some outcome) l₃

section

variable {e : Engine σ} {s : Sink τ} {around : Surroundings} {o : RunOptions} {mode : RunMode}
  {files : List SourceFile} {l l₁ l₂ : Live σ τ}

/-- A run with a plan has set up the linter and loaded what the plan comes from. -/
theorem prepared_of_plan {result : Option (Except RunError Plan)}
    (hsetUp : l.setUpLinter e o = (.ok (), l₁))
    (hplan : l₁.plan e around o mode files = (result, l₂)) :
    ∃ loads, Prepared e (.setUp o.setup (.ok ()) :: loads) l l₂ ∧
      Planning files mode result loads := by
  obtain ⟨loads, hplanned, hplanning⟩ := plan_cases e around o mode files l₁
  rw [hplan] at hplanned hplanning
  rcases setUpLinter_cases e o l with ⟨err, l', hresult, -⟩ | ⟨l', hresult, hprepared⟩
  · cases hsetUp.symm.trans hresult
  · obtain ⟨-, rfl⟩ := Prod.mk.inj (hsetUp.symm.trans hresult)
    exact ⟨loads, hprepared.trans hplanned, hplanning⟩

/-- No file is open when the first task is due. -/
theorem idle_of_plan {result : Option (Except RunError Plan)} (batches : List Batch)
    (hidle : l.recorder.current = none) (hsetUp : l.setUpLinter e o = (.ok (), l₁))
    (hplan : l₁.plan e around o mode files = (result, l₂)) :
    (l₂.startProgress o batches).recorder.current = none := by
  obtain ⟨loads, hprepared, -⟩ := prepared_of_plan hsetUp hplan
  simpa [startProgress, hprepared.recorder] using hidle

theorem execute_passes (e : Engine σ) (s : Sink τ) (around : Surroundings) (o : RunOptions)
    (mode : RunMode) (files : List SourceFile) (hidle : l.recorder.current = none) :
    Passes e s around o mode files l (l.execute e s around o mode files).1
      (l.execute e s around o mode files).2 := by
  unfold execute
  rcases setUpLinter_cases e o l with ⟨err, l₁, hsetUp, -⟩ | ⟨l₁, hsetUp, -⟩
  · simp only [hsetUp]
    exact .setUpFailed hsetUp
  · simp only [hsetUp]
    rcases hplan : l₁.plan e around o mode files with ⟨_ | err | batches | _, l₂⟩
    · exact .endless hsetUp hplan
    · exact .planFailed hsetUp hplan
    · simp only [feedBatches_eq_performAll]
      exact .fed hsetUp hplan (performAll_performs _ (idle_of_plan _ hidle hsetUp hplan))
    · exact .nothing hsetUp hplan

/-- The phases that a run goes through decide what it comes to. -/
theorem Passes.execute_eq {outcome : Option (Except RunError RunState)} {l' : Live σ τ}
    (h : Passes e s around o mode files l outcome l') (hidle : l.recorder.current = none) :
    l.execute e s around o mode files = (outcome, l') := by
  unfold execute
  cases h with
  | setUpFailed hsetUp => simp only [hsetUp]
  | endless hsetUp hplan => simp only [hsetUp, hplan]
  | planFailed hsetUp hplan => simp only [hsetUp, hplan]
  | nothing hsetUp hplan => simp only [hsetUp, hplan]
  | fed hsetUp hplan hperforms =>
    simp only [hsetUp, hplan, feedBatches_eq_performAll]
    rw [hperforms.performAll_eq (idle_of_plan _ hidle hsetUp hplan)]

end

/-- What a run comes to, and the calls that each of its phases has made. -/
inductive Executed (e : Engine σ) (s : Sink τ) (o : RunOptions) (mode : RunMode)
    (files : List SourceFile) (l : Live σ τ) :
    Option (Except RunError RunState) → Live σ τ → Prop
  | setUpFailed (err : EngineError) (l₁ : Live σ τ)
      (hsetUp : Prepared e [.setUp o.setup (.error err)] l l₁) :
      Executed e s o mode files l (some (.error (.ofEngine err))) l₁
  | endless (loads : List Call) (l₁ : Live σ τ)
      (hprepared : Prepared e (.setUp o.setup (.ok ()) :: loads) l l₁)
      (hplanning : Planning files mode none loads) : Executed e s o mode files l none l₁
  | planFailed (err : RunError) (loads : List Call) (l₁ : Live σ τ)
      (hprepared : Prepared e (.setUp o.setup (.ok ()) :: loads) l l₁)
      (hplanning : Planning files mode (some (.error err)) loads) :
      Executed e s o mode files l (some (.error err)) l₁
  | nothing (loads : List Call) (l₁ : Live σ τ)
      (hprepared : Prepared e (.setUp o.setup (.ok ()) :: loads) l l₁)
      (hplanning : Planning files mode (some (.ok .nothing)) loads) :
      Executed e s o mode files l (some (.ok .completed)) l₁
  | fed (batches : List Batch) (loads : List Call) (l₁ : Live σ τ)
      (hprepared : Prepared e (.setUp o.setup (.ok ()) :: loads) l l₁)
      (hplanning : Planning files mode (some (.ok (.batches batches))) loads)
      (outcome : Except RunError RunState) (l₂ : Live σ τ)
      (hperforms : Performs e s o (Batch.tasks true batches) (l₁.startProgress o batches)
        outcome l₂) :
      Executed e s o mode files l (some outcome) l₂

theorem Passes.executed {e : Engine σ} {s : Sink τ} {around : Surroundings} {o : RunOptions}
    {mode : RunMode} {files : List SourceFile} {l l' : Live σ τ}
    {outcome : Option (Except RunError RunState)}
    (h : Passes e s around o mode files l outcome l') : Executed e s o mode files l outcome l' := by
  cases h with
  | setUpFailed hsetUp =>
    rcases setUpLinter_cases e o l with ⟨err, l₁, hresult, hprepared⟩ | ⟨l₁, hresult, -⟩
    · obtain ⟨herr, rfl⟩ := Prod.mk.inj (hsetUp.symm.trans hresult)
      rw [Except.error.inj herr]
      exact .setUpFailed err _ hprepared
    · cases hsetUp.symm.trans hresult
  | endless hsetUp hplan =>
    obtain ⟨loads, hprepared, hplanning⟩ := prepared_of_plan hsetUp hplan
    exact .endless loads _ hprepared hplanning
  | planFailed hsetUp hplan =>
    obtain ⟨loads, hprepared, hplanning⟩ := prepared_of_plan hsetUp hplan
    exact .planFailed _ loads _ hprepared hplanning
  | nothing hsetUp hplan =>
    obtain ⟨loads, hprepared, hplanning⟩ := prepared_of_plan hsetUp hplan
    exact .nothing loads _ hprepared hplanning
  | fed hsetUp hplan hperforms =>
    obtain ⟨loads, hprepared, hplanning⟩ := prepared_of_plan hsetUp hplan
    exact .fed _ loads _ hprepared hplanning _ _ hperforms

theorem execute_executed (e : Engine σ) (s : Sink τ) (around : Surroundings) (o : RunOptions)
    (mode : RunMode) (files : List SourceFile) {l : Live σ τ}
    (hidle : l.recorder.current = none) :
    Executed e s o mode files l (l.execute e s around o mode files).1
      (l.execute e s around o mode files).2 :=
  (execute_passes e s around o mode files hidle).executed

/-! ## Closing -/

/-- The count that closing stores: that of the reporter, if one was started. -/
def tally (l : Live σ τ) : Nat :=
  match l.progress with
  | some p => p.processed
  | none => l.summary.progressTally

theorem processed_close (p : Progress) (line : Log.Line) :
    (p.close line).1.processed = p.processed := by
  unfold Progress.close
  split <;> rfl

/-- Closing stores the counts, and changes nothing else that is asked for later. -/
structure Closed (l l' : Live σ τ) (outcome : Except RunError RunState) : Prop where
  engine : l'.engine = l.engine
  sink : l'.sink = l.sink
  calls : l'.calls = l.calls
  deliveries : l'.deliveries = l.deliveries
  summary : l'.summary =
    { l.summary with
      progressTally := l.tally
      metricRecords := l.recorder.files.length
      state := finalState outcome }

theorem closeProgress_eq (completed : Bool) (l : Live σ τ) :
    ∃ progress lines, l.closeProgress completed =
      { l with progress, summary := { l.summary with progressTally := l.tally } }.logAll lines := by
  unfold closeProgress tally
  cases hprogress : l.progress with
  | none =>
    refine ⟨none, [], ?_⟩
    cases l
    simp_all [logAll, emitAll]
  | some p =>
    cases completed with
    | true =>
      refine ⟨some p.stop.1, p.stop.2, ?_⟩
      simp [Progress.stop, processed_close]
    | false =>
      refine ⟨some p.cancel.1, p.cancel.2, ?_⟩
      simp [Progress.cancel, processed_close]

theorem closeMetrics_eq (around : Surroundings) (l : Live σ τ) :
    ∃ recorder disk lines, l.closeMetrics around =
      { l with
        recorder
        disk
        summary := { l.summary with metricRecords := l.recorder.files.length } }.logAll lines := by
  unfold closeMetrics
  simp only
  split
  · exact ⟨_, _, _, rfl⟩
  · rename_i err _
    refine ⟨(l.recorder.stop around.elapsedMs l.disk).recorder,
      (l.recorder.stop around.elapsedMs l.disk).disk,
      (l.recorder.stop around.elapsedMs l.disk).log ++
        [⟨.error, .run, "Failed to write monitoring metrics: " ++ err.message⟩], ?_⟩
    simp [emitAll]

theorem discardGenerated_eq (l : Live σ τ) :
    ∃ disk, l.discardGenerated = { l with disk } := by
  unfold discardGenerated
  split
  · exact ⟨_, rfl⟩
  · exact ⟨l.disk, rfl⟩

theorem finish_closed (around : Surroundings) (outcome : Except RunError RunState)
    (l : Live σ τ) : Closed l (l.finish around outcome) outcome := by
  obtain ⟨disk, hdiscard⟩ := discardGenerated_eq l
  obtain ⟨progress, lines, hprogress⟩ :=
    closeProgress_eq (finalState outcome = .completed) { l with disk }
  obtain ⟨recorder, disk', lines', hmetrics⟩ := closeMetrics_eq around
    ({ l with
      disk
      progress
      summary := { l.summary with progressTally := l.tally } }.logAll lines)
  unfold finish
  simp only [hdiscard]
  rw [hprogress]
  have htally : tally { l with disk } = l.tally := rfl
  simp only [htally, hmetrics]
  -- The line that names an error is the only difference.
  cases outcome <;>
    exact
      { engine := rfl
        sink := rfl
        calls := by simp [calls]
        deliveries := by simp [deliveries]
        summary := rfl }

end Live

namespace Session

variable {σ τ : Type}

/-- A run starts with a recorder that has recorded nothing and has no file open. -/
theorem begin_recorder (around : Surroundings) (o : RunOptions) (n : Session σ τ) :
    ∃ timed, (n.begin_ around o).recorder =
      { Recorder.new o.monitoring around.cache with run := timed } := by
  simp only [begin_, Recorder.startRun]
  split
  · exact ⟨_, rfl⟩
  · exact ⟨none, rfl⟩

theorem begin_idle (around : Surroundings) (o : RunOptions) (n : Session σ τ) :
    (n.begin_ around o).recorder.current = none := by
  obtain ⟨timed, hrecorder⟩ := n.begin_recorder around o
  rw [hrecorder]
  rfl

/-- The phases of the first run of a session. -/
theorem begin_executed (e : Engine σ) (s : Sink τ) (around : Surroundings) (o : RunOptions)
    (mode : RunMode) (files : List SourceFile) (n : Session σ τ) :
    Live.Executed e s o mode files (n.begin_ around o)
      ((n.begin_ around o).execute e s around o mode files).1
      ((n.begin_ around o).execute e s around o mode files).2 :=
  Live.execute_executed e s around o mode files (n.begin_idle around o)

/-- The first run of a session returns when its phases have come to an outcome. -/
theorem run_eq_some_iff {e : Engine σ} {s : Sink τ} {around : Surroundings} {o : RunOptions}
    {mode : RunMode} {files : List SourceFile} {n : Session σ τ} {fin : Finished σ τ}
    (hfirst : n.state = .notStarted) :
    n.run e s around o mode files = some fin ↔
      ∃ outcome l, (n.begin_ around o).execute e s around o mode files = (some outcome, l) ∧
        after outcome (l.finish around outcome) = fin := by
  unfold run
  rw [if_neg (fun h => h hfirst)]
  rcases (n.begin_ around o).execute e s around o mode files with ⟨_ | outcome, l⟩
  · simp
  · constructor
    · intro hfin
      exact ⟨outcome, l, rfl, Option.some.inj hfin⟩
    · rintro ⟨outcome', l', hsame, rfl⟩
      cases hsame
      rfl

end Session

end LintRelay
