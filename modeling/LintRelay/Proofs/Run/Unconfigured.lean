import LintRelay.Proofs.Project.Generated
import LintRelay.Proofs.Run.Completion
import LintRelay.Proofs.Run.Isolation
set_option autoImplicit false

/-!
# Runs of a project without a configuration

A run over the project graph that is given no seed generates a configuration and starts from
it.  Which files it claims is decided by what the engine makes of it: the engine reads the
file, and the run matches the paths that it answers against the files given, both in normal
form.  If the engine answers with the files that are listed, the one configuration claims all
of them, and no file is passed over (`generated_configuration_claims_every_file`).
-/

namespace LintRelay

/-! ## One configuration without references -/

/-- A seed that refers to nothing is loaded, and that is all. -/
theorem resolve_of_no_references {σ : Type} {e : Engine σ} {d : Disk} {loads : Nat}
    {seed : Path} {start : σ} {c : ConfigFile} (hloads : 0 < loads)
    (hvalue : (e.loadConfig d seed.normalize start).value = .ok c) (hleaf : c.references = []) :
    ∃ s : Search σ, resolve e d loads [seed] start = (some (.ok [c]), s) ∧
      s.calls = [.load seed.normalize (.ok c)] := by
  obtain ⟨loads, rfl⟩ := Nat.exists_eq_add_one_of_ne_zero hloads.ne'
  have hreferences : c.resolvedReferences = [] := by simp [ConfigFile.resolvedReferences, hleaf]
  have hload : ((Search.start start).load e d seed.normalize).1 = .ok c := by
    simp [Search.load, Search.start, hvalue]
  rcases (Search.start start).load_cases e d seed.normalize with
    ⟨err, s, hs, -⟩ | ⟨c', s, hs, hcalls, -, -, -, hloaded⟩
  · rw [hs] at hload
    cases hload
  · rw [hs] at hload
    obtain rfl := Except.ok.inj hload
    have hqueue : [seed.normalize].dropWhile ((Search.start start).visited.contains ·) =
        [seed.normalize] := rfl
    have hend : Search.workOff e d loads [] s = (some (.ok [c']), s) := by
      unfold Search.workOff
      simp [hloaded, Search.start]
    refine ⟨s, ?_, hcalls⟩
    unfold resolve Search.workOff
    simp only [List.map_cons, List.map_nil, hqueue, hs, hreferences, List.append_nil, hend]

/-! ## Tasks that pass nothing over -/

/-- The turns of a completed feeding are those of all tasks. -/
theorem Feed.turns_of_completed {o : RunOptions} {tasks : List Task}
    {outcome : Except RunError RunState} {calls : List Call} (h : Feed o tasks outcome calls)
    (hcompleted : outcome = .ok .completed) :
    turnsOf calls = tasks.filterMap Task.turn? := by
  induction h with
  | done => rfl
  | stop rest segment => exact absurd hcompleted segment.not_completed
  | @next t rest _ _ _ segment _ ih =>
    rw [← List.singleton_append (l := rest), List.filterMap_append, turnsOf_append,
      segment.turns, ih hcompleted]

namespace Live

variable {σ τ : Type} {e : Engine σ} {s : Sink τ} {around : Surroundings} {o : RunOptions}
  {files : List SourceFile}

/-- Tasks that pass nothing over leave the count alone, however they end. -/
theorem Performs.skippedUnmatched_of_nil {tasks : List Task} {l l' : Live σ τ}
    {outcome : Except RunError RunState} (h : Performs e s o tasks l outcome l')
    (hnone : tasks.flatMap Task.passedOver = []) :
    l'.summary.skippedUnmatched = l.summary.skippedUnmatched := by
  induction h with
  | done l => rfl
  | stop rest step =>
    rw [List.flatMap_cons, List.append_eq_nil_iff] at hnone
    rw [step.skippedUnmatched, hnone.1]
    rfl
  | next step _ ih =>
    rw [List.flatMap_cons, List.append_eq_nil_iff] at hnone
    rw [ih hnone.2, step.skippedUnmatched, hnone.1]
    rfl

/-! ## The plan -/

/-- The batches of the files that one configuration claims. -/
def batchesOf (config : Path) (files : List SourceFile) : List Batch :=
  if files = [] then [] else [.analyze (some config.text) [config.text] files]

theorem turns_batchesOf (config : Path) (files : List SourceFile) :
    Batch.turns true (batchesOf config files) =
      files.map fun f => .ask [config.text] f.subject := by
  cases files with
  | nil => rfl
  | cons f rest =>
    have htail : Batch.turns false [] = [] := rfl
    simp [batchesOf, Batch.turns_analyze, htail]

theorem passedOver_batchesOf (config : Path) (files : List SourceFile) :
    (Batch.tasks true (batchesOf config files)).flatMap Task.passedOver = [] := by
  rw [flatMap_passedOver_tasks]
  cases files with
  | nil => rfl
  | cons f rest => rfl

/-- Without seeds, the plan is to analyze all files with the configuration generated, if the
engine answers that it lists them. -/
theorem plan_unconfigured {l : Live σ τ} {d : Disk} {c : ConfigFile}
    (hcreate : Generated.create l.disk around.fresh o.language files = .ok d)
    (hloads : 0 < around.loads)
    (hvalue : (e.loadConfig d (Generated.configPath around.fresh).normalize l.engine).value =
      .ok c)
    (hlists : c.Lists files) (habsolute : ∀ f ∈ files, f.path.isAbsolute = true) :
    ∃ l', l.plan e around o (.configured []) files =
        (some (.ok (.batches (batchesOf c.path files))), l') ∧
      l'.calls =
        l.calls ++ [.load (Generated.configPath around.fresh).normalize (.ok c)] := by
  obtain ⟨search, hresolve, hcalls⟩ := resolve_of_no_references hloads hvalue hlists.references
  have hevents : callsOf search.events =
      [.load (Generated.configPath around.fresh).normalize (.ok c)] := hcalls
  have hbatches : (if files = [] then [] else [⟨some c, files⟩] : List ConfigGroup).map
      Batch.ofGroup = batchesOf c.path files := by
    cases files with
    | nil => rfl
    | cons f rest => rfl
  have hgroups : resolveGroups e d around.loads [Generated.configPath around.fresh] files
      l.engine = (some (.ok (if files = [] then [] else [⟨some c, files⟩])), search) := by
    simp [resolveGroups, hresolve, hlists.partition habsolute]
  refine ⟨(l.plan e around o (.configured []) files).2, Prod.ext ?_ rfl, ?_⟩
  · simp [plan, generate, hcreate, planGroups, hgroups, hbatches]
  · simp [plan, generate, hcreate, planGroups, hgroups, calls, hevents]

/-! ## From the plan to the run -/

/-- When the engine accepts the setup, the run goes on in the state that the engine is in. -/
theorem setUpLinter_of_ok {l : Live σ τ}
    (hvalue : (e.setUp l.disk o.setup l.engine).value = .ok ()) :
    ∃ l₁, l.setUpLinter e o = (.ok (), l₁) ∧ Prepared e [.setUp o.setup (.ok ())] l l₁ ∧
      l₁.disk = l.disk ∧ l₁.engine = (e.setUp l.disk o.setup l.engine).state := by
  have hprepared := prepared_setUpLinter e o l
  rw [hvalue] at hprepared
  refine ⟨_, ?_, hprepared, rfl, rfl⟩
  simp only [setUpLinter, hvalue]

/-- A run with a plan performs the tasks of its batches. -/
theorem execute_of_plan {mode : RunMode} {l l₁ l₂ : Live σ τ} {batches : List Batch}
    {made : List Call} (s : Sink τ) (hidle : l.recorder.current = none)
    (hsetUp : l.setUpLinter e o = (.ok (), l₁)) (hprepared : Prepared e made l l₁)
    (hplan : l₁.plan e around o mode files = (some (.ok (.batches batches)), l₂)) :
    ∃ outcome l', l.execute e s around o mode files = (some outcome, l') ∧
      Performs e s o (Batch.tasks true batches) (l₂.startProgress o batches) outcome l' ∧
      l₂.summary = l.summary := by
  obtain ⟨loads, hplanned, -⟩ := plan_cases e around o mode files l₁
  rw [hplan] at hplanned
  have hready : Prepared e (made ++ loads) l l₂ := hprepared.trans hplanned
  have hidle₂ : (l₂.startProgress o batches).recorder.current = none := by
    simpa [startProgress, hready.recorder] using hidle
  refine ⟨_, _, ?_, performAll_performs _ hidle₂, hready.summary⟩
  simp only [execute, hsetUp, hplan, feedBatches_eq_performAll]

theorem finalState_eq_completed {outcome : Except RunError RunState}
    (h : finalState outcome = .completed) : outcome = .ok .completed := by
  cases outcome with
  | error err => cases h
  | ok state => exact congrArg Except.ok h

end Live

/-- The first run of a session, from its plan on: the calls behind those of the planning are
the feeding of the tasks, and nothing is counted as skipped if no task passes anything over. -/
theorem Session.run_of_plan {σ τ : Type} {e : Engine σ} {s : Sink τ} {around : Surroundings}
    {o : RunOptions} {mode : RunMode} {files : List SourceFile} {n : Session σ τ}
    {l₁ l₂ : Live σ τ} {batches : List Batch} {made : List Call}
    (hfirst : n.state = .notStarted) (hsetUp : (n.begin_ around o).setUpLinter e o = (.ok (), l₁))
    (hprepared : Live.Prepared e made (n.begin_ around o) l₁)
    (hplan : l₁.plan e around o mode files = (some (.ok (.batches batches)), l₂))
    (hnone : (Batch.tasks true batches).flatMap Task.passedOver = []) :
    ∃ fin fed outcome, n.run e s around o mode files = some fin ∧
      fin.calls = l₂.calls ++ fed ∧ Feed o (Batch.tasks true batches) outcome fed ∧
      fin.session.state = Live.finalState outcome ∧
      fin.session.summary.skippedUnmatched = 0 := by
  obtain ⟨outcome, l, hexecute, hperforms, hsummary⟩ :=
    Live.execute_of_plan s (n.begin_idle around o) hsetUp hprepared hplan
  obtain ⟨fed, htraced, hfeed⟩ := hperforms.feed
  have hclosed := l.finish_closed around outcome
  have hrun : n.run e s around o mode files =
      some (after outcome (l.finish around outcome)) :=
    (run_eq_some_iff hfirst).mpr ⟨outcome, l, hexecute, rfl⟩
  refine ⟨_, fed, outcome, hrun, ?_, hfeed, congrArg RunSummary.state hclosed.summary, ?_⟩
  · calc (after outcome (l.finish around outcome)).calls
        = l.calls := hclosed.calls
      _ = l₂.calls ++ fed := by
          rw [((Live.traced_startProgress e o batches l₂).trans htraced).calls, List.nil_append]
  · calc (l.finish around outcome).summary.skippedUnmatched
        = l.summary.skippedUnmatched := by rw [hclosed.summary]
      _ = l₂.summary.skippedUnmatched := hperforms.skippedUnmatched_of_nil hnone
      _ = 0 := by
          rw [hsummary]
          rfl

/-- A configuration that is generated because there is none lists every file, whatever the
paths are: what was written decodes to the paths in their order.

If the engine answers for it with the files that it lists, and with no patterns and no
references, it claims all files.  They are one group and no file is left over, so the plan is
to analyze each of them once and in their order, with the configuration generated and no other
one.  The calls of the run keep to the plan up to where it ends, a run that completes has
analyzed all files, and however it ends no file is counted as skipped. -/
theorem generated_configuration_claims_every_file {σ τ : Type} {e : Engine σ} {s : Sink τ}
    {around : Surroundings} {o : RunOptions} {files : List SourceFile} {n : Session σ τ}
    {d : Disk} (hfirst : n.state = .notStarted)
    (habsolute : ∀ f ∈ files, f.path.isAbsolute = true)
    (hcreate : Generated.create n.disk around.fresh o.language files = .ok d) :
    (∃ text, d.readText (Generated.configPath around.fresh) = .ok text ∧
      Json.decode Json.value text = .ok (.object
        [("compilerOptions", .object (Generated.compilerOptions o.language)),
         ("files", Json.strings (files.map fun f => f.path.text))])) ∧
    ∀ config : ConfigFile,
      config.path = (Generated.configPath around.fresh).normalize → config.Lists files →
      (e.setUp n.disk o.setup n.engine).value = .ok () →
      (e.loadConfig d config.path (e.setUp n.disk o.setup n.engine).state).value = .ok config →
      0 < around.loads →
      partition [config] files = .ok (if files = [] then [] else [⟨some config, files⟩]) ∧
      (((n.begin_ around o).setUpLinter e o).2.plan e around o (.configured []) files).1 =
        some (.ok (.batches
          (if files = [] then []
           else [.analyze (some config.path.text) [config.path.text] files]))) ∧
      ∃ fin made, n.run e s around o (.configured []) files = some fin ∧
        fin.calls = .setUp o.setup (.ok ()) :: .load config.path (.ok config) :: made ∧
        turnsOf made <+: (files.map fun f => .ask [config.path.text] f.subject) ∧
        (fin.session.state = .completed →
          turnsOf made = files.map fun f => .ask [config.path.text] f.subject) ∧
        fin.session.summary.skippedUnmatched = 0 := by
  refine ⟨⟨_, Generated.readText_of_create hcreate, Generated.decode_content _ _⟩, ?_⟩
  intro config hpath hlists hsetUp hvalue hloads
  refine ⟨hlists.partition habsolute, ?_⟩
  -- The linter is set up, the plan is made, and its tasks are performed.
  obtain ⟨l₁, hready, hprepared, hdisk, hengine⟩ :=
    Live.setUpLinter_of_ok (l := n.begin_ around o) hsetUp
  have hcreate₁ : Generated.create l₁.disk around.fresh o.language files = .ok d := by
    rw [hdisk]
    exact hcreate
  have hvalue₁ : (e.loadConfig d (Generated.configPath around.fresh).normalize
      l₁.engine).value = .ok config := by
    rw [hengine, ← hpath]
    exact hvalue
  obtain ⟨l₂, hplan, hcalls⟩ :=
    Live.plan_unconfigured hcreate₁ hloads hvalue₁ hlists habsolute
  rw [← hpath] at hcalls
  obtain ⟨fin, fed, outcome, hrun, htrace, hfeed, hstate, hskipped⟩ :=
    Session.run_of_plan (s := s) hfirst hready hprepared hplan
      (Live.passedOver_batchesOf config.path files)
  have hturns := Live.turns_batchesOf config.path files
  refine ⟨?_, fin, fed, hrun, ?_, ?_, ?_, hskipped⟩
  · rw [hready, hplan]
    rfl
  · rw [htrace, hcalls, hprepared.calls]
    rfl
  · rw [← hturns]
    exact hfeed.turns_follow
  · intro hcompleted
    rw [← hturns]
    exact hfeed.turns_of_completed (Live.finalState_eq_completed (hstate.symm.trans hcompleted))

/-- An engine that reads configurations from the disk, and answers with what they list. -/
def readingEngine : Engine Unit where
  setUp _ _ _ := .quiet (.ok ()) ()
  isAlive _ _ := .quiet true ()
  loadConfig d p _ :=
    match d.readText p with
    | .error _ => .quiet (.error (.protocol "no such file")) ()
    | .ok text =>
      match Json.decode ConfigAnswer.decoder text with
      | .error _ => .quiet (.error (.protocol "not a configuration")) ()
      | .ok a => .quiet (.ok (a.toConfig p)) ()
  analyze _ _ _ := .quiet (.ok .empty) ()
  reset _ _ := .quiet (.ok ()) ()

/-- Files with unusual characters and spellings, and one that is given twice. -/
def oddFiles : List SourceFile :=
  [.main ⟨"/\"é\n"⟩, .main ⟨"/./a/../y"⟩, .main ⟨"/y"⟩, .main ⟨"/y"⟩]

theorem exists_ok_of_any {ε α : Type} {x : Except ε α} {p : α → Bool}
    (h : x.toOption.any p = true) : ∃ a, x = .ok a ∧ p a = true := by
  cases x with
  | error _ => cases h
  | ok a => exact ⟨a, rfl, h⟩

/-- The engine reads the configuration that is generated, and the run completes: four files
are analyzed with it, in their order. -/
theorem run_readingEngine_claims_every_file :
    ∃ d config fin made,
      Generated.create ⟨.dir [("t", .dir [])], []⟩ ⟨"/t/./g"⟩ .typeScript oddFiles = .ok d ∧
      (∃ text, d.readText (Generated.configPath ⟨"/t/./g"⟩) = .ok text ∧
        Json.decode Json.value text = .ok (.object
          [("compilerOptions", .object []),
           ("files", Json.strings (oddFiles.map fun f => f.path.text))])) ∧
      (readingEngine.loadConfig d ⟨"/t/g/tsconfig.json"⟩ ()).value = .ok config ∧
      config.Lists oddFiles ∧
      partition [config] oddFiles = .ok [⟨some config, oddFiles⟩] ∧
      (Session.new () 0 ⟨.dir [("t", .dir [])], []⟩).run readingEngine .counting
        ⟨⟨"/m"⟩, ⟨"/t/./g"⟩, 0, 1⟩ { (default : RunOptions) with language := .typeScript }
        (.configured []) oddFiles = some fin ∧
      fin.session.state = .completed ∧
      fin.calls = .setUp (default : RunOptions).setup (.ok ()) ::
        .load ⟨"/t/g/tsconfig.json"⟩ (.ok config) :: made ∧
      turnsOf made = (oddFiles.map fun f => .ask ["/t/g/tsconfig.json"] f.subject) ∧
      fin.session.summary.skippedUnmatched = 0 := by
  have hpath : (Generated.configPath ⟨"/t/./g"⟩).normalize = ⟨"/t/g/tsconfig.json"⟩ := by
    decide +kernel
  have hfacts : (Generated.create ⟨.dir [("t", .dir [])], []⟩ ⟨"/t/./g"⟩ .typeScript
      oddFiles).toOption.any (fun d =>
        (readingEngine.loadConfig d ⟨"/t/g/tsconfig.json"⟩ ()).value.toOption.any fun c =>
          c.path = ⟨"/t/g/tsconfig.json"⟩ ∧ c.Lists oddFiles) = true := by
    decide +kernel
  have hcompletes : ((Session.new () 0 ⟨.dir [("t", .dir [])], []⟩).run readingEngine .counting
      ⟨⟨"/m"⟩, ⟨"/t/./g"⟩, 0, 1⟩ { (default : RunOptions) with language := .typeScript }
      (.configured []) oddFiles).any (fun fin => fin.session.state = .completed) = true := by
    decide +kernel
  obtain ⟨d, hcreate, hload⟩ := exists_ok_of_any hfacts
  obtain ⟨config, hvalue, hconfig⟩ := exists_ok_of_any hload
  obtain ⟨hown, hlists⟩ := of_decide_eq_true hconfig
  obtain ⟨fin, hrun, hfin⟩ := (Option.any_eq_true _ _).mp hcompletes
  have hstate : fin.session.state = .completed := of_decide_eq_true hfin
  obtain ⟨htext, hclaims⟩ := @generated_configuration_claims_every_file _ _ readingEngine .counting
    ⟨⟨"/m"⟩, ⟨"/t/./g"⟩, 0, 1⟩ { (default : RunOptions) with language := .typeScript } oddFiles
    (.new () 0 ⟨.dir [("t", .dir [])], []⟩) d rfl (by decide) hcreate
  obtain ⟨hpartition, -, fin', made, hrun', hcalls, -, hturns, hskipped⟩ :=
    hclaims config (hown.trans hpath.symm) hlists rfl (hown ▸ hvalue) Nat.one_pos
  obtain rfl : fin = fin' := Option.some.inj (hrun.symm.trans hrun')
  rw [hown] at hcalls hturns
  exact ⟨d, config, fin, made, hcreate, htext, hvalue, hlists, hpartition, hrun, hstate, hcalls,
    hturns hstate, hskipped⟩

end LintRelay
