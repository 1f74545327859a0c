import LintRelay.Proofs.Project.Faults
import LintRelay.Proofs.Run.Discipline
import LintRelay.Proofs.Run.Unconfigured
set_option autoImplicit false

/-!
# Runs whose configurations have patterns that cannot be read

Patterns are read when all configurations have been loaded and before any file is looked at.
A run that comes upon a pattern that cannot be read has set up the linter and loaded
configurations, and ends there: the engine is asked nothing about files, not even whether it
is alive.
-/

namespace LintRelay

namespace Live

variable {σ τ : Type} {e : Engine σ} {around : Surroundings} {o : RunOptions}
  {files : List SourceFile}

/-- The seeds that a run resolves, and the disk as the engine sees it meanwhile: those that
were given, or the configuration that is generated when there are none. -/
inductive Seeded (around : Surroundings) (o : RunOptions) (files : List SourceFile) (d : Disk) :
    List Path → List Path → Disk → Prop
  | given {seeds : List Path} (hseeds : seeds ≠ []) : Seeded around o files d seeds seeds d
  | generated {d' : Disk}
      (hcreate : Generated.create d around.fresh o.language files = .ok d') :
      Seeded around o files d [] [Generated.configPath around.fresh] d'

/-- The groups of a run come from its seeds. -/
theorem Seeded.plan_eq {given seeds : List Path} {d : Disk} {l : Live σ τ}
    (h : Seeded around o files l.disk given seeds d) :
    ∃ l' : Live σ τ, l'.disk = d ∧ l'.engine = l.engine ∧ seeds ≠ [] ∧
      l.plan e around o (.configured given) files = l'.planGroups e around seeds files := by
  cases h with
  | given hseeds => exact ⟨l, rfl, rfl, hseeds, by simp [plan, hseeds]⟩
  | generated hcreate =>
    refine ⟨(l.generate around o files).2, ?_, ?_, List.cons_ne_nil _ _, ?_⟩
    · simp [generate, hcreate]
    · simp [generate, hcreate]
    · simp [plan, generate, hcreate]

/-- A run whose configurations cannot be used has no plan. -/
theorem Seeded.plan_of_unreadable {given seeds : List Path} {d : Disk} {l : Live σ τ}
    {configs : List ConfigFile} {err : EngineError}
    (h : Seeded around o files l.disk given seeds d)
    (hresolve : (resolve e d around.loads seeds l.engine).1 = some (.ok configs))
    (herror : partition configs files = .error err) :
    (l.plan e around o (.configured given) files).1 = some (.error (.ofEngine err)) := by
  obtain ⟨l', rfl, hengine, hseeds, hplan⟩ := h.plan_eq (e := e)
  have hsome : seeds.isEmpty = false := by simpa using hseeds
  rcases hsearch : resolve e l'.disk around.loads seeds l.engine with ⟨result, s⟩
  rw [hsearch] at hresolve
  obtain rfl : result = some (.ok configs) := hresolve
  simp [hplan, planGroups, resolveGroups, hengine, hsome, hsearch, herror]

end Live

/-- A run without a plan has set up the linter and loaded configurations, and returns the
error. -/
theorem Session.run_of_plan_error {σ τ : Type} {e : Engine σ} {s : Sink τ}
    {around : Surroundings} {o : RunOptions} {mode : RunMode} {files : List SourceFile}
    {n : Session σ τ} {l₁ l₂ : Live σ τ} {err : RunError} (hfirst : n.state = .notStarted)
    (hsetUp : (n.begin_ around o).setUpLinter e o = (.ok (), l₁))
    (hplan : l₁.plan e around o mode files = (some (.error err), l₂)) :
    ∃ fin, n.run e s around o mode files = some fin ∧ fin.result = .error err ∧
      fin.session.state = .failed ∧
      ∀ call ∈ fin.calls, call.isSetUp = true ∨ call.isLoad = true := by
  have hexecute : (n.begin_ around o).execute e s around o mode files = (some (.error err), l₂) :=
    (Live.Passes.planFailed hsetUp hplan).execute_eq (n.begin_idle around o)
  obtain ⟨fin, hrun, hresult, hstate⟩ := run_failed hfirst (congrArg Prod.fst hexecute)
  refine ⟨fin, hrun, hresult, hstate, ?_⟩
  obtain ⟨loads, hprepared, hplanning⟩ := Live.prepared_of_plan hsetUp hplan
  have hcalls : fin.calls = .setUp o.setup (.ok ()) :: loads := by
    rw [(calls_of_run hfirst hrun).1, callsMade, hexecute]
    exact hprepared.calls
  intro call hcall
  rw [hcalls] at hcall
  rcases List.mem_cons.mp hcall with rfl | hload
  · exact .inl rfl
  · exact .inr (hplanning.kinds call hload)

/-- Whether files can be assigned is decided by the configurations.  A partition fails if and
only if a pattern in effect stands for a glob that cannot be read; if it fails, it fails with
the same error for any other files; and the error is one of the protocol, which quotes the
first such pattern as it is written: configuration by configuration, include patterns before
exclude patterns, and each list in its order.

A run that has loaded such configurations, from seeds or from a configuration that was
generated for it, returns this error and has failed.  All it has asked of the engine is to set
up the linter and to load configurations. -/
theorem pattern_errors_come_from_configurations (configs : List ConfigFile)
    (files : List SourceFile) :
    ((∃ err, partition configs files = .error err) ↔
      ∃ c ∈ configs, ∃ p ∈ c.effectiveIncludes ++ c.excludes, ∃ glob ∈ Pattern.expand p,
        ∃ fault, Glob.parse glob = .error fault) ∧
    (∀ (others : List SourceFile) (err : EngineError),
      partition configs files = .error err ↔ partition configs others = .error err) ∧
    (∀ err, partition configs files = .error err →
      ∃ before c p after glob fault, patternsInOrder configs = before ++ (c, p) :: after ∧
        (∀ cp ∈ before, Pattern.Compiles cp.2) ∧
        glob ∈ Pattern.expand p ∧ Glob.parse glob = .error fault ∧
        err = .protocol ("invalid pattern " ++ Text.quoted p ++ " in " ++ c.path.text ++ ": " ++
          fault.describe glob)) ∧
    ∀ {σ τ : Type} (e : Engine σ) (s : Sink τ) (around : Surroundings) (o : RunOptions)
      (n : Session σ τ) (given seeds : List Path) (d : Disk) (err : EngineError),
      n.state = .notStarted → Live.Seeded around o files n.disk given seeds d →
      (e.setUp n.disk o.setup n.engine).value = .ok () →
      (resolve e d around.loads seeds (e.setUp n.disk o.setup n.engine).state).1 =
        some (.ok configs) →
      partition configs files = .error err →
      ∃ fin message, err = .protocol message ∧
        n.run e s around o (.configured given) files = some fin ∧
        fin.result = .error (.protocol message) ∧ fin.session.state = .failed ∧
        ∀ call ∈ fin.calls, call.isSetUp = true ∨ call.isLoad = true := by
  refine ⟨?_, ?_, fun err herr => exists_first_of_partition_error herr, ?_⟩
  · simp only [exists_partition_error_iff, Pattern.not_compiles_iff]
  · intro others err
    rw [partition_eq_error_iff, partition_eq_error_iff]
  · intro σ τ e s around o n given seeds d err hfirst hseeded hsetUp hresolve herror
    obtain ⟨l₁, hready, -, hdisk, hengine⟩ :=
      Live.setUpLinter_of_ok (l := n.begin_ around o) hsetUp
    have hseeded₁ : Live.Seeded around o files l₁.disk given seeds d := by
      rw [hdisk]
      exact hseeded
    have hplan := hseeded₁.plan_of_unreadable (hengine ▸ hresolve) herror
    obtain ⟨fin, hrun, hresult, hstate, hcalls⟩ :=
      Session.run_of_plan_error (s := s) hfirst hready (Prod.ext hplan rfl)
    obtain ⟨before, c, p, after, glob, fault, -, -, -, -, rfl⟩ :=
      exists_first_of_partition_error herror
    exact ⟨fin, _, rfl, hrun, hresult, hstate, hcalls⟩

/-- A configuration with two patterns that cannot be read, behind one that can, and another
such configuration that it refers to. -/
def unreadableConfigs (p : Path) : Except EngineError ConfigFile :=
  if p = ⟨"/p/t.json"⟩ then .ok ⟨p, [], ["q.json"], [], some ["src", "./lib/["], ["]", "a\\"]⟩
  else .ok ⟨p, [], [], [], some ["\x7b"], []⟩

/-- The first of three patterns that cannot be read ends the run. -/
theorem run_unreadableConfigs_fails :
    ∃ configs fin message,
      (resolve (Engine.ofTables unreadableConfigs fun _ => .ok .empty) default 2
        [⟨"/p/t.json"⟩] ()).1 = some (.ok configs) ∧
      partition configs [.main ⟨"/p/src/a.ts"⟩] = .error (.protocol message) ∧
      message = "invalid pattern \"./lib/[\" in /p/t.json: error parsing glob 'lib/[': " ++
        "unclosed character class; missing ']'" ∧
      (Session.new () 0 default).run (Engine.ofTables unreadableConfigs fun _ => .ok .empty)
        .counting { (default : Surroundings) with loads := 2 } default
        (.configured [⟨"/p/t.json"⟩]) [.main ⟨"/p/src/a.ts"⟩] = some fin ∧
      fin.result = .error (.protocol message) ∧ fin.session.state = .failed ∧
      ∀ call ∈ fin.calls, call.isSetUp = true ∨ call.isLoad = true := by
  have hfacts : (resolve (Engine.ofTables unreadableConfigs fun _ => .ok .empty) default 2
      [⟨"/p/t.json"⟩] ()).1.any (fun result => result.toOption.any fun configs =>
        errorOf? (partition configs [.main ⟨"/p/src/a.ts"⟩]) = some (.protocol
          ("invalid pattern \"./lib/[\" in /p/t.json: error parsing glob 'lib/[': " ++
            "unclosed character class; missing ']'"))) = true := by
    decide +kernel
  obtain ⟨result, hresolve, hresult⟩ := (Option.any_eq_true _ _).mp hfacts
  obtain ⟨configs, rfl, hpartition⟩ := exists_ok_of_any hresult
  have herror := errorOf?_eq_some_iff.mp (of_decide_eq_true hpartition)
  obtain ⟨-, -, -, hruns⟩ :=
    pattern_errors_come_from_configurations configs [.main ⟨"/p/src/a.ts"⟩]
  obtain ⟨fin, message, hmessage, hrun, hfailed⟩ :=
    hruns (Engine.ofTables unreadableConfigs fun _ => .ok .empty) .counting
      { (default : Surroundings) with loads := 2 } default (.new () 0 default) [⟨"/p/t.json"⟩]
      [⟨"/p/t.json"⟩] default _ rfl (.given (List.cons_ne_nil _ _)) rfl hresolve herror
  obtain rfl := EngineError.protocol.inj hmessage
  exact ⟨configs, fin, _, hresolve, herror, rfl, hrun, hfailed⟩

end LintRelay
