import Mathlib.Data.List.Infix
import LintRelay.Proofs.Run.Conversation
import LintRelay.Proofs.Run.Projection
import LintRelay.Proofs.Run.Records
import LintRelay.Proofs.Run.Unconfigured
set_option autoImplicit false

/-!
# The lifetime of a generated configuration

An engine looks at the disk whenever it is called.  `Engine.watched` is the engine with notes
of what it was called for and which disk it was given.  In a run that generates a configuration
every call but the one that sets up the linter is given a disk with the configuration on it, and
afterwards the disk is as it was before, but for the metrics.
-/

namespace LintRelay

variable {σ τ : Type}

/-! ## Notes of disks -/

/-- An answer with a note of the call and of the disk that the engine was given. -/
def Answer.noted {α : Type} (a : Answer σ α) (notes : List (Call × Disk)) (call : Call)
    (d : Disk) : Answer (σ × List (Call × Disk)) α :=
  ⟨a.value, (a.state, notes ++ [(call, d)]), a.log, a.interrupted⟩

/-- The engine with notes of its calls and of the disks that it was given. -/
def Engine.watched (e : Engine σ) : Engine (σ × List (Call × Disk)) where
  setUp d setup a :=
    (e.setUp d setup a.1).noted a.2 (.setUp setup (e.setUp d setup a.1).value) d
  isAlive d a := (e.isAlive d a.1).noted a.2 (.probe (e.isAlive d a.1).value) d
  loadConfig d p a := (e.loadConfig d p a.1).noted a.2 (.load p (e.loadConfig d p a.1).value) d
  analyze d request a :=
    (e.analyze d request a.1).noted a.2 (.analyze request (e.analyze d request a.1).value) d
  reset d a := (e.reset d a.1).noted a.2 (.reset (e.reset d a.1).value) d

/-- The session with nothing noted. -/
def Session.watched (n : Session σ τ) : Session (σ × List (Call × Disk)) τ :=
  ⟨(n.engine, []), n.sink, n.disk, n.cancelled, n.state, n.summary⟩

/-- Taking notes does not change what an engine does. -/
theorem Engine.watched_projects (e : Engine σ) : e.watched.Projects Prod.fst e where
  setUp _ _ _ := rfl
  isAlive _ _ := rfl
  loadConfig _ _ _ := rfl
  analyze _ _ _ := rfl
  reset _ _ := rfl

/-- Every call is noted. -/
theorem Engine.History.notes {e : Engine σ} {a b : σ × List (Call × Disk)} {calls : List Call}
    (h : e.watched.History a calls b) : b.2.map Prod.fst = a.2.map Prod.fst ++ calls := by
  induction h with
  | nil a => simp
  | cons makes _ ih =>
    rw [ih]
    cases makes <;> simp [watched, Answer.noted]

/-- Among the notes, all calls but those that set up the linter were given the same disk. -/
def LooksAt (d : Disk) (notes : List (Call × Disk)) : Prop :=
  ∀ note ∈ notes, note.1.isSetUp = true ∨ note.2 = d

theorem LooksAt.concat {d : Disk} {notes : List (Call × Disk)} (h : LooksAt d notes)
    {last : Call × Disk} (hlast : last.1.isSetUp = true ∨ last.2 = d) :
    LooksAt d (notes ++ [last]) := by
  intro note hnote
  rcases List.mem_append.mp hnote with hold | hnew
  · exact h note hold
  · obtain rfl := List.mem_singleton.mp hnew
    exact hlast

/-! ## Resolutions -/

theorem Search.looksAt_workOff {e : Engine σ} {d : Disk} (loads : Nat) {queue : List Path}
    {s : Search (σ × List (Call × Disk))} (h : LooksAt d s.engine.2) :
    LooksAt d (workOff e.watched d loads queue s).2.engine.2 := by
  induction loads generalizing queue s with
  | zero =>
    unfold workOff
    cases queue.dropWhile (s.visited.contains ·) <;> exact h
  | succ loads ih =>
    unfold workOff
    cases queue.dropWhile (s.visited.contains ·) with
    | nil => exact h
    | cons p rest =>
      have hload : LooksAt d (s.load e.watched d p).2.engine.2 := by
        unfold load
        simp only
        split <;> exact h.concat (.inr rfl)
      rcases hresult : s.load e.watched d p with ⟨err | c, s₁⟩
      · rw [hresult] at hload
        simpa only [hresult] using hload
      · rw [hresult] at hload
        simpa only [hresult] using ih hload

theorem looksAt_resolveGroups {e : Engine σ} {d : Disk} (loads : Nat) (seeds : List Path)
    (files : List SourceFile) {a : σ × List (Call × Disk)} (h : LooksAt d a.2) :
    LooksAt d (resolveGroups e.watched d loads seeds files a).2.engine.2 := by
  have hsearch : LooksAt d (resolve e.watched d loads seeds a).2.engine.2 :=
    Search.looksAt_workOff loads h
  unfold resolveGroups
  split
  · exact h
  · rcases hresult : resolve e.watched d loads seeds a with ⟨_ | err | configs, s⟩ <;>
    · rw [hresult] at hsearch
      exact hsearch

namespace Live

/-! ## Steps -/

/-- The run is on a disk, and its engine was given this one. -/
structure Watching (d : Disk) (l : Live (σ × List (Call × Disk)) τ) : Prop where
  disk : l.disk = d
  notes : LooksAt d l.engine.2

variable {e : Engine σ} {s : Sink τ} {o : RunOptions} {d : Disk}

theorem Watching.probed {l : Live (σ × List (Call × Disk)) τ} (h : Watching d l) :
    Watching d (l.probed e.watched) := by
  obtain ⟨rfl, hnotes⟩ := h
  exact ⟨rfl, hnotes.concat (.inr rfl)⟩

theorem Watching.resetDone {l : Live (σ × List (Call × Disk)) τ} (h : Watching d l) :
    Watching d (l.resetDone e.watched) := by
  obtain ⟨rfl, hnotes⟩ := h
  exact ⟨rfl, hnotes.concat (.inr rfl)⟩

theorem Watching.asked {l : Live (σ × List (Call × Disk)) τ} (h : Watching d l)
    (request : Request) (f : SourceFile) : Watching d (l.asked e.watched request f) := by
  obtain ⟨rfl, hnotes⟩ := h
  exact ⟨rfl, hnotes.concat (.inr rfl)⟩

theorem Watching.turned {l : Live (σ × List (Call × Disk)) τ} (h : Watching d l) (f : SourceFile)
    (r : Response) : Watching d (l.turned s f r) := by
  have hengine : (l.turned s f r).engine = l.engine := by
    unfold Live.turned deliver
    cases r.error with
    | some error => rfl
    | none => cases r.parsingError <;> rfl
  exact ⟨(deliver_disk s f r l).1.trans h.disk, hengine ▸ h.notes⟩

theorem Step.watching {l l' : Live (σ × List (Call × Disk)) τ} {t : Task}
    {outcome : Option (Except RunError RunState)} (h : Step e.watched s o l t outcome l')
    (hl : Watching d l) : Watching d l' := by
  have hsay : ∀ {l : Live (σ × List (Call × Disk)) τ} (level : Log.Level) (message : String),
      Watching d l → Watching d (l.say level message) := fun _ _ h => ⟨h.disk, h.notes⟩
  cases h with
  | skip files => exact ⟨hl.disk, hl.notes⟩
  | announce label files => exact hsay .info _ hl
  | reset hvalue => exact hl.resetDone
  | resetFailed err hvalue => exact hl.resetDone
  | interrupted configs f hcancelled => exact hsay .info _ hl
  | dead configs f hcancelled halive => exact hl.probed
  | unread configs f err hcancelled halive hread => exact hl.probed
  | refused configs f content err hcancelled halive hread hvalue =>
    exact hsay .error _ (hl.probed.asked _ f)
  | answered configs f content r hcancelled halive hread hvalue =>
    exact (hl.probed.asked _ f).turned f r

theorem Performs.watching {tasks : List Task} {l l' : Live (σ × List (Call × Disk)) τ}
    {outcome : Except RunError RunState} (h : Performs e.watched s o tasks l outcome l')
    (hl : Watching d l) : Watching d l' := by
  induction h with
  | done l => exact hl
  | stop rest step => exact step.watching hl
  | next step _ ih => exact ih (step.watching hl)

/-! ## Phases -/

theorem watching_generate {around : Surroundings} {files : List SourceFile}
    {l : Live (σ × List (Call × Disk)) τ} (hnotes : LooksAt d l.engine.2)
    (hcreate : Generated.create l.disk around.fresh o.language files = .ok d) :
    ∃ l', l.generate around o files = (.ok (), l') ∧ Watching d l' := by
  unfold generate
  simp only [say_eq_emitAll, emitAll_disk, hcreate]
  exact ⟨_, rfl, rfl, hnotes⟩

/-- A plan that starts with a generated configuration is made on a disk that has it. -/
theorem watching_plan {around : Surroundings} {files : List SourceFile} {mode : RunMode}
    (hmode : mode = .plain [] ∨ mode = .configured []) {l : Live (σ × List (Call × Disk)) τ}
    (hnotes : LooksAt d l.engine.2)
    (hcreate : Generated.create l.disk around.fresh o.language files = .ok d) :
    Watching d (l.plan e.watched around o mode files).2 := by
  obtain ⟨l', hgenerate, hl'⟩ := watching_generate hnotes hcreate
  rcases hmode with rfl | rfl
  · simp only [plan, planPlain, List.isEmpty_nil, if_true, hgenerate]
    exact hl'
  · simp only [plan, List.isEmpty_nil, if_true, hgenerate]
    have hgroups := looksAt_resolveGroups (e := e) around.loads
      [Generated.configPath around.fresh] files hl'.notes
    rw [← hl'.disk] at hgroups
    unfold planGroups
    rcases hresult : resolveGroups e.watched l'.disk around.loads
      [Generated.configPath around.fresh] files l'.engine with ⟨_ | err | groups, search⟩ <;>
    · rw [hresult, hl'.disk] at hgroups
      exact ⟨hl'.disk, hgroups⟩

theorem looksAt_setUpLinter {l l₁ : Live (σ × List (Call × Disk)) τ}
    {result : Except RunError Unit} (hnotes : LooksAt d l.engine.2)
    (h : l.setUpLinter e.watched o = (result, l₁)) : l₁.disk = l.disk ∧ LooksAt d l₁.engine.2 := by
  have hsetUp : (l.setUpLinter e.watched o).2.disk = l.disk ∧
      LooksAt d (l.setUpLinter e.watched o).2.engine.2 := by
    unfold setUpLinter
    simp only
    split <;> exact ⟨rfl, hnotes.concat (.inl rfl)⟩
  rwa [h] at hsetUp

/-- The engine of a run that generates a configuration is given the disk that has it, once the
linter is set up. -/
theorem Passes.looksAt {around : Surroundings} {files : List SourceFile} {mode : RunMode}
    {l l' : Live (σ × List (Call × Disk)) τ} {outcome : Option (Except RunError RunState)}
    (h : Passes e.watched s around o mode files l outcome l')
    (hmode : mode = .plain [] ∨ mode = .configured []) (hnotes : LooksAt d l.engine.2)
    (hcreate : Generated.create l.disk around.fresh o.language files = .ok d) :
    LooksAt d l'.engine.2 := by
  have hplanned : ∀ {l₁ l₂ : Live (σ × List (Call × Disk)) τ}
      {result : Option (Except RunError Plan)}, l.setUpLinter e.watched o = (.ok (), l₁) →
      l₁.plan e.watched around o mode files = (result, l₂) → Watching d l₂ := by
    intro l₁ l₂ result hsetUp hplan
    obtain ⟨hdisk, hset⟩ := looksAt_setUpLinter hnotes hsetUp
    rw [← hdisk] at hcreate
    have hwatching := watching_plan (e := e) hmode hset hcreate
    rwa [hplan] at hwatching
  cases h with
  | setUpFailed hsetUp => exact (looksAt_setUpLinter hnotes hsetUp).2
  | endless hsetUp hplan => exact (hplanned hsetUp hplan).notes
  | planFailed hsetUp hplan => exact (hplanned hsetUp hplan).notes
  | nothing hsetUp hplan => exact (hplanned hsetUp hplan).notes
  | fed hsetUp hplan hperforms =>
    obtain ⟨hdisk, hlooks⟩ := hplanned hsetUp hplan
    exact (hperforms.watching ⟨hdisk, hlooks⟩).notes

end Live

namespace Session

/-- The calls that the first run of a session makes with the disks that the engine is given for
them, also when the run does not return. -/
def sights (e : Engine σ) (s : Sink τ) (around : Surroundings) (o : RunOptions) (mode : RunMode)
    (files : List SourceFile) (n : Session σ τ) : List (Call × Disk) :=
  ((n.watched.begin_ around o).execute e.watched s around o mode files).2.engine.2

/-- The calls are those of a run in which nobody takes notes. -/
theorem sights_calls (e : Engine σ) (s : Sink τ) (around : Surroundings) (o : RunOptions)
    (mode : RunMode) (files : List SourceFile) (n : Session σ τ) :
    (n.sights e s around o mode files).map Prod.fst = n.callsMade e s around o mode files := by
  obtain ⟨-, hhistory⟩ := n.watched.execute_conversation e.watched s around o mode files
  have hexecute : (n.begin_ around o).execute e s around o mode files = _ :=
    Live.execute_mapEngine e.watched_projects s around o mode files
      (n.watched.begin_idle around o)
  have hcalls : n.callsMade e s around o mode files =
      n.watched.callsMade e.watched s around o mode files := by
    rw [callsMade, hexecute]
    rfl
  rw [hcalls]
  exact hhistory.notes

/-! ## What is left -/

/-- A run without records leaves the disk as it has found it, and any other one changes it as a
recorder does. -/
theorem disk_of_run {e : Engine σ} {s : Sink τ} {around : Surroundings} {o : RunOptions}
    {mode : RunMode} {files : List SourceFile} {n : Session σ τ} {fin : Finished σ τ}
    (hrun : n.run e s around o mode files = some fin) :
    (o.monitoring.enabled = false ∨ fin.answers = [] → fin.session.disk = n.disk) ∧
      (fin.session.disk = n.disk ∨ ∃ r : Recorder,
        r.dir = o.monitoring.path.getD around.cache ∧
        fin.session.disk = (r.stop around.elapsedMs n.disk).disk) := by
  by_cases hfirst : n.state = .notStarted
  · cases henabled : o.monitoring.enabled with
    | true =>
      obtain ⟨r, -, hdir, -, hfiles, hdisk, -⟩ := recorder_of_run hfirst henabled hrun
      refine ⟨fun h => ?_, .inr ⟨r, hdir, hdisk⟩⟩
      have hanswers : fin.answers = [] := h.resolve_left (by simp)
      rw [hdisk, Recorder.stop_disk_of_nil (by rw [hfiles, hanswers]; rfl)]
    | false =>
      -- A recorder that is not enabled has no records.
      obtain ⟨outcome, l, hexecute, rfl⟩ := (run_eq_some_iff hfirst).mp hrun
      have hexecuted := n.begin_executed e s around o mode files
      have hhosted : ((n.begin_ around o).execute e s around o mode files).2.Hosted n.disk around
          o files := Live.execute_hosted e s mode (n.begin_idle around o) rfl rfl
      rw [hexecute] at hexecuted hhosted
      have hrecords : l.recorder.files.length = if o.monitoring.enabled then _ else 0 :=
        (hexecuted.balanced (n.begin_ledger around o)).records
      rw [henabled] at hrecords
      have hsame : (l.finish around outcome).disk = n.disk := by
        rw [Live.finish_disk, hhosted.discarded,
          Recorder.stop_disk_of_nil (List.length_eq_zero_iff.mp hrecords)]
      exact ⟨fun _ => hsame, .inl hsame⟩
  · have hrefused : some ⟨.error .alreadyStarted, [], n⟩ = some fin := by
      rw [← hrun, run, if_pos hfirst]
    obtain rfl := Option.some.inj hrefused
    exact ⟨fun _ => rfl, .inl rfl⟩

end Session

/-- The location is that of the metrics file, or of a directory on the way to it. -/
def Recorder.Occupies (d : Disk) (dir : Path) (l : Disk.Location) : Prop :=
  d.locate (dir.join ⟨fileName⟩) = .ok l ∨
    ∃ first, first <+: dir.components ∧ d.locateEntry (.ofComponents first) = .ok l

instance (d : Disk) (dir : Path) (l : Disk.Location) : Decidable (Recorder.Occupies d dir l) :=
  decidable_of_iff (d.locate (dir.join ⟨Recorder.fileName⟩) = .ok l ∨
      ∃ first ∈ dir.components.inits, d.locateEntry (.ofComponents first) = .ok l)
    (by simp only [List.mem_inits, Recorder.Occupies])

/-- A location that was free is free after a run, unless it is for metrics. -/
theorem Session.free_of_run {e : Engine σ} {s : Sink τ} {around : Surroundings} {o : RunOptions}
    {mode : RunMode} {files : List SourceFile} {n : Session σ τ} {fin : Finished σ τ}
    (hrun : n.run e s around o mode files = some fin) {l : Disk.Location}
    (hfree : n.disk.tree.find? l = none) :
    fin.session.disk.tree.find? l = none ∨
      Recorder.Occupies fin.session.disk (o.monitoring.path.getD around.cache) l := by
  obtain ⟨-, hsame | ⟨r, hdir, hdisk⟩⟩ := disk_of_run hrun
  · exact .inl (hsame ▸ hfree)
  · rw [hdisk, ← hdir]
    rcases r.stop_disk_cases around.elapsedMs n.disk with hpreserved | ⟨place, bytes, happended⟩
    · exact ((hpreserved.kept l).free hfree).imp_right .inr
    · by_cases hl : l = place
      · subst hl
        exact .inr (.inl happended.located)
      · exact ((happended.kept l hl).free hfree).imp_right .inr

/-- A run without a configuration of its own, in surroundings where one can be generated.  It is
the same run when the engine takes notes of the disks that it is given.  For every call but the
one that sets up the linter, thus whenever a configuration is loaded or a file is analyzed, the
generated configuration is there with the text that was written, also in a run that does not
return.

If the run returns, in whatever state: without monitoring or without an answered request the
disk is as before.  Otherwise it differs in the metrics file, to which bytes were added, and in
directories made on the way to it, and in nothing else.  The directory of the configuration
stood in a place that was free, and nothing is left there, unless it is for metrics. -/
theorem generated_configuration_spans_run {e : Engine σ} {s : Sink τ} {around : Surroundings}
    {o : RunOptions} {mode : RunMode} {files : List SourceFile} {n : Session σ τ} {d : Disk}
    (hmode : mode = .plain [] ∨ mode = .configured [])
    (hcreate : Generated.create n.disk around.fresh o.language files = .ok d) :
    (n.watched.run e.watched s around o mode files).map (Finished.mapEngine Prod.fst) =
      n.run e s around o mode files ∧
    (n.sights e s around o mode files).map Prod.fst = n.callsMade e s around o mode files ∧
    (∀ sight ∈ n.sights e s around o mode files, sight.1.isSetUp = true ∨
      sight.2.read (Generated.configPath around.fresh) =
        .ok (Text.utf8 (Generated.content o.language files))) ∧
    ∀ fin, n.run e s around o mode files = some fin →
      (n.state = .notStarted → fin.calls = n.callsMade e s around o mode files) ∧
      (o.monitoring.enabled = false ∨ fin.answers = [] → fin.session.disk = n.disk) ∧
      (Disk.Preserved (o.monitoring.path.getD around.cache).components n.disk
          fin.session.disk ∨
        ∃ place bytes, Disk.Appended (o.monitoring.path.getD around.cache).components
          ((o.monitoring.path.getD around.cache).join ⟨Recorder.fileName⟩) bytes place n.disk
          fin.session.disk) ∧
      ∃ place, d.locateEntry around.fresh = .ok place ∧
        d.locate (Generated.configPath around.fresh) = .ok (place ++ [Path.defaultConfigName]) ∧
        ∀ l, place <+: l → n.disk.tree.find? l = none ∧
          (fin.session.disk.tree.find? l = none ∨
            Recorder.Occupies fin.session.disk (o.monitoring.path.getD around.cache) l) := by
  obtain ⟨parent, last, -, -, hmissing, -, hlocate, hconfig, hread⟩ :=
    Generated.create_place hcreate
  have hlooks : LooksAt d (n.sights e s around o mode files) := by
    refine (Live.execute_passes e.watched s around o mode files
      (n.watched.begin_idle around o)).looksAt hmode ?_ hcreate
    intro note hnote
    cases hnote
  refine ⟨(Session.run_mapEngine e.watched_projects s around o mode files n.watched).symm,
    n.sights_calls e s around o mode files, ?_, ?_⟩
  · intro sight hsight
    rcases hlooks sight hsight with hsetUp | hdisk
    · exact .inl hsetUp
    · exact .inr (hdisk ▸ hread)
  · intro fin hrun
    obtain ⟨hunrecorded, hdisk⟩ := Session.disk_of_run hrun
    refine ⟨fun hfirst => (Session.calls_of_run hfirst hrun).1, hunrecorded, ?_,
      parent ++ [last], hlocate, hconfig, ?_⟩
    · rcases hdisk with hsame | ⟨r, hdir, hstop⟩
      · rw [hsame]
        exact .inl (.refl n.disk)
      · rw [← hdir, hstop]
        exact r.stop_disk_cases around.elapsedMs n.disk
    · rintro l ⟨rest, rfl⟩
      have hfree : n.disk.tree.find? (parent ++ [last] ++ rest) = none := by
        rw [Disk.Node.find?_append, hmissing]
        rfl
      exact ⟨hfree, Session.free_of_run hrun hfree⟩

/-- The engine that reads configurations, when it is gone at one of the files. -/
def abandoningEngine : Engine Unit :=
  { readingEngine with
    analyze := fun _ request _ =>
      if request.filePath = ⟨"/z"⟩ then .quiet (.error (.protocol "gone")) ()
      else .quiet (.ok .empty) () }

/-- Monitoring into the default directory. -/
def monitoredOptions : RunOptions :=
  { (default : RunOptions) with language := .typeScript, monitoring := ⟨true, none⟩ }

/-- The engine loads the generated configuration, analyzes one file, and fails at the next one:
in three calls it needs the configuration.  Afterwards the metrics are in a directory that was
made for them, and the directory of the configuration is gone. -/
theorem run_abandoningEngine_leaves_metrics :
    ∃ d fin,
      Generated.create ⟨.dir [("t", .dir [])], []⟩ ⟨"/t/g"⟩ .typeScript
        [.main ⟨"/y"⟩, .main ⟨"/z"⟩] = .ok d ∧
      (Session.new () 0 ⟨.dir [("t", .dir [])], []⟩).run abandoningEngine .counting
        ⟨⟨"/m/n"⟩, ⟨"/t/g"⟩, 12, 1⟩ monitoredOptions (.configured [])
        [.main ⟨"/y"⟩, .main ⟨"/z"⟩] = some fin ∧
      fin.session.state = .failed ∧
      ((Session.new () 0 ⟨.dir [("t", .dir [])], []⟩).sights abandoningEngine .counting
        ⟨⟨"/m/n"⟩, ⟨"/t/g"⟩, 12, 1⟩ monitoredOptions (.configured [])
        [.main ⟨"/y"⟩, .main ⟨"/z"⟩]).map Prod.fst = fin.calls ∧
      fin.calls.countP (fun c => c.isLoad || c.request?.isSome) = 3 ∧
      (∀ sight ∈ (Session.new () 0 ⟨.dir [("t", .dir [])], []⟩).sights abandoningEngine .counting
        ⟨⟨"/m/n"⟩, ⟨"/t/g"⟩, 12, 1⟩ monitoredOptions (.configured [])
        [.main ⟨"/y"⟩, .main ⟨"/z"⟩], sight.1.isSetUp = true ∨
        sight.2.read ⟨"/t/g/tsconfig.json"⟩ =
          .ok (Text.utf8 (Generated.content .typeScript [.main ⟨"/y"⟩, .main ⟨"/z"⟩]))) ∧
      (fin.session.disk.read ⟨"/m/n/metrics.json"⟩).isOk = true ∧
      fin.session.disk.tree.find? ["t", "g"] = none := by
  have hpath : Generated.configPath ⟨"/t/g"⟩ = ⟨"/t/g/tsconfig.json"⟩ := by decide
  have hmade : (Generated.create ⟨.dir [("t", .dir [])], []⟩ ⟨"/t/g"⟩ .typeScript
      [.main ⟨"/y"⟩, .main ⟨"/z"⟩]).toOption.any
        (fun d => d.locateEntry ⟨"/t/g"⟩ = .ok ["t", "g"]) = true := by
    decide +kernel
  have hfails : ((Session.new () 0 ⟨.dir [("t", .dir [])], []⟩).run abandoningEngine .counting
      ⟨⟨"/m/n"⟩, ⟨"/t/g"⟩, 12, 1⟩ monitoredOptions (.configured [])
      [.main ⟨"/y"⟩, .main ⟨"/z"⟩]).any (fun fin =>
        fin.session.state = .failed ∧
          fin.calls.countP (fun c => c.isLoad || c.request?.isSome) = 3 ∧
          (fin.session.disk.read ⟨"/m/n/metrics.json"⟩).isOk = true ∧
          ¬ Recorder.Occupies fin.session.disk ⟨"/m/n"⟩ ["t", "g"]) = true := by
    decide +kernel
  obtain ⟨d, hcreate, hentry⟩ := exists_ok_of_any hmade
  obtain ⟨fin, hrun, hfin⟩ := (Option.any_eq_true _ _).mp hfails
  obtain ⟨hstate, hcount, hmetrics, hapart⟩ := of_decide_eq_true hfin
  obtain ⟨-, hcalls, hsights, hleft⟩ := @generated_configuration_spans_run _ _ abandoningEngine
    .counting ⟨⟨"/m/n"⟩, ⟨"/t/g"⟩, 12, 1⟩ monitoredOptions (.configured [])
    [.main ⟨"/y"⟩, .main ⟨"/z"⟩] (.new () 0 ⟨.dir [("t", .dir [])], []⟩) d (.inr rfl) hcreate
  obtain ⟨hmadeCalls, -, -, place, hplace, -, hgone⟩ := hleft fin hrun
  obtain rfl := Except.ok.inj ((of_decide_eq_true hentry).symm.trans hplace)
  have hfree := (hgone ["t", "g"] (List.prefix_refl _)).2.resolve_right hapart
  simp only [hpath] at hsights
  exact ⟨d, fin, hcreate, hrun, hstate, hcalls.trans (hmadeCalls rfl).symm, hcount, hsights,
    hmetrics, hfree⟩

end LintRelay
