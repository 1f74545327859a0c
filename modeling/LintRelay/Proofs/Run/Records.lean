import LintRelay.Proofs.Metrics
import LintRelay.Proofs.Run.Accounting
import LintRelay.Proofs.Run.Hosting
set_option autoImplicit false

/-!
# The metrics file after a run

The recorder of a run holds a record for each answer that the engine has given, in the order
of the answers, and nothing else: `Recording` is kept by every step, also by the one in which
the engine fails while a file is open.  However a run ends, its metrics are then written
behind those of earlier runs (`run_appends_metrics`).
-/

namespace LintRelay

/-! ## Answers and their records -/

/-- The record of an answer that comes behind so many others. -/
def FileMetric.ofAnswer (a : Request × Response) (ordinal : Nat) : FileMetric where
  component := a.1.filePath.text
  analysisTime := (a.2.perf.getD .zero).analysisTime
  parseTime := (a.2.perf.getD .zero).parseTime
  ncloc := a.2.metrics.ncloc.length
  ordinal := ordinal

/-- The records of answers in their order. -/
def recordsOf (answers : List (Request × Response)) : List FileMetric :=
  answers.zipIdx.map fun a => .ofAnswer a.1 a.2

theorem length_recordsOf (answers : List (Request × Response)) :
    (recordsOf answers).length = answers.length := by
  simp [recordsOf]

theorem recordsOf_concat (answers : List (Request × Response)) (a : Request × Response) :
    recordsOf (answers ++ [a]) = recordsOf answers ++ [.ofAnswer a answers.length] := by
  simp [recordsOf, List.zipIdx_append]

theorem getElem?_recordsOf (answers : List (Request × Response)) (i : Nat) :
    (recordsOf answers)[i]? = answers[i]?.map (.ofAnswer · i) := by
  simp [recordsOf, Function.comp_def]

/-- The answers that a finished run has got. -/
def Finished.answers {σ τ : Type} (f : Finished σ τ) : List (Request × Response) :=
  f.calls.filterMap Call.answer?

namespace Live

variable {σ τ : Type}

/-- The answers that a run has got so far. -/
def answers (l : Live σ τ) : List (Request × Response) := l.calls.filterMap Call.answer?

/-- The recorder times the run, and it has a record of each answer. -/
structure Recording (component : String) (dir : Path) (l : Live σ τ) : Prop where
  enabled : l.recorder.enabled = true
  dir : l.recorder.dir = dir
  run : l.recorder.run = some component
  files : l.recorder.files = recordsOf l.answers

section

variable {component : String} {dir : Path}

theorem Recording.of_eq {l l' : Live σ τ} (h : Recording component dir l)
    (hrecorder : l'.recorder = l.recorder) (hanswers : l'.answers = l.answers) :
    Recording component dir l' where
  enabled := hrecorder ▸ h.enabled
  dir := hrecorder ▸ h.dir
  run := hrecorder ▸ h.run
  files := by rw [hrecorder, hanswers, h.files]

/-! ## The parts of a turn -/

theorem answers_emitAll (l : Live σ τ) (es : List Event) :
    (l.emitAll es).answers = l.answers ++ (callsOf es).filterMap Call.answer? := by
  simp [answers, calls]

theorem Recording.say {l : Live σ τ} (h : Recording component dir l) (level : Log.Level)
    (message : String) : Recording component dir (l.say level message) :=
  h.of_eq rfl (by simp [answers_emitAll])

theorem Recording.answered {α : Type} {l : Live σ τ} (h : Recording component dir l)
    {call : Call} (hcall : call.answer? = none) (a : Answer σ α) :
    Recording component dir (l.answered call a) := by
  refine h.of_eq rfl ?_
  simp only [answered_eq_emitAll, answers_emitAll, callsOf_call, callsOf_logs,
    List.filterMap_cons, hcall, List.filterMap_nil, List.append_nil]
  rfl

/-- Opening a file records nothing. -/
theorem Recording.opened {l : Live σ τ} (h : Recording component dir l) (id : String) :
    Recording component dir { l with recorder := l.recorder.opened id } := by
  have hopened : l.recorder.opened id = { l.recorder with current := some id } := by
    simp [Recorder.opened, h.enabled]
  rw [hopened]
  exact ⟨h.enabled, h.dir, h.run, h.files⟩

/-- A turn that comes to its end has got one more answer, and recorded it. -/
theorem Recording.turned {e : Engine σ} (s : Sink τ) {l : Live σ τ}
    (h : Recording component dir l) {o : RunOptions} {configs : List String} {f : SourceFile}
    {content : Option String} {r : Response}
    (hvalue : (e.analyze l.disk (requestFor o configs f content) l.engine).value = .ok r) :
    Recording component dir ((l.asked e (requestFor o configs f content) f).turned s f r) := by
  have hanswers : ((l.asked e (requestFor o configs f content) f).turned s f r).answers =
      l.answers ++ [(requestFor o configs f content, r)] := by
    unfold Live.turned asked deliver answers calls
    rw [hvalue]
    cases r.error with
    | some err => simp [Call.answer?]
    | none => cases r.parsingError <;> simp [Call.answer?]
  have hrecorder : ((l.asked e (requestFor o configs f content) f).turned s f r).recorder =
      { l.recorder with
        current := none
        files := l.recorder.files ++
          [.ofAnswer (requestFor o configs f content, r) l.recorder.files.length] } := by
    simp [Live.turned, asked, Recorder.opened, Recorder.recorded, h.enabled, FileMetric.ofAnswer,
      requestFor, SourceFile.display]
  refine ⟨by rw [hrecorder]; exact h.enabled, by rw [hrecorder]; exact h.dir,
    by rw [hrecorder]; exact h.run, ?_⟩
  rw [hrecorder, hanswers, recordsOf_concat, ← length_recordsOf, ← h.files]

/-! ## Steps and runs -/

theorem Step.recording {e : Engine σ} {s : Sink τ} {o : RunOptions} {l l' : Live σ τ} {t : Task}
    {outcome : Option (Except RunError RunState)} (h : Step e s o l t outcome l')
    (hrecording : Recording component dir l) : Recording component dir l' := by
  have hprobed : Recording component dir (l.probed e) := hrecording.answered rfl _
  have hreset : Recording component dir (l.resetDone e) := hrecording.answered rfl _
  cases h with
  | skip files =>
    have hcounted : Recording component dir
        { l with summary := { l.summary with
            skippedUnmatched := l.summary.skippedUnmatched + files.length } } :=
      hrecording.of_eq rfl rfl
    exact (hcounted.say .info _).say .debug _
  | announce label files => exact hrecording.say .info _
  | reset hvalue => exact hreset
  | resetFailed err hvalue => exact hreset
  | interrupted configs f hcancelled => exact hrecording.say .info _
  | dead configs f hcancelled halive => exact hprobed
  | unread configs f err hcancelled halive hread => exact hprobed
  | refused configs f content err hcancelled halive hread hvalue =>
    -- The file stays open, and it is not among the records.
    refine Recording.say ?_ .error _
    refine (hprobed.opened f.display).answered ?_ _
    have hdisk : (l.probed e).disk = l.disk := rfl
    rw [hdisk, hvalue]
    rfl
  | answered configs f content r hcancelled halive hread hvalue => exact hprobed.turned s hvalue

theorem Performs.recording {e : Engine σ} {s : Sink τ} {o : RunOptions} {tasks : List Task}
    {l l' : Live σ τ} {outcome : Except RunError RunState}
    (h : Performs e s o tasks l outcome l') (hrecording : Recording component dir l) :
    Recording component dir l' := by
  induction h with
  | done l => exact hrecording
  | stop rest step => exact step.recording hrecording
  | next step _ ih => exact ih (step.recording hrecording)

theorem Prepared.recording {e : Engine σ} {made : List Call} {l l' : Live σ τ}
    (h : Prepared e made l l') (hmade : ∀ c ∈ made, c.request? = none)
    (hrecording : Recording component dir l) : Recording component dir l' := by
  refine hrecording.of_eq h.recorder ?_
  have hnone : made.filterMap Call.answer? = [] :=
    List.filterMap_eq_nil_iff.mpr fun c hc => Call.answer?_of_no_request (hmade c hc)
  rw [answers, h.calls, List.filterMap_append, hnone, List.append_nil, answers]

theorem Executed.recording {e : Engine σ} {s : Sink τ} {o : RunOptions} {mode : RunMode}
    {files : List SourceFile} {l l' : Live σ τ} {outcome : Option (Except RunError RunState)}
    (h : Executed e s o mode files l outcome l') (hrecording : Recording component dir l) :
    Recording component dir l' := by
  cases h with
  | setUpFailed err _ hprepared => exact hprepared.recording (by simp [Call.request?]) hrecording
  | endless loads _ hprepared hplanning =>
    exact hprepared.recording (hplanning.no_request o) hrecording
  | planFailed err loads _ hprepared hplanning =>
    exact hprepared.recording (hplanning.no_request o) hrecording
  | nothing loads _ hprepared hplanning =>
    exact hprepared.recording (hplanning.no_request o) hrecording
  | fed batches loads l₁ hprepared hplanning outcome _ hperforms =>
    have hplanned := hprepared.recording (hplanning.no_request o) hrecording
    refine hperforms.recording (hplanned.of_eq rfl ?_)
    simp [answers, startProgress, calls]

end

end Live

/-! ## Runs -/

namespace Session

variable {σ τ : Type}

theorem begin_recording {around : Surroundings} {o : RunOptions} {n : Session σ τ}
    (henabled : o.monitoring.enabled = true) :
    (n.begin_ around o).Recording o.language.component (o.monitoring.path.getD around.cache) := by
  have hrecorder : (n.begin_ around o).recorder =
      { Recorder.new o.monitoring around.cache with run := some o.language.component } := by
    simp [begin_, Recorder.startRun, Recorder.new, henabled]
  exact
    { enabled := by rw [hrecorder]; exact henabled
      dir := by rw [hrecorder]; rfl
      run := by rw [hrecorder]
      files := by rw [hrecorder]; rfl }

/-- A run closes by stopping a recorder that has a record for each answer, on the disk that
the run has found. -/
theorem recorder_of_run {e : Engine σ} {s : Sink τ} {around : Surroundings} {o : RunOptions}
    {mode : RunMode} {files : List SourceFile} {n : Session σ τ} {fin : Finished σ τ}
    (hfirst : n.state = .notStarted) (henabled : o.monitoring.enabled = true)
    (hrun : n.run e s around o mode files = some fin) :
    ∃ r : Recorder, r.enabled = true ∧ r.dir = o.monitoring.path.getD around.cache ∧
      r.run = some o.language.component ∧ r.files = recordsOf fin.answers ∧
      fin.session.disk = (r.stop around.elapsedMs n.disk).disk ∧
      fin.session.summary.requestsIssued = fin.answers.length := by
  obtain ⟨outcome, l, hexecute, rfl⟩ := (run_eq_some_iff hfirst).mp hrun
  have hrecording : (n.begin_ around o).Recording o.language.component
      (o.monitoring.path.getD around.cache) := begin_recording henabled
  have hexecuted := n.begin_executed e s around o mode files
  have hhosted : ((n.begin_ around o).execute e s around o mode files).2.Hosted n.disk around o
      files := Live.execute_hosted e s mode (n.begin_idle around o) rfl rfl
  rw [hexecute] at hexecuted hhosted
  have hrecorded := hexecuted.recording hrecording
  have hbalanced := hexecuted.balanced (n.begin_ledger around o)
  have hclosed := l.finish_closed around outcome
  have hanswers : (after outcome (l.finish around outcome)).answers = l.answers :=
    congrArg (List.filterMap Call.answer?) hclosed.calls
  refine ⟨l.recorder, hrecorded.enabled, hrecorded.dir, hrecorded.run, ?_, ?_, ?_⟩
  · rw [hanswers]
    exact hrecorded.files
  · have hdisk := l.finish_disk around outcome
    rwa [hhosted.discarded] at hdisk
  · have hissued : l.summary.requestsIssued = (l.calls.filterMap Call.response?).length :=
      hbalanced.issued
    have hsummary : (after outcome (l.finish around outcome)).session.summary.requestsIssued =
        l.summary.requestsIssued := by
      change (l.finish around outcome).summary.requestsIssued = _
      rw [hclosed.summary]
    have hresponses : l.calls.filterMap Call.response? = l.answers.map Prod.snd := by
      rw [Live.answers, List.map_filterMap]
      exact List.filterMap_congr fun c _ => c.response?_eq
    rw [hanswers, hsummary, hissued, hresponses, List.length_map]

end Session

/-- The numbers that a run records are of 64 bits. -/
structure Finished.Sized {σ τ : Type} (around : Surroundings) (fin : Finished σ τ) : Prop where
  elapsed : around.elapsedMs ≤ Json.maxSignificand
  issued : fin.session.summary.requestsIssued ≤ Json.maxSignificand
  responses : ∀ a ∈ fin.answers, (a.2.perf.getD .zero).analysisTime ≤ Json.maxSignificand ∧
    (a.2.perf.getD .zero).parseTime ≤ Json.maxSignificand ∧
    a.2.metrics.ncloc.length ≤ Json.maxSignificand

instance {σ τ : Type} (around : Surroundings) (fin : Finished σ τ) :
    Decidable (fin.Sized around) :=
  decidable_of_iff
    (around.elapsedMs ≤ Json.maxSignificand ∧
      fin.session.summary.requestsIssued ≤ Json.maxSignificand ∧
      ∀ a ∈ fin.answers, (a.2.perf.getD .zero).analysisTime ≤ Json.maxSignificand ∧
        (a.2.perf.getD .zero).parseTime ≤ Json.maxSignificand ∧
        a.2.metrics.ncloc.length ≤ Json.maxSignificand)
    ⟨fun ⟨helapsed, hissued, hresponses⟩ => ⟨helapsed, hissued, hresponses⟩,
      fun h => ⟨h.elapsed, h.issued, h.responses⟩⟩

theorem FileMetric.fits_ofAnswer {σ τ : Type} {around : Surroundings} {fin : Finished σ τ}
    (hsized : fin.Sized around) (hissued : fin.session.summary.requestsIssued = fin.answers.length)
    {i : Nat} {a : Request × Response} (ha : fin.answers[i]? = some a) :
    (FileMetric.ofAnswer a i).Fits := by
  obtain ⟨hanalysis, hparse, hncloc⟩ := hsized.responses a (List.mem_of_getElem? ha)
  have hordinal : i < fin.answers.length := (List.getElem?_eq_some_iff.mp ha).1
  have htotal := hsized.issued
  exact ⟨hanalysis, hparse, hncloc, by simp only [FileMetric.ofAnswer]; omega⟩

/-- The first run of a session, with monitoring into a directory that is there or can be
made, and with a metrics file that can be appended to.  However the run ends: without an
answered request the disk is as before.  Otherwise the metrics file has the bytes that were
in its place, and behind them lines, each ended by a line break and with no other in it.  The
first one decodes to the record of the run.  Then there is one for each answered request, in
the order of the answers; whether a response reports an error makes no difference. -/
theorem run_appends_metrics {σ τ : Type} {e : Engine σ} {s : Sink τ} {around : Surroundings}
    {o : RunOptions} {mode : RunMode} {files : List SourceFile} {n : Session σ τ}
    {fin : Finished σ τ} (hfirst : n.state = .notStarted)
    (henabled : o.monitoring.enabled = true)
    (hdir : Recorder.CanRecord n.disk (o.monitoring.path.getD around.cache))
    (hrun : n.run e s around o mode files = some fin) (hsized : fin.Sized around) :
    fin.session.summary.requestsIssued = fin.answers.length ∧
    (fin.session.summary.requestsIssued = 0 → fin.session.disk = n.disk) ∧
    (fin.session.summary.requestsIssued ≠ 0 →
      ∃ place runLine lines,
        fin.session.disk.locate
          ((o.monitoring.path.getD around.cache).join ⟨Recorder.fileName⟩) = .ok place ∧
        fin.session.disk.read ((o.monitoring.path.getD around.cache).join ⟨Recorder.fileName⟩) =
          .ok (n.disk.tree.bytesAt place ++
            Text.utf8 (String.join ((runLine :: lines).map (· ++ "\n")))) ∧
        (∀ before,
          n.disk.read ((o.monitoring.path.getD around.cache).join ⟨Recorder.fileName⟩) =
            .ok before → n.disk.tree.bytesAt place = before) ∧
        (∀ line ∈ runLine :: lines, '\n' ∉ line.toList) ∧
        Json.decode RunMetric.decoder runLine = .ok ⟨o.language.component, around.elapsedMs⟩ ∧
        lines.length = fin.session.summary.requestsIssued ∧
        ∀ i line, lines[i]? = some line →
          ∃ request response, fin.answers[i]? = some (request, response) ∧
            Json.decode FileMetric.decoder line =
              .ok
                { component := request.filePath.text
                  analysisTime := (response.perf.getD .zero).analysisTime
                  parseTime := (response.perf.getD .zero).parseTime
                  ncloc := response.metrics.ncloc.length
                  ordinal := i }) := by
  obtain ⟨r, hrenabled, hrdir, hrrun, hfiles, hdisk, hissued⟩ :=
    Session.recorder_of_run hfirst henabled hrun
  refine ⟨hissued, fun hzero => ?_, fun hsome => ?_⟩
  · have hnil : r.files = [] := by
      rw [hfiles, List.length_eq_zero_iff.mp (hissued.symm.trans hzero)]
      rfl
    rw [hdisk, Recorder.stop_disk_of_nil hnil]
  · have hne : r.files ≠ [] := by
      intro hnil
      rw [hfiles] at hnil
      rw [hissued, ← length_recordsOf, hnil] at hsome
      exact hsome rfl
    rw [← hrdir] at hdir
    obtain ⟨place, hlocate, hread, hbefore⟩ :=
      Recorder.stop_disk_of_canRecord around.elapsedMs hrenabled hrrun hne hdir
    rw [← hdisk, Recorder.metricsPath, hrdir] at hlocate hread
    rw [Recorder.metricsPath, hrdir] at hbefore
    refine ⟨place, _, _, hlocate, hread, hbefore, ?_, RunMetric.decode_compact hsized.elapsed,
      ?_, ?_⟩
    · intro line hline
      rw [← List.map_cons] at hline
      obtain ⟨v, -, rfl⟩ := List.mem_map.mp hline
      exact v.newline_notMem_compact
    · simp [hfiles, length_recordsOf, hissued]
    · intro i line hline
      rw [List.getElem?_map, List.getElem?_map, hfiles, getElem?_recordsOf] at hline
      cases ha : fin.answers[i]? with
      | none => simp [ha] at hline
      | some a =>
        simp only [ha, Option.map_some, Option.some.injEq] at hline
        rw [← hline]
        exact ⟨a.1, a.2, rfl,
          FileMetric.decode_compact (FileMetric.fits_ofAnswer hsized hissued ha)⟩

/-- An engine that times its work and reports an error, until it is gone. -/
def vanishingEngine : Engine Unit :=
  .ofTables (fun p => .ok ⟨p, [], [], [], none, []⟩) fun request =>
    if request.filePath = ⟨"/p/z.ts"⟩ then .error (.protocol "gone")
    else .ok { Response.empty with perf := some ⟨5, 7⟩, error := some "crash" }

/-- A disk with a metrics file that has a line already. -/
def diskWithMetrics : Disk := ⟨.dir [("m", .dir [("metrics.json", .file [123, 125, 10])])], []⟩

/-- The engine answers for a file with a quote and a line break in its name, and is gone at
the next one.  The metrics file has two more lines then, although the run has failed. -/
theorem run_vanishingEngine_appends_metrics :
    Recorder.CanRecord diskWithMetrics ⟨"/m"⟩ ∧
    diskWithMetrics.read ⟨"/m/metrics.json"⟩ = .ok [123, 125, 10] ∧
    ∃ fin runLine line,
      (Session.new () 0 diskWithMetrics).run vanishingEngine .counting ⟨⟨"/m"⟩, ⟨"/t"⟩, 12, 0⟩
        { (default : RunOptions) with monitoring := ⟨true, none⟩ } (.plain [])
        [.main ⟨"/p/\"x\n.ts"⟩, .main ⟨"/p/z.ts"⟩] = some fin ∧
      fin.Sized ⟨⟨"/m"⟩, ⟨"/t"⟩, 12, 0⟩ ∧ fin.session.state = .failed ∧
      fin.session.disk.read ⟨"/m/metrics.json"⟩ =
        .ok ([123, 125, 10] ++ Text.utf8 (String.join [runLine ++ "\n", line ++ "\n"])) ∧
      '\n' ∉ line.toList ∧
      Json.decode FileMetric.decoder line = .ok ⟨"/p/\"x\n.ts", 7, 5, 0, 0⟩ := by
  have hdir : Recorder.CanRecord diskWithMetrics ⟨"/m"⟩ := by decide +kernel
  have hbefore : diskWithMetrics.read ⟨"/m/metrics.json"⟩ = .ok [123, 125, 10] := by
    decide +kernel
  have hfacts : ((Session.new () 0 diskWithMetrics).run vanishingEngine .counting
      ⟨⟨"/m"⟩, ⟨"/t"⟩, 12, 0⟩ { (default : RunOptions) with monitoring := ⟨true, none⟩ } (.plain [])
      [.main ⟨"/p/\"x\n.ts"⟩, .main ⟨"/p/z.ts"⟩]).any (fun fin =>
        fin.Sized ⟨⟨"/m"⟩, ⟨"/t"⟩, 12, 0⟩ ∧ fin.session.state = .failed ∧
          recordsOf fin.answers = [⟨"/p/\"x\n.ts", 7, 5, 0, 0⟩]) = true := by
    decide +kernel
  have hpath : (⟨"/m"⟩ : Path).join ⟨Recorder.fileName⟩ = ⟨"/m/metrics.json"⟩ := by decide
  obtain ⟨fin, hrun, hfin⟩ := (Option.any_eq_true _ _).mp hfacts
  obtain ⟨hsized, hstate, hrecords⟩ := of_decide_eq_true hfin
  obtain ⟨hissued, -, hlines⟩ := @run_appends_metrics _ _ _ _ ⟨⟨"/m"⟩, ⟨"/t"⟩, 12, 0⟩
    { (default : RunOptions) with monitoring := ⟨true, none⟩ } _ _ (.new () 0 diskWithMetrics)
    fin rfl rfl hdir hrun hsized
  have hone : fin.answers.length = 1 := by rw [← length_recordsOf, hrecords]; rfl
  obtain ⟨place, runLine, lines, -, hread, hplace, hbreaks, -, hcount, hdecode⟩ :=
    hlines (by omega)
  obtain ⟨line, rfl⟩ := List.length_eq_one_iff.mp (hcount.trans (hissued.trans hone))
  obtain ⟨request, response, hanswer, hline⟩ := hdecode 0 line rfl
  have hrecord := getElem?_recordsOf fin.answers 0
  rw [hrecords, hanswer] at hrecord
  simp only [Option.getD_none, hpath] at hread hplace
  rw [hplace _ hbefore] at hread
  refine ⟨hdir, hbefore, fin, runLine, line, hrun, hsized, hstate, hread,
    hbreaks line (by simp), hline.trans ?_⟩
  exact congrArg Except.ok (Option.some.inj hrecord).symm

end LintRelay
