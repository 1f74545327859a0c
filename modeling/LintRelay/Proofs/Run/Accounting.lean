import LintRelay.Proofs.Run.Conversation
set_option autoImplicit false

/-!
# The accounts of a run

A run counts the same thing in several places: the summary counts answers, the reporter
counts files, the recorder keeps a record of each, and the sink is handed what is not an
error.  The counts are taken at different points of a turn, and a run can break off
between any two of them.  `Ledger` gathers the counts with what they are counts of.  A
step either leaves the ledger as it is or books one answer (`Step.ledger`), so a ledger
that balances keeps balancing, and it balances however the run ends (`run_accounts`).
-/

namespace LintRelay

/-! ## Ledgers -/

/-- What a run has counted, and what there was to count. -/
structure Ledger (τ : Type) where
  issued : Nat
  analyzed : Nat
  failed : Nat
  tally : Nat
  records : Nat
  recording : Bool
  responses : List Response
  sink : τ
  deliveries : List (Path × Response)

/-- The sink after it has been handed answers one after the other. -/
def Sink.acceptAll {τ : Type} (s : Sink τ) (start : τ) (accepted : List (SourceFile × Response)) :
    τ :=
  accepted.foldl (fun sink d => (s.accept d.1 d.2 sink).1) start

namespace Ledger

variable {τ : Type}

/-- The ledger of a run that has not begun. -/
def opening (sink : τ) (recording : Bool) : Ledger τ := ⟨0, 0, 0, 0, 0, recording, [], sink, []⟩

/-- One answer is booked: as failed when it reports an error, and otherwise as analyzed
and delivered. -/
def book (s : Sink τ) (f : SourceFile) (r : Response) (k : Ledger τ) : Ledger τ :=
  let booked :=
    { k with
      issued := k.issued + 1
      tally := k.tally + 1
      records := k.records + if k.recording then 1 else 0
      responses := k.responses ++ [r] }
  match r.error with
  | some _ => { booked with failed := k.failed + 1 }
  | none =>
    { booked with
      analyzed := k.analyzed + 1
      sink := (s.accept f r k.sink).1
      deliveries := k.deliveries ++ [(f.path, r)] }

/-- The counts agree with each other and with what they count. -/
structure Balanced (s : Sink τ) (start : τ) (recording : Bool) (k : Ledger τ) : Prop where
  issued : k.issued = k.responses.length
  split : k.issued = k.analyzed + k.failed
  tally : k.tally = k.issued
  enabled : k.recording = recording
  records : k.records = if recording then k.issued else 0
  handed : ∃ accepted, accepted.length = k.analyzed ∧ k.sink = s.acceptAll start accepted ∧
    k.deliveries = accepted.map fun d => (d.1.path, d.2)

theorem balanced_opening (s : Sink τ) (start : τ) (recording : Bool) :
    Balanced s start recording (opening start recording) where
  issued := rfl
  split := rfl
  tally := rfl
  enabled := rfl
  records := by cases recording <;> rfl
  handed := ⟨[], rfl, rfl, rfl⟩

/-- Booking an answer keeps the balance. -/
theorem Balanced.book {s : Sink τ} {start : τ} {recording : Bool} {k : Ledger τ}
    (h : Balanced s start recording k) (f : SourceFile) (r : Response) :
    Balanced s start recording (k.book s f r) := by
  have hrecords : (k.records + if k.recording then 1 else 0) =
      if recording then k.issued + 1 else 0 := by
    rw [h.records, h.enabled]
    split <;> rfl
  obtain ⟨accepted, hlength, hsink, hdeliveries⟩ := h.handed
  unfold Ledger.book
  cases r.error with
  | some err =>
    exact
      { issued := by simp [h.issued]
        split := by
          have hsplit := h.split
          simp only
          omega
        tally := congrArg (· + 1) h.tally
        enabled := h.enabled
        records := hrecords
        handed := ⟨accepted, hlength, hsink, hdeliveries⟩ }
  | none =>
    exact
      { issued := by simp [h.issued]
        split := by
          have hsplit := h.split
          simp only
          omega
        tally := congrArg (· + 1) h.tally
        enabled := h.enabled
        records := hrecords
        handed := by
          refine ⟨accepted ++ [(f, r)], by simp [hlength], ?_, by simp [hdeliveries]⟩
          simp only [Sink.acceptAll, List.foldl_append, List.foldl_cons, List.foldl_nil]
          rw [hsink]
          rfl }

end Ledger

namespace Live

variable {σ τ : Type}

/-! ## The ledger of a run -/

/-- The ledger of a run under way. -/
def ledger (l : Live σ τ) : Ledger τ :=
  { issued := l.summary.requestsIssued
    analyzed := l.summary.analyzedFiles
    failed := l.summary.failedFiles
    tally := l.tally
    records := l.recorder.files.length
    recording := l.recorder.enabled
    responses := l.calls.filterMap Call.response?
    sink := l.sink
    deliveries := l.deliveries }

theorem ledger_say (level : Log.Level) (message : String) (l : Live σ τ) :
    (l.say level message).ledger = l.ledger := by
  simp [ledger, calls, deliveries, tally]

theorem ledger_skipFiles (files : List SourceFile) (l : Live σ τ) :
    (l.skipFiles files).ledger = l.ledger := by
  simp [skipFiles, ledger, calls, deliveries, tally]

/-- A call that is no answered analysis is not booked. -/
theorem ledger_answered {α : Type} {call : Call} (hcall : call.response? = none)
    (a : Answer σ α) (l : Live σ τ) : (l.answered call a).ledger = l.ledger := by
  simp [ledger, calls, deliveries, tally, hcall]

theorem ledger_probed (e : Engine σ) (l : Live σ τ) : (l.probed e).ledger = l.ledger :=
  ledger_answered rfl _ l

theorem ledger_resetDone (e : Engine σ) (l : Live σ τ) : (l.resetDone e).ledger = l.ledger :=
  ledger_answered rfl _ l

/-- An analysis that the engine refuses is not booked, though the recorder has opened the
file. -/
theorem ledger_asked_of_error {e : Engine σ} {request : Request} {l : Live σ τ}
    {err : EngineError} (f : SourceFile)
    (hvalue : (e.analyze l.disk request l.engine).value = .error err) :
    (l.asked e request f).ledger = l.ledger := by
  unfold asked
  rw [hvalue, ledger_answered rfl]
  simp [ledger, calls, deliveries, tally]

/-- A turn that comes to its end books the answer, once there is a reporter. -/
theorem ledger_turned {e : Engine σ} (s : Sink τ) {request : Request} {l : Live σ τ}
    {r : Response} (f : SourceFile) (hstarted : l.progress.isSome = true)
    (hvalue : (e.analyze l.disk request l.engine).value = .ok r) :
    ((l.asked e request f).turned s f r).ledger = l.ledger.book s f r := by
  obtain ⟨p, hprogress⟩ := Option.isSome_iff_exists.mp hstarted
  unfold turned asked deliver Ledger.book
  rw [hvalue]
  cases r.error with
  | some err =>
    simp [ledger, calls, deliveries, tally, hprogress, Recorder.length_recorded_files,
      Call.response?, Progress.nextFile]
  | none =>
    cases r.parsingError <;>
      simp [ledger, calls, deliveries, tally, hprogress, Recorder.length_recorded_files,
        Call.response?, Progress.nextFile]

/-! ## Steps and runs -/

/-- A step leaves the ledger as it is, or it books one answer. -/
theorem Step.ledger {e : Engine σ} {s : Sink τ} {o : RunOptions} {l l' : Live σ τ} {t : Task}
    {outcome : Option (Except RunError RunState)} (h : Step e s o l t outcome l')
    (hstarted : l.progress.isSome = true) :
    l'.ledger = l.ledger ∨ ∃ f r, l'.ledger = l.ledger.book s f r := by
  have hprobed := ledger_probed e l
  cases h with
  | skip files => exact .inl (ledger_skipFiles files l)
  | announce label files => exact .inl (ledger_say .info _ l)
  | reset hvalue => exact .inl (ledger_resetDone e l)
  | resetFailed err hvalue => exact .inl (ledger_resetDone e l)
  | interrupted configs f hcancelled => exact .inl (ledger_say .info _ l)
  | dead configs f hcancelled halive => exact .inl hprobed
  | unread configs f err hcancelled halive hread => exact .inl hprobed
  | refused configs f content err hcancelled halive hread hvalue =>
    left
    rw [ledger_say, ledger_asked_of_error f hvalue, hprobed]
  | answered configs f content r hcancelled halive hread hvalue =>
    right
    have hstartedProbed : (l.probed e).progress.isSome = true := hstarted
    refine ⟨f, r, ?_⟩
    rw [ledger_turned s f hstartedProbed hvalue, hprobed]

/-- The reporter stays while tasks are performed. -/
theorem Step.started {e : Engine σ} {s : Sink τ} {o : RunOptions} {l l' : Live σ τ} {t : Task}
    {outcome : Option (Except RunError RunState)} (h : Step e s o l t outcome l')
    (hstarted : l.progress.isSome = true) : l'.progress.isSome = true := by
  cases h with
  | answered configs f content r hcancelled halive hread hvalue =>
    simpa [turned, asked, probed] using hstarted
  | _ => exact hstarted

theorem Step.balanced {e : Engine σ} {s : Sink τ} {o : RunOptions} {l l' : Live σ τ} {t : Task}
    {outcome : Option (Except RunError RunState)} {start : τ} {recording : Bool}
    (h : Step e s o l t outcome l') (hstarted : l.progress.isSome = true)
    (hbalanced : l.ledger.Balanced s start recording) : l'.ledger.Balanced s start recording := by
  rcases h.ledger hstarted with hsame | ⟨f, r, hbooked⟩
  · rw [hsame]
    exact hbalanced
  · rw [hbooked]
    exact hbalanced.book f r

theorem Performs.balanced {e : Engine σ} {s : Sink τ} {o : RunOptions} {tasks : List Task}
    {l l' : Live σ τ} {outcome : Except RunError RunState} {start : τ} {recording : Bool}
    (h : Performs e s o tasks l outcome l') (hstarted : l.progress.isSome = true)
    (hbalanced : l.ledger.Balanced s start recording) : l'.ledger.Balanced s start recording := by
  induction h with
  | done l => exact hbalanced
  | stop rest step => exact step.balanced hstarted hbalanced
  | next step _ ih => exact ih (step.started hstarted) (step.balanced hstarted hbalanced)

/-- Preparations that ask for no analysis leave the ledger as it is. -/
theorem Prepared.ledger {e : Engine σ} {made : List Call} {l l' : Live σ τ}
    (h : Prepared e made l l') (hmade : ∀ c ∈ made, c.request? = none) :
    l'.ledger = l.ledger := by
  have hresponses : made.filterMap Call.response? = [] :=
    List.filterMap_eq_nil_iff.mpr fun c hc => Call.response?_of_no_request (hmade c hc)
  simp [Live.ledger, tally, h.calls, h.sink, h.recorder, h.progress, h.summary, h.deliveries,
    hresponses]

/-- The reporter starts to count at nothing. -/
theorem ledger_startProgress (o : RunOptions) (batches : List Batch) (l : Live σ τ) :
    (l.startProgress o batches).ledger = { l.ledger with tally := 0 } := by
  simp [startProgress, ledger, tally, calls, deliveries, Progress.start]

/-- The accounts of a run balance through all its phases. -/
theorem Executed.balanced {e : Engine σ} {s : Sink τ} {o : RunOptions} {mode : RunMode}
    {files : List SourceFile} {l l' : Live σ τ} {outcome : Option (Except RunError RunState)}
    {start : τ} {recording : Bool} (h : Executed e s o mode files l outcome l')
    (hopening : l.ledger = .opening start recording) :
    l'.ledger.Balanced s start recording := by
  have hbalanced := Ledger.balanced_opening s start recording
  have hsetUp : ∀ result, Call.request? (.setUp o.setup result) = none := fun _ => rfl
  -- Up to the start of the reporter nothing is booked.
  have hplanned : ∀ {result : Option (Except RunError Plan)} {loads : List Call}
      {l₁ : Live σ τ}, Planning files mode result loads →
      Prepared e (.setUp o.setup (.ok ()) :: loads) l l₁ →
      l₁.ledger = .opening start recording := by
    intro result loads l₁ hplanning hprepared
    rw [← hopening]
    refine hprepared.ledger ?_
    intro c hc
    rcases List.mem_cons.mp hc with rfl | hload
    · exact hsetUp _
    · exact Call.request?_of_load (hplanning.kinds c hload)
  cases h with
  | setUpFailed err _ hprepared =>
    rw [hprepared.ledger (by simp [hsetUp]), hopening]
    exact hbalanced
  | endless loads _ hprepared hplanning =>
    rw [hplanned hplanning hprepared]
    exact hbalanced
  | planFailed err loads _ hprepared hplanning =>
    rw [hplanned hplanning hprepared]
    exact hbalanced
  | nothing loads _ hprepared hplanning =>
    rw [hplanned hplanning hprepared]
    exact hbalanced
  | fed batches loads l₁ hprepared hplanning outcome _ hperforms =>
    have hstart : (l₁.startProgress o batches).ledger = .opening start recording := by
      rw [ledger_startProgress, hplanned hplanning hprepared]
      rfl
    refine hperforms.balanced rfl ?_
    rw [hstart]
    exact hbalanced

end Live

/-! ## The recorder never ends a run -/

theorem RunError.ofEngine_ne_monitoring (err : EngineError) (m : MonitoringError) :
    RunError.ofEngine err ≠ .monitoring m := by
  cases err <;> simp [RunError.ofEngine]

theorem Segment.not_monitoring {o : RunOptions} {t : Task} {made : List Call}
    {outcome : Option (Except RunError RunState)} (h : Segment o t outcome made)
    (m : MonitoringError) : outcome ≠ some (.error (.monitoring m)) := by
  cases h <;> simp [RunError.ofEngine_ne_monitoring]

theorem Feed.not_monitoring {o : RunOptions} {tasks : List Task} {calls : List Call}
    {outcome : Except RunError RunState} (h : Feed o tasks outcome calls)
    (m : MonitoringError) : outcome ≠ .error (.monitoring m) := by
  induction h with
  | done => simp
  | stop rest segment =>
    intro hmonitoring
    exact segment.not_monitoring m (congrArg some hmonitoring)
  | next _ _ ih => exact ih

theorem Live.Planning.not_monitoring {files : List SourceFile} {mode : RunMode}
    {loads : List Call} {result : Option (Except RunError Live.Plan)}
    (h : Live.Planning files mode result loads) (m : MonitoringError) :
    result ≠ some (.error (.monitoring m)) := by
  cases h <;> simp [RunError.ofEngine_ne_monitoring]

theorem Conversation.not_monitoring {o : RunOptions} {mode : RunMode} {files : List SourceFile}
    {outcome : Option (Except RunError RunState)} {calls : List Call}
    (h : Conversation o mode files outcome calls) (m : MonitoringError) :
    outcome ≠ some (.error (.monitoring m)) := by
  cases h with
  | setUpFailed err => simp [RunError.ofEngine_ne_monitoring]
  | endless loads planning => simp
  | planFailed err loads planning =>
    intro hmonitoring
    refine planning.not_monitoring m ?_
    simpa using hmonitoring
  | nothing loads planning => simp
  | fed batches loads made outcome planning feed =>
    intro hmonitoring
    exact feed.not_monitoring m (Option.some.inj hmonitoring)

/-! ## Runs -/

theorem Session.begin_ledger {σ τ : Type} (around : Surroundings) (o : RunOptions)
    (n : Session σ τ) : (n.begin_ around o).ledger = .opening n.sink o.monitoring.enabled := by
  obtain ⟨timed, hrecorder⟩ := n.begin_recorder around o
  unfold Live.ledger
  rw [hrecorder]
  rfl

/-- The summary that the first run of a session leaves, however the run ends: as many
requests are counted as the engine has answered, they are the files analyzed and the
files failed, and the reporter has counted the same.  The files analyzed are those that
the sink was handed.  The recorder has a record for each request, or none at all when it
is not enabled, and it is never the reason why a run fails. -/
theorem run_accounts {σ τ : Type} {e : Engine σ} {s : Sink τ} {around : Surroundings}
    {o : RunOptions} {mode : RunMode} {files : List SourceFile} {n : Session σ τ}
    {fin : Finished σ τ} (hfirst : n.state = .notStarted)
    (hrun : n.run e s around o mode files = some fin) :
    (e.History n.engine fin.calls fin.session.engine ∧
      fin.session.summary.requestsIssued = (fin.calls.filterMap Call.response?).length) ∧
    fin.session.summary.requestsIssued =
      fin.session.summary.analyzedFiles + fin.session.summary.failedFiles ∧
    fin.session.summary.requestsIssued = fin.session.summary.progressTally ∧
    (∃ accepted, accepted.length = fin.session.summary.analyzedFiles ∧
      fin.session.sink = s.acceptAll n.sink accepted ∧
      fin.deliveries = accepted.map fun d => (d.1.path, d.2)) ∧
    fin.session.summary.metricRecords =
      (if o.monitoring.enabled then fin.session.summary.requestsIssued else 0) ∧
    ∀ m, fin.result ≠ .error (.monitoring m) := by
  obtain ⟨hconversation, hhistory⟩ := Session.execute_conversation e s around o mode files n
  obtain ⟨hcalls, hengine⟩ := Session.calls_of_run hfirst hrun
  rw [← hcalls, ← hengine] at hhistory
  obtain ⟨outcome, l, hexecute, rfl⟩ := (Session.run_eq_some_iff hfirst).mp hrun
  have hexecuted := Session.begin_executed e s around o mode files n
  rw [hexecute] at hexecuted hconversation
  have hbalanced := hexecuted.balanced (n.begin_ledger around o)
  have hclosed := l.finish_closed around outcome
  have hsummary : (Session.after outcome (l.finish around outcome)).session.summary =
      { l.summary with
        progressTally := l.tally
        metricRecords := l.recorder.files.length
        state := Live.finalState outcome } := hclosed.summary
  have htrace : (Session.after outcome (l.finish around outcome)).calls = l.calls :=
    hclosed.calls
  rw [hsummary]
  refine ⟨⟨hhistory, ?_⟩, hbalanced.split, hbalanced.tally.symm, ?_, hbalanced.records, ?_⟩
  · rw [htrace]
    exact hbalanced.issued
  · obtain ⟨accepted, hlength, hsink, hdeliveries⟩ := hbalanced.handed
    exact ⟨accepted, hlength, hclosed.sink.trans hsink, hclosed.deliveries.trans hdeliveries⟩
  · intro m hresult
    cases outcome with
    | ok state => cases hresult
    | error err =>
      obtain rfl : err = .monitoring m := Except.error.inj hresult
      exact hconversation.not_monitoring m rfl

/-- An engine that answers for every file, and reports one of them as failed. -/
def crashingEngine : Engine Unit :=
  .ofTables (fun p => .ok ⟨p, [], [], [], none, []⟩) fun request =>
    if request.filePath = ⟨"/p/y.ts"⟩ then .ok { Response.empty with error := some "crash" }
    else .ok .empty

/-- Two files, of which one is reported as failed: the sink has been handed one answer,
and there is a record of both. -/
theorem run_crashingEngine_accounts :
    ∃ fin,
      (Session.new () 0 default).run crashingEngine .counting default
        { (default : RunOptions) with monitoring := ⟨true, none⟩ } (.plain ["t.json"])
        [.main ⟨"/p/y.ts"⟩, .main ⟨"/p/x.ts"⟩] = some fin ∧
      (fin.session.summary.failedFiles = 1 ∧ fin.session.sink = 1) ∧
      fin.session.summary.requestsIssued = (fin.calls.filterMap Call.response?).length ∧
      fin.session.summary.requestsIssued =
        fin.session.summary.analyzedFiles + fin.session.summary.failedFiles ∧
      fin.session.summary.requestsIssued = fin.session.summary.progressTally ∧
      fin.session.summary.metricRecords = fin.session.summary.requestsIssued := by
  have hcounts : ((Session.new () 0 default).run crashingEngine .counting default
      { (default : RunOptions) with monitoring := ⟨true, none⟩ } (.plain ["t.json"])
      [.main ⟨"/p/y.ts"⟩, .main ⟨"/p/x.ts"⟩]).map
        (fun fin => (fin.session.summary.failedFiles, fin.session.sink)) = some (1, 1) := by
    decide +kernel
  obtain ⟨fin, hrun, hpair⟩ := Option.map_eq_some_iff.mp hcounts
  obtain ⟨⟨-, hissued⟩, hsplit, htally, -, hrecords, -⟩ := run_accounts rfl hrun
  exact ⟨fin, hrun, Prod.mk.inj hpair, hissued, hsplit, htally, hrecords⟩

end LintRelay
