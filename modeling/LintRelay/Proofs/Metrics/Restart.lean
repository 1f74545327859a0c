import LintRelay.Proofs.Metrics.Persistence
set_option autoImplicit false

/-!
# What a stop leaves behind

A stop that comes to records writes them, and the recorder is as new.  A stop that comes to no
records ends the timing of the run and does nothing more: a file that is open stays open, and the
record of the run waits for the next batch.  Both stops succeed, so what follows depends on whether
records were waiting (`Acts.after_stop`).
-/

namespace LintRelay.Recorder

/-! ## The recorder after a stop -/

/-- A recorder as it was made holds nothing. -/
theorem eq_new_iff {r : Recorder} {s : MonitoringSettings} {cache : Path} :
    r = new s cache ↔ r.enabled = s.enabled ∧ r.dir = s.path.getD cache ∧ r.run = none ∧
      r.runMetric = none ∧ r.current = none ∧ r.files = [] := by
  obtain ⟨enabled, dir, run, runMetric, current, files⟩ := r
  simp [new]

/-- The record of a run that is ended names the run that records will be written with. -/
theorem component_stopRun (r : Recorder) (elapsedMs : Nat) :
    (r.stopRun elapsedMs).runMetric.map RunMetric.component = r.timing := by
  rw [← r.timing_stopRun elapsedMs, timing, stopRun_run, Option.none_or]

section Stop

variable {s : MonitoringSettings} {cache : Path} {earlier : List Turn} {r : Recorder}
  (hr : Consistent (s.path.getD cache) earlier r)

include hr

theorem Consistent.waiting_eq_nil_iff : waiting earlier = [] ↔ r.files = [] := by
  rw [← hr.measured, List.map_eq_nil_iff]

/-- When no records are waiting, a recorder is as new after a stop only if no file is open and no
run was started since records were written last. -/
theorem stopRun_eq_new_iff (henabled : s.enabled = true) (hwaiting : waiting earlier = [])
    (elapsedMs : Nat) :
    r.stopRun elapsedMs = new s cache ↔ openFile earlier = none ∧ latestRun earlier = none := by
  rw [eq_new_iff, ← hr.current, ← hr.timing, ← component_stopRun r elapsedMs,
    Option.map_eq_none_iff]
  simp only [stopRun_enabled, stopRun_dir, stopRun_run, stopRun_current, stopRun_files, hr.enabled,
    henabled, hr.dir, hr.waiting_eq_nil_iff.mp hwaiting, true_and, and_true]
  exact and_comm

/-- A stop that succeeds has written the records that were waiting, and the recorder is as new; or
there were none, and only the timing of the run is ended. -/
theorem Acts.after_stop (henabled : s.enabled = true) {d : Disk} {t : Turn} {elapsedMs : Nat}
    (h : Acts r d t) (hstop : t.operation = .stop elapsedMs) (hok : t.outcome = .ok ()) :
    (waiting earlier ≠ [] ∧ t.wrote = true ∧ t.closes = true ∧ t.after = new s cache) ∨
      (waiting earlier = [] ∧ t.wrote = false ∧ t.closes = false ∧
        t.after = r.stopRun elapsedMs) := by
  have hwaiting := hr.waiting_eq_nil_iff
  cases h with
  | nothing elapsed hfiles =>
    obtain rfl := Operation.stop.inj hstop
    refine .inr ⟨hwaiting.mpr hfiles, ?_, ?_, rfl⟩
    · simp [Turn.wrote, Turn.flushes, hfiles]
    · simp [Turn.closes, Turn.completed?, Turn.flushes, hfiles]
  | written elapsed hfiles left hwrite =>
    refine .inl ⟨mt hwaiting.mp hfiles, ?_, ?_, ?_⟩
    · simp [Turn.wrote, Turn.flushes, hfiles, Except.isOk, Except.toBool]
    · simp [Turn.closes, Turn.flushes, hfiles]
    · rw [eq_new_iff]
      simp [ended, hr.enabled, hr.dir, henabled]
  | unwritten => cases hok
  | _ => cases hstop

/-- What the calls up to a stop that succeeds tell. -/
theorem Acts.told_by_stop (henabled : s.enabled = true) {d : Disk} {t : Turn} {elapsedMs : Nat}
    (h : Acts r d t) (hstop : t.operation = .stop elapsedMs) (hok : t.outcome = .ok ()) :
    t.after.files = [] ∧ t.after.run = none ∧
      openFile (earlier ++ [t]) = (if waiting earlier = [] then openFile earlier else none) ∧
      latestRun (earlier ++ [t]) = (if waiting earlier = [] then latestRun earlier else none) := by
  have hopened : t.opened? = none := by rw [Turn.opened?, hstop]
  have hstarted : t.started? = none := by rw [Turn.started?, hstop]
  rw [openFile_concat, latestRun_concat, hopened, hstarted, Option.none_or, Option.none_or]
  rcases h.after_stop hr henabled hstop hok with
    ⟨hwaiting, hwrote, hcloses, hafter⟩ | ⟨hwaiting, hwrote, hcloses, hafter⟩
  · rw [hafter, hwrote, hcloses, if_neg hwaiting, if_neg hwaiting]
    exact ⟨rfl, rfl, rfl, rfl⟩
  · rw [hafter, hwrote, hcloses, if_pos hwaiting, if_pos hwaiting, stopRun_files, stopRun_run]
    exact ⟨hr.waiting_eq_nil_iff.mp hwaiting, rfl, rfl, rfl⟩

end Stop

/-! ## The next batch -/

section Batch

variable {s : MonitoringSettings} {cache : Path} {calls : List Invocation}
  {earlier between later : List Turn} {t u : Turn}

/-- Records that are neither written nor held were not completed. -/
theorem written_eq_of_no_files (henabled : s.enabled = true)
    (hturns : (new s cache).history calls = earlier ++ t :: later)
    (hfiles : t.after.files = []) :
    (earlier ++ [t]).flatMap Turn.written = (earlier ++ [t]).filterMap Turn.record? := by
  obtain ⟨hacts, before, rfl, hbefore⟩ := acts_of_history henabled hturns
  have hturn := hacts.written_append_files
  have hall := written_append_files_afterAll henabled cache before
  rw [hfiles, List.append_nil] at hturn
  rw [Sequence.filterMap_concat, List.flatMap_append, List.flatMap_singleton, hturn, hbefore,
    ← List.append_assoc, hall]

/-- A later call comes to the recorder that all calls before it have left. -/
theorem acts_of_later (henabled : s.enabled = true)
    (hturns : (new s cache).history calls = earlier ++ t :: (between ++ u :: later)) :
    Acts u.before u.found u ∧ ∃ before,
      earlier ++ [t] ++ between = (new s cache).history before ∧
        u.before = (new s cache).afterAll before := by
  have hsplit : (new s cache).history calls = (earlier ++ [t] ++ between) ++ u :: later := by
    rw [hturns]
    simp
  exact acts_of_history henabled hsplit

/-- When a call leaves no records, the batch that is written next has those completed since. -/
theorem written_of_no_files (henabled : s.enabled = true)
    (hturns : (new s cache).history calls = earlier ++ t :: (between ++ u :: later))
    (hfiles : t.after.files = []) (hbetween : ∀ v ∈ between, v.wrote = false)
    (hwrote : u.wrote = true) : u.written = between.filterMap Turn.record? := by
  have hfirst := written_eq_of_no_files henabled hturns hfiles
  obtain ⟨hacts, before, hbefore, hheld⟩ := acts_of_later henabled hturns
  have hall := written_append_files_afterAll henabled cache before
  have hnothing : between.flatMap Turn.written = [] := by
    rw [List.flatMap_eq_nil_iff]
    intro v hv
    rw [Turn.written, hbetween v hv]
    rfl
  rw [← hbefore, ← hheld, List.flatMap_append, hnothing, List.append_nil, List.filterMap_append,
    hfirst, List.append_cancel_left_eq] at hall
  rw [← hall]
  exact (hacts.appended hwrote).1

/-- The run that the batch written next belongs to: the one started last since the call, or else
the one that would have been written then. -/
theorem run?_of_next (henabled : s.enabled = true)
    (hturns : (new s cache).history calls = earlier ++ t :: (between ++ u :: later))
    (hbetween : ∀ v ∈ between, v.wrote = false) (hwrote : u.wrote = true) :
    u.run?.map RunMetric.component =
      (between.filterMap Turn.started?).getLast?.or (latestRun (earlier ++ [t])) := by
  obtain ⟨hacts, before, hbefore, hheld⟩ := acts_of_later henabled hturns
  rcases hacts.cases_wrote with ⟨hnot, -⟩ | ⟨-, elapsedMs, hoperation, -⟩
  · rw [hnot] at hwrote
    cases hwrote
  · rw [Turn.run?_component hoperation, hheld, (consistent_afterAll henabled cache before).timing,
      ← hbefore]
    exact Sequence.latest_append _ _ hbetween

end Batch

/-- A stop that succeeds leaves no record and no run that is timed.  If records were waiting, the
recorder is as new after it.  Otherwise it is as new only if no file was open and no run had been
started since records were written last: the open file stays open, so the next start of a file is
refused, and the record of the run stays.  The batch that is written next has the records completed
since the stop, and in front of them the run started last since then; if there is none, it has the
run that has stayed. -/
theorem stop_starts_over_if_records_were_waiting (s : MonitoringSettings) (cache : Path)
    (calls : List Invocation) {earlier later : List Turn} {t : Turn} {elapsedMs : Nat}
    (henabled : s.enabled = true) (hturns : (new s cache).history calls = earlier ++ t :: later)
    (hstop : t.operation = .stop elapsedMs) (hok : t.outcome = .ok ()) :
    t.after.files = [] ∧ t.after.run = none ∧
    (t.after = new s cache ↔
      waiting earlier ≠ [] ∨ openFile earlier = none ∧ latestRun earlier = none) ∧
    t.after.current = (if waiting earlier = [] then openFile earlier else none) ∧
    t.after.runMetric.map RunMetric.component =
      (if waiting earlier = [] then latestRun earlier else none) ∧
    (∀ id, (t.after.startFile id).1 = .ok () ↔
      waiting earlier ≠ [] ∨ openFile earlier = none) ∧
    ∀ between u rest, later = between ++ u :: rest → (∀ v ∈ between, v.wrote = false) →
      u.wrote = true →
        u.written = between.filterMap Turn.record? ∧
        u.run?.map RunMetric.component =
          (between.filterMap Turn.started?).getLast?.or
            (if waiting earlier = [] then latestRun earlier else none) := by
  obtain ⟨hacts, before, hearlier, hbefore⟩ := acts_of_history henabled hturns
  have hr := consistent_afterAll henabled cache before
  rw [← hearlier, ← hbefore] at hr
  have hafter := hacts.consistent hr
  obtain ⟨hfiles, hrun, hopen, hlatest⟩ := hacts.told_by_stop hr henabled hstop hok
  refine ⟨hfiles, hrun, ?_, hafter.current.trans hopen, ?_, ?_, ?_⟩
  · rcases hacts.after_stop hr henabled hstop hok with
      ⟨hwaiting, -, -, hnew⟩ | ⟨hwaiting, -, -, hended⟩
    · exact ⟨fun _ => .inl hwaiting, fun _ => hnew⟩
    · rw [hended, stopRun_eq_new_iff hr henabled hwaiting]
      exact ⟨.inr, fun h => h.resolve_left (absurd hwaiting)⟩
  · rw [← hlatest, ← hafter.timing, timing, hrun, Option.none_or]
  · intro id
    rw [startFile_eq_ok_iff hafter.enabled, hafter.current, hopen, ite_eq_right_iff,
      ← imp_iff_not_or]
  · rintro between u rest rfl hbetween hwrote
    rw [← hlatest]
    exact ⟨written_of_no_files henabled hturns hfiles hbetween hwrote,
      run?_of_next henabled hturns hbetween hwrote⟩

/-- A session in which one file is completed and another one is open. -/
def recordedCalls : List Invocation :=
  [.startRun "js", .startFile "a", .stopFile "a" 3 ⟨1, 2⟩, .startFile "b"].map
    (Invocation.mk ⟨.dir [], []⟩)

/-- The open file is dropped with the rest, and the recorder can be used again. -/
theorem recordedCalls_start_over :
    ∃ earlier t,
      (new ⟨true, some ⟨"/m"⟩⟩ ⟨"/c"⟩).history (recordedCalls ++ [⟨⟨.dir [], []⟩, .stop 5⟩]) =
        earlier ++ [t] ∧
      t.operation = .stop 5 ∧ t.outcome = .ok () ∧ openFile earlier = some "b" ∧
      t.after = new ⟨true, some ⟨"/m"⟩⟩ ⟨"/c"⟩ ∧ (t.after.startFile "c").1 = .ok () := by
  have hwaiting : waiting ((new ⟨true, some ⟨"/m"⟩⟩ ⟨"/c"⟩).history recordedCalls) ≠ [] := by
    decide +kernel
  have hturns := history_concat (new ⟨true, some ⟨"/m"⟩⟩ ⟨"/c"⟩) recordedCalls
    ⟨⟨.dir [], []⟩, .stop 5⟩
  have hok : (((new ⟨true, some ⟨"/m"⟩⟩ ⟨"/c"⟩).afterAll recordedCalls).perform
      ⟨⟨.dir [], []⟩, .stop 5⟩).outcome = .ok () := by
    decide +kernel
  obtain ⟨-, -, hnew, -, -, hstart, -⟩ :=
    stop_starts_over_if_records_were_waiting ⟨true, some ⟨"/m"⟩⟩ ⟨"/c"⟩ _ rfl hturns rfl hok
  exact ⟨_, _, hturns, rfl, hok, by decide +kernel, hnew.mpr (.inl hwaiting),
    (hstart "c").mpr (.inl hwaiting)⟩

/-- A session in which no file is completed. -/
def unfinishedCalls : List Invocation :=
  [.startRun "js", .startFile "a"].map (Invocation.mk ⟨.dir [], []⟩)

/-- Calls of another session, after one that was not finished. -/
def resumedCalls : List Invocation :=
  [.startFile "b", .stopFile "a" 1 ⟨0, 0⟩, .stop 9].map (Invocation.mk ⟨.dir [], []⟩)

/-- After a stop that succeeds the file is still open, another one is refused, and the run is
written with the next batch. -/
theorem unfinished_session_outlives_stop :
    ∃ earlier t later,
      (new ⟨true, some ⟨"/m"⟩⟩ ⟨"/c"⟩).history
          (unfinishedCalls ++ ⟨⟨.dir [], []⟩, .stop 5⟩ :: resumedCalls) = earlier ++ t :: later ∧
      t.operation = .stop 5 ∧ t.outcome = .ok () ∧
      t.after.current = some "a" ∧ t.after.runMetric = some ⟨"js", 5⟩ ∧
      (t.after.startFile "b").1 = .error (.pairing "stop of a" "start of b") ∧
      later.map (fun u => u.outcome.isOk) = [false, true, true] ∧
      ∃ u ∈ later, u.wrote = true ∧ u.run? = some ⟨"js", 5⟩ := by
  refine ⟨_, _, _, history_append _ unfinishedCalls (_ :: resumedCalls), rfl, ?_⟩
  decide +kernel

end LintRelay.Recorder
