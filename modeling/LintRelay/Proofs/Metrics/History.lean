import Mathlib.Data.List.Induction
import LintRelay.Proofs.Metrics
import LintRelay.Proofs.Sequence
set_option autoImplicit false

/-!
# Histories of a recorder

A recorder is called again and again: runs and files are started and stopped, and from time
to time the records are written.  Every call finds some disk, which others may have changed
since the call before it, so whether writing succeeds can be different each time.

`Acts` says everything that one call can do to a recorder that is enabled.  From it follows,
by induction over the history, that what the recorder holds can be read off the calls and
their answers (`Consistent`): which file is open, which records are waiting to be written, and
which run they belong to.
-/

namespace LintRelay

/-- The file a record is about, its size and its timings. -/
def FileMetric.measured (m : FileMetric) : String × Nat × Perf :=
  (m.component, m.ncloc, ⟨m.parseTime, m.analysisTime⟩)

namespace Recorder

/-! ## Calls -/

/-- A call to a recorder.  A call that ends the timing of a run is told how long it took. -/
inductive Operation where
  | startRun (component : String)
  | stopRun (elapsedMs : Nat)
  | startFile (id : String)
  | stopFile (id : String) (ncloc : Nat) (perf : Perf)
  | stop (elapsedMs : Nat)
  deriving DecidableEq, Repr

/-- A call that is made when the disk is as given. -/
structure Invocation where
  disk : Disk
  operation : Operation

/-- A call that was made: what it has found, what it has answered, and what it has left. -/
structure Turn where
  operation : Operation
  before : Recorder
  found : Disk
  outcome : Except MonitoringError Unit
  after : Recorder
  left : Disk

/-- Makes a call. -/
def perform (r : Recorder) (c : Invocation) : Turn :=
  match c.operation with
  | .startRun component => ⟨c.operation, r, c.disk, .ok (), r.startRun component, c.disk⟩
  | .stopRun elapsedMs => ⟨c.operation, r, c.disk, .ok (), r.stopRun elapsedMs, c.disk⟩
  | .startFile id => ⟨c.operation, r, c.disk, (r.startFile id).1, (r.startFile id).2, c.disk⟩
  | .stopFile id ncloc perf =>
    ⟨c.operation, r, c.disk, (r.stopFile id ncloc perf).1, (r.stopFile id ncloc perf).2, c.disk⟩
  | .stop elapsedMs =>
    ⟨c.operation, r, c.disk, (r.stop elapsedMs c.disk).outcome, (r.stop elapsedMs c.disk).recorder,
      (r.stop elapsedMs c.disk).disk⟩

@[simp] theorem perform_before (r : Recorder) (c : Invocation) : (r.perform c).before = r := by
  unfold perform; split <;> rfl

@[simp] theorem perform_found (r : Recorder) (c : Invocation) :
    (r.perform c).found = c.disk := by
  unfold perform; split <;> rfl

/-- The recorder after calls. -/
def afterAll (r : Recorder) (calls : List Invocation) : Recorder :=
  calls.foldl (fun r c => (r.perform c).after) r

/-- The calls as they were answered. -/
def history (r : Recorder) : List Invocation → List Turn
  | [] => []
  | c :: rest => r.perform c :: history (r.perform c).after rest

theorem history_append (r : Recorder) (calls more : List Invocation) :
    r.history (calls ++ more) = r.history calls ++ (r.afterAll calls).history more := by
  induction calls generalizing r with
  | nil => rfl
  | cons c rest ih => simp [history, afterAll, ih]

theorem history_concat (r : Recorder) (calls : List Invocation) (c : Invocation) :
    r.history (calls ++ [c]) = r.history calls ++ [(r.afterAll calls).perform c] :=
  r.history_append calls [c]

theorem afterAll_concat (r : Recorder) (calls : List Invocation) (c : Invocation) :
    r.afterAll (calls ++ [c]) = ((r.afterAll calls).perform c).after := by
  simp [afterAll]

/-- A call in a history comes behind others, and it finds the recorder as they have left it. -/
theorem history_eq_append_cons {r : Recorder} {calls : List Invocation} {earlier later : List Turn}
    {t : Turn} (h : r.history calls = earlier ++ t :: later) :
    ∃ before c rest, calls = before ++ c :: rest ∧ earlier = r.history before ∧
      t = (r.afterAll before).perform c := by
  induction earlier generalizing r calls with
  | nil =>
    cases calls with
    | nil => cases h
    | cons c rest => exact ⟨[], c, rest, rfl, rfl, (List.cons.inj h).1.symm⟩
  | cons first earlier ih =>
    cases calls with
    | nil => cases h
    | cons c rest =>
      obtain ⟨hfirst, hrest⟩ := List.cons.inj h
      obtain ⟨before, c', rest', rfl, rfl, rfl⟩ := ih hrest
      exact ⟨c :: before, c', rest', rfl, by rw [history, hfirst], rfl⟩

/-! ## What calls tell -/

namespace Turn

/-- The call was refused because starts and stops of files do not pair up. -/
def Refused (t : Turn) : Prop := ∃ expected actual, t.outcome = .error (.pairing expected actual)

/-- The call has started a file. -/
def opened? (t : Turn) : Option String :=
  match t.operation, t.outcome with
  | .startFile id, .ok () => some id
  | _, _ => none

/-- The call has completed a file: its name, its size and its timings. -/
def completed? (t : Turn) : Option (String × Nat × Perf) :=
  match t.operation, t.outcome with
  | .stopFile id ncloc perf, .ok () => some (id, ncloc, perf)
  | _, _ => none

/-- The call has started a run. -/
def started? (t : Turn) : Option String :=
  match t.operation with
  | .startRun component => some component
  | _ => none

/-- The call is a stop that comes to records which are waiting. -/
def flushes (t : Turn) : Bool :=
  match t.operation with
  | .stop _ => !t.before.files.isEmpty
  | _ => false

/-- The call has written the records that were waiting. -/
def wrote (t : Turn) : Bool := t.flushes && t.outcome.isOk

/-- After the call no file is open: it has completed one, or it is a stop that comes to
records which are waiting. -/
def closes (t : Turn) : Bool := t.completed?.isSome || t.flushes

end Turn

/-- The file that is open after calls: the one started last, unless a call since has closed
it. -/
def openFile (turns : List Turn) : Option String :=
  Sequence.latest Turn.closes Turn.opened? turns

/-- The files completed since records were written last. -/
def waiting (turns : List Turn) : List (String × Nat × Perf) :=
  (Sequence.since Turn.wrote turns).filterMap Turn.completed?

/-- The run started last since records were written last. -/
def latestRun (turns : List Turn) : Option String :=
  Sequence.latest Turn.wrote Turn.started? turns

theorem openFile_concat (turns : List Turn) (t : Turn) :
    openFile (turns ++ [t]) = if t.closes then none else t.opened?.or (openFile turns) :=
  Sequence.latest_concat _ _ turns t

theorem waiting_concat (turns : List Turn) (t : Turn) :
    waiting (turns ++ [t]) = if t.wrote then [] else waiting turns ++ t.completed?.toList :=
  Sequence.filterMap_since_concat _ _ turns t

theorem latestRun_concat (turns : List Turn) (t : Turn) :
    latestRun (turns ++ [t]) = if t.wrote then none else t.started?.or (latestRun turns) :=
  Sequence.latest_concat _ _ turns t

/-! ## What one call can do -/

/-- The recorder when its records are about to be written: no run is timed any more, and a file
that is still open is dropped. -/
def ended (r : Recorder) (elapsedMs : Nat) : Recorder :=
  { r.stopRun elapsedMs with current := none }

/-- The call is one to a recorder that is enabled. -/
inductive Acts (r : Recorder) (d : Disk) : Turn → Prop
  | startRun (component : String) :
      Acts r d ⟨.startRun component, r, d, .ok (), { r with run := some component }, d⟩
  | stopRun (elapsedMs : Nat) :
      Acts r d ⟨.stopRun elapsedMs, r, d, .ok (), r.stopRun elapsedMs, d⟩
  | opened (id : String) (hidle : r.current = none) :
      Acts r d ⟨.startFile id, r, d, .ok (), { r with current := some id }, d⟩
  | overlaps (id other : String) (hopen : r.current = some other) :
      Acts r d ⟨.startFile id, r, d, .error (.pairing ("stop of " ++ other) ("start of " ++ id)), r,
        d⟩
  | completed (id : String) (ncloc : Nat) (perf : Perf) (hopen : r.current = some id) :
      Acts r d ⟨.stopFile id ncloc perf, r, d, .ok (),
        { r with
          current := none
          files := r.files ++ [⟨id, perf.analysisTime, perf.parseTime, ncloc, r.files.length⟩] }, d⟩
  | mismatched (id : String) (ncloc : Nat) (perf : Perf) (hother : r.current ≠ some id) :
      Acts r d ⟨.stopFile id ncloc perf, r, d,
        .error (.pairing (r.current.getD "no started file") id), r, d⟩
  | nothing (elapsedMs : Nat) (hfiles : r.files = []) :
      Acts r d ⟨.stop elapsedMs, r, d, .ok (), r.stopRun elapsedMs, d⟩
  | unwritten (elapsedMs : Nat) (hfiles : r.files ≠ []) (err : Disk.OsError) (left : Disk)
      (hwrite : (r.ended elapsedMs).writeBatch d = (.error err, left)) :
      Acts r d ⟨.stop elapsedMs, r, d, .error (.io err), r.ended elapsedMs, left⟩
  | written (elapsedMs : Nat) (hfiles : r.files ≠ []) (left : Disk)
      (hwrite : (r.ended elapsedMs).writeBatch d = (.ok (), left)) :
      Acts r d ⟨.stop elapsedMs, r, d, .ok (),
        { r.ended elapsedMs with files := [], runMetric := none }, left⟩

theorem startFile_acts {r : Recorder} (henabled : r.enabled = true) (d : Disk) (id : String) :
    Acts r d (r.perform ⟨d, .startFile id⟩) := by
  cases hcurrent : r.current with
  | none =>
    have hstart : r.startFile id = (.ok (), { r with current := some id }) := by
      simp [startFile, henabled, hcurrent]
    simp only [perform, hstart]
    exact .opened id hcurrent
  | some other =>
    have hstart : r.startFile id =
        (.error (.pairing ("stop of " ++ other) ("start of " ++ id)), r) := by
      simp [startFile, henabled, hcurrent]
    simp only [perform, hstart]
    exact .overlaps id other hcurrent

/-- The open file is put back when it is not the one to complete, so a refusal changes
nothing. -/
theorem stopFile_of_ne {r : Recorder} (henabled : r.enabled = true) {id : String}
    (hother : r.current ≠ some id) (ncloc : Nat) (perf : Perf) :
    r.stopFile id ncloc perf = (.error (.pairing (r.current.getD "no started file") id), r) := by
  obtain ⟨enabled, dir, run, runMetric, current, files⟩ := r
  obtain rfl : enabled = true := henabled
  cases current with
  | none => rfl
  | some other =>
    have hid : other ≠ id := fun h => hother (congrArg some h)
    simp [stopFile, hid]

theorem stopFile_acts {r : Recorder} (henabled : r.enabled = true) (d : Disk) (id : String)
    (ncloc : Nat) (perf : Perf) : Acts r d (r.perform ⟨d, .stopFile id ncloc perf⟩) := by
  by_cases hcurrent : r.current = some id
  · have hstop : r.stopFile id ncloc perf = (.ok (),
        { r with
          current := none
          files := r.files ++
            [⟨id, perf.analysisTime, perf.parseTime, ncloc, r.files.length⟩] }) := by
      simp [stopFile, henabled, hcurrent]
    simp only [perform, hstop]
    exact .completed id ncloc perf hcurrent
  · simp only [perform, stopFile_of_ne henabled hcurrent]
    exact .mismatched id ncloc perf hcurrent

theorem stop_acts {r : Recorder} (henabled : r.enabled = true) (d : Disk) (elapsedMs : Nat) :
    Acts r d (r.perform ⟨d, .stop elapsedMs⟩) := by
  by_cases hfiles : r.files = []
  · have hstop : r.stop elapsedMs d = ⟨.ok (), r.stopRun elapsedMs, d, []⟩ := by
      simp [stop, hfiles]
    simp only [perform, hstop]
    exact .nothing elapsedMs hfiles
  · have hwriting : (!(r.stopRun elapsedMs).enabled || (r.stopRun elapsedMs).files.isEmpty) =
        false := by
      simp [henabled, hfiles]
    rcases hwrite : (r.ended elapsedMs).writeBatch d with ⟨err | done, left⟩
    · have hturn := Acts.unwritten elapsedMs hfiles err left hwrite
      simp only [ended] at hwrite hturn
      simp only [perform, stop, hwriting, hwrite, Bool.false_eq_true, if_false]
      exact hturn
    · have hturn := Acts.written elapsedMs hfiles left hwrite
      simp only [ended] at hwrite hturn
      simp only [perform, stop, hwriting, hwrite, Bool.false_eq_true, if_false]
      exact hturn

theorem perform_acts {r : Recorder} (henabled : r.enabled = true) (c : Invocation) :
    Acts r c.disk (r.perform c) := by
  obtain ⟨d, operation⟩ := c
  cases operation with
  | startRun component =>
    have hturn := Acts.startRun (r := r) (d := d) component
    simpa [perform, Recorder.startRun, henabled] using hturn
  | stopRun elapsedMs => exact .stopRun elapsedMs
  | startFile id => exact startFile_acts henabled d id
  | stopFile id ncloc perf => exact stopFile_acts henabled d id ncloc perf
  | stop elapsedMs => exact stop_acts henabled d elapsedMs

/-! ## What a recorder holds after any calls -/

/-- The run that records will be written with: the one being timed, or else the one that was
timed last. -/
def timing (r : Recorder) : Option String := r.run.or (r.runMetric.map RunMetric.component)

/-- What a recorder holds is what the calls tell. -/
structure Consistent (dir : Path) (turns : List Turn) (r : Recorder) : Prop where
  enabled : r.enabled = true
  dir : r.dir = dir
  current : r.current = openFile turns
  ordinals : r.files.map FileMetric.ordinal = List.range r.files.length
  measured : r.files.map FileMetric.measured = waiting turns
  timing : r.timing = latestRun turns

/-- Ending the timing of a run does not change the run that records will be written with. -/
theorem timing_stopRun (r : Recorder) (elapsedMs : Nat) :
    (r.stopRun elapsedMs).timing = r.timing := by
  unfold stopRun
  split
  · rename_i component hrun
    simp [timing, hrun]
  · rfl

theorem Consistent.new {s : MonitoringSettings} (henabled : s.enabled = true) (cache : Path) :
    Consistent (s.path.getD cache) [] (new s cache) :=
  ⟨henabled, rfl, rfl, rfl, rfl, rfl⟩

attribute [local simp] openFile_concat waiting_concat latestRun_concat Turn.closes Turn.wrote
  Turn.flushes Turn.opened? Turn.completed? Turn.started? ended timing_stopRun Except.isOk
  Except.toBool in
/-- Every call keeps what is held consistent with what the calls tell. -/
theorem Acts.consistent {dir : Path} {turns : List Turn} {r : Recorder} {d : Disk} {t : Turn}
    (h : Acts r d t) (hr : Consistent dir turns r) : Consistent dir (turns ++ [t]) t.after := by
  obtain ⟨henabled, hdir, hcurrent, hordinals, hmeasured, htiming⟩ := hr
  cases h with
  | startRun component =>
    refine ⟨henabled, hdir, ?_, hordinals, ?_, ?_⟩
    · simpa using hcurrent
    · simpa using hmeasured
    · simp [timing]
  | stopRun elapsedMs =>
    refine ⟨by simpa using henabled, by simpa using hdir, ?_, by simpa using hordinals, ?_, ?_⟩
    · simpa using hcurrent
    · simpa using hmeasured
    · simpa using htiming
  | opened id hidle =>
    refine ⟨henabled, hdir, ?_, hordinals, ?_, ?_⟩
    · simp
    · simpa using hmeasured
    · simpa [timing] using htiming
  | overlaps id other hopen =>
    refine ⟨henabled, hdir, ?_, hordinals, ?_, ?_⟩
    · simpa using hcurrent
    · simpa using hmeasured
    · simpa using htiming
  | completed id ncloc perf hopen =>
    refine ⟨henabled, hdir, ?_, ?_, ?_, ?_⟩
    · simp
    · simp [hordinals, List.range_succ]
    · simp [hmeasured, FileMetric.measured]
    · simpa [timing] using htiming
  | mismatched id ncloc perf hother =>
    refine ⟨henabled, hdir, ?_, hordinals, ?_, ?_⟩
    · simpa using hcurrent
    · simpa using hmeasured
    · simpa using htiming
  | nothing elapsedMs hfiles =>
    refine ⟨by simpa using henabled, by simpa using hdir, ?_, by simpa using hordinals, ?_, ?_⟩
    · simpa [hfiles] using hcurrent
    · simpa [hfiles] using hmeasured
    · simpa [hfiles] using htiming
  | unwritten elapsedMs hfiles err left hwrite =>
    have hkept : (r.ended elapsedMs).timing = r.timing := r.timing_stopRun elapsedMs
    refine ⟨by simpa using henabled, by simpa using hdir, ?_, by simpa using hordinals, ?_, ?_⟩
    · simp [hfiles]
    · simpa using hmeasured
    · rw [hkept]
      simpa using htiming
  | written elapsedMs hfiles left hwrite =>
    refine ⟨by simpa using henabled, by simpa using hdir, ?_, rfl, ?_, ?_⟩
    · simp [hfiles]
    · simp [hfiles]
    · simp [timing, hfiles]

/-- After any calls a recorder holds what they tell. -/
theorem consistent_afterAll {s : MonitoringSettings} (henabled : s.enabled = true) (cache : Path)
    (calls : List Invocation) :
    Consistent (s.path.getD cache) ((new s cache).history calls)
      ((new s cache).afterAll calls) := by
  induction calls using List.reverseRecOn with
  | nil => exact .new henabled cache
  | append_singleton calls c ih =>
    rw [history_concat, afterAll_concat]
    exact (perform_acts ih.enabled c).consistent ih

/-- A call in a history is made to the recorder that the calls before it have left. -/
theorem acts_of_history {s : MonitoringSettings} {cache : Path} {calls : List Invocation}
    {earlier later : List Turn} {t : Turn} (henabled : s.enabled = true)
    (h : (new s cache).history calls = earlier ++ t :: later) :
    Acts t.before t.found t ∧ ∃ before, earlier = (new s cache).history before ∧
      t.before = (new s cache).afterAll before := by
  obtain ⟨before, c, rest, -, rfl, rfl⟩ := history_eq_append_cons h
  have hconsistent := consistent_afterAll henabled cache before
  rw [perform_before, perform_found]
  exact ⟨perform_acts hconsistent.enabled c, before, rfl, rfl⟩

/-! ## Starts and stops pair up -/

/-- A refusal changes nothing. -/
theorem Acts.unchanged_of_refused {r : Recorder} {d : Disk} {t : Turn} (h : Acts r d t)
    (hrefused : t.Refused) : t.after = t.before ∧ t.left = t.found := by
  obtain ⟨expected, actual, houtcome⟩ := hrefused
  cases h with
  | overlaps => exact ⟨rfl, rfl⟩
  | mismatched => exact ⟨rfl, rfl⟩
  | _ => simp at houtcome

theorem startFile_eq_ok_iff {r : Recorder} (henabled : r.enabled = true) (id : String) :
    (r.startFile id).1 = .ok () ↔ r.current = none := by
  cases hcurrent : r.current <;> simp [startFile, henabled, hcurrent]

theorem stopFile_eq_ok_iff {r : Recorder} (henabled : r.enabled = true) (id : String)
    (ncloc : Nat) (perf : Perf) :
    (r.stopFile id ncloc perf).1 = .ok () ↔ r.current = some id := by
  by_cases hcurrent : r.current = some id
  · simp [stopFile, henabled, hcurrent]
  · simp [stopFile_of_ne henabled hcurrent, hcurrent]

/-- A recorder that is not enabled does nothing. -/
theorem perform_of_disabled {r : Recorder} (hdisabled : r.enabled = false) (hrun : r.run = none)
    (c : Invocation) : r.perform c = ⟨c.operation, r, c.disk, .ok (), r, c.disk⟩ := by
  have hstopRun : ∀ elapsedMs, r.stopRun elapsedMs = r := by
    intro elapsedMs
    simp [stopRun, hrun]
  obtain ⟨d, operation⟩ := c
  cases operation with
  | startRun component => simp [perform, startRun, hdisabled]
  | stopRun elapsedMs => simp [perform, hstopRun]
  | startFile id => simp [perform, startFile, hdisabled]
  | stopFile id ncloc perf => simp [perform, stopFile, hdisabled]
  | stop elapsedMs => simp [perform, stop, hstopRun, hdisabled]

theorem history_of_disabled {r : Recorder} (hdisabled : r.enabled = false) (hrun : r.run = none)
    (calls : List Invocation) :
    r.afterAll calls = r ∧
      r.history calls = calls.map fun c => ⟨c.operation, r, c.disk, .ok (), r, c.disk⟩ := by
  induction calls with
  | nil => exact ⟨rfl, rfl⟩
  | cons c rest ih =>
    simp only [afterAll, history, List.foldl_cons, List.map_cons,
      perform_of_disabled hdisabled hrun]
    exact ⟨ih.1, congrArg _ ih.2⟩

/-- Whatever calls were made to a recorder, and whatever the disk was at each of them, the next
start of a file succeeds if and only if no file is open, and the next stop of a file if and only
if this file is open.  A refused call has changed nothing.  The records held are numbered from
zero, and they are about the files completed since records were written last, in order.  A
recorder that is not enabled grants every call, holds nothing, and leaves the disk alone. -/
theorem recorder_pairs_up (s : MonitoringSettings) (cache : Path) (calls : List Invocation)
    {r : Recorder} {turns : List Turn} (hr : (new s cache).afterAll calls = r)
    (hturns : (new s cache).history calls = turns) :
    (s.enabled = true →
      r.current = openFile turns ∧
      (∀ id, (r.startFile id).1 = .ok () ↔ openFile turns = none) ∧
      (∀ id ncloc perf, (r.stopFile id ncloc perf).1 = .ok () ↔ openFile turns = some id) ∧
      (∀ t ∈ turns, t.Refused → t.after = t.before ∧ t.left = t.found) ∧
      r.files.map FileMetric.ordinal = List.range r.files.length ∧
      r.files.map FileMetric.measured = waiting turns) ∧
    (s.enabled = false →
      r = new s cache ∧ r.files = [] ∧
      ∀ t ∈ turns, t.outcome = .ok () ∧ t.after = t.before ∧ t.left = t.found) := by
  subst hr hturns
  constructor
  · intro henabled
    have hconsistent := consistent_afterAll henabled cache calls
    refine ⟨hconsistent.current, ?_, ?_, ?_, hconsistent.ordinals, hconsistent.measured⟩
    · intro id
      rw [startFile_eq_ok_iff hconsistent.enabled, hconsistent.current]
    · intro id ncloc perf
      rw [stopFile_eq_ok_iff hconsistent.enabled, hconsistent.current]
    · intro t ht hrefused
      obtain ⟨earlier, later, hsplit⟩ := List.append_of_mem ht
      exact (acts_of_history henabled hsplit).1.unchanged_of_refused hrefused
  · intro hdisabled
    obtain ⟨hafter, hhistory⟩ := history_of_disabled (r := new s cache) hdisabled rfl calls
    rw [hafter, hhistory]
    refine ⟨rfl, rfl, ?_⟩
    intro t ht
    obtain ⟨c, -, rfl⟩ := List.mem_map.mp ht
    exact ⟨rfl, rfl, rfl⟩

/-- Calls in an order that is refused again and again; the records cannot be written, because a
file stands where the directory should be. -/
def unpairedCalls : List Invocation :=
  [.startFile "a", .startFile "b", .stopFile "b" 1 ⟨0, 0⟩, .stopFile "a" 3 ⟨1, 2⟩, .startFile "b",
    .stop 5, .stopFile "b" 4 ⟨0, 0⟩, .startFile "c"].map
      (Invocation.mk ⟨.dir [("m", .file [])], []⟩)

/-- The record of the first file is kept although it could not be written, the second file was
dropped at that point, and the third is the one that can be stopped. -/
theorem unpairedCalls_pair_up :
    ∃ r turns, (new ⟨true, some ⟨"/m"⟩⟩ ⟨"/c"⟩).afterAll unpairedCalls = r ∧
      (new ⟨true, some ⟨"/m"⟩⟩ ⟨"/c"⟩).history unpairedCalls = turns ∧
      turns.map (fun t => t.outcome.isOk) = [true, false, false, true, true, false, false, true] ∧
      r.files.map FileMetric.measured = [("a", 3, ⟨1, 2⟩)] ∧
      (r.startFile "b").1 ≠ .ok () ∧ (r.stopFile "c" 0 ⟨0, 0⟩).1 = .ok () := by
  have hopen : openFile ((new ⟨true, some ⟨"/m"⟩⟩ ⟨"/c"⟩).history unpairedCalls) = some "c" := by
    decide +kernel
  have hwaiting : waiting ((new ⟨true, some ⟨"/m"⟩⟩ ⟨"/c"⟩).history unpairedCalls) =
      [("a", 3, ⟨1, 2⟩)] := by
    decide +kernel
  obtain ⟨-, hstart, hstop, -, -, hmeasured⟩ :=
    (recorder_pairs_up ⟨true, some ⟨"/m"⟩⟩ ⟨"/c"⟩ unpairedCalls rfl rfl).1 rfl
  refine ⟨_, _, rfl, rfl, by decide +kernel, hmeasured.trans hwaiting, ?_, ?_⟩
  · simp [hstart, hopen]
  · simp [hstop, hopen]

end Recorder

end LintRelay
