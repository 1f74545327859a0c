import LintRelay.Proofs.Metrics
import LintRelay.Proofs.Metrics.History
set_option autoImplicit false

/-!
# Records are neither lost nor written twice

Every record that is completed is written by one later call, or it is held still.  A call
that cannot write keeps the records for the next one.  A call that writes adds whole lines at
the end of the metrics file: first the record of the run, if one was started since records were
written last, and then those of the files.
-/

namespace LintRelay.Recorder

open Json (Value)
open LintRelay.Text (Bytes)

/-! ## What a call has written -/

namespace Turn

/-- The record that the call has completed.  Records are numbered in the order of their
completion, from zero after each writing. -/
def record? (t : Turn) : Option FileMetric :=
  t.completed?.map fun c =>
    { component := c.1
      analysisTime := c.2.2.analysisTime
      parseTime := c.2.2.parseTime
      ncloc := c.2.1
      ordinal := t.before.files.length }

/-- The record of a run that a stop finds, or makes. -/
def run? (t : Turn) : Option RunMetric :=
  match t.operation with
  | .stop elapsedMs => (t.before.stopRun elapsedMs).runMetric
  | _ => none

/-- The records of files that the call has written. -/
def written (t : Turn) : List FileMetric := if t.wrote then t.before.files else []

/-- The lines that the call has written. -/
def lines (t : Turn) : List String :=
  if t.wrote then
    (t.run?.toList.map RunMetric.toValue ++ t.written.map FileMetric.toValue).map Value.compact
  else []

end Turn

/-- The bytes of lines in a file. -/
def bytesOf (lines : List String) : Bytes := Text.utf8 (String.join (lines.map (· ++ "\n")))

theorem bytesOf_append (lines more : List String) :
    bytesOf (lines ++ more) = bytesOf lines ++ bytesOf more := by
  simp [bytesOf, Text.utf8, Text.utf8Chars]

section Turns

variable {r : Recorder} {d : Disk} {t : Turn}

/-- The records that are held after a call, and before them those that it has written, are the
records held before and the one completed by the call. -/
theorem Acts.written_append_files (h : Acts r d t) :
    t.written ++ t.after.files = r.files ++ t.record?.toList := by
  cases h with
  | written elapsedMs hfiles left hwrite =>
    simp [Turn.written, Turn.wrote, Turn.flushes, Turn.record?, Turn.completed?, hfiles,
      Except.isOk, Except.toBool]
  | _ => simp [Turn.written, Turn.wrote, Turn.flushes, Turn.record?, Turn.completed?, ended, *,
      Except.isOk, Except.toBool]

/-- A call that writes is a stop that comes to records.  Any other call makes directories at
most. -/
theorem Acts.cases_wrote (h : Acts r d t) :
    (t.wrote = false ∧ Disk.Preserved r.dir.components d t.left) ∨
      (t.wrote = true ∧ ∃ elapsedMs, t.operation = .stop elapsedMs ∧ t.before = r ∧
        r.files ≠ [] ∧ (r.ended elapsedMs).writeBatch d = (.ok (), t.left)) := by
  cases h with
  | unwritten elapsedMs hfiles err left hwrite =>
    refine .inl ⟨by simp [Turn.wrote, Except.isOk, Except.toBool], ?_⟩
    have hpreserved := writeBatch_eq_error hwrite
    simpa [ended] using hpreserved
  | written elapsedMs hfiles left hwrite =>
    refine .inr ⟨?_, elapsedMs, rfl, rfl, hfiles, hwrite⟩
    simp [Turn.wrote, Turn.flushes, hfiles, Except.isOk, Except.toBool]
  | nothing elapsedMs hfiles => exact .inl ⟨by simp [Turn.wrote, Turn.flushes, hfiles], .refl d⟩
  | _ => exact .inl ⟨by simp [Turn.wrote, Turn.flushes], .refl d⟩

theorem Acts.preserved (h : Acts r d t) (hnot : t.wrote = false) :
    Disk.Preserved r.dir.components d t.left := by
  rcases h.cases_wrote with ⟨-, hpreserved⟩ | ⟨hwrote, -⟩
  · exact hpreserved
  · rw [hnot] at hwrote
    cases hwrote

/-- A call that writes adds its lines to the metrics file. -/
theorem Acts.appended (h : Acts r d t) (hwrote : t.wrote = true) :
    t.written = r.files ∧ r.files ≠ [] ∧ ∃ place,
      Disk.Appended r.dir.components r.metricsPath (bytesOf t.lines) place d t.left := by
  rcases h.cases_wrote with ⟨hnot, -⟩ | ⟨-, elapsedMs, hoperation, hbefore, hfiles, hwrite⟩
  · rw [hnot] at hwrote
    cases hwrote
  · have hwritten : t.written = r.files := by rw [Turn.written, if_pos hwrote, hbefore]
    have hbatch : Text.utf8 (r.ended elapsedMs).batch = bytesOf t.lines := by
      rw [batch_eq_join, Turn.lines, if_pos hwrote, hwritten, Turn.run?, hoperation]
      simp [bytesOf, values, ended, hbefore]
    obtain ⟨place, happended⟩ := writeBatch_eq_ok hwrite
    rw [hbatch] at happended
    refine ⟨hwritten, hfiles, place, ?_⟩
    simpa [metricsPath, ended] using happended

/-- Lines are written at the end of what is in the place of the metrics file. -/
theorem Acts.bytesAt (h : Acts r d t) {place : Disk.Location}
    (hplace : t.wrote = true → t.left.locate r.metricsPath = .ok place) :
    t.left.tree.bytesAt place = d.tree.bytesAt place ++ bytesOf t.lines := by
  by_cases hwrote : t.wrote = true
  · obtain ⟨-, -, place', happended⟩ := h.appended hwrote
    obtain rfl := Except.ok.inj (happended.located.symm.trans (hplace hwrote))
    exact happended.bytesAt
  · have hnothing : bytesOf t.lines = [] := by
      rw [Turn.lines, if_neg hwrote]
      rfl
    rw [((h.preserved (by simpa using hwrote)).kept place).bytesAt, hnothing, List.append_nil]

theorem Turn.newline_notMem_lines (t : Turn) {line : String} (hline : line ∈ t.lines) :
    '\n' ∉ line.toList := by
  unfold Turn.lines at hline
  split at hline
  · obtain ⟨v, -, rfl⟩ := List.mem_map.mp hline
    exact v.newline_notMem_compact
  · cases hline

end Turns

/-! ## Numbers of 64 bits -/

/-- The numbers that the call is given are of 64 bits. -/
def Operation.Sized : Operation → Prop
  | .startRun _ => True
  | .stopRun elapsedMs => elapsedMs ≤ Json.maxSignificand
  | .startFile _ => True
  | .stopFile _ ncloc perf =>
    ncloc ≤ Json.maxSignificand ∧ perf.parseTime ≤ Json.maxSignificand ∧
      perf.analysisTime ≤ Json.maxSignificand
  | .stop elapsedMs => elapsedMs ≤ Json.maxSignificand

instance : (o : Operation) → Decidable o.Sized
  | .startRun _ => inferInstanceAs (Decidable True)
  | .stopRun elapsedMs => inferInstanceAs (Decidable (elapsedMs ≤ Json.maxSignificand))
  | .startFile _ => inferInstanceAs (Decidable True)
  | .stopFile _ ncloc perf => inferInstanceAs (Decidable (ncloc ≤ Json.maxSignificand ∧
      perf.parseTime ≤ Json.maxSignificand ∧ perf.analysisTime ≤ Json.maxSignificand))
  | .stop elapsedMs => inferInstanceAs (Decidable (elapsedMs ≤ Json.maxSignificand))

/-- After so many calls what is held has numbers of 64 bits. -/
structure Fits (calls : Nat) (r : Recorder) : Prop where
  run : ∀ m ∈ r.runMetric, m.Fits
  files : ∀ m ∈ r.files, m.Fits
  count : r.files.length ≤ calls

theorem Fits.stopRun {calls : Nat} {r : Recorder} (h : r.Fits calls) {elapsedMs : Nat}
    (helapsed : elapsedMs ≤ Json.maxSignificand) : (r.stopRun elapsedMs).Fits calls := by
  refine ⟨?_, by simpa using h.files, by simpa using h.count⟩
  unfold Recorder.stopRun
  split
  · intro m hm
    obtain rfl := Option.some.inj hm
    exact helapsed
  · exact h.run

/-- The number of a record is no more than that of the calls before. -/
theorem Acts.fits {calls : Nat} {r : Recorder} {d : Disk} {t : Turn} (h : Acts r d t)
    (hsized : t.operation.Sized) (hcalls : calls ≤ Json.maxSignificand) (hr : r.Fits calls) :
    t.after.Fits (calls + 1) := by
  have hmore : ∀ {r : Recorder}, r.Fits calls → r.Fits (calls + 1) := fun h =>
    ⟨h.run, h.files, Nat.le_succ_of_le h.count⟩
  cases h with
  | startRun component => exact hmore ⟨hr.run, hr.files, hr.count⟩
  | stopRun elapsedMs => exact hmore (hr.stopRun hsized)
  | opened id hidle => exact hmore ⟨hr.run, hr.files, hr.count⟩
  | overlaps id other hopen => exact hmore hr
  | completed id ncloc perf hopen =>
    obtain ⟨hncloc, hparse, hanalysis⟩ := hsized
    refine ⟨hr.run, ?_, by simpa using hr.count⟩
    intro m hm
    rcases List.mem_append.mp hm with hm | hm
    · exact hr.files m hm
    · obtain rfl := List.mem_singleton.mp hm
      exact ⟨hanalysis, hparse, hncloc, hr.count.trans hcalls⟩
  | mismatched id ncloc perf hother => exact hmore hr
  | nothing elapsedMs hfiles => exact hmore (hr.stopRun hsized)
  | unwritten elapsedMs hfiles err left hwrite =>
    have hstopped := hr.stopRun hsized
    exact hmore ⟨hstopped.run, hstopped.files, hstopped.count⟩
  | written elapsedMs hfiles left hwrite => exact ⟨by simp, by simp, Nat.zero_le _⟩

theorem fits_afterAll {s : MonitoringSettings} (henabled : s.enabled = true) (cache : Path)
    (calls : List Invocation)
    (hsized : ∀ t ∈ (new s cache).history calls, t.operation.Sized)
    (hcount : ((new s cache).history calls).length ≤ Json.maxSignificand) :
    ((new s cache).afterAll calls).Fits ((new s cache).history calls).length := by
  induction calls using List.reverseRecOn with
  | nil => exact ⟨by simp [new, afterAll], by simp [new, afterAll], Nat.zero_le _⟩
  | append_singleton calls c ih =>
    rw [history_concat] at hsized hcount ⊢
    rw [List.length_append] at hcount ⊢
    rw [afterAll_concat]
    have hbefore := ih (fun t ht => hsized t (List.mem_append_left _ ht)) (by omega)
    have hacts := perform_acts (consistent_afterAll henabled cache calls).enabled c
    exact hacts.fits (hsized _ (by simp)) (by omega) hbefore

/-- Each line that a call writes decodes to the record that it was written from. -/
theorem Acts.decode_lines {calls : Nat} {r : Recorder} {d : Disk} {t : Turn} (h : Acts r d t)
    (hsized : t.operation.Sized) (hr : r.Fits calls) (hwrote : t.wrote = true) :
    (∀ m ∈ t.run?, Json.decode RunMetric.decoder m.toValue.compact = .ok m) ∧
      ∀ m ∈ t.written, Json.decode FileMetric.decoder m.toValue.compact = .ok m := by
  rcases h.cases_wrote with ⟨hnot, -⟩ | ⟨-, elapsedMs, hoperation, hbefore, -, -⟩
  · rw [hnot] at hwrote
    cases hwrote
  · rw [hoperation] at hsized
    have hstopped := hr.stopRun hsized
    rw [Turn.written, if_pos hwrote, Turn.run?, hoperation, hbefore]
    exact ⟨fun m hm => RunMetric.decode_compact (hstopped.run m hm),
      fun m hm => FileMetric.decode_compact (hr.files m hm)⟩

/-! ## Whole histories -/

/-- The records written so far and those that are held are the records completed so far. -/
theorem written_append_files_afterAll {s : MonitoringSettings} (henabled : s.enabled = true)
    (cache : Path) (calls : List Invocation) :
    ((new s cache).history calls).flatMap Turn.written ++ ((new s cache).afterAll calls).files =
      ((new s cache).history calls).filterMap Turn.record? := by
  induction calls using List.reverseRecOn with
  | nil => rfl
  | append_singleton calls c ih =>
    have hacts := perform_acts (consistent_afterAll henabled cache calls).enabled c
    have hturn := hacts.written_append_files
    rw [history_concat, afterAll_concat, Sequence.filterMap_concat, ← ih, List.append_assoc, ← hturn]
    simp

/-- The bytes in a place are some at first, the calls find there what the calls before them have
left, and at last they are others. -/
inductive Undisturbed (place : Disk.Location) (first : Bytes) : List Turn → Bytes → Prop
  | start : Undisturbed place first [] first
  | turn {turns : List Turn} (t : Turn)
      (h : Undisturbed place first turns (t.found.tree.bytesAt place)) :
      Undisturbed place first (turns ++ [t]) (t.left.tree.bytesAt place)

/-- When nobody else touches a file, all lines are in it in the order in which they were
written. -/
theorem Undisturbed.eq_append {place : Disk.Location} {first last : Bytes} {turns : List Turn}
    (h : Undisturbed place first turns last)
    (hacts : ∀ t ∈ turns, Acts t.before t.found t)
    (hplace : ∀ t ∈ turns, t.wrote = true → t.left.locate t.before.metricsPath = .ok place) :
    last = first ++ bytesOf (turns.flatMap Turn.lines) := by
  induction h with
  | start => exact (List.append_nil first).symm
  | @turn turns t _ ih =>
    have hmem : t ∈ turns ++ [t] := by simp
    have hbefore := ih (fun u hu => hacts u (List.mem_append_left _ hu))
      (fun u hu => hplace u (List.mem_append_left _ hu))
    rw [(hacts t hmem).bytesAt (hplace t hmem), hbefore, List.flatMap_append, bytesOf_append,
      List.append_assoc, List.flatMap_singleton]

/-- The record of the run that is written names the run started last. -/
theorem Turn.run?_component {t : Turn} {elapsedMs : Nat} (h : t.operation = .stop elapsedMs) :
    t.run?.map RunMetric.component = t.before.timing := by
  rw [← t.before.timing_stopRun elapsedMs, timing, stopRun_run, Option.none_or, Turn.run?, h]

/-- Whatever calls were made, and whatever each of them found on the disk, the records written
and then those that are held are exactly the records completed, in order.  A call that writes
nothing changes no file.  A call that writes adds a line for each record in one piece at the end
of the metrics file, and before them one for the run that was started last, if any was started
since records were written last; nothing else on the disk changes but for the directories on the
way.  Every line decodes to its record.  When nobody else touches the file, it has what it had
first and then all the lines. -/
theorem records_written_once (s : MonitoringSettings) (cache : Path) (calls : List Invocation)
    {r : Recorder} {turns : List Turn} (henabled : s.enabled = true)
    (hr : (new s cache).afterAll calls = r) (hturns : (new s cache).history calls = turns) :
    turns.flatMap Turn.written ++ r.files = turns.filterMap Turn.record? ∧
    (∀ earlier t later, turns = earlier ++ t :: later →
      (t.wrote = false →
        t.lines = [] ∧ Disk.Preserved (s.path.getD cache).components t.found t.left) ∧
      (t.wrote = true →
        t.written ≠ [] ∧
        t.written.map FileMetric.ordinal = List.range t.written.length ∧
        t.run?.map RunMetric.component = latestRun earlier ∧
        (∀ line ∈ t.lines, '\n' ∉ line.toList) ∧
        ∃ place, Disk.Appended (s.path.getD cache).components
          ((s.path.getD cache).join ⟨fileName⟩) (bytesOf t.lines) place t.found t.left)) ∧
    ((∀ t ∈ turns, t.operation.Sized) → turns.length ≤ Json.maxSignificand →
      ∀ t ∈ turns, t.wrote = true →
        (∀ m ∈ t.run?, Json.decode RunMetric.decoder m.toValue.compact = .ok m) ∧
        ∀ m ∈ t.written, Json.decode FileMetric.decoder m.toValue.compact = .ok m) ∧
    ∀ place first last,
      (∀ t ∈ turns, t.wrote = true →
        t.left.locate ((s.path.getD cache).join ⟨fileName⟩) = .ok place) →
      Undisturbed place first turns last → last = first ++ bytesOf (turns.flatMap Turn.lines) := by
  subst hr hturns
  refine ⟨written_append_files_afterAll henabled cache calls, ?_, ?_, ?_⟩
  · intro earlier t later hsplit
    obtain ⟨hacts, before, rfl, hbefore⟩ := acts_of_history henabled hsplit
    have hconsistent := consistent_afterAll henabled cache before
    rw [← hbefore] at hconsistent
    refine ⟨fun hnot => ⟨by rw [Turn.lines, hnot]; rfl, ?_⟩, fun hwrote => ?_⟩
    · exact hconsistent.dir ▸ hacts.preserved hnot
    · obtain ⟨hwritten, hfiles, place, happended⟩ := hacts.appended hwrote
      rw [metricsPath, hconsistent.dir] at happended
      refine ⟨hwritten ▸ hfiles, hwritten ▸ hconsistent.ordinals, ?_,
        fun line => t.newline_notMem_lines, place, happended⟩
      rcases hacts.cases_wrote with ⟨hnot, -⟩ | ⟨-, elapsedMs, hoperation, -⟩
      · rw [hnot] at hwrote
        cases hwrote
      · exact (Turn.run?_component hoperation).trans hconsistent.timing
  · intro hsized hcount t ht hwrote
    obtain ⟨earlier, later, hsplit⟩ := List.append_of_mem ht
    obtain ⟨hacts, before, rfl, hbefore⟩ := acts_of_history henabled hsplit
    rw [hsplit, List.length_append] at hcount
    have hfits := fits_afterAll henabled cache before
      (fun u hu => hsized u (hsplit ▸ List.mem_append_left _ hu)) (by omega)
    exact hacts.decode_lines (hsized t ht) (hbefore ▸ hfits) hwrote
  · intro place first last hplace hundisturbed
    have hturn : ∀ t ∈ (new s cache).history calls, Acts t.before t.found t ∧
        t.before.dir = s.path.getD cache := by
      intro t ht
      obtain ⟨earlier, later, hsplit⟩ := List.append_of_mem ht
      obtain ⟨hacts, before, -, hbefore⟩ := acts_of_history henabled hsplit
      exact ⟨hacts, hbefore ▸ (consistent_afterAll henabled cache before).dir⟩
    refine hundisturbed.eq_append (fun t ht => (hturn t ht).1) fun t ht hwrote => ?_
    rw [metricsPath, (hturn t ht).2]
    exact hplace t ht hwrote

/-- Calls that complete three files.  At the first stop a file stands in the way of the
directory; at the second one there is a metrics file that has a line already. -/
def interruptedCalls : List Invocation :=
  [.startRun "js", .startFile "a\n\"", .stopFile "a\n\"" 3 ⟨1, 2⟩, .stop 5].map
      (Invocation.mk ⟨.dir [("m", .file [])], []⟩) ++
    [.startFile "b", .stopFile "b" 4 ⟨0, 7⟩, .stop 9, .startFile "c", .stopFile "c" 6 ⟨0, 0⟩].map
      (Invocation.mk ⟨.dir [("m", .dir [("metrics.json", .file [123, 125, 10])])], []⟩)

/-- The two records of before are written in one piece behind the line that is there, with the
run in front of them, and the third record is held. -/
theorem interruptedCalls_written_once :
    ∃ r turns t, (new ⟨true, some ⟨"/m"⟩⟩ ⟨"/c"⟩).afterAll interruptedCalls = r ∧
      (new ⟨true, some ⟨"/m"⟩⟩ ⟨"/c"⟩).history interruptedCalls = turns ∧
      turns.map Turn.wrote = [false, false, false, false, false, false, true, false, false] ∧
      turns.flatMap Turn.written ++ r.files =
        [⟨"a\n\"", 2, 1, 3, 0⟩, ⟨"b", 7, 0, 4, 1⟩, ⟨"c", 0, 0, 6, 0⟩] ∧
      t ∈ turns ∧ t.run?.map RunMetric.component = some "js" ∧ t.lines.length = 3 ∧
      t.left.read ⟨"/m/metrics.json"⟩ = .ok ([123, 125, 10] ++ bytesOf t.lines) ∧
      ∀ m ∈ t.written, Json.decode FileMetric.decoder m.toValue.compact = .ok m := by
  have hrecords : ((new ⟨true, some ⟨"/m"⟩⟩ ⟨"/c"⟩).history interruptedCalls).filterMap
      Turn.record? = [⟨"a\n\"", 2, 1, 3, 0⟩, ⟨"b", 7, 0, 4, 1⟩, ⟨"c", 0, 0, 6, 0⟩] := by
    decide +kernel
  have hturn : ((new ⟨true, some ⟨"/m"⟩⟩ ⟨"/c"⟩).history interruptedCalls).any (fun t =>
      t.wrote = true ∧ t.run?.map RunMetric.component = some "js" ∧ t.lines.length = 3 ∧
        t.found.read ⟨"/m/metrics.json"⟩ = .ok [123, 125, 10]) = true := by
    decide +kernel
  have hsized : ∀ t ∈ (new ⟨true, some ⟨"/m"⟩⟩ ⟨"/c"⟩).history interruptedCalls,
      t.operation.Sized := by
    decide +kernel
  have hpath : (⟨"/m"⟩ : Path).join ⟨fileName⟩ = ⟨"/m/metrics.json"⟩ := by decide
  obtain ⟨hall, hturns, hdecode, -⟩ := records_written_once ⟨true, some ⟨"/m"⟩⟩ ⟨"/c"⟩
    interruptedCalls rfl rfl rfl
  obtain ⟨t, ht, hfacts⟩ := List.any_eq_true.mp hturn
  obtain ⟨hwrote, hrun, hlines, hfound⟩ := of_decide_eq_true hfacts
  obtain ⟨earlier, later, hsplit⟩ := List.append_of_mem ht
  obtain ⟨-, -, -, -, place, happended⟩ := (hturns earlier t later hsplit).2 hwrote
  simp only [Option.getD_some, hpath] at happended
  refine ⟨_, _, t, rfl, rfl, by decide +kernel, hall.trans hrecords, ht, hrun, hlines, ?_, ?_⟩
  · rw [happended.read, happended.bytesAt_of_read hfound]
  · exact (hdecode hsized (by decide +kernel) t ht hwrote).2

end LintRelay.Recorder
