import LintRelay.Metrics
import LintRelay.Proofs.Disk.Frame
import LintRelay.Proofs.Json.Written
set_option autoImplicit false

/-!
# What the recorder writes

Each record is one line, whatever characters the name of its file has, and the line decodes
to the record.  The lines come behind what is in the metrics file already; where the
directory was missing it is made, which changes no file.
-/

namespace LintRelay

open Json (Reads Folds Value)

/-! ## Records read back -/

/-- The duration of a run is a number of 64 bits. -/
def RunMetric.Fits (m : RunMetric) : Prop := m.durationMs ≤ Json.maxSignificand

theorem RunMetric.decode_compact {m : RunMetric} (h : m.Fits) :
    Json.decode RunMetric.decoder m.toValue.compact = .ok m := by
  have hfinish : RunMetric.finish ⟨some m.component, some m.durationMs⟩ = .ok m := rfl
  refine Json.decode_compact_object ?_ hfinish
  refine .field rfl rfl (Json.reads_of (Json.reads_string_chars _ m.component)) ?_
  refine .field rfl rfl (Json.reads_of (Json.reads_nat64 h _)) ?_
  exact .nil _

/-- The numbers of a record are of 64 bits. -/
structure FileMetric.Fits (m : FileMetric) : Prop where
  analysisTime : m.analysisTime ≤ Json.maxSignificand
  parseTime : m.parseTime ≤ Json.maxSignificand
  ncloc : m.ncloc ≤ Json.maxSignificand
  ordinal : m.ordinal ≤ Json.maxSignificand

theorem FileMetric.decode_compact {m : FileMetric} (h : m.Fits) :
    Json.decode FileMetric.decoder m.toValue.compact = .ok m := by
  have hfinish : FileMetric.finish ⟨some m.component, some m.analysisTime, some m.parseTime,
      some m.ncloc, some m.ordinal⟩ = .ok m := rfl
  refine Json.decode_compact_object ?_ hfinish
  refine .field rfl rfl (Json.reads_of (Json.reads_string_chars _ m.component)) ?_
  refine .field rfl rfl (Json.reads_of (Json.reads_nat64 h.analysisTime _)) ?_
  refine .field rfl rfl (Json.reads_of (Json.reads_nat64 h.parseTime _)) ?_
  refine .field rfl rfl (Json.reads_of (Json.reads_nat64 h.ncloc _)) ?_
  refine .field rfl rfl (Json.reads_of (Json.reads_nat64 h.ordinal _)) ?_
  exact .nil _

/-- The compact text of a value is one line. -/
theorem Json.Value.newline_notMem_compact (v : Value) : '\n' ∉ v.compact.toList := by
  intro hmem
  rw [Value.compact, String.toList_ofList] at hmem
  have hprintable := v.printable '\n' hmem
  revert hprintable
  decide

namespace Recorder

/-! ## The text of a batch -/

/-- The values that a recorder would write, one a line. -/
def values (r : Recorder) : List Value :=
  r.runMetric.toList.map RunMetric.toValue ++ r.files.map FileMetric.toValue

theorem batch_eq_join (r : Recorder) :
    r.batch = String.join ((r.values.map Value.compact).map (· ++ "\n")) := by
  unfold batch values
  cases r.runMetric <;> simp [line, Function.comp_def]

/-! ## Writing a batch -/

/-- The metrics directory is there or can be made, and the metrics file can be appended
to. -/
def CanRecord (d : Disk) (dir : Path) : Prop :=
  ∃ made after, d.ensureDirectory dir = .ok made ∧ made.append (dir.join ⟨fileName⟩) [] = .ok after

instance (d : Disk) (dir : Path) : Decidable (CanRecord d dir) :=
  decidable_of_iff
    (((d.ensureDirectory dir).toOption.bind fun made =>
      (made.append (dir.join ⟨fileName⟩) []).toOption).isSome = true) (by
    have htoOption : ∀ {r : Except Disk.OsError Disk} {a : Disk},
        r.toOption = some a ↔ r = .ok a := by
      intro r a
      cases r <;> simp [Except.toOption]
    simp only [Option.isSome_iff_exists, Option.bind_eq_some_iff, htoOption, CanRecord]
    constructor
    · rintro ⟨after, made, hmade, happend⟩
      exact ⟨made, after, hmade, happend⟩
    · rintro ⟨made, after, hmade, happend⟩
      exact ⟨after, made, hmade, happend⟩)

/-- A batch that was written comes behind what was in the place of the metrics file. -/
theorem writeBatch_eq_ok {r : Recorder} {d d' : Disk} (h : r.writeBatch d = (.ok (), d')) :
    ∃ place, Disk.Appended r.dir.components r.metricsPath (Text.utf8 r.batch) place d d' := by
  have hway := (d.tryDirectory_makesWay r.dir).preserved
  unfold writeBatch at h
  rcases hmade : d.tryDirectory r.dir with ⟨err | done, made⟩
  · simp [hmade] at h
  · simp only [hmade] at h hway
    cases happend : made.append r.metricsPath (Text.utf8 r.batch) with
    | error err => simp [happend] at h
    | ok written =>
      simp only [happend, Prod.mk.injEq, true_and] at h
      obtain ⟨place, happended⟩ := Disk.append_appended happend
      exact ⟨place, h ▸ hway.appended happended⟩

/-- When a batch could not be written, directories may have been made. -/
theorem writeBatch_eq_error {r : Recorder} {d d' : Disk} {err : Disk.OsError}
    (h : r.writeBatch d = (.error err, d')) : Disk.Preserved r.dir.components d d' := by
  have hway := (d.tryDirectory_makesWay r.dir).preserved
  unfold writeBatch at h
  rcases hmade : d.tryDirectory r.dir with ⟨err | done, made⟩
  · simp only [hmade, Prod.mk.injEq] at h hway
    exact h.2 ▸ hway
  · simp only [hmade] at h hway
    cases happend : made.append r.metricsPath (Text.utf8 r.batch) with
    | error err =>
      simp only [happend, Prod.mk.injEq] at h
      exact h.2 ▸ hway
    | ok written => simp [happend] at h

theorem writeBatch_of_canRecord {r : Recorder} {d : Disk} (h : CanRecord d r.dir) :
    ∃ d', r.writeBatch d = (.ok (), d') := by
  obtain ⟨made, after, hmade, happend⟩ := h
  obtain ⟨d', hd'⟩ := Disk.modifyFile_ok_of_ok happend fun old => old ++ Text.utf8 r.batch
  have hwritten : made.append r.metricsPath (Text.utf8 r.batch) = .ok d' := hd'
  rw [Disk.ensureDirectory_eq_ok_iff] at hmade
  exact ⟨d', by simp only [writeBatch, hmade, hwritten]⟩

/-! ## Stopping -/

section StopRun

variable (r : Recorder) (elapsedMs : Nat)

@[simp] theorem stopRun_enabled : (r.stopRun elapsedMs).enabled = r.enabled := by
  unfold stopRun; split <;> rfl

@[simp] theorem stopRun_dir : (r.stopRun elapsedMs).dir = r.dir := by
  unfold stopRun; split <;> rfl

@[simp] theorem stopRun_current : (r.stopRun elapsedMs).current = r.current := by
  unfold stopRun; split <;> rfl

@[simp] theorem stopRun_files : (r.stopRun elapsedMs).files = r.files := by
  unfold stopRun; split <;> rfl

@[simp] theorem stopRun_run : (r.stopRun elapsedMs).run = none := by
  unfold stopRun
  split
  · rfl
  · assumption

end StopRun

/-- A recorder that has recorded nothing leaves the disk alone. -/
theorem stop_disk_of_nil {r : Recorder} (hfiles : r.files = []) (elapsedMs : Nat) (d : Disk) :
    (r.stop elapsedMs d).disk = d := by
  simp [stop, hfiles]

/-- Whether a recorder could write or not: all that has changed is the metrics file and
directories on the way to it. -/
theorem stop_disk_cases (r : Recorder) (elapsedMs : Nat) (d : Disk) :
    Disk.Preserved r.dir.components d (r.stop elapsedMs d).disk ∨
      ∃ place bytes, Disk.Appended r.dir.components r.metricsPath bytes place d
        (r.stop elapsedMs d).disk := by
  have hdir : r.dir = (r.stopRun elapsedMs).dir := (r.stopRun_dir elapsedMs).symm
  have hpath : r.metricsPath = (r.stopRun elapsedMs).metricsPath := by
    rw [metricsPath, hdir, metricsPath]
  rw [hpath, hdir]
  unfold stop
  simp only
  split
  · exact .inl (.refl d)
  · rcases hwrite : Recorder.writeBatch { r.stopRun elapsedMs with current := none } d with
      ⟨err | done, d'⟩
    · exact .inl (writeBatch_eq_error hwrite)
    · obtain ⟨place, happended⟩ := writeBatch_eq_ok hwrite
      exact .inr ⟨place, _, happended⟩

/-- A recorder that has timed a run and completed records writes the lines of all. -/
theorem stop_disk_of_canRecord {r : Recorder} {d : Disk} {component : String} (elapsedMs : Nat)
    (henabled : r.enabled = true) (hrun : r.run = some component) (hfiles : r.files ≠ [])
    (h : CanRecord d r.dir) :
    ∃ place, (r.stop elapsedMs d).disk.locate r.metricsPath = .ok place ∧
      (r.stop elapsedMs d).disk.read r.metricsPath =
        .ok (d.tree.bytesAt place ++
          Text.utf8 (String.join
            (((RunMetric.toValue ⟨component, elapsedMs⟩ :: r.files.map FileMetric.toValue).map
              Value.compact).map (· ++ "\n")))) ∧
      ∀ before, d.read r.metricsPath = .ok before → d.tree.bytesAt place = before := by
  have hstopped : r.stopRun elapsedMs =
      { r with run := none, runMetric := some ⟨component, elapsedMs⟩ } := by
    simp [stopRun, hrun]
  obtain ⟨d', hwrite⟩ := writeBatch_of_canRecord
    (r := { r with run := none, runMetric := some ⟨component, elapsedMs⟩, current := none }) h
  obtain ⟨place, happended⟩ := writeBatch_eq_ok hwrite
  have hdisk : (r.stop elapsedMs d).disk = d' := by
    have hwriting : (!r.enabled || r.files.isEmpty) = false := by simp [henabled, hfiles]
    simp only [stop, hstopped, hwriting, hwrite, Bool.false_eq_true, if_false]
  have hread := happended.read
  rw [batch_eq_join] at hread
  rw [hdisk]
  exact ⟨place, happended.located, hread, fun before => happended.bytesAt_of_read⟩

end Recorder

end LintRelay
